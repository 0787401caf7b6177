import RTno2Proxy.Framing
import RTno2Proxy.Protocol

/-! One request and one reply of the protocol on a line: what an exchange takes off the
line in every case, and what it returns when the next bytes are a whole reply frame. -/
namespace RTno2Proxy
open Imperative
open Delimiter
open EnumClass (toByte ofByte)
open Line (Took tookNothing)

namespace Packet

/- The bytes that `receive` turns into exactly this packet. Up to 252 data bytes they
are the ones that `send` writes. -/
def whole (p : Packet) : Bytes := Transport.arrived (p,p.getSum)

theorem wholeFrame {p : Packet} (small : p.data.length ≤ 252) : p.whole = p.frame := Transport.arrivedFrame small

end Packet

namespace Transport
variable {setting : Setting} {waitUsec : UInt32}

theorem NewSource.took {w t : Line} {found : Result} (h : NewSource waitUsec w found t) : ∃ raw, Took w raw t := by
  cases h with
  | found took => exact ⟨_,took⟩
  | timeout took => exact ⟨_,took⟩

theorem ReceiveSource.took {w t : Line} {out : ResultT Packet} (h : ReceiveSource waitUsec w out t) :
    ∃ raw, Took w raw t := by
  cases h with
  | header took => exact ⟨_,took⟩
  | body took => exact ⟨_,took⟩
  | checksum took => exact ⟨_,took⟩
  | damaged took => exact ⟨_,took⟩
  | packet took => exact ⟨_,took⟩

theorem wholeMarked (p : Packet) (rest : Bytes) :
    FirstPair startByte (p.whole ++ rest) (p.serialize ++ p.getSum :: rest) := by
  simpa [Packet.whole,arrived,startMarker] using firstPairHere startByte _

end Transport

namespace Protocol
open Transport (uint32Max isNewLocks receiveFramed wholeMarked verdict)
variable {setting : Setting} {waitUsec : UInt32} {α : Type}

theorem valueReturns {result : ResultT α} {w t : Line} {a : α} :
    (value result : Act Line α).Returns w a t ↔ result.value = some a ∧ t = w := by
  unfold value
  cases result.value with
  | none =>
    refine iff_of_false (fun h => ?_) (by simp)
    have raised := Program.returnsStep.mp h
    simp at raised
  | some b =>
    refine Program.returnsPure.trans ?_
    simp only [Option.some.injEq,eq_comm]

theorem payloadInside {p : Packet} {i : Nat} {b : UInt8} (found : p.data[i]? = some b) (w : Line) :
    (payload (Line.host setting) p i).Returns w b w := by
  simp only [payload,Int.natCast_nonneg,if_true,Int.toNat_natCast,found]
  exact Program.returnsPure.mpr ⟨rfl,rfl⟩

theorem payloadStill {p : Packet} {i : Int} {w t : Line} {b : UInt8}
    (h : (payload (Line.host setting) p i).Returns w b t) :
    t = w ∧ ∀ u, (payload (Line.host setting) p i).Returns u b u := by
  unfold payload at h ⊢
  split at h
  · obtain ⟨rfl,rfl⟩ := Program.returnsPure.mp h
    exact ⟨rfl,fun u => Program.returnsPure.mpr ⟨rfl,rfl⟩⟩
  · simp only [Line.host] at h ⊢
    split at h
    · obtain ⟨rfl,rfl⟩ := Program.returnsPure.mp h
      exact ⟨rfl,fun u => Program.returnsPure.mpr ⟨rfl,rfl⟩⟩
    · have raised := Program.returnsStep.mp h
      simp at raised

def Steady (exit : ResultT Packet → Act Line α) : Prop :=
  ∀ result w a t, (exit result).Returns w a t → t = w ∧ ∀ u, (exit result).Returns u a u

theorem steadyPure (f : ResultT Packet → α) : Steady fun result => (pure (f result) : Act Line α) := by
  intro result w a t h
  obtain ⟨rfl,rfl⟩ := Program.returnsPure.mp h
  exact ⟨rfl,fun u => Program.returnsPure.mpr ⟨rfl,rfl⟩⟩

theorem steadyValue (f : ResultT Packet → α) : Steady fun result => (do
    let _ ← value result
    pure (f result) : Act Line α) := by
  intro result w a t h
  obtain ⟨p,_,hv,last⟩ := Program.returnsBind.mp h
  obtain ⟨present,rfl⟩ := valueReturns.mp hv
  obtain ⟨rfl,rfl⟩ := Program.returnsPure.mp last
  exact ⟨rfl,fun u => Program.returnsBind.mpr ⟨p,u,valueReturns.mpr ⟨present,rfl⟩,Program.returnsPure.mpr ⟨rfl,rfl⟩⟩⟩

theorem firstByteSteady (setting : Setting) {ε : Type} [EnumClass ε] :
    Steady (firstByte (ε := ε) (Line.host setting)) := by
  intro result w a t h
  obtain ⟨p,_,hv,atByte⟩ := Program.returnsBind.mp h
  obtain ⟨present,rfl⟩ := valueReturns.mp hv
  obtain ⟨code,_,hc,last⟩ := Program.returnsBind.mp atByte
  obtain ⟨rfl,read⟩ := payloadStill hc
  obtain ⟨rfl,rfl⟩ := Program.returnsPure.mp last
  exact ⟨rfl,fun u => Program.returnsBind.mpr ⟨p,u,valueReturns.mpr ⟨present,rfl⟩,
    Program.returnsBind.mpr ⟨code,u,read u,Program.returnsPure.mpr ⟨rfl,rfl⟩⟩⟩⟩

theorem payloadRangeInside (setting : Setting) {p : Packet} {left raw right : Bytes} (data : p.data = left ++ raw ++ right) (w : Line) :
    (payloadRange (Line.host setting) p left.length raw.length).Returns w raw w := by
  induction raw generalizing left with
  | nil => exact Program.returnsPure.mpr ⟨rfl,rfl⟩
  | cons b rest ih =>
    have here : p.data[left.length]? = some b := by simp [data]
    have shifted : p.data = (left ++ [b]) ++ rest ++ right := by simp [data]
    have later := ih shifted
    rw [List.length_append,List.length_singleton,Int.natCast_add] at later
    exact Program.returnsBind.mpr ⟨_,_,payloadInside here w,
      Program.returnsBind.mpr ⟨_,_,later,Program.returnsPure.mpr ⟨rfl,rfl⟩⟩⟩

theorem payloadRangeStill {p : Packet} {i : Int} {n : Nat} {w t : Line} {raw : Bytes}
    (h : (payloadRange (Line.host setting) p i n).Returns w raw t) :
    t = w ∧ ∀ u, (payloadRange (Line.host setting) p i n).Returns u raw u := by
  induction n generalizing i w raw with
  | zero =>
    obtain ⟨rfl,rfl⟩ := Program.returnsPure.mp h
    exact ⟨rfl,fun u => Program.returnsPure.mpr ⟨rfl,rfl⟩⟩
  | succ n ih =>
    obtain ⟨b,u,hb,more⟩ := Program.returnsBind.mp h
    obtain ⟨rest,v,hr,last⟩ := Program.returnsBind.mp more
    obtain ⟨rfl,rfl⟩ := Program.returnsPure.mp last
    obtain ⟨rfl,first⟩ := payloadStill hb
    obtain ⟨rfl,later⟩ := ih hr
    exact ⟨rfl,fun u => Program.returnsBind.mpr ⟨_,_,first u,
      Program.returnsBind.mpr ⟨_,_,later u,Program.returnsPure.mpr ⟨rfl,rfl⟩⟩⟩⟩

theorem waitTook {command : Command} {w t : Line} {result : ResultT Packet}
    (h : (waitAndReceiveCommand (Line.host setting) command waitUsec).Returns w result t) : ∃ raw, Took w raw t := by
  obtain ⟨found,u,hf,atReceive⟩ := Program.returnsBind.mp h
  obtain ⟨_,first⟩ := (Transport.isNewSource hf).took
  split at atReceive
  · obtain ⟨out,v,hr,atCommand⟩ := Program.returnsBind.mp atReceive
    obtain ⟨_,second⟩ := (Transport.receiveSource hr).took
    split at atCommand
    · obtain ⟨_,rfl⟩ := Program.returnsPure.mp atCommand
      exact ⟨_,first.append second⟩
    · obtain ⟨pac,x,hv,last⟩ := Program.returnsBind.mp atCommand
      obtain ⟨_,rfl⟩ := valueReturns.mp hv
      simp only [Program.returnsIte,Program.returnsPure] at last
      have same : t = x := by
        split at last
        · exact last.2
        · split at last <;> exact last.2
      rw [same]
      exact ⟨_,first.append second⟩
  · obtain ⟨_,rfl⟩ := Program.returnsPure.mp atReceive
    exact ⟨_,first⟩

def awaited (c : Command) (p : Packet) : ResultT Packet :=
  if p.command = c then .ofValue p else if p.command = .packetError then .ofResult p.result else .ofResult .err

theorem waitWholeTimely (setting : Setting) (waitUsec : UInt32) {p : Packet} {rest : Bytes} {w : Line}
    (timely : w.Timely) (stream : w.stream = p.whole ++ rest) :
    ∃ t, (waitAndReceiveCommand (Line.host setting) p.command waitUsec).Returns w (.ofValue p) t ∧
      t.stream = rest ∧ ∃ raw, Took w raw t := by
  obtain ⟨u,t,raw,hf,hr,left,took⟩ := Transport.nextFrame setting waitUsec timely (stream ▸ wholeMarked p rest)
  refine ⟨t,Program.returnsBind.mpr ⟨.ok,u,hf,?_⟩,left,raw,took⟩
  refine Program.returnsBind.mpr ⟨.ofValue p,t,hr,Program.returnsBind.mpr ⟨p,t,valueReturns.mpr ⟨rfl,rfl⟩,?_⟩⟩
  rw [if_pos rfl]
  exact Program.returnsPure.mpr ⟨rfl,rfl⟩

def command (c : Command) : Packet := .initialise c .ok [] 0

theorem attemptTimely (setting : Setting) (waitUsec : UInt32) {p : Packet} {rest : Bytes} {w : Line}
    {exit : ResultT Packet → Act Line α} {a : α} (timely : w.Timely) (waiting : w.incoming = [])
    (stream : (w.accept setting (command p.command)).stream = p.whole ++ rest)
    (exits : ∀ u, (exit (.ofValue p)).Returns u a u) :
    ∃ t raw, (attempt (Line.host setting) p.command waitUsec exit).Returns w (some a) t ∧ t.stream = rest ∧
      Took (w.accept setting (command p.command)) raw t := by
  have accepted := Transport.sendAccept setting (p := command p.command) (Nat.zero_le _) waiting
  obtain ⟨t,waited,left,raw,took⟩ := waitWholeTimely setting waitUsec (Line.acceptTimely timely) stream
  exact ⟨t,raw,Program.returnsBind.mpr ⟨_,_,accepted,Program.returnsBind.mpr ⟨_,t,waited,
    Program.returnsBind.mpr ⟨a,t,exits t,Program.returnsPure.mpr ⟨rfl,rfl⟩⟩⟩⟩,left,took⟩

end Protocol
end RTno2Proxy
