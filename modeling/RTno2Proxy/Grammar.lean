import RTno2Proxy.Framing

/-! What the receiver accepts, on any finite stream, and how many bytes each verdict
costs; and where the 8-bit length of a packet stops being exact. -/
namespace RTno2Proxy
open Imperative
open Delimiter
open EnumClass (toByte ofByte)
open Line (Took tookNothing)

namespace Packet

theorem sumToNat (raw : Bytes) : (sumBytes raw).toNat = (raw.map UInt8.toNat).sum % 256 := by
  induction raw with
  | nil => rfl
  | cons b rest ih =>
    rw [sumCons,UInt8.toNat_add,ih,List.map_cons,List.sum_cons]
    omega

end Packet

namespace Transport
variable {setting : Setting} {waitUsec : UInt32}

def sizeAt (raw : Bytes) : Nat := (raw.getD 2 0).toNat

structure Judged (raw : Bytes) (out : ResultT Packet) (left : Bytes) : Prop where
  header : out = .ofResult .packetHeaderTimeout ∧ left = raw ↔ raw.length < 3
  body : out = .ofResult .packetBodyTimeout ∧ left = raw.drop 3 ↔ 3 ≤ raw.length ∧ raw.length < 3 + sizeAt raw
  checksum : out = .ofResult .packetChecksumTimeout ∧ left = raw.drop (3 + sizeAt raw) ↔
    raw.length = 3 + sizeAt raw
  packet : (∃ p, out = .ofValue p ∧ left = raw.drop (4 + sizeAt raw) ∧ toByte p.command = raw.getD 0 0 ∧
      toByte p.result = raw.getD 1 0 ∧ p.data = (raw.drop 3).take (sizeAt raw)) ↔
    4 + sizeAt raw ≤ raw.length ∧
      (raw.getD (3 + sizeAt raw) 0).toNat = ((raw.take (3 + sizeAt raw)).map UInt8.toNat).sum % 256
  damaged : out = .ofResult .checksumError ∧ left = raw.drop (4 + sizeAt raw) ↔
    4 + sizeAt raw ≤ raw.length ∧
      (raw.getD (3 + sizeAt raw) 0).toNat ≠ ((raw.take (3 + sizeAt raw)).map UInt8.toNat).sum % 256

theorem sizeAtSerialize (p : Packet) (rest : Bytes) : sizeAt (p.serialize ++ rest) = p.data.length := by
  simp [sizeAt,Packet.serialize,Packet.dataLength]

theorem judgedHeader {raw : Bytes} (short : raw.length < 3) : Judged raw (.ofResult .packetHeaderTimeout) raw where
  header := ⟨fun _ => short,fun _ => ⟨rfl,rfl⟩⟩
  body := by simp [ResultT.ofResult]; omega
  checksum := by simp [ResultT.ofResult]; omega
  packet := by simp [ResultT.ofResult,ResultT.ofValue]; omega
  damaged := by simp [ResultT.ofResult]; omega

theorem judgedBody (command result : UInt8) {size : UInt8} {left : Bytes} (short : left.length < size.toNat) :
    Judged ([command,result,size] ++ left) (.ofResult .packetBodyTimeout) left where
  header := by simp [ResultT.ofResult]
  body := by simp [ResultT.ofResult,sizeAt]; omega
  checksum := by simp [ResultT.ofResult,sizeAt]; omega
  packet := by simp [ResultT.ofResult,ResultT.ofValue,sizeAt]; omega
  damaged := by simp [ResultT.ofResult,sizeAt]; omega

theorem judgedChecksum (p : Packet) : Judged p.serialize (.ofResult .packetChecksumTimeout) [] := by
  have size := sizeAtSerialize p []
  rw [List.append_nil] at size
  have length := p.serializeLength
  constructor
  · simp [ResultT.ofResult]; omega
  · simp [ResultT.ofResult]; omega
  · simp [ResultT.ofResult]; omega
  · simp [ResultT.ofResult,ResultT.ofValue]; omega
  · simp [ResultT.ofResult]; omega

theorem judgedFrame {p : Packet} (small : p.data.length ≤ 252) (sum : UInt8) (rest : Bytes) :
    Judged (p.serialize ++ sum :: rest) (verdict p sum) rest := by
  have size := sizeAtSerialize p (sum :: rest)
  have length := p.serializeLength
  have total : (p.serialize ++ sum :: rest).length = 4 + p.data.length + rest.length := by
    rw [List.length_append,length,List.length_cons]
    omega
  have last : (p.serialize ++ sum :: rest).getD (3 + p.data.length) 0 = sum := by
    rw [← length]
    simp
  have summed : (p.serialize ++ sum :: rest).take (3 + p.data.length) = p.serialize := by
    rw [← length]
    simp
  have left : (p.serialize ++ sum :: rest).drop (4 + p.data.length) = rest := by
    rw [show 4 + p.data.length = p.serialize.length + 1 by omega,← List.drop_drop]
    simp
  have data : ((p.serialize ++ sum :: rest).drop 3).take p.data.length = p.data := by
    simp [Packet.serialize]
  have right : (sum.toNat = (p.serialize.map UInt8.toNat).sum % 256) ↔ p.getSum = sum := by
    rw [← Packet.sumToNat,← Packet.getSumSmall small,UInt8.toNat_inj]
    exact eq_comm
  have enough : 4 + p.data.length ≤ (p.serialize ++ sum :: rest).length := by omega
  by_cases same : p.getSum = sum
  · rw [verdict,if_pos same]
    constructor
    · simp [ResultT.ofResult,ResultT.ofValue]; omega
    · simp [ResultT.ofResult,ResultT.ofValue]; omega
    · simp [ResultT.ofResult,ResultT.ofValue]; omega
    · rw [size,last,summed,left,data,right]
      exact ⟨fun _ => ⟨enough,same⟩,fun _ => ⟨p,rfl,rfl,rfl,rfl,rfl⟩⟩
    · rw [size,last,summed,left,ne_eq,right]
      simp [ResultT.ofResult,ResultT.ofValue,same]
  · rw [verdict,if_neg same]
    constructor
    · simp [ResultT.ofResult]; omega
    · simp [ResultT.ofResult]; omega
    · simp [ResultT.ofResult]; omega
    · rw [size,last,summed,left,data,right]
      simp [ResultT.ofResult,ResultT.ofValue,same]
    · rw [size,last,summed,left,ne_eq,right]
      exact ⟨fun _ => ⟨enough,same⟩,fun _ => ⟨rfl,rfl⟩⟩

theorem receiveJudged {w t : Line} {out : ResultT Packet} (timely : w.Timely) (small : sizeAt w.stream ≤ 252)
    (h : (receive (Line.host setting) waitUsec).Returns w out t) :
    Judged w.stream out t.stream ∧
      ∀ p, out = .ofValue p → startMarker ++ w.stream = p.frame ++ t.stream := by
  cases receiveSource h with
  | header took finite short =>
    have same := took.stream
    rw [List.nil_append] at same
    rw [← same]
    exact ⟨judgedHeader (short timely),by simp [ResultT.ofResult,ResultT.ofValue]⟩
  | body took finite short =>
    rw [took.stream]
    exact ⟨judgedBody _ _ (short timely),by simp [ResultT.ofResult,ResultT.ofValue]⟩
  | @checksum p _ took finite short =>
    rw [took.stream,short timely,List.append_nil]
    exact ⟨judgedChecksum p,by simp [ResultT.ofResult,ResultT.ofValue]⟩
  | @damaged p sum _ took wrong =>
    rw [tookFrame took] at small ⊢
    rw [sizeAtSerialize] at small
    have judged := judgedFrame small sum t.stream
    rw [verdict,if_neg wrong] at judged
    exact ⟨judged,by simp [ResultT.ofResult,ResultT.ofValue]⟩
  | @packet p _ took =>
    rw [tookFrame took] at small ⊢
    rw [sizeAtSerialize] at small
    have judged := judgedFrame small p.getSum t.stream
    rw [verdict,if_pos rfl] at judged
    refine ⟨judged,fun q same => ?_⟩
    cases same
    rw [Packet.frameSmall small]
    simp

theorem receiverGrammar (setting : Setting) (waitUsec : UInt32) (finite : waitUsec ≠ uint32Max) {w : Line}
    (timely : w.Timely) :
    ∃ found t, (isNew (Line.host setting) waitUsec).Returns w found t ∧
      (found = .ok ↔ Doubled startByte w.stream) ∧
      (found = .ok → FirstPair startByte w.stream t.stream) ∧
      (found ≠ .ok → found = .timeout ∧ t.stream = []) ∧
      (found = .ok → sizeAt t.stream ≤ 252 →
        ∃ out u, (receive (Line.host setting) waitUsec).Returns t out u ∧ Judged t.stream out u.stream ∧
          ∀ p, out = .ofValue p → ∃ skipped sent, ¬ Doubled startByte skipped ∧ Writes setting p sent ∧
            w.stream = skipped ++ sent ++ u.stream) := by
  obtain ⟨found,t,hf⟩ := isNewEnds setting waitUsec (w := w) (.inr finite)
  refine ⟨found,t,hf,?_⟩
  cases isNewSource hf with
  | timeout took free _ short =>
    have all := took.stream
    rw [short timely,List.append_nil] at all
    rw [all]
    exact ⟨by simp [free],by simp,fun _ => ⟨rfl,short timely⟩,by simp⟩
  | @found skipped _ took free =>
    have first := tookFirst took free
    refine ⟨iff_of_true rfl (firstPairDoubled first),fun _ => first,by simp,fun _ small => ?_⟩
    obtain ⟨out,u,hr⟩ := receiveEnds setting waitUsec (w := t) (.inr finite)
    obtain ⟨judged,accepted⟩ := receiveJudged (took.timely timely) small hr
    refine ⟨out,u,hr,judged,fun p same => ⟨skipped,p.frame,?_,writesFrame setting p,?_⟩⟩
    · exact fun doubled => free (doubledAppend _ doubled)
    · rw [took.stream,List.append_assoc,List.append_assoc,accepted p same]

theorem receiverGrammarBoot : ∃ found t, (isNew (Line.host .silent) 1000).Returns bootNoise found t ∧
    (found = .ok ↔ Doubled startByte bootNoise.stream) ∧
    (found = .ok → sizeAt t.stream ≤ 252 →
      ∃ out u, (receive (Line.host .silent) 1000).Returns t out u ∧ Judged t.stream out u.stream) := by
  obtain ⟨found,t,hf,doubled,_,_,judged⟩ := receiverGrammar .silent 1000 (by decide) (w := bootNoise) (by decide)
  refine ⟨found,t,hf,doubled,fun ok small => ?_⟩
  obtain ⟨out,u,hr,verdict,_⟩ := judged ok small
  exact ⟨out,u,hr,verdict⟩

def Accepts (setting : Setting) (p : Packet) (sum : UInt8) : Prop :=
  ∃ waitUsec w t, w.stream = p.serialize ++ [sum] ∧
    (receive (Line.host setting) waitUsec).Returns w (.ofValue p) t ∧ t.stream = []

structure LengthExact (setting : Setting) (p : Packet) : Prop where
  length : p.getPacketLength.toNat = 3 + p.data.length
  sends : Writes setting p (startMarker ++ p.serialize ++ [p.getSum])
  sums : p.getSum = Packet.sumBytes p.serialize
  apart : ∀ (q : Packet) (i : Nat) (b old : UInt8) (sum : UInt8), q.command = p.command → q.result = p.result →
    q.data = p.data.set i b → p.data[i]? = some old → b ≠ old → ¬ (Accepts setting p sum ∧ Accepts setting q sum)

theorem acceptsOwnSum {p : Packet} {sum : UInt8} (h : Accepts setting p sum) : p.getSum = sum := by
  obtain ⟨_,w,t,stream,received,_⟩ := h
  rcases receiveFramed stream received with ⟨late,_⟩ | ⟨judged,_⟩
  · simp [ResultT.ofValue] at late
  · by_contra other
    rw [verdict,if_neg other] at judged
    cases judged

theorem lengthExact (setting : Setting) (p : Packet) : LengthExact setting p ↔ p.data.length ≤ 252 := by
  constructor
  · intro exact
    exact Packet.packetLengthExact.mp exact.length
  · intro small
    refine ⟨Packet.packetLengthExact.mpr small,?_,Packet.getSumSmall small,?_⟩
    · have frame := writesFrame setting p
      rwa [Packet.frame,Packet.summedAll small] at frame
    · intro q i b old sum command result data found different both
      have same := (acceptsOwnSum both.2).trans (acceptsOwnSum both.1).symm
      have length : q.data.length = p.data.length := by rw [data,List.length_set]
      have serialized : q.serialize = p.serialize.set (i + 3) b := by
        simp [Packet.serialize,Packet.getDataLength,command,result,data]
      rw [Packet.getSumSmall small,Packet.getSumSmall (length ▸ small),serialized] at same
      exact Packet.sumSet (by simpa [Packet.serialize] using found) different same

theorem acceptsGetSum (setting : Setting) (p : Packet) : Accepts setting p p.getSum := by
  have framed : Line.stream {Line.idle with rx := p.serialize ++ [p.getSum]} = p.serialize ++ [p.getSum] :=
    List.append_nil _
  obtain ⟨out,t,received⟩ := receiveEnds setting uint32Max (.inl ⟨p,p.getSum,[],framed⟩)
  rcases receiveFramed framed received with ⟨_,infinite,_⟩ | ⟨judged,left,_⟩
  · contradiction
  · rw [verdict,if_pos rfl] at judged
    exact ⟨_,_,t,framed,judged ▸ received,left⟩

def oversized (last : UInt8) : Packet :=
  ⟨.receiveData,.ok,List.replicate 252 0 ++ [last],by rw [List.length_append,List.length_replicate,List.length_singleton]; decide⟩

theorem oversizedLength (last : UInt8) : (oversized last).data.length = 253 := by
  rw [oversized,List.length_append,List.length_replicate]
  rfl

theorem oversizedPacketLength (last : UInt8) : (oversized last).getPacketLength = 0 := by
  rw [Packet.getPacketLength,Packet.getDataLength,oversizedLength]
  rfl

theorem oversizedSum (last : UInt8) : (oversized last).getSum = 0 := by
  rw [Packet.getSum,oversizedPacketLength]
  rfl

/- From 253 data bytes on the length wraps: with 253 it is 0, `send` writes no byte of the
packet, and `receive` accepts two packets that differ in their last data byte. -/
theorem lengthWraps : (oversized 0).data.length = 253 ∧ (oversized 0).getPacketLength = 0 ∧
    Writes .silent (oversized 0) [startByte,startByte,0] ∧
    Accepts .silent (oversized 0) 0 ∧ Accepts .silent (oversized 1) 0 ∧ ¬ LengthExact .silent (oversized 0) := by
  have written := writesFrame .silent (oversized 0)
  rw [Packet.frame,oversizedPacketLength,oversizedSum] at written
  have zeros := acceptsGetSum .silent (oversized 0)
  have one := acceptsGetSum .silent (oversized 1)
  rw [oversizedSum] at zeros one
  refine ⟨oversizedLength 0,oversizedPacketLength 0,written,zeros,one,fun exact => ?_⟩
  have length := exact.length
  rw [oversizedPacketLength,oversizedLength] at length
  contradiction

end Transport
end RTno2Proxy
