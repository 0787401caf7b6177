import Mathlib.Data.List.Flatten
import RTno2Proxy.LineReads
import RTno2Proxy.LineWrites

/-! The frame grammar over whole streams. Nothing in a frame is escaped: a start
marker inside the data is harmless only because every `receive` ends where the next
frame begins, and the runs below carry this alignment from frame to frame. -/
namespace RTno2Proxy
open Imperative
open Delimiter
open EnumClass (toByte ofByte)
open Line (Took tookNothing)

namespace Transport
variable {setting : Setting} {waitUsec : UInt32}

def sendAll {σ : Type} (h : Host σ) : List Packet → Act σ (List Result)
  | [] => pure []
  | p :: rest => do
      let result ← send h p
      let results ← sendAll h rest
      pure (result :: results)

def receiveNext {σ : Type} (h : Host σ) (waitUsec : UInt32) : Act σ (Result × ResultT Packet) := do
  let found ← isNew h waitUsec
  let out ← receive h waitUsec
  pure (found,out)

def receiveAll {σ : Type} (h : Host σ) (waitUsec : UInt32) : Nat → Act σ (List (Result × ResultT Packet))
  | 0 => pure []
  | n + 1 => do
      let out ← receiveNext h waitUsec
      let outs ← receiveAll h waitUsec n
      pure (out :: outs)

def TimedOut (out : Result × ResultT Packet) : Prop :=
  out.1 = .timeout ∨ out.2.result ∈ [Result.packetHeaderTimeout,.packetBodyTimeout,.packetChecksumTimeout]

theorem sendAllWritten {ps : List Packet} {w t : Line} {results : List Result}
    (h : (sendAll (Line.host setting) ps).Returns w results t) :
    t.written = w.written ++ ps.flatMap Packet.frame := by
  induction ps generalizing w results with
  | nil =>
    obtain ⟨_,rfl⟩ := Program.returnsPure.mp h
    simp
  | cons p rest ih =>
    obtain ⟨_,u,first,more⟩ := Program.returnsBind.mp h
    obtain ⟨_,v,later,last⟩ := Program.returnsBind.mp more
    obtain ⟨_,rfl⟩ := Program.returnsPure.mp last
    rw [ih later,(sendWritten first).2,List.flatMap_cons,List.append_assoc]

theorem sendAllEnds (setting : Setting) (ps : List Packet) (w : Line) : (sendAll (Line.host setting) ps).Ends w := by
  induction ps generalizing w with
  | nil => exact Program.endsPure _ _
  | cons p rest ih =>
    refine Program.endsBind ⟨_,_,sendReturns.mpr ⟨rfl,rfl⟩⟩ (fun _ u _ => ?_)
    exact Program.endsBind (ih u) (fun _ _ _ => Program.endsPure _ _)

def Writes (setting : Setting) (p : Packet) (raw : Bytes) : Prop :=
  ∀ w, ∃ t, (send (Line.host setting) p).Returns w .ok t ∧ t.written = w.written ++ raw

theorem writesFrame (setting : Setting) (p : Packet) : Writes setting p p.frame := by
  intro w
  have sent : (send (Line.host setting) p).Returns w .ok _ := sendReturns.mpr ⟨rfl,rfl⟩
  exact ⟨_,sent,(sendWritten sent).2⟩

def verdict (p : Packet) (sum : UInt8) : ResultT Packet :=
  if p.getSum = sum then .ofValue p else .ofResult .checksumError

theorem tookFirst {w t : Line} {skipped : Bytes} (took : Took w (skipped ++ startMarker) t)
    (free : ¬ Doubled startByte (skipped ++ [startByte])) : FirstPair startByte w.stream t.stream :=
  ⟨skipped,by rw [took.stream,List.append_assoc]; rfl,free⟩

theorem isNewLocks {w t : Line} {found : Result} {rest : Bytes} (first : FirstPair startByte w.stream rest)
    (h : (isNew (Line.host setting) waitUsec).Returns w found t) :
    (found = .timeout ∧ waitUsec ≠ uint32Max ∧ ¬ w.Timely) ∨
      found = .ok ∧ t.stream = rest ∧ ∃ raw, Took w raw t := by
  cases isNewSource h with
  | found took free => exact .inr ⟨rfl,firstPairUnique (tookFirst took free) first,_,took⟩
  | timeout took free finite short =>
    refine .inl ⟨rfl,finite,fun timely => free ?_⟩
    have all := took.stream
    rw [short timely,List.append_nil] at all
    rw [← all]
    exact firstPairDoubled first

theorem tookFrame {w t : Line} {p : Packet} {sum : UInt8} (took : Took w (p.serialize ++ [sum]) t) :
    w.stream = p.serialize ++ sum :: t.stream := by
  rw [took.stream,List.append_assoc,List.singleton_append]

theorem tookFramed {w t : Line} {p q : Packet} {s sum : UInt8} {rest : Bytes} (took : Took w (q.serialize ++ [s]) t)
    (framed : w.stream = p.serialize ++ sum :: rest) : q = p ∧ s = sum ∧ t.stream = rest := by
  obtain ⟨same,left⟩ := Packet.serializeInjective ((tookFrame took).symm.trans framed)
  exact ⟨same,List.cons.inj left⟩

theorem receiveFramed {w t : Line} {p : Packet} {sum : UInt8} {rest : Bytes} {out : ResultT Packet}
    (framed : w.stream = p.serialize ++ sum :: rest)
    (h : (receive (Line.host setting) waitUsec).Returns w out t) :
    (out.result ∈ [Result.packetHeaderTimeout,.packetBodyTimeout,.packetChecksumTimeout] ∧
      waitUsec ≠ uint32Max ∧ ¬ w.Timely) ∨
      out = verdict p sum ∧ t.stream = rest ∧ ∃ raw, Took w raw t := by
  cases receiveSource h with
  | header took finite short =>
    refine .inl ⟨by simp [ResultT.ofResult],finite,fun timely => ?_⟩
    have missing := short timely
    rw [framed,List.length_append,Packet.serializeLength] at missing
    omega
  | @body command result size _ took finite short =>
    refine .inl ⟨by simp [ResultT.ofResult],finite,fun timely => ?_⟩
    have missing := short timely
    have same := took.stream.symm.trans framed
    simp only [Packet.serialize,List.cons_append,List.nil_append,List.cons.injEq] at same
    rw [same.2.2.2,same.2.2.1,Packet.dataLength,List.length_append] at missing
    omega
  | @checksum q _ took finite short =>
    refine .inl ⟨by simp [ResultT.ofResult],finite,fun timely => ?_⟩
    obtain ⟨_,left⟩ := Packet.serializeInjective (took.stream.symm.trans framed)
    rw [short timely] at left
    contradiction
  | damaged took wrong =>
    obtain ⟨rfl,rfl,rfl⟩ := tookFramed took framed
    exact .inr ⟨by rw [verdict,if_neg wrong],rfl,_,took⟩
  | packet took =>
    obtain ⟨rfl,rfl,rfl⟩ := tookFramed took framed
    exact .inr ⟨by rw [verdict,if_pos rfl],rfl,_,took⟩

theorem nextFrame (setting : Setting) (waitUsec : UInt32) {w : Line} {p : Packet} {rest : Bytes}
    (timely : w.Timely) (first : FirstPair startByte w.stream (p.serialize ++ p.getSum :: rest)) :
    ∃ u t raw, (isNew (Line.host setting) waitUsec).Returns w .ok u ∧
      (receive (Line.host setting) waitUsec).Returns u (.ofValue p) t ∧ t.stream = rest ∧ Took w raw t := by
  obtain ⟨found,u,hf⟩ := isNewEnds setting waitUsec (.inl (firstPairDoubled first))
  rcases isNewLocks first hf with ⟨_,_,slow⟩ | ⟨rfl,aligned,raw,took⟩
  · exact absurd timely slow
  · obtain ⟨out,t,hr⟩ := receiveEnds setting waitUsec (.inl ⟨p,p.getSum,rest,aligned⟩)
    rcases receiveFramed aligned hr with ⟨_,_,slow⟩ | ⟨judged,left,more,taken⟩
    · exact absurd (took.timely timely) slow
    · rw [verdict,if_pos rfl] at judged
      exact ⟨u,t,_,hf,judged ▸ hr,left,took.append taken⟩

theorem receiveNextEnds (setting : Setting) (waitUsec : UInt32) {w : Line}
    (served : (∃ rest, FirstPair startByte w.stream rest ∧ Framed rest) ∨ waitUsec ≠ uint32Max) :
    (receiveNext (Line.host setting) waitUsec).Ends w := by
  refine Program.endsBind (isNewEnds setting waitUsec (served.imp_left ?_)) ?_
  · intro aligned
    obtain ⟨rest,first,_⟩ := aligned
    exact firstPairDoubled first
  · intro found t hf
    refine Program.endsBind (receiveEnds setting waitUsec ?_) (fun _ _ _ => Program.endsPure _ _)
    rcases served with ⟨rest,first,framed⟩ | finite
    · rcases isNewLocks first hf with late | ⟨_,stream,_⟩
      · exact .inr late.2.1
      · exact .inl (stream ▸ framed)
    · exact .inr finite

theorem receiveAllEnds (setting : Setting) (finite : waitUsec ≠ uint32Max) (n : Nat) (w : Line) :
    (receiveAll (Line.host setting) waitUsec n).Ends w := by
  induction n generalizing w with
  | zero => exact Program.endsPure _ _
  | succ n ih =>
    refine Program.endsBind (receiveNextEnds setting waitUsec (.inr finite)) (fun _ t _ => ?_)
    exact Program.endsBind (ih t) (fun _ _ _ => Program.endsPure _ _)

def arrived (x : Packet × UInt8) : Bytes := startMarker ++ (x.1.serialize ++ [x.2])

theorem receiveNextArrived {w t : Line} {x : Packet × UInt8} {rest : Bytes} {out : Result × ResultT Packet}
    (stream : w.stream = arrived x ++ rest)
    (h : (receiveNext (Line.host setting) waitUsec).Returns w out t) :
    (TimedOut out ∧ waitUsec ≠ uint32Max ∧ ¬ w.Timely) ∨
      out = (.ok,verdict x.1 x.2) ∧ t.stream = rest ∧ ∃ raw, Took w raw t := by
  have marked : w.stream = startByte :: startByte :: (x.1.serialize ++ x.2 :: rest) := by
    rw [stream]
    simp [arrived,startMarker]
  obtain ⟨found,u,hf,more⟩ := Program.returnsBind.mp h
  obtain ⟨got,v,hr,last⟩ := Program.returnsBind.mp more
  obtain ⟨rfl,rfl⟩ := Program.returnsPure.mp last
  rcases isNewLocks (marked ▸ firstPairHere _ _) hf with ⟨late,finite,slow⟩ | ⟨rfl,aligned,skipped,took⟩
  · exact .inl ⟨.inl late,finite,slow⟩
  · rcases receiveFramed aligned hr with ⟨late,finite,slow⟩ | ⟨rfl,left,raw,more⟩
    · exact .inl ⟨.inr late,finite,fun timely => slow (took.timely timely)⟩
    · exact .inr ⟨rfl,left,_,took.append more⟩

theorem receiveAllArrived (setting : Setting) (waitUsec : UInt32) {items : List (Packet × UInt8)} {w : Line}
    (stream : w.stream = items.flatMap arrived) :
    ∃ outs t, (receiveAll (Line.host setting) waitUsec items.length).Returns w outs t ∧
      (((∃ out ∈ outs, TimedOut out) ∧ ¬ w.Timely) ∨
        outs = items.map (fun x => (.ok,verdict x.1 x.2)) ∧ t.stream = []) := by
  induction items generalizing w with
  | nil => exact ⟨[],w,Program.returnsPure.mpr ⟨rfl,rfl⟩,.inr ⟨rfl,stream⟩⟩
  | cons x rest ih =>
    rw [List.flatMap_cons] at stream
    have aligned : ∃ raw, FirstPair startByte w.stream raw ∧ Framed raw := by
      refine ⟨x.1.serialize ++ x.2 :: rest.flatMap arrived,?_,x.1,x.2,_,rfl⟩
      rw [stream]
      simpa [arrived,startMarker] using firstPairHere startByte _
    obtain ⟨out,u,ho⟩ := receiveNextEnds setting waitUsec (.inl aligned)
    have whole {outs t} (later : (receiveAll (Line.host setting) waitUsec rest.length).Returns u outs t) :
        (receiveAll (Line.host setting) waitUsec (x :: rest).length).Returns w (out :: outs) t :=
      Program.returnsBind.mpr ⟨_,_,ho,Program.returnsBind.mpr ⟨_,_,later,Program.returnsPure.mpr ⟨rfl,rfl⟩⟩⟩
    rcases receiveNextArrived stream ho with ⟨late,finite,slow⟩ | ⟨rfl,left,raw,took⟩
    · obtain ⟨outs,t,ht⟩ := receiveAllEnds setting finite rest.length u
      exact ⟨_,_,whole ht,.inl ⟨⟨out,List.mem_cons_self,late⟩,slow⟩⟩
    · obtain ⟨outs,t,ht,verdicts⟩ := ih left
      refine ⟨_,_,whole ht,?_⟩
      rcases verdicts with ⟨⟨late,member,timeout⟩,slow⟩ | ⟨rfl,empty⟩
      · exact .inl ⟨⟨late,List.mem_cons_of_mem _ member,timeout⟩,fun timely => slow (took.timely timely)⟩
      · exact .inr ⟨rfl,empty⟩

theorem arrivedFrame {p : Packet} (small : p.data.length ≤ 252) : arrived (p,p.getSum) = p.frame := by
  rw [arrived,Packet.frameSmall small]

/- The stream is what a sender's `send` calls wrote. The left alternative is a read
that reached its timeout, which no timely line brings about. -/
theorem streamRoundTrip (setting : Setting) (waitUsec : UInt32) {sending : Setting} {ps : List Packet}
    {sender sent w : Line} {results : List Result} (small : ∀ p ∈ ps, p.data.length ≤ 252)
    (sends : (sendAll (Line.host sending) ps).Returns sender results sent)
    (stream : sent.written = sender.written ++ w.stream) :
    ∃ outs t, (receiveAll (Line.host setting) waitUsec ps.length).Returns w outs t ∧
      (((∃ out ∈ outs, TimedOut out) ∧ ¬ w.Timely) ∨
        outs = ps.map (fun p => (.ok,.ofValue p)) ∧ t.stream = []) := by
  have frames : w.stream = (ps.map fun p => (p,p.getSum)).flatMap arrived := by
    have written := List.append_cancel_left (stream.symm.trans (sendAllWritten sends))
    rw [written,List.flatMap_map]
    exact (List.flatMap_congr fun p member => arrivedFrame (small p member)).symm
  have received := receiveAllArrived setting waitUsec frames
  simpa [Function.comp_def,verdict] using received

def getStateReply : Packet := ⟨.getState,.ok,[ascii 'A',startByte,startByte],by decide⟩

def twoReplies : Line :=
  {Line.idle with flight := getStateReply.frame ++ getStateReply.frame, polls := [⟨1,false⟩,⟨7,false⟩]}

theorem streamRoundTripTwo : twoReplies.Timely ∧
    ∃ outs t, (receiveAll (Line.host .silent) 1000 2).Returns twoReplies outs t ∧
      outs = [(.ok,.ofValue getStateReply),(.ok,.ofValue getStateReply)] ∧ t.stream = [] := by
  obtain ⟨_,u,sends⟩ := sendAllEnds .silent [getStateReply,getStateReply] .idle
  obtain ⟨outs,t,received,judged⟩ := streamRoundTrip .silent 1000 (w := twoReplies) (by decide)
    sends (sendAllWritten sends)
  have timely : twoReplies.Timely := by decide
  exact ⟨timely,outs,t,received,judged.resolve_left fun late => late.2 timely⟩

structure Delivery where
  packet : Packet
  small : packet.data.length ≤ 252
  change : Option (Nat × UInt8)
  judgeable : ∀ i b, change = some (i,b) → i ≠ 0 ∧ i ≠ 1 ∧ i ≠ 4 ∧ ∃ old, packet.frame[i]? = some old ∧ b ≠ old

namespace Delivery

def bytes (d : Delivery) : Bytes :=
  match d.change with
  | none => d.packet.frame
  | some (i,b) => d.packet.frame.set i b

def outcome (d : Delivery) : Result × ResultT Packet :=
  match d.change with
  | none => (.ok,.ofValue d.packet)
  | some _ => (.ok,.ofResult .checksumError)

end Delivery

theorem setSerialize {p : Packet} {i : Nat} (b : UInt8) (length : i ≠ 2) :
    ∃ q : Packet, q.serialize = p.serialize.set i b := by
  match i with
  | 0 => exact ⟨{p with command := ofByte b},by simp [Packet.serialize,Packet.getDataLength,EnumClass.toByteOfByte]⟩
  | 1 => exact ⟨{p with result := ofByte b},by simp [Packet.serialize,Packet.getDataLength,EnumClass.toByteOfByte]⟩
  | 2 => contradiction
  | i + 3 =>
    have fits : (p.data.set i b).length < 256 := by rw [List.length_set]; exact p.fits
    exact ⟨{p with data := p.data.set i b, fits := fits},by simp [Packet.serialize,Packet.getDataLength]⟩

/- Whichever byte changed, the checksum no longer matches: a sum modulo 256 moves with
every single byte that it adds up, and so does the byte it is compared with. -/
theorem changedArrives {p : Packet} (small : p.data.length ≤ 252) {i : Nat} {b old : UInt8}
    (body : i ≠ 0 ∧ i ≠ 1 ∧ i ≠ 4) (found : p.frame[i]? = some old) (different : b ≠ old) :
    ∃ x : Packet × UInt8, p.frame.set i b = arrived x ∧ x.1.getSum ≠ x.2 := by
  obtain ⟨i,rfl⟩ : ∃ k, i = k + 2 := ⟨i - 2,by omega⟩
  have inside : (p.serialize ++ [p.getSum])[i]? = some old := by
    simpa [Packet.frameSmall small,startMarker] using found
  have split : p.frame.set (i + 2) b = startMarker ++ (p.serialize ++ [p.getSum]).set i b := by
    simp [Packet.frameSmall small,startMarker]
  rcases Nat.lt_or_ge i p.serialize.length with within | beyond
  · rw [List.getElem?_append_left within] at inside
    obtain ⟨q,same⟩ := setSerialize (p := p) b (show i ≠ 2 by omega)
    have length : q.data.length ≤ 252 := by
      have lengths := congrArg List.length same
      rw [List.length_set,Packet.serializeLength,Packet.serializeLength] at lengths
      omega
    have wrong : q.getSum ≠ p.getSum := by
      rw [Packet.getSumSmall length,Packet.getSumSmall small,same]
      exact Packet.sumSet inside different
    exact ⟨(q,p.getSum),by rw [split,arrived,List.set_append_left i b within,same],wrong⟩
  · have last : i = p.serialize.length := by
      have bound := (List.getElem?_eq_some_iff.mp inside).1
      rw [List.length_append,List.length_singleton] at bound
      omega
    subst last
    have sum : p.getSum = old := by simpa using inside
    have replaced : (p.serialize ++ [p.getSum]).set p.serialize.length b = p.serialize ++ [b] := by
      rw [List.set_append_right _ _ (Nat.le_refl _),Nat.sub_self]
      rfl
    exact ⟨(p,b),by rw [split,arrived,replaced],fun same => different (same.symm.trans sum)⟩

theorem Delivery.arrives (d : Delivery) :
    ∃ x : Packet × UInt8, d.bytes = arrived x ∧ d.outcome = (.ok,verdict x.1 x.2) := by
  unfold bytes outcome
  cases changed : d.change with
  | none => exact ⟨(d.packet,d.packet.getSum),(arrivedFrame d.small).symm,by rw [verdict,if_pos rfl]⟩
  | some change =>
    obtain ⟨first,second,size,old,found,different⟩ := d.judgeable change.1 change.2 changed
    obtain ⟨x,bytes,wrong⟩ := changedArrives d.small ⟨first,second,size⟩ found different
    exact ⟨x,bytes,by rw [verdict,if_neg wrong]⟩

theorem corruptionRejected (setting : Setting) (waitUsec : UInt32) (ds : List Delivery) {w : Line}
    (stream : w.stream = ds.flatMap Delivery.bytes) :
    ∃ outs t, (receiveAll (Line.host setting) waitUsec ds.length).Returns w outs t ∧
      (((∃ out ∈ outs, TimedOut out) ∧ ¬ w.Timely) ∨ outs = ds.map Delivery.outcome ∧ t.stream = []) := by
  have items : ∃ items : List (Packet × UInt8), items.length = ds.length ∧
      ds.flatMap Delivery.bytes = items.flatMap arrived ∧
      ds.map Delivery.outcome = items.map (fun x => (.ok,verdict x.1 x.2)) := by
    clear stream
    induction ds with
    | nil => exact ⟨[],rfl,rfl,rfl⟩
    | cons d rest ih =>
      obtain ⟨x,bytes,outcome⟩ := d.arrives
      obtain ⟨items,length,stream,outcomes⟩ := ih
      exact ⟨x :: items,by simp [length],by simp [bytes,stream],by simp [outcome,outcomes]⟩
  obtain ⟨items,length,bytes,outcomes⟩ := items
  rw [bytes] at stream
  rw [← length,outcomes]
  exact receiveAllArrived setting waitUsec stream

def damagedThenWhole : List Delivery :=
  [⟨getStateReply,by decide,some (6,ascii 'E'),by
      intro i b h
      cases h
      exact ⟨by decide,by decide,by decide,startByte,by decide,by decide⟩⟩,
    ⟨getStateReply,by decide,none,by simp⟩]

theorem corruptionRejectedTwo :
    ∃ outs t, (receiveAll (Line.host .silent) 1000 2).Returns
        {Line.idle with rx := damagedThenWhole.flatMap Delivery.bytes} outs t ∧
      outs = [(.ok,.ofResult .checksumError),(.ok,.ofValue getStateReply)] ∧ t.stream = [] := by
  obtain ⟨outs,t,received,judged⟩ := corruptionRejected .silent 1000 damagedThenWhole
    (w := {Line.idle with rx := damagedThenWhole.flatMap Delivery.bytes}) (List.append_nil _)
  exact ⟨outs,t,received,judged.resolve_left fun late => late.2 (by decide)⟩

theorem namedCommand {p : Packet} (named : p.command ∈ EnumClass.named) : toByte p.command ≠ startByte := by
  have other : startByte ∉ commandCodes := by decide
  exact fun same => other (same ▸ EnumClass.namedToByte named)

/- Noise that ends in a start byte pairs up with the first start byte of the frame:
`receive` then takes the second one for a command. -/
theorem noiseSkipped (setting : Setting) (waitUsec : UInt32) (noise : Bytes) {rest : Bytes} {p : Packet} {w : Line}
    (free : ¬ Doubled startByte noise) (small : p.data.length ≤ 252) (named : p.command ∈ EnumClass.named)
    (timely : w.Timely) (stream : w.stream = noise ++ p.frame ++ rest) :
    (∃ t, (receiveNext (Line.host setting) waitUsec).Returns w (.ok,.ofValue p) t ∧ t.stream = rest) ↔
      noise.getLast? ≠ some startByte := by
  have marked : w.stream = noise ++ startByte :: startByte :: (p.serialize ++ p.getSum :: rest) := by
    rw [stream,Packet.frameSmall small]
    simp [startMarker]
  constructor
  · intro h last
    obtain ⟨t,received,_⟩ := h
    obtain ⟨found,u,hf,more⟩ := Program.returnsBind.mp received
    obtain ⟨out,v,hr,same⟩ := Program.returnsBind.mp more
    obtain ⟨pair,_⟩ := Program.returnsPure.mp same
    obtain ⟨rfl,rfl⟩ := Prod.mk.inj pair
    rcases isNewLocks (marked ▸ firstPairEarly _ free last) hf with ⟨late,_⟩ | ⟨_,shifted,_⟩
    · contradiction
    · generalize accepted : ResultT.ofValue p = out at hr
      cases receiveSource hr with
      | header => cases accepted
      | body => cases accepted
      | checksum => cases accepted
      | damaged => cases accepted
      | packet took =>
        cases accepted
        have head := took.stream.symm.trans shifted
        simp only [Packet.serialize,List.cons_append,List.cons.injEq] at head
        exact namedCommand named head.1
  · intro last
    have first : FirstPair startByte w.stream (p.serialize ++ p.getSum :: rest) :=
      marked ▸ firstPairAfter _ free last
    obtain ⟨u,t,_,hf,hr,left,_⟩ := nextFrame setting waitUsec timely first
    exact ⟨t,Program.returnsBind.mpr ⟨_,u,hf,Program.returnsBind.mpr ⟨_,t,hr,Program.returnsPure.mpr ⟨rfl,rfl⟩⟩⟩,left⟩

def bootNoise : Line := {Line.idle with rx := [0,startByte,7], flight := getStateReply.frame ++ [1,2]}

theorem noiseSkippedBoot : ∃ t, (receiveNext (Line.host .silent) 1000).Returns bootNoise
    (.ok,.ofValue getStateReply) t ∧ t.stream = [1,2] :=
  (noiseSkipped .silent 1000 [0,startByte,7] (by decide) (by decide) (by decide) (by decide) (by decide)).mpr (by decide)

def stateReply : Packet := ⟨.getState,.ok,[],Packet.noData⟩

theorem noiseEndingInStartByte :
    ¬ Doubled startByte [startByte] ∧ stateReply.data.length ≤ 252 ∧ stateReply.command ∈ EnumClass.named ∧
      Line.Timely {Line.idle with rx := [startByte] ++ stateReply.frame ++ []} ∧
      (∃ t, (receiveNext (Line.host .silent) 1000).Returns {Line.idle with rx := [startByte] ++ stateReply.frame ++ []}
        (.ok,.ofResult .packetBodyTimeout) t) ∧
      ¬ ∃ t, (receiveNext (Line.host .silent) 1000).Returns {Line.idle with rx := [startByte] ++ stateReply.frame ++ []}
        (.ok,.ofValue stateReply) t ∧ t.stream = [] := by
  have lost : (receiveNext (Line.host .silent) 1000).Returns
      {Line.idle with rx := [startByte] ++ stateReply.frame ++ []} (.ok,.ofResult .packetBodyTimeout)
      {Line.idle with rx := [0,stateReply.getSum], late := true} := ⟨9,rfl⟩
  refine ⟨by decide,by decide,by decide,by decide,⟨_,lost⟩,fun kept => ?_⟩
  obtain ⟨_,received,_⟩ := kept
  exact absurd (Program.returnsUnique lost received).1 (by decide)

end Transport
end RTno2Proxy
