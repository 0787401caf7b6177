import RTno2Proxy.Delimiter
import RTno2Proxy.Transport

/-! The transport's reading side on a line, for every arrival schedule. What a
call may do is stated first (`…Source`), that it comes to an end second
(`…Ends`); a call that must succeed is the two together. -/
namespace RTno2Proxy
open Imperative
open Delimiter
open EnumClass (toByte ofByte)
open Line (Took tookNothing)

namespace Transport
variable {setting : Setting} {waitUsec : UInt32}

theorem sizeReturns {w t : Line} {n : Int} :
    ((Line.host setting).device.getSizeInRxBuffer).Returns w n t ↔ n = w.poll.rx.length ∧ t = w.poll := by
  refine Program.returnsStep.trans ?_
  simp only [Prod.mk.injEq,Except.ok.injEq]
  exact ⟨fun h => ⟨h.1.symm,h.2.symm⟩,fun h => ⟨h.1.symm,h.2.symm⟩⟩

theorem expiredReturns {w t : Line} {b : Bool} :
    ((Line.host setting).expired waitUsec).Returns w b t ↔ b = w.late ∧ t = w := by
  refine Program.returnsStep.trans ?_
  simp only [Prod.mk.injEq,Except.ok.injEq]
  exact ⟨fun h => ⟨h.1.symm,h.2.symm⟩,fun h => ⟨h.1.symm,h.2.symm⟩⟩

theorem scratchReturns {w t : Line} {n : Nat} {raw : Bytes} :
    ((Line.host setting).scratch n).Returns w raw t ↔ raw = (List.range n).map setting.scratch ∧ t = w :=
  Program.returnsPure

theorem deviceReadReturns {w t : Line} {size : UInt8} {out : Bytes × Int}
    (h : ((Line.host setting).device.read size).Returns w out t) :
    out.1 = w.rx.take size.toNat ∧ t = {w with rx := w.rx.drop size.toNat} := by
  have same := Program.returnsStep.mp h
  simp only [Prod.mk.injEq,Except.ok.injEq] at same
  exact ⟨by rw [← same.1],same.2.symm⟩

def pollVerdict (size : UInt8) (waitUsec : UInt32) (w : Line) : Unit ⊕ Bool :=
  if size.toNat ≤ w.rx.length then .inr true
  else if w.late = true ∧ waitUsec ≠ uint32Max then .inr false
  else .inl ()

theorem pollPassReturns {size : UInt8} {w t : Line} {x : Unit ⊕ Bool} :
    (pollPass (Line.host setting) size waitUsec).Returns w x t ↔
      x = pollVerdict size waitUsec w.poll ∧ t = w.poll := by
  simp only [pollPass,Program.returnsBind,sizeReturns,and_assoc,exists_and_left,exists_eq_left,
    Program.returnsIte,expiredReturns,Program.returnsPure,pollVerdict,Int.ofNat_le]
  split
  · rfl
  · split <;> rfl

theorem awaitSource {size : UInt8} {w t : Line} {ready : Bool}
    (h : (await (Line.host setting) size waitUsec).Returns w ready t) :
    Took w [] t ∧ (ready = true → size.toNat ≤ t.rx.length) ∧
      (ready = false → waitUsec ≠ uint32Max ∧ (w.Timely → w.stream.length < size.toNat)) := by
  refine Program.loopRule (motive := fun _ w ready t => Took w [] t ∧ (ready = true → size.toNat ≤ t.rx.length) ∧
    (ready = false → waitUsec ≠ uint32Max ∧ (w.Timely → w.stream.length < size.toNat))) ?_ ?_ h
  · intro _ w ready t pass
    obtain ⟨verdict,rfl⟩ := pollPassReturns.mp pass
    unfold pollVerdict at verdict
    refine ⟨Line.pollTook w,?_⟩
    split at verdict
    · rename_i enough
      cases verdict
      exact ⟨fun _ => enough,by simp⟩
    · rename_i short
      split at verdict
      · rename_i late
        cases verdict
        refine ⟨by simp,fun _ => ⟨late.2,fun timely => ?_⟩⟩
        rw [← Line.lateArrived timely late.1]
        omega
      · cases verdict
  · intro _ w _ u ready t pass later
    obtain ⟨_,rfl⟩ := pollPassReturns.mp pass
    have polled := Line.pollTook w
    obtain ⟨took,enough,short⟩ := later
    refine ⟨polled.append took,enough,fun no => ⟨(short no).1,fun timely => ?_⟩⟩
    rw [polled.stream]
    exact (short no).2 (polled.timely timely)

def Served (waitUsec : UInt32) (n : Nat) (w : Line) : Prop :=
  n ≤ w.stream.length ∨ waitUsec ≠ uint32Max

/- A pass that continues has used up one entry of the schedule: after the last one
every byte is there and every finite deadline has passed. -/
theorem awaitEnds (setting : Setting) {size : UInt8} {w : Line} (served : Served waitUsec size.toNat w) :
    (await (Line.host setting) size waitUsec).Ends w := by
  refine Program.endsLoop (fun _ => Served waitUsec size.toNat) (fun _ w => w.polls.length) ?_ ?_ served
  · intro _ w _
    exact ⟨_,_,pollPassReturns.mpr ⟨rfl,rfl⟩⟩
  · intro _ w _ u served pass
    obtain ⟨verdict,rfl⟩ := pollPassReturns.mp pass
    have polled := (Line.pollTook w).stream
    refine ⟨by rw [Served,← List.nil_append w.poll.stream,← polled]; exact served,?_⟩
    cases left : w.polls with
    | cons p rest => simp [Line.poll,left]
    | nil =>
      have all : w.poll.rx = w.stream ∧ w.poll.late = true := by simp [Line.poll,left,Line.stream]
      rw [pollVerdict,all.1,all.2] at verdict
      split at verdict
      · cases verdict
      · rename_i short
        rw [if_pos ⟨rfl,served.resolve_left short⟩] at verdict
        cases verdict

inductive ReadSource (waitUsec : UInt32) (w : Line) (buffer : Bytes) (size : UInt8) :
    Result × Bytes → Line → Prop where
  | delivered {raw : Bytes} {t : Line} (length : raw.length = size.toNat) (took : Took w raw t) :
      ReadSource waitUsec w buffer size (.ok,store buffer raw) t
  | timeout {t : Line} (took : Took w [] t) (finite : waitUsec ≠ uint32Max)
      (short : w.Timely → w.stream.length < size.toNat) :
      ReadSource waitUsec w buffer size (.timeout,buffer) t

theorem storeNothing (buffer : Bytes) : store buffer [] = buffer := by simp [store]

theorem storeAll {buffer raw : Bytes} (fits : raw.length ≤ buffer.length) :
    store buffer raw = raw ++ buffer.drop raw.length := by
  rw [store,List.take_of_length_le fits]

theorem readSource {w t : Line} {buffer : Bytes} {size : UInt8} {out : Result × Bytes}
    (h : (read (Line.host setting) buffer size waitUsec).Returns w out t) :
    ReadSource waitUsec w buffer size out t := by
  unfold read at h
  split at h
  · rename_i zero
    obtain ⟨rfl,rfl⟩ := Program.returnsPure.mp h
    subst zero
    have out : ReadSource waitUsec t buffer 0 (.ok,store buffer []) t := .delivered rfl (tookNothing t)
    rwa [storeNothing] at out
  · obtain ⟨ready,u,hr,h⟩ := Program.returnsBind.mp h
    obtain ⟨waited,enough,short⟩ := awaitSource hr
    split at h
    · rename_i yes
      obtain ⟨delivered,v,hd,h⟩ := Program.returnsBind.mp h
      obtain ⟨raw,after⟩ := deviceReadReturns hd
      obtain ⟨rfl,rfl⟩ := Program.returnsPure.mp h
      obtain ⟨took,length⟩ := Line.readTook (enough yes)
      rw [raw]
      exact .delivered length (after ▸ waited.append took)
    · rename_i no
      obtain ⟨rfl,rfl⟩ := Program.returnsPure.mp h
      have lost := short (by simpa using no)
      exact .timeout waited lost.1 lost.2

theorem readEnds (setting : Setting) (buffer : Bytes) {w : Line} {size : UInt8}
    (served : Served waitUsec size.toNat w) :
    (read (Line.host setting) buffer size waitUsec).Ends w := by
  unfold read
  split
  · exact Program.endsPure _ _
  · refine Program.endsBind (awaitEnds setting served) ?_
    intro ready u _
    split
    · refine Program.endsBind (Program.endsStep rfl) ?_
      intro delivered v _
      exact Program.endsPure _ _
    · exact Program.endsPure _ _

inductive ByteSource (waitUsec : UInt32) (w : Line) : Result × UInt8 → Line → Prop where
  | delivered {b : UInt8} {t : Line} (took : Took w [b] t) : ByteSource waitUsec w (.ok,b) t
  | timeout {b : UInt8} {t : Line} (took : Took w [] t) (finite : waitUsec ≠ uint32Max)
      (short : w.Timely → w.stream = []) : ByteSource waitUsec w (.timeout,b) t

theorem readByteSource {w t : Line} {buf : UInt8} {out : Result × UInt8}
    (h : (readByte (Line.host setting) buf waitUsec).Returns w out t) : ByteSource waitUsec w out t := by
  obtain ⟨x,u,hx,h⟩ := Program.returnsBind.mp h
  obtain ⟨rfl,rfl⟩ := Program.returnsPure.mp h
  cases readSource hx with
  | @delivered raw _ length took =>
    obtain ⟨b,rfl⟩ := List.length_eq_one_iff.mp length
    exact .delivered took
  | timeout took finite short =>
    refine .timeout took finite (fun timely => ?_)
    exact List.length_eq_zero_iff.mp (Nat.lt_one_iff.mp (short timely))

theorem readByteEnds (setting : Setting) (buf : UInt8) {w : Line} (served : Served waitUsec 1 w) :
    (readByte (Line.host setting) buf waitUsec).Ends w :=
  Program.endsBind (readEnds setting [buf] served) fun _ _ _ => Program.endsPure _ _

inductive NewSource (waitUsec : UInt32) (w : Line) : Result → Line → Prop where
  | found {skipped : Bytes} {t : Line} (took : Took w (skipped ++ startMarker) t)
      (free : ¬ Doubled startByte (skipped ++ [startByte])) : NewSource waitUsec w .ok t
  | timeout {skipped : Bytes} {t : Line} (took : Took w skipped t) (free : ¬ Doubled startByte skipped)
      (finite : waitUsec ≠ uint32Max) (short : w.Timely → t.stream = []) : NewSource waitUsec w .timeout t

theorem NewSource.skip {w u t : Line} {skipped : Bytes} {result : Result} (first : Took w skipped u)
    (harmless : ∀ raw, Doubled startByte (skipped ++ raw) ↔ Doubled startByte raw)
    (later : NewSource waitUsec u result t) : NewSource waitUsec w result t := by
  cases later with
  | found took free =>
    have took := first.append took
    rw [← List.append_assoc] at took
    exact .found took (by rw [List.append_assoc,harmless]; exact free)
  | timeout took free finite short =>
    exact .timeout (first.append took) (by rw [harmless]; exact free) finite
      (fun timely => short (first.timely timely))

theorem isNewPassSource {w t : Line} {buf : UInt8} {x : UInt8 ⊕ Result}
    (h : (isNewPass (Line.host setting) waitUsec buf).Returns w x t) :
    (∃ result, x = .inr result ∧ NewSource waitUsec w result t) ∨
      ∃ again skipped, x = .inl again ∧ Took w skipped t ∧ skipped ≠ [] ∧
        ∀ raw, Doubled startByte (skipped ++ raw) ↔ Doubled startByte raw := by
  obtain ⟨first,u,hf,h⟩ := Program.returnsBind.mp h
  cases readByteSource hf with
  | timeout took finite short =>
    obtain ⟨rfl,rfl⟩ := Program.returnsPure.mp h
    have empty (timely : w.Timely) : t.stream = [] := by
      rw [← List.nil_append t.stream,← took.stream,short timely]
    exact .inl ⟨_,rfl,.timeout took (doubledShort _ (by simp)) finite empty⟩
  | @delivered a _ one =>
    simp only [ne_eq,not_true_eq_false,if_false] at h
    split at h
    · rename_i other
      obtain ⟨rfl,rfl⟩ := Program.returnsPure.mp h
      exact .inr ⟨_,_,rfl,one,by simp,fun raw => doubledOther other⟩
    · rename_i start
      have start : a = startByte := not_not.mp start
      subst start
      obtain ⟨second,v,hs,h⟩ := Program.returnsBind.mp h
      cases readByteSource hs with
      | timeout took finite short =>
        obtain ⟨rfl,rfl⟩ := Program.returnsPure.mp h
        have empty (timely : w.Timely) : t.stream = [] := by
          rw [← List.nil_append t.stream,← took.stream,short (one.timely timely)]
        exact .inl ⟨_,rfl,.timeout (one.append took) (doubledShort _ (by simp)) finite empty⟩
      | @delivered b _ two =>
        simp only [not_true_eq_false,if_false] at h
        split at h
        · rename_i start
          have start : b = startByte := start
          subst start
          obtain ⟨rfl,rfl⟩ := Program.returnsPure.mp h
          have pair : Took w ([] ++ startMarker) t := one.append two
          exact .inl ⟨_,rfl,.found pair (doubledShort _ (by simp))⟩
        · rename_i other
          obtain ⟨rfl,rfl⟩ := Program.returnsPure.mp h
          exact .inr ⟨_,_,rfl,one.append two,by simp,fun raw => doubledSkip other⟩

theorem isNewSource {w t : Line} {result : Result}
    (h : (isNew (Line.host setting) waitUsec).Returns w result t) : NewSource waitUsec w result t := by
  obtain ⟨buf,u,hs,h⟩ := Program.returnsBind.mp h
  obtain ⟨_,rfl⟩ := scratchReturns.mp hs
  refine Program.loopRule (motive := fun _ w result t => NewSource waitUsec w result t) ?_ ?_ h
  · intro _ w result t pass
    rcases isNewPassSource pass with ⟨r,hr,source⟩ | ⟨_,_,hr,_⟩
    · cases hr
      exact source
    · cases hr
  · intro _ w next u result t pass later
    rcases isNewPassSource pass with ⟨r,hr,_⟩ | ⟨_,skipped,hr,took,_,harmless⟩
    · cases hr
    · exact later.skip took harmless

theorem doubledServed {n : Nat} {w : Line} (served : Doubled startByte w.stream ∨ waitUsec ≠ uint32Max)
    (small : n ≤ 2) : Served waitUsec n w := by
  refine served.imp_left (fun found => ?_)
  exact Nat.le_trans small found.length_le

theorem isNewEnds (setting : Setting) (waitUsec : UInt32) {w : Line} (served : Doubled startByte w.stream ∨ waitUsec ≠ uint32Max) :
    (isNew (Line.host setting) waitUsec).Ends w := by
  refine Program.endsBind (Program.endsPure _ _) ?_
  intro buf u hs
  obtain ⟨_,rfl⟩ := scratchReturns.mp hs
  refine Program.endsLoop (fun _ w => Doubled startByte w.stream ∨ waitUsec ≠ uint32Max)
    (fun _ w => w.stream.length) ?_ ?_ served
  · intro buf w served
    refine Program.endsBind (readByteEnds setting buf (doubledServed served (by omega))) ?_
    intro first u hf
    have more : first.1 = .ok → Served waitUsec 1 u := by
      intro ok
      cases readByteSource hf with
      | timeout => cases ok
      | delivered took =>
        have lengths := congrArg List.length took.stream
        simp only [List.length_append,List.length_singleton] at lengths
        rcases doubledServed served (Nat.le_refl 2) with enough | finite
        · exact .inl (by omega)
        · exact .inr finite
    split
    · exact Program.endsPure _ _
    · rename_i ok
      split
      · exact Program.endsPure _ _
      · refine Program.endsBind (readByteEnds setting _ (more (not_not.mp ok))) ?_
        intro second v _
        split
        · exact Program.endsPure _ _
        · split <;> exact Program.endsPure _ _
  · intro buf w next u served pass
    rcases isNewPassSource pass with ⟨_,hr,_⟩ | ⟨_,skipped,_,took,filled,harmless⟩
    · cases hr
    · have lengths := congrArg List.length took.stream
      rw [took.stream,harmless] at served
      have positive := List.length_pos_iff.mpr filled
      simp only [List.length_append] at lengths
      exact ⟨served,by omega⟩

theorem initialiseSerialize {command result size : UInt8} {raw : Bytes} (rest : Bytes)
    (length : raw.length = size.toNat) :
    (Packet.initialise (ofByte command) (ofByte result) (raw ++ rest) size).serialize =
      [command,result,size] ++ raw := by
  simp only [Packet.serialize,Packet.initialise,Packet.getDataLength,EnumClass.toByteOfByte,← length,
    List.take_left]
  rw [length,UInt8.ofNat_toNat]
  rfl

inductive ReceiveSource (waitUsec : UInt32) (w : Line) : ResultT Packet → Line → Prop where
  | header {t : Line} (took : Took w [] t) (finite : waitUsec ≠ uint32Max)
      (short : w.Timely → w.stream.length < 3) : ReceiveSource waitUsec w (.ofResult .packetHeaderTimeout) t
  | body {command result size : UInt8} {t : Line} (took : Took w [command,result,size] t)
      (finite : waitUsec ≠ uint32Max) (short : w.Timely → t.stream.length < size.toNat) :
      ReceiveSource waitUsec w (.ofResult .packetBodyTimeout) t
  | checksum {p : Packet} {t : Line} (took : Took w p.serialize t) (finite : waitUsec ≠ uint32Max)
      (short : w.Timely → t.stream = []) : ReceiveSource waitUsec w (.ofResult .packetChecksumTimeout) t
  | damaged {p : Packet} {sum : UInt8} {t : Line} (took : Took w (p.serialize ++ [sum]) t)
      (wrong : p.getSum ≠ sum) : ReceiveSource waitUsec w (.ofResult .checksumError) t
  | packet {p : Packet} {t : Line} (took : Took w (p.serialize ++ [p.getSum]) t) :
      ReceiveSource waitUsec w (.ofValue p) t

theorem receiveChecksumSource {w u t : Line} {p : Packet} {out : ResultT Packet} (read : Took w p.serialize u)
    (h : (receiveChecksum (Line.host setting) waitUsec p).Returns u out t) : ReceiveSource waitUsec w out t := by
  obtain ⟨_,_,hs,atSum⟩ := Program.returnsBind.mp h
  obtain ⟨_,rfl⟩ := scratchReturns.mp hs
  obtain ⟨last,v,hl,afterSum⟩ := Program.returnsBind.mp atSum
  cases readByteSource hl with
  | timeout wait finite short =>
    obtain ⟨rfl,rfl⟩ := Program.returnsPure.mp afterSum
    have took := read.append wait
    rw [List.append_nil] at took
    refine .checksum took finite (fun timely => ?_)
    have empty := short (read.timely timely)
    rwa [wait.stream] at empty
  | @delivered sum _ one =>
    simp only [ne_eq,not_true_eq_false,if_false,Program.returnsIte,Program.returnsPure] at afterSum
    split at afterSum
    · rename_i wrong
      obtain ⟨rfl,rfl⟩ := afterSum
      exact .damaged (read.append one) wrong
    · rename_i right
      obtain ⟨rfl,rfl⟩ := afterSum
      rw [← not_not.mp right] at one
      exact .packet (read.append one)

theorem receiveBodySource {w u t : Line} {command result size : UInt8} {out : ResultT Packet}
    (header : Took w [command,result,size] u)
    (h : (receiveBody (Line.host setting) waitUsec command result size).Returns u out t) :
    ReceiveSource waitUsec w out t := by
  obtain ⟨_,_,hs,atBody⟩ := Program.returnsBind.mp h
  obtain ⟨rfl,rfl⟩ := scratchReturns.mp hs
  obtain ⟨body,v,hb,afterBody⟩ := Program.returnsBind.mp atBody
  cases readSource hb with
  | timeout wait finite short =>
    obtain ⟨rfl,rfl⟩ := Program.returnsPure.mp afterBody
    refine .body (header.append wait) finite (fun timely => ?_)
    have missing := short (header.timely timely)
    rwa [wait.stream] at missing
  | @delivered raw _ length more =>
    have fits : raw.length ≤ ((List.range 256).map setting.scratch).length := by
      have := size.toNat_lt
      simp only [List.length_map,List.length_range]
      omega
    rw [storeAll fits] at afterBody
    refine receiveChecksumSource ?_ afterBody
    rw [initialiseSerialize _ length]
    exact header.append more

theorem receiveSource {w t : Line} {out : ResultT Packet}
    (h : (receive (Line.host setting) waitUsec).Returns w out t) : ReceiveSource waitUsec w out t := by
  obtain ⟨_,_,hs,atHead⟩ := Program.returnsBind.mp h
  obtain ⟨rfl,rfl⟩ := scratchReturns.mp hs
  obtain ⟨head,u,hv,afterHead⟩ := Program.returnsBind.mp atHead
  cases readSource hv with
  | timeout took finite short =>
    obtain ⟨rfl,rfl⟩ := Program.returnsPure.mp afterHead
    exact .header took finite short
  | @delivered raw _ length took =>
    obtain ⟨command,result,size,rfl⟩ := List.length_eq_three.mp length
    obtain ⟨_,_,hx,atBody⟩ := Program.returnsBind.mp afterHead
    obtain ⟨_,rfl⟩ := Program.returnsPure.mp hx
    exact receiveBodySource took atBody

theorem receiveChecksumEnds (setting : Setting) (p : Packet) {w : Line} (served : Served waitUsec 1 w) :
    (receiveChecksum (Line.host setting) waitUsec p).Ends w := by
  refine Program.endsBind (Program.endsPure _ _) ?_
  intro buf u hs
  obtain ⟨_,rfl⟩ := scratchReturns.mp hs
  refine Program.endsBind (readByteEnds setting _ served) ?_
  intro last v _
  split
  · exact Program.endsPure _ _
  · split <;> exact Program.endsPure _ _

theorem receiveBodyEnds (setting : Setting) (command result : UInt8) {size : UInt8} {w : Line}
    (served : Served waitUsec (size.toNat + 1) w) :
    (receiveBody (Line.host setting) waitUsec command result size).Ends w := by
  refine Program.endsBind (Program.endsPure _ _) ?_
  intro buffer u hs
  obtain ⟨_,rfl⟩ := scratchReturns.mp hs
  refine Program.endsBind (readEnds setting _ (served.imp_left (by omega))) ?_
  intro body v hb
  split
  · exact Program.endsPure _ _
  · rename_i ok
    cases readSource hb with
    | timeout => simp at ok
    | delivered length took =>
      refine receiveChecksumEnds setting _ (served.imp_left (fun enough => ?_))
      have lengths := congrArg List.length took.stream
      simp only [List.length_append,length] at lengths
      omega

def Framed (raw : Bytes) : Prop := ∃ (p : Packet) (sum : UInt8) (rest : Bytes), raw = p.serialize ++ sum :: rest

theorem receiveEnds (setting : Setting) (waitUsec : UInt32) {w : Line} (served : Framed w.stream ∨ waitUsec ≠ uint32Max) :
    (receive (Line.host setting) waitUsec).Ends w := by
  refine Program.endsBind (Program.endsPure _ _) ?_
  intro _ u hs
  obtain ⟨rfl,rfl⟩ := scratchReturns.mp hs
  refine Program.endsBind (readEnds setting _ (served.imp_left ?_)) ?_
  · intro framed
    obtain ⟨p,sum,rest,same⟩ := framed
    simp [same,Packet.serialize,packetReceiveHeaderSize]
  · intro head v hv
    split
    · exact Program.endsPure _ _
    · rename_i ok
      cases readSource hv with
      | timeout => simp at ok
      | @delivered raw _ length took =>
        obtain ⟨command,result,size,rfl⟩ := List.length_eq_three.mp length
        refine Program.endsBind (Program.endsPure _ _) ?_
        intro _ x hx
        obtain ⟨_,rfl⟩ := Program.returnsPure.mp hx
        refine receiveBodyEnds setting command result (served.imp_left (fun framed => ?_))
        obtain ⟨p,sum,rest,same⟩ := framed
        rw [took.stream] at same
        simp only [Packet.serialize,List.cons_append,List.nil_append,List.cons.injEq] at same
        change size.toNat + 1 ≤ x.stream.length
        rw [same.2.2.2,same.2.2.1,Packet.dataLength]
        simp

end Transport
end RTno2Proxy
