import RTno2Proxy.Lockstep
import RTno2Proxy.Outcomes

/-! What the operations read of an accepted reply. Nothing checks a payload before its bytes are
used: the offsets come from the payload itself and the lengths that `receive` has checked are
those of the frame. -/
namespace RTno2Proxy
open Imperative
open EnumClass (toByte ofByte)

def Setting.checked (setting : Setting) : Setting := {setting with outside := fun _ => none}

namespace Protocol
variable {σ α : Type}

def poke (buffer : Bytes) (offset : Int) (b : UInt8) : Except Fault Bytes :=
  if 0 ≤ offset ∧ offset < buffer.length then .ok (buffer.set offset.toNat b) else .error .outsideBuffer

/- `getDataLength() - 1` is an `int`, which `memcpy` takes as a `size_t`. -/
def copyCount (packet : Packet) : Nat := (((packet.getDataLength.toNat : Int) - 1) % 2 ^ 64).toNat

def readPortProfile (h : Host σ) (packet : Packet) : Act σ PortProfile := do
  let strbuf ← h.scratch strbufSize
  let raw ← payloadRange h packet 1 (copyCount packet)
  let strbuf ← .lift (memcpy strbuf 0 raw)
  let strbuf ← .lift (poke strbuf ((packet.getDataLength.toNat : Int) - 1) 0)
  let code ← payload h packet 0
  pure (.ofChars (ofByte code) strbuf)

variable {setting : Setting}

def Covers (p : Packet) (i : Int) (n : Nat) : Prop := n = 0 ∨ 0 ≤ i ∧ i + n ≤ p.data.length
instance (p : Packet) (i : Int) (n : Nat) : Decidable (Covers p i n) := by unfold Covers; infer_instance

theorem payloadCovered (setting : Setting) {p : Packet} {i : Int} (covers : Covers p i 1) :
    ∃ b, ∀ w, (payload (Line.host setting) p i).Returns w b w := by
  obtain bad | ⟨low,high⟩ := covers
  · contradiction
  · obtain ⟨j,rfl⟩ := Int.eq_ofNat_of_zero_le low
    have inside : j < p.data.length := by omega
    exact ⟨p.data[j],fun w => payloadInside (List.getElem?_eq_getElem inside) w⟩

theorem payloadTrapped {p : Packet} {i : Int} (outside : ¬ Covers p i 1) (w : Line) :
    (payload (Line.host setting.checked) p i).Raises w (.outsidePayload i) w := by
  unfold payload
  have missing : (if 0 ≤ i then p.data[i.toNat]? else none) = none := by
    split
    · rename_i low
      refine List.getElem?_eq_none ?_
      unfold Covers at outside
      omega
    · rfl
  rw [missing]
  exact Program.raisesStep.mpr rfl

theorem payloadRangeCovered (setting : Setting) {p : Packet} {i : Int} {n : Nat} (covers : Covers p i n) :
    ∃ raw, ∀ w, (payloadRange (Line.host setting) p i n).Returns w raw w := by
  induction n generalizing i with
  | zero => exact ⟨[],fun w => Program.returnsPure.mpr ⟨rfl,rfl⟩⟩
  | succ n ih =>
    have bounds : 0 ≤ i ∧ i + n + 1 ≤ p.data.length := by
      unfold Covers at covers
      omega
    obtain ⟨b,first⟩ := payloadCovered setting (p := p) (i := i) (.inr (by omega))
    obtain ⟨rest,later⟩ := ih (i := i + 1) (.inr (by omega))
    exact ⟨b :: rest,fun w => Program.returnsBind.mpr ⟨b,w,first w,
      Program.returnsBind.mpr ⟨rest,w,later w,Program.returnsPure.mpr ⟨rfl,rfl⟩⟩⟩⟩

theorem payloadRangeTrapped {p : Packet} {i : Int} {n : Nat} (outside : ¬ Covers p i n) (w : Line) :
    ∃ j, (payloadRange (Line.host setting.checked) p i n).Raises w (.outsidePayload j) w := by
  induction n generalizing i with
  | zero => exact absurd (.inl rfl) outside
  | succ n ih =>
    by_cases here : Covers p i 1
    · obtain ⟨b,first⟩ := payloadCovered setting.checked here
      obtain ⟨j,later⟩ := ih (i := i + 1) (by unfold Covers at outside here ⊢; omega)
      exact ⟨j,Program.raisesBind.mpr (.inr ⟨b,w,first w,Program.raisesBind.mpr (.inl later)⟩)⟩
    · exact ⟨i,Program.raisesBind.mpr (.inl (payloadTrapped here w))⟩

def NotOutside (e : Fault) : Prop := ∀ offset, e ≠ .outsidePayload offset

theorem outsideTrapped (offset : Int) : ¬ NotOutside (.outsidePayload offset) := fun h => h offset rfl

theorem valueOf {p : Packet} (w : Line) : (value (.ofValue p) : Act Line Packet).Returns w p w :=
  valueReturns.mpr ⟨rfl,rfl⟩

theorem coversFirst {p : Packet} : Covers p 0 1 ↔ p.data ≠ [] := by
  unfold Covers
  cases p.data with
  | nil => simp
  | cons b rest =>
    refine iff_of_true ?_ (List.cons_ne_nil b rest)
    rw [List.length_cons]
    omega

theorem firstByteInside {ε : Type} [EnumClass ε] {p : Packet} :
    (firstByte (ε := ε) (Line.host setting.checked) (.ofValue p)).ErrorsIn NotOutside ↔ p.data ≠ [] := by
  refine (Program.errorsAfter valueOf).trans ?_
  rw [← coversFirst]
  constructor
  · intro safe
    by_contra outside
    exact Program.errorsRaised _ (payloadTrapped outside .idle) (outsideTrapped 0) safe
  · intro inside
    obtain ⟨b,first⟩ := payloadCovered setting.checked inside
    exact (Program.errorsAfter first).mpr (Program.errorsPure _)

theorem coversTwo {p : Packet} : Covers p 0 1 ∧ Covers p 1 1 ↔ ∃ n d rest, p.data = n :: d :: rest := by
  unfold Covers
  match p.data with
  | [] => simp
  | [b] => simp
  | n :: d :: rest =>
    simp only [List.length_cons,List.cons.injEq,exists_and_left,exists_eq',and_true]
    exact iff_of_true (by omega) trivial

theorem copyOutInside {p : Packet} {data : Bytes} {maxSize : UInt8} :
    (copyOut (Line.host setting.checked) (.ofValue p) data maxSize).ErrorsIn NotOutside ↔
      ∃ n d rest, p.data = n :: d :: rest ∧ (d ≤ maxSize → Covers p (2 + n.toInt8.toInt) d.toNat) := by
  refine (Program.errorsAfter valueOf).trans ?_
  by_cases lengths : ∃ n d rest, p.data = n :: d :: rest
  · obtain ⟨n,d,rest,shape⟩ := lengths
    have first (w : Line) : (payload (Line.host setting.checked) p 0).Returns w n w := payloadInside (by simp [shape]) w
    have second (w : Line) : (payload (Line.host setting.checked) p 1).Returns w d w := payloadInside (by simp [shape]) w
    refine (Program.errorsAfter first).trans ((Program.errorsAfter second).trans ?_)
    have only : (∃ m e more, p.data = m :: e :: more ∧ (e ≤ maxSize → Covers p (2 + m.toInt8.toInt) e.toNat)) ↔
        (d ≤ maxSize → Covers p (2 + n.toInt8.toInt) d.toNat) := by
      constructor
      · rintro ⟨m,e,more,same,covers⟩
        rw [shape] at same
        cases same
        exact covers
      · intro covers
        exact ⟨n,d,rest,shape,covers⟩
    rw [only]
    split
    · rename_i large
      exact iff_of_true (Program.errorsPure _) fun small => absurd small (UInt8.not_le.mpr large)
    · rename_i small
      rw [imp_iff_right (UInt8.not_lt.mp small)]
      constructor
      · intro safe
        by_contra outside
        obtain ⟨j,raised⟩ := payloadRangeTrapped outside .idle
        exact Program.errorsRaised _ raised (outsideTrapped j) safe
      · intro covers
        obtain ⟨raw,ran⟩ := payloadRangeCovered setting.checked covers
        exact (Program.errorsAfter ran).mpr (Program.errorsPure _)
  · refine iff_of_false (fun safe => ?_) fun ⟨n,d,rest,shape,_⟩ => lengths ⟨n,d,rest,shape⟩
    by_cases zero : Covers p 0 1
    · obtain ⟨n,first⟩ := payloadCovered setting.checked zero
      have one : ¬ Covers p 1 1 := fun one => lengths (coversTwo.mp ⟨zero,one⟩)
      exact Program.errorsRaised _ (payloadTrapped one .idle) (outsideTrapped 1) ((Program.errorsAfter first).mp safe)
    · exact Program.errorsRaised _ (payloadTrapped zero .idle) (outsideTrapped 0) safe

theorem copyCountTail {p : Packet} {code : UInt8} {portName : Bytes} (data : p.data = code :: portName) :
    copyCount p = portName.length := by
  have fits := p.fits
  unfold copyCount
  rw [Packet.dataLength]
  simp only [data,List.length_cons] at fits ⊢
  omega

theorem ofCharsTerminated (typeCode : TypeCode) (portName junk : Bytes) :
    PortProfile.ofChars typeCode (portName ++ 0 :: junk) = PortProfile.ofChars typeCode portName := by
  have same : (portName ++ 0 :: junk).takeWhile (· ≠ 0) = portName.takeWhile (· ≠ 0) := by
    induction portName with
    | nil => simp
    | cons b portName ih =>
      rw [List.cons_append,List.takeWhile_cons,List.takeWhile_cons,ih]
  simp only [PortProfile.ofChars,PortProfile.mk.injEq,true_and]
  exact same

/- On a payload that is not empty, the accesses together are the parser: a name that does not
fit `strbuf` is stopped by the copy, or one byte later by the terminating NUL. -/
theorem readPortProfileParses {p : Packet} (filled : p.data ≠ []) (w : Line) :
    (readPortProfile (Line.host setting) p).Evaluates w (parsePortProfile p) w := by
  obtain ⟨code,portName,data⟩ := List.exists_cons_of_ne_nil filled
  have length : (p.getDataLength.toNat : Int) - 1 = portName.length := by
    rw [Packet.dataLength,data,List.length_cons]
    omega
  have junkLength : ((List.range strbufSize).map setting.scratch).length = 64 := by simp [strbufSize]
  have tail := payloadRangeInside setting (show p.data = [code] ++ portName ++ [] by simp [data]) w
  have first : (payload (Line.host setting) p 0).Returns w code w := payloadInside (by simp [data]) w
  unfold parsePortProfile strbufSize
  simp only [data]
  refine (Program.evaluatesAfter (Transport.scratchReturns.mpr ⟨rfl,rfl⟩)).mpr ?_
  rw [copyCountTail data]
  refine (Program.evaluatesAfter tail).mpr ?_
  rw [length]
  generalize (List.range strbufSize).map setting.scratch = junk at junkLength
  by_cases fits : portName.length ≤ 64
  · have copied : memcpy junk 0 portName = .ok (portName ++ junk.drop portName.length) :=
      (memcpyNext junk [] (Nat.zero_le _)).mpr ⟨by rw [junkLength]; exact fits,rfl⟩
    refine (Program.evaluatesAfter (Program.returnsLift.mpr ⟨copied,rfl⟩)).mpr ?_
    have size : (portName ++ junk.drop portName.length).length = 64 := by
      rw [List.length_append,List.length_drop]
      omega
    by_cases small : portName.length < 64
    · obtain ⟨b,rest,behind⟩ : ∃ b rest, junk.drop portName.length = b :: rest :=
        List.exists_cons_of_ne_nil (List.ne_nil_of_length_pos (by rw [List.length_drop]; omega))
      have poked : poke (portName ++ junk.drop portName.length) portName.length 0 = .ok (portName ++ 0 :: rest) := by
        unfold poke
        rw [size,if_pos ⟨by omega,by omega⟩,behind,Int.toNat_natCast,List.set_append_right _ _ (Nat.le_refl _)]
        simp
      refine (Program.evaluatesAfter (Program.returnsLift.mpr ⟨poked,rfl⟩)).mpr ?_
      refine (Program.evaluatesAfter first).mpr ?_
      rw [if_pos small,ofCharsTerminated]
      exact Program.returnsPure.mpr ⟨rfl,rfl⟩
    · have stopped : poke (portName ++ junk.drop portName.length) portName.length 0 = .error .outsideBuffer := by
        unfold poke
        rw [size,if_neg (by omega)]
      rw [if_neg small]
      exact Program.raisesBind.mpr (.inl (Program.raisesStep.mpr (Prod.ext stopped rfl)))
  · have stopped : memcpy junk 0 portName = .error .outsideBuffer := by
      unfold memcpy
      rw [if_neg (by omega)]
    rw [if_neg (by omega)]
    exact Program.raisesBind.mpr (.inl (Program.raisesStep.mpr (Prod.ext stopped rfl)))

theorem readPortProfileInside {p : Packet} :
    (readPortProfile (Line.host setting.checked) p).ErrorsIn NotOutside ↔ p.data ≠ [] := by
  constructor
  · intro safe empty
    have count : copyCount p = 2 ^ 64 - 1 := by
      unfold copyCount
      rw [Packet.dataLength,empty]
      rfl
    have outside : ¬ Covers p 1 (copyCount p) := by
      unfold Covers
      rw [count,empty]
      simp
    obtain ⟨j,raised⟩ := payloadRangeTrapped outside .idle
    have scratch (w : Line) : ((Line.host setting.checked).scratch strbufSize).Returns w _ w :=
      Transport.scratchReturns.mpr ⟨rfl,rfl⟩
    exact Program.errorsRaised _ raised (outsideTrapped j) ((Program.errorsAfter scratch).mp safe)
  · intro filled w e t raised
    obtain ⟨failed,_⟩ := Program.evaluatesUnique raised (readPortProfileParses filled w)
    intro offset
    simp [parseError failed.symm]

theorem afterFrameOther {c : Command} {next : ResultT Packet → Packet → Act Line α} {other : α} {p : Packet}
    (different : p.command ≠ c) :
    (afterFrame c (fun result => value result >>= next result) other p).ErrorsIn NotOutside := by
  have valueless : (awaited c p).value = none := by
    cases found : (awaited c p).value with
    | none => rfl
    | some q => exact absurd (awaitedValue.mp found).1 different
  unfold afterFrame
  split
  · intro w e t raised
    rcases Program.raisesBind.mp raised with opened | ⟨q,u,present,_⟩
    · rw [(valueRaises.mp opened).2.1]
      intro offset
      simp
    · have found := (valueReturns.mp present).1
      rw [valueless] at found
      cases found
  · exact Program.errorsPure _

theorem afterFrameOwn {exit : ResultT Packet → Act Line α} {other : α} (p : Packet) :
    afterFrame p.command exit other p = exit (.ofValue p) := by
  unfold afterFrame awaited
  rw [if_pos rfl]
  exact if_pos rfl

def profileAccess (h : Host Line) (p : Packet) : Act Line Unit :=
  match p.command with
  | .inportProfile | .outportProfile => do
      let _ ← readPortProfile h p
      pure ()
  | _ => pure ()

theorem profileAccessPort {h : Host Line} {p : Packet} {errors : Fault → Prop} (port : IsPort p) :
    (profileAccess h p).ErrorsIn errors ↔ (readPortProfile h p).ErrorsIn errors := by
  have shape : profileAccess h p = readPortProfile h p >>= fun _ => pure () := by
    unfold profileAccess
    rcases port with command | command <;> rw [command]
  rw [shape]
  constructor
  · intro safe w e t raised
    exact safe w e t (Program.raisesBind.mpr (.inl raised))
  · intro safe
    exact Program.errorsBind safe fun _ _ _ _ => Program.errorsPure _

theorem profileAccessOther {h : Host Line} {p : Packet} {errors : Fault → Prop} (other : ¬ IsPort p) :
    (profileAccess h p).ErrorsIn errors := by
  unfold profileAccess
  split
  · rename_i command
    exact absurd (.inl command) other
  · rename_i command
    exact absurd (.inr command) other
  · exact Program.errorsPure _

end Protocol

inductive Consumer where
  | getState
  | getEcType
  | receiveOutportData (data : Bytes) (maxSize sizeRead : UInt8)
  | getProfile
  deriving DecidableEq

namespace Consumer
open Protocol

def ReadsInside (setting : Setting) (p : Packet) : Consumer → Prop
  | getState => (afterFrame .getState (firstByte (ε := State) (Line.host setting.checked)) (.ofResult .err) p).ErrorsIn NotOutside
  | getEcType =>
      (afterFrame .getContextType (firstByte (ε := EcType) (Line.host setting.checked)) (.ofResult .err) p).ErrorsIn NotOutside
  | receiveOutportData data maxSize sizeRead =>
      (afterFrame .receiveData (fun result => copyOut (Line.host setting.checked) result data maxSize)
        (.err,data,sizeRead) p).ErrorsIn NotOutside
  | getProfile => (profileAccess (Line.host setting.checked) p).ErrorsIn NotOutside

def Suffices (p : Packet) : Consumer → Prop
  | getState => p.command = .getState → p.data ≠ []
  | getEcType => p.command = .getContextType → p.data ≠ []
  | receiveOutportData _ maxSize _ => p.command = .receiveData →
      ∃ nameLen dataLen rest, p.data = nameLen :: dataLen :: rest ∧
        (dataLen ≤ maxSize → Covers p (2 + nameLen.toInt8.toInt) dataLen.toNat)
  | getProfile => IsPort p → p.data ≠ []

theorem firstByteReads {ε : Type} [EnumClass ε] (setting : Setting) {c : Command} {p : Packet} :
    (afterFrame c (firstByte (ε := ε) (Line.host setting.checked)) (.ofResult .err) p).ErrorsIn NotOutside ↔
      (p.command = c → p.data ≠ []) := by
  by_cases own : p.command = c
  · subst own
    simp only [afterFrameOwn,firstByteInside,forall_const]
  · exact iff_of_true (afterFrameOther own) fun same => absurd same own

theorem copyOutReads (setting : Setting) (p : Packet) (data : Bytes) (maxSize sizeRead : UInt8) :
    (receiveOutportData data maxSize sizeRead).ReadsInside setting p ↔
      (receiveOutportData data maxSize sizeRead).Suffices p := by
  by_cases own : p.command = .receiveData
  · simp only [ReadsInside,Suffices,← own,afterFrameOwn,copyOutInside,forall_const]
  · exact iff_of_true (afterFrameOther own) fun same => absurd same own

theorem readsInside (setting : Setting) (p : Packet) (consumer : Consumer) :
    consumer.ReadsInside setting p ↔ consumer.Suffices p := by
  cases consumer with
  | getState => exact firstByteReads setting
  | getEcType => exact firstByteReads setting
  | receiveOutportData data maxSize sizeRead => exact copyOutReads setting p data maxSize sizeRead
  | getProfile =>
    by_cases port : IsPort p
    · exact (profileAccessPort port).trans (readPortProfileInside.trans (imp_iff_right port).symm)
    · exact iff_of_true (profileAccessOther port) fun same => absurd same port

end Consumer

def emptyState : Packet := ⟨.getState,.ok,[],Packet.noData⟩
def negativeName : Packet := ⟨.receiveData,.ok,[0x80,1],by decide⟩
def emptyPort : Packet := ⟨.inportProfile,.ok,[],Packet.noData⟩

def emptyAnswer : Setting := {Setting.silent with reply := fun _ => emptyState.whole}

def stateAsked : Line :=
  {Line.idle with late := true, written := (Protocol.command .getState).frame,
                  requests := [⟨Protocol.command .getState,[]⟩]}

set_option maxRecDepth 4000 in
theorem readsOutside :
    (Protocol.getState (Line.host emptyAnswer) 1000 1).Raises .idle (.outsidePayload 0) stateAsked ∧
      ¬ Consumer.getState.ReadsInside .silent emptyState ∧
      ¬ (Consumer.receiveOutportData [0] 1 0).ReadsInside .silent negativeName ∧
      ¬ Consumer.getProfile.ReadsInside .silent emptyPort := by
  have first : (Protocol.afterFrame .getState (Protocol.firstByte (ε := State) (Line.host Setting.silent.checked))
      (.ofResult .err) emptyState).Raises .idle (.outsidePayload 0) .idle := ⟨1,rfl⟩
  have range : (Protocol.afterFrame .receiveData (fun result => Protocol.copyOut (Line.host Setting.silent.checked) result [0] 1)
      (.err,[0],0) negativeName).Raises .idle (.outsidePayload (-126)) .idle := ⟨1,rfl⟩
  refine ⟨⟨9,rfl⟩,fun safe => ?_,fun safe => ?_,fun safe => ?_⟩
  · exact Protocol.outsideTrapped 0 (safe _ _ _ first)
  · exact Protocol.outsideTrapped (-126) (safe _ _ _ range)
  · exact Protocol.readPortProfileInside.mp ((Protocol.profileAccessPort (.inl rfl)).mp safe) rfl

namespace Protocol
variable {setting : Setting} {waitUsec : UInt32}

def OutportReply (setting : Setting) (waitUsec : UInt32) (w : Line) (portName : Bytes) (p : Packet) : Prop :=
  ∃ u, Delivers setting waitUsec (w.sent setting (outportRequest (setting.scratch 1) portName)) p u

def Laid (p : Packet) (portName : Bytes) (maxSize : UInt8) : Prop :=
  ∃ raw rest, raw.length ≤ maxSize.toNat ∧ p.data = inportPayload portName raw (UInt8.ofNat raw.length) ++ rest

def OwnAnswer (p : Packet) (portName array : Bytes) (maxSize : UInt8) (out : Result × Bytes × UInt8) : Prop :=
  ∃ n d name data, p.data = n :: d :: (name ++ data) ∧ name.length = n.toNat ∧ d.toNat ≤ data.length ∧
    2 + n.toNat + d.toNat ≤ p.data.length ∧ name = portName ∧ d ≤ maxSize ∧ out.2.2 = d ∧
    out.2.1 = data.take d.toNat ++ array.drop d.toNat

theorem ownAnswerLaid {p : Packet} {portName array : Bytes} {maxSize : UInt8} {out : Result × Bytes × UInt8}
    (own : OwnAnswer p portName array maxSize out) : Laid p portName maxSize := by
  obtain ⟨n,d,name,data,shape,nameLength,enough,_,rfl,bounded,_⟩ := own
  have length : (data.take d.toNat).length = d.toNat := List.length_take_of_le enough
  refine ⟨data.take d.toNat,data.drop d.toNat,by rw [length]; exact UInt8.le_iff_toNat_le.mp bounded,?_⟩
  rw [shape,inportPayload,length,nameLength,UInt8.ofNat_toNat,UInt8.ofNat_toNat,List.take_take,Nat.min_self]
  simp

theorem laidOwnAnswer {p : Packet} {portName array : Bytes} {maxSize : UInt8} {out : Result × Bytes × UInt8} {w : Line}
    (laid : Laid p portName maxSize) (fits : 2 + portName.length ≤ bufferSize) (room : maxSize.toNat ≤ array.length)
    (h : (copyOut (Line.host setting) (.ofValue p) array maxSize).Returns w out w) :
    OwnAnswer p portName array maxSize out := by
  obtain ⟨raw,rest,bounded,shape⟩ := laid
  have rawSize : (UInt8.ofNat raw.length).toNat = raw.length := by
    rw [UInt8.toNat_ofNat']
    exact Nat.mod_eq_of_lt (Nat.lt_of_le_of_lt bounded maxSize.toNat_lt)
  have nameSize : (UInt8.ofNat portName.length).toNat = portName.length := smallSize (by omega)
  have within : UInt8.ofNat raw.length ≤ maxSize := UInt8.le_iff_toNat_le.mpr (by rw [rawSize]; exact bounded)
  have data : p.data = UInt8.ofNat portName.length :: UInt8.ofNat raw.length :: (portName ++ raw ++ rest) := by
    rw [shape,inportPayload,rawSize,List.take_length]
    simp
  have short : (UInt8.ofNat portName.length).toNat < 128 := by
    rw [nameSize]
    unfold bufferSize at fits
    omega
  have copied := copyOutCarries setting rest data nameSize.symm short rawSize.symm within (Nat.le_trans bounded room) w
  obtain ⟨rfl,_⟩ := Program.returnsUnique h copied
  refine ⟨_,_,portName,raw ++ rest,by rw [data,List.append_assoc],nameSize.symm,?_,?_,rfl,within,rfl,?_⟩
  · rw [rawSize,List.length_append]
    omega
  · rw [data,rawSize,nameSize]
    simp only [List.length_cons,List.length_append]
    omega
  · rw [rawSize,List.take_left']
    rfl

theorem copyOutCode {p : Packet} {array : Bytes} {maxSize : UInt8} {out : Result × Bytes × UInt8} {w t : Line}
    (h : (copyOut (Line.host setting) (.ofValue p) array maxSize).Returns w out t) : out.1 = p.result := by
  obtain ⟨q,_,present,h⟩ := Program.returnsBind.mp h
  obtain ⟨same,_⟩ := valueReturns.mp present
  cases same
  obtain ⟨_,_,_,h⟩ := Program.returnsBind.mp h
  obtain ⟨_,_,_,last⟩ := Program.returnsBind.mp h
  split at last
  · rw [(Program.returnsPure.mp last).1]
  · obtain ⟨_,_,_,last⟩ := Program.returnsBind.mp last
    rw [(Program.returnsPure.mp last).1]

theorem receiveOutportSource {portName array : Bytes} {maxSize sizeRead : UInt8} {retryCount : Int} {w t : Line}
    {out : Result × Bytes × UInt8}
    (h : (receiveOutportData (Line.host setting) portName array maxSize sizeRead waitUsec retryCount).Returns w out t) :
    2 + portName.length ≤ bufferSize ∧
      ((out = (.err,array,sizeRead) ∧ ∀ p, OutportReply setting waitUsec w portName p → p.command ≠ .receiveData) ∨
        ∃ p, Delivers setting waitUsec (w.sent setting (outportRequest (setting.scratch 1) portName)) p t ∧
          p.command = .receiveData ∧ (copyOut (Line.host setting) (.ofValue p) array maxSize).Returns t out t) := by
  have fits : 2 + portName.length ≤ bufferSize := by
    by_contra large
    obtain ⟨bad,_⟩ := (receiveOutportOverflow setting array maxSize sizeRead waitUsec retryCount large).mp h
    cases bad
  refine ⟨fits,?_⟩
  rcases answerReturns ((receiveOutportFits setting array maxSize sizeRead waitUsec retryCount fits).mp h) with
    ⟨same,unanswered⟩ | ⟨p,u,delivered,_,copied⟩
  · exact .inl ⟨same,fun p ⟨u,delivered⟩ command => unanswered p u delivered (command ▸ awaitedOwn)⟩
  · obtain ⟨q,_,present,_⟩ := Program.returnsBind.mp copied
    obtain ⟨command,_⟩ := awaitedValue.mp (valueReturns.mp present).1
    rw [awaited,if_pos command] at copied
    obtain ⟨rfl,again⟩ := copyOutSteady setting array maxSize _ _ _ _ copied
    exact .inr ⟨p,delivered,command,again t⟩

theorem outportAnswer {portName array : Bytes} {maxSize sizeRead : UInt8} {retryCount : Int} {w t : Line}
    {out : Result × Bytes × UInt8} (room : maxSize.toNat ≤ array.length)
    (h : (receiveOutportData (Line.host setting) portName array maxSize sizeRead waitUsec retryCount).Returns w out t) :
    (out.1 = .ok → ∃ p, OutportReply setting waitUsec w portName p ∧ p.command = .receiveData ∧
        OwnAnswer p portName array maxSize out) ↔
      ∀ p, OutportReply setting waitUsec w portName p → p.command = .receiveData → p.result = .ok →
        Laid p portName maxSize := by
  obtain ⟨fits,⟨rfl,unanswered⟩ | ⟨p,delivered,command,copied⟩⟩ := receiveOutportSource h
  · exact iff_of_true (fun success => by cases success) fun p reply command _ => absurd command (unanswered p reply)
  · have only (q : Packet) (reply : OutportReply setting waitUsec w portName q) : q = p := by
      obtain ⟨x,other⟩ := reply
      exact (deliversUnique other delivered).1
    have code := copyOutCode copied
    constructor
    · intro genuine q reply _ carried
      obtain rfl := only q reply
      obtain ⟨q,again,_,own⟩ := genuine (code.trans carried)
      obtain rfl := only q again
      exact ownAnswerLaid own
    · intro laid success
      have reply : OutportReply setting waitUsec w portName p := ⟨_,delivered⟩
      exact ⟨p,reply,command,laidOwnAnswer (laid p reply command (code.symm.trans success)) fits room copied⟩

end Protocol

def portReply : Packet := ⟨.receiveData,.ok,[1,2,ascii 'o',7,8],by decide⟩

def portBoard : Setting := {Setting.silent with reply := fun _ => portReply.whole}

def portRequest : Packet := Protocol.outportRequest 0 [ascii 'o']

def portAsked : Line := {Line.idle with late := true, written := portRequest.frame, requests := [⟨portRequest,[]⟩]}

set_option maxRecDepth 4000 in
theorem portDelivers : Protocol.Delivers portBoard 1000 (Line.idle.sent portBoard portRequest) portReply portAsked :=
  ⟨_,⟨9,rfl⟩,⟨9,rfl⟩⟩

set_option maxRecDepth 4000 in
theorem outportAnswerTwo :
    (Protocol.receiveOutportData (Line.host portBoard) [ascii 'o'] [0,0,0] 3 0 1000 1).Returns .idle
        (.ok,[7,8,0],2) portAsked ∧
      ∃ p, Protocol.OutportReply portBoard 1000 .idle [ascii 'o'] p ∧ p.command = .receiveData ∧
        Protocol.OwnAnswer p [ascii 'o'] [0,0,0] 3 (.ok,[7,8,0],2) := by
  have ran : (Protocol.receiveOutportData (Line.host portBoard) [ascii 'o'] [0,0,0] 3 0 1000 1).Returns .idle
      (.ok,[7,8,0],2) portAsked := ⟨9,rfl⟩
  refine ⟨ran,(Protocol.outportAnswer (by decide) ran).mpr (fun p reply _ _ => ?_) rfl⟩
  obtain ⟨u,delivered⟩ := reply
  obtain ⟨rfl,_⟩ := Protocol.deliversUnique delivered portDelivers
  exact ⟨[7,8],[],by decide,by decide⟩

set_option maxRecDepth 4000 in
theorem oversizedReportedAsOk :
    (Protocol.receiveOutportData (Line.host portBoard) [ascii 'o'] [0] 1 0 1000 1).Returns .idle (.ok,[0],2) portAsked ∧
      Protocol.OutportReply portBoard 1000 .idle [ascii 'o'] portReply ∧
      ¬ ∃ p, Protocol.OutportReply portBoard 1000 .idle [ascii 'o'] p ∧ p.command = .receiveData ∧
        Protocol.OwnAnswer p [ascii 'o'] [0] 1 (.ok,[0],2) := by
  refine ⟨⟨9,rfl⟩,⟨_,portDelivers⟩,?_⟩
  rintro ⟨p,_,_,n,d,name,data,_,_,_,_,_,bounded,same,_⟩
  subst same
  exact absurd bounded (by decide)

end RTno2Proxy
