import RTno2Proxy.PortValues
import RTno2Proxy.Session

/-! What the codes returned to a caller stand for. A wait passes on the result byte of an error
report as its own code, so an error report that carries OK is a success without a packet. -/
namespace RTno2Proxy
open Imperative
open EnumClass (toByte ofByte)

def ResultT.Coupled {α : Type} (out : ResultT α) : Prop := out.result = .ok ↔ out.value.isSome = true
instance {α : Type} (out : ResultT α) : Decidable out.Coupled := by unfold ResultT.Coupled; infer_instance

theorem coupledValue {α : Type} (a : α) : (ResultT.ofValue a).Coupled := by simp [ResultT.Coupled,ResultT.ofValue]

theorem coupledResult {α : Type} {failed : Result} (bad : failed ≠ .ok) : (ResultT.ofResult (α := α) failed).Coupled := by
  simp [ResultT.Coupled,ResultT.ofResult,bad]

namespace Protocol
open Transport (receiveCoupled sendUnfailing isNewUnfailing receiveUnfailing)
variable {setting : Setting} {waitUsec : UInt32} {α : Type}

/- An error report that a wait for `c` passes on as a success. -/
def Spoofs (c : Command) (p : Packet) : Prop := p.command ≠ c ∧ p.command = .packetError ∧ p.result = .ok
instance (c : Command) (p : Packet) : Decidable (Spoofs c p) := by unfold Spoofs; infer_instance

theorem awaitedCoupled {c : Command} {p : Packet} : (awaited c p).Coupled ↔ ¬ Spoofs c p := by
  unfold awaited Spoofs
  by_cases same : p.command = c
  · simp [same,coupledValue]
  · rw [if_neg same]
    split
    · rename_i report
      simp [ResultT.Coupled,ResultT.ofResult,report,report ▸ same]
    · rename_i other
      simp [ResultT.Coupled,ResultT.ofResult,other]

theorem awaitedSpoofs {c : Command} {p : Packet} : (awaited c p).result = .ok ∧ (awaited c p).value = none ↔ Spoofs c p := by
  rw [← not_not (a := Spoofs c p),← awaitedCoupled]
  unfold ResultT.Coupled
  cases value : (awaited c p).value with
  | none => simp
  | some q =>
    obtain ⟨same,rfl⟩ := awaitedValue.mp value
    simp [← same,awaitedOwn]

def NotOpened (e : Fault) : Prop := e ≠ .badOptionalAccess

theorem valueRaises {result : ResultT α} {w t : Line} {e : Fault} :
    (value result : Act Line α).Raises w e t ↔ result.value = none ∧ e = .badOptionalAccess ∧ t = w := by
  unfold value
  cases result.value with
  | none =>
    refine Program.raisesStep.trans ?_
    simp [eq_comm]
  | some a =>
    refine iff_of_false Program.pureNever ?_
    simp

theorem payloadErrors {errors : Fault → Prop} (outside : ∀ offset, errors (.outsidePayload offset)) (p : Packet) (i : Int) :
    (payload (Line.host setting) p i).ErrorsIn errors := by
  unfold payload
  split
  · exact Program.errorsPure _
  · simp only [Line.host]
    split
    · exact Program.errorsPure _
    · exact Program.errorsLift fun e same => by cases same; exact outside i

theorem payloadRangeErrors {errors : Fault → Prop} (outside : ∀ offset, errors (.outsidePayload offset)) (p : Packet)
    (i : Int) (n : Nat) : (payloadRange (Line.host setting) p i n).ErrorsIn errors := by
  induction n generalizing i with
  | zero => exact Program.errorsPure _
  | succ n ih =>
    exact Program.errorsBind (payloadErrors outside p i) fun _ _ _ _ =>
      Program.errorsBind (ih _) fun _ _ _ _ => Program.errorsPure _

def Opens (exit : ResultT Packet → Act Line α) : Prop :=
  ∀ result w, (∃ t, (exit result).Raises w .badOptionalAccess t) ↔ result.value = none

theorem opensValue {next : ResultT Packet → Packet → Act Line α} (safe : ∀ result p, (next result p).ErrorsIn NotOpened) :
    Opens fun result => value result >>= next result := by
  intro result w
  constructor
  · rintro ⟨t,raised⟩
    rcases Program.raisesBind.mp raised with empty | ⟨p,u,_,bad⟩
    · exact (valueRaises.mp empty).1
    · exact absurd rfl (safe result p u _ t bad)
  · intro missing
    exact ⟨w,Program.raisesBind.mpr (.inl (valueRaises.mpr ⟨missing,rfl,rfl⟩))⟩

theorem firstByteOpens (setting : Setting) {ε : Type} [EnumClass ε] : Opens (firstByte (ε := ε) (Line.host setting)) :=
  opensValue fun _ p => Program.errorsBind (payloadErrors (fun _ => by simp [NotOpened]) p 0) fun _ _ _ _ =>
    Program.errorsPure _

theorem copyOutOpens (setting : Setting) (data : Bytes) (maxSize : UInt8) :
    Opens fun result => copyOut (Line.host setting) result data maxSize := by
  refine opensValue fun _ p => ?_
  have outside (offset : Int) : NotOpened (.outsidePayload offset) := by simp [NotOpened]
  refine Program.errorsBind (payloadErrors outside p 0) (fun _ nameLen _ _ => ?_)
  refine Program.errorsBind (payloadErrors outside p 1) (fun _ dataLen _ _ => ?_)
  split
  · exact Program.errorsPure _
  · exact Program.errorsBind (payloadRangeErrors outside p _ _) fun _ _ _ _ => Program.errorsPure _

theorem afterFrameOpens {c : Command} {exit : ResultT Packet → Act Line α} {other : α} {p : Packet} {w : Line}
    (opens : Opens exit) : (∃ t, (afterFrame c exit other p).Raises w .badOptionalAccess t) ↔ Spoofs c p := by
  rw [← awaitedSpoofs,← opens (awaited c p) w]
  unfold afterFrame
  split
  · rename_i ok
    rw [and_iff_right ok]
  · rename_i failed
    exact iff_of_false (fun ⟨_,raised⟩ => Program.pureNever raised) fun h => failed h.1

theorem attemptsOpens {c : Command} {exit : ResultT Packet → Act Line α} {after : α} {n : Nat} {w : Line}
    (opens : Opens exit) :
    (∃ t, (Program.attempts (attempt (Line.host setting) c waitUsec exit) after n).Raises w .badOptionalAccess t) ↔
      ∃ p, Hears setting waitUsec c n w p ∧ Spoofs c p := by
  constructor
  · rintro ⟨t,raised⟩
    obtain ⟨k,less,u,p,v,missed,delivered,bad⟩ := attemptsRaise.mp raised
    exact ⟨p,⟨k,less,u,v,missed,delivered⟩,(afterFrameOpens opens).mp ⟨t,bad⟩⟩
  · rintro ⟨p,⟨k,less,u,v,missed,delivered⟩,spoofs⟩
    obtain ⟨t,bad⟩ := (afterFrameOpens opens).mpr spoofs
    exact ⟨t,attemptsRaise.mpr ⟨k,less,u,p,v,missed,delivered,bad⟩⟩

theorem answerOpens {c : Command} {exit : ResultT Packet → Act Line α} {other : α} {w : Line} (opens : Opens exit) :
    (∃ t, (answer (Line.host setting) c waitUsec exit other).Raises w .badOptionalAccess t) ↔
      ∃ p t, Delivers setting waitUsec w p t ∧ Spoofs c p := by
  constructor
  · rintro ⟨t,raised⟩
    obtain ⟨p,u,delivered,bad⟩ := answerRaises.mp raised
    exact ⟨p,u,delivered,(afterFrameOpens opens).mp ⟨t,bad⟩⟩
  · rintro ⟨p,u,delivered,spoofs⟩
    obtain ⟨t,bad⟩ := (afterFrameOpens opens).mpr spoofs
    exact ⟨t,answerRaises.mpr ⟨p,u,delivered,bad⟩⟩

theorem sendInportOpens (retryCount : Int) {portName data : Bytes} {length : UInt8} {w : Line}
    (given : length.toNat ≤ data.length) :
    (∃ t, (sendInportData (Line.host setting) portName data length waitUsec retryCount).Raises w .badOptionalAccess t) ↔
      2 + portName.length + length.toNat ≤ bufferSize ∧
        ∃ p t, Delivers setting waitUsec (w.sent setting (inportRequest portName data length)) p t ∧ Spoofs .sendData p := by
  by_cases fits : 2 + portName.length + length.toNat ≤ bufferSize
  · rw [and_iff_right fits]
    refine (exists_congr fun t => sendInportFits setting waitUsec retryCount given fits).trans ?_
    exact answerOpens (opensValue fun _ _ => Program.errorsPure _)
  · refine (exists_congr fun t => sendInportOverflow setting waitUsec retryCount given fits).trans ?_
    simp [fits]

theorem receiveOutportOpens (portName data : Bytes) (maxSize sizeRead : UInt8) (retryCount : Int) (w : Line) :
    (∃ t, (receiveOutportData (Line.host setting) portName data maxSize sizeRead waitUsec retryCount).Raises w
        .badOptionalAccess t) ↔
      2 + portName.length ≤ bufferSize ∧
        ∃ p t, Delivers setting waitUsec (w.sent setting (outportRequest (setting.scratch 1) portName)) p t ∧
          Spoofs .receiveData p := by
  by_cases fits : 2 + portName.length ≤ bufferSize
  · rw [and_iff_right fits]
    refine (exists_congr fun t => receiveOutportFits setting data maxSize sizeRead waitUsec retryCount fits).trans ?_
    exact answerOpens (copyOutOpens setting data maxSize)
  · refine (exists_congr fun t => receiveOutportOverflow setting data maxSize sizeRead waitUsec retryCount fits).trans ?_
    simp [fits]

theorem getProfileNotOpened (setting : Setting) (waitUsec : UInt32) (retryCount : Int) :
    (getProfile (Line.host setting) waitUsec retryCount).ErrorsIn NotOpened := by
  refine Program.errorsAttempts (Program.errorsBind (sendUnfailing _ |>.errors _) fun _ _ _ _ =>
    Program.errorsLoop (fun profile => ?_) _) _
  refine Program.errorsBind (isNewUnfailing.errors _) (fun _ found _ _ => ?_)
  split
  · exact Program.errorsPure _
  · refine Program.errorsBind (receiveUnfailing.errors _) (fun _ out _ received => ?_)
    split
    · split <;> exact Program.errorsPure _
    · rename_i ok
      rcases receiveCoupled received with ⟨p,rfl⟩ | ⟨failed,bad,rfl⟩
      · refine Program.errorsBind (Program.errorsPure _) (fun _ pac _ _ => Program.errorsLift fun e failed => ?_)
        have buffers (parse : parsePortProfile pac = .error e) : NotOpened e := by simp [parseError parse,NotOpened]
        unfold profileFrame at failed
        split at failed
        · cases failed
        · rcases Program.exceptBindError.mp failed with bad | ⟨_,_,bad⟩
          · exact buffers bad
          · cases bad
        · rcases Program.exceptBindError.mp failed with bad | ⟨_,_,bad⟩
          · exact buffers bad
          · cases bad
        all_goals cases failed
      · exact absurd bad ok

theorem getProfilePassDelivers {profile : Profile} {w t : Line} {x : Profile ⊕ Option (ResultT Profile)}
    (h : (getProfilePass (Line.host setting) waitUsec profile).Returns w x t) :
    x = .inr none ∨ x = .inr (some (.ofResult .checksumError)) ∨
      ∃ p, Delivers setting waitUsec w p t ∧ profileFrame profile p = .ok x := by
  obtain ⟨found,u,new,atReceive⟩ := Program.returnsBind.mp h
  split at atReceive
  · exact .inl (Program.returnsPure.mp atReceive).1
  · rename_i ok
    obtain ⟨out,v,received,atFrame⟩ := Program.returnsBind.mp atReceive
    cases Transport.receiveSource received with
    | header => exact .inl (Program.returnsPure.mp atFrame).1
    | body => exact .inl (Program.returnsPure.mp atFrame).1
    | checksum => exact .inl (Program.returnsPure.mp atFrame).1
    | damaged => exact .inr (.inl (Program.returnsPure.mp atFrame).1)
    | @packet p =>
      obtain ⟨pac,_,present,last⟩ := Program.returnsBind.mp atFrame
      obtain ⟨same,rfl⟩ := valueReturns.mp present
      cases same
      obtain ⟨frame,rfl⟩ := Program.returnsLift.mp last
      exact .inr (.inr ⟨p,⟨u,not_not.mp ok ▸ new,received⟩,frame⟩)

def ProfileOrFailure (out : ResultT Profile) : Prop :=
  (∃ profile, out = .ofValue profile) ∨ ∃ failed ∈ [Result.err,.checksumError,.timeout], out = .ofResult failed

theorem profileFrameOut {profile : Profile} {p : Packet} {out : ResultT Profile}
    (h : profileFrame profile p = .ok (.inr (some out))) : ProfileOrFailure out := by
  unfold profileFrame at h
  split at h
  · cases h
    exact .inl ⟨profile,rfl⟩
  · obtain ⟨_,_,bad⟩ := Program.exceptBind.mp h
    cases bad
  · obtain ⟨_,_,bad⟩ := Program.exceptBind.mp h
    cases bad
  all_goals cases h
  all_goals exact .inr ⟨_,by decide,rfl⟩

theorem getProfileOut {retryCount : Int} {w t : Line} {out : ResultT Profile}
    (h : (getProfile (Line.host setting) waitUsec retryCount).Returns w out t) : ProfileOrFailure out := by
  rcases Program.attemptsReturns.mp h with ⟨_,_,_,_,succeeded⟩ | ⟨_,rfl⟩
  · obtain ⟨_,_,_,loop⟩ := Program.returnsBind.mp succeeded
    have ended : ∀ last : ResultT Profile, some out = some last → ProfileOrFailure last := by
      refine Program.loopRule (motive := fun _ _ x _ => ∀ last : ResultT Profile, x = some last → ProfileOrFailure last)
        (fun _ _ _ _ pass last same => ?_) (fun _ _ _ _ _ _ _ later => later) loop
      rcases getProfilePassDelivers pass with unfinished | damaged | ⟨p,_,frame⟩
      · rw [same] at unfinished
        cases unfinished
      · rw [same] at damaged
        cases damaged
        exact .inr ⟨_,by decide,rfl⟩
      · rw [same] at frame
        exact profileFrameOut frame
    exact ended out rfl
  · exact .inr ⟨_,by decide,rfl⟩

theorem getProfileCoupled {retryCount : Int} {w t : Line} {out : ResultT Profile}
    (h : (getProfile (Line.host setting) waitUsec retryCount).Returns w out t) : out.Coupled := by
  rcases getProfileOut h with ⟨profile,rfl⟩ | ⟨failed,listed,rfl⟩
  · exact coupledValue profile
  · exact coupledResult (by rintro rfl; simp at listed)

theorem firstByteCoupled {ε : Type} [EnumClass ε] {result : ResultT Packet} {w t : Line} {out : ResultT ε}
    (h : (firstByte (Line.host setting) result).Returns w out t) : out.Coupled := by
  obtain ⟨_,_,_,atByte⟩ := Program.returnsBind.mp h
  obtain ⟨code,_,_,last⟩ := Program.returnsBind.mp atByte
  obtain ⟨rfl,_⟩ := Program.returnsPure.mp last
  exact coupledValue _

structure Sound (c : Act Line (ResultT α)) (w : Line) : Prop where
  coupled : ∀ out t, c.Returns w out t → out.Coupled
  opened : ¬ ∃ t, c.Raises w .badOptionalAccess t

theorem soundOpened {c : Act Line (ResultT α)} {w : Line} (coupled : ∀ out t, c.Returns w out t → out.Coupled) :
    Sound c w ↔ ¬ ∃ t, c.Raises w .badOptionalAccess t :=
  ⟨fun sound => sound.opened,fun opened => ⟨coupled,opened⟩⟩

theorem soundErrors {c : Act Line (ResultT α)} {w : Line} (coupled : ∀ out t, c.Returns w out t → out.Coupled)
    (errors : c.ErrorsIn NotOpened) : Sound c w :=
  ⟨coupled,fun ⟨t,raised⟩ => errors w _ t raised rfl⟩

theorem receiveSound (setting : Setting) (waitUsec : UInt32) (w : Line) :
    Sound (Transport.receive (Line.host setting) waitUsec) w := by
  refine soundErrors (fun out t h => ?_) (receiveUnfailing.errors _)
  rcases receiveCoupled h with ⟨p,rfl⟩ | ⟨failed,bad,rfl⟩
  · exact coupledValue p
  · exact coupledResult bad

theorem waitSound {c : Command} {w : Line} :
    Sound (waitAndReceiveCommand (Line.host setting) c waitUsec) w ↔
      ¬ ∃ p t, Delivers setting waitUsec w p t ∧ Spoofs c p := by
  constructor
  · rintro sound ⟨p,t,delivered,spoofs⟩
    exact awaitedCoupled.mp (sound.coupled _ _ (waitDelivered delivered)) spoofs
  · intro clean
    refine soundErrors (fun out t h => ?_) ((waitUnfailing setting c waitUsec).errors _)
    rcases waitSource h with ⟨p,delivered,rfl⟩ | ⟨⟨failed,bad,rfl⟩,_⟩
    · exact awaitedCoupled.mpr fun spoofs => clean ⟨p,t,delivered,spoofs⟩
    · exact coupledResult bad

theorem firstByteSound {ε : Type} [EnumClass ε] {c : Command} {n : Nat} {w : Line} :
    Sound (Program.attempts (attempt (Line.host setting) c waitUsec (firstByte (Line.host setting)))
        (ResultT.ofResult (α := ε) .err) n) w ↔
      ¬ ∃ p, Hears setting waitUsec c n w p ∧ Spoofs c p := by
  refine (soundOpened fun out t h => ?_).trans (not_congr (attemptsOpens (firstByteOpens (ε := ε) setting)))
  rcases attemptsSource h with ⟨_,_,_,_,_,_,_,_,exited⟩ | ⟨_,rfl⟩
  · exact firstByteCoupled exited
  · exact coupledResult (by simp)

theorem receiveValueSound {portName : Bytes} {w : Line} {read : Bytes → UInt8 → Act Line α}
    (errors : ∀ buffer size, (read buffer size).ErrorsIn NotOpened) :
    Sound (do
      let size ← (Line.host setting).scratch 1
      let buffer ← (Line.host setting).scratch maxPacketSize.toNat
      let state ← receiveOutportData (Line.host setting) portName buffer maxPacketSize (size.headD 0) (1000 * 1000) 5
      if state.1 = .ok then do
        let val ← read state.2.1 state.2.2
        pure (.ofValue val)
      else pure (.ofResult state.1)) w ↔
    ¬ (2 + portName.length ≤ bufferSize ∧
        ∃ p t, Delivers setting (1000 * 1000) (w.sent setting (outportRequest (setting.scratch 1) portName)) p t ∧
          Spoofs .receiveData p) := by
  refine (soundOpened fun out t h => ?_).trans (not_congr ?_)
  · obtain ⟨_,_,_,h⟩ := Program.returnsBind.mp h
    obtain ⟨_,_,_,h⟩ := Program.returnsBind.mp h
    obtain ⟨state,_,_,last⟩ := Program.returnsBind.mp h
    split at last
    · obtain ⟨val,_,_,last⟩ := Program.returnsBind.mp last
      obtain ⟨rfl,_⟩ := Program.returnsPure.mp last
      exact coupledValue val
    · rename_i failed
      obtain ⟨rfl,_⟩ := Program.returnsPure.mp last
      exact coupledResult failed
  · rw [← receiveOutportOpens portName ((List.range maxPacketSize.toNat).map setting.scratch) maxPacketSize
      (((List.range 1).map setting.scratch).headD 0) 5 w]
    refine exists_congr fun t => ?_
    refine (Program.evaluatesAfter (Transport.scratchReturns.mpr ⟨rfl,rfl⟩)).trans ?_
    refine (Program.evaluatesAfter (Transport.scratchReturns.mpr ⟨rfl,rfl⟩)).trans ?_
    refine Program.raisesBind.trans (or_iff_left ?_)
    rintro ⟨state,u,_,last⟩
    split at last
    · exact (Program.errorsBind (errors _ _) fun _ _ _ _ => Program.errorsPure _) u _ t last rfl
    · exact Program.pureNever last

end Protocol

inductive Access where
  | receive
  | waitAndReceiveCommand (command : Command)
  | getState (retryCount : Int)
  | getEcType (retryCount : Int)
  | getProfile (retryCount : Int)
  | execute (retryCount : Int)
  | sendInportData (portName data : Bytes) (length : UInt8) (given : length.toNat ≤ data.length) (retryCount : Int)
  | receiveOutportData (portName data : Bytes) (maxSize sizeRead : UInt8) (retryCount : Int)
  | receiveAs (T : ValueType) (portName : Bytes)
  | receiveSeqAs (T : ValueType) (portName : Bytes)

namespace Access
open Protocol
variable (setting : Setting) (waitUsec : UInt32) (w : Line)

def ValueWithOk : Access → Prop
  | receive => Sound (Transport.receive (Line.host setting) waitUsec) w
  | waitAndReceiveCommand c => Sound (Protocol.waitAndReceiveCommand (Line.host setting) c waitUsec) w
  | getState retryCount => Sound (Protocol.getState (Line.host setting) waitUsec retryCount) w
  | getEcType retryCount => Sound (Protocol.getEcType (Line.host setting) waitUsec retryCount) w
  | getProfile retryCount => Sound (Protocol.getProfile (Line.host setting) waitUsec retryCount) w
  | execute retryCount =>
      ¬ ∃ t, (Protocol.execute (Line.host setting) waitUsec retryCount).Raises w .badOptionalAccess t
  | sendInportData portName data length _ retryCount =>
      ¬ ∃ t, (Protocol.sendInportData (Line.host setting) portName data length waitUsec retryCount).Raises w
        .badOptionalAccess t
  | receiveOutportData portName data maxSize sizeRead retryCount =>
      ¬ ∃ t, (Protocol.receiveOutportData (Line.host setting) portName data maxSize sizeRead waitUsec retryCount).Raises w
        .badOptionalAccess t
  | receiveAs T portName => Sound (Protocol.receiveAs (Line.host setting) T portName) w
  | receiveSeqAs T portName => Sound (Protocol.receiveSeqAs (Line.host setting) T portName) w

def OutportSpoofed (portName : Bytes) : Prop :=
  2 + portName.length ≤ bufferSize ∧
    ∃ p t, Delivers setting waitUsec (w.sent setting (outportRequest (setting.scratch 1) portName)) p t ∧
      Spoofs .receiveData p

def Spoofed : Access → Prop
  | receive => False
  | waitAndReceiveCommand c => ∃ p t, Delivers setting waitUsec w p t ∧ Spoofs c p
  | getState retryCount => ∃ p, Hears setting waitUsec .getState retryCount.toNat w p ∧ Spoofs .getState p
  | getEcType retryCount => ∃ p, Hears setting waitUsec .getContextType retryCount.toNat w p ∧ Spoofs .getContextType p
  | getProfile _ => False
  | execute retryCount => ∃ p, Hears setting waitUsec .execute retryCount.toNat w p ∧ Spoofs .execute p
  | sendInportData portName data length _ _ =>
      2 + portName.length + length.toNat ≤ bufferSize ∧
        ∃ p t, Delivers setting waitUsec (w.sent setting (inportRequest portName data length)) p t ∧ Spoofs .sendData p
  | receiveOutportData portName _ _ _ _ => OutportSpoofed setting waitUsec w portName
  | receiveAs _ portName => OutportSpoofed setting (1000 * 1000) w portName
  | receiveSeqAs _ portName => OutportSpoofed setting (1000 * 1000) w portName

theorem valueWithOk (access : Access) : access.ValueWithOk setting waitUsec w ↔ ¬ access.Spoofed setting waitUsec w := by
  have buffers : NotOpened .outsideBuffer := by simp [NotOpened]
  cases access with
  | receive => exact iff_of_true (receiveSound setting waitUsec w) id
  | waitAndReceiveCommand c => exact waitSound
  | getState retryCount => exact firstByteSound
  | getEcType retryCount => exact firstByteSound
  | getProfile retryCount =>
    exact iff_of_true (soundErrors (fun _ _ => getProfileCoupled) (getProfileNotOpened setting waitUsec retryCount)) id
  | execute retryCount => exact not_congr (attemptsOpens (opensValue fun _ _ => Program.errorsPure _))
  | sendInportData portName data length given retryCount => exact not_congr (sendInportOpens retryCount given)
  | receiveOutportData portName data maxSize sizeRead retryCount =>
    exact not_congr (receiveOutportOpens portName data maxSize sizeRead retryCount w)
  | receiveAs T portName => exact receiveValueSound (intoErrors buffers T)
  | receiveSeqAs T portName => exact receiveValueSound (intoVecErrors buffers T)

end Access

def spoof : Packet := ⟨.packetError,.ok,[],Packet.noData⟩

def spoofingBoard : Setting := {Setting.silent with reply := fun _ => spoof.whole}

def spoofed : Line :=
  {Line.idle with late := true, written := (Protocol.command .getState).frame,
                  requests := [⟨Protocol.command .getState,[]⟩]}

set_option maxRecDepth 4000 in
theorem okWithoutValue :
    (Protocol.waitAndReceiveCommand (Line.host spoofingBoard) .getState 1000).Returns
        {Line.idle with flight := spoof.whole} ⟨none,.ok⟩ {Line.idle with late := true} ∧
      (Protocol.getState (Line.host spoofingBoard) 1000 1).Raises .idle .badOptionalAccess spoofed ∧
      ¬ (Access.waitAndReceiveCommand .getState).ValueWithOk spoofingBoard 1000 {Line.idle with flight := spoof.whole} ∧
      ¬ (Access.getState 1).ValueWithOk spoofingBoard 1000 .idle := by
  have waited : (Protocol.waitAndReceiveCommand (Line.host spoofingBoard) .getState 1000).Returns
      {Line.idle with flight := spoof.whole} ⟨none,.ok⟩ {Line.idle with late := true} := ⟨9,rfl⟩
  have raised : (Protocol.getState (Line.host spoofingBoard) 1000 1).Raises .idle .badOptionalAccess spoofed := ⟨9,rfl⟩
  refine ⟨waited,raised,fun sound => ?_,fun sound => sound.opened ⟨_,raised⟩⟩
  exact absurd (sound.coupled _ _ waited) (by decide)

def Operation.retried : Operation → Option Command
  | .getState => some .getState
  | .getEcType => some .getContextType
  | .activate => some .activate
  | .deactivate => some .deactivate
  | .execute => some .execute
  | _ => none

def Heard (setting : Setting) (c : Command) (e : Exchange) (p : Packet) : Prop :=
  Protocol.Hears setting e.call.waitUsec c e.call.retryCount.toNat e.start p

def ReportsDevice (setting : Setting) (c : Command) (e : Exchange) : Prop :=
  (e.reply.code = .ok → ∃ p, Heard setting c e p ∧ p.command = c ∧ p.result = .ok) ∧
    ∀ p, Heard setting c e p → p.command = c → p.result ≠ .ok → e.reply.code ≠ .ok

namespace Protocol
variable {setting : Setting} {waitUsec : UInt32} {α : Type}

theorem attemptsReport {c : Command} {exit : ResultT Packet → Act Line α} {after a : α} {n : Nat} {w t : Line}
    (code : α → Result) (exits : ∀ result w a t, result.result = .ok → (exit result).Returns w a t → code a = .ok)
    (fails : code after ≠ .ok)
    (h : (Program.attempts (attempt (Line.host setting) c waitUsec exit) after n).Returns w a t) :
    ((code a = .ok → ∃ p, Hears setting waitUsec c n w p ∧ p.command = c ∧ p.result = .ok) ∧
        ∀ p, Hears setting waitUsec c n w p → p.command = c → p.result ≠ .ok → code a ≠ .ok) ↔
      ∀ p, Hears setting waitUsec c n w p → (p.command = c → p.result = .ok) ∧ ¬ Spoofs c p := by
  constructor
  · rintro ⟨genuine,other⟩ p heard
    -- A frame of success ends the call, so the call has ended with this one.
    have ended : (awaited c p).result = .ok → code a = .ok ∧ ∀ q, Hears setting waitUsec c n w q → (awaited c q).result = .ok → q = p := by
      intro ok
      rcases attemptsSource h with ⟨k,less,u,v,q,missed,delivered,fine,exited⟩ | ⟨missed,_⟩
      · have last := fun q heard => hearsLast missed delivered fine (q := q) (n := n) heard
        obtain rfl := (last p heard).resolve_right (not_not.mpr ok)
        exact ⟨exits _ _ _ _ fine exited,fun r hears good => (last r hears).resolve_right (not_not.mpr good)⟩
      · exact absurd ok (missedHears missed heard)
    constructor
    · rintro rfl
      by_contra bad
      exact other p heard rfl bad (ended awaitedOwn).1
    · intro spoofs
      obtain ⟨success,only⟩ := ended (awaitedSpoofs.mpr spoofs).1
      obtain ⟨q,hears,rfl,_⟩ := genuine success
      obtain rfl := only q hears awaitedOwn
      exact spoofs.1 rfl
  · intro honest
    refine ⟨fun success => ?_,fun p heard own bad => absurd ((honest p heard).1 own) bad⟩
    rcases attemptsSource h with ⟨k,less,u,v,p,missed,delivered,fine,_⟩ | ⟨_,rfl⟩
    · have heard : Hears setting waitUsec c n w p := ⟨k,less,u,v,missed,delivered⟩
      obtain ⟨carried,genuine⟩ := honest p heard
      cases value : (awaited c p).value with
      | none => exact absurd (awaitedSpoofs.mp ⟨fine,value⟩) genuine
      | some q =>
        obtain ⟨own,_⟩ := awaitedValue.mp value
        exact ⟨p,heard,own,carried own⟩
    · exact absurd success fails

theorem firstByteOk {ε : Type} [EnumClass ε] {result : ResultT Packet} {w t : Line} {out : ResultT ε}
    (h : (firstByte (Line.host setting) result).Returns w out t) : out.result = .ok := by
  obtain ⟨_,_,_,atByte⟩ := Program.returnsBind.mp h
  obtain ⟨_,_,_,last⟩ := Program.returnsBind.mp atByte
  obtain ⟨rfl,_⟩ := Program.returnsPure.mp last
  rfl

end Protocol

variable {setting : Setting}

theorem successReported {call : Call} {reply : Reply} {w t : Line} {c : Command}
    (repeats : call.operation.retried = some c) (h : (call.run (Line.host setting)).Returns w reply t) :
    ReportsDevice setting c ⟨call,reply,w,t⟩ ↔
      ∀ p, Heard setting c ⟨call,reply,w,t⟩ p → (p.command = c → p.result = .ok) ∧ ¬ Protocol.Spoofs c p := by
  obtain ⟨operation,waitUsec,retryCount⟩ := call
  cases operation with
  | getState =>
    cases repeats
    obtain ⟨out,ran,rfl⟩ := Program.returnsMap.mp h
    exact Protocol.attemptsReport ResultT.result (fun _ _ _ _ _ => Protocol.firstByteOk)
      (by simp [ResultT.ofResult]) ran
  | getEcType =>
    cases repeats
    obtain ⟨out,ran,rfl⟩ := Program.returnsMap.mp h
    exact Protocol.attemptsReport ResultT.result (fun _ _ _ _ _ => Protocol.firstByteOk)
      (by simp [ResultT.ofResult]) ran
  | activate =>
    cases repeats
    obtain ⟨out,ran,rfl⟩ := Program.returnsMap.mp h
    refine Protocol.attemptsReport id (fun result _ a _ ok exited => ?_) (by simp) ran
    exact (Program.returnsPure.mp exited).1.trans ok
  | deactivate =>
    cases repeats
    obtain ⟨out,ran,rfl⟩ := Program.returnsMap.mp h
    refine Protocol.attemptsReport id (fun result _ a _ ok exited => ?_) (by simp) ran
    exact (Program.returnsPure.mp exited).1.trans ok
  | execute =>
    cases repeats
    obtain ⟨out,ran,rfl⟩ := Program.returnsMap.mp h
    refine Protocol.attemptsReport id (fun result _ a _ ok exited => ?_) (by simp) ran
    obtain ⟨_,_,_,exited⟩ := Program.returnsBind.mp exited
    exact (Program.returnsPure.mp exited).1.trans ok
  | getProfile => cases repeats
  | sendInportData => cases repeats
  | receiveOutportData => cases repeats

def refusal : Packet := ⟨.activate,.invalidPrestate,[],Packet.noData⟩
def consent : Packet := ⟨.activate,.ok,[],Packet.noData⟩

def activation (reply : Packet) : Setting := {Setting.silent with reply := fun _ => reply.whole}

def activateAsked : Line :=
  {Line.idle with late := true, written := (Protocol.command .activate).frame,
                  requests := [⟨Protocol.command .activate,[]⟩]}

theorem activateDelivers (reply : Packet) (whole : reply = refusal ∨ reply = consent) :
    Protocol.Delivers (activation reply) 1000 (Line.idle.sent (activation reply) (Protocol.command .activate)) reply
      activateAsked := by
  rcases whole with rfl | rfl
  · exact ⟨_,⟨9,rfl⟩,⟨9,rfl⟩⟩
  · exact ⟨_,⟨9,rfl⟩,⟨9,rfl⟩⟩

def activateOnce : Call := ⟨.activate,1000,1⟩

set_option maxRecDepth 4000 in
theorem successReportedConsent :
    (activateOnce.run (Line.host (activation consent))).Returns .idle (.result .ok) activateAsked ∧
      ReportsDevice (activation consent) .activate ⟨activateOnce,.result .ok,.idle,activateAsked⟩ := by
  have ran : (activateOnce.run (Line.host (activation consent))).Returns .idle (.result .ok) activateAsked := ⟨9,rfl⟩
  refine ⟨ran,(successReported rfl ran).mpr ?_⟩
  rintro p ⟨k,less,u,v,missed,delivered⟩
  obtain rfl : k = 0 := Nat.lt_one_iff.mp less
  cases missed
  obtain ⟨rfl,_⟩ := Protocol.deliversUnique delivered (activateDelivers consent (.inr rfl))
  decide

set_option maxRecDepth 4000 in
theorem refusalReportedAsSuccess :
    (activateOnce.run (Line.host (activation refusal))).Returns .idle (.result .ok) activateAsked ∧
      Heard (activation refusal) .activate ⟨activateOnce,.result .ok,.idle,activateAsked⟩ refusal ∧
      ¬ ReportsDevice (activation refusal) .activate ⟨activateOnce,.result .ok,.idle,activateAsked⟩ := by
  have ran : (activateOnce.run (Line.host (activation refusal))).Returns .idle (.result .ok) activateAsked := ⟨9,rfl⟩
  have heard : Heard (activation refusal) .activate ⟨activateOnce,.result .ok,.idle,activateAsked⟩ refusal :=
    ⟨0,by decide,_,_,.zero _,activateDelivers refusal (.inl rfl)⟩
  exact ⟨ran,heard,fun reports => reports.2 refusal heard rfl (by decide) rfl⟩

end RTno2Proxy
