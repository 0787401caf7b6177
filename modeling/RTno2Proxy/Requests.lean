import RTno2Proxy.Retries
import RTno2Proxy.Outcomes

/-! The bytes of a request. The local array of `send_inport_data` is 64 bytes long and nothing
compares the lengths with that; the one of `receive_outport_data` has a byte that is sent and
was never written. -/
namespace RTno2Proxy
open Imperative

namespace Line

def Grows (w t : Line) : Prop := w.written <+: t.written

instance : IsPreorder Line Grows where
  refl _ := List.prefix_rfl
  trans _ _ _ := List.IsPrefix.trans

theorem growsRefl (w : Line) : Grows w w := List.prefix_rfl

theorem Took.grows {w t : Line} {raw : Bytes} (took : Took w raw t) : Grows w t := by
  rw [Grows,took.written]

theorem foldGrows (setting : Setting) (w : Line) (raw : Bytes) : Grows w (raw.foldl (receiveByte setting) w) := by
  rw [Grows,foldWritten]
  exact List.prefix_append _ _

end Line
open Line (Grows growsRefl)

namespace Transport
variable {setting : Setting} {waitUsec : UInt32}

theorem readGrows (buffer : Bytes) (size : UInt8) : (read (Line.host setting) buffer size waitUsec).Keeps Grows := by
  unfold read
  split
  · exact Program.keepsPure _
  · refine Program.keepsBind (Program.keepsLoop (fun _ => ?_) ()) fun ready => ?_
    · refine Program.keepsBind (Program.keepsStep fun w => (Line.pollTook w).grows) fun available => ?_
      split
      · exact Program.keepsPure _
      · refine Program.keepsBind (Program.keepsStep growsRefl) fun expired => ?_
        split <;> exact Program.keepsPure _
    · split
      · exact Program.keepsBind (Program.keepsStep growsRefl) fun _ => Program.keepsPure _
      · exact Program.keepsPure _

theorem readByteGrows (buf : UInt8) : (readByte (Line.host setting) buf waitUsec).Keeps Grows :=
  Program.keepsBind (readGrows [buf] 1) fun _ => Program.keepsPure _

theorem isNewGrows : (isNew (Line.host setting) waitUsec).Keeps Grows := by
  refine Program.keepsBind (Program.keepsPure _) fun _ =>
    Program.keepsLoop (fun buf => ?_) _
  refine Program.keepsBind (readByteGrows buf) fun first => ?_
  split
  · exact Program.keepsPure _
  · split
    · exact Program.keepsPure _
    · refine Program.keepsBind (readByteGrows _) fun second => ?_
      split
      · exact Program.keepsPure _
      · split <;> exact Program.keepsPure _

theorem receiveGrows : (receive (Line.host setting) waitUsec).Keeps Grows := by
  refine Program.keepsBind (Program.keepsPure _) fun header => ?_
  refine Program.keepsBind (readGrows _ _) fun head => ?_
  split
  · exact Program.keepsPure _
  · refine Program.keepsBind (Program.keepsPure _) fun sender => ?_
    refine Program.keepsBind (Program.keepsPure _) fun dataBuffer => ?_
    refine Program.keepsBind (readGrows _ _) fun body => ?_
    split
    · exact Program.keepsPure _
    · refine Program.keepsBind (Program.keepsPure _) fun buf => ?_
      refine Program.keepsBind (readByteGrows _) fun last => ?_
      split
      · exact Program.keepsPure _
      · split <;> exact Program.keepsPure _

theorem sendGrows (setting : Setting) (p : Packet) : (send (Line.host setting) p).Keeps Grows := by
  intro w v t h
  obtain ⟨_,rfl⟩ := Program.evaluatesUnique h (sendSent setting w p)
  exact Line.foldGrows setting w p.frame

end Transport

namespace Protocol
variable {setting : Setting} {waitUsec : UInt32} {α : Type}

theorem valueGrows (result : ResultT α) : (value result : Act Line α).Keeps Grows := by
  unfold value
  split
  · exact Program.keepsPure _
  · exact Program.keepsStep growsRefl

theorem payloadGrows (p : Packet) (i : Int) : (payload (Line.host setting) p i).Keeps Grows := by
  unfold payload
  split
  · exact Program.keepsPure _
  · simp only [Line.host]
    split
    · exact Program.keepsPure _
    · exact Program.keepsStep growsRefl

theorem payloadRangeGrows (p : Packet) (i : Int) (n : Nat) : (payloadRange (Line.host setting) p i n).Keeps Grows := by
  induction n generalizing i with
  | zero => exact Program.keepsPure _
  | succ n ih =>
    exact Program.keepsBind (payloadGrows p i) fun _ =>
      Program.keepsBind (ih _) fun _ => Program.keepsPure _

theorem waitGrows (c : Command) : (waitAndReceiveCommand (Line.host setting) c waitUsec).Keeps Grows := by
  refine Program.keepsBind Transport.isNewGrows fun found => ?_
  split
  · refine Program.keepsBind Transport.receiveGrows fun out => ?_
    split
    · exact Program.keepsPure _
    · refine Program.keepsBind (valueGrows out) fun pac => ?_
      split
      · exact Program.keepsPure _
      · split <;> exact Program.keepsPure _
  · exact Program.keepsPure _

theorem attemptGrows {c : Command} {exit : ResultT Packet → Act Line α} (exits : ∀ result, (exit result).Keeps Grows) :
    (attempt (Line.host setting) c waitUsec exit).Keeps Grows := by
  refine Program.keepsBind (Transport.sendGrows setting _) fun _ => ?_
  refine Program.keepsBind (waitGrows c) fun result => ?_
  split
  · exact Program.keepsBind (exits result) fun _ => Program.keepsPure _
  · exact Program.keepsPure _

theorem getProfilePassGrows (setting : Setting) (waitUsec : UInt32) (profile : Profile) :
    (getProfilePass (Line.host setting) waitUsec profile).Keeps Grows := by
  refine Program.keepsBind Transport.isNewGrows fun found => ?_
  split
  · exact Program.keepsPure _
  · refine Program.keepsBind Transport.receiveGrows fun out => ?_
    split
    · split <;> exact Program.keepsPure _
    · exact Program.keepsBind (valueGrows out) fun _ => Program.keepsStep growsRefl

theorem copyOutGrows (result : ResultT Packet) (data : Bytes) (maxSize : UInt8) :
    (copyOut (Line.host setting) result data maxSize).Keeps Grows := by
  refine Program.keepsBind (valueGrows result) fun p => ?_
  refine Program.keepsBind (payloadGrows p _) fun nameLen => ?_
  refine Program.keepsBind (payloadGrows p _) fun dataLen => ?_
  split
  · exact Program.keepsPure _
  · exact Program.keepsBind (payloadRangeGrows p _ _) fun _ => Program.keepsPure _

structure TrueLengths (portName data : Bytes) (p : Packet) : Prop where
  command : p.command = .sendData
  payload : p.data = UInt8.ofNat portName.length :: UInt8.ofNat data.length :: (portName ++ data)
  nameLength : (UInt8.ofNat portName.length).toNat = portName.length
  dataLength : (UInt8.ofNat data.length).toNat = data.length
  size : p.getDataLength.toNat = 2 + portName.length + data.length

def TransmitsExactly (setting : Setting) (waitUsec : UInt32) (retryCount : Int) (portName data : Bytes) (length : UInt8)
    (w : Line) : Prop :=
  ∀ v t, (sendInportData (Line.host setting) portName data length waitUsec retryCount).Evaluates w v t →
    v ≠ .error .outsideBuffer ∧
      ((∃ failed, failed ≠ Result.ok ∧ v = .ok failed ∧ t.written = w.written) ∨
        ∃ p, TrueLengths portName (data.take length.toNat) p ∧ t.written = w.written ++ p.frame)

theorem inportRequestData {portName data : Bytes} {length : UInt8} (given : length.toNat ≤ data.length)
    (fits : 2 + portName.length + length.toNat ≤ bufferSize) :
    (inportRequest portName data length).data = inportPayload portName data length := by
  simp only [inportRequest,Packet.initialise]
  rw [smallSize fits,← inportPayloadLength given,List.take_length]

theorem inportTrueLengths {portName data : Bytes} {length : UInt8} (given : length.toNat ≤ data.length)
    (fits : 2 + portName.length + length.toNat ≤ bufferSize) :
    TrueLengths portName (data.take length.toNat) (inportRequest portName data length) where
  command := rfl
  payload := by
    rw [inportRequestData given fits,inportPayload,List.length_take_of_le given,UInt8.ofNat_toNat]
  nameLength := smallSize (by omega)
  dataLength := by rw [List.length_take_of_le given,UInt8.ofNat_toNat]
  size := by
    rw [Packet.dataLength,inportRequestData given fits,inportPayloadLength given,List.length_take_of_le given]

theorem answerWritten {w t : Line} {v : Except Fault Result}
    (h : (answer (Line.host setting) .sendData waitUsec ownResult .err).Evaluates w v t) :
    v ≠ .error .outsideBuffer ∧ t.written = w.written := by
  rcases Program.evaluatesBind.mp h with ⟨e,raised,_⟩ | ⟨result,u,waited,last⟩
  · exact (waitUnfailing _ _ _ _ _ _ raised).elim
  · obtain ⟨_,took⟩ := waitTook waited
    split at last
    · rcases Program.evaluatesBind.mp last with ⟨e,raised,rfl⟩ | ⟨p,_,present,after⟩
      · obtain ⟨_,rfl,rfl⟩ := valueRaises.mp raised
        exact ⟨by simp,took.written⟩
      · obtain ⟨_,rfl⟩ := valueReturns.mp present
        obtain ⟨rfl,rfl⟩ := Program.evaluatesUnique after (Program.returnsPure.mpr ⟨rfl,rfl⟩)
        exact ⟨by simp,took.written⟩
    · obtain ⟨rfl,rfl⟩ := Program.evaluatesUnique last (Program.returnsPure.mpr ⟨rfl,rfl⟩)
      exact ⟨by simp,took.written⟩

theorem inportWritten {retryCount : Int} {portName data : Bytes} {length : UInt8} {w t : Line} {v : Except Fault Result}
    (given : length.toNat ≤ data.length) (fits : 2 + portName.length + length.toNat ≤ bufferSize)
    (h : (sendInportData (Line.host setting) portName data length waitUsec retryCount).Evaluates w v t) :
    t.written = w.written ++ (inportRequest portName data length).frame := by
  have written := (answerWritten ((sendInportFits setting waitUsec retryCount given fits).mp h)).2
  rw [Line.sent,Line.foldWritten] at written
  exact written

theorem inportTransmits (setting : Setting) (waitUsec : UInt32) (retryCount : Int) {portName data : Bytes}
    {length : UInt8} (w : Line) (given : length.toNat ≤ data.length) :
    TransmitsExactly setting waitUsec retryCount portName data length w ↔
      2 + portName.length + length.toNat ≤ bufferSize := by
  constructor
  · intro exact
    by_contra large
    have overflow := (sendInportOverflow setting waitUsec retryCount (w := w) given large).mpr ⟨rfl,rfl⟩
    exact (exact _ _ overflow).1 rfl
  · intro fits v t h
    have inside := (answerWritten ((sendInportFits setting waitUsec retryCount given fits).mp h)).1
    exact ⟨inside,.inr ⟨_,inportTrueLengths given fits,inportWritten given fits h⟩⟩

theorem inportTransmitsLong : TransmitsExactly .silent 1000 1 [ascii 'a'] [1,0,0,0] 4 .idle :=
  (inportTransmits .silent 1000 1 .idle (by decide)).mpr (by decide)

def longName : Bytes := List.replicate 63 (ascii 'a')

theorem inportOverflows :
    (sendInportData (Line.host .silent) longName [1,0,0,0] 4 1000 1).Raises .idle .outsideBuffer .idle ∧
      ¬ TransmitsExactly .silent 1000 1 longName [1,0,0,0] 4 .idle := by
  have raised : (sendInportData (Line.host .silent) longName [1,0,0,0] 4 1000 1).Raises .idle .outsideBuffer .idle :=
    (sendInportOverflow .silent 1000 1 (by decide) (by decide)).mpr ⟨rfl,rfl⟩
  exact ⟨raised,fun exact => (exact _ _ raised).1 rfl⟩

def Sends (p : Packet) (w : Line) (c : Act Line α) : Prop := ∀ v t, c.Evaluates w v t → w.written ++ p.frame <+: t.written

theorem sendsBind {β : Type} {p : Packet} {w : Line} {c : Act Line α} {next : α → Act Line β} (first : Sends p w c)
    (rest : ∀ a, (next a).Keeps Grows) : Sends p w (c >>= next) := by
  intro v t h
  rcases Program.evaluatesBind.mp h with ⟨e,raised,_⟩ | ⟨a,u,ran,later⟩
  · exact first _ t raised
  · exact (first _ u ran).trans (rest a u v t later)

theorem sendsSend (setting : Setting) (p : Packet) (w : Line) : Sends p w (Transport.send (Line.host setting) p) := by
  intro v t h
  obtain ⟨_,rfl⟩ := Program.evaluatesUnique h (Transport.sendSent setting w p)
  rw [Line.sent,Line.foldWritten]

theorem sendsAttempts {p : Packet} {w : Line} {body : Act Line (Option α)} {after : α} {n : Nat} (positive : 0 < n)
    (first : Sends p w body) (pass : body.Keeps Grows) : Sends p w (Program.attempts body after n) := by
  cases n with
  | zero => exact absurd positive (Nat.lt_irrefl 0)
  | succ n =>
    refine sendsBind first fun x => ?_
    cases x with
    | some a => exact Program.keepsPure a
    | none => exact Program.keepsAttempts pass n

theorem sendsAttempt {w : Line} {c : Command} {exit : ResultT Packet → Act Line α}
    (exits : ∀ result, (exit result).Keeps Grows) : Sends (command c) w (attempt (Line.host setting) c waitUsec exit) := by
  refine sendsBind (sendsSend setting _ w) fun _ => Program.keepsBind (waitGrows c) fun result => ?_
  split
  · exact Program.keepsBind (exits result) fun _ => Program.keepsPure _
  · exact Program.keepsPure _

theorem firstByteGrows {ε : Type} [EnumClass ε] (result : ResultT Packet) :
    (firstByte (ε := ε) (Line.host setting) result).Keeps Grows :=
  Program.keepsBind (valueGrows result) fun p => Program.keepsBind (payloadGrows p 0) fun _ => Program.keepsPure _

theorem answerGrows {c : Command} {exit : ResultT Packet → Act Line α} (other : α)
    (exits : ∀ result, (exit result).Keeps Grows) : (answer (Line.host setting) c waitUsec exit other).Keeps Grows := by
  refine Program.keepsBind (waitGrows c) fun result => ?_
  split
  · exact exits result
  · exact Program.keepsPure _

theorem sendsInport {portName data : Bytes} {length : UInt8} {retryCount : Int} {w : Line}
    (given : length.toNat ≤ data.length) (fits : 2 + portName.length + length.toNat ≤ bufferSize) :
    Sends (inportRequest portName data length) w
      (sendInportData (Line.host setting) portName data length waitUsec retryCount) := by
  intro v t h
  have exits (result : ResultT Packet) : (ownResult result : Act Line Result).Keeps Grows :=
    Program.keepsBind (valueGrows result) fun _ => Program.keepsPure _
  have grown := answerGrows .err exits _ v t ((sendInportFits setting waitUsec retryCount given fits).mp h)
  rwa [Grows,Line.sent,Line.foldWritten] at grown

theorem sendsOutport {portName data : Bytes} {maxSize sizeRead : UInt8} {retryCount : Int} {w : Line}
    (fits : 2 + portName.length ≤ bufferSize) :
    Sends (outportRequest (setting.scratch 1) portName) w
      (receiveOutportData (Line.host setting) portName data maxSize sizeRead waitUsec retryCount) := by
  intro v t h
  have grown := answerGrows _ (fun result => copyOutGrows result data maxSize) _ v t
    ((receiveOutportFits setting data maxSize sizeRead waitUsec retryCount fits).mp h)
  rwa [Grows,Line.sent,Line.foldWritten] at grown

end Protocol

namespace Operation
open Protocol

/- The operation whose request has a byte that the call never writes. -/
def leavesUnset : Operation → Bool
  | receiveOutportData _ _ _ _ => true
  | _ => false

theorem requestSmall {operation : Operation} (unset : UInt8) (fits : operation.Fits) :
    (operation.request unset).data.length ≤ 252 := by
  cases operation with
  | sendInportData portName data => exact inportRequestSmall (givenLength data) fits
  | receiveOutportData portName data maxSize sizeRead => exact outportRequestSmall unset fits
  | _ => exact Nat.zero_le _

theorem sendsRequest {setting : Setting} {operation : Operation} {waitUsec : UInt32} {retryCount : Int} {w : Line}
    (fits : operation.Fits) (sends : operation.resends = true → 1 ≤ retryCount) :
    Sends (operation.request (setting.scratch 1)) w ((⟨operation,waitUsec,retryCount⟩ : Call).run (Line.host setting)) := by
  have more (resends : operation.resends = true) : 0 < retryCount.toNat := by
    have := sends resends
    omega
  cases operation with
  | getState =>
    exact sendsBind (sendsAttempts (more rfl) (sendsAttempt firstByteGrows) (attemptGrows firstByteGrows)) fun _ =>
      Program.keepsPure _
  | getEcType =>
    exact sendsBind (sendsAttempts (more rfl) (sendsAttempt firstByteGrows) (attemptGrows firstByteGrows)) fun _ =>
      Program.keepsPure _
  | getProfile =>
    have loop := Program.keepsLoop (getProfilePassGrows setting waitUsec) .empty
    have pass := Program.keepsBind (Transport.sendGrows setting (command .getProfile)) fun _ => loop
    exact sendsBind (sendsAttempts (more rfl) (sendsBind (sendsSend setting _ w) fun _ => loop) pass) fun _ =>
      Program.keepsPure _
  | activate =>
    have exits (result : ResultT Packet) : (pure result.result : Act Line Result).Keeps Grows := Program.keepsPure _
    exact sendsBind (sendsAttempts (more rfl) (sendsAttempt exits) (attemptGrows exits)) fun _ => Program.keepsPure _
  | deactivate =>
    have exits (result : ResultT Packet) : (pure result.result : Act Line Result).Keeps Grows := Program.keepsPure _
    exact sendsBind (sendsAttempts (more rfl) (sendsAttempt exits) (attemptGrows exits)) fun _ => Program.keepsPure _
  | execute =>
    have exits (result : ResultT Packet) : (do
        let _ ← value result
        pure result.result : Act Line Result).Keeps Grows :=
      Program.keepsBind (valueGrows result) fun _ => Program.keepsPure _
    exact sendsBind (sendsAttempts (more rfl) (sendsAttempt exits) (attemptGrows exits)) fun _ => Program.keepsPure _
  | sendInportData portName data =>
    exact sendsBind (sendsInport (givenLength data) fits) fun _ => Program.keepsPure _
  | receiveOutportData portName data maxSize sizeRead =>
    exact sendsBind (sendsOutport fits) fun _ => Program.keepsPure _

def FirstRequest (setting : Setting) (call : Call) (w : Line) (p : Packet) : Prop :=
  p.data.length ≤ 252 ∧ ∃ v t, (call.run (Line.host setting)).Evaluates w v t ∧ w.written ++ p.frame <+: t.written

def SameRequest (operation : Operation) (one other : Nat → UInt8) : Prop :=
  ∀ (setting : Setting) (waitUsec : UInt32) (retryCount : Int) (w : Line) (p q : Packet),
    FirstRequest {setting with scratch := one} ⟨operation,waitUsec,retryCount⟩ w p →
    FirstRequest {setting with scratch := other} ⟨operation,waitUsec,retryCount⟩ w q → p.frame = q.frame

theorem frameFirst {p q : Packet} {before raw : Bytes} (small : p.data.length ≤ 252) (short : q.data.length ≤ 252)
    (left : before ++ p.frame <+: raw) (right : before ++ q.frame <+: raw) : p = q := by
  obtain ⟨more,rfl⟩ := left
  obtain ⟨rest,same⟩ := right
  rw [List.append_assoc,List.append_assoc,List.append_cancel_left_eq,Packet.frameSmall small,Packet.frameSmall short] at same
  simp only [List.append_assoc,List.append_cancel_left_eq] at same
  exact (Packet.serializeInjective same).1.symm

theorem silentCall {setting : Setting} {operation : Operation} {waitUsec : UInt32} {retryCount : Int} {w t : Line}
    {v : Except Fault Reply} (resends : operation.resends = true) (never : retryCount ≤ 0)
    (h : ((⟨operation,waitUsec,retryCount⟩ : Call).run (Line.host setting)).Evaluates w v t) : t = w := by
  have zero : retryCount.toNat = 0 := by omega
  have ended {α β : Type} (body : Act Line (Option α)) (after : α) (f : α → β) :
      (Program.attempts body after retryCount.toNat >>= fun out => pure (f out) : Act Line β).Returns w (f after) w := by
    rw [zero]
    exact Program.returnsBind.mpr ⟨after,w,Program.returnsPure.mpr ⟨rfl,rfl⟩,Program.returnsPure.mpr ⟨rfl,rfl⟩⟩
  cases operation with
  | sendInportData => cases resends
  | receiveOutportData => cases resends
  | _ => exact (Program.evaluatesUnique h (ended _ _ _)).2

theorem firstRequestIs {setting : Setting} {operation : Operation} {waitUsec : UInt32} {retryCount : Int} {w : Line}
    {p : Packet} (fits : operation.Fits) (first : FirstRequest setting ⟨operation,waitUsec,retryCount⟩ w p) :
    p = operation.request (setting.scratch 1) := by
  obtain ⟨small,v,t,h,begins⟩ := first
  by_cases sends : operation.resends = true → 1 ≤ retryCount
  · exact frameFirst small (requestSmall _ fits) begins (sendsRequest fits sends v t h)
  · obtain ⟨resends,never⟩ := Classical.not_imp.mp sends
    obtain rfl := silentCall resends (by omega) h
    have short := begins.length_le
    rw [List.length_append,Packet.frameLength small] at short
    omega

theorem requestUnset {operation : Operation} (unset other : UInt8) (written : operation.leavesUnset = false) :
    operation.request unset = operation.request other := by
  cases operation with
  | receiveOutportData => cases written
  | _ => rfl

theorem outportRequestData (unset : UInt8) {portName : Bytes} (fits : 2 + portName.length ≤ bufferSize) :
    (outportRequest unset portName).data = outportPayload unset portName := by
  simp only [outportRequest,Packet.initialise]
  rw [smallSize fits,← outportPayloadLength unset,List.take_length]

theorem outportFirst (scratch : Nat → UInt8) {portName data : Bytes} {maxSize sizeRead : UInt8}
    (fits : (receiveOutportData portName data maxSize sizeRead).Fits) :
    FirstRequest {Setting.silent with scratch := scratch} ⟨receiveOutportData portName data maxSize sizeRead,1000,1⟩ .idle
      (outportRequest (scratch 1) portName) := by
  have lost : ((⟨receiveOutportData portName data maxSize sizeRead,1000,1⟩ : Call).run
      (Line.host {Setting.silent with scratch := scratch})).Returns .idle (.received (.err,data,sizeRead))
        (Line.idle.lost (outportRequest (scratch 1) portName)) :=
    receiveOutportLost fits (by decide) rfl rfl rfl
  exact ⟨outportRequestSmall _ fits,_,_,lost,List.prefix_rfl⟩

theorem sameRequest {operation : Operation} {one other : Nat → UInt8} (fits : operation.Fits) :
    SameRequest operation one other ↔ (operation.leavesUnset = true → one 1 = other 1) := by
  constructor
  · intro same unset
    cases operation with
    | receiveOutportData portName data maxSize sizeRead =>
      have frames := same .silent 1000 1 .idle _ _ (outportFirst one fits) (outportFirst other fits)
      have begins : [] ++ (outportRequest (one 1) portName).frame <+: (outportRequest (one 1) portName).frame :=
        List.prefix_rfl
      have again : [] ++ (outportRequest (other 1) portName).frame <+: (outportRequest (one 1) portName).frame := by
        rw [← frames]
        exact begins
      have packets := frameFirst (outportRequestSmall _ fits) (outportRequestSmall _ fits) begins again
      have payloads := congrArg Packet.data packets
      rw [outportRequestData _ fits,outportRequestData _ fits] at payloads
      exact (List.cons.inj (List.cons.inj payloads).2).1
    | _ => cases unset
  · intro same setting waitUsec retryCount w p q left right
    have packets : operation.request (one 1) = operation.request (other 1) := by
      by_cases unset : operation.leavesUnset = true
      · rw [same unset]
      · exact requestUnset _ _ (Bool.not_eq_true _ ▸ unset)
    rw [firstRequestIs fits left,firstRequestIs fits right]
    exact congrArg Packet.frame packets

theorem sameRequestInject : SameRequest (.sendInportData [ascii 'a'] [1,0,0,0]) (fun _ => 0) (fun _ => 7) := by
  have fits : (sendInportData [ascii 'a'] [1,0,0,0]).Fits := show 2 + 1 + 4 ≤ bufferSize by decide
  exact (sameRequest fits).mpr fun unset => by cases unset

theorem stackByteSent :
    FirstRequest {Setting.silent with scratch := fun _ => 0} ⟨receiveOutportData [ascii 'o'] [0] 1 0,1000,1⟩ .idle
        (outportRequest 0 [ascii 'o']) ∧
      FirstRequest {Setting.silent with scratch := fun _ => 7} ⟨receiveOutportData [ascii 'o'] [0] 1 0,1000,1⟩ .idle
        (outportRequest 7 [ascii 'o']) ∧
      (outportRequest 0 [ascii 'o']).data = [1,0,ascii 'o'] ∧ (outportRequest 7 [ascii 'o']).data = [1,7,ascii 'o'] ∧
      ¬ SameRequest (.receiveOutportData [ascii 'o'] [0] 1 0) (fun _ => 0) (fun _ => 7) := by
  have fits : (receiveOutportData [ascii 'o'] [0] 1 0).Fits := show 2 + 1 ≤ bufferSize by decide
  have zero := outportFirst (fun _ => 0) fits
  have seven := outportFirst (fun _ => 7) fits
  refine ⟨zero,seven,by decide,by decide,fun same => ?_⟩
  have frames := same .silent 1000 1 .idle _ _ zero seven
  exact absurd frames (by decide)

end Operation
end RTno2Proxy
