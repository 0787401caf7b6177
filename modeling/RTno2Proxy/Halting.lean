import RTno2Proxy.Supply
import RTno2Proxy.Console
import RTno2Proxy.Sessions

/-! What the deadlines are for: with every wait a finite one, no operation, no session and no command
goes on for ever, whatever the device delivers and whatever it loses. The passes of their loops are
bounded by the bytes that are left, since each of them has read one. -/
namespace RTno2Proxy
open Imperative
open Program (drainsPure drainsLift drainsThrow drainsBind drainsThen drainsIte drainsLoop drainsWeaken drainsSettles
  drainsAttempts)
variable {σ α : Type}

/- `stock` counts the bytes that are still to be read. A read comes back by the end of its wait, and
unless it comes back with a timeout there is less in stock than before. -/
structure Host.Supplied (h : Host σ) (good : σ → Prop) (stock : σ → Nat) : Prop where
  read : ∀ buffer size {waitUsec}, waitUsec ≠ Transport.uint32Max →
    (Transport.read h buffer size waitUsec).Drains good stock fun out => out.1 = .ok ∧ size ≠ 0
  send : ∀ packet, (Transport.send h packet).Settles good
  getSenderInfo : h.device.getSenderInfo.Drains good stock fun _ => False
  scratch : ∀ n, (h.scratch n).Drains good stock fun _ => False
  outside : ∀ offset, (h.outside offset).Drains good stock fun _ => False

def Overdue (late : Nat → Bool) : Prop := ∀ n, ∃ m, n ≤ m ∧ ∀ k, m ≤ k → k < m + 3 → late k = true

theorem overdueOf {late : Nat → Bool} (start : Nat) (later : ∀ k, start ≤ k → late k = true) : Overdue late :=
  fun n => ⟨max n start,Nat.le_max_left _ _,fun k after _ => later k (Nat.le_trans (Nat.le_max_right _ _) after)⟩

section Supplied
variable {h : Host σ} {good : σ → Prop} {stock : σ → Nat} {waitUsec : UInt32}

namespace Transport

structure Polled (late : Nat → Bool) (moment : σ → Nat) (s t : σ) : Prop where
  on : moment s < moment t
  soon : moment t ≤ moment s + 3
  early : late (moment t - 1) = false

theorem awaitTotal {late : Nat → Bool} {moment : σ → Nat} {size : UInt8} {Inv : σ → Prop} {enough : σ → Prop}
    (overdue : Overdue late) (pass : ∀ s, Inv s → (pollPass h size waitUsec).Total s
      (fun x t => Inv t ∧ x.elim (fun _ => Polled late moment s t) fun ready => ready = true → enough t) fun _ _ => True)
    {s : σ} (start : Inv s) :
    (await h size waitUsec).Total s (fun ready t => Inv t ∧ (ready = true → enough t)) fun _ _ => True := by
  obtain ⟨m,ahead,window⟩ := overdue (moment s)
  refine Program.totalLoop (fun _ t => Inv t ∧ moment t ≤ m) (fun _ t => m - moment t) (fun _ t ⟨inv,before⟩ => ?_) ⟨start,ahead⟩
  refine Program.totalWeaken (pass t inv) (fun x u ⟨inv,post⟩ => ?_) fun _ _ _ => trivial
  cases x with
  | inr ready => exact ⟨inv,post⟩
  | inl _ =>
    obtain ⟨on,soon,early⟩ := post
    have still : moment u ≤ m := by
      refine Nat.le_of_not_lt fun past => ?_
      rw [window (moment u - 1) (by omega) (by omega)] at early
      cases early
    exact ⟨⟨inv,still⟩,by omega⟩

theorem readDrains {late : Nat → Bool} {size : UInt8} (moment : σ → Nat) (enough : σ → Prop) (overdue : Overdue late)
    (finite : waitUsec ≠ uint32Max)
    (asks : size ≠ 0 → ∀ s, good s → h.device.getSizeInRxBuffer.Total s (fun available t => (good t ∧ stock t ≤ stock s) ∧
      (moment s < moment t ∧ moment t ≤ moment s + 2) ∧ ((size.toNat : Int) ≤ available → enough t)) fun _ _ => True)
    (expires : ∀ s, good s → (h.expired waitUsec).Total s (fun passed t => (good t ∧ stock t ≤ stock s) ∧
      moment t = moment s + 1 ∧ passed = late (moment s)) fun _ _ => True)
    (takes : size ≠ 0 → ∀ s, good s → enough s → (h.device.read size).Total s (fun _ t => good t ∧ stock t < stock s)
      fun _ _ => True)
    (buffer : Bytes) : (read h buffer size waitUsec).Drains good stock fun out => out.1 = .ok ∧ size ≠ 0 := by
  intro s start
  unfold read
  split
  · rename_i zero
    exact Program.totalPure ⟨start,Nat.le_refl _,fun took => absurd zero took.2⟩
  · rename_i positive
    have pass (t : σ) (before : good t ∧ stock t ≤ stock s) : (pollPass h size waitUsec).Total t (fun x u =>
        (good u ∧ stock u ≤ stock s) ∧ x.elim (fun _ => Polled late moment t u) fun ready => ready = true → enough u)
        fun _ _ => True := by
      refine Program.totalBind (Program.totalWeaken (asks positive t before.1)
        (fun available u ⟨⟨still,kept⟩,⟨on,soon⟩,there⟩ => ?_) fun _ _ _ => trivial)
      have most := Nat.le_trans kept before.2
      split
      · rename_i reached
        exact Program.totalPure ⟨⟨still,most⟩,fun _ => there reached⟩
      · refine Program.totalBind (Program.totalWeaken (expires u still) (fun passed v ⟨⟨still,kept⟩,next,same⟩ => ?_)
          fun _ _ _ => trivial)
        have most := Nat.le_trans kept most
        split
        · exact Program.totalPure ⟨⟨still,most⟩,fun never => nomatch never⟩
        · rename_i going
          have early : late (moment v - 1) = false := by
            rw [next,Nat.add_sub_cancel,← same]
            exact Bool.eq_false_iff.mpr fun passed => going ⟨passed,finite⟩
          exact Program.totalPure ⟨⟨still,most⟩,⟨by omega,by omega,early⟩⟩
    refine Program.totalBind (Program.totalWeaken (awaitTotal overdue pass ⟨start,Nat.le_refl _⟩)
      (fun ready t ⟨⟨still,most⟩,there⟩ => ?_) fun _ _ _ => trivial)
    cases ready with
    | false => exact Program.totalPure ⟨still,most,fun took => nomatch took.1⟩
    | true =>
      rw [if_pos rfl]
      refine Program.totalBind (Program.totalWeaken (takes positive t still (there rfl)) (fun out u ⟨after,less⟩ => ?_)
        fun _ _ _ => trivial)
      have fewer := Nat.lt_of_lt_of_le less most
      exact Program.totalPure ⟨after,Nat.le_of_lt fewer,fun _ => fewer⟩

theorem sendSettles (byte : ∀ b, (h.device.write [b]).Settles good) (packet : Packet) : (send h packet).Settles good := by
  have each (raw : Bytes) : (writeEach h raw).Settles good := by
    induction raw with
    | nil => exact drainsPure id
    | cons b rest ih => exact drainsThen (byte b) fun _ => ih
  have whole (buffer : Bytes) (size : UInt8) : (write h buffer size).Settles good :=
    drainsThen (each _) fun _ => drainsPure id
  have done (result : Result) : (pure result : Act σ Result).Settles good := drainsPure id
  unfold send
  exact drainsThen (whole _ _) fun _ => drainsIte (fun _ => done _) fun _ => drainsThen (whole _ _) fun _ =>
    drainsIte (fun _ => done _) fun _ => drainsThen (whole _ _) fun _ => drainsIte (fun _ => done _) fun _ => done _

theorem readByteDrains (supplied : h.Supplied good stock) (finite : waitUsec ≠ uint32Max) (buf : UInt8) :
    (readByte h buf waitUsec).Drains good stock fun out => out.1 = .ok :=
  drainsBind (supplied.read _ _ finite) fun _ => drainsPure fun ⟨ok,fresh⟩ => fresh ⟨ok,by decide⟩

theorem isNewDrains (supplied : h.Supplied good stock) (finite : waitUsec ≠ uint32Max) :
    (isNew h waitUsec).Drains good stock (· = .ok) := by
  refine drainsBind (supplied.scratch 1) fun raw => drainsWeaken (drainsLoop (fun buf => ?_) _) fun _ ok => ok.1
  unfold isNewPass
  refine drainsBind (readByteDrains supplied finite buf) fun first => drainsIte (fun failed => ?_) fun read => ?_
  · exact drainsPure fun ok => failed ok.1
  have taken := not_not.mp read
  refine drainsIte (fun _ => drainsPure fun fresh => fresh.2 taken) fun _ => ?_
  have second : ∀ out : Result × UInt8, (if out.1 ≠ .ok then pure (.inr out.1) else
      if out.2 = startByte then pure (.inr .ok) else pure (.inl out.2) : Act σ (UInt8 ⊕ Result)).Drains good stock fun _ => False :=
    fun _ => drainsIte (fun _ => drainsPure id) fun _ => drainsIte (fun _ => drainsPure id) fun _ => drainsPure id
  exact drainsWeaken (drainsThen (readByteDrains supplied finite _) second) fun _ fresh => fresh.2 taken

theorem receiveDrains (supplied : h.Supplied good stock) (finite : waitUsec ≠ uint32Max) :
    (receive h waitUsec).Drains good stock fun _ => False := by
  have checksum (packet : Packet) : (receiveChecksum h waitUsec packet).Drains good stock fun _ => False := by
    unfold receiveChecksum
    exact drainsThen (supplied.scratch 1) fun _ => drainsThen (readByteDrains supplied finite _) fun _ =>
      drainsIte (fun _ => drainsPure id) fun _ => drainsIte (fun _ => drainsPure id) fun _ => drainsPure id
  have body (command result size : UInt8) : (receiveBody h waitUsec command result size).Drains good stock fun _ => False := by
    unfold receiveBody
    exact drainsThen (supplied.scratch 256) fun _ => drainsThen (supplied.read _ _ finite) fun _ =>
      drainsIte (fun _ => drainsPure id) fun _ => checksum _
  unfold receive
  exact drainsThen (supplied.scratch _) fun _ => drainsThen (supplied.read _ _ finite) fun _ =>
    drainsIte (fun _ => drainsPure id) fun _ => drainsThen supplied.getSenderInfo fun _ => body _ _ _

end Transport

namespace Protocol

theorem valueDrains (result : ResultT α) : (value result : Act σ α).Drains good stock fun _ => False := by
  unfold value
  cases result.value with
  | some a => exact drainsPure id
  | none => exact drainsThrow _

theorem payloadDrains (supplied : h.Supplied good stock) (packet : Packet) (offset : Int) :
    (payload h packet offset).Drains good stock fun _ => False := by
  unfold payload
  split
  · exact drainsPure id
  · exact supplied.outside offset

theorem payloadRangeDrains (supplied : h.Supplied good stock) (packet : Packet) (offset : Int) (n : Nat) :
    (payloadRange h packet offset n).Drains good stock fun _ => False := by
  induction n generalizing offset with
  | zero => exact drainsPure id
  | succ n ih =>
    exact drainsThen (payloadDrains supplied packet offset) fun _ => drainsThen (ih (offset + 1)) fun _ => drainsPure id

theorem waitDrains (supplied : h.Supplied good stock) (finite : waitUsec ≠ Transport.uint32Max) (command : Command) :
    (waitAndReceiveCommand h command waitUsec).Drains good stock fun _ => False := by
  unfold waitAndReceiveCommand
  exact drainsThen (Transport.isNewDrains supplied finite) fun _ => drainsIte
    (fun _ => drainsThen (Transport.receiveDrains supplied finite) fun _ => drainsIte (fun _ => drainsPure id) fun _ =>
      drainsThen (valueDrains _) fun _ => drainsIte (fun _ => drainsPure id) fun _ =>
        drainsIte (fun _ => drainsPure id) fun _ => drainsPure id) fun _ => drainsPure id

theorem attemptSettles (supplied : h.Supplied good stock) (finite : waitUsec ≠ Transport.uint32Max) (command : Command)
    {exit : ResultT Packet → Act σ α} (exits : ∀ result, (exit result).Settles good) :
    (attempt h command waitUsec exit).Settles good :=
  drainsThen (supplied.send _) fun _ => drainsThen (drainsSettles (waitDrains supplied finite command)) fun _ =>
    drainsIte (fun _ => drainsThen (exits _) fun _ => drainsPure id) fun _ => drainsPure id

theorem firstByteSettles {ε : Type} [EnumClass ε] (supplied : h.Supplied good stock) (result : ResultT Packet) :
    (firstByte h result : Act σ (ResultT ε)).Settles good :=
  drainsThen (valueDrains _) fun _ => drainsThen (drainsSettles (payloadDrains supplied _ _)) fun _ => drainsPure id

theorem getProfileSettles (supplied : h.Supplied good stock) (finite : waitUsec ≠ Transport.uint32Max) (retryCount : Int) :
    (getProfile h waitUsec retryCount).Settles good := by
  have pass (profile : Profile) : (getProfilePass h waitUsec profile).Drains good stock (Sum.elim (fun _ => True) fun _ => False) := by
    unfold getProfilePass
    refine drainsBind (Transport.isNewDrains supplied finite) fun found => drainsIte (fun _ => drainsPure fun never => never.1)
      fun ok => ?_
    have taken := not_not.mp ok
    refine drainsWeaken (drainsThen (Transport.receiveDrains supplied finite) fun _ => ?_) fun _ fresh => fresh.2 taken
    exact drainsIte (fun _ => drainsIte (fun _ => drainsPure id) fun _ => drainsPure id) fun _ =>
      drainsThen (valueDrains _) fun _ => drainsLift _ fun _ _ => id
  exact drainsAttempts (drainsThen (supplied.send _) fun _ => drainsSettles (drainsLoop pass _)) _

theorem sendInportSettles (supplied : h.Supplied good stock) (finite : waitUsec ≠ Transport.uint32Max)
    (portName data : Bytes) (length : UInt8) (retryCount : Int) :
    (sendInportData h portName data length waitUsec retryCount).Settles good := by
  unfold sendInportData
  exact drainsThen (drainsSettles (supplied.scratch _)) fun _ => drainsThen (drainsLift _ fun _ _ => id) fun _ =>
    drainsThen (supplied.send _) fun _ => drainsThen (drainsSettles (waitDrains supplied finite _)) fun _ =>
      drainsIte (fun _ => drainsThen (valueDrains _) fun _ => drainsPure id) fun _ => drainsPure id

theorem copyOutSettles (supplied : h.Supplied good stock) (result : ResultT Packet) (data : Bytes) (maxSize : UInt8) :
    (copyOut h result data maxSize).Settles good := by
  have byte (packet : Packet) (offset : Int) := drainsSettles (payloadDrains supplied packet offset)
  unfold copyOut
  exact drainsThen (valueDrains _) fun _ => drainsThen (byte _ _) fun _ => drainsThen (byte _ _) fun _ =>
    drainsIte (fun _ => drainsPure id) fun _ =>
      drainsThen (drainsSettles (payloadRangeDrains supplied _ _ _)) fun _ => drainsPure id

theorem receiveOutportSettles (supplied : h.Supplied good stock) (finite : waitUsec ≠ Transport.uint32Max)
    (portName data : Bytes) (maxSize sizeRead : UInt8) (retryCount : Int) :
    (receiveOutportData h portName data maxSize sizeRead waitUsec retryCount).Settles good := by
  unfold receiveOutportData
  exact drainsThen (drainsSettles (supplied.scratch _)) fun _ => drainsThen (drainsLift _ fun _ _ => id) fun _ =>
    drainsThen (supplied.send _) fun _ => drainsThen (drainsSettles (waitDrains supplied finite _)) fun _ =>
      drainsIte (fun _ => copyOutSettles supplied _ _ _) fun _ => drainsPure id

end Protocol

theorem Call.runSettles (supplied : h.Supplied good stock) (c : Call) (finite : c.waitUsec ≠ Transport.uint32Max) :
    (c.run h).Settles good := by
  obtain ⟨operation,waitUsec,retryCount⟩ := c
  have answered {α : Type} (command : Command) (after : α) {exit : ResultT Packet → Act σ α}
      (exits : ∀ result, (exit result).Settles good) :
      (Program.attempts (Protocol.attempt h command waitUsec exit) after retryCount.toNat).Settles good :=
    drainsAttempts (Protocol.attemptSettles supplied finite command exits) _
  cases operation with
  | getState => exact drainsThen (answered _ _ (Protocol.firstByteSettles supplied)) fun _ => drainsPure id
  | getEcType => exact drainsThen (answered _ _ (Protocol.firstByteSettles supplied)) fun _ => drainsPure id
  | getProfile => exact drainsThen (Protocol.getProfileSettles supplied finite _) fun _ => drainsPure id
  | activate => exact drainsThen (answered _ _ fun _ => drainsPure id) fun _ => drainsPure id
  | deactivate => exact drainsThen (answered _ _ fun _ => drainsPure id) fun _ => drainsPure id
  | execute =>
    exact drainsThen (answered _ _ fun _ => drainsThen (Protocol.valueDrains _) fun _ => drainsPure id) fun _ => drainsPure id
  | sendInportData portName data =>
    exact drainsThen (Protocol.sendInportSettles supplied finite _ _ _ _) fun _ => drainsPure id
  | receiveOutportData portName data maxSize sizeRead =>
    exact drainsThen (Protocol.receiveOutportSettles supplied finite _ _ _ _ _) fun _ => drainsPure id

namespace Commands
open Interactive (word)
variable {floats : Floats}

end Commands

end Supplied

structure Host.Mute (h : Host σ) (still : σ → Prop) : Prop where
  size : h.device.getSizeInRxBuffer.Continues still (· ≤ 0)
  expired : ∀ waitUsec, (h.expired waitUsec).Continues still fun _ => True
  write : ∀ b, (h.device.write [b]).Continues still fun _ => True
  scratch : ∀ n, (h.scratch n).Continues still fun raw => raw.length = n

section Mute
open Program (continuesPure continuesBind stallsFirst stallsAfter stallsLoop stallsPass stallsAttempts)
variable {h : Host σ} {still : σ → Prop}

namespace Transport

theorem sendContinues (mute : h.Mute still) (packet : Packet) : (send h packet).Continues still fun _ => True := by
  have each (raw : Bytes) : (writeEach h raw).Continues still fun _ => True := by
    induction raw with
    | nil => exact continuesPure trivial
    | cons b rest ih => exact continuesBind (mute.write b) fun _ _ => ih
  have whole (buffer : Bytes) (size : UInt8) : (write h buffer size).Continues still (· = .ok) :=
    continuesBind (each _) fun _ _ => continuesPure rfl
  unfold send
  refine continuesBind (whole _ _) fun _ ok => ?_
  rw [if_neg (not_not.mpr ok)]
  refine continuesBind (whole _ _) fun _ ok => ?_
  rw [if_neg (not_not.mpr ok)]
  refine continuesBind (whole _ _) fun _ ok => ?_
  rw [if_neg (not_not.mpr ok)]
  exact continuesPure trivial

theorem readByteStalls (mute : h.Mute still) (buf : UInt8) : (readByte h buf uint32Max).Stalls still := by
  have pass (a : Unit) : (pollPass h 1 uint32Max).Continues still fun x => x.isLeft = true := by
    unfold pollPass
    refine continuesBind mute.size fun available nothing => ?_
    rw [if_neg (show ¬ (((1 : UInt8).toNat : Int) ≤ available) from Int.not_le.mpr (Int.lt_of_le_of_lt nothing Int.one_pos))]
    refine continuesBind (mute.expired _) fun expired _ => ?_
    rw [if_neg fun late => late.2 rfl]
    exact continuesPure rfl
  have forever : (await h 1 uint32Max).Stalls still := stallsLoop pass ()
  have unread : (read h [buf] 1 uint32Max).Stalls still := by
    unfold read
    rw [if_neg (by decide)]
    exact stallsFirst forever
  exact stallsFirst unread

theorem isNewStalls (mute : h.Mute still) : (isNew h uint32Max).Stalls still :=
  stallsAfter (mute.scratch 1) fun _ _ => stallsPass (stallsFirst (readByteStalls mute _))

end Transport

namespace Protocol

theorem waitStalls (mute : h.Mute still) (command : Command) :
    (waitAndReceiveCommand h command Transport.uint32Max).Stalls still := stallsFirst (Transport.isNewStalls mute)

theorem attemptStalls (mute : h.Mute still) (command : Command) (exit : ResultT Packet → Act σ α) :
    (attempt h command Transport.uint32Max exit).Stalls still :=
  stallsAfter (Transport.sendContinues mute _) fun _ _ => stallsFirst (waitStalls mute command)

end Protocol

def Call.Asks (c : Call) : Prop := c.operation.Fits ∧ (c.operation.resends = true → 0 < c.retryCount)

theorem Call.runStalls (mute : h.Mute still) {c : Call} (asks : c.Asks) (endless : c.waitUsec = Transport.uint32Max) :
    (c.run h).Stalls still := by
  obtain ⟨operation,waitUsec,retryCount⟩ := c
  obtain ⟨fits,retries⟩ := asks
  cases endless
  have answered {α : Type} (resends : operation.resends = true) (command : Command) (after : α) (exit : ResultT Packet → Act σ α) :
      (Program.attempts (Protocol.attempt h command Transport.uint32Max exit) after retryCount.toNat).Stalls still :=
    stallsAttempts (Int.pos_iff_toNat_pos.mp (retries resends)) (Protocol.attemptStalls mute command exit)
  have sent {α : Type} (out : Bytes) {next : Bytes → Act σ α} (rest : ∀ buffer, (next buffer).Stalls still) :
      (Program.lift (.ok out) >>= next).Stalls still := by
    have given : (Program.lift (.ok out) : Act σ Bytes).Continues still fun _ => True := continuesPure trivial
    exact stallsAfter given fun buffer _ => rest buffer
  cases operation with
  | getState | getEcType | activate | deactivate | execute => exact stallsFirst (answered rfl _ _ _)
  | getProfile =>
    have pass : (Program.loop (Protocol.getProfilePass h Transport.uint32Max) .empty).Stalls still :=
      stallsPass (stallsFirst (Transport.isNewStalls mute))
    exact stallsFirst (stallsAttempts (Int.pos_iff_toNat_pos.mp (retries rfl))
      (stallsAfter (Transport.sendContinues mute _) fun _ _ => pass))
  | sendInportData portName data =>
    refine stallsFirst (stallsAfter (mute.scratch _) fun raw size => ?_)
    have given := givenLength data
    obtain ⟨out,filled⟩ : ∃ out, Protocol.inportBuffer raw portName data (UInt8.ofNat data.length) = .ok out :=
      ⟨_,Protocol.inportBufferOk.mpr ⟨by rw [Protocol.inportPayloadLength given,size]; exact fits,rfl⟩⟩
    rw [filled]
    exact sent out fun _ => stallsAfter (Transport.sendContinues mute _) fun _ _ => stallsFirst (Protocol.waitStalls mute _)
  | receiveOutportData portName data maxSize sizeRead =>
    refine stallsFirst (stallsAfter (mute.scratch _) fun raw size => ?_)
    obtain ⟨first,unset,junk,rfl⟩ : ∃ first unset junk, raw = first :: unset :: junk := by
      match raw, size with
      | first :: unset :: junk, _ => exact ⟨first,unset,junk,rfl⟩
    obtain ⟨out,filled⟩ : ∃ out, Protocol.outportBuffer (first :: unset :: junk) portName = .ok out :=
      ⟨_,Protocol.outportBufferOk.mpr ⟨by rw [Protocol.outportPayloadLength,size]; exact fits,rfl⟩⟩
    rw [filled]
    exact sent out fun _ => stallsAfter (Transport.sendContinues mute _) fun _ _ => stallsFirst (Protocol.waitStalls mute _)

end Mute
end RTno2Proxy
