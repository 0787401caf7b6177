import RTno2Proxy.Sessions

/-! src/hal/SerialPort.cpp and include/hal/Serial.h under the transport: the system calls of the port,
a driver that hands the bytes of the board on as they are, and a board at the other end of the cable.
Each system call is one step, and the driver and the board may act before it. The terminal is taken to be in raw mode:
the constructor leaves its input, output and local flags as it finds them. -/
namespace RTno2Proxy
namespace SerialPort
open Imperative
open Program (Signals)

inductive Move where
  | board
  | received
  | dropped
  | hangsUp
  deriving DecidableEq

/- How the system call made at this moment goes: `fails` is a negative result of it, `taken` whether
`write` writes its byte. `unset` is what an uninitialised `int` holds. -/
structure Moment where
  moves : List Move
  late : Bool
  fails : Bool
  taken : Bool
  unset : Int
  deriving DecidableEq

/- `failed` says that a call has had a negative result that is looked at, `garbled` that `ioctl` has
failed, whose result is not; a byte is `dropped` by the driver or left `unsent` by a `write` of nothing. -/
structure Port where
  queue : Bytes
  wire : Wire
  written : Bytes
  moment : Nat
  failed : Bool
  garbled : Bool
  dropped : Bool
  unsent : Bool
  hungUp : Bool
  deriving DecidableEq

def Lossy (s : Port) : Prop :=
  s.failed = true ∨ s.garbled = true ∨ s.dropped = true ∨ s.unsent = true ∨ s.hungUp = true
instance (s : Port) : Decidable (Lossy s) := by unfold Lossy; infer_instance

def Failed (s : Port) : Prop := s.failed = true

def opened : Port := ⟨[],⟨[],⟨[],[],[]⟩⟩,[],0,false,false,false,false,false⟩

section Device
variable (setting : Setting) (world : Nat → Moment)

def move (s : Port) : Move → Port
  | .board => {s with wire := s.wire.forward setting}
  | .received => match s.wire.fetch with
    | none => s
    | some (dat,wire) => {s with queue := s.queue ++ [dat], wire := wire}
  | .dropped => match s.wire.fetch with
    | none => s
    | some (_,wire) => {s with wire := wire, dropped := true}
  | .hangsUp => {s with hungUp := true}

def elapse (s : Port) : Port :=
  {(world s.moment).moves.foldl (move setting) s with moment := s.moment + 1}

/- With a timeout of zero. A terminal that has hung up is ready. -/
def select : Act Port Int := .step fun s =>
  let t := elapse setting world s
  if (world s.moment).fails then (.ok (-1),{t with failed := true})
  else (.ok (if t.queue = [] ∧ t.hungUp = false then 0 else 1),t)

def ioctl : Act Port Int := .step fun s =>
  let t := elapse setting world s
  if (world s.moment).fails ∨ t.hungUp then (.ok (world s.moment).unset,{t with garbled := true})
  else (.ok t.queue.length,t)

def getSizeInRxBuffer : Act Port Int := do
  let res ← select setting world
  if res = 0 then pure 0
  else if res = -1 then .throw .deviceError
  else ioctl setting world

def writeByte (b : UInt8) : Act Port Int := .step fun s =>
  let t := elapse setting world s
  if (world s.moment).fails ∨ t.hungUp then (.ok (-1),{t with failed := true})
  else if (world s.moment).taken then (.ok 1,{t with wire := t.wire.send [b], written := t.written ++ [b]})
  else (.ok 0,{t with unsent := true})

def writeEach (ret : Int) : Bytes → Act Port Int
  | [] => pure ret
  | b :: rest => do
      let ret ← writeByte setting world b
      if ret < 0 then .throw .deviceError else writeEach ret rest

def write (src : Bytes) : Act Port Int := do
  let ret ← .step fun s => (.ok (world s.moment).unset,s)
  writeEach setting world ret src

def readBytes (size : UInt8) : Act Port (Bytes × Int) := .step fun s =>
  let t := elapse setting world s
  if (world s.moment).fails then (.ok ([],-1),{t with failed := true})
  else if t.hungUp then (.ok ([],0),t)
  else (.ok (t.queue.take size.toNat,(t.queue.take size.toNat).length),{t with queue := t.queue.drop size.toNat})

def read (size : UInt8) : Act Port (Bytes × Int) := do
  let out ← readBytes setting world size
  if out.2 < 0 then .throw .deviceError else pure out

def host : Host Port where
  device := {
    getSizeInRxBuffer := getSizeInRxBuffer setting world
    write := write setting world
    read := read setting world
    getSenderInfo := pure (['U','A','R','T'].map ascii) }
  expired _ := .step fun s => (.ok (world s.moment).late,elapse setting world s)
  scratch n := pure ((List.range n).map setting.scratch)
  outside offset := match setting.outside offset with
    | some b => pure b
    | none => .throw (.outsidePayload offset)

end Device

def view (setting : Setting) (s : Port) : View := ⟨s.queue,s.wire.settled setting,s.written⟩

def link (setting : Setting) : Link Port where
  view := view setting
  sound _ := True
  spoiled := Lossy

section Steps
variable {setting : Setting} {world : Nat → Moment}

theorem moveFailed (s : Port) (m : Move) : (move setting s m).failed = s.failed := by
  unfold move
  cases m with
  | board | hangsUp => rfl
  | received => cases s.wire.fetch <;> rfl
  | dropped => cases s.wire.fetch <;> rfl

theorem elapseFailed (s : Port) : (elapse setting world s).failed = s.failed := by
  have moves (moves : List Move) (s : Port) : (moves.foldl (move setting) s).failed = s.failed := by
    induction moves generalizing s with
    | nil => rfl
    | cons m moves ih => exact (ih _).trans (moveFailed s m)
  exact moves _ s

theorem moveLossy {s : Port} (m : Move) (lossy : Lossy s) : Lossy (move setting s m) := by
  unfold move
  cases m with
  | board => exact lossy
  | received =>
    cases s.wire.fetch with
    | none => exact lossy
    | some read => exact lossy
  | dropped =>
    cases s.wire.fetch with
    | none => exact lossy
    | some read => exact .inr (.inr (.inl rfl))
  | hangsUp => exact .inr (.inr (.inr (.inr rfl)))

theorem movesLossy {s : Port} (moves : List Move) (lossy : Lossy s) : Lossy (moves.foldl (move setting) s) := by
  induction moves generalizing s with
  | nil => exact lossy
  | cons m moves ih => exact ih (moveLossy m lossy)

theorem elapseLossy {s : Port} (lossy : Lossy s) : Lossy (elapse setting world s) := movesLossy (world s.moment).moves lossy

theorem moveWaits {s : Port} (m : Move) (clean : ¬ Lossy (move setting s m)) :
    (view setting s).Waits (view setting (move setting s m)) := by
  unfold move at clean ⊢
  cases m with
  | board =>
    unfold view
    rw [Wire.forwardSettled]
    exact View.waitsNothing _
  | received =>
    cases read : s.wire.fetch with
    | none => exact View.waitsNothing _
    | some fetched => exact View.waitsFetched (Wire.fetchSettled setting read) s.queue s.written
  | dropped =>
    cases read : s.wire.fetch with
    | none => exact View.waitsNothing _
    | some fetched =>
      simp only [read] at clean
      exact absurd (.inr (.inr (.inl rfl))) clean
  | hangsUp => exact absurd (.inr (.inr (.inr (.inr rfl)))) clean

theorem elapseWaits {s : Port} (clean : ¬ Lossy (elapse setting world s)) :
    (view setting s).Waits (view setting (elapse setting world s)) := by
  have moves (moves : List Move) (s : Port) (clean : ¬ Lossy (moves.foldl (move setting) s)) :
      (view setting s).Waits (view setting (moves.foldl (move setting) s)) := by
    induction moves generalizing s with
    | nil => exact View.waitsNothing _
    | cons m moves ih => exact (moveWaits m fun lossy => clean (movesLossy moves lossy)).later (ih _ clean)
  exact moves _ s clean

theorem selectSource {s t : Port} {v : Except Fault Int} (ran : (select setting world).Evaluates s v t) :
    v = .ok (-1) ∧ t.failed = true ∨
      v = .ok (if t.queue = [] ∧ t.hungUp = false then 0 else 1) ∧ t = elapse setting world s := by
  have ended := Program.evaluatesStep.mp ran
  dsimp only at ended
  split at ended
  · cases ended
    exact .inl ⟨rfl,rfl⟩
  · cases ended
    exact .inr ⟨rfl,rfl⟩

theorem ioctlSource {s t : Port} {v : Except Fault Int} (ran : (ioctl setting world).Evaluates s v t) :
    (∃ nread, v = .ok nread) ∧ t.failed = s.failed ∧ t.garbled = true ∨
      v = .ok (t.queue.length : Int) ∧ t = elapse setting world s := by
  have ended := Program.evaluatesStep.mp ran
  dsimp only at ended
  split at ended
  · cases ended
    exact .inl ⟨⟨_,rfl⟩,elapseFailed s,rfl⟩
  · cases ended
    exact .inr ⟨rfl,rfl⟩

theorem writeByteSource {s t : Port} {b : UInt8} {v : Except Fault Int} (ran : (writeByte setting world b).Evaluates s v t) :
    v = .ok (-1) ∧ t.failed = true ∨ v = .ok 0 ∧ t.failed = s.failed ∧ t.unsent = true ∨
      v = .ok 1 ∧ t.failed = s.failed ∧
        t = {elapse setting world s with wire := (elapse setting world s).wire.send [b],
                                         written := (elapse setting world s).written ++ [b]} := by
  have ended := Program.evaluatesStep.mp ran
  dsimp only at ended
  split at ended
  · cases ended
    exact .inl ⟨rfl,rfl⟩
  · split at ended
    · cases ended
      exact .inr (.inr ⟨rfl,elapseFailed s,rfl⟩)
    · cases ended
      exact .inr (.inl ⟨rfl,elapseFailed s,rfl⟩)

theorem readBytesSource {s t : Port} {size : UInt8} {v : Except Fault (Bytes × Int)}
    (ran : (readBytes setting world size).Evaluates s v t) :
    v = .ok ([],-1) ∧ t.failed = true ∨ v = .ok ([],0) ∧ t.hungUp = true ∧ t = elapse setting world s ∨
      ∃ u, u = elapse setting world s ∧ v = .ok (u.queue.take size.toNat,((u.queue.take size.toNat).length : Int)) ∧
        t = {u with queue := u.queue.drop size.toNat} := by
  have ended := Program.evaluatesStep.mp ran
  dsimp only at ended
  split_ifs at ended with fails hungUp
  · cases ended
    exact .inl ⟨rfl,rfl⟩
  · cases ended
    exact .inr (.inl ⟨rfl,hungUp,rfl⟩)
  · cases ended
    exact .inr (.inr ⟨_,rfl,rfl,rfl⟩)

inductive SizeSource (setting : Setting) (world : Nat → Moment) (s : Port) : Except Fault Int → Port → Prop where
  | failed {t : Port} (failed : Failed t) : SizeSource setting world s (.error .deviceError) t
  | nothing (empty : (elapse setting world s).queue = []) : SizeSource setting world s (.ok 0) (elapse setting world s)
  | pending {v : Except Fault Int} {t : Port} (ran : (ioctl setting world).Evaluates (elapse setting world s) v t) :
      SizeSource setting world s v t

theorem sizeSource {s t : Port} {v : Except Fault Int} (ran : (getSizeInRxBuffer setting world).Evaluates s v t) :
    SizeSource setting world s v t := by
  rcases Program.evaluatesBind.mp ran with ⟨e,raised,rfl⟩ | ⟨res,u,asked,rest⟩
  · rcases selectSource raised with ⟨never,_⟩ | ⟨never,_⟩ <;> cases never
  · rcases selectSource asked with ⟨same,failed⟩ | ⟨same,rfl⟩
    · cases same
      have thrown : (Program.throw Fault.deviceError : Act Port Int).Evaluates u v t := rest
      obtain ⟨rfl,rfl⟩ := Program.evaluatesLift.mp thrown
      exact .failed failed
    · cases same
      by_cases empty : (elapse setting world s).queue = [] ∧ (elapse setting world s).hungUp = false
      · rw [if_pos empty] at rest
        obtain ⟨rfl,rfl⟩ := Program.evaluatesLift.mp rest
        exact .nothing empty.1
      · rw [if_neg empty] at rest
        exact .pending rest

theorem sizeSignals : (getSizeInRxBuffer setting world).Signals .deviceError Failed := by
  intro s v t good ran
  have still : ¬ Failed (elapse setting world s) := by rwa [Failed,elapseFailed]
  cases sizeSource ran with
  | failed failed => exact ⟨fun _ => failed,fun _ => rfl⟩
  | nothing _ => exact ⟨fun never => (nomatch never),fun failed => absurd failed still⟩
  | pending ran =>
    rcases ioctlSource ran with ⟨⟨_,rfl⟩,kept,_⟩ | ⟨rfl,rfl⟩
    · exact ⟨fun never => (nomatch never),fun failed => absurd (kept.symm.trans failed) still⟩
    · refine ⟨fun never => (nomatch never),fun failed => absurd failed ?_⟩
      rwa [Failed,elapseFailed]

theorem expiredSignals (waitUsec : UInt32) : ((host setting world).expired waitUsec).Signals .deviceError Failed := by
  intro s v t good ran
  cases Program.evaluatesStep.mp ran
  refine ⟨fun never => (nomatch never),fun failed => absurd failed ?_⟩
  rwa [Failed,elapseFailed]

theorem readSignals (size : UInt8) : (read setting world size).Signals .deviceError Failed := by
  intro s v t good ran
  rcases Program.evaluatesBind.mp ran with ⟨e,raised,rfl⟩ | ⟨out,u,called,rest⟩
  · rcases readBytesSource raised with ⟨never,_⟩ | ⟨never,_⟩ | ⟨_,_,never,_⟩ <;> cases never
  · rcases readBytesSource called with ⟨same,failed⟩ | ⟨same,_,rfl⟩ | ⟨u,rfl,same,rfl⟩
    · cases same
      have thrown : (Program.throw Fault.deviceError : Act Port (Bytes × Int)).Evaluates u v t := rest
      obtain ⟨rfl,rfl⟩ := Program.evaluatesLift.mp thrown
      exact ⟨fun _ => failed,fun _ => rfl⟩
    · cases same
      obtain ⟨rfl,rfl⟩ := Program.evaluatesLift.mp rest
      refine ⟨fun never => (nomatch never),fun failed => absurd failed ?_⟩
      rwa [Failed,elapseFailed]
    · cases same
      rw [if_neg (Int.not_lt.mpr (Int.natCast_nonneg _))] at rest
      obtain ⟨rfl,rfl⟩ := Program.evaluatesLift.mp rest
      refine ⟨fun never => (nomatch never),fun failed => absurd failed ?_⟩
      change ¬ (elapse setting world s).failed = true
      rwa [elapseFailed]

theorem writeEachSignals (ret : Int) (raw : Bytes) : (writeEach setting world ret raw).Signals .deviceError Failed := by
  induction raw generalizing ret with
  | nil => exact Program.signalsLift fun same => nomatch same
  | cons b rest ih =>
    intro s v t good ran
    rcases Program.evaluatesBind.mp ran with ⟨e,raised,rfl⟩ | ⟨ret,u,called,later⟩
    · rcases writeByteSource raised with ⟨never,_⟩ | ⟨never,_⟩ | ⟨never,_⟩ <;> cases never
    · rcases writeByteSource called with ⟨same,failed⟩ | ⟨same,kept,_⟩ | ⟨same,kept,_⟩
      · cases same
        have thrown : (Program.throw Fault.deviceError : Act Port Int).Evaluates u v t := later
        obtain ⟨rfl,rfl⟩ := Program.evaluatesLift.mp thrown
        exact ⟨fun _ => failed,fun _ => rfl⟩
      · cases same
        exact ih 0 u v t (by rwa [Failed,kept]) later
      · cases same
        exact ih 1 u v t (by rwa [Failed,kept]) later

theorem writeSignals (raw : Bytes) : (write setting world raw).Signals .deviceError Failed := by
  refine Program.signalsBind ?_ fun _ ret _ _ => writeEachSignals ret raw
  intro s v t good ran
  cases Program.evaluatesStep.mp ran
  exact ⟨fun never => (nomatch never),fun failed => absurd failed good⟩

def Excepts (α : Type) (c _ : Act Port α) : Prop := c.Signals .deviceError Failed

theorem excepts : Program.Congruence Own Excepts := Program.signalsCongruence Fault.deviceError Failed

theorem purelySignals {α : Type} (a : α) : (pure a : Act Port α).Signals .deviceError Failed :=
  Program.signalsLift fun same => nomatch same

theorem portSignals (setting : Setting) (world : Nat → Moment) :
    (host setting world).Realises Excepts (fun _ => True) (host setting world) where
  read := Transport.readRealised excepts sizeSignals expiredSignals readSignals
  send packet _ _ := Transport.sendRealised excepts
    (fun b => Program.signalsBind (writeSignals [b]) fun _ _ _ _ => purelySignals ()) packet
  getSenderInfo := Program.signalsBind (purelySignals _) fun _ _ _ _ => purelySignals ()
  scratch n _ next next' rest := by
    refine Program.signalsBind (purelySignals _) fun s raw t given => rest raw ?_
    obtain ⟨rfl,_⟩ := Program.returnsPure.mp given
    rw [List.length_map,List.length_range]
  outside offset := by
    simp only [host]
    cases setting.outside offset with
    | some b => exact purelySignals b
    | none => exact Program.signalsLift fun same => nomatch Except.error.inj same

theorem selectLossy : (select setting world).Keeps (Retains Lossy) := by
  refine Program.keepsStep fun s lossy => ?_
  dsimp only
  split
  · exact .inl rfl
  · exact elapseLossy lossy

theorem ioctlLossy : (ioctl setting world).Keeps (Retains Lossy) := by
  refine Program.keepsStep fun s lossy => ?_
  dsimp only
  split
  · exact .inr (.inl rfl)
  · exact elapseLossy lossy

theorem sizeLossy : (getSizeInRxBuffer setting world).Keeps (Retains Lossy) := by
  refine Program.keepsBind selectLossy fun res => ?_
  split
  · exact Program.keepsPure _
  · split
    · exact Program.keepsStep fun _ lossy => lossy
    · exact ioctlLossy

theorem readLossy (size : UInt8) : (read setting world size).Keeps (Retains Lossy) := by
  refine Program.keepsBind (Program.keepsStep fun s lossy => ?_) fun out => ?_
  · dsimp only
    split_ifs
    · exact .inl rfl
    · exact elapseLossy lossy
    · exact elapseLossy lossy
  · split
    · exact Program.keepsStep fun _ lossy => lossy
    · exact Program.keepsPure _

theorem writeByteLossy (b : UInt8) : (writeByte setting world b).Keeps (Retains Lossy) := by
  refine Program.keepsStep fun s lossy => ?_
  have kept : Lossy (elapse setting world s) := elapseLossy lossy
  dsimp only
  split
  · exact .inl rfl
  · split
    · exact kept
    · exact .inr (.inr (.inr (.inl rfl)))

theorem writeEachLossy (ret : Int) (raw : Bytes) : (writeEach setting world ret raw).Keeps (Retains Lossy) := by
  induction raw generalizing ret with
  | nil => exact Program.keepsPure ret
  | cons b rest ih =>
    refine Program.keepsBind (writeByteLossy b) fun ret => ?_
    split
    · exact Program.keepsStep fun _ lossy => lossy
    · exact ih ret

theorem writeLossy (raw : Bytes) : (write setting world raw).Keeps (Retains Lossy) :=
  Program.keepsBind (Program.keepsStep fun _ lossy => lossy) fun ret => writeEachLossy ret raw

theorem sendView (setting : Setting) (b : UInt8) (s : Port) :
    view setting {s with wire := s.wire.send [b], written := s.written ++ [b]} = (view setting s).send setting b := by
  unfold view View.send
  dsimp only
  rw [Wire.sendSettled]

theorem writeSource {s t : Port} {b : UInt8} {v : Except Fault Int} (ran : (write setting world [b]).Evaluates s v t)
    (clean : ¬ Lossy t) : v = .ok 1 ∧ t = {elapse setting world s with
      wire := (elapse setting world s).wire.send [b], written := (elapse setting world s).written ++ [b]} := by
  have called := (Program.evaluatesAfter (Program.returnsStep.mpr rfl)).mp ran
  rcases Program.evaluatesBind.mp called with ⟨e,raised,rfl⟩ | ⟨ret,u,wrote,last⟩
  · rcases writeByteSource raised with ⟨never,_⟩ | ⟨never,_⟩ | ⟨never,_⟩ <;> cases never
  · have ended : t = u := by
      split at last
      · have thrown : (Program.throw Fault.deviceError : Act Port Int).Evaluates u v t := last
        exact (Program.evaluatesLift.mp thrown).2
      · exact (Program.evaluatesLift.mp last).2
    subst ended
    rcases writeByteSource wrote with ⟨_,failed⟩ | ⟨_,_,unsent⟩ | ⟨same,_,sent⟩
    · exact absurd (.inl failed) clean
    · exact absurd (.inr (.inr (.inr (.inl unsent)))) clean
    · cases same
      exact ⟨(Program.evaluatesLift.mp last).1,sent⟩

theorem portTransmits {clock : Bool → Prop} (clocked : ∀ n, clock (world n).late) :
    (host setting world).Transmits (link setting) setting clock where
  sizeSpoils := sizeLossy
  expiredSpoils _ := Program.keepsStep fun _ => elapseLossy
  readSpoils := readLossy
  writeSpoils := writeLossy
  size {s v t} _ ran clean := by
    cases sizeSource ran with
    | failed failed => exact absurd (.inl failed) clean
    | nothing empty =>
      refine ⟨trivial,elapseWaits clean,?_⟩
      change Except.ok 0 = .ok ((elapse setting world s).queue.length : Int)
      rw [empty]
      rfl
    | pending ran =>
      rcases ioctlSource ran with ⟨_,_,garbled⟩ | ⟨rfl,rfl⟩
      · exact absurd (.inr (.inl garbled)) clean
      · exact ⟨trivial,(elapseWaits fun lossy => clean (elapseLossy lossy)).later (elapseWaits clean),rfl⟩
  expired {waitUsec s v t} _ ran clean := by
    cases Program.evaluatesStep.mp ran
    exact ⟨trivial,elapseWaits clean,_,clocked s.moment,rfl⟩
  read {size s v t} _ ran clean held := by
    rcases Program.evaluatesBind.mp ran with ⟨e,raised,rfl⟩ | ⟨out,u,called,last⟩
    · rcases readBytesSource raised with ⟨never,_⟩ | ⟨never,_⟩ | ⟨_,_,never,_⟩ <;> cases never
    · rcases readBytesSource called with ⟨same,failed⟩ | ⟨same,hungUp,_⟩ | ⟨between,rfl,same,rfl⟩
      · cases same
        have thrown : (Program.throw Fault.deviceError : Act Port (Bytes × Int)).Evaluates u v t := last
        exact absurd (.inl ((Program.evaluatesLift.mp thrown).2 ▸ failed)) clean
      · cases same
        obtain ⟨_,rfl⟩ := Program.evaluatesLift.mp last
        exact absurd (.inr (.inr (.inr (.inr hungUp)))) clean
      · cases same
        rw [if_neg (Int.not_lt.mpr (Int.natCast_nonneg _))] at last
        obtain ⟨rfl,rfl⟩ := Program.evaluatesLift.mp last
        have waits : (view setting s).Waits (view setting (elapse setting world s)) := elapseWaits clean
        obtain ⟨more,unread,_⟩ := waits.arrived
        have enough : size.toNat ≤ (elapse setting world s).queue.length := by
          have longer := congrArg List.length unread
          rw [List.length_append] at longer
          exact Nat.le_trans held (longer ▸ Nat.le_add_right _ _)
        refine ⟨trivial,_,_,_,waits,List.length_take_of_le enough,?_,rfl⟩
        unfold link view
        simp only [List.take_append_drop]
  write {b s v t} _ ran clean := by
    obtain ⟨value,rfl⟩ := writeSource ran clean
    exact ⟨trivial,_,_,elapseWaits clean,sendView setting b _,value⟩
  sender := ⟨_,rfl⟩
  scratch _ := rfl
  outside _ := rfl

end Steps

end SerialPort
end RTno2Proxy
