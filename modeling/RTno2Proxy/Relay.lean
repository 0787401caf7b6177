import RTno2Proxy.Links
import RTno2Proxy.Com2Tcp

/-! src/com2tcp_main.cpp between a proxy and a board: the connection the server has accepted on one side,
the cable of its serial port on the other. While the server stays in its loop and no more than it can
take is pending, what it relays arrives as on a connection to the board itself. -/
namespace RTno2Proxy
/- A byte is `inbound` on its way to the server, and `outbound` on its way back; `hasty` says that
`MAX_BUFFER` bytes were pending when the loop asked for them, or `send` took only some of its bytes. -/
structure Relay where
  inbound : Bytes
  bridge : Com2Tcp.Bridge
  cable : Wire
  outbound : Bytes
  hasty : Bool

namespace Relay
open Com2Tcp (Bridge Buffer Flow Keeps Invariant maxBuffer accepted)

/- A byte gets to the server from the proxy or from the board, or to the board; the server makes a
call, and `ret` is as in `Com2Tcp.Event`; or one of its two ends fails. -/
inductive Move where
  | proxy
  | board
  | forward
  | step (ret : Int)
  | serialFails
  | serialHangsUp
  | socketFails
  deriving DecidableEq

def calm (ret : Int) (b : Bridge) : Bool :=
  match b.place with
  | .getSizeInRxBuffer => b.serial.length < maxBuffer
  | .socketWrite received => ret ≤ 0 || received ≤ ret
  | .socketRead => b.socket.length < maxBuffer
  | _ => true

section Channel
variable (setting : Setting) (wouldBlock : Bool)

def take (e : Com2Tcp.Event) (b : Bridge) : Bridge := (Com2Tcp.next wouldBlock b e).getD b

def step (ret : Int) (r : Relay) : Relay :=
  let bridge := take wouldBlock (.step ret) r.bridge
  {r with bridge := bridge, cable := r.cable.send (bridge.toSerial.drop r.bridge.toSerial.length),
          outbound := r.outbound ++ bridge.toSocket.drop r.bridge.toSocket.length, hasty := r.hasty || !calm ret r.bridge}

def happen (e : Move) (r : Relay) : Relay :=
  match e with
  | .proxy => match r.inbound with
    | [] => r
    | b :: rest => {r with inbound := rest, bridge := take wouldBlock (.socketArrives [b]) r.bridge}
  | .board => match r.cable.fetch with
    | none => r
    | some (b,cable) => {r with cable := cable, bridge := take wouldBlock (.serialArrives [b]) r.bridge}
  | .forward => {r with cable := r.cable.forward setting}
  | .step ret => step wouldBlock ret r
  | .serialFails => {r with bridge := take wouldBlock .serialFails r.bridge}
  | .serialHangsUp => {r with bridge := take wouldBlock .serialHangsUp r.bridge}
  | .socketFails => {r with bridge := take wouldBlock .socketFails r.bridge}

def fetch (r : Relay) : Option (UInt8 × Relay) :=
  match r.outbound with
  | [] => none
  | b :: rest => some (b,{r with outbound := rest})

def send (raw : Bytes) (r : Relay) : Relay := {r with inbound := r.inbound ++ raw}

def channel : Channel Relay Move := ⟨happen setting wouldBlock,fetch,send⟩

end Channel

/- The connection that it stands for: what is on its way to the board, by where it has got to, and
what is on its way back. -/
def wire (r : Relay) : Wire where
  outbound := r.cable.outbound ++ (r.bridge.place.incoming r.bridge.buffer.bytes ++ r.bridge.socket) ++ r.inbound
  peer := {r.cable.peer with
    coming := r.outbound ++ (r.bridge.place.outgoing r.bridge.buffer.bytes ++ r.bridge.serial) ++ r.cable.peer.coming}

def Spoiled (r : Relay) : Prop := r.hasty = true ∨ ¬ r.bridge.place.Running ∨ r.bridge.serialHungUp = true

instance : DecidablePred Com2Tcp.Place.Running := fun p => match p with
  | .left | .terminated => .isFalse id
  | .getSizeInRxBuffer | .serialRead _ | .socketWrite _ | .socketRead | .serialWrite _ _ => .isTrue trivial

instance : DecidablePred Spoiled := fun r => by unfold Spoiled; infer_instance

structure Sound (r : Relay) : Prop where
  invariant : Invariant r.bridge
  connected : r.bridge.peerClosed = false

def medium (setting : Setting) : Medium Relay := ⟨fun r => r.wire.settled setting,Sound,Spoiled⟩

instance (setting : Setting) : DecidablePred (medium setting).spoiled := fun r => inferInstanceAs (Decidable (Spoiled r))

section Bridge
variable {wouldBlock : Bool} {b c : Bridge}

structure Writes (b c : Bridge) : Prop where
  serialArrived : c.serialArrived = b.serialArrived
  socketArrived : c.socketArrived = b.socketArrived
  toSocket : b.toSocket <+: c.toSocket
  toSerial : b.toSerial <+: c.toSerial
  peerClosed : c.peerClosed = b.peerClosed

theorem writesPlaced (b : Bridge) (place : Com2Tcp.Place) : Writes b {b with place := place} :=
  ⟨rfl,rfl,List.prefix_refl _,List.prefix_refl _,rfl⟩

theorem writesCalled {call : Bridge} (writes : Writes b call) : Writes b (Com2Tcp.serialCall b call) := by
  unfold Com2Tcp.serialCall
  split
  · exact writesPlaced b _
  · exact writes

theorem stepWrites {ret : Int} (stepped : Com2Tcp.mainStep wouldBlock ret b = some c) : Writes b c := by
  cases Com2Tcp.mainStepCalled stepped with
  | getSizeInRxBuffer here =>
    refine writesCalled ?_
    dsimp only
    split
    · exact writesPlaced b _
    · split
      · exact writesPlaced b _
      · exact writesPlaced b _
  | serialRead here => exact writesCalled ⟨rfl,rfl,List.prefix_refl _,List.prefix_refl _,rfl⟩
  | socketWrite here =>
    unfold Com2Tcp.socketWrite
    split_ifs
    · exact writesPlaced b _
    · exact writesPlaced b _
    · exact writesPlaced b _
    · exact ⟨rfl,rfl,List.prefix_append _ _,List.prefix_refl _,rfl⟩
  | socketRead here =>
    unfold Com2Tcp.socketRead
    dsimp only
    split_ifs
    · exact writesPlaced b _
    · exact ⟨rfl,rfl,List.prefix_refl _,List.prefix_refl _,rfl⟩
    · exact ⟨rfl,rfl,List.prefix_refl _,List.prefix_refl _,rfl⟩
  | serialWrite here =>
    unfold Com2Tcp.serialWrite
    split_ifs
    · exact writesCalled (writesPlaced b _)
    · exact writesCalled ⟨rfl,rfl,List.prefix_refl _,List.prefix_append _ _,rfl⟩
    · exact writesPlaced b _
    · exact writesPlaced b _

theorem droppedPrefix {front all : Bytes} (written : front <+: all) : front ++ all.drop front.length = all := by
  obtain ⟨rest,rfl⟩ := written
  rw [List.drop_left]

theorem flowWrites (before : Flow b) (after : Flow c) (writes : Writes b c) :
    b.place.incoming b.buffer.bytes ++ b.socket =
        c.toSerial.drop b.toSerial.length ++ (c.place.incoming c.buffer.bytes ++ c.socket) ∧
      b.place.outgoing b.buffer.bytes ++ b.serial =
        c.toSocket.drop b.toSocket.length ++ (c.place.outgoing c.buffer.bytes ++ c.serial) := by
  have inward := writes.socketArrived.symm.trans after.inward
  have outward := writes.serialArrived.symm.trans after.outward
  rw [before.inward,← droppedPrefix writes.toSerial] at inward
  rw [before.outward,← droppedPrefix writes.toSocket] at outward
  simp only [List.append_assoc] at inward outward
  exact ⟨List.append_cancel_left inward,List.append_cancel_left outward⟩

end Bridge

section Conveys
variable {setting : Setting} {wouldBlock : Bool} {r : Relay}

theorem stepTaken {b : Bridge} {ret : Int} (running : (take wouldBlock (.step ret) b).place.Running) :
    b.place.Running ∧ Com2Tcp.next wouldBlock b (.step ret) = some (take wouldBlock (.step ret) b) := by
  by_cases inside : b.place.Running
  · obtain ⟨c,taken⟩ := Com2Tcp.stepRuns wouldBlock ret inside
    exact ⟨inside,by rw [take,taken,Option.getD_some]⟩
  · rw [take,Com2Tcp.stepOutside wouldBlock ret inside] at running
    exact absurd running inside

theorem calmStep {b : Bridge} {ret : Int} (plugged : b.serialHungUp = false) (still : calm ret b = true) :
    Com2Tcp.Calm b (.step ret) := by
  rintro _ ⟨⟩
  unfold calm at still
  refine ⟨fun here => .inr ⟨plugged,?_⟩,fun _ _ => plugged,fun received here => ?_,fun here => ?_⟩
  · rw [here] at still
    exact of_decide_eq_true still
  · rw [here] at still
    exact (Bool.or_eq_true_iff.mp still).imp of_decide_eq_true of_decide_eq_true
  · rw [here] at still
    exact of_decide_eq_true still

theorem stepWire {ret : Int} (sound : Sound r) (clean : ¬ Spoiled (step wouldBlock ret r)) :
    Sound (step wouldBlock ret r) ∧ (step wouldBlock ret r).wire = r.wire := by
  obtain ⟨invariant,connected⟩ := sound
  have running : (take wouldBlock (.step ret) r.bridge).place.Running := by
    by_contra left
    exact clean (.inr (.inl left))
  have still : calm ret r.bridge = true := by
    by_contra hasty
    exact clean (.inl (by simp [step,hasty]))
  obtain ⟨ran,taken⟩ := stepTaken running
  have plugged : r.bridge.serialHungUp = false := by
    refine Bool.eq_false_iff.mpr fun hungUp => clean (.inr (.inr ?_))
    exact (Com2Tcp.stepEnds taken).serialHungUp.trans hungUp
  have kept := Com2Tcp.invariantStep invariant (calmStep plugged still) taken
  have writes := stepWrites taken
  obtain ⟨inward,outward⟩ := flowWrites (invariant.flow ran) (kept.flow running) writes
  refine ⟨⟨kept,writes.peerClosed.trans connected⟩,?_⟩
  unfold wire
  rw [inward,outward]
  simp only [step,Wire.send,List.append_assoc]

theorem arrivesOther {raw : Bytes} : ∀ ret, Com2Tcp.Event.socketArrives raw ≠ .step ret := by
  intro ret same
  cases same

theorem serialOther {raw : Bytes} : ∀ ret, Com2Tcp.Event.serialArrives raw ≠ .step ret := by
  intro ret same
  cases same

theorem failsOther : (∀ ret, Com2Tcp.Event.serialFails ≠ .step ret) ∧ ∀ ret, Com2Tcp.Event.socketFails ≠ .step ret := by
  constructor <;> intro ret same <;> cases same

theorem takePlace {e : Com2Tcp.Event} (other : ∀ ret, e ≠ .step ret) (b : Bridge) : (take wouldBlock e b).place = b.place := by
  unfold take
  cases e with
  | socketArrives raw => by_cases closed : b.peerClosed = true <;> simp [Com2Tcp.next,closed]
  | serialArrives raw => by_cases hungUp : b.serialHungUp = true <;> simp [Com2Tcp.next,hungUp]
  | socketBreaks => by_cases closed : b.peerClosed = true <;> simp [Com2Tcp.next,closed]
  | step ret => exact absurd rfl (other ret)
  | _ => rfl

theorem takeHungUp (e : Com2Tcp.Event) {b : Bridge} (hungUp : b.serialHungUp = true) :
    (take wouldBlock e b).serialHungUp = true := by
  unfold take
  cases taken : Com2Tcp.next wouldBlock b e with
  | none => exact hungUp
  | some c =>
    cases e with
    | step ret => exact (Com2Tcp.stepEnds taken).serialHungUp.trans hungUp
    | serialArrives raw => simp [Com2Tcp.next,hungUp] at taken
    | socketArrives raw =>
      simp only [Com2Tcp.next,Option.ite_none_left_eq_some,Option.some.injEq] at taken
      obtain ⟨_,rfl⟩ := taken
      exact hungUp
    | socketBreaks =>
      simp only [Com2Tcp.next,Option.ite_none_right_eq_some,Option.some.injEq] at taken
      obtain ⟨_,rfl⟩ := taken
      exact hungUp
    | serialHangsUp =>
      cases taken
      rfl
    | peerCloses | serialFails | socketFails =>
      cases taken
      exact hungUp

theorem takeInvariant (wouldBlock : Bool) {e : Com2Tcp.Event} (other : ∀ ret, e ≠ .step ret) {b : Bridge} (invariant : Invariant b) :
    Invariant (take wouldBlock e b) := by
  unfold take
  cases taken : Com2Tcp.next wouldBlock b e with
  | none => exact invariant
  | some c => exact Com2Tcp.invariantStep invariant (fun ret same => absurd same (other ret)) taken

theorem happenSpoils {e : Move} (spoiled : Spoiled r) : Spoiled (happen setting wouldBlock e r) := by
  have placed {b : Bridge} (same : b.place = r.bridge.place) (kept : r.bridge.serialHungUp = true → b.serialHungUp = true) :
      r.hasty = true ∨ ¬ b.place.Running ∨ b.serialHungUp = true := by
    rw [same]
    exact spoiled.imp_right (Or.imp_right kept)
  cases e with
  | proxy =>
    unfold happen
    cases here : r.inbound with
    | nil => exact spoiled
    | cons b rest => exact placed (takePlace arrivesOther r.bridge) (takeHungUp _)
  | board =>
    unfold happen
    cases r.cable.fetch with
    | none => exact spoiled
    | some fetched => exact placed (takePlace serialOther r.bridge) (takeHungUp _)
  | forward => exact spoiled
  | step ret =>
    rcases spoiled with hasty | left | hungUp
    · exact .inl (by simp [happen,step,hasty])
    · exact .inr (.inl fun running => left (stepTaken running).1)
    · exact .inr (.inr (takeHungUp _ hungUp))
  | serialFails | socketFails => exact placed rfl id
  | serialHangsUp => exact .inr (.inr rfl)

theorem happenWire {e : Move} (sound : Sound r) (clean : ¬ Spoiled (happen setting wouldBlock e r)) :
    Sound (happen setting wouldBlock e r) ∧
      (happen setting wouldBlock e r).wire.settled setting = r.wire.settled setting := by
  cases e with
  | proxy =>
    cases here : r.inbound with
    | nil =>
      have stays : happen setting wouldBlock .proxy r = r := by simp only [happen,here]
      rw [stays]
      exact ⟨sound,rfl⟩
    | cons b rest =>
      have moved : happen setting wouldBlock .proxy r =
          {r with inbound := rest, bridge := take wouldBlock (.socketArrives [b]) r.bridge} := by simp only [happen,here]
      have taken : take wouldBlock (.socketArrives [b]) r.bridge =
          {r.bridge with socket := r.bridge.socket ++ [b], socketArrived := r.bridge.socketArrived ++ [b]} := by
        simp [take,Com2Tcp.next,sound.connected]
      have kept : Invariant (take wouldBlock (.socketArrives [b]) r.bridge) :=
        takeInvariant wouldBlock arrivesOther sound.invariant
      rw [taken] at moved kept
      rw [moved]
      refine ⟨⟨kept,sound.connected⟩,congrArg (Wire.settled setting) ?_⟩
      simp only [wire,here,List.append_assoc,List.singleton_append]
  | board =>
    cases read : r.cable.fetch with
    | none =>
      have stays : happen setting wouldBlock .board r = r := by simp only [happen,read]
      rw [stays]
      exact ⟨sound,rfl⟩
    | some fetched =>
      have moved : happen setting wouldBlock .board r =
          {r with cable := fetched.2, bridge := take wouldBlock (.serialArrives [fetched.1]) r.bridge} := by simp only [happen,read]
      rw [moved] at clean
      have plugged : r.bridge.serialHungUp = false :=
        Bool.eq_false_iff.mpr fun hungUp => clean (.inr (.inr (takeHungUp _ hungUp)))
      have taken : take wouldBlock (.serialArrives [fetched.1]) r.bridge = {r.bridge with
          serial := r.bridge.serial ++ [fetched.1], serialArrived := r.bridge.serialArrived ++ [fetched.1]} := by
        simp [take,Com2Tcp.next,plugged]
      have kept : Invariant (take wouldBlock (.serialArrives [fetched.1]) r.bridge) :=
        takeInvariant wouldBlock serialOther sound.invariant
      rw [taken] at moved kept
      rw [moved]
      refine ⟨⟨kept,sound.connected⟩,congrArg (Wire.settled setting) ?_⟩
      unfold Wire.fetch at read
      cases coming : r.cable.peer.coming with
      | nil =>
        rw [coming] at read
        cases read
      | cons b rest =>
        rw [coming] at read
        cases read
        simp only [wire,coming,List.append_assoc,List.singleton_append]
  | forward =>
    refine ⟨⟨sound.invariant,sound.connected⟩,?_⟩
    cases here : r.cable.outbound with
    | nil =>
      have stays : r.cable.forward setting = r.cable := by rw [Wire.forward,here]
      simp only [happen,stays]
    | cons b rest =>
      have same : (happen setting wouldBlock .forward r).wire = r.wire.forward setting := by
        have front := Peer.receiveComing setting
          (r.outbound ++ (r.bridge.place.outgoing r.bridge.buffer.bytes ++ r.bridge.serial)) b r.cable.peer
        simp only [happen,wire,here,Wire.forward,List.cons_append,front]
      rw [same,Wire.forwardSettled]
  | step ret =>
    obtain ⟨kept,same⟩ := stepWire sound clean
    exact ⟨kept,congrArg (Wire.settled setting) same⟩
  | serialFails => exact ⟨⟨takeInvariant wouldBlock failsOther.1 sound.invariant,sound.connected⟩,rfl⟩
  | serialHangsUp => exact absurd (.inr (.inr rfl)) clean
  | socketFails => exact ⟨⟨takeInvariant wouldBlock failsOther.2 sound.invariant,sound.connected⟩,rfl⟩

theorem conveys (setting : Setting) (wouldBlock : Bool) : (channel setting wouldBlock).Conveys (medium setting) setting where
  happenSpoils := happenSpoils
  fetchSpoils {r t b} fetched spoiled := by
    change fetch r = some (b,t) at fetched
    unfold fetch at fetched
    split at fetched
    · cases fetched
    · cases fetched
      exact spoiled
  sendSpoils := id
  happen sound clean := happenWire sound clean
  fetch {r t b} sound fetched _ := by
    change fetch r = some (b,t) at fetched
    have read : r.wire.fetch = some (b,t.wire) := by
      unfold fetch at fetched
      cases here : r.outbound with
      | nil =>
        rw [here] at fetched
        cases fetched
      | cons first rest =>
        rw [here] at fetched
        cases fetched
        simp only [Wire.fetch,wire,here,List.cons_append]
    refine ⟨?_,Wire.fetchSettled setting read⟩
    unfold fetch at fetched
    split at fetched
    · cases fetched
    · cases fetched
      exact ⟨sound.invariant,sound.connected⟩
  send {b r} sound _ := by
    refine ⟨⟨sound.invariant,sound.connected⟩,?_⟩
    have sent : ((channel setting wouldBlock).send [b] r).wire = r.wire.send [b] := by
      simp only [channel,send,wire,Wire.send,List.append_assoc]
    exact (congrArg (Wire.settled setting) sent).trans (Wire.sendSettled setting b r.wire)

end Conveys

end Relay
end RTno2Proxy
