import RTno2Proxy.Packet
import RTno2Proxy.Interleaving

/-! src/com2tcp_main.cpp: one accepted connection, from the opening of the serial port to the
end of the inner loop. Every call into the operating system is one step of the bridge; bytes
arrive, and the ends fail or close, between any two of them. -/
namespace RTno2Proxy
namespace Com2Tcp
open Interleaving (Steps Free stepsInvariant stepsAppend)

def maxBuffer : Nat := 256

structure Buffer where
  bytes : Bytes
  full : bytes.length = maxBuffer

def Buffer.store (b : Buffer) (raw : Bytes) : Buffer where
  bytes := raw.take maxBuffer ++ b.bytes.drop raw.length
  full := by
    rw [List.length_append,List.length_take,List.length_drop,b.full]
    omega

theorem storeTaken (b : Buffer) {raw : Bytes} (fits : raw.length ≤ maxBuffer) :
    (b.store raw).bytes.take raw.length = raw := by
  change (raw.take maxBuffer ++ b.bytes.drop raw.length).take raw.length = raw
  rw [List.take_of_length_le fits,List.take_left]

/- The call the loop is about to make, with `received_size` where it is still needed and the
`size` and `i` of `SerialPort::write`. `left` is behind the loop, where the server accepts again. -/
inductive Place where
  | getSizeInRxBuffer
  | serialRead (received : Int)
  | socketWrite (received : Int)
  | socketRead
  | serialWrite (size : UInt8) (i : Nat)
  | left
  | terminated
  deriving DecidableEq

def Place.Running : Place → Prop
  | left => False
  | terminated => False
  | _ => True

/- `serial` and `socket` are pending in the operating system; the four streams are what has come
from each end and gone to it since the connection was accepted. `serialHungUp` is a terminal whose
cable has been pulled, `socketBroken` a connection that its peer has closed and then reset. -/
structure Bridge where
  serial : Bytes
  socket : Bytes
  serialArrived : Bytes
  socketArrived : Bytes
  toSocket : Bytes
  toSerial : Bytes
  peerClosed : Bool
  serialFailed : Bool
  serialHungUp : Bool
  socketFailed : Bool
  socketBroken : Bool
  buffer : Buffer
  place : Place

def serialCall (b : Bridge) (call : Bridge) : Bridge :=
  if b.serialFailed then {b with place := .terminated} else call

/- On a terminal that has hung up `select` finds it ready, and the `ioctl` that nobody checks fails and
leaves `nread` unset. -/
def nread (ret : Int) (b : Bridge) : Int := if b.serialHungUp then ret else b.serial.length

def getSizeInRxBuffer (ret : Int) (b : Bridge) : Bridge :=
  serialCall b <|
    let received := nread ret b
    if received < 0 then {b with place := .left}
    else if received > 0 then
      {b with place := .serialRead (if received > maxBuffer then maxBuffer else received)}
    else {b with place := .socketRead}

def serialRead (received : Int) (b : Bridge) : Bridge :=
  serialCall b <|
    let size := UInt8.ofInt received
    let raw := if b.serialHungUp then [] else b.serial.take size.toNat
    {b with serial := b.serial.drop raw.length, buffer := b.buffer.store raw, place := .socketWrite received}

/- `send` takes what there is room for, up to `ret` bytes, and returns -1 for none. On a broken connection it raises
`SIGPIPE`, which nobody handles. -/
def socketWrite (received ret : Int) (b : Bridge) : Bridge :=
  if b.socketFailed then {b with place := .left}
  else if b.socketBroken then {b with place := .terminated}
  else if ret ≤ 0 then {b with place := .left}
  else {b with toSocket := b.toSocket ++ (b.buffer.bytes.take received.toNat).take ret.toNat, place := .socketRead}

/- What `recv` returns; `wouldBlock` is how it reports that nothing is pending on an open connection. -/
def recv (wouldBlock : Bool) (b : Bridge) : Int :=
  if b.socketFailed then -1
  else if b.socket = [] ∧ b.peerClosed = false ∧ wouldBlock = true then -1
  else (b.socket.take maxBuffer).length

def socketRead (wouldBlock : Bool) (b : Bridge) : Bridge :=
  let received := recv wouldBlock b
  if received < 0 then {b with place := .left}
  else
    let b := {b with socket := b.socket.drop maxBuffer, buffer := b.buffer.store (b.socket.take maxBuffer)}
    if received > 0 then {b with place := .serialWrite (UInt8.ofInt received) 0}
    else {b with place := .getSizeInRxBuffer}

def serialWrite (size : UInt8) (i : Nat) (ret : Int) (b : Bridge) : Bridge :=
  if i < size.toNat then
    serialCall b <|
      if b.serialHungUp then {b with place := .terminated}
      else {b with toSerial := b.toSerial ++ (b.buffer.bytes.drop i).take 1, place := .serialWrite size (i + 1)}
  else if size = 0 ∧ ret < 0 then {b with place := .left}
  else {b with place := .getSizeInRxBuffer}

/- `ret` of a step is what `send` has room for, and what the memory of a variable holds that nobody writes. -/
inductive Event where
  | serialArrives (raw : Bytes)
  | socketArrives (raw : Bytes)
  | peerCloses
  | serialFails
  | serialHangsUp
  | socketFails
  | socketBreaks
  | step (ret : Int)
  deriving DecidableEq

def mainStep (wouldBlock : Bool) (ret : Int) (b : Bridge) : Option Bridge :=
  match b.place with
  | .getSizeInRxBuffer => some (getSizeInRxBuffer ret b)
  | .serialRead received => some (serialRead received b)
  | .socketWrite received => some (socketWrite received ret b)
  | .socketRead => some (socketRead wouldBlock b)
  | .serialWrite size i => some (serialWrite size i ret b)
  | .left => none
  | .terminated => none

def next (wouldBlock : Bool) (b : Bridge) : Event → Option Bridge
  | .serialArrives raw =>
      if b.serialHungUp then none
      else some {b with serial := b.serial ++ raw, serialArrived := b.serialArrived ++ raw}
  | .socketArrives raw =>
      if b.peerClosed then none
      else some {b with socket := b.socket ++ raw, socketArrived := b.socketArrived ++ raw}
  | .peerCloses => some {b with peerClosed := true}
  | .serialFails => some {b with serialFailed := true}
  | .serialHangsUp => some {b with serialHungUp := true}
  | .socketFails => some {b with socketFailed := true}
  | .socketBreaks => if b.peerClosed then some {b with socketBroken := true} else none
  | .step ret => mainStep wouldBlock ret b

def accepted (buffer : Buffer) : Bridge :=
  ⟨[],[],[],[],[],[],false,false,false,false,false,buffer,.getSizeInRxBuffer⟩

structure Transparent (b : Bridge) : Prop where
  toSocket : b.toSocket <+: b.serialArrived
  toSerial : b.toSerial <+: b.socketArrived

structure CalmStep (b : Bridge) (ret : Int) : Prop where
  asks : b.place = .getSizeInRxBuffer → b.serialHungUp = true ∧ ret ≤ 0 ∨ b.serialHungUp = false ∧ b.serial.length < maxBuffer
  reads : ∀ received, b.place = .serialRead received → b.serialHungUp = false
  sends : ∀ received, b.place = .socketWrite received → ret ≤ 0 ∨ received ≤ ret
  takes : b.place = .socketRead → b.socket.length < maxBuffer

def Calm (b : Bridge) (e : Event) : Prop := ∀ ret, e = .step ret → CalmStep b ret

theorem sizeParameter {received : Int} (positive : 0 ≤ received) (small : received < maxBuffer) :
    (UInt8.ofInt received).toNat = received.toNat := by
  have narrow : received < 256 := small
  have reduced : received % 2 ^ 8 = received := Int.emod_eq_of_lt positive (by omega)
  rw [UInt8.ofInt,reduced,UInt8.toNat_ofNat']
  exact Nat.mod_eq_of_lt (by omega)

example : (UInt8.ofInt maxBuffer).toNat = 0 := by decide

def Place.outgoing (buffer : Bytes) : Place → Bytes
  | socketWrite received => buffer.take received.toNat
  | _ => []

def Place.incoming (buffer : Bytes) : Place → Bytes
  | serialWrite size i => (buffer.take size.toNat).drop i
  | _ => []

structure Flow (b : Bridge) : Prop where
  outward : b.serialArrived = b.toSocket ++ b.place.outgoing b.buffer.bytes ++ b.serial
  inward : b.socketArrived = b.toSerial ++ b.place.incoming b.buffer.bytes ++ b.socket
  asked : ∀ received, b.place = .serialRead received →
    0 ≤ received ∧ received < maxBuffer ∧ received ≤ b.serial.length

theorem flowTransparent {b : Bridge} (flow : Flow b) : Transparent b where
  toSocket := ⟨_,by rw [flow.outward,List.append_assoc]⟩
  toSerial := ⟨_,by rw [flow.inward,List.append_assoc]⟩

theorem nreadWorks {b : Bridge} (ret : Int) (works : b.serialHungUp = false) : nread ret b = b.serial.length := by
  rw [nread,if_neg (by simp [works])]

inductive Keeps (b c : Bridge) : Prop where
  | flow (flow : Flow c)
  | leaves (ended : ¬ c.place.Running) (same : Transparent b → Transparent c)

theorem leavesLoop (b : Bridge) : Keeps b {b with place := .left} := .leaves id fun h => ⟨h.1,h.2⟩

theorem serialCallKeeps {b call : Bridge} (kept : Keeps b call) : Keeps b (serialCall b call) := by
  unfold serialCall
  split
  · exact .leaves id fun h => ⟨h.1,h.2⟩
  · exact kept

theorem getSizeInRxBufferKeeps {b : Bridge} {ret : Int} (flow : Flow b) (here : b.place = .getSizeInRxBuffer)
    (calm : CalmStep b ret) : Keeps b (getSizeInRxBuffer ret b) := by
  obtain ⟨outward,inward,_⟩ := flow
  rw [here] at outward inward
  apply serialCallKeeps
  obtain ⟨hungUp,unset⟩ | ⟨works,small⟩ := calm.asks here
  · have unread : nread ret b = ret := if_pos hungUp
    rw [unread]
    dsimp only
    split
    · exact leavesLoop b
    · rw [if_neg (by omega)]
      exact .flow ⟨outward,inward,fun _ same => by cases same⟩
  · rw [nreadWorks ret works]
    dsimp only
    rw [if_neg (by omega)]
    split
    · have unclamped : ¬ ((b.serial.length : Int) > maxBuffer) := by omega
      rw [if_neg unclamped]
      refine .flow ⟨outward,inward,fun received same => ?_⟩
      cases same
      exact ⟨by omega,by omega,Int.le_refl _⟩
    · exact .flow ⟨outward,inward,fun _ same => by cases same⟩

theorem serialReadKeeps {b : Bridge} {received : Int} (flow : Flow b) (here : b.place = .serialRead received)
    (works : b.serialHungUp = false) : Keeps b (serialRead received b) := by
  obtain ⟨outward,inward,asked⟩ := flow
  obtain ⟨positive,small,pending⟩ := asked received here
  rw [here] at outward inward
  apply serialCallKeeps
  have size := sizeParameter positive small
  have taken : (b.serial.take received.toNat).length = received.toNat := List.length_take_of_le (by omega)
  have fits : (b.serial.take received.toNat).length ≤ maxBuffer := by omega
  have stored := storeTaken b.buffer fits
  rw [taken] at stored
  refine .flow ⟨?_,inward,fun _ same => by cases same⟩
  simp only [Place.outgoing,size,works,Bool.false_eq_true,if_false]
  rw [stored,taken,List.append_assoc,List.take_append_drop]
  simpa [Place.outgoing] using outward

theorem socketWriteKeeps {b : Bridge} {received ret : Int} (flow : Flow b) (here : b.place = .socketWrite received)
    (whole : ret ≤ 0 ∨ received ≤ ret) : Keeps b (socketWrite received ret b) := by
  obtain ⟨outward,inward,_⟩ := flow
  rw [here] at outward inward
  unfold socketWrite
  split_ifs with failed broken full
  · exact leavesLoop b
  · exact .leaves id fun h => ⟨h.1,h.2⟩
  · exact leavesLoop b
  · refine .flow ⟨?_,inward,fun _ same => by cases same⟩
    have all : (b.buffer.bytes.take received.toNat).take ret.toNat = b.buffer.bytes.take received.toNat := by
      rw [List.take_take,Nat.min_eq_right (by omega)]
    rw [all]
    simpa [Place.outgoing] using outward

theorem recvAnswered {wouldBlock : Bool} {b : Bridge} (answered : ¬ recv wouldBlock b < 0) :
    recv wouldBlock b = (b.socket.take maxBuffer).length := by
  unfold recv at answered ⊢
  split at answered
  · contradiction
  · rename_i works
    split at answered
    · contradiction
    · rename_i pending
      rw [if_neg works,if_neg pending]

theorem socketReadKeeps {b : Bridge} (wouldBlock : Bool) (flow : Flow b) (here : b.place = .socketRead)
    (calm : b.socket.length < maxBuffer) : Keeps b (socketRead wouldBlock b) := by
  obtain ⟨outward,inward,_⟩ := flow
  rw [here] at outward inward
  unfold socketRead
  dsimp only
  split
  · exact leavesLoop b
  · rename_i answered
    have all : b.socket.take maxBuffer = b.socket := List.take_of_length_le (Nat.le_of_lt calm)
    have count := recvAnswered answered
    rw [all] at count
    split
    · have size : (UInt8.ofInt b.socket.length).toNat = b.socket.length :=
        sizeParameter (Int.natCast_nonneg _) (by omega)
      have stored := storeTaken b.buffer (Nat.le_of_lt calm)
      refine .flow ⟨outward,?_,fun _ same => by cases same⟩
      simp only [Place.incoming,count,all,size]
      rw [stored,List.drop_eq_nil_of_le (Nat.le_of_lt calm),List.append_nil]
      simpa [Place.incoming] using inward
    · rename_i empty
      have silent : b.socket = [] := List.eq_nil_of_length_eq_zero (by omega)
      refine .flow ⟨outward,?_,fun _ same => by cases same⟩
      rw [silent] at inward ⊢
      exact inward

theorem takeDropSucc (src : Bytes) {i n : Nat} (less : i < n) :
    (src.take n).drop i = (src.drop i).take 1 ++ (src.take n).drop (i + 1) := by
  rw [List.drop_take,List.drop_take,← List.take_append_drop 1 ((src.drop i).take (n - i)),List.take_take,List.drop_take,
    List.drop_drop]
  congr 2
  omega

theorem serialWriteKeeps {b : Bridge} {size : UInt8} {i : Nat} (ret : Int) (flow : Flow b)
    (here : b.place = .serialWrite size i) : Keeps b (serialWrite size i ret b) := by
  obtain ⟨outward,inward,_⟩ := flow
  rw [here] at outward inward
  unfold serialWrite
  split
  · rename_i more
    apply serialCallKeeps
    split
    · exact .leaves id fun h => ⟨h.1,h.2⟩
    · refine .flow ⟨outward,?_,fun _ same => by cases same⟩
      have split := takeDropSucc b.buffer.bytes more
      rw [inward,Place.incoming,split]
      simp [Place.incoming]
  · rename_i all
    split
    · exact leavesLoop b
    · refine .flow ⟨outward,?_,fun _ same => by cases same⟩
      have written : (b.buffer.bytes.take size.toNat).drop i = [] :=
        List.drop_eq_nil_of_le (Nat.le_trans (List.length_take_le _ _) (Nat.le_of_not_lt all))
      rw [inward,Place.incoming,written]
      rfl

structure Invariant (b : Bridge) : Prop where
  transparent : Transparent b
  flow : b.place.Running → Flow b

theorem keepsInvariant {b c : Bridge} (transparent : Transparent b) (kept : Keeps b c) : Invariant c := by
  cases kept with
  | flow flow => exact ⟨flowTransparent flow,fun _ => flow⟩
  | leaves ended same => exact ⟨same transparent,fun running => absurd running ended⟩

inductive Called (wouldBlock : Bool) (ret : Int) (b : Bridge) : Bridge → Prop where
  | getSizeInRxBuffer (here : b.place = .getSizeInRxBuffer) : Called wouldBlock ret b (getSizeInRxBuffer ret b)
  | serialRead {received : Int} (here : b.place = .serialRead received) : Called wouldBlock ret b (serialRead received b)
  | socketWrite {received : Int} (here : b.place = .socketWrite received) :
      Called wouldBlock ret b (socketWrite received ret b)
  | socketRead (here : b.place = .socketRead) : Called wouldBlock ret b (socketRead wouldBlock b)
  | serialWrite {size : UInt8} {i : Nat} (here : b.place = .serialWrite size i) :
      Called wouldBlock ret b (serialWrite size i ret b)

theorem mainStepCalled {wouldBlock : Bool} {ret : Int} {b c : Bridge} (stepped : mainStep wouldBlock ret b = some c) :
    Called wouldBlock ret b c := by
  unfold mainStep at stepped
  cases here : b.place with
  | getSizeInRxBuffer =>
    rw [here] at stepped
    cases stepped
    exact .getSizeInRxBuffer here
  | serialRead received =>
    rw [here] at stepped
    cases stepped
    exact .serialRead here
  | socketWrite received =>
    rw [here] at stepped
    cases stepped
    exact .socketWrite here
  | socketRead =>
    rw [here] at stepped
    cases stepped
    exact .socketRead here
  | serialWrite size i =>
    rw [here] at stepped
    cases stepped
    exact .serialWrite here
  | left =>
    rw [here] at stepped
    cases stepped
  | terminated =>
    rw [here] at stepped
    cases stepped

structure SameEnds (b c : Bridge) : Prop where
  serialFailed : c.serialFailed = b.serialFailed
  serialHungUp : c.serialHungUp = b.serialHungUp
  socketFailed : c.socketFailed = b.socketFailed
  socketBroken : c.socketBroken = b.socketBroken
  peerClosed : c.peerClosed = b.peerClosed

theorem stepEnds {wouldBlock : Bool} {b c : Bridge} {ret : Int} (taken : next wouldBlock b (.step ret) = some c) :
    SameEnds b c := by
  cases mainStepCalled taken with
  | getSizeInRxBuffer =>
    unfold getSizeInRxBuffer serialCall
    dsimp only
    split_ifs <;> exact ⟨rfl,rfl,rfl,rfl,rfl⟩
  | serialRead =>
    unfold serialRead serialCall
    split_ifs <;> exact ⟨rfl,rfl,rfl,rfl,rfl⟩
  | socketWrite =>
    unfold socketWrite
    split_ifs <;> exact ⟨rfl,rfl,rfl,rfl,rfl⟩
  | socketRead =>
    unfold socketRead
    dsimp only
    split_ifs <;> exact ⟨rfl,rfl,rfl,rfl,rfl⟩
  | serialWrite =>
    unfold serialWrite serialCall
    split_ifs <;> exact ⟨rfl,rfl,rfl,rfl,rfl⟩

theorem stepRuns {b : Bridge} (wouldBlock : Bool) (ret : Int) (running : b.place.Running) :
    ∃ c, next wouldBlock b (.step ret) = some c := by
  unfold next mainStep
  cases here : b.place with
  | left | terminated => exact (here ▸ running).elim
  | _ => exact ⟨_,rfl⟩

theorem stepOutside {b : Bridge} (wouldBlock : Bool) (ret : Int) (ended : ¬ b.place.Running) :
    next wouldBlock b (.step ret) = none := by
  unfold next mainStep
  cases here : b.place with
  | left | terminated => rfl
  | _ =>
    rw [here] at ended
    exact absurd trivial ended

theorem mainStepKeeps {wouldBlock : Bool} {ret : Int} {b c : Bridge} (inv : Invariant b)
    (calm : Calm b (.step ret)) (stepped : mainStep wouldBlock ret b = some c) : Keeps b c := by
  have calm := calm ret rfl
  cases mainStepCalled stepped with
  | getSizeInRxBuffer here => exact getSizeInRxBufferKeeps (inv.flow (by rw [here]; trivial)) here calm
  | serialRead here => exact serialReadKeeps (inv.flow (by rw [here]; trivial)) here (calm.reads _ here)
  | socketWrite here => exact socketWriteKeeps (inv.flow (by rw [here]; trivial)) here (calm.sends _ here)
  | socketRead here => exact socketReadKeeps wouldBlock (inv.flow (by rw [here]; trivial)) here (calm.takes here)
  | serialWrite here => exact serialWriteKeeps ret (inv.flow (by rw [here]; trivial)) here

theorem serialArrivesKeeps {b : Bridge} (raw : Bytes) (inv : Invariant b) :
    Invariant {b with serial := b.serial ++ raw, serialArrived := b.serialArrived ++ raw} where
  transparent := ⟨inv.transparent.toSocket.trans (List.prefix_append _ _),inv.transparent.toSerial⟩
  flow running := by
    obtain ⟨outward,inward,asked⟩ := inv.flow running
    refine ⟨?_,inward,fun received here => ?_⟩
    · dsimp only
      rw [outward,List.append_assoc _ b.serial]
    · obtain ⟨positive,small,pending⟩ := asked received here
      dsimp only
      rw [List.length_append]
      exact ⟨positive,small,by omega⟩

theorem socketArrivesKeeps {b : Bridge} (raw : Bytes) (inv : Invariant b) :
    Invariant {b with socket := b.socket ++ raw, socketArrived := b.socketArrived ++ raw} where
  transparent := ⟨inv.transparent.toSocket,inv.transparent.toSerial.trans (List.prefix_append _ _)⟩
  flow running := by
    obtain ⟨outward,inward,asked⟩ := inv.flow running
    refine ⟨outward,?_,asked⟩
    dsimp only
    rw [inward,List.append_assoc _ b.socket]

theorem invariantStep {wouldBlock : Bool} {b c : Bridge} {e : Event} (inv : Invariant b) (calm : Calm b e)
    (taken : next wouldBlock b e = some c) : Invariant c := by
  cases e with
  | serialArrives raw =>
    simp only [next,Option.ite_none_left_eq_some,Option.some.injEq] at taken
    obtain ⟨_,rfl⟩ := taken
    exact serialArrivesKeeps raw inv
  | socketArrives raw =>
    simp only [next,Option.ite_none_left_eq_some,Option.some.injEq] at taken
    obtain ⟨_,rfl⟩ := taken
    exact socketArrivesKeeps raw inv
  | socketBreaks =>
    simp only [next,Option.ite_none_right_eq_some,Option.some.injEq] at taken
    obtain ⟨_,rfl⟩ := taken
    exact ⟨⟨inv.transparent.1,inv.transparent.2⟩,fun running => ⟨(inv.flow running).1,(inv.flow running).2,(inv.flow running).3⟩⟩
  | peerCloses | serialFails | serialHangsUp | socketFails =>
    cases taken
    exact ⟨⟨inv.transparent.1,inv.transparent.2⟩,fun running => ⟨(inv.flow running).1,(inv.flow running).2,(inv.flow running).3⟩⟩
  | step ret => exact keepsInvariant inv.transparent (mainStepKeeps inv calm taken)

theorem invariantAccepted (buffer : Buffer) : Invariant (accepted buffer) :=
  ⟨⟨List.nil_prefix,List.nil_prefix⟩,fun _ => ⟨rfl,rfl,fun _ same => by cases same⟩⟩

theorem bridgeTransparent {wouldBlock : Bool} {buffer : Buffer} {events : List Event} {t : Bridge}
    (run : Steps (next wouldBlock) Calm (accepted buffer) events t) : Transparent t :=
  (stepsInvariant Invariant (fun _ _ _ inv calm taken => invariantStep inv calm taken) (invariantAccepted buffer) run).transparent

def unwritten : Buffer := ⟨List.replicate maxBuffer 0,List.length_replicate⟩

theorem bridgeTransparentBoth : ∃ t : Bridge, t.toSocket = [1,2] ∧ t.toSerial = [3] ∧ t.place = .getSizeInRxBuffer ∧
    Transparent t := by
  have world {b : Bridge} {e : Event} (other : ∀ ret, e ≠ .step ret) : Calm b e := fun ret same => absurd same (other ret)
  have calm {b : Bridge} (works : b.serialHungUp = false) (serial : b.serial.length < maxBuffer)
      (socket : b.socket.length < maxBuffer) (room : ∀ received, b.place = .socketWrite received → received ≤ 256) :
      Calm b (.step 256) := by
    rintro _ ⟨⟩
    exact ⟨fun _ => .inr ⟨works,serial⟩,fun _ _ => works,fun received here => .inr (room received here),fun _ => socket⟩
  have run : ∃ t, Steps (next true) Calm (accepted unwritten)
      ([.serialArrives [1,2],.socketArrives [3]] ++ List.replicate 6 (.step 256)) t ∧
      t.toSocket = [1,2] ∧ t.toSerial = [3] ∧ t.place = .getSizeInRxBuffer := by
    refine ⟨_,.cons (world (by simp)) rfl (.cons (world (by simp)) rfl
      (.cons (calm rfl (by decide) (by decide) (by simp [accepted])) rfl (.cons (calm rfl (by decide) (by decide) ?_) rfl
      (.cons (calm rfl (by decide) (by decide) ?_) rfl (.cons (calm rfl (by decide) (by decide) ?_) rfl
      (.cons (calm rfl (by decide) (by decide) ?_) rfl (.cons (calm rfl (by decide) (by decide) ?_) rfl (.nil _)))))))),
      rfl,rfl,rfl⟩
    all_goals
      intro received here
      cases here
    decide
  obtain ⟨t,run,toSocket,toSerial,place⟩ := run
  exact ⟨t,toSocket,toSerial,place,bridgeTransparent run⟩

theorem serialCallWorks {b : Bridge} (call : Bridge) (works : b.serialFailed = false) : serialCall b call = call := by
  simp [serialCall,works]

theorem storeNothing (b : Buffer) : b.store [] = b := rfl

theorem unreadSent {wouldBlock : Bool} {b : Bridge} {received ret : Int} (here : b.place = .serialRead received)
    (works : b.serialFailed = false) (connected : b.socketFailed = false) (whole : b.socketBroken = false)
    (unread : b.serialHungUp = true ∨ UInt8.ofInt received = 0) (positive : 0 < received) (room : received ≤ ret) :
    Steps (next wouldBlock) Free b [.step ret,.step ret]
      {b with toSocket := b.toSocket ++ b.buffer.bytes.take received.toNat, place := .socketRead} := by
  have nothing : serialRead received b = {b with place := .socketWrite received} := by
    rw [serialRead,serialCallWorks _ works]
    obtain hungUp | zero := unread
    · simp [hungUp,storeNothing]
    · simp [zero,storeNothing]
  have sent (c : Bridge) (connected : c.socketFailed = false) (whole : c.socketBroken = false) :
      socketWrite received ret c =
        {c with toSocket := c.toSocket ++ c.buffer.bytes.take received.toNat, place := .socketRead} := by
    have all : (c.buffer.bytes.take received.toNat).take ret.toNat = c.buffer.bytes.take received.toNat := by
      rw [List.take_take,Nat.min_eq_right (by omega)]
    rw [socketWrite,if_neg (by simp [connected]),if_neg (by simp [whole]),if_neg (by omega),all]
  have first : next wouldBlock b (.step ret) = Option.some {b with place := .socketWrite received} := by
    rw [next,mainStep,here]
    exact congrArg Option.some nothing
  exact .cons trivial first (.cons trivial
    (congrArg Option.some (sent {b with place := .socketWrite received} connected whole)) (.nil _))

theorem backlogSendsBuffer {wouldBlock : Bool} {b : Bridge} {ret : Int} (here : b.place = .getSizeInRxBuffer)
    (works : b.serialFailed = false) (plugged : b.serialHungUp = false) (connected : b.socketFailed = false)
    (whole : b.socketBroken = false) (backlog : maxBuffer ≤ b.serial.length) (room : maxBuffer ≤ ret) :
    Steps (next wouldBlock) Free b [.step ret,.step ret,.step ret]
      {b with toSocket := b.toSocket ++ b.buffer.bytes, place := .socketRead} := by
  have positive : 0 < b.serial.length := Nat.lt_of_lt_of_le (by decide) backlog
  have asked : getSizeInRxBuffer ret b = {b with place := .serialRead maxBuffer} := by
    rw [getSizeInRxBuffer,serialCallWorks _ works,nreadWorks ret plugged]
    dsimp only
    rw [if_neg (by omega),if_pos (by omega)]
    split
    · rfl
    · have same : (b.serial.length : Int) = maxBuffer := by omega
      rw [same]
  have first : next wouldBlock b (.step ret) = some {b with place := .serialRead maxBuffer} := by
    rw [next,mainStep,here]
    exact congrArg some asked
  have sent := @unreadSent wouldBlock {b with place := .serialRead maxBuffer} _ ret rfl works connected whole
    (.inr (by decide)) (by decide) room
  have all : b.buffer.bytes.take (maxBuffer : Int).toNat = b.buffer.bytes := by
    rw [Int.toNat_natCast,← b.buffer.full,List.take_length]
  rw [all] at sent
  exact .cons trivial first sent

theorem hangUpSendsBuffer {wouldBlock : Bool} {b : Bridge} {ret : Int} (here : b.place = .getSizeInRxBuffer)
    (works : b.serialFailed = false) (hungUp : b.serialHungUp = true) (connected : b.socketFailed = false)
    (whole : b.socketBroken = false) (unset : 0 < ret) :
    Steps (next wouldBlock) Free b [.step ret,.step ret,.step ret]
      {b with toSocket := b.toSocket ++ b.buffer.bytes.take ret.toNat, place := .socketRead} := by
  have asked : getSizeInRxBuffer ret b = {b with place := .serialRead (if ret > maxBuffer then maxBuffer else ret)} := by
    have unread : nread ret b = ret := if_pos hungUp
    rw [getSizeInRxBuffer,serialCallWorks _ works,unread]
    dsimp only
    rw [if_neg (by omega),if_pos unset]
  have first : next wouldBlock b (.step ret) =
      some {b with place := .serialRead (if ret > maxBuffer then maxBuffer else ret)} := by
    rw [next,mainStep,here]
    exact congrArg some asked
  have all : b.buffer.bytes.take (if ret > maxBuffer then (maxBuffer : Int) else ret).toNat = b.buffer.bytes.take ret.toNat := by
    have full := b.buffer.full
    split
    · rw [List.take_of_length_le (by omega),List.take_of_length_le (by omega)]
    · rfl
  have positive : (0 : Int) < maxBuffer := by decide
  have sent := @unreadSent wouldBlock {b with place := .serialRead (if ret > maxBuffer then maxBuffer else ret)} _ ret rfl works connected whole
    (.inl hungUp) (by split <;> omega) (by split <;> omega)
  rw [all] at sent
  exact .cons trivial first sent

theorem burstLost {wouldBlock : Bool} {b : Bridge} {ret : Int} (here : b.place = .socketRead)
    (luck : 0 ≤ ret) (connected : b.socketFailed = false) (burst : maxBuffer ≤ b.socket.length) :
    Steps (next wouldBlock) Free b [.step ret,.step ret]
      {b with socket := b.socket.drop maxBuffer, buffer := b.buffer.store (b.socket.take maxBuffer),
              place := .getSizeInRxBuffer} := by
  have pending : b.socket ≠ [] := fun silent => by
    rw [silent] at burst
    contradiction
  have count : recv wouldBlock b = maxBuffer := by
    rw [recv,if_neg (by simp [connected]),if_neg (fun idle => pending idle.1),List.length_take_of_le burst]
  have took : socketRead wouldBlock b =
      {b with socket := b.socket.drop maxBuffer, buffer := b.buffer.store (b.socket.take maxBuffer),
              place := .serialWrite 0 0} := by
    rw [socketRead,count]
    rfl
  have wrote (c : Bridge) : serialWrite 0 0 ret c = {c with place := .getSizeInRxBuffer} := by
    rw [serialWrite,if_neg (by decide),if_neg (fun unlucky => Int.not_lt.mpr luck unlucky.2)]
  have taken : next wouldBlock b (.step ret) = some (socketRead wouldBlock b) := by rw [next,mainStep,here]
  rw [took] at taken
  exact .cons trivial taken (.cons trivial (congrArg some (wrote _)) (.nil _))

theorem backlogNotTransparent :
    (∃ t, Steps (next true) Free (accepted unwritten)
      [.serialArrives (List.replicate 256 1),.step 256,.step 256,.step 256] t ∧ ¬ t.toSocket <+: t.serialArrived) ∧
    (∃ t, Steps (next true) Free (accepted unwritten)
      [.socketArrives (List.replicate 256 1),.step 0,.step 0,.step 0,.socketArrives [2],.step 0,.step 0,.step 0] t ∧
        ¬ t.toSerial <+: t.socketArrived) ∧
    ∃ t, Steps (next true) Free (accepted unwritten) [.serialHangsUp,.step 5,.step 5,.step 5] t ∧
      ¬ t.toSocket <+: t.serialArrived := by
  refine ⟨?_,?_,?_⟩
  · refine ⟨_,.cons trivial rfl (backlogSendsBuffer rfl rfl rfl rfl rfl ?_ (Int.le_refl _)),?_⟩
    · exact Nat.le_of_eq List.length_replicate.symm
    · decide +kernel
  · let backlog : Bytes := List.replicate 256 1
    let reading := {accepted unwritten with socket := backlog, socketArrived := backlog, place := .socketRead}
    have burst : Steps (next true) Free reading _ _ :=
      burstLost rfl (Int.le_refl 0) rfl (Nat.le_of_eq List.length_replicate.symm)
    refine ⟨_,.cons trivial rfl (.cons trivial rfl (stepsAppend burst
      (.cons trivial rfl (.cons trivial rfl (.cons trivial rfl (.cons trivial rfl (.nil _))))))),?_⟩
    decide +kernel
  · refine ⟨_,.cons trivial rfl (hangUpSendsBuffer rfl rfl rfl rfl rfl (by decide)),?_⟩
    decide +kernel

end Com2Tcp
end RTno2Proxy
