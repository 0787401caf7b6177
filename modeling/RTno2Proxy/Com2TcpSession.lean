import RTno2Proxy.Com2Tcp

/-! How a session of the bridge ends, on a socket in non-blocking mode. The loop takes every
negative result for a failure, also the one that only says that nothing is pending, and the 0
that says that the peer has closed for an empty read. -/
namespace RTno2Proxy
namespace Com2Tcp
open Interleaving (Steps Free stepsInvariant stepsMeasure stepsTo stepsComputed)

def Place.OnSerial : Place → Prop
  | getSizeInRxBuffer => True
  | serialRead _ => True
  | serialWrite size i => i < size.toNat
  | _ => False

def Place.OnSocket : Place → Prop
  | socketWrite _ => True
  | socketRead => True
  | _ => False

def SerialGone (b : Bridge) : Prop := b.serialFailed = true ∨ b.serialHungUp = true

def Gone (b : Bridge) : Prop := SerialGone b ∨ b.socketFailed = true ∨ b.peerClosed = true

def Event.isStep : Event → Bool
  | step _ => true
  | _ => false

def Meets (b : Bridge) : Prop :=
  b.place.OnSerial ∧ SerialGone b ∨ b.place.OnSocket ∧ b.socketFailed = true ∨
    b.place = .socketRead ∧ b.peerClosed = true ∧ b.socket = []

/- A terminal that has hung up is not read, nor asked unless `nread` happens to be negative; a working
socket has room for a byte at `send` and has bytes pending at `recv`; and `SerialPort::write`, when it has nothing
to write, does not find a negative number in the result it never set. -/
structure ToldStep (b : Bridge) (ret : Int) : Prop where
  asks : b.place = .getSizeInRxBuffer → b.serialHungUp = true → b.serialFailed = true ∨ ret < 0
  reads : ∀ received, b.place = .serialRead received → b.serialHungUp = true → b.serialFailed = true
  room : ∀ received, b.place = .socketWrite received → b.socketFailed = true ∨ 0 < ret
  pending : b.place = .socketRead → b.socketFailed = true ∨ b.socket ≠ []
  lucky : ∀ i, b.place = .serialWrite 0 i → 0 ≤ ret

def Told (b : Bridge) (e : Event) : Prop := e ≠ .peerCloses ∧ ∀ ret, e = .step ret → ToldStep b ret

inductive Went (b : Bridge) (ret : Int) (c : Bridge) : Prop where
  | serialGone (call : b.place.OnSerial) (failed : b.serialFailed = true) (place : c.place = .terminated)
  | hungUp {size : UInt8} {i : Nat} (here : b.place = .serialWrite size i) (more : i < size.toNat)
      (works : b.serialFailed = false) (hungUp : b.serialHungUp = true) (place : c.place = .terminated)
  | unset (here : b.place = .getSizeInRxBuffer) (hungUp : b.serialHungUp = true) (negative : ret < 0) (place : c.place = .left)
  | socketGone (call : b.place.OnSocket) (failed : b.socketFailed = true) (place : c.place = .left)
  | broken {received : Int} (here : b.place = .socketWrite received) (works : b.socketFailed = false)
      (broken : b.socketBroken = true) (place : c.place = .terminated)
  | full {received : Int} (here : b.place = .socketWrite received) (works : b.socketFailed = false) (full : ret ≤ 0)
      (place : c.place = .left)
  | wouldBlock (here : b.place = .socketRead) (works : b.socketFailed = false) (idle : b.socket = [])
      (connected : b.peerClosed = false) (place : c.place = .left)
  | unlucky {i : Nat} (here : b.place = .serialWrite 0 i) (negative : ret < 0) (place : c.place = .left)
  | asked (here : b.place = .getSizeInRxBuffer) (works : b.serialFailed = false) (set : b.serialHungUp = true → 0 ≤ ret)
      (socket : c.socket = b.socket) (place : (∃ received, c.place = .serialRead received) ∨ c.place = .socketRead)
  | read {received : Int} (here : b.place = .serialRead received) (works : b.serialFailed = false)
      (socket : c.socket = b.socket) (place : c.place = .socketWrite received)
  | sent {received : Int} (here : b.place = .socketWrite received) (works : b.socketFailed = false) (room : 0 < ret)
      (socket : c.socket = b.socket) (place : c.place = .socketRead)
  | received {size : UInt8} (here : b.place = .socketRead) (works : b.socketFailed = false) (pending : b.socket ≠ [])
      (socket : c.socket.length < b.socket.length) (place : c.place = .serialWrite size 0)
  | closed (here : b.place = .socketRead) (works : b.socketFailed = false) (drained : b.socket = [])
      (closed : b.peerClosed = true) (place : c.place = .getSizeInRxBuffer)
  | passed {size : UInt8} {i : Nat} (here : b.place = .serialWrite size i) (more : i < size.toNat)
      (works : ¬ SerialGone b) (socket : c.socket = b.socket) (place : c.place = .serialWrite size (i + 1))
  | written {size : UInt8} {i : Nat} (here : b.place = .serialWrite size i) (all : size.toNat ≤ i)
      (lucky : size = 0 → 0 ≤ ret) (socket : c.socket = b.socket) (place : c.place = .getSizeInRxBuffer)

theorem getSizeInRxBufferWent {b : Bridge} (ret : Int) (here : b.place = .getSizeInRxBuffer) :
    Went b ret (getSizeInRxBuffer ret b) := by
  unfold getSizeInRxBuffer serialCall
  split
  · rename_i failed
    exact .serialGone (by rw [here]; trivial) failed rfl
  · rename_i works
    have works : b.serialFailed = false := Bool.eq_false_iff.mpr works
    have unread (hungUp : b.serialHungUp = true) : nread ret b = ret := if_pos hungUp
    dsimp only
    split
    · rename_i negative
      cases plugged : b.serialHungUp with
      | true => exact .unset here plugged (unread plugged ▸ negative) rfl
      | false =>
        rw [nreadWorks ret plugged] at negative
        omega
    · rename_i counted
      have set (hungUp : b.serialHungUp = true) : 0 ≤ ret := Int.not_lt.mp (unread hungUp ▸ counted)
      split
      · exact .asked here works set rfl (.inl ⟨_,rfl⟩)
      · exact .asked here works set rfl (.inr rfl)

theorem serialReadWent {b : Bridge} {received : Int} (ret : Int) (here : b.place = .serialRead received) :
    Went b ret (serialRead received b) := by
  unfold serialRead serialCall
  split
  · rename_i failed
    exact .serialGone (by rw [here]; trivial) failed rfl
  · rename_i works
    exact .read here (Bool.eq_false_iff.mpr works) rfl rfl

theorem socketWriteWent {b : Bridge} {received : Int} (ret : Int) (here : b.place = .socketWrite received) :
    Went b ret (socketWrite received ret b) := by
  unfold socketWrite
  split_ifs with failed broken full
  · exact .socketGone (by rw [here]; trivial) failed rfl
  · exact .broken here (Bool.eq_false_iff.mpr failed) broken rfl
  · exact .full here (Bool.eq_false_iff.mpr failed) full rfl
  · exact .sent here (Bool.eq_false_iff.mpr failed) (Int.not_le.mp full) rfl rfl

theorem socketReadWent {b : Bridge} (ret : Int) (here : b.place = .socketRead) : Went b ret (socketRead true b) := by
  cases failed : b.socketFailed with
  | true =>
    have result : recv true b = -1 := by simp [recv,failed]
    unfold socketRead
    rw [result]
    exact .socketGone (by rw [here]; trivial) failed rfl
  | false =>
    by_cases idle : b.socket = []
    · cases gone : b.peerClosed with
      | true =>
        have result : recv true b = 0 := by simp [recv,failed,idle,gone]
        unfold socketRead
        rw [result]
        exact .closed here failed idle gone rfl
      | false =>
        have result : recv true b = -1 := by simp [recv,failed,idle,gone]
        unfold socketRead
        rw [result]
        exact .wouldBlock here failed idle gone rfl
    · have pending : 0 < b.socket.length := List.length_pos_iff.mpr idle
      have result : recv true b = (b.socket.take maxBuffer).length := by simp [recv,failed,idle]
      have taken : 0 < (b.socket.take maxBuffer).length := by
        rw [List.length_take]
        unfold maxBuffer
        omega
      unfold socketRead
      dsimp only
      rw [result,if_neg (by omega),if_pos (by omega)]
      refine .received here failed idle ?_ rfl
      rw [List.length_drop]
      unfold maxBuffer
      omega

theorem serialWriteWent {b : Bridge} {size : UInt8} {i : Nat} (ret : Int) (here : b.place = .serialWrite size i) :
    Went b ret (serialWrite size i ret b) := by
  unfold serialWrite serialCall
  split_ifs with more failed hungUp unlucky
  · exact .serialGone (by rw [here]; exact more) failed rfl
  · exact .hungUp here more (Bool.eq_false_iff.mpr failed) hungUp rfl
  · exact .passed here more (fun gone => gone.elim failed hungUp) rfl rfl
  · obtain ⟨rfl,negative⟩ := unlucky
    exact .unlucky here negative rfl
  · exact .written here (Nat.le_of_not_lt more) (fun zero => Int.not_lt.mp fun negative => unlucky ⟨zero,negative⟩) rfl rfl

theorem stepWent {b c : Bridge} {ret : Int} (taken : next true b (.step ret) = some c) : Went b ret c := by
  cases mainStepCalled taken with
  | getSizeInRxBuffer here => exact getSizeInRxBufferWent ret here
  | serialRead here => exact serialReadWent ret here
  | socketWrite here => exact socketWriteWent ret here
  | socketRead here => exact socketReadWent ret here
  | serialWrite here => exact serialWriteWent ret here

section Told
variable {b : Bridge} {ret received : Int} {size : UInt8} {i : Nat}

theorem toldAsks (here : b.place = .getSizeInRxBuffer) :
    ToldStep b ret ↔ (b.serialHungUp = true → b.serialFailed = true ∨ ret < 0) :=
  ⟨fun told => told.asks here,fun asks => ⟨fun _ => asks,by simp [here],by simp [here],by simp [here],by simp [here]⟩⟩

theorem toldReads (here : b.place = .serialRead received) :
    ToldStep b ret ↔ (b.serialHungUp = true → b.serialFailed = true) :=
  ⟨fun told => told.reads received here,
    fun reads => ⟨by simp [here],fun _ _ => reads,by simp [here],by simp [here],by simp [here]⟩⟩

theorem toldSends (here : b.place = .socketWrite received) : ToldStep b ret ↔ (b.socketFailed = true ∨ 0 < ret) :=
  ⟨fun told => told.room received here,
    fun room => ⟨by simp [here],by simp [here],fun _ _ => room,by simp [here],by simp [here]⟩⟩

theorem toldReceives (here : b.place = .socketRead) : ToldStep b ret ↔ (b.socketFailed = true ∨ b.socket ≠ []) :=
  ⟨fun told => told.pending here,fun pending => ⟨by simp [here],by simp [here],by simp [here],fun _ => pending,by simp [here]⟩⟩

theorem toldWrites (here : b.place = .serialWrite size i) : ToldStep b ret ↔ (size = 0 → 0 ≤ ret) := by
  refine ⟨fun told zero => told.lucky i (zero ▸ here),fun lucky => ?_⟩
  refine ⟨by simp [here],by simp [here],by simp [here],by simp [here],fun j nothing => lucky ?_⟩
  cases here.symm.trans nothing
  rfl

end Told

theorem toldFailed {b : Bridge} {ret : Int} (call : b.place.OnSerial) (failed : b.serialFailed = true) : ToldStep b ret := by
  cases here : b.place with
  | getSizeInRxBuffer => exact (toldAsks here).mpr fun _ => .inl failed
  | serialRead received => exact (toldReads here).mpr fun _ => failed
  | serialWrite size i =>
    rw [here] at call
    exact (toldWrites here).mpr fun zero => absurd (zero ▸ call : i < (0 : UInt8).toNat) (Nat.not_lt_zero i)
  | socketWrite _ | socketRead | left | terminated =>
    rw [here] at call
    exact call.elim

theorem toldBroken {b : Bridge} {ret : Int} (call : b.place.OnSocket) (failed : b.socketFailed = true) : ToldStep b ret := by
  cases here : b.place with
  | socketWrite received => exact (toldSends here).mpr (.inl failed)
  | socketRead => exact (toldReceives here).mpr (.inl failed)
  | getSizeInRxBuffer | serialRead _ | serialWrite _ _ | left | terminated =>
    rw [here] at call
    exact call.elim

theorem toldExact {b c : Bridge} {ret : Int} (connected : b.peerClosed = false) (whole : b.socketBroken = false)
    (taken : next true b (.step ret) = some c) : (¬ c.place.Running ↔ Meets b) ↔ ToldStep b ret := by
  have ends (ended : ¬ c.place.Running) (meets : Meets b) (truth : ToldStep b ret) :
      (¬ c.place.Running ↔ Meets b) ↔ ToldStep b ret := iff_of_true (iff_of_true ended meets) truth
  have stays (runs : c.place.Running) (apart : ¬ Meets b) (truth : ToldStep b ret) :
      (¬ c.place.Running ↔ Meets b) ↔ ToldStep b ret :=
    iff_of_true (iff_of_false (not_not_intro runs) apart) truth
  have leaves (ended : ¬ c.place.Running) (apart : ¬ Meets b) (lied : ¬ ToldStep b ret) :
      (¬ c.place.Running ↔ Meets b) ↔ ToldStep b ret := iff_of_false (fun same => apart (same.mp ended)) lied
  have goesOn (runs : c.place.Running) (meets : Meets b) (lied : ¬ ToldStep b ret) :
      (¬ c.place.Running ↔ Meets b) ↔ ToldStep b ret := iff_of_false (fun same => same.mpr meets runs) lied
  cases stepWent taken with
  | serialGone call failed place =>
    exact ends (by rw [place]; exact id) (.inl ⟨call,.inl failed⟩) (toldFailed call failed)
  | @hungUp size i here more works hungUp place =>
    refine ends (by rw [place]; exact id) (.inl ⟨by rw [here]; exact more,.inr hungUp⟩) ((toldWrites here).mpr fun zero => ?_)
    rw [zero] at more
    exact absurd more (Nat.not_lt_zero i)
  | unset here hungUp negative place =>
    exact ends (by rw [place]; exact id) (.inl ⟨by rw [here]; trivial,.inr hungUp⟩) ((toldAsks here).mpr fun _ => .inr negative)
  | socketGone call failed place =>
    exact ends (by rw [place]; exact id) (.inr (.inl ⟨call,failed⟩)) (toldBroken call failed)
  | broken _ _ broken => simp [whole] at broken
  | full here works full place =>
    refine leaves (by rw [place]; exact id) (by simp [Meets,here,works,Place.OnSerial]) fun truth => ?_
    have room := (toldSends here).mp truth
    simp only [works,Bool.false_eq_true,false_or] at room
    omega
  | wouldBlock here works idle _ place =>
    refine leaves (by rw [place]; exact id) (by simp [Meets,here,works,connected,Place.OnSerial]) fun truth => ?_
    simpa [works,idle] using (toldReceives here).mp truth
  | unlucky here negative place =>
    refine leaves (by rw [place]; exact id) (by simp [Meets,here,Place.OnSerial,Place.OnSocket]) fun truth => ?_
    exact Int.not_lt.mpr ((toldWrites here).mp truth rfl) negative
  | asked here works set socket place =>
    have runs : c.place.Running := by
      obtain ⟨received,place⟩ | place := place <;> rw [place] <;> trivial
    cases plugged : b.serialHungUp with
    | true =>
      refine goesOn runs (.inl ⟨by rw [here]; trivial,.inr plugged⟩) fun truth => ?_
      have unset := (toldAsks here).mp truth plugged
      simp only [works,Bool.false_eq_true,false_or] at unset
      exact Int.not_lt.mpr (set plugged) unset
    | false =>
      exact stays runs (by simp [Meets,SerialGone,here,works,plugged,Place.OnSocket]) ((toldAsks here).mpr (by simp [plugged]))
  | read here works socket place =>
    have runs : c.place.Running := by rw [place]; trivial
    cases plugged : b.serialHungUp with
    | true =>
      refine goesOn runs (.inl ⟨by rw [here]; trivial,.inr plugged⟩) fun truth => ?_
      simpa [works] using (toldReads here).mp truth plugged
    | false =>
      exact stays runs (by simp [Meets,SerialGone,here,works,plugged,Place.OnSocket]) ((toldReads here).mpr (by simp [plugged]))
  | sent here works room socket place =>
    exact stays (by rw [place]; trivial) (by simp [Meets,here,works,Place.OnSerial]) ((toldSends here).mpr (.inr room))
  | received here works pending socket place =>
    exact stays (by rw [place]; trivial) (by simp [Meets,here,works,pending,Place.OnSerial])
      ((toldReceives here).mpr (.inr pending))
  | closed _ _ _ closed => simp [connected] at closed
  | @passed size i here more works socket place =>
    refine stays (by rw [place]; trivial) (by simp [Meets,here,works,Place.OnSocket]) ((toldWrites here).mpr fun zero => ?_)
    rw [zero] at more
    exact absurd more (Nat.not_lt_zero i)
  | written here all lucky socket place =>
    exact stays (by rw [place]; trivial) (by simp [Meets,here,Place.OnSerial,Place.OnSocket,Nat.not_lt.mpr all])
      ((toldWrites here).mpr lucky)

theorem meetsGone {b : Bridge} (meets : Meets b) : Gone b := by
  obtain ⟨_,failed⟩ | ⟨_,failed⟩ | ⟨_,closed,_⟩ := meets
  · exact .inl failed
  · exact .inr (.inl failed)
  · exact .inr (.inr closed)

structure Worse (b c : Bridge) : Prop where
  serial : SerialGone b → SerialGone c
  socket : b.socketFailed = true → c.socketFailed = true
  peer : b.peerClosed = true → c.peerClosed = true

theorem nextWorse {b c : Bridge} {e : Event} (taken : next true b e = some c) : Worse b c := by
  cases e with
  | step ret =>
    have same := stepEnds taken
    exact ⟨fun gone => gone.imp same.serialFailed.trans same.serialHungUp.trans,same.socketFailed.trans,same.peerClosed.trans⟩
  | serialArrives raw | socketArrives raw =>
    simp only [next,Option.ite_none_left_eq_some,Option.some.injEq] at taken
    obtain ⟨_,rfl⟩ := taken
    exact ⟨id,id,id⟩
  | socketBreaks =>
    simp only [next,Option.ite_none_right_eq_some,Option.some.injEq] at taken
    obtain ⟨_,rfl⟩ := taken
    exact ⟨id,id,id⟩
  | peerCloses =>
    cases taken
    exact ⟨id,id,fun _ => rfl⟩
  | serialFails =>
    cases taken
    exact ⟨fun _ => .inl rfl,id,id⟩
  | serialHangsUp =>
    cases taken
    exact ⟨fun _ => .inr rfl,id,id⟩
  | socketFails =>
    cases taken
    exact ⟨id,fun _ => rfl,id⟩

theorem worseGone {b c : Bridge} (worse : Worse b c) (gone : Gone b) : Gone c :=
  gone.imp worse.serial (Or.imp worse.socket worse.peer)

structure Open (b : Bridge) : Prop where
  connected : b.peerClosed = false
  whole : b.socketBroken = false

theorem nextOpen {wouldBlock : Bool} {b c : Bridge} {e : Event} (stays : e ≠ .peerCloses) (opened : Open b)
    (taken : next wouldBlock b e = some c) : Open c := by
  obtain ⟨connected,whole⟩ := opened
  cases e with
  | step ret =>
    have same := stepEnds taken
    exact ⟨same.peerClosed.trans connected,same.socketBroken.trans whole⟩
  | serialArrives raw | socketArrives raw =>
    simp only [next,Option.ite_none_left_eq_some,Option.some.injEq] at taken
    obtain ⟨_,rfl⟩ := taken
    exact ⟨connected,whole⟩
  | socketBreaks => simp [next,connected] at taken
  | peerCloses => exact absurd rfl stays
  | serialFails | serialHangsUp | socketFails =>
    cases taken
    exact ⟨connected,whole⟩

theorem worldPlace {wouldBlock : Bool} {b c : Bridge} {e : Event} (world : e.isStep = false)
    (taken : next wouldBlock b e = some c) : c.place = b.place := by
  cases e with
  | step ret => cases world
  | serialArrives raw | socketArrives raw =>
    simp only [next,Option.ite_none_left_eq_some,Option.some.injEq] at taken
    obtain ⟨_,rfl⟩ := taken
    rfl
  | socketBreaks =>
    simp only [next,Option.ite_none_right_eq_some,Option.some.injEq] at taken
    obtain ⟨_,rfl⟩ := taken
    rfl
  | peerCloses | serialFails | serialHangsUp | socketFails =>
    cases taken
    rfl

structure Honest (b : Bridge) : Prop where
  opened : Open b
  ended : ¬ b.place.Running → Gone b

theorem honestStep {b c : Bridge} {e : Event} (honest : Honest b) (told : Told b e) (taken : next true b e = some c) :
    Honest c := by
  obtain ⟨opened,kept⟩ := honest
  refine ⟨nextOpen told.1 opened taken,fun ended => ?_⟩
  cases mover : e.isStep with
  | true =>
    cases e with
    | step ret =>
      have meets := ((toldExact opened.connected opened.whole taken).mpr (told.2 ret rfl)).mp ended
      exact worseGone (nextWorse taken) (meetsGone meets)
    | _ => cases mover
  | false =>
    rw [worldPlace mover taken] at ended
    exact worseGone (nextWorse taken) (kept ended)

def Place.untilSerial : Place → Nat
  | getSizeInRxBuffer => 1
  | serialRead _ => 1
  | serialWrite size i => if i < size.toNat then 1 else 2
  | socketRead => 3
  | socketWrite _ => 4
  | _ => 0

def Place.untilSocket : Place → Nat
  | socketRead => 1
  | socketWrite _ => 1
  | serialRead _ => 2
  | getSizeInRxBuffer => 3
  | serialWrite size i => 4 + (size.toNat - i)
  | _ => 0

theorem onSerialRunning {p : Place} (call : p.OnSerial) : p.Running := by
  cases p <;> trivial

theorem onSocketRunning {p : Place} (call : p.OnSocket) : p.Running := by
  cases p <;> trivial

theorem untilSerialRunning {p : Place} (runs : p.Running) : 0 < p.untilSerial := by
  cases p with
  | serialWrite size i =>
    simp only [Place.untilSerial]
    split <;> omega
  | left => exact runs.elim
  | terminated => exact runs.elim
  | _ => simp [Place.untilSerial]

theorem untilSocketRunning {p : Place} (runs : p.Running) : 0 < p.untilSocket := by
  cases p with
  | left => exact runs.elim
  | terminated => exact runs.elim
  | _ => simp only [Place.untilSocket]; omega

theorem untilSerialLess {b c : Bridge} {ret : Int} (gone : SerialGone b) (told : ToldStep b ret)
    (taken : next true b (.step ret) = some c) : c.place.untilSerial < b.place.untilSerial := by
  cases stepWent taken with
  | serialGone call _ place =>
    rw [place]
    exact untilSerialRunning (onSerialRunning call)
  | hungUp here more _ _ place => simp [here,place,more,Place.untilSerial]
  | socketGone call _ place =>
    rw [place]
    exact untilSerialRunning (onSocketRunning call)
  | unset here _ _ place | broken here _ _ place | full here _ _ place | wouldBlock here _ _ _ place | unlucky here _ place
  | sent here _ _ _ place | closed here _ _ _ place => simp [here,place,Place.untilSerial]
  | asked here works set =>
    have hungUp := gone.resolve_left (by simp [works])
    have unset := told.asks here hungUp
    simp only [works,Bool.false_eq_true,false_or] at unset
    exact absurd unset (Int.not_lt.mpr (set hungUp))
  | read here works =>
    have hungUp := gone.resolve_left (by simp [works])
    simpa [works] using told.reads _ here hungUp
  | received here _ _ _ place =>
    rw [here,place]
    simp only [Place.untilSerial]
    split <;> omega
  | passed _ _ works => exact absurd gone works
  | written here all _ _ place => simp [here,place,Place.untilSerial,Nat.not_lt.mpr all]

theorem untilSocketLess {b c : Bridge} {ret : Int} (failed : b.socketFailed = true)
    (taken : next true b (.step ret) = some c) : c.place.untilSocket < b.place.untilSocket := by
  cases stepWent taken with
  | serialGone call _ place =>
    rw [place]
    exact untilSocketRunning (onSerialRunning call)
  | socketGone call _ place =>
    rw [place]
    exact untilSocketRunning (onSocketRunning call)
  | broken _ works | full _ works | wouldBlock _ works | sent _ works | received _ works | closed _ works =>
    simp [failed] at works
  | hungUp here _ _ _ place =>
    rw [here,place]
    simp only [Place.untilSocket]
    omega
  | unset here _ _ place | unlucky here _ place | read here _ _ place => simp [here,place,Place.untilSocket]
  | asked here _ _ _ place =>
    obtain ⟨received,place⟩ | place := place <;> simp [here,place,Place.untilSocket]
  | passed here more _ _ place =>
    rw [here,place]
    simp only [Place.untilSocket]
    omega
  | written here _ _ _ place =>
    rw [here,place]
    simp only [Place.untilSocket]
    omega

/- A measure that every step lowers and the rest of the world leaves alone, positive while the loop runs. -/
theorem endsWithin (Inv : Bridge → Prop) (size : Place → Nat)
    (keep : ∀ b e c, Inv b → next true b e = some c → Inv c)
    (lower : ∀ b ret c, Inv b → ToldStep b ret → next true b (.step ret) = some c → size c.place < size b.place)
    (runs : ∀ p, p.Running → 0 < size p) {t : Bridge} (start : Inv t) : ∃ patience, ∀ more u,
      Steps (next true) Told t more u → patience ≤ more.countP Event.isStep → ¬ u.place.Running := by
  refine ⟨size t.place,fun more u run waited running => ?_⟩
  have bound := stepsMeasure Event.isStep Inv (fun b => size b.place) (fun b e c inv _ taken => keep b e c inv taken)
    (fun b e c moves inv told taken => by
      cases e with
      | step ret => exact lower b ret c inv (told.2 ret rfl) taken
      | _ => cases moves)
    (fun b e c still _ _ taken => Nat.le_of_eq (congrArg size (worldPlace still taken))) start run
  have positive := runs u.place running
  omega

theorem goneEnds {t : Bridge} (opened : Open t) (gone : Gone t) : ∃ patience, ∀ more u,
    Steps (next true) Told t more u → patience ≤ more.countP Event.isStep → ¬ u.place.Running := by
  obtain serial | failed | closed := gone
  · exact endsWithin SerialGone Place.untilSerial (fun b e c gone taken => (nextWorse taken).serial gone)
      (fun b ret c gone told taken => untilSerialLess gone told taken) (fun p runs => untilSerialRunning runs) serial
  · exact endsWithin (fun b => b.socketFailed = true) Place.untilSocket
      (fun b e c failed taken => (nextWorse taken).socket failed)
      (fun b ret c failed _ taken => untilSocketLess failed taken) (fun p runs => untilSocketRunning runs) failed
  · exact absurd closed (by simp [opened.connected])

structure Deaf (b : Bridge) : Prop where
  running : b.place.Running
  serial : ¬ SerialGone b
  socket : b.socketFailed = false
  whole : b.socketBroken = false
  closed : b.peerClosed = true

theorem deafStep {b : Bridge} (deaf : Deaf b) : ∃ c, next true b (.step 256) = some c ∧ Deaf c := by
  obtain ⟨running,serial,socket,whole,closed⟩ := deaf
  obtain ⟨c,taken⟩ := stepRuns true 256 running
  have same := stepEnds taken
  have stays (runs : c.place.Running) : ∃ c, next true b (.step 256) = some c ∧ Deaf c := by
    refine ⟨c,taken,runs,fun gone => serial ?_,same.socketFailed.trans socket,same.socketBroken.trans whole,
      same.peerClosed.trans closed⟩
    exact gone.imp same.serialFailed.symm.trans same.serialHungUp.symm.trans
  cases stepWent taken with
  | serialGone _ failed => exact absurd (.inl failed) serial
  | hungUp _ _ _ hungUp => exact absurd (.inr hungUp) serial
  | unset _ hungUp => exact absurd (.inr hungUp) serial
  | socketGone _ failed => simp [socket] at failed
  | broken _ _ broken => simp [whole] at broken
  | full _ _ full => exact absurd full (by decide)
  | wouldBlock _ _ _ connected => simp [closed] at connected
  | unlucky _ negative => exact absurd negative (by decide)
  | asked _ _ _ _ place => exact stays (by obtain ⟨received,place⟩ | place := place <;> rw [place] <;> trivial)
  | read _ _ _ place | sent _ _ _ _ place | received _ _ _ _ place | closed _ _ _ _ place | passed _ _ _ _ place
  | written _ _ _ _ place => exact stays (by rw [place]; trivial)

theorem deafRuns {b : Bridge} (deaf : Deaf b) (n : Nat) :
    ∃ u, Steps (next true) Free b (List.replicate n (.step 256)) u ∧ u.place.Running := by
  induction n generalizing b with
  | zero => exact ⟨b,.nil b,deaf.running⟩
  | succ n ih =>
    obtain ⟨c,taken,deaf⟩ := deafStep deaf
    obtain ⟨u,run,running⟩ := ih deaf
    exact ⟨u,.cons trivial taken run,running⟩

/- The last part is the close of the peer: it never ends the loop. -/
theorem sessionEndsWhenGone {buffer : Buffer} {events : List Event} {t : Bridge}
    (run : Steps (next true) Told (accepted buffer) events t) :
    (¬ t.place.Running → Gone t) ∧
    (Gone t → ∃ patience, ∀ more u,
      Steps (next true) Told t more u → patience ≤ more.countP Event.isStep → ¬ u.place.Running) ∧
    (∀ ret c, next true t (.step ret) = some c → ((¬ c.place.Running ↔ Meets t) ↔ ToldStep t ret)) ∧
    (t.place.Running → ¬ Gone t → ∀ n, ∃ u,
      Steps (next true) Free t (.peerCloses :: List.replicate n (.step 256)) u ∧ u.place.Running) := by
  have honest := stepsInvariant Honest (fun _ _ _ honest told taken => honestStep honest told taken)
    (⟨⟨rfl,rfl⟩,fun ended => absurd trivial ended⟩ : Honest (accepted buffer)) run
  obtain ⟨opened,ended⟩ := honest
  refine ⟨ended,goneEnds opened,fun _ _ => toldExact opened.connected opened.whole,fun running present n => ?_⟩
  have failed : ¬ t.socketFailed = true := fun failed => present (.inr (.inl failed))
  have deaf : Deaf {t with peerClosed := true} :=
    ⟨running,fun gone => present (.inl gone),Bool.eq_false_iff.mpr failed,opened.whole,rfl⟩
  obtain ⟨u,rounds,running⟩ := deafRuns deaf n
  exact ⟨u,.cons trivial rfl rounds,running⟩

theorem sessionEndsWithSerial : ∃ t, Steps (next true) Told (accepted unwritten)
    [.socketArrives [1],.step 0,.step 0,.serialFails,.step 0] t ∧ t.place = .terminated ∧ Gone t := by
  have world {b : Bridge} {e : Event} (stays : e ≠ .peerCloses) (world : e.isStep = false) : Told b e := by
    refine ⟨stays,?_⟩
    rintro ret rfl
    cases world
  have truth {b : Bridge} (plugged : b.serialHungUp = false) (sends : ∀ received, b.place ≠ .socketWrite received)
      (reads : b.place = .socketRead → b.socket ≠ []) : Told b (.step 0) := by
    refine ⟨Event.noConfusion,?_⟩
    rintro _ ⟨⟩
    exact ⟨by simp [plugged],by simp [plugged],fun _ here => absurd here (sends _),fun here => .inr (reads here),
      fun _ _ => Int.le_refl 0⟩
  have run : ∃ t, Steps (next true) Told (accepted unwritten)
      [.socketArrives [1],.step 0,.step 0,.serialFails,.step 0] t ∧ t.place = .terminated :=
    ⟨_,.cons (world (by simp) rfl) rfl (.cons (truth rfl (by simp [accepted]) (by simp [accepted])) rfl
      (.cons (truth rfl (by simp [getSizeInRxBuffer,serialCall,nread,accepted]) fun _ => List.cons_ne_nil _ _) rfl
      (.cons (world (by simp) rfl) rfl (.cons (truth rfl (fun _ same => by cases same) (fun same => by cases same)) rfl (.nil _))))),rfl⟩
  obtain ⟨t,run,place⟩ := run
  exact ⟨t,run,place,(sessionEndsWhenGone run).1 (by rw [place]; exact id)⟩

theorem idleEndsAndClosedRuns :
    (∃ t, Steps (next true) Free (accepted unwritten) [.step 0,.step 0] t ∧ t.place = .left ∧ ¬ Gone t) ∧
    (∃ t, Steps (next true) Free (accepted unwritten) [.peerCloses] t ∧ Gone t ∧
      ∀ n, ∃ u, Steps (next true) Free t (List.replicate n (.step 256)) u ∧ u.place.Running) ∧
    (∃ t, Steps (next true) Free (accepted unwritten) ([.peerCloses,.serialArrives [1],.step 256,.step 256,.step 256,
      .socketBreaks,.serialArrives [2]] ++ List.replicate 4 (.step 256)) t ∧ t.place = .terminated ∧ ¬ SerialGone t) ∧
    ∃ t, Steps (next true) Free (accepted unwritten) [.serialHangsUp,.step 5,.step 5,.step 5] t ∧ Gone t ∧
      t.place = .socketRead := by
  refine ⟨?_,?_,?_,?_⟩
  · refine ⟨_,.cons trivial rfl (.cons trivial rfl (.nil _)),rfl,?_⟩
    simp [Gone,SerialGone,socketRead,recv,getSizeInRxBuffer,nread,serialCall,accepted]
  · have deaf : Deaf {accepted unwritten with peerClosed := true} := ⟨trivial,by simp [SerialGone,accepted],rfl,rfl,rfl⟩
    exact ⟨_,.cons trivial rfl (.nil _),.inr (.inr rfl),deafRuns deaf⟩
  · have ran : ∃ t, stepsTo (next true) (fun _ _ => true) (accepted unwritten) ([.peerCloses,.serialArrives [1],.step 256,
        .step 256,.step 256,.socketBreaks,.serialArrives [2]] ++ List.replicate 4 (.step 256)) = some t ∧
        t.place = .terminated ∧ t.serialFailed = false ∧ t.serialHungUp = false := ⟨_,rfl,rfl,rfl,rfl⟩
    obtain ⟨t,ran,place,works,plugged⟩ := ran
    exact ⟨t,stepsComputed (fun _ _ _ => trivial) ran,place,by simp [SerialGone,works,plugged]⟩
  · exact ⟨_,.cons trivial rfl (.cons trivial rfl (.cons trivial rfl (.cons trivial rfl (.nil _)))),.inl (.inr rfl),rfl⟩

end Com2Tcp
end RTno2Proxy
