import RTno2Proxy.Links
import RTno2Proxy.EtherTcp

/-! `ssr::EtherTcp` under the transport: the ring and its two threads, the socket, and what it is
connected to. Between any two accesses of the main thread something may happen on the connection, and
`svc` may push bytes; the socket may refuse one. Each of `buffer_push`, `buffer_pop` and `get_buffer_size`
is one step here: what a thread can see of another one inside these calls is left to `Assignments`. -/
namespace RTno2Proxy
namespace TcpDevice
open Imperative
open EtherTcp (Tcp Event Phase bufsize getBufferSize)

inductive Move (μ : Type) where
  | elsewhere (e : μ)
  | svc
  deriving DecidableEq

/- How `send` goes: on a connection that the other end has closed and reset it raises `SIGPIPE`. -/
inductive Sent where
  | accepts
  | refuses
  | kills
  deriving DecidableEq

structure Moment (μ : Type) where
  moves : List (Move μ)
  late : Bool
  sent : Sent
  deriving DecidableEq

/- A byte is `overrun` when it is pushed into a ring that has no cell for it, `overread` when `read`
stores more than it was asked for, `unsent` when `send` does not take it; the result of `write` is dropped
by the transport. -/
structure Connection (χ : Type) where
  tcp : Tcp
  wire : χ
  written : Bytes
  moment : Nat
  overrun : Bool
  overread : Bool
  unsent : Bool

section Parts
variable {χ μ : Type}

def Lossy (m : Medium χ) (s : Connection χ) : Prop :=
  s.overrun = true ∨ s.overread = true ∨ s.unsent = true ∨ m.spoiled s.wire
instance (m : Medium χ) [DecidablePred m.spoiled] (s : Connection χ) : Decidable (Lossy m s) := by unfold Lossy; infer_instance

def connectedTo (wire : χ) : Connection χ := ⟨EtherTcp.init,wire,[],0,false,false,false⟩

def advance (e : Event) (s : Connection χ) : Connection χ := {s with tcp := (EtherTcp.next s.tcp e).getD s.tcp}

def push (dat : UInt8) (s : Connection χ) : Connection χ :=
  {advance (.push dat) s with overrun := s.overrun || decide (255 ≤ getBufferSize s.tcp.ring)}

section Device
variable (setting : Setting) (channel : Channel χ μ) (world : Nat → Moment μ)

def move (s : Connection χ) : Move μ → Connection χ
  | .elsewhere e => {s with wire := channel.happen e s.wire}
  | .svc => match channel.fetch s.wire with
    | none => s
    | some (dat,wire) => push dat {s with wire := wire}

def elapse (s : Connection χ) : Connection χ :=
  {(world s.moment).moves.foldl (move channel) s with moment := s.moment + 1}

def readPass : Act (Connection χ) (Unit ⊕ (Bytes × Int)) := .step fun s =>
  let s := advance .step (elapse channel world s)
  match s.tcp.phase with
  | .returned retval dst => (.ok (.inr (dst,retval.toNat)),s)
  | _ => (.ok (.inl ()),s)

def read (size : UInt8) : Act (Connection χ) (Bytes × Int) := do
  .step fun s => (.ok (),advance (.read size) s)
  let out ← .loop (fun _ => readPass channel world) ()
  .step fun s => (.ok (),{s with overread := s.overread || decide (size.toNat < out.1.length)})
  pure out

def write (raw : Bytes) : Act (Connection χ) Int := .step fun s =>
  let t := elapse channel world s
  match (world s.moment).sent with
  | .accepts => (.ok raw.length,{t with wire := channel.send raw t.wire, written := t.written ++ raw})
  | .refuses => (.ok (-1),{t with unsent := true})
  | .kills => (.error .killed,{t with unsent := true})

def host : Host (Connection χ) where
  device := {
    getSizeInRxBuffer := .step fun s =>
      let t := elapse channel world s
      (.ok (getBufferSize t.tcp.ring),t)
    write := write channel world
    read := read channel world
    getSenderInfo := pure (['E','T','C','P'].map ascii) }
  expired _ := .step fun s => (.ok (world s.moment).late,elapse channel world s)
  scratch n := pure ((List.range n).map setting.scratch)
  outside offset := match setting.outside offset with
    | some b => pure b
    | none => .throw (.outsidePayload offset)

end Device

/- What the running `read` has taken off the ring is still to be handed over. -/
def view (m : Medium χ) (s : Connection χ) : View where
  unread := s.tcp.phase.taken ++ s.tcp.ring.contents
  peer := m.settled s.wire
  written := s.written

def Sound (m : Medium χ) (s : Connection χ) : Prop := EtherTcp.Invariant s.tcp ∧ m.sound s.wire

def link (m : Medium χ) : Link (Connection χ) where
  view := view m
  sound s := Sound m s ∧ s.tcp.phase.Outside
  spoiled := Lossy m

end Parts

section Steps
variable {χ μ : Type} {setting : Setting} {channel : Channel χ μ} {m : Medium χ} {world : Nat → Moment μ}

theorem pushLossy {s : Connection χ} (dat : UInt8) (lossy : Lossy m s) : Lossy m (push dat s) := by
  rcases lossy with overrun | kept
  · exact .inl (by simp [push,overrun])
  · exact .inr kept

theorem moveLossy (conveys : channel.Conveys m setting) {s : Connection χ} (e : Move μ) (lossy : Lossy m s) :
    Lossy m (move channel s e) := by
  unfold move
  cases e with
  | elsewhere e =>
    rcases lossy with overrun | overread | unsent | spoiled
    · exact .inl overrun
    · exact .inr (.inl overread)
    · exact .inr (.inr (.inl unsent))
    · exact .inr (.inr (.inr (conveys.happenSpoils spoiled)))
  | svc =>
    cases read : channel.fetch s.wire with
    | none => exact lossy
    | some fetched =>
      refine pushLossy fetched.1 ?_
      rcases lossy with overrun | overread | unsent | spoiled
      · exact .inl overrun
      · exact .inr (.inl overread)
      · exact .inr (.inr (.inl unsent))
      · exact .inr (.inr (.inr (conveys.fetchSpoils read spoiled)))

theorem movesLossy (conveys : channel.Conveys m setting) {s : Connection χ} (moves : List (Move μ)) (lossy : Lossy m s) :
    Lossy m (moves.foldl (move channel) s) := by
  induction moves generalizing s with
  | nil => exact lossy
  | cons e moves ih => exact ih (moveLossy conveys e lossy)

theorem elapseLossy (conveys : channel.Conveys m setting) {s : Connection χ} (lossy : Lossy m s) :
    Lossy m (elapse channel world s) := movesLossy conveys (world s.moment).moves lossy

structure Elapsed (m : Medium χ) (s t : Connection χ) : Prop where
  sound : Sound m t
  waits : (view m s).Waits (view m t)
  phase : t.tcp.phase = s.tcp.phase

theorem pushElapsed (conveys : channel.Conveys m setting) {s : Connection χ} {dat : UInt8} {wire : χ} (sound : Sound m s)
    (read : channel.fetch s.wire = some (dat,wire)) (clean : ¬ Lossy m (push dat {s with wire := wire})) :
    Elapsed m s (push dat {s with wire := wire}) := by
  obtain ⟨inv,keeps⟩ := sound
  have room : getBufferSize s.tcp.ring < 255 := by
    refine Int.not_le.mp fun full => clean (.inl ?_)
    simp [push,full]
  have roomy : EtherTcp.Roomy s.tcp (.push dat) := fun _ _ => room
  have free : s.tcp.ring.size.toNat + 1 < bufsize := by
    have small : s.tcp.ring.size < 255 := room
    change s.tcp.ring.size.toNat + 1 < 256
    omega
  have unread : s.tcp.phase.taken ++ (EtherTcp.bufferPush dat s.tcp.ring).contents =
      s.tcp.phase.taken ++ s.tcp.ring.contents ++ [dat] := by
    rw [EtherTcp.bufferPush,RingBuffer.contentsPush dat free,List.append_assoc]
  obtain ⟨kept,fetched⟩ := conveys.fetch keeps read fun spoiled => clean (.inr (.inr (.inr spoiled)))
  have waits := View.waitsFetched fetched (s.tcp.phase.taken ++ s.tcp.ring.contents) s.written
  rw [← unread] at waits
  exact ⟨⟨EtherTcp.invariantStep inv roomy rfl,kept⟩,waits,rfl⟩

theorem moveElapsed (conveys : channel.Conveys m setting) {s : Connection χ} (e : Move μ) (sound : Sound m s)
    (clean : ¬ Lossy m (move channel s e)) : Elapsed m s (move channel s e) := by
  unfold move at clean ⊢
  cases e with
  | elsewhere e =>
    obtain ⟨kept,same⟩ := conveys.happen sound.2 fun spoiled => clean (.inr (.inr (.inr spoiled)))
    refine ⟨⟨sound.1,kept⟩,?_,rfl⟩
    unfold view
    rw [same]
    exact View.waitsNothing _
  | svc =>
    cases read : channel.fetch s.wire with
    | none => exact ⟨sound,View.waitsNothing _,rfl⟩
    | some fetched =>
      simp only [read] at clean
      exact pushElapsed conveys sound read clean

theorem elapseElapsed (conveys : channel.Conveys m setting) {s : Connection χ} (sound : Sound m s)
    (clean : ¬ Lossy m (elapse channel world s)) : Elapsed m s (elapse channel world s) := by
  have moves (moves : List (Move μ)) (s : Connection χ) (sound : Sound m s)
      (clean : ¬ Lossy m (moves.foldl (move channel) s)) : Elapsed m s (moves.foldl (move channel) s) := by
    induction moves generalizing s with
    | nil => exact ⟨sound,View.waitsNothing _,rfl⟩
    | cons e moves ih =>
      have now := moveElapsed conveys e sound fun lossy => clean (movesLossy conveys moves lossy)
      have later := ih _ now.sound clean
      exact ⟨later.sound,now.waits.later later.waits,later.phase.trans now.phase⟩
  obtain ⟨sound,waits,phase⟩ := moves (world s.moment).moves s sound clean
  exact ⟨sound,waits,phase⟩

def Reads (size : UInt8) : Phase → Prop
  | .compare asked => asked = size
  | .fetch asked => asked = size
  | .popping sizeRead _ => size.toNat ≤ sizeRead.toNat
  | _ => False

structure Reading (m : Medium χ) (size : UInt8) (s : Connection χ) : Prop where
  sound : Sound m s
  place : Reads size s.tcp.phase
  held : size.toNat ≤ (view m s).unread.length

theorem readingElapsed {size : UInt8} {s t : Connection χ} (reading : Reading m size s) (elapsed : Elapsed m s t) :
    Reading m size t := by
  obtain ⟨more,unread,_⟩ := elapsed.waits.arrived
  refine ⟨elapsed.sound,elapsed.phase ▸ reading.place,?_⟩
  rw [unread,List.length_append]
  exact Nat.le_add_right_of_le reading.held

inductive Accessed (m : Medium χ) (size : UInt8) (s t : Connection χ) : Prop where
  | more (reading : Reading m size t) (view : view m t = view m s)
  | last {retval : UInt32} {dst : Bytes} (sound : Sound m t) (phase : t.tcp.phase = .returned retval dst)
      (enough : size.toNat ≤ dst.length) (view : view m s = {view m t with unread := dst ++ (view m t).unread})

theorem readingAccessed {size : UInt8} {s : Connection χ} (reading : Reading m size s) :
    Accessed m size s (advance .step s) := by
  obtain ⟨⟨invariant,keeps⟩,place,held⟩ := reading
  have roomy : EtherTcp.Roomy s.tcp .step := fun _ push => by cases push
  unfold advance
  cases stepped : EtherTcp.next s.tcp .step with
  | none => exact .more ⟨⟨invariant,keeps⟩,place,held⟩ rfl
  | some tcp =>
    have kept := EtherTcp.invariantStep invariant roomy stepped
    rw [Option.getD_some]
    have unread {u : Connection χ} (same : u.tcp.phase.taken ++ u.tcp.ring.contents = s.tcp.phase.taken ++ s.tcp.ring.contents)
        (place : Reads size u.tcp.phase) (invariant : EtherTcp.Invariant u.tcp) (rest : u = {s with tcp := u.tcp}) :
        Accessed m size s u := by
      have view : view m u = view m s := by
        rw [rest]
        unfold TcpDevice.view
        rw [same]
      have still : m.sound u.wire := by
        rw [rest]
        exact keeps
      exact .more ⟨⟨invariant,still⟩,place,view ▸ held⟩ view
    cases EtherTcp.nextSource stepped with
    | enough here less =>
      rw [here] at place
      exact unread (by rw [here]; rfl) place kept rfl
    | plenty here more =>
      rw [here] at place
      refine unread (by rw [here]; rfl) ?_ kept rfl
      change size.toNat ≤ UInt32.toNat _
      rw [UInt8.toNat_toUInt32,place]
    | fetch here =>
      refine unread (by rw [here]; rfl) ?_ kept rfl
      change size.toNat ≤ UInt32.toNat _
      rw [EtherTcp.unsignedSize]
      have ring : (view m s).unread = s.tcp.ring.contents := by
        unfold TcpDevice.view
        rw [here]
        rfl
      rw [ring,RingBuffer.contentsLength] at held
      exact held
    | @pop sizeRead dst here left =>
      rw [here] at place
      have filled : 0 < s.tcp.ring.size.toNat := by
        have supply := (invariant.supply sizeRead dst here).2
        omega
      refine unread ?_ place kept rfl
      rw [here,RingBuffer.contentsPop filled]
      simp [Phase.taken]
    | @leave sizeRead dst here all =>
      rw [here] at place
      refine .last ⟨kept,keeps⟩ rfl (Nat.le_trans place all) ?_
      unfold TcpDevice.view
      rw [here]
      rfl

def Handed (m : Medium χ) (size : UInt8) (s : Connection χ) (out : Bytes × Int) (t : Connection χ) : Prop :=
  Sound m t ∧ t.tcp.phase.Outside ∧ size.toNat ≤ out.1.length ∧
    (view m s).Waits {view m t with unread := out.1 ++ (view m t).unread}

theorem readPassSource (conveys : channel.Conveys m setting) {size : UInt8} {s t : Connection χ}
    {v : Except Fault (Unit ⊕ (Bytes × Int))} (reading : Reading m size s) (ran : (readPass channel world).Evaluates s v t)
    (clean : ¬ Lossy m t) : v = .ok (.inl ()) ∧ Reading m size t ∧ (view m s).Waits (view m t) ∨
      ∃ out, v = .ok (.inr out) ∧ Handed m size s out t := by
  obtain ⟨_,ended⟩ := ran
  unfold readPass at ended
  injection ended with value state
  have after : t = advance .step (elapse channel world s) := by
    rw [← state]
    dsimp only
    split
    · rfl
    · rfl
  have elapsed : Elapsed m s (elapse channel world s) :=
    elapseElapsed conveys reading.sound fun lossy => clean (after ▸ lossy)
  have accessed := readingAccessed (readingElapsed reading elapsed)
  rw [← after] at accessed
  dsimp only at value
  rw [← after] at value
  cases accessed with
  | more reading same =>
    left
    have inside := reading.place
    refine ⟨?_,reading,same ▸ elapsed.waits⟩
    cases phase : t.tcp.phase with
    | returned retval dst =>
      rw [phase] at inside
      exact inside.elim
    | _ =>
      rw [phase] at value
      exact value.symm
  | @last retval dst sound phase enough same =>
    right
    rw [phase] at value
    exact ⟨_,value.symm,sound,by rw [phase]; trivial,enough,same ▸ elapsed.waits⟩

theorem readPassLossy (conveys : channel.Conveys m setting) : (readPass channel world).Keeps (Retains (Lossy m)) := by
  refine Program.keepsStep fun s lossy => ?_
  have kept : Lossy m (advance .step (elapse channel world s)) := elapseLossy conveys lossy
  dsimp only
  split
  · exact kept
  · exact kept

theorem readLoopSource (conveys : channel.Conveys m setting) {size : UInt8} {s t : Connection χ} {v : Except Fault (Bytes × Int)}
    (reading : Reading m size s) (ran : (Program.loop (fun _ => readPass channel world) ()).Evaluates s v t) (clean : ¬ Lossy m t) :
    ∃ out, v = .ok out ∧ Handed m size s out t := by
  have spoils := Program.keepsLoop (fun _ => @readPassLossy _ _ _ _ _ world conveys) ()
  have whole : (Program.loop (fun _ => readPass channel world) ()).Evaluates s v t ∧
      (Reading m size s → ¬ Lossy m t → ∃ out, v = .ok out ∧ Handed m size s out t) := by
    refine Program.evaluatesLoopRule (motive := fun _ s v t => (Program.loop (fun _ => readPass channel world) ()).Evaluates s v t ∧
      (Reading m size s → ¬ Lossy m t → ∃ out, v = .ok out ∧ Handed m size s out t)) ?_ ?_ ?_ ran
    · intro _ s e t raised
      refine ⟨Program.evaluatesLoop.mpr (Program.raisesBind.mpr (.inl raised)),fun reading clean => ?_⟩
      rcases readPassSource conveys reading raised clean with ⟨never,_⟩ | ⟨_,never,_⟩
      · cases never
      · cases never
    · intro _ s out t returned
      refine ⟨Program.returnsLoop.mpr (.inl returned),fun reading clean => ?_⟩
      rcases readPassSource conveys reading returned clean with ⟨never,_⟩ | ⟨_,same,handed⟩
      · cases never
      · cases same
        exact ⟨out,rfl,handed⟩
    · intro _ s _ u v t returned ⟨later,ih⟩
      refine ⟨Program.evaluatesLoop.mpr (Program.evaluatesBind.mpr (.inr ⟨_,u,returned,later⟩)),fun reading clean => ?_⟩
      have unspoiled : ¬ Lossy m u := fun lossy => clean (spoils u v t later lossy)
      rcases readPassSource conveys reading returned unspoiled with ⟨_,reading,waits⟩ | ⟨_,never,_⟩
      · obtain ⟨out,same,sound,outside,enough,rest⟩ := ih reading clean
        exact ⟨out,same,sound,outside,enough,waits.later rest⟩
      · cases never
  exact whole.2 reading clean

theorem readLossy (conveys : channel.Conveys m setting) (size : UInt8) :
    (read channel world size).Keeps (Retains (Lossy m)) := by
  refine Program.keepsBind (Program.keepsStep fun _ lossy => lossy) fun _ =>
    Program.keepsBind (Program.keepsLoop (fun _ => readPassLossy conveys) ()) fun out =>
      Program.keepsBind (Program.keepsStep fun s lossy => ?_) fun _ => Program.keepsPure _
  rcases lossy with overrun | overread | rest
  · exact .inl overrun
  · exact .inr (.inl (by simp [overread]))
  · exact .inr (.inr rest)

theorem writeLossy (conveys : channel.Conveys m setting) (raw : Bytes) : (write channel world raw).Keeps (Retains (Lossy m)) := by
  refine Program.keepsStep fun s lossy => ?_
  dsimp only
  split
  · rcases elapseLossy conveys lossy with overrun | overread | unsent | spoiled
    · exact .inl overrun
    · exact .inr (.inl overread)
    · exact .inr (.inr (.inl unsent))
    · exact .inr (.inr (.inr (conveys.sendSpoils spoiled)))
  · exact .inr (.inr (.inl rfl))
  · exact .inr (.inr (.inl rfl))

theorem outsideUnread {s : Connection χ} (outside : s.tcp.phase.Outside) : (view m s).unread = s.tcp.ring.contents := by
  unfold view
  rw [EtherTcp.outsideTaken outside]
  rfl

theorem readCalled {size : UInt8} {s : Connection χ} (sound : Sound m s) (outside : s.tcp.phase.Outside)
    (held : size.toNat ≤ (view m s).unread.length) :
    Reading m size (advance (.read size) s) ∧ view m (advance (.read size) s) = view m s := by
  have called : EtherTcp.next s.tcp (.read size) = some {s.tcp with phase := .compare size} := if_pos outside
  have kept := EtherTcp.invariantStep sound.1 (fun _ push => by cases push) called
  have same : view m {s with tcp := {s.tcp with phase := .compare size}} = view m s := by
    unfold view
    rw [EtherTcp.outsideTaken outside]
    rfl
  unfold advance
  rw [called,Option.getD_some]
  exact ⟨⟨⟨kept,sound.2⟩,rfl,same ▸ held⟩,same⟩

theorem readSource (conveys : channel.Conveys m setting) {size : UInt8} {s t : Connection χ} {v : Except Fault (Bytes × Int)}
    (sound : Sound m s) (outside : s.tcp.phase.Outside) (ran : (read channel world size).Evaluates s v t) (clean : ¬ Lossy m t)
    (held : size.toNat ≤ (view m s).unread.length) :
    ∃ out, v = .ok out ∧ out.1.length = size.toNat ∧ Handed m size s out t := by
  obtain ⟨reading,same⟩ := readCalled sound outside held
  have looped := (Program.evaluatesAfter (Program.returnsStep.mpr rfl)).mp ran
  rcases Program.evaluatesBind.mp looped with ⟨e,raised,rfl⟩ | ⟨out,u,returned,last⟩
  · obtain ⟨_,never,_⟩ := readLoopSource conveys reading raised clean
    cases never
  · have flagged := (Program.evaluatesAfter (Program.returnsStep.mpr rfl)).mp last
    obtain ⟨rfl,rfl⟩ := Program.evaluatesLift.mp flagged
    have unspoiled : ¬ Lossy m u := by
      rintro (overrun | overread | rest)
      · exact clean (.inl overrun)
      · exact clean (.inr (.inl (by simp [overread])))
      · exact clean (.inr (.inr rest))
    obtain ⟨_,value,handed⟩ := readLoopSource conveys reading returned unspoiled
    cases value
    have short : out.1.length ≤ size.toNat := by
      refine Nat.le_of_not_lt fun long => clean (.inr (.inl ?_))
      simp [long]
    obtain ⟨kept,after,enough,waits⟩ := handed
    rw [same] at waits
    exact ⟨out,rfl,Nat.le_antisymm short enough,kept,after,enough,waits⟩

theorem tcpTransmits {clock : Bool → Prop} (conveys : channel.Conveys m setting) (clocked : ∀ n, clock (world n).late) :
    (host setting channel world).Transmits (link m) setting clock where
  sizeSpoils := Program.keepsStep fun _ => elapseLossy conveys
  expiredSpoils _ := Program.keepsStep fun _ => elapseLossy conveys
  readSpoils := readLossy conveys
  writeSpoils := writeLossy conveys
  size {s v t} sound ran clean := by
    obtain ⟨_,ended⟩ := ran
    injection ended with value state
    subst state
    have elapsed : Elapsed m s (elapse channel world s) := elapseElapsed conveys sound.1 clean
    have outside : (elapse channel world s).tcp.phase.Outside := elapsed.phase ▸ sound.2
    refine ⟨⟨elapsed.sound,outside⟩,elapsed.waits,value.symm.trans ?_⟩
    change Except.ok (getBufferSize _) = .ok ((view m (elapse channel world s)).unread.length : Int)
    rw [outsideUnread outside,RingBuffer.contentsLength,RingBuffer.sizeToNat]
    rfl
  expired {waitUsec s v t} sound ran clean := by
    obtain ⟨_,ended⟩ := ran
    injection ended with value state
    subst state
    have elapsed : Elapsed m s (elapse channel world s) := elapseElapsed conveys sound.1 clean
    exact ⟨⟨elapsed.sound,elapsed.phase ▸ sound.2⟩,elapsed.waits,_,clocked s.moment,value.symm⟩
  read {size s v t} sound ran clean held := by
    obtain ⟨out,value,length,kept,outside,_,waits⟩ := readSource conveys sound.1 sound.2 ran clean held
    exact ⟨⟨kept,outside⟩,_,out.1,out.2,waits,length,rfl,value⟩
  write {b s v t} sound ran clean := by
    obtain ⟨_,ended⟩ := ran
    injection ended with value state
    dsimp only at value state
    cases taken : (world s.moment).sent with
    | accepts =>
      rw [taken] at value state
      subst state
      have before : ¬ Lossy m (elapse channel world s) := by
        rintro (overrun | overread | unsent | spoiled)
        · exact clean (.inl overrun)
        · exact clean (.inr (.inl overread))
        · exact clean (.inr (.inr (.inl unsent)))
        · exact clean (.inr (.inr (.inr (conveys.sendSpoils spoiled))))
      have elapsed : Elapsed m s (elapse channel world s) := elapseElapsed conveys sound.1 before
      obtain ⟨kept,sent⟩ := conveys.send (b := b) elapsed.sound.2 fun spoiled => before (.inr (.inr (.inr spoiled)))
      refine ⟨⟨⟨elapsed.sound.1,kept⟩,elapsed.phase ▸ sound.2⟩,_,_,elapsed.waits,?_,value.symm⟩
      unfold link view View.send
      dsimp only
      rw [sent]
    | refuses | kills =>
      rw [taken] at state
      exact absurd (.inr (.inr (.inl (state ▸ rfl)))) clean
  sender := ⟨_,rfl⟩
  scratch _ := rfl
  outside _ := rfl

end Steps

section Direct
variable (setting : Setting) (world : Nat → Moment Unit)

abbrev direct : Host (Connection Wire) := host setting (Wire.channel setting) world

def connected : Connection Wire := connectedTo ⟨[],⟨[],[],[]⟩⟩

theorem directTransmits {clock : Bool → Prop} (clocked : ∀ n, clock (world n).late) :
    (direct setting world).Transmits (link (Wire.medium setting)) setting clock := tcpTransmits (Wire.conveys setting) clocked

end Direct

end TcpDevice
end RTno2Proxy
