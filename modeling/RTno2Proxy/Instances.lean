import RTno2Proxy.EtherTcp

/-! src/hal/EtherTcp.cpp with several devices: each has a socket and a thread of `svc`, and all of
them share the one ring. The main thread opens, reads and closes them; what its destructors do to
the process is left aside, a device that has been closed just receives no more. -/
namespace RTno2Proxy
namespace Instances
open Interleaving (Steps Free stepsExact stepsFree)
open EtherTcp (Buffer bufsize getBufferSize unsignedSize)

structure Cell where
  dat : UInt8
  origin : Option Nat
  deriving DecidableEq

inductive Phase where
  | idle
  | compare (size : UInt8)
  | fetch (size : UInt8)
  | popping (sizeRead : UInt32) (dst : List Cell)
  | returned (retval : UInt32) (dst : List Cell)

def Phase.Outside : Phase → Prop
  | idle => True
  | returned _ _ => True
  | _ => False
instance (p : Phase) : Decidable p.Outside := by cases p <;> (unfold Phase.Outside; infer_instance)

/- Instances are numbered as they are constructed. `reader` is the one `read` was last called on, and
`delivered` has each byte that a `read` returned with the instance it was called on. -/
structure Devices where
  ring : RingBuffer bufsize Cell
  constructed : Nat
  live : List Nat
  reader : Nat
  phase : Phase
  received : List Cell
  delivered : List (Nat × Cell)

def Devices.buffer (s : Devices) : Buffer := s.ring.map Cell.dat

inductive Event where
  | construct
  | destroy (i : Nat)
  | push (i : Nat) (dat : UInt8)
  | getSizeInRxBuffer (i : Nat)
  | read (i : Nat) (size : UInt8)
  | step

def mainStep (s : Devices) : Option Devices :=
  match s.phase with
  | .compare size =>
      if size.toUInt32 ≥ UInt32.ofInt (getBufferSize s.buffer) then some {s with phase := .fetch size}
      else some {s with phase := .popping size.toUInt32 []}
  | .fetch _ => some {s with phase := .popping (UInt32.ofInt (getBufferSize s.buffer)) []}
  | .popping sizeRead dst =>
      if dst.length < sizeRead.toNat then
        let (cell,ring) := s.ring.pop
        some {s with ring := ring, phase := .popping sizeRead (dst ++ [cell])}
      else some {s with delivered := s.delivered ++ dst.map fun cell => (s.reader,cell), phase := .returned sizeRead dst}
  | _ => none

def next (s : Devices) : Event → Option Devices
  | .construct =>
      if s.phase.Outside then some {s with constructed := s.constructed + 1, live := s.constructed :: s.live} else none
  | .destroy i => if s.phase.Outside ∧ i ∈ s.live then some {s with live := s.live.erase i} else none
  | .push i dat =>
      if i ∈ s.live then some {s with ring := s.ring.push ⟨dat,some i⟩, received := s.received ++ [⟨dat,some i⟩]}
      else none
  | .getSizeInRxBuffer i => if s.phase.Outside ∧ i ∈ s.live then some s else none
  | .read i size => if s.phase.Outside ∧ i ∈ s.live then some {s with reader := i, phase := .compare size} else none
  | .step => mainStep s

def init : Devices :=
  ⟨⟨fun _ => ⟨0,none⟩,EtherTcp.init.ring.start,EtherTcp.init.ring.stop⟩,0,[],0,.idle,[],[]⟩

def Phase.erase : Phase → EtherTcp.Phase
  | idle => .idle
  | compare size => .compare size
  | fetch size => .fetch size
  | popping sizeRead dst => .popping sizeRead (dst.map Cell.dat)
  | returned retval dst => .returned retval (dst.map Cell.dat)

def Devices.erase (s : Devices) : EtherTcp.Tcp where
  ring := s.buffer
  received := s.received.map Cell.dat
  delivered := s.delivered.map fun x => x.2.dat
  phase := s.phase.erase

def Event.erase : Event → Option EtherTcp.Event
  | push _ dat => some (.push dat)
  | getSizeInRxBuffer _ => some .getSizeInRxBuffer
  | read _ size => some (.read size)
  | step => some .step
  | _ => none

theorem eraseOutside {p : Phase} (outside : p.Outside) : p.erase.Outside := by
  cases p with
  | idle => trivial
  | returned retval dst => trivial
  | _ => exact outside.elim

inductive NextSource (s : Devices) : Event → Devices → Prop where
  | construct (outside : s.phase.Outside) :
      NextSource s .construct {s with constructed := s.constructed + 1, live := s.constructed :: s.live}
  | destroy {i} (outside : s.phase.Outside) (live : i ∈ s.live) : NextSource s (.destroy i) {s with live := s.live.erase i}
  | push {i dat} (live : i ∈ s.live) :
      NextSource s (.push i dat) {s with ring := s.ring.push ⟨dat,some i⟩, received := s.received ++ [⟨dat,some i⟩]}
  | getSizeInRxBuffer {i} (outside : s.phase.Outside) (live : i ∈ s.live) : NextSource s (.getSizeInRxBuffer i) s
  | read {i size} (outside : s.phase.Outside) (live : i ∈ s.live) :
      NextSource s (.read i size) {s with reader := i, phase := .compare size}
  | enough {size} (here : s.phase = .compare size) : NextSource s .step {s with phase := .fetch size}
  | plenty {size} (here : s.phase = .compare size) (more : size.toNat < s.ring.size.toNat) :
      NextSource s .step {s with phase := .popping size.toUInt32 []}
  | fetch {size} (here : s.phase = .fetch size) :
      NextSource s .step {s with phase := .popping (UInt32.ofInt (getBufferSize s.buffer)) []}
  | pop {sizeRead dst} (here : s.phase = .popping sizeRead dst) (left : dst.length < sizeRead.toNat) :
      NextSource s .step {s with ring := s.ring.pop.2, phase := .popping sizeRead (dst ++ [s.ring.pop.1])}
  | leave {sizeRead dst} (here : s.phase = .popping sizeRead dst) : NextSource s .step
      {s with delivered := s.delivered ++ dst.map (fun cell => (s.reader,cell)), phase := .returned sizeRead dst}

theorem nextSource {s t : Devices} {e : Event} (h : next s e = some t) : NextSource s e t := by
  cases e with
  | construct =>
    simp only [next,Option.ite_none_right_eq_some,Option.some.injEq] at h
    obtain ⟨outside,rfl⟩ := h
    exact .construct outside
  | destroy i =>
    simp only [next,Option.ite_none_right_eq_some,Option.some.injEq] at h
    obtain ⟨⟨outside,live⟩,rfl⟩ := h
    exact .destroy outside live
  | push i dat =>
    simp only [next,Option.ite_none_right_eq_some,Option.some.injEq] at h
    obtain ⟨live,rfl⟩ := h
    exact .push live
  | getSizeInRxBuffer i =>
    simp only [next,Option.ite_none_right_eq_some,Option.some.injEq] at h
    obtain ⟨⟨outside,live⟩,rfl⟩ := h
    exact .getSizeInRxBuffer outside live
  | read i size =>
    simp only [next,Option.ite_none_right_eq_some,Option.some.injEq] at h
    obtain ⟨⟨outside,live⟩,rfl⟩ := h
    exact .read outside live
  | step =>
    simp only [next,mainStep] at h
    split at h
    · rename_i size here
      split at h
      · cases h
        exact .enough here
      · rename_i more
        cases h
        refine .plenty here (Nat.lt_of_not_le fun less => more ?_)
        rw [ge_iff_le,UInt32.le_iff_toNat_le,unsignedSize,UInt8.toNat_toUInt32]
        exact less
    · rename_i size here
      cases h
      exact .fetch here
    · rename_i sizeRead dst here
      split at h
      · rename_i left
        cases h
        exact .pop here left
      · cases h
        exact .leave here
    · cases h

theorem eraseStep {s t : Devices} (h : mainStep s = some t) : EtherTcp.mainStep s.erase = some t.erase := by
  unfold mainStep at h
  unfold EtherTcp.mainStep
  cases here : s.phase with
  | idle =>
    rw [here] at h
    cases h
  | returned retval dst =>
    rw [here] at h
    cases h
  | compare size =>
    rw [here] at h
    dsimp only at h
    simp only [Devices.erase,here,Phase.erase]
    split at h
    · rename_i less
      cases h
      exact if_pos less
    · rename_i more
      cases h
      exact if_neg more
  | fetch size =>
    rw [here] at h
    cases h
    simp only [Devices.erase,here,Phase.erase]
    rfl
  | popping sizeRead dst =>
    rw [here] at h
    dsimp only at h
    simp only [Devices.erase,here,Phase.erase,List.length_map]
    split at h
    · rename_i left
      cases h
      rw [if_pos left]
      simp [EtherTcp.bufferPop,Devices.buffer,RingBuffer.mapPop]
    · rename_i all
      cases h
      rw [if_neg all]
      simp [Devices.buffer]

theorem eraseNext {s t : Devices} {e : Event} (h : next s e = some t) :
    (∀ e', e.erase = some e' → EtherTcp.next s.erase e' = some t.erase) ∧ (e.erase = none → t.erase = s.erase) := by
  cases e with
  | step =>
    refine ⟨?_,fun same => by cases same⟩
    rintro _ ⟨⟩
    exact eraseStep h
  | construct =>
    cases nextSource h
    exact ⟨fun _ same => (Option.some_ne_none _ same.symm).elim,fun _ => rfl⟩
  | destroy i =>
    cases nextSource h
    exact ⟨fun _ same => (Option.some_ne_none _ same.symm).elim,fun _ => rfl⟩
  | push i dat =>
    cases nextSource h
    refine ⟨?_,fun same => by cases same⟩
    rintro _ ⟨⟩
    have pushed := RingBuffer.mapPush Cell.dat s.ring ⟨dat,some i⟩
    simp only [EtherTcp.next,EtherTcp.bufferPush,Devices.erase,Devices.buffer,← pushed,List.map_append]
    rfl
  | getSizeInRxBuffer i =>
    cases nextSource h with
    | getSizeInRxBuffer outside _ =>
      refine ⟨?_,fun same => by cases same⟩
      rintro _ ⟨⟩
      exact if_pos (eraseOutside outside)
  | read i size =>
    cases nextSource h with
    | read outside _ =>
      refine ⟨?_,fun same => by cases same⟩
      rintro _ ⟨⟩
      exact if_pos (eraseOutside outside)

theorem eraseRun {s t : Devices} {events : List Event} (run : Steps next Free s events t) :
    Steps EtherTcp.next Free s.erase (events.filterMap Event.erase) t.erase := by
  induction run with
  | nil s => exact .nil s.erase
  | @cons s u t e rest _ taken later ih =>
    obtain ⟨moves,rests⟩ := eraseNext taken
    cases erased : e.erase with
    | none =>
      rw [List.filterMap_cons_none erased,← rests erased]
      exact ih
    | some e' =>
      rw [List.filterMap_cons_some erased]
      exact .cons trivial (moves e' erased) ih

example : init.erase = EtherTcp.init := rfl

structure Own (s : Devices) : Prop where
  delivered : ∀ x ∈ s.delivered, x.2.origin = some x.1
  counted : ∀ i ∈ s.live, s.ring.size = s.ring.contents.length ∧ ∀ cell ∈ s.ring.contents, cell.origin = some i

def Apart (s : Devices) : Event → Prop
  | .construct => getBufferSize s.buffer = 0
  | .push i _ => ∀ j ∈ s.live, j = i
  | _ => True

def Phase.taken : Phase → List Cell
  | popping _ dst => dst
  | _ => []

def Phase.Taking : Phase → Nat → Prop
  | popping sizeRead dst, unread => dst.length ≤ sizeRead.toNat ∧ sizeRead.toNat ≤ dst.length + unread
  | _, _ => True

def OfAll (live : List Nat) (cell : Cell) : Prop := ∀ i ∈ live, cell.origin = some i

structure Invariant (s : Devices) : Prop where
  unread : ∃ k, s.ring.Held k (OfAll s.live) ∧ s.phase.Taking k
  reader : s.phase.Outside ∨ s.reader ∈ s.live
  taken : ∀ cell ∈ s.phase.taken, cell.origin = some s.reader
  delivered : ∀ x ∈ s.delivered, x.2.origin = some x.1
  numbered : (∀ i ∈ s.live, i < s.constructed) ∧ ∀ j i, (s.ring.cells j).origin = some i → i < s.constructed

theorem outsideTaking {p : Phase} (outside : p.Outside) (k : Nat) : p.Taking k := by
  cases p with
  | idle => trivial
  | returned retval dst => trivial
  | _ => exact outside.elim

theorem outsideTaken {p : Phase} (outside : p.Outside) : p.taken = [] := by
  cases p with
  | idle => rfl
  | returned retval dst => rfl
  | _ => exact outside.elim

theorem invariantInit : Invariant init where
  unread := ⟨0,RingBuffer.heldNone rfl,trivial⟩
  reader := .inl trivial
  taken _ inside := by cases inside
  delivered _ inside := by cases inside
  numbered := ⟨fun _ inside => absurd inside List.not_mem_nil,fun _ _ same => (Option.some_ne_none _ same.symm).elim⟩

theorem invariantOwn {s : Devices} (inv : Invariant s) : Own s where
  delivered := inv.delivered
  counted i live := by
    obtain ⟨k,held,_⟩ := inv.unread
    refine ⟨?_,fun cell inside => RingBuffer.heldContents held inside i live⟩
    rw [RingBuffer.contentsLength,RingBuffer.sizeToNat]

theorem heldApart {r : RingBuffer bufsize Cell} {k i j : Nat} {live : List Nat} (held : r.Held k (OfAll live))
    (first : i ∈ live) (second : j ∈ live) (apart : j ≠ i) : r.size.toNat = 0 := by
  cases k with
  | zero => rw [RingBuffer.heldSize held,Nat.zero_mod]
  | succ k =>
    have oldest := held.all 0 (Nat.succ_pos k)
    have same := (oldest i first).symm.trans (oldest j second)
    exact absurd (Option.some.inj same).symm apart

theorem pushedNumbered {s : Devices} {i : Nat} {dat : UInt8} (inv : Invariant s) (live : i ∈ s.live) :
    ∀ j k, ((s.ring.push ⟨dat,some i⟩).cells j).origin = some k → k < s.constructed := by
  intro j k same
  change (Function.update s.ring.cells s.ring.stop _ j).origin = some k at same
  by_cases here : j = s.ring.stop
  · rw [here,Function.update_self] at same
    cases same
    exact inv.numbered.1 i live
  · rw [Function.update_of_ne here] at same
    exact inv.numbered.2 j k same

theorem invariantStep {s t : Devices} {e : Event} (inv : Invariant s) (apart : Apart s e) (taken : next s e = some t) :
    Invariant t := by
  have source := nextSource taken
  obtain ⟨⟨k,held,supply⟩,reader,own,delivered,numbered⟩ := id inv
  have nothing (i : Nat) : ∀ cell ∈ ([] : List Cell), cell.origin = some i := fun _ inside => absurd inside List.not_mem_nil
  cases source with
  | construct outside =>
    have unread : s.ring.size.toNat = 0 := by
      have empty : s.ring.size = 0 := apart
      rw [empty]
      rfl
    refine ⟨⟨0,RingBuffer.heldNone unread,outsideTaking outside 0⟩,.inl outside,own,delivered,?_,?_⟩
    · intro i inside
      obtain rfl | earlier := List.mem_cons.mp inside
      · exact Nat.lt_succ_self _
      · exact Nat.lt_succ_of_lt (numbered.1 i earlier)
    · exact fun j i same => Nat.lt_succ_of_lt (numbered.2 j i same)
  | @destroy i outside live =>
    have fewer : s.ring.Held k (OfAll (s.live.erase i)) :=
      RingBuffer.heldWeaken (fun _ all j inside => all j (List.mem_of_mem_erase inside)) held
    refine ⟨⟨k,fewer,supply⟩,.inl outside,own,delivered,fun j inside => ?_,numbered.2⟩
    exact numbered.1 j (List.mem_of_mem_erase inside)
  | @push i dat live =>
    have pushed := RingBuffer.heldPush (x := ⟨dat,some i⟩) held fun j inside => by rw [apart j inside]
    refine ⟨⟨k + 1,pushed,?_⟩,reader,own,delivered,numbered.1,pushedNumbered inv live⟩
    dsimp only
    cases here : s.phase with
    | popping sizeRead dst =>
      rw [here] at supply
      exact ⟨supply.1,Nat.le_succ_of_le supply.2⟩
    | _ => trivial
  | getSizeInRxBuffer _ _ => exact inv
  | read outside live =>
    exact ⟨⟨k,held,trivial⟩,.inr live,nothing _,delivered,numbered⟩
  | enough here =>
    rw [here] at reader
    exact ⟨⟨k,held,trivial⟩,.inr (reader.resolve_left id),nothing _,delivered,numbered⟩
  | plenty here more =>
    rw [here] at reader
    refine ⟨⟨k,held,Nat.zero_le _,?_⟩,.inr (reader.resolve_left id),nothing _,delivered,numbered⟩
    rw [RingBuffer.heldSize held] at more
    have bound := Nat.mod_le k bufsize
    rw [UInt8.toNat_toUInt32,List.length_nil]
    omega
  | fetch here =>
    rw [here] at reader
    refine ⟨⟨k,held,Nat.zero_le _,?_⟩,.inr (reader.resolve_left id),nothing _,delivered,numbered⟩
    have size : s.ring.size.toNat = k % bufsize := RingBuffer.heldSize held
    rw [unsignedSize,List.length_nil,Nat.zero_add,Devices.buffer,RingBuffer.mapSize,size]
    exact Nat.mod_le k bufsize
  | @pop sizeRead dst here left =>
    rw [here] at reader own supply
    have live := reader.resolve_left id
    obtain ⟨unread,rfl⟩ : ∃ unread, k = unread + 1 := ⟨k - 1,by have := supply.2; omega⟩
    obtain ⟨first,rest⟩ := RingBuffer.heldPop held
    refine ⟨⟨unread,rest,?_⟩,.inr live,fun cell inside => ?_,delivered,numbered⟩
    · have total := supply.2
      dsimp only [Phase.Taking]
      rw [List.length_append,List.length_singleton]
      omega
    · obtain earlier | last := List.mem_append.mp inside
      · exact own cell earlier
      · rw [List.mem_singleton.mp last]
        exact first s.reader live
  | @leave sizeRead dst here =>
    rw [here] at own
    refine ⟨⟨k,held,trivial⟩,.inl trivial,nothing _,fun x inside => ?_,numbered⟩
    obtain earlier | last := List.mem_append.mp inside
    · exact delivered x earlier
    · obtain ⟨cell,member,rfl⟩ := List.mem_map.mp last
      exact own cell member

/- An instance that is opened beside unread bytes counts them, and a byte that comes while two are
open is counted by both. -/
theorem sharedCounted {s t : Devices} {e : Event} (inv : Invariant s) (taken : next s e = some t) (own : Own t) :
    Apart s e := by
  have source := nextSource taken
  cases source with
  | construct outside =>
    have counted := own.counted s.constructed List.mem_cons_self
    cases bytes : s.ring.contents with
    | nil =>
      have unread := counted.1
      dsimp only at unread
      rw [bytes] at unread
      exact unread
    | cons cell rest =>
      have inside : cell ∈ s.ring.contents := by
        rw [bytes]
        exact List.mem_cons_self
      obtain ⟨j,_,rfl⟩ := RingBuffer.memWalk inside
      exact absurd (inv.numbered.2 _ _ (counted.2 _ inside)) (Nat.lt_irrefl _)
  | @push i dat live =>
    intro j second
    by_contra apart
    obtain ⟨k,held,_⟩ := inv.unread
    have empty := heldApart held live second apart
    have grown := RingBuffer.contentsPush (r := s.ring) ⟨dat,some i⟩ (by rw [empty]; decide)
    have counted := (own.counted j second).2 ⟨dat,some i⟩ (by
      dsimp only
      rw [grown]
      exact List.mem_append_right _ (List.mem_singleton_self _))
    exact apart (Option.some.inj counted).symm
  | _ => trivial

theorem bytesOwned {events : List Event} {t : Devices} (run : Steps next Free init events t) :
    (∀ left right u, events = left ++ right → Steps next Free init left u → Own u) ↔ Steps next Apart init events t :=
  stepsExact Invariant Own (fun _ => invariantOwn) (fun _ _ _ => invariantStep) (fun _ _ _ => sharedCounted)
    invariantInit run

theorem bytesOwnedReopened : ∃ t, Steps next Apart init [.construct,.push 0 7,.getSizeInRxBuffer 0,.read 0 1,.step,.step,
    .step,.step,.destroy 0,.construct,.push 1 8] t ∧ t.delivered = [(0,⟨7,some 0⟩)] ∧ t.live = [1] ∧
    getBufferSize t.buffer = 1 ∧ Own t := by
  have run : ∃ t, Steps next Apart init [.construct,.push 0 7,.getSizeInRxBuffer 0,.read 0 1,.step,.step,
      .step,.step,.destroy 0,.construct,.push 1 8] t ∧ t.delivered = [(0,⟨7,some 0⟩)] ∧ t.live = [1] ∧
      getBufferSize t.buffer = 1 :=
    ⟨_,.cons rfl rfl (.cons (fun _ => List.mem_singleton.mp) rfl (.cons trivial rfl (.cons trivial rfl
      (.cons trivial rfl (.cons trivial rfl (.cons trivial rfl (.cons trivial rfl (.cons trivial rfl (.cons rfl rfl
      (.cons (fun _ => List.mem_singleton.mp) rfl (.nil _))))))))))),rfl,rfl,rfl⟩
  obtain ⟨t,run,delivered,live,size⟩ := run
  have whole := stepsFree run
  exact ⟨t,run,delivered,live,size,(bytesOwned whole).mpr run _ [] t (List.append_nil _).symm whole⟩

theorem bytesShared :
    (∃ t, Steps next Free init [.construct,.push 0 7,.construct,.getSizeInRxBuffer 1,.read 1 1,.step,.step,.step,.step] t ∧
      t.delivered = [(1,⟨7,some 0⟩)] ∧ ¬ Own t) ∧
    ∃ t, Steps next Free init [.construct,.push 0 7,.destroy 0,.construct] t ∧ t.live = [1] ∧
      getBufferSize t.buffer = 1 ∧ t.ring.contents = [⟨7,some 0⟩] ∧ ¬ Own t := by
  constructor
  · refine ⟨_,.cons trivial rfl (.cons trivial rfl (.cons trivial rfl (.cons trivial rfl (.cons trivial rfl
      (.cons trivial rfl (.cons trivial rfl (.cons trivial rfl (.cons trivial rfl (.nil _))))))))),rfl,fun own => ?_⟩
    have origin := own.delivered (1,⟨7,some 0⟩) List.mem_cons_self
    contradiction
  · refine ⟨_,.cons trivial rfl (.cons trivial rfl (.cons trivial rfl (.cons trivial rfl (.nil _)))),rfl,rfl,rfl,
      fun own => ?_⟩
    have origin := (own.counted 1 List.mem_cons_self).2 ⟨7,some 0⟩ List.mem_cons_self
    contradiction

end Instances
end RTno2Proxy
