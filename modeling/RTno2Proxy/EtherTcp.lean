import RTno2Proxy.Packet
import RTno2Proxy.RingBuffer
import RTno2Proxy.Interleaving

/-! src/hal/EtherTcp.cpp: the thread of `svc` fills the global ring while the main thread
asks for its size and reads from it. Each call of `buffer_push`, `buffer_pop` and
`get_buffer_size` is one step, and a step of `svc` may come between any two of them. -/
namespace RTno2Proxy
namespace EtherTcp
open Interleaving (Steps Free stepsInvariant stepsMeasure)

def bufsize : Nat := 256

abbrev Buffer := RingBuffer bufsize UInt8

def bufferPush (dat : UInt8) (b : Buffer) : Buffer := b.push dat
def bufferPop (b : Buffer) : UInt8 × Buffer := b.pop
def getBufferSize (b : Buffer) : Int := b.size

/- Where the main thread is. `compare` and `fetch` stand before the two calls of
`get_buffer_size` in `read`; `dst` holds `dist_buf[0..i)`. -/
inductive Phase where
  | idle
  | compare (size : UInt8)
  | fetch (size : UInt8)
  | popping (sizeRead : UInt32) (dst : Bytes)
  | returned (retval : UInt32) (dst : Bytes)
  deriving DecidableEq

structure Tcp where
  ring : Buffer
  received : Bytes
  delivered : Bytes
  phase : Phase

def Phase.Outside : Phase → Prop
  | idle => True
  | returned _ _ => True
  | _ => False
instance (p : Phase) : Decidable p.Outside := by cases p <;> (unfold Phase.Outside; infer_instance)

inductive Event where
  | push (dat : UInt8)
  | getSizeInRxBuffer
  | read (size : UInt8)
  | step
  deriving DecidableEq

def mainStep (s : Tcp) : Option Tcp :=
  match s.phase with
  | .compare size =>
      if size.toUInt32 ≥ UInt32.ofInt (getBufferSize s.ring) then some {s with phase := .fetch size}
      else some {s with phase := .popping size.toUInt32 []}
  | .fetch _ => some {s with phase := .popping (UInt32.ofInt (getBufferSize s.ring)) []}
  | .popping sizeRead dst =>
      if dst.length < sizeRead.toNat then
        let (dat,ring) := bufferPop s.ring
        some {s with ring := ring, phase := .popping sizeRead (dst ++ [dat])}
      else some {s with delivered := s.delivered ++ dst, phase := .returned sizeRead dst}
  | _ => none

def next (s : Tcp) : Event → Option Tcp
  | .push dat => some {s with ring := bufferPush dat s.ring, received := s.received ++ [dat]}
  | .getSizeInRxBuffer => if s.phase.Outside then some s else none
  | .read size => if s.phase.Outside then some {s with phase := .compare size} else none
  | .step => mainStep s

def init : Tcp := ⟨⟨fun _ => 0,⟨0,by decide⟩,⟨0,by decide⟩⟩,[],[],.idle⟩

theorem unsignedSize (b : Buffer) : (UInt32.ofInt (getBufferSize b)).toNat = b.size.toNat := by
  have bounds := b.sizeBounds
  have small : b.size < 256 := bounds.2
  have reduced : b.size % 2 ^ 32 = b.size := Int.emod_eq_of_lt bounds.1 (by omega)
  rw [getBufferSize,UInt32.ofInt,reduced,UInt32.toNat_ofNat']
  exact Nat.mod_eq_of_lt (by omega)

inductive NextSource (s : Tcp) : Event → Tcp → Prop where
  | push {dat} : NextSource s (.push dat) {s with ring := bufferPush dat s.ring, received := s.received ++ [dat]}
  | getSizeInRxBuffer (outside : s.phase.Outside) : NextSource s .getSizeInRxBuffer s
  | read {size} (outside : s.phase.Outside) : NextSource s (.read size) {s with phase := .compare size}
  | enough {size} (here : s.phase = .compare size) (less : s.ring.size.toNat ≤ size.toNat) :
      NextSource s .step {s with phase := .fetch size}
  | plenty {size} (here : s.phase = .compare size) (more : size.toNat < s.ring.size.toNat) :
      NextSource s .step {s with phase := .popping size.toUInt32 []}
  | fetch {size} (here : s.phase = .fetch size) :
      NextSource s .step {s with phase := .popping (UInt32.ofInt (getBufferSize s.ring)) []}
  | pop {sizeRead dst} (here : s.phase = .popping sizeRead dst) (left : dst.length < sizeRead.toNat) :
      NextSource s .step {s with ring := s.ring.pop.2, phase := .popping sizeRead (dst ++ [s.ring.pop.1])}
  | leave {sizeRead dst} (here : s.phase = .popping sizeRead dst) (all : sizeRead.toNat ≤ dst.length) :
      NextSource s .step {s with delivered := s.delivered ++ dst, phase := .returned sizeRead dst}

theorem nextSource {s t : Tcp} {e : Event} (h : next s e = some t) : NextSource s e t := by
  cases e with
  | push dat =>
    cases h
    exact .push
  | getSizeInRxBuffer =>
    simp only [next,Option.ite_none_right_eq_some,Option.some.injEq] at h
    obtain ⟨outside,rfl⟩ := h
    exact .getSizeInRxBuffer outside
  | read size =>
    simp only [next,Option.ite_none_right_eq_some,Option.some.injEq] at h
    obtain ⟨outside,rfl⟩ := h
    exact .read outside
  | step =>
    simp only [next,mainStep] at h
    split at h
    · rename_i size here
      have sizes : (size.toUInt32 ≥ UInt32.ofInt (getBufferSize s.ring)) ↔ s.ring.size.toNat ≤ size.toNat := by
        rw [ge_iff_le,UInt32.le_iff_toNat_le,unsignedSize,UInt8.toNat_toUInt32]
      split at h
      · rename_i less
        cases h
        exact .enough here (sizes.mp less)
      · rename_i more
        cases h
        exact .plenty here (Nat.lt_of_not_le fun less => more (sizes.mpr less))
    · rename_i size here
      cases h
      exact .fetch here
    · rename_i sizeRead dst here
      split at h
      · rename_i left
        cases h
        exact .pop here left
      · rename_i all
        cases h
        exact .leave here (Nat.le_of_not_lt all)
    · cases h

def Roomy (s : Tcp) (e : Event) : Prop := ∀ dat, e = .push dat → getBufferSize s.ring < 255

def Phase.taken : Phase → Bytes
  | popping _ dst => dst
  | _ => []

theorem outsideTaken {p : Phase} (outside : p.Outside) : p.taken = [] := by
  cases p with
  | idle => rfl
  | returned => rfl
  | compare => contradiction
  | fetch => contradiction
  | popping => contradiction

/- The bytes on their way through the device: delivered, taken by the running `read`, still
in the ring; and the ring holds what that `read` is going to take. -/
structure Invariant (s : Tcp) : Prop where
  bytes : s.received = s.delivered ++ s.phase.taken ++ s.ring.contents
  supply : ∀ sizeRead dst, s.phase = .popping sizeRead dst →
    dst.length ≤ sizeRead.toNat ∧ sizeRead.toNat ≤ dst.length + s.ring.size.toNat

theorem invariantInit : Invariant init := ⟨rfl,fun _ _ h => by cases h⟩

theorem invariantStep {s t : Tcp} {e : Event} (inv : Invariant s) (roomy : Roomy s e) (h : next s e = some t) :
    Invariant t := by
  obtain ⟨bytes,supply⟩ := inv
  cases nextSource h with
  | @push dat =>
    have free : s.ring.size.toNat + 1 < bufsize := by
      have room : s.ring.size < 255 := roomy dat rfl
      change s.ring.size.toNat + 1 < 256
      omega
    refine ⟨?_,fun sizeRead dst here => ?_⟩
    · dsimp only
      rw [bytes,bufferPush,RingBuffer.contentsPush dat free,List.append_assoc _ _ [dat]]
    · have grown := s.ring.sizePush dat
      rw [Nat.mod_eq_of_lt free] at grown
      have := supply sizeRead dst here
      dsimp only
      rw [bufferPush,grown]
      omega
  | getSizeInRxBuffer => exact ⟨bytes,supply⟩
  | read outside =>
    exact ⟨by rw [bytes,outsideTaken outside]; rfl,fun _ _ h => by cases h⟩
  | enough here less => exact ⟨by rw [bytes,here]; rfl,fun _ _ h => by cases h⟩
  | plenty here more =>
    refine ⟨by rw [bytes,here]; rfl,fun sizeRead dst h => ?_⟩
    cases h
    rw [UInt8.toNat_toUInt32,List.length_nil]
    exact ⟨Nat.zero_le _,by dsimp only; omega⟩
  | fetch here =>
    refine ⟨by rw [bytes,here]; rfl,fun sizeRead dst h => ?_⟩
    cases h
    rw [unsignedSize,List.length_nil]
    exact ⟨Nat.zero_le _,by dsimp only; omega⟩
  | @pop sizeRead dst here left =>
    have held := supply sizeRead dst here
    have unread : 0 < s.ring.size.toNat := by omega
    refine ⟨?_,fun _ _ h => ?_⟩
    · rw [bytes,here,RingBuffer.contentsPop unread]
      simp [Phase.taken]
    · cases h
      have shrunk := RingBuffer.sizePop unread
      rw [List.length_append,List.length_singleton]
      dsimp only
      omega
  | @leave sizeRead dst here all =>
    refine ⟨?_,fun _ _ h => by cases h⟩
    rw [bytes,here]
    simp [Phase.taken]

theorem invariantRun {s t : Tcp} {events : List Event} (inv : Invariant s) (run : Steps next Roomy s events t) :
    Invariant t :=
  stepsInvariant Invariant (fun _ _ _ kept roomy taken => invariantStep kept roomy taken) inv run

structure Faithful (s : Tcp) : Prop where
  delivered : s.delivered <+: s.received
  unread : s.phase.Outside → getBufferSize s.ring = s.received.length - s.delivered.length

theorem invariantFaithful {s : Tcp} (inv : Invariant s) : Faithful s := by
  refine ⟨⟨s.phase.taken ++ s.ring.contents,by rw [inv.bytes,List.append_assoc]⟩,fun outside => ?_⟩
  have idle := outsideTaken outside
  have lengths := congrArg List.length inv.bytes
  rw [idle,List.append_nil,List.length_append,RingBuffer.contentsLength] at lengths
  have sizes := s.ring.sizeToNat
  rw [getBufferSize]
  omega

theorem noByteLost {t : Tcp} {events : List Event} (run : Steps next Roomy init events t) : Faithful t :=
  invariantFaithful (invariantRun invariantInit run)

theorem noByteLostRead : Faithful
    {init with ring := (bufferPush 7 init.ring).pop.2, received := [7], delivered := [7], phase := .returned 1 [7]} := by
  have run : Steps next Roomy init [.push 7,.getSizeInRxBuffer,.read 1,.step,.step,.step,.step]
      {init with ring := (bufferPush 7 init.ring).pop.2, received := [7], delivered := [7], phase := .returned 1 [7]} := by
    have calm {s : Tcp} {e : Event} (other : ∀ dat, e ≠ .push dat) : Roomy s e := fun dat same => absurd same (other dat)
    have first : Roomy init (.push 7) := fun _ _ => by decide
    exact .cons first rfl (.cons (calm (by simp)) rfl (.cons (calm (by simp)) rfl (.cons (calm (by simp)) rfl
      (.cons (calm (by simp)) rfl (.cons (calm (by simp)) rfl (.cons (calm (by simp)) rfl (.nil _)))))))
  exact noByteLost run

theorem pushesRun (s : Tcp) (raw : Bytes) : ∃ t, Steps next Free s (raw.map Event.push) t ∧
    t.received = s.received ++ raw ∧ t.delivered = s.delivered ∧ t.phase = s.phase ∧
    t.ring.size.toNat = (s.ring.size.toNat + raw.length) % bufsize := by
  induction raw generalizing s with
  | nil => exact ⟨s,.nil s,by simp,rfl,rfl,(Nat.mod_eq_of_lt s.ring.sizeLt).symm⟩
  | cons dat rest ih =>
    obtain ⟨t,run,received,delivered,phase,size⟩ :=
      ih {s with ring := bufferPush dat s.ring, received := s.received ++ [dat]}
    refine ⟨t,.cons trivial rfl run,by rw [received,List.append_assoc]; rfl,delivered,phase,?_⟩
    rw [size,bufferPush,RingBuffer.sizePush,Nat.mod_add_mod,List.length_cons,Nat.add_assoc,Nat.add_comm 1]

theorem overrun : ∃ t, Steps next Free init ((List.replicate 256 0).map Event.push) t ∧ t.received.length = 256 ∧
    t.delivered = [] ∧ t.phase = .idle ∧ getBufferSize t.ring = 0 ∧ ¬ Faithful t := by
  obtain ⟨t,run,received,delivered,phase,size⟩ := pushesRun init (List.replicate 256 0)
  have count : t.received.length = 256 := by
    rw [received,List.length_append,List.length_replicate]
    rfl
  have zero : getBufferSize t.ring = 0 := by
    have sizes := t.ring.sizeToNat
    rw [size,List.length_replicate] at sizes
    exact sizes.symm
  refine ⟨t,run,count,delivered,phase,zero,fun faithful => ?_⟩
  have unread := faithful.unread (by rw [phase]; trivial)
  rw [zero,count,delivered] at unread
  contradiction

def lead : List Event → Nat
  | .push _ :: rest => lead rest + 1
  | _ => 0

def afterLead : List Event → List Event
  | .push _ :: rest => afterLead rest
  | _ :: rest => rest
  | [] => []

def InsideCall (_ : Tcp) (e : Event) : Prop := e = .step ∨ ∃ dat, e = .push dat

theorem insideSource {s u : Tcp} {e : Event} (inside : InsideCall s e) (taken : next s e = some u) :
    (∃ dat, e = .push dat ∧ u = {s with ring := bufferPush dat s.ring, received := s.received ++ [dat]}) ∨
      e = .step ∧ mainStep s = some u := by
  rcases inside with rfl | ⟨dat,rfl⟩
  · exact .inr ⟨rfl,taken⟩
  · cases taken
    exact .inl ⟨dat,rfl,rfl⟩

theorem returnedRun {s t : Tcp} {events : List Event} {retval : UInt32} {dst : Bytes}
    (run : Steps next InsideCall s events t) (here : s.phase = .returned retval dst) :
    t.phase = .returned retval dst := by
  refine stepsInvariant (fun s => s.phase = .returned retval dst) (fun s e t here inside taken => ?_) here run
  rcases insideSource inside taken with ⟨_,_,rfl⟩ | ⟨_,stepped⟩
  · exact here
  · simp only [mainStep,here] at stepped
    cases stepped

theorem poppingRun {s t : Tcp} {events : List Event} {sizeRead retval : UInt32} {start dst : Bytes}
    (run : Steps next InsideCall s events t) (here : s.phase = .popping sizeRead start)
    (bound : start.length ≤ sizeRead.toNat) (ended : t.phase = .returned retval dst) :
    retval = sizeRead ∧ dst.length = sizeRead.toNat := by
  induction run generalizing start with
  | nil =>
    rw [here] at ended
    cases ended
  | cons inside taken later ih =>
    rcases insideSource inside taken with ⟨_,_,rfl⟩ | ⟨_,stepped⟩
    · exact ih here bound ended
    · simp only [mainStep,here] at stepped
      split at stepped
      · cases stepped
        exact ih rfl (by rw [List.length_append,List.length_singleton]; omega) ended
      · cases stepped
        have last := returnedRun later rfl
        rw [ended] at last
        cases last
        exact ⟨rfl,by omega⟩

def Tcp.unread (s : Tcp) (k : Nat) : Nat := (s.ring.size.toNat + k) % bufsize

theorem unreadPush (s : Tcp) (dat : UInt8) (k : Nat) :
    Tcp.unread {s with ring := bufferPush dat s.ring, received := s.received ++ [dat]} k = s.unread (k + 1) := by
  unfold Tcp.unread
  rw [bufferPush,RingBuffer.sizePush,Nat.mod_add_mod,Nat.add_assoc,Nat.add_comm 1]

theorem unreadNow (s : Tcp) : s.unread 0 = s.ring.size.toNat := Nat.mod_eq_of_lt s.ring.sizeLt

theorem fetchRun {s t : Tcp} {events : List Event} {size : UInt8} {retval : UInt32} {dst : Bytes}
    (run : Steps next InsideCall s events t) (here : s.phase = .fetch size) (ended : t.phase = .returned retval dst) :
    retval.toNat = dst.length ∧ dst.length = s.unread (lead events) := by
  induction run with
  | nil =>
    rw [here] at ended
    cases ended
  | @cons s u t e rest inside taken later ih =>
    rcases insideSource inside taken with ⟨dat,rfl,rfl⟩ | ⟨rfl,stepped⟩
    · obtain ⟨ret,length⟩ := ih here ended
      refine ⟨ret,?_⟩
      rw [length,unreadPush]
      rfl
    · simp only [mainStep,here] at stepped
      cases stepped
      obtain ⟨rfl,length⟩ := poppingRun later rfl (Nat.zero_le _) ended
      have alone : lead (Event.step :: rest) = 0 := rfl
      refine ⟨length.symm,?_⟩
      rw [length,unsignedSize,alone,unreadNow]

theorem compareRun {s t : Tcp} {events : List Event} {size : UInt8} {retval : UInt32} {dst : Bytes}
    (run : Steps next InsideCall s events t) (here : s.phase = .compare size) (ended : t.phase = .returned retval dst) :
    retval.toNat = dst.length ∧ dst.length =
      if s.unread (lead events) ≤ size.toNat then s.unread (lead events + lead (afterLead events)) else size.toNat := by
  induction run with
  | nil =>
    rw [here] at ended
    cases ended
  | @cons s u t e rest inside taken later ih =>
    rcases insideSource inside taken with ⟨dat,rfl,rfl⟩ | ⟨rfl,stepped⟩
    · obtain ⟨ret,length⟩ := ih here ended
      have more : lead (.push dat :: rest) = lead rest + 1 := rfl
      have same : afterLead (.push dat :: rest) = afterLead rest := rfl
      refine ⟨ret,?_⟩
      rw [length,unreadPush,unreadPush,more,same,Nat.add_right_comm]
    · have alone : lead (.step :: rest) = 0 := rfl
      have same : afterLead (.step :: rest) = rest := rfl
      rw [alone,same,unreadNow,Nat.zero_add]
      cases nextSource taken with
      | @enough size' here' less =>
        rw [here] at here'
        cases here'
        rw [if_pos less]
        exact fetchRun (s := {s with phase := .fetch size}) later rfl ended
      | @plenty size' here' more =>
        rw [here] at here'
        cases here'
        obtain ⟨rfl,length⟩ := poppingRun later rfl (Nat.zero_le _) ended
        rw [if_neg (Nat.not_le_of_lt more)]
        exact ⟨length.symm,length⟩
      | fetch here' => rw [here] at here'; cases here'
      | pop here' _ => rw [here] at here'; cases here'
      | leave here' _ => rw [here] at here'; cases here'

def Phase.left : Phase → Nat
  | idle => 0
  | compare _ => 258
  | fetch _ => 257
  | popping sizeRead dst => sizeRead.toNat - dst.length + 1
  | returned _ _ => 0

theorem leftStep {s t : Tcp} (stepped : mainStep s = some t) : t.phase.left < s.phase.left := by
  cases nextSource (e := .step) stepped with
  | enough here less =>
    rw [here]
    exact Nat.lt_succ_self 257
  | @plenty size here more =>
    have small := size.toNat_lt
    rw [here]
    simp only [Phase.left,UInt8.toNat_toUInt32,List.length_nil]
    omega
  | fetch here =>
    have small : s.ring.size.toNat < 256 := s.ring.sizeLt
    rw [here]
    simp only [Phase.left,unsignedSize,List.length_nil]
    omega
  | pop here more =>
    rw [here]
    simp only [Phase.left,List.length_append,List.length_singleton]
    omega
  | leave here all =>
    rw [here]
    exact Nat.succ_pos _

theorem leftRun {s t : Tcp} {events : List Event} (run : Steps next InsideCall s events t) :
    events.count .step + t.phase.left ≤ s.phase.left := by
  apply stepsMeasure (· == Event.step) (fun _ => True) (fun s => s.phase.left) (fun _ _ _ _ _ _ => trivial) _ _ trivial run
  · intro s e t mover _ _ stepped
    obtain rfl := eq_of_beq mover
    exact leftStep stepped
  · intro s e t other _ inside taken
    have other := ne_of_beq_false other
    rcases insideSource inside taken with ⟨dat,_,rfl⟩ | ⟨same,_⟩
    · exact Nat.le_refl _
    · contradiction

theorem insideRun {s t : Tcp} {events : List Event} (inside : s.phase ≠ .idle)
    (run : Steps next InsideCall s events t) : t.phase ≠ .idle := by
  refine stepsInvariant (fun s => s.phase ≠ .idle) (fun s e t inside _ taken => ?_) inside run
  cases nextSource taken with
  | push => exact inside
  | getSizeInRxBuffer => exact inside
  | _ => simp

theorem readReturns {s t : Tcp} {events : List Event} {size : UInt8} (called : s.phase = .compare size)
    (run : Steps next InsideCall s events t) :
    events.count .step ≤ 258 ∧ ((∃ retval dst, t.phase = .returned retval dst) ∨ (next t .step).isSome) := by
  have spent := leftRun run
  have inside := insideRun (by rw [called]; simp) run
  rw [called] at spent
  refine ⟨Nat.le_trans (Nat.le_add_right _ _) spent,?_⟩
  simp only [next,mainStep]
  cases phase : t.phase with
  | idle => exact absurd phase inside
  | returned retval dst => exact .inl ⟨retval,dst,rfl⟩
  | compare size =>
    right
    dsimp only
    split <;> rfl
  | fetch size => exact .inr rfl
  | popping sizeRead dst =>
    right
    dsimp only
    split <;> rfl

structure WithinSize (size : UInt8) (retval : UInt32) (dst : Bytes) : Prop where
  popped : dst.length ≤ size.toNat
  counted : retval.toNat = dst.length

theorem readWithinSize {s t : Tcp} {events : List Event} {size : UInt8} {retval : UInt32} {dst : Bytes}
    (called : s.phase = .compare size) (run : Steps next InsideCall s events t) (ended : t.phase = .returned retval dst) :
    WithinSize size retval dst ↔ ¬ (s.unread (lead events) ≤ size.toNat ∧
      size.toNat < s.unread (lead events + lead (afterLead events))) := by
  obtain ⟨counted,length⟩ := compareRun run called ended
  constructor
  · intro ⟨popped,_⟩ ⟨less,more⟩
    rw [if_pos less] at length
    omega
  · intro apart
    refine ⟨?_,counted⟩
    split at length
    · rename_i less
      have bound := Nat.le_of_not_lt fun more => apart ⟨less,more⟩
      omega
    · omega

def oneUnread : Tcp := {init with ring := bufferPush 7 init.ring, received := [7], phase := .compare 1}

theorem readWithinSizeOne : WithinSize 1 1 [7] := by
  have run : Steps next InsideCall oneUnread [.step,.step,.step,.step]
      {oneUnread with ring := oneUnread.ring.pop.2, delivered := [7], phase := .returned 1 [7]} :=
    .cons (.inl rfl) rfl (.cons (.inl rfl) rfl (.cons (.inl rfl) rfl (.cons (.inl rfl) rfl (.nil _))))
  exact (readWithinSize rfl run rfl).mpr (by decide)

theorem readBeyondSize : ∃ s t, Steps next Free init [.push 7,.read 1] s ∧ s.phase = .compare 1 ∧
    Steps next InsideCall s [.step,.push 8,.step,.step,.step,.step] t ∧ t.phase = .returned 2 [7,8] ∧
    ¬ WithinSize 1 2 [7,8] := by
  refine ⟨oneUnread,_,.cons trivial rfl (.cons trivial rfl (.nil _)),rfl,
    .cons (.inl rfl) rfl (.cons (.inr ⟨8,rfl⟩) rfl (.cons (.inl rfl) rfl (.cons (.inl rfl) rfl
      (.cons (.inl rfl) rfl (.cons (.inl rfl) rfl (.nil _)))))),rfl,fun within => ?_⟩
  have popped := within.popped
  contradiction

end EtherTcp
end RTno2Proxy
