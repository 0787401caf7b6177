import Mathlib.Data.Fin.Basic
import Mathlib.Logic.Function.Basic
import Mathlib.Logic.Function.Iterate
import Mathlib.Data.Nat.ModEq

/-! Circular buffers of `n` cells with two indexes and no counter. The number of
unread elements is the distance of the indexes, so at most `n - 1` of them can be
told apart from none; up to that bound the buffer is a queue. -/

structure RingBuffer (n : Nat) (α : Type) where
  cells : Fin n → α
  start : Fin n
  stop : Fin n

namespace RingBuffer
variable {n : Nat} {α : Type}

def advance (i : Fin n) : Fin n := if h : i.val + 1 < n then ⟨i.val + 1,h⟩ else ⟨0,i.pos⟩

def push (r : RingBuffer n α) (x : α) : RingBuffer n α :=
  {r with cells := Function.update r.cells r.stop x, stop := advance r.stop}

def pop (r : RingBuffer n α) : α × RingBuffer n α := (r.cells r.start,{r with start := advance r.start})

def size (r : RingBuffer n α) : Int :=
  let distance : Int := r.stop.val - r.start.val
  if distance < 0 then distance + n else distance

def walk (cells : Fin n → α) : Fin n → Nat → List α
  | _, 0 => []
  | i, k + 1 => cells i :: walk cells (advance i) k

def contents (r : RingBuffer n α) : List α := walk r.cells r.start r.size.toNat

theorem advanceVal (i : Fin n) : (advance i).val = (i.val + 1) % n := by
  have := i.isLt
  unfold advance
  split
  · rename_i inside
    exact (Nat.mod_eq_of_lt inside).symm
  · have last : i.val + 1 = n := by omega
    rw [last,Nat.mod_self]

theorem advanceIterate (i : Fin n) (k : Nat) : (advance^[k] i).val = (i.val + k) % n := by
  induction k with
  | zero => exact (Nat.mod_eq_of_lt i.isLt).symm
  | succ k ih => rw [Function.iterate_succ_apply',advanceVal,ih,Nat.mod_add_mod,Nat.add_assoc]

theorem advanceReaches (r : RingBuffer n α) : (r.start.val + r.size.toNat) % n = r.stop.val := by
  have hs := r.start.isLt
  have ht := r.stop.isLt
  unfold size
  dsimp only
  split
  · have wrapped : r.start.val + ((r.stop.val : Int) - r.start.val + n).toNat = r.stop.val + n := by omega
    rw [wrapped,Nat.add_mod_right,Nat.mod_eq_of_lt ht]
  · have straight : r.start.val + ((r.stop.val : Int) - r.start.val).toNat = r.stop.val := by omega
    rw [straight,Nat.mod_eq_of_lt ht]

theorem sizeBounds (r : RingBuffer n α) : 0 ≤ r.size ∧ r.size < n := by
  have hs := r.start.isLt
  have ht := r.stop.isLt
  unfold size
  dsimp only
  split
  · omega
  · omega

theorem sizeToNat (r : RingBuffer n α) : (r.size.toNat : Int) = r.size := Int.toNat_of_nonneg r.sizeBounds.1

theorem sizeLt (r : RingBuffer n α) : r.size.toNat < n := by
  have := r.sizeBounds
  omega

theorem sizeUnique {r : RingBuffer n α} {d : Nat} (small : d < n) (reaches : (r.start.val + d) % n = r.stop.val) :
    r.size.toNat = d := by
  have same : r.start.val + r.size.toNat ≡ r.start.val + d [MOD n] := r.advanceReaches.trans reaches.symm
  have distances : r.size.toNat % n = d % n := Nat.ModEq.add_left_cancel' _ same
  rwa [Nat.mod_eq_of_lt r.sizeLt,Nat.mod_eq_of_lt small] at distances

theorem sizePush (r : RingBuffer n α) (x : α) : (r.push x).size.toNat = (r.size.toNat + 1) % n := by
  apply sizeUnique (Nat.mod_lt _ r.start.pos)
  rw [push,advanceVal,← r.advanceReaches]
  simp only [Nat.add_mod_mod,Nat.mod_add_mod,Nat.add_assoc]

theorem sizePop {r : RingBuffer n α} (filled : 0 < r.size.toNat) : r.pop.2.size.toNat = r.size.toNat - 1 := by
  have small := r.sizeLt
  apply sizeUnique (show r.size.toNat - 1 < n by omega)
  rw [pop,advanceVal,Nat.mod_add_mod]
  have shifted : r.start.val + 1 + (r.size.toNat - 1) = r.start.val + r.size.toNat := by omega
  rw [shifted,r.advanceReaches]

theorem stopReached (r : RingBuffer n α) : advance^[r.size.toNat] r.start = r.stop := by
  apply Fin.ext
  rw [advanceIterate,r.advanceReaches]

theorem contentsPop {r : RingBuffer n α} (filled : 0 < r.size.toNat) : r.contents = r.pop.1 :: r.pop.2.contents := by
  unfold contents
  rw [sizePop filled]
  obtain ⟨k,same⟩ : ∃ k, r.size.toNat = k + 1 := ⟨r.size.toNat - 1,by omega⟩
  rw [same]
  rfl

theorem walkLength (cells : Fin n → α) (i : Fin n) (k : Nat) : (walk cells i k).length = k := by
  induction k generalizing i with
  | zero => rfl
  | succ k ih => rw [walk,List.length_cons,ih]

theorem contentsLength (r : RingBuffer n α) : r.contents.length = r.size.toNat := walkLength _ _ _

theorem walkSucc (cells : Fin n → α) (i : Fin n) (k : Nat) :
    walk cells i (k + 1) = walk cells i k ++ [cells (advance^[k] i)] := by
  induction k generalizing i with
  | zero => rfl
  | succ k ih =>
    rw [walk,ih,Function.iterate_succ_apply]
    rfl

theorem walkUpdate (cells : Fin n → α) {s : Fin n} (x : α) {i : Fin n} {k : Nat} (apart : ∀ j < k, advance^[j] i ≠ s) :
    walk (Function.update cells s x) i k = walk cells i k := by
  induction k generalizing i with
  | zero => rfl
  | succ k ih =>
    have here : i ≠ s := apart 0 (by omega)
    have later := ih (fun j less => by
      have := apart (j + 1) (by omega)
      rwa [Function.iterate_succ_apply] at this)
    rw [walk,later,Function.update_of_ne here,walk]

theorem contentsPush {r : RingBuffer n α} (x : α) (free : r.size.toNat + 1 < n) :
    (r.push x).contents = r.contents ++ [x] := by
  have apart : ∀ j < r.size.toNat, advance^[j] r.start ≠ r.stop := by
    intro j less same
    have reaches := congrArg Fin.val same
    rw [advanceIterate] at reaches
    have distance := sizeUnique (Nat.lt_trans less r.sizeLt) reaches
    omega
  have written : (push r x).cells (advance^[r.size.toNat] r.start) = x := by
    rw [stopReached]
    exact Function.update_self r.stop x r.cells
  unfold contents
  rw [sizePush,Nat.mod_eq_of_lt free,walkSucc]
  change walk (Function.update r.cells r.stop x) r.start r.size.toNat ++ _ = _
  rw [walkUpdate r.cells x apart]
  exact congrArg (fun y => _ ++ [y]) written

theorem memWalk {cells : Fin n → α} {i : Fin n} {k : Nat} {x : α} (inside : x ∈ walk cells i k) :
    ∃ j < k, x = cells (advance^[j] i) := by
  induction k generalizing i with
  | zero => cases inside
  | succ k ih =>
    rw [walk,List.mem_cons] at inside
    obtain rfl | later := inside
    · exact ⟨0,Nat.succ_pos k,rfl⟩
    · obtain ⟨j,less,same⟩ := ih later
      exact ⟨j + 1,Nat.succ_lt_succ less,same⟩

/- The last `k` elements pushed have not been popped, maybe more of them than there are cells, and
each cell they are in satisfies `p`. -/
structure Held (r : RingBuffer n α) (k : Nat) (p : α → Prop) : Prop where
  reaches : (r.start.val + k) % n = r.stop.val
  all : ∀ j < k, p (r.cells (advance^[j] r.start))

variable {r : RingBuffer n α} {k : Nat} {p q : α → Prop}

theorem heldSize (held : r.Held k p) : r.size.toNat = k % n := by
  apply sizeUnique (Nat.mod_lt k r.start.pos)
  rw [Nat.add_mod_mod]
  exact held.reaches

theorem heldNone (empty : r.size.toNat = 0) : r.Held 0 p := by
  have reaches := r.advanceReaches
  rw [empty] at reaches
  exact ⟨reaches,fun _ less => absurd less (Nat.not_lt_zero _)⟩

theorem heldWeaken (weaker : ∀ x, p x → q x) (held : r.Held k p) : r.Held k q :=
  ⟨held.reaches,fun j less => weaker _ (held.all j less)⟩

theorem heldPush {x : α} (held : r.Held k p) (good : p x) : (r.push x).Held (k + 1) p := by
  have stop : advance^[k] r.start = r.stop := by
    apply Fin.ext
    rw [advanceIterate,held.reaches]
  refine ⟨?_,fun j less => ?_⟩
  · rw [push,advanceVal,← held.reaches,Nat.mod_add_mod,Nat.add_assoc]
  · change p (Function.update r.cells r.stop x (advance^[j] r.start))
    by_cases here : advance^[j] r.start = r.stop
    · rw [here,Function.update_self]
      exact good
    · have earlier : j < k := Nat.lt_of_le_of_ne (Nat.le_of_lt_succ less) fun same => here (same ▸ stop)
      rw [Function.update_of_ne here]
      exact held.all j earlier

theorem heldPop (held : r.Held (k + 1) p) : p r.pop.1 ∧ r.pop.2.Held k p := by
  refine ⟨held.all 0 (Nat.succ_pos k),?_,fun j less => held.all (j + 1) (Nat.succ_lt_succ less)⟩
  rw [pop,advanceVal,Nat.mod_add_mod,Nat.add_assoc,Nat.add_comm 1]
  exact held.reaches

theorem heldContents (held : r.Held k p) {x : α} (inside : x ∈ r.contents) : p x := by
  obtain ⟨j,less,rfl⟩ := memWalk inside
  rw [heldSize held] at less
  exact held.all j (Nat.lt_of_lt_of_le less (Nat.mod_le k n))

def map {β : Type} (f : α → β) (r : RingBuffer n α) : RingBuffer n β := ⟨fun i => f (r.cells i),r.start,r.stop⟩

@[simp] theorem mapSize {β : Type} (f : α → β) (r : RingBuffer n α) : (r.map f).size = r.size := rfl

theorem mapPop {β : Type} (f : α → β) (r : RingBuffer n α) : (r.map f).pop = (f r.pop.1,r.pop.2.map f) := rfl

theorem mapPush {β : Type} (f : α → β) (r : RingBuffer n α) (x : α) : (r.map f).push (f x) = (r.push x).map f := by
  simp only [push,map,RingBuffer.mk.injEq,and_true]
  exact (Function.comp_update f r.cells r.stop x).symm

end RingBuffer
