import Mathlib.Logic.Function.Basic

/-! Objects of one kind on a heap, numbered as they are created, and how often each of them
has been deleted. -/

structure Heap where
  created : Nat
  deletions : Nat → Nat

namespace Heap

def empty : Heap := ⟨0,fun _ => 0⟩

def create (h : Heap) : Heap := {h with created := h.created + 1}

def delete (h : Heap) : Option Nat → Heap
  | none => h
  | some i => {h with deletions := Function.update h.deletions i (h.deletions i + 1)}

structure Owns (h : Heap) (owner : Option Nat) : Prop where
  inside : ∀ i, owner = some i → i < h.created
  deleted : ∀ i < h.created, h.deletions i = if owner = some i then 0 else 1
  fresh : ∀ i, h.created ≤ i → h.deletions i = 0

theorem ownsEmpty : Owns empty none :=
  ⟨fun _ same => (Option.some_ne_none _ same.symm).elim,fun _ less => absurd less (Nat.not_lt_zero _),fun _ _ => rfl⟩

theorem ownsCreate {h : Heap} (owns : Owns h none) : Owns h.create (some h.created) := by
  refine ⟨fun i same => ?_,fun i less => ?_,fun i more => owns.fresh i (Nat.le_of_succ_le more)⟩
  · cases same
    exact Nat.lt_succ_self _
  · by_cases last : h.created = i
    · rw [if_pos (congrArg some last)]
      exact owns.fresh i (Nat.le_of_eq last)
    · have earlier : i < h.created := Nat.lt_of_le_of_ne (Nat.le_of_lt_succ less) (Ne.symm last)
      have once := owns.deleted i earlier
      rw [if_neg (by simp)] at once
      rw [if_neg (by simpa using last)]
      exact once

theorem ownsDelete {h : Heap} {owner : Option Nat} (owns : Owns h owner) : Owns (h.delete owner) none := by
  cases owner with
  | none => exact owns
  | some j =>
    have inside := owns.inside j rfl
    refine ⟨fun _ same => (Option.some_ne_none _ same.symm).elim,fun i less => ?_,fun i more => ?_⟩
    · have counted := owns.deleted i less
      rw [if_neg (by simp)]
      by_cases here : i = j
      · subst here
        rw [if_pos rfl] at counted
        simp [delete,counted]
      · rw [if_neg (by simpa using Ne.symm here)] at counted
        simpa [delete,Function.update_of_ne here] using counted
    · have apart : i ≠ j := fun same => Nat.not_le_of_lt inside (same ▸ more)
      simpa [delete,Function.update_of_ne apart] using owns.fresh i more

def AtMostOne (h : Heap) : Prop :=
  ∀ i j, i < h.created → j < h.created → h.deletions i = 0 → h.deletions j = 0 → i = j

def AllDeletedOnce (h : Heap) : Prop := ∀ i < h.created, h.deletions i = 1

theorem ownsAtMostOne {h : Heap} {owner : Option Nat} (owns : Owns h owner) : AtMostOne h := by
  have held {i : Nat} (less : i < h.created) (kept : h.deletions i = 0) : owner = some i := by
    have counted := owns.deleted i less
    rw [kept] at counted
    split at counted
    · assumption
    · contradiction
  intro i j lessI lessJ keptI keptJ
  exact Option.some.inj ((held lessI keptI).symm.trans (held lessJ keptJ))

theorem ownsNone {h : Heap} (owns : Owns h none) : AllDeletedOnce h := by
  intro i less
  rw [owns.deleted i less,if_neg (by simp)]

theorem createTwice {h : Heap} {i : Nat} (owns : Owns h (some i)) : ¬ AtMostOne h.create := by
  intro one
  have inside := owns.inside i rfl
  have kept := owns.deleted i inside
  rw [if_pos rfl] at kept
  have same := one i h.created (Nat.lt_succ_of_lt inside) (Nat.lt_succ_self _) kept (owns.fresh _ (Nat.le_refl _))
  exact Nat.ne_of_lt inside same

end Heap
