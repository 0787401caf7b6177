import Mathlib.Data.List.Infix

/-! Doubled delimiters: two adjacent copies of one symbol mark a position in a
list that is otherwise free to contain the symbol. -/
namespace Delimiter
variable {α : Type}

def Doubled (x : α) (raw : List α) : Prop := [x,x] <:+: raw
instance [DecidableEq α] (x : α) (raw : List α) : Decidable (Doubled x raw) := by unfold Doubled; infer_instance

def FirstPair (x : α) (raw rest : List α) : Prop :=
  ∃ left, raw = left ++ x :: x :: rest ∧ ¬ Doubled x (left ++ [x])

theorem doubledShort (x : α) {raw : List α} (short : raw.length < 2) : ¬ Doubled x raw := by
  intro found
  have lengths := found.length_le
  simp only [List.length_cons,List.length_nil] at lengths
  omega

theorem doubledCons {x a b : α} {rest : List α} :
    Doubled x (a :: b :: rest) ↔ a = x ∧ b = x ∨ Doubled x (b :: rest) := by
  unfold Doubled
  rw [List.infix_cons_iff]
  simp only [List.cons_prefix_cons,List.nil_prefix,and_true,eq_comm]

theorem doubledOther {x a : α} {rest : List α} (other : a ≠ x) : Doubled x (a :: rest) ↔ Doubled x rest := by
  cases rest with
  | nil => exact iff_of_false (doubledShort x (by simp)) (doubledShort x (by simp))
  | cons b rest => simp only [doubledCons,other,false_and,false_or]

theorem doubledSkip {x a b : α} {rest : List α} (other : b ≠ x) :
    Doubled x (a :: b :: rest) ↔ Doubled x rest := by
  rw [doubledCons,doubledOther other]
  simp only [other,and_false,false_or]

theorem doubledAt (x : α) (left rest : List α) : Doubled x (left ++ x :: x :: rest) :=
  ⟨left,rest,by simp⟩

theorem doubledAppend {x : α} {left : List α} (right : List α) (h : Doubled x left) : Doubled x (left ++ right) :=
  h.trans (List.prefix_append left right).isInfix

theorem firstPairDoubled {x : α} {raw rest : List α} (h : FirstPair x raw rest) : Doubled x raw := by
  obtain ⟨left,same,_⟩ := h
  rw [same]
  exact doubledAt x left rest

theorem firstPairHere (x : α) (rest : List α) : FirstPair x (x :: x :: rest) rest :=
  ⟨[],rfl,doubledShort x (by simp)⟩

theorem firstPairUnique {x : α} {raw rest other : List α} (h : FirstPair x raw rest)
    (k : FirstPair x raw other) : rest = other := by
  obtain ⟨left,hl,hfree⟩ := h
  obtain ⟨right,hr,kfree⟩ := k
  have same := hl.symm.trans hr
  rcases List.append_eq_append_iff.mp same with ⟨gap,rfl,tail⟩ | ⟨gap,rfl,tail⟩
  · match gap with
    | [] => simpa using tail
    | [a] =>
      simp only [List.cons_append,List.nil_append,List.cons.injEq] at tail
      exact absurd (by rw [← tail.1,List.append_assoc]; exact doubledAt x left []) kfree
    | a :: b :: gap =>
      simp only [List.cons_append,List.cons.injEq] at tail
      refine absurd ?_ kfree
      rw [← tail.1,← tail.2.1,List.append_assoc]
      exact doubledAt x left (gap ++ [x])
  · match gap with
    | [] => simpa using tail.symm
    | [a] =>
      simp only [List.cons_append,List.nil_append,List.cons.injEq] at tail
      exact absurd (by rw [← tail.1,List.append_assoc]; exact doubledAt x right []) hfree
    | a :: b :: gap =>
      simp only [List.cons_append,List.cons.injEq] at tail
      refine absurd ?_ hfree
      rw [← tail.1,← tail.2.1,List.append_assoc]
      exact doubledAt x right (gap ++ [x])

theorem firstPairAfter {x : α} {noise : List α} (rest : List α) (free : ¬ Doubled x noise)
    (last : noise.getLast? ≠ some x) : FirstPair x (noise ++ x :: x :: rest) rest := by
  refine ⟨noise,rfl,?_⟩
  induction noise with
  | nil => exact doubledShort x (by simp)
  | cons a noise ih =>
    cases noise with
    | nil =>
      have other : a ≠ x := by simpa using last
      rw [List.cons_append,doubledOther other]
      exact doubledShort x (by simp)
    | cons b noise =>
      rw [doubledCons,not_or] at free
      rw [List.cons_append,List.cons_append,doubledCons,not_or]
      exact ⟨free.1,ih free.2 (by simpa using last)⟩

theorem firstPairEarly {x : α} {noise : List α} (rest : List α) (free : ¬ Doubled x noise)
    (last : noise.getLast? = some x) : FirstPair x (noise ++ x :: x :: rest) (x :: rest) := by
  obtain ⟨left,rfl⟩ := List.getLast?_eq_some_iff.mp last
  exact ⟨left,by simp,free⟩

end Delimiter
