import Mathlib.Data.List.TakeWhile

/-! Cutting a list into items at a delimiter, one item at a time. An empty item is what lies
between two delimiters that follow one another; where these are dropped the number of delimiters
between two items makes no difference. -/
namespace Tokens
variable {α β : Type} [DecidableEq α] {d : α}

/- The item before the next delimiter, or up to the end where there is none, with what lies behind
it. There is no item only where nothing is left. -/
def getline (d : α) : List α → Option (List α × List α)
  | [] => none
  | b :: rest => some ((b :: rest).takeWhile (· ≠ d),((b :: rest).dropWhile (· ≠ d)).tail)

def tokens (d : α) (str : List α) : List (List α) := (str.splitOn d).filter (· ≠ [])

theorem getlineShorter {str item rest : List α} (h : getline d str = some (item,rest)) : rest.length < str.length := by
  cases str with
  | nil => cases h
  | cons b str =>
    cases h
    have kept := (List.dropWhile_sublist (· ≠ d) : ((b :: str).dropWhile (· ≠ d)).Sublist (b :: str)).length_le
    rw [List.length_tail]
    exact Nat.lt_of_le_of_lt (Nat.sub_le_sub_right kept 1) (Nat.lt_succ_self _)

theorem getlineNone {str : List α} (h : getline d str = none) : str = [] := by
  cases str with
  | nil => rfl
  | cons b str => cases h

def collect (d : α) (f : List α → β) (str : List α) : List β :=
  match _h : getline d str with
  | none => []
  | some (item,rest) => if item ≠ [] then f item :: collect d f rest else collect d f rest
termination_by str.length
decreasing_by all_goals exact getlineShorter ‹_›

theorem collectNone (f : List α → β) {str : List α} (h : getline d str = none) : collect d f str = [] := by
  rw [collect]
  split
  · rfl
  · rename_i found
    rw [h] at found
    cases found

theorem collectSome (f : List α → β) {str item rest : List α} (h : getline d str = some (item,rest)) :
    collect d f str = if item ≠ [] then f item :: collect d f rest else collect d f rest := by
  rw [collect]
  split
  · rename_i ended
    rw [h] at ended
    cases ended
  · rename_i found
    rw [h] at found
    cases found
    rfl

theorem itemFree {item : List α} (free : d ∉ item) : ∀ b ∈ item, decide (b ≠ d) = true :=
  fun _ inside => decide_eq_true fun same => free (same ▸ inside)

theorem getlineItem {item : List α} (rest : List α) (free : d ∉ item) : getline d (item ++ d :: rest) = some (item,rest) := by
  have whole : (item ++ d :: rest).takeWhile (· ≠ d) = item ∧ ((item ++ d :: rest).dropWhile (· ≠ d)).tail = rest := by
    rw [List.takeWhile_append_of_pos (itemFree free),List.dropWhile_append_of_pos (itemFree free)]
    simp
  cases item with
  | nil => exact congrArg some (Prod.ext whole.1 whole.2)
  | cons b item => exact congrArg some (Prod.ext whole.1 whole.2)

theorem getlineLast {item : List α} (filled : item ≠ []) (free : d ∉ item) : getline d item = some (item,[]) := by
  cases item with
  | nil => contradiction
  | cons b item =>
    rw [getline,List.takeWhile_eq_self_iff.mpr (itemFree free),List.dropWhile_eq_nil_iff.mpr (itemFree free)]
    rfl

theorem tokensItem {item : List α} (rest : List α) (free : d ∉ item) :
    tokens d (item ++ d :: rest) = if item ≠ [] then item :: tokens d rest else tokens d rest := by
  rw [tokens,List.splitOn_append_cons_self_of_not_mem free,List.filter_cons]
  simp only [decide_eq_true_eq,tokens]

theorem tokensLast {item : List α} (free : d ∉ item) : tokens d item = if item ≠ [] then [item] else [] := by
  rw [tokens,List.splitOn_eq_singleton free,List.filter_cons]
  simp only [decide_eq_true_eq,List.filter_nil]

theorem collectTokens (f : List α → β) (str : List α) : collect d f str = (tokens d str).map f := by
  generalize measure : str.length = n
  induction n using Nat.strongRecOn generalizing str with
  | ind n ih =>
    by_cases filled : d ∈ str
    · obtain ⟨item,rest,rfl,free⟩ := List.eq_append_cons_of_mem filled
      have next := getlineItem rest free
      rw [collectSome f next,tokensItem rest free,ih rest.length (measure ▸ getlineShorter next) rest rfl]
      split <;> rfl
    · cases str with
      | nil => rw [collectNone f rfl,tokensLast filled]; rfl
      | cons b str =>
        have last : getline d (b :: str) = some (b :: str,[]) := getlineLast (List.cons_ne_nil b str) filled
        rw [collectSome f last,collectNone f rfl,tokensLast filled,if_pos (List.cons_ne_nil b str),
          if_pos (List.cons_ne_nil b str)]
        rfl

inductive Spaced (d : α) : List (List α) → List α → Prop where
  | last (before after : Nat) (word : List α) :
      Spaced d [word] (List.replicate before d ++ word ++ List.replicate after d)
  | cons (before : Nat) (word : List α) {words : List (List α)} {line : List α} (later : Spaced d words line) :
      Spaced d (word :: words) (List.replicate before d ++ word ++ d :: line)

theorem tokensSkip (before : Nat) (str : List α) : tokens d (List.replicate before d ++ str) = tokens d str := by
  induction before with
  | zero => rfl
  | succ before ih =>
    have first := tokensItem (d := d) (List.replicate before d ++ str) List.not_mem_nil
    rw [if_neg (by simp)] at first
    exact first.trans ih

theorem tokensDelimiters (after : Nat) : tokens d (List.replicate after d) = [] := by
  have skipped := tokensSkip (d := d) after []
  rw [List.append_nil] at skipped
  rw [skipped,tokensLast List.not_mem_nil,if_neg (by simp)]

theorem tokensSpaced {words : List (List α)} {line : List α} (spaced : Spaced d words line)
    (whole : ∀ word ∈ words, word ≠ [] ∧ d ∉ word) : tokens d line = words := by
  induction spaced with
  | last before after word =>
    obtain ⟨filled,free⟩ := whole word List.mem_cons_self
    rw [List.append_assoc,tokensSkip]
    cases after with
    | zero => rw [List.replicate_zero,List.append_nil,tokensLast free,if_pos filled]
    | succ after => rw [List.replicate_succ,tokensItem _ free,if_pos filled,tokensDelimiters]
  | cons before word later ih =>
    obtain ⟨filled,free⟩ := whole word List.mem_cons_self
    rw [List.append_assoc,tokensSkip,tokensItem _ free,if_pos filled,ih fun w inside => whole w (List.mem_cons_of_mem _ inside)]

omit [DecidableEq α] in
theorem spacedFree {words : List (List α)} {line : List α} {b : α} (spaced : Spaced d words line) (other : b ≠ d)
    (free : ∀ word ∈ words, b ∉ word) : b ∉ line := by
  have delimiters (n : Nat) : b ∉ List.replicate n d := fun inside => other (List.eq_of_mem_replicate inside)
  induction spaced with
  | last before after word =>
    rw [List.mem_append,List.mem_append]
    rintro ((inside | inside) | inside)
    · exact delimiters before inside
    · exact free word List.mem_cons_self inside
    · exact delimiters after inside
  | cons before word later ih =>
    rw [List.mem_append,List.mem_append,List.mem_cons]
    rintro ((inside | inside) | inside | inside)
    · exact delimiters before inside
    · exact free word List.mem_cons_self inside
    · exact other inside
    · exact ih (fun w member => free w (List.mem_cons_of_mem _ member)) inside

theorem tokensIntercalate {words : List (List α)} (whole : ∀ word ∈ words, word ≠ [] ∧ d ∉ word) :
    tokens d (List.intercalate [d] words) = words := by
  cases words with
  | nil => exact (tokensLast List.not_mem_nil).trans (if_neg (by simp))
  | cons word words =>
    rw [tokens,List.splitOn_intercalate d (fun w inside => (whole w inside).2) (List.cons_ne_nil word words)]
    exact List.filter_eq_self.mpr fun w inside => decide_eq_true (whole w inside).1

end Tokens
