import Mathlib.Data.List.Basic
import Mathlib.Algebra.Ring.Nat

/-! Runs of a machine that several parties move. `next` says what an event does to
the state, `none` where it cannot happen; `ok` restricts the events of a run by the
state they meet. -/
namespace Interleaving
variable {σ ε : Type} {next : σ → ε → Option σ} {ok : σ → ε → Prop}

inductive Steps (next : σ → ε → Option σ) (ok : σ → ε → Prop) : σ → List ε → σ → Prop where
  | nil (s : σ) : Steps next ok s [] s
  | cons {s u t : σ} {e : ε} {rest : List ε} (holds : ok s e) (taken : next s e = some u)
      (later : Steps next ok u rest t) : Steps next ok s (e :: rest) t

def Free (_ : σ) (_ : ε) : Prop := True

theorem stepsInvariant (Inv : σ → Prop) (keep : ∀ s e t, Inv s → ok s e → next s e = some t → Inv t)
    {s t : σ} {events : List ε} (start : Inv s) (run : Steps next ok s events t) : Inv t := by
  induction run with
  | nil => exact start
  | cons holds taken later ih => exact ih (keep _ _ _ start holds taken)

theorem stepsAppend {s u t : σ} {left right : List ε} (first : Steps next ok s left u)
    (second : Steps next ok u right t) : Steps next ok s (left ++ right) t := by
  induction first with
  | nil => exact second
  | cons holds taken later ih => exact .cons holds taken (ih second)

theorem stepsWeaken {ok' : σ → ε → Prop} (weaker : ∀ s e, ok s e → ok' s e) {s t : σ} {events : List ε}
    (run : Steps next ok s events t) : Steps next ok' s events t := by
  induction run with
  | nil s => exact .nil s
  | cons holds taken later ih => exact .cons (weaker _ _ holds) taken ih

theorem stepsFree {s t : σ} {events : List ε} (run : Steps next ok s events t) : Steps next Free s events t :=
  stepsWeaken (fun _ _ _ => trivial) run

def stepsTo (next : σ → ε → Option σ) (test : σ → ε → Bool) : σ → List ε → Option σ
  | s,[] => some s
  | s,e :: rest => if test s e then (next s e).bind fun u => stepsTo next test u rest else none

theorem stepsComputed {test : σ → ε → Bool} (sound : ∀ s e, test s e = true → ok s e) {s t : σ} {events : List ε}
    (ran : stepsTo next test s events = some t) : Steps next ok s events t := by
  induction events generalizing s with
  | nil =>
    cases ran
    exact .nil _
  | cons e rest ih =>
    unfold stepsTo at ran
    split at ran
    · obtain ⟨u,taken,later⟩ := Option.bind_eq_some_iff.mp ran
      exact .cons (sound _ _ ‹_›) taken (ih later)
    · cases ran

theorem stepsFirst {s t u : σ} {left right : List ε} (run : Steps next ok s (left ++ right) t)
    (first : Steps next Free s left u) : Steps next ok s left u := by
  induction left generalizing s with
  | nil =>
    cases first
    exact .nil _
  | cons e rest ih =>
    cases first with
    | cons _ taken later =>
      cases run with
      | cons holds taken' later' =>
        cases taken.symm.trans taken'
        exact .cons holds taken (ih later' later)

theorem stepsExact (Inv good : σ → Prop) (sound : ∀ s, Inv s → good s)
    (keep : ∀ s e t, Inv s → ok s e → next s e = some t → Inv t)
    (exact : ∀ s e t, Inv s → next s e = some t → good t → ok s e)
    {s t : σ} {events : List ε} (start : Inv s) (run : Steps next Free s events t) :
    (∀ left right u, events = left ++ right → Steps next Free s left u → good u) ↔ Steps next ok s events t := by
  constructor
  · intro always
    induction run with
    | nil s => exact .nil s
    | @cons s u t e rest holds taken later ih =>
      have told := exact s e u start taken (always [e] rest u rfl (.cons holds taken (.nil u)))
      refine .cons told taken (ih (keep s e u start told taken) fun left right v split first => ?_)
      exact always (e :: left) right v (congrArg (e :: ·) split) (.cons holds taken first)
  · rintro told left right u rfl first
    exact sound u (stepsInvariant Inv keep start (stepsFirst told first))

/- A bound on the moves of one party: each of them is paid for from the measure, and an event raises it by
no more than its credit. -/
theorem stepsCredit (mover : ε → Bool) (credit : ε → Nat) (Inv : σ → Prop) (size : σ → Nat)
    (keep : ∀ s e t, Inv s → ok s e → next s e = some t → Inv t)
    (pays : ∀ s e t, Inv s → ok s e → next s e = some t → (mover e).toNat + size t ≤ size s + credit e)
    {s t : σ} {events : List ε} (start : Inv s) (run : Steps next ok s events t) :
    events.countP mover + size t ≤ size s + (events.map credit).sum := by
  induction run with
  | nil => simp
  | @cons s u t e rest holds taken later ih =>
    have rest := ih (keep s e u start holds taken)
    have paid := pays s e u start holds taken
    rw [List.map_cons,List.sum_cons]
    cases moves : mover e with
    | true =>
      rw [moves,Bool.toNat_true] at paid
      rw [List.countP_cons_of_pos moves]
      omega
    | false =>
      rw [moves,Bool.toNat_false] at paid
      rw [List.countP_cons_of_neg (by simp [moves])]
      omega

theorem stepsMeasure (mover : ε → Bool) (Inv : σ → Prop) (size : σ → Nat)
    (keep : ∀ s e t, Inv s → ok s e → next s e = some t → Inv t)
    (lower : ∀ s e t, mover e = true → Inv s → ok s e → next s e = some t → size t < size s)
    (others : ∀ s e t, mover e = false → Inv s → ok s e → next s e = some t → size t ≤ size s)
    {s t : σ} {events : List ε} (start : Inv s) (run : Steps next ok s events t) :
    events.countP mover + size t ≤ size s := by
  have bound := stepsCredit mover (fun _ => 0) Inv size keep (fun s e t inv holds taken => ?_) start run
  · simpa using bound
  cases moves : mover e with
  | true =>
    have less := lower s e t moves inv holds taken
    rw [Bool.toNat_true]
    omega
  | false =>
    have kept := others s e t moves inv holds taken
    rw [Bool.toNat_false]
    omega

end Interleaving
