import RTno2Proxy.Simulation

/-! Programs that live on a supply: what they use up of it bounds what they can do. A loop comes to an
end whose every pass that goes on has used some. -/
namespace Imperative
namespace Program
variable {ε σ α β : Type} {good : σ → Prop} {stock : σ → Nat}

/- From a `good` state the run comes to an end. If it returns, then in a good state, with no more in
stock than before, and with less if `takes` holds of the value. -/
def Drains (c : Program ε σ α) (good : σ → Prop) (stock : σ → Nat) (takes : α → Prop) : Prop :=
  ∀ s, good s → c.Total s (fun a t => good t ∧ stock t ≤ stock s ∧ (takes a → stock t < stock s)) fun _ _ => True

def Settles (c : Program ε σ α) (good : σ → Prop) : Prop := c.Drains good (fun _ => 0) fun _ => False

theorem drainsWeaken {c : Program ε σ α} {takes takes' : α → Prop} (drains : c.Drains good stock takes)
    (fewer : ∀ a, takes' a → takes a) : c.Drains good stock takes' :=
  fun s start => totalWeaken (drains s start) (fun a _ ⟨kept,most,less⟩ => ⟨kept,most,fun took => less (fewer a took)⟩)
    fun _ _ _ => trivial

theorem drainsSettles {c : Program ε σ α} {takes : α → Prop} (drains : c.Drains good stock takes) : c.Settles good :=
  fun s start => totalWeaken (drains s start) (fun _ _ ⟨kept,_⟩ => ⟨kept,Nat.le_refl 0,False.elim⟩) fun _ _ _ => trivial

theorem settlesHalts {c : Program ε σ α} (settles : c.Settles good) {s : σ} (start : good s) : c.Halts s := by
  rcases settles s start with ⟨a,t,ran,_⟩ | ⟨e,t,raised,_⟩
  · exact ⟨_,t,ran⟩
  · exact ⟨_,t,raised⟩

theorem drainsLift {takes : α → Prop} (v : Except ε α) (free : ∀ a, v = .ok a → ¬ takes a) :
    (lift v : Program ε σ α).Drains good stock takes := by
  intro s start
  cases v with
  | error e => exact .inr ⟨e,s,evaluatesLift.mpr ⟨rfl,rfl⟩,trivial⟩
  | ok a => exact .inl ⟨a,s,evaluatesLift.mpr ⟨rfl,rfl⟩,start,Nat.le_refl _,fun took => absurd took (free a rfl)⟩

theorem drainsPure {takes : α → Prop} {a : α} (free : ¬ takes a) : (pure a : Program ε σ α).Drains good stock takes :=
  drainsLift (.ok a) fun _ same => Except.ok.inj same ▸ free

theorem drainsThrow {takes : α → Prop} (e : ε) : (throw e : Program ε σ α).Drains good stock takes :=
  drainsLift (.error e) fun _ never => nomatch never

theorem settlesStep {f : σ → Except ε α × σ} (kept : ∀ s, good s → good (f s).2) : (step f).Settles good := by
  intro s start
  cases given : (f s).1 with
  | error e => exact .inr ⟨e,_,evaluatesStep.mpr (Prod.ext given rfl),trivial⟩
  | ok a => exact .inl ⟨a,_,evaluatesStep.mpr (Prod.ext given rfl),kept s start,Nat.le_refl 0,False.elim⟩

theorem drainsBind {c : Program ε σ α} {next : α → Program ε σ β} {first : α → Prop} {takes : β → Prop}
    (before : c.Drains good stock first) (rest : ∀ a, (next a).Drains good stock fun b => takes b ∧ ¬ first a) :
    (c >>= next).Drains good stock takes := by
  intro s start
  refine totalBind (totalWeaken (before s start) (fun a u ⟨kept,most,less⟩ => ?_) fun _ _ _ => trivial)
  refine totalWeaken (rest a u kept) (fun b t ⟨later,fewer,used⟩ => ⟨later,Nat.le_trans fewer most,fun took => ?_⟩)
    fun _ _ _ => trivial
  by_cases already : first a
  · exact Nat.lt_of_le_of_lt fewer (less already)
  · exact Nat.lt_of_lt_of_le (used ⟨took,already⟩) most

theorem drainsThen {c : Program ε σ α} {next : α → Program ε σ β} {first : α → Prop} (before : c.Drains good stock first)
    (rest : ∀ a, (next a).Drains good stock fun _ => False) : (c >>= next).Drains good stock fun _ => False :=
  drainsBind before fun a => drainsWeaken (rest a) fun _ used => used.1

theorem drainsIte {p : Prop} [Decidable p] {c d : Program ε σ α} {takes : α → Prop} (yes : p → c.Drains good stock takes)
    (no : ¬ p → d.Drains good stock takes) : (if p then c else d).Drains good stock takes := by
  split
  · rename_i holds
    exact yes holds
  · rename_i fails
    exact no fails

theorem drainsLoop {body : α → Program ε σ (α ⊕ β)} {takes : β → Prop}
    (pass : ∀ a, (body a).Drains good stock (Sum.elim (fun _ => True) takes)) (a : α) :
    (loop body a).Drains good stock takes := by
  intro s start
  have within := @totalLoop ε σ α β (fun _ _ => True) body
    (fun b t => good t ∧ stock t ≤ stock s ∧ (takes b → stock t < stock s)) (fun _ u => good u ∧ stock u ≤ stock s)
    (fun _ u => stock u) ?_ a s ⟨start,Nat.le_refl _⟩
  · exact within
  · rintro a u ⟨kept,most⟩
    refine totalWeaken (pass a u kept) (fun x t ⟨later,fewer,less⟩ => ?_) fun _ _ _ => trivial
    cases x with
    | inl next => exact ⟨⟨later,Nat.le_trans fewer most⟩,less trivial⟩
    | inr b => exact ⟨later,Nat.le_trans fewer most,fun took => Nat.lt_of_lt_of_le (less took) most⟩

theorem drainsAttempts {body : Program ε σ (Option α)} {after : α} {takes : Option α → Prop}
    (pass : body.Drains good stock takes) (n : Nat) : (attempts body after n).Drains good stock fun _ => False := by
  induction n with
  | zero => exact drainsPure id
  | succ n ih =>
    refine drainsThen pass fun x => ?_
    cases x with
    | some a => exact drainsPure id
    | none => exact ih

def Stalls (c : Program ε σ α) (still : σ → Prop) : Prop := ∀ s, still s → ¬ c.Halts s

def Continues (c : Program ε σ α) (still : σ → Prop) (value : α → Prop) : Prop :=
  ∀ s v t, still s → c.Evaluates s v t → still t ∧ ∃ a, v = .ok a ∧ value a

section Stalls
variable {still : σ → Prop}

theorem continuesPure {value : α → Prop} {a : α} (good : value a) : (pure a : Program ε σ α).Continues still value := by
  intro s v t inside ran
  obtain ⟨rfl,rfl⟩ := evaluatesLift.mp ran
  exact ⟨inside,a,rfl,good⟩

theorem continuesStep {f : σ → Except ε α × σ} {value : α → Prop}
    (each : ∀ s, still s → still (f s).2 ∧ ∃ a, (f s).1 = .ok a ∧ value a) : (step f).Continues still value := by
  intro s v t inside ran
  have ended := evaluatesStep.mp ran
  have moved := each s inside
  rw [ended] at moved
  exact moved

theorem continuesBind {c : Program ε σ α} {next : α → Program ε σ β} {first : α → Prop} {value : β → Prop}
    (before : c.Continues still first) (rest : ∀ a, first a → (next a).Continues still value) :
    (c >>= next).Continues still value := by
  intro s v t inside ran
  rcases evaluatesBind.mp ran with ⟨e,raised,_⟩ | ⟨a,u,returned,later⟩
  · obtain ⟨_,_,never,_⟩ := before s _ t inside raised
    cases never
  · obtain ⟨kept,b,same,good⟩ := before s _ u inside returned
    cases same
    exact rest a good u v t kept later

theorem stallsFirst {c : Program ε σ α} {next : α → Program ε σ β} (first : c.Stalls still) : (c >>= next).Stalls still := by
  rintro s inside ⟨v,t,ran⟩
  rcases evaluatesBind.mp ran with ⟨e,raised,_⟩ | ⟨a,u,returned,_⟩
  · exact first s inside ⟨_,_,raised⟩
  · exact first s inside ⟨_,_,returned⟩

theorem stallsAfter {c : Program ε σ α} {next : α → Program ε σ β} {value : α → Prop} (before : c.Continues still value)
    (rest : ∀ a, value a → (next a).Stalls still) : (c >>= next).Stalls still := by
  rintro s inside ⟨v,t,ran⟩
  rcases evaluatesBind.mp ran with ⟨e,raised,_⟩ | ⟨a,u,returned,later⟩
  · obtain ⟨_,_,never,_⟩ := before s _ t inside raised
    cases never
  · obtain ⟨kept,b,same,good⟩ := before s _ u inside returned
    cases same
    exact rest a good u kept ⟨v,t,later⟩

theorem stallsLoop {body : α → Program ε σ (α ⊕ β)} (pass : ∀ a, (body a).Continues still fun x => x.isLeft = true) (a : α) :
    (loop body a).Stalls still := by
  rintro s inside ⟨v,t,ran⟩
  refine evaluatesLoopRule (motive := fun _ s (_ : Except ε β) (_ : σ) => ¬ still s) ?_ ?_ ?_ ran inside
  · intro a s e t raised inside
    obtain ⟨_,_,never,_⟩ := pass a s _ t inside raised
    cases never
  · intro a s b t returned inside
    obtain ⟨_,_,same,never⟩ := pass a s _ t inside returned
    cases same
    cases never
  · intro a s next u v t returned later inside
    exact later (pass a s _ u inside returned).1

theorem stallsPass {body : α → Program ε σ (α ⊕ β)} {a : α} (pass : (body a).Stalls still) : (loop body a).Stalls still := by
  rintro s inside ⟨v,t,ran⟩
  exact stallsFirst pass s inside ⟨v,t,evaluatesLoop.mp ran⟩

theorem stallsAttempts {body : Program ε σ (Option α)} {after : α} {n : Nat} (granted : 0 < n) (pass : body.Stalls still) :
    (attempts body after n).Stalls still := by
  obtain ⟨n,rfl⟩ := Nat.exists_eq_succ_of_ne_zero (Nat.pos_iff_ne_zero.mp granted)
  exact stallsFirst pass

end Stalls

end Program
end Imperative
