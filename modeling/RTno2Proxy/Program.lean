import Mathlib.Data.List.Basic

/-! Sequential programs over an explicit state, with early exits and loops that
need not end. Fuel bounds the passes of every loop and is only a device of the
definition: a run that ends with some fuel ends the same way with more, so a
program denotes a partial function, and `Returns` is its graph. -/
namespace Imperative

inductive Outcome (ε σ α : Type) where
  | running
  | done (value : Except ε α) (state : σ)

namespace Outcome
variable {ε σ α β : Type}

def bind (o : Outcome ε σ α) (next : α → σ → Outcome ε σ β) : Outcome ε σ β :=
  match o with
  | .running => .running
  | .done (.error e) t => .done (.error e) t
  | .done (.ok a) t => next a t

def ended (p : Except ε α → σ → Bool) : Outcome ε σ α → Bool
  | .running => false
  | .done v t => p v t

theorem bindDone {o : Outcome ε σ α} {next : α → σ → Outcome ε σ β} {v t}
    (h : o.bind next = .done v t) :
    (∃ e, o = .done (.error e) t ∧ v = .error e) ∨ ∃ a u, o = .done (.ok a) u ∧ next a u = .done v t := by
  match o with
  | .running => simp [bind] at h
  | .done (.error e) u =>
    simp only [bind, done.injEq] at h
    obtain ⟨rfl, rfl⟩ := h
    exact .inl ⟨e, rfl, rfl⟩
  | .done (.ok a) u => exact .inr ⟨a, u, rfl, h⟩

end Outcome

/- Fuel never changes the outcome of a run that has ended: the field says so. -/
structure Program (ε σ α : Type) where
  run : Nat → σ → Outcome ε σ α
  stable : ∀ {fuel s v t}, run fuel s = .done v t → run (fuel + 1) s = .done v t

namespace Program
variable {ε σ α β : Type}

theorem stableLe {c : Program ε σ α} {fuel more s v t} (le : fuel ≤ more)
    (h : c.run fuel s = .done v t) : c.run more s = .done v t := by
  induction le with
  | refl => exact h
  | step _ ih => exact c.stable ih

def step (f : σ → Except ε α × σ) : Program ε σ α where
  run _ s := .done (f s).1 (f s).2
  stable h := h

protected def pure (a : α) : Program ε σ α := step fun s => (.ok a, s)

def throw (e : ε) : Program ε σ α := step fun s => (.error e, s)

protected def bind (c : Program ε σ α) (next : α → Program ε σ β) : Program ε σ β where
  run fuel s := (c.run fuel s).bind fun a t => (next a).run fuel t
  stable {fuel s v t} h := by
    obtain ⟨e, he, rfl⟩ | ⟨a, u, ha, hn⟩ := Outcome.bindDone h
    · simp only [c.stable he, Outcome.bind]
    · simp only [c.stable ha, Outcome.bind, (next a).stable hn]

instance : Monad (Program ε σ) where
  pure := Program.pure
  bind := Program.bind

def lift (v : Except ε α) : Program ε σ α := step fun s => (v, s)

def iterate (body : α → Program ε σ (α ⊕ β)) (fuel : Nat) : Nat → α → σ → Outcome ε σ β
  | 0, _, _ => .running
  | n + 1, a, s => ((body a).run fuel s).bind fun x t =>
      match x with
      | .inl again => iterate body fuel n again t
      | .inr out => .done (.ok out) t

theorem iterateMono {body : α → Program ε σ (α ⊕ β)} {fuel more n m a s v t}
    (fuelLe : fuel ≤ more) (le : n ≤ m) (h : iterate body fuel n a s = .done v t) :
    iterate body more m a s = .done v t := by
  induction n generalizing m a s with
  | zero => simp [iterate] at h
  | succ n ih =>
    obtain ⟨m, rfl⟩ : ∃ k, m = k + 1 := ⟨m - 1, by omega⟩
    obtain ⟨e, he, rfl⟩ | ⟨x, u, hx, hn⟩ := Outcome.bindDone h
    · simp only [iterate, stableLe fuelLe he, Outcome.bind]
    · simp only [iterate, stableLe fuelLe hx, Outcome.bind]
      cases x with
      | inl again => exact ih (by omega) hn
      | inr out => exact hn

/- `while (true)`: the body either hands on the variables of the next pass or leaves the loop. -/
def loop (body : α → Program ε σ (α ⊕ β)) (a : α) : Program ε σ β where
  run fuel s := iterate body fuel fuel a s
  stable h := iterateMono (Nat.le_succ _) (Nat.le_succ _) h

/- `for (i = 0; i < n; i++)` whose body may return from the function; `after` follows the loop. -/
def attempts (body : Program ε σ (Option α)) (after : α) : Nat → Program ε σ α
  | 0 => pure after
  | n + 1 => do
      match ← body with
      | some a => pure a
      | none => attempts body after n

def Evaluates (c : Program ε σ α) (s : σ) (v : Except ε α) (t : σ) : Prop :=
  ∃ fuel, c.run fuel s = .done v t

def Returns (c : Program ε σ α) (s : σ) (a : α) (t : σ) : Prop := c.Evaluates s (.ok a) t

def Raises (c : Program ε σ α) (s : σ) (e : ε) (t : σ) : Prop := c.Evaluates s (.error e) t

def Ends (c : Program ε σ α) (s : σ) : Prop := ∃ a t, c.Returns s a t

theorem evaluatesEnded {c : Program ε σ α} {s : σ} {p : Except ε α → σ → Bool} (fuel : Nat)
    (ran : (c.run fuel s).ended p = true) : ∃ v t, c.Evaluates s v t ∧ p v t = true := by
  cases done : c.run fuel s with
  | running =>
    rw [done] at ran
    cases ran
  | done v t =>
    rw [done] at ran
    exact ⟨v,t,⟨fuel,done⟩,ran⟩

theorem evaluatesUnique {c : Program ε σ α} {s v w t u}
    (left : c.Evaluates s v t) (right : c.Evaluates s w u) : v = w ∧ t = u := by
  obtain ⟨n, hn⟩ := left
  obtain ⟨m, hm⟩ := right
  have same := (stableLe (Nat.le_max_left n m) hn).symm.trans (stableLe (Nat.le_max_right n m) hm)
  injection same with hv ht
  exact ⟨hv, ht⟩

theorem returnsUnique {c : Program ε σ α} {s a b t u}
    (left : c.Returns s a t) (right : c.Returns s b u) : a = b ∧ t = u := by
  obtain ⟨same, states⟩ := evaluatesUnique left right
  exact ⟨Except.ok.inj same, states⟩

theorem returnsStep {f : σ → Except ε α × σ} {s a t} :
    (step f).Returns s a t ↔ f s = (.ok a, t) := by
  constructor
  · rintro ⟨_, h⟩
    injection h with hv ht
    exact Prod.ext hv ht
  · intro h
    exact ⟨0, by simp only [step, h]⟩

theorem returnsPure {a b : α} {s t : σ} :
    (pure a : Program ε σ α).Returns s b t ↔ b = a ∧ t = s := by
  refine returnsStep.trans ?_
  simp only [Prod.mk.injEq, Except.ok.injEq]
  exact ⟨fun h => ⟨h.1.symm, h.2.symm⟩, fun h => ⟨h.1.symm, h.2.symm⟩⟩

theorem returnsLift {v : Except ε α} {a : α} {s t : σ} :
    (lift v).Returns s a t ↔ v = .ok a ∧ t = s := by
  refine returnsStep.trans ?_
  simp only [Prod.mk.injEq]
  exact ⟨fun h => ⟨h.1, h.2.symm⟩, fun h => ⟨h.1, h.2.symm⟩⟩

theorem exceptBind {x : Except ε α} {next : α → Except ε β} {b : β} :
    x >>= next = .ok b ↔ ∃ a, x = .ok a ∧ next a = .ok b := by
  cases x with
  | error e => simp [bind, Except.bind]
  | ok a => simp [bind, Except.bind]

theorem exceptBindError {x : Except ε α} {next : α → Except ε β} {e : ε} :
    x >>= next = .error e ↔ x = .error e ∨ ∃ a, x = .ok a ∧ next a = .error e := by
  cases x with
  | error f => simp [bind, Except.bind]
  | ok a => simp [bind, Except.bind]

theorem returnsIte {p : Prop} [Decidable p] {c d : Program ε σ α} {s a t} :
    (if p then c else d).Returns s a t ↔ if p then c.Returns s a t else d.Returns s a t := by
  split <;> rfl

theorem evaluatesBind {c : Program ε σ α} {next : α → Program ε σ β} {s v t} :
    (c >>= next).Evaluates s v t ↔
      (∃ e, c.Raises s e t ∧ v = .error e) ∨ ∃ a u, c.Returns s a u ∧ (next a).Evaluates u v t := by
  constructor
  · rintro ⟨fuel, h⟩
    obtain ⟨e, he, rfl⟩ | ⟨a, u, ha, hn⟩ := Outcome.bindDone h
    · exact .inl ⟨e, ⟨fuel, he⟩, rfl⟩
    · exact .inr ⟨a, u, ⟨fuel, ha⟩, ⟨fuel, hn⟩⟩
  · rintro (⟨e, ⟨n, hn⟩, rfl⟩ | ⟨a, u, ⟨n, hn⟩, ⟨m, hm⟩⟩)
    · refine ⟨n, ?_⟩
      change Outcome.bind (c.run n s) _ = _
      rw [hn, Outcome.bind]
    · refine ⟨max n m, ?_⟩
      change Outcome.bind (c.run (max n m) s) _ = _
      rw [stableLe (Nat.le_max_left n m) hn]
      exact stableLe (Nat.le_max_right n m) hm

theorem returnsBind {c : Program ε σ α} {next : α → Program ε σ β} {s b t} :
    (c >>= next).Returns s b t ↔ ∃ a u, c.Returns s a u ∧ (next a).Returns u b t := by
  refine evaluatesBind.trans (or_iff_right ?_)
  rintro ⟨e, _, bad⟩
  cases bad

theorem returnsMap {c : Program ε σ α} {f : α → β} {s b t} :
    (c >>= fun a => pure (f a)).Returns s b t ↔ ∃ a, c.Returns s a t ∧ b = f a := by
  constructor
  · intro h
    obtain ⟨a,u,ran,last⟩ := returnsBind.mp h
    obtain ⟨rfl,rfl⟩ := returnsPure.mp last
    exact ⟨a,ran,rfl⟩
  · rintro ⟨a,ran,rfl⟩
    exact returnsBind.mpr ⟨a,t,ran,returnsPure.mpr ⟨rfl,rfl⟩⟩

theorem raisesBind {c : Program ε σ α} {next : α → Program ε σ β} {s e t} :
    (c >>= next).Raises s e t ↔ c.Raises s e t ∨ ∃ a u, c.Returns s a u ∧ (next a).Raises u e t := by
  refine evaluatesBind.trans (or_congr_left ?_)
  constructor
  · rintro ⟨f, raised, same⟩
    cases same
    exact raised
  · intro raised
    exact ⟨e, raised, rfl⟩

theorem evaluatesAfter {c : Program ε σ α} {next : α → Program ε σ β} {s a u v t} (first : c.Returns s a u) :
    (c >>= next).Evaluates s v t ↔ (next a).Evaluates u v t := by
  refine evaluatesBind.trans ?_
  constructor
  · rintro (⟨e, raised, _⟩ | ⟨b, x, again, rest⟩)
    · cases (evaluatesUnique first raised).1
    · obtain ⟨rfl, rfl⟩ := returnsUnique first again
      exact rest
  · intro rest
    exact .inr ⟨a, u, first, rest⟩

theorem evaluatesMap {c : Program ε σ α} (f : α → β) {s v t} (h : c.Evaluates s v t) :
    (c >>= fun a => pure (f a)).Evaluates s (v.map f) t := by
  cases v with
  | error e => exact evaluatesBind.mpr (.inl ⟨e,h,rfl⟩)
  | ok a => exact evaluatesBind.mpr (.inr ⟨a,t,h,returnsPure.mpr ⟨rfl,rfl⟩⟩)

theorem evaluatesBindCongr {c d : Program ε σ α} {next : α → Program ε σ β} {s u v t}
    (same : ∀ v t, c.Evaluates s v t ↔ d.Evaluates u v t) :
    (c >>= next).Evaluates s v t ↔ (d >>= next).Evaluates u v t := by
  refine evaluatesBind.trans (Iff.trans ?_ evaluatesBind.symm)
  refine or_congr (exists_congr fun e => and_congr_left fun _ => same _ _) ?_
  exact exists_congr fun a => exists_congr fun x => and_congr_left fun _ => same _ _

theorem evaluatesLoop {body : α → Program ε σ (α ⊕ β)} {a s v t} :
    (loop body a).Evaluates s v t ↔
      (body a >>= fun x => match x with
        | .inl again => loop body again
        | .inr out => pure out : Program ε σ β).Evaluates s v t := by
  refine Iff.trans ?_ evaluatesBind.symm
  constructor
  · rintro ⟨fuel,h⟩
    cases fuel with
    | zero => simp [loop,iterate] at h
    | succ n =>
      obtain ⟨e,he,same⟩ | ⟨x,u,hx,hn⟩ := Outcome.bindDone h
      · exact .inl ⟨e,⟨n + 1,he⟩,same⟩
      · refine .inr ⟨x,u,⟨n + 1,hx⟩,n + 1,?_⟩
        cases x with
        | inl again => exact iterateMono (Nat.le_refl _) (Nat.le_succ n) hn
        | inr out => exact hn
  · rintro (⟨e,⟨n,hn⟩,rfl⟩ | ⟨x,u,⟨n,hn⟩,⟨m,hm⟩⟩)
    · refine ⟨n + 1,?_⟩
      change iterate body (n + 1) (n + 1) a s = _
      simp only [iterate,(body a).stable hn,Outcome.bind]
    · refine ⟨max n m + 1,?_⟩
      change iterate body (max n m + 1) (max n m + 1) a s = _
      simp only [iterate,stableLe (Nat.le_succ_of_le (Nat.le_max_left n m)) hn,Outcome.bind]
      cases x with
      | inl again => exact iterateMono (Nat.le_succ_of_le (Nat.le_max_right n m)) (Nat.le_max_right n m) hm
      | inr out => exact hm

theorem returnsLoop {body : α → Program ε σ (α ⊕ β)} {a s b t} :
    (loop body a).Returns s b t ↔ (body a).Returns s (.inr b) t ∨
      ∃ again u, (body a).Returns s (.inl again) u ∧ (loop body again).Returns u b t := by
  refine evaluatesLoop.trans (returnsBind.trans ?_)
  constructor
  · rintro ⟨x,u,pass,later⟩
    cases x with
    | inl again => exact .inr ⟨again,u,pass,later⟩
    | inr out =>
      obtain ⟨rfl,rfl⟩ := returnsPure.mp later
      exact .inl pass
  · rintro (pass | ⟨again,u,pass,later⟩)
    · exact ⟨.inr b,t,pass,returnsPure.mpr ⟨rfl,rfl⟩⟩
    · exact ⟨.inl again,u,pass,later⟩

/- Partial correctness of a loop: what holds of the last pass and is carried back
over one pass holds of the whole loop. The induction is on the passes made. -/
theorem loopRule {body : α → Program ε σ (α ⊕ β)} {motive : α → σ → β → σ → Prop}
    (leave : ∀ a s b t, (body a).Returns s (.inr b) t → motive a s b t)
    (again : ∀ a s next u b t, (body a).Returns s (.inl next) u → motive next u b t → motive a s b t)
    {a s b t} (h : (loop body a).Returns s b t) : motive a s b t := by
  obtain ⟨fuel, h⟩ := h
  have passes : ∀ n a s, iterate body fuel n a s = .done (.ok b) t → motive a s b t := by
    intro n
    induction n with
    | zero => intro a s h; simp [iterate] at h
    | succ n ih =>
      intro a s h
      obtain ⟨e, _, bad⟩ | ⟨x, u, hx, hn⟩ := Outcome.bindDone h
      · contradiction
      · cases x with
        | inl next => exact again a s next u b t ⟨_, hx⟩ (ih next u hn)
        | inr out =>
          simp only [Outcome.done.injEq, Except.ok.injEq] at hn
          obtain ⟨rfl, rfl⟩ := hn
          exact leave a s _ _ ⟨_, hx⟩
  exact passes fuel a s h

theorem evaluatesLoopRule {body : α → Program ε σ (α ⊕ β)} {motive : α → σ → Except ε β → σ → Prop}
    (raise : ∀ a s e t, (body a).Raises s e t → motive a s (.error e) t)
    (leave : ∀ a s b t, (body a).Returns s (.inr b) t → motive a s (.ok b) t)
    (again : ∀ a s next u v t, (body a).Returns s (.inl next) u → motive next u v t → motive a s v t)
    {a s v t} (h : (loop body a).Evaluates s v t) : motive a s v t := by
  obtain ⟨fuel,h⟩ := h
  have passes : ∀ n a s, iterate body fuel n a s = .done v t → motive a s v t := by
    intro n
    induction n with
    | zero => intro a s h; simp [iterate] at h
    | succ n ih =>
      intro a s h
      obtain ⟨e,he,rfl⟩ | ⟨x,u,hx,hn⟩ := Outcome.bindDone h
      · exact raise a s e t ⟨_,he⟩
      · cases x with
        | inl next => exact again a s next u v t ⟨_,hx⟩ (ih next u hn)
        | inr out =>
          simp only [Outcome.done.injEq] at hn
          obtain ⟨rfl,rfl⟩ := hn
          exact leave a s out _ ⟨_,hx⟩
  exact passes fuel a s h

inductive Fails (body : Program ε σ (Option α)) : Nat → σ → σ → Prop where
  | zero (s : σ) : Fails body 0 s s
  | succ {k : Nat} {s u t : σ} (first : body.Returns s none u) (later : Fails body k u t) : Fails body (k + 1) s t

theorem failsUnique {body : Program ε σ (Option α)} {k s t u} (left : Fails body k s t) (right : Fails body k s u) :
    t = u := by
  induction left with
  | zero =>
    cases right
    rfl
  | succ first later ih =>
    cases right with
    | succ again rest =>
      obtain ⟨_,rfl⟩ := returnsUnique first again
      exact ih rest

theorem failsShort {body : Program ε σ (Option α)} {k n s u v a t} (short : Fails body k s u)
    (succeeds : body.Returns u (some a) t) (long : Fails body n s v) : n ≤ k := by
  induction long generalizing k with
  | zero => exact Nat.zero_le k
  | succ first later ih =>
    cases short with
    | zero =>
      obtain ⟨same,_⟩ := returnsUnique first succeeds
      cases same
    | succ again rest =>
      obtain ⟨_,rfl⟩ := returnsUnique first again
      exact Nat.succ_le_succ (ih rest)

theorem failsInvariant {body : Program ε σ (Option α)} {k s t} (Inv : σ → Prop)
    (keep : ∀ s t, Inv s → body.Returns s none t → Inv t) (start : Inv s) (fails : Fails body k s t) : Inv t := by
  induction fails with
  | zero => exact start
  | succ first later ih => exact ih (keep _ _ start first)

theorem attemptsReturns {body : Program ε σ (Option α)} {after : α} {n s a t} :
    (attempts body after n).Returns s a t ↔
      (∃ k < n, ∃ u, Fails body k s u ∧ body.Returns u (some a) t) ∨ Fails body n s t ∧ a = after := by
  induction n generalizing s with
  | zero =>
    refine returnsPure.trans ?_
    constructor
    · rintro ⟨rfl,rfl⟩
      exact .inr ⟨.zero _,rfl⟩
    · rintro (⟨k,less,_⟩ | ⟨fails,rfl⟩)
      · exact absurd less (Nat.not_lt_zero k)
      · cases fails
        exact ⟨rfl,rfl⟩
  | succ n ih =>
    refine returnsBind.trans ?_
    constructor
    · rintro ⟨x,u,first,more⟩
      cases x with
      | some b =>
        obtain ⟨rfl,rfl⟩ := returnsPure.mp more
        exact .inl ⟨0,Nat.succ_pos n,s,.zero s,first⟩
      | none =>
        rcases ih.mp more with ⟨k,less,v,fails,last⟩ | ⟨fails,same⟩
        · exact .inl ⟨k + 1,Nat.succ_lt_succ less,v,.succ first fails,last⟩
        · exact .inr ⟨.succ first fails,same⟩
    · rintro (⟨k,less,v,fails,last⟩ | ⟨fails,same⟩)
      · cases fails with
        | zero => exact ⟨some a,t,last,returnsPure.mpr ⟨rfl,rfl⟩⟩
        | succ first later =>
          exact ⟨none,_,first,ih.mpr (.inl ⟨_,Nat.lt_of_succ_lt_succ less,v,later,last⟩)⟩
      · cases fails with
        | succ first later => exact ⟨none,_,first,ih.mpr (.inr ⟨later,same⟩)⟩

theorem attemptsRule {body : Program ε σ (Option α)} {after : α} (Inv : σ → Prop)
    (keep : ∀ s t, Inv s → body.Returns s none t → Inv t) {n s a t} (start : Inv s)
    (h : (attempts body after n).Returns s a t) :
    a = after ∧ Inv t ∨ ∃ u, Inv u ∧ body.Returns u (some a) t := by
  rcases attemptsReturns.mp h with ⟨k,_,u,fails,last⟩ | ⟨fails,same⟩
  · exact .inr ⟨u,failsInvariant Inv keep start fails,last⟩
  · exact .inl ⟨same,failsInvariant Inv keep start fails⟩

theorem attemptsFirst {body : Program ε σ (Option α)} (after : α) {n s a t} (positive : 0 < n)
    (h : body.Returns s (some a) t) : (attempts body after n).Returns s a t :=
  attemptsReturns.mpr (.inl ⟨0,positive,s,.zero s,h⟩)

theorem raisesStep {f : σ → Except ε α × σ} {s e t} : (step f).Raises s e t ↔ f s = (.error e,t) := by
  constructor
  · rintro ⟨_,h⟩
    injection h with hv ht
    exact Prod.ext hv ht
  · intro h
    exact ⟨0,by simp only [step,h]⟩

theorem raisesAttempts {body : Program ε σ (Option α)} {after : α} {n s e t} :
    (attempts body after n).Raises s e t ↔ ∃ k < n, ∃ u, Fails body k s u ∧ body.Raises u e t := by
  induction n generalizing s with
  | zero =>
    refine raisesStep.trans ?_
    simp
  | succ n ih =>
    refine raisesBind.trans ?_
    constructor
    · rintro (first | ⟨x,u,first,more⟩)
      · exact ⟨0,Nat.succ_pos n,s,.zero s,first⟩
      · cases x with
        | some b =>
          have bad := raisesStep.mp more
          simp at bad
        | none =>
          obtain ⟨k,less,v,fails,last⟩ := ih.mp more
          exact ⟨k + 1,Nat.succ_lt_succ less,v,.succ first fails,last⟩
    · rintro ⟨k,less,v,fails,last⟩
      cases fails with
      | zero => exact .inl last
      | succ first later => exact .inr ⟨none,_,first,ih.mpr ⟨_,Nat.lt_of_succ_lt_succ less,v,later,last⟩⟩

def beside (τ : Type) (c : Program ε σ α) : Program ε (σ × τ) α where
  run fuel s := match c.run fuel s.1 with
    | .running => .running
    | .done v t => .done v (t,s.2)
  stable {fuel s v t} h := by
    cases ran : c.run fuel s.1 with
    | running => simp [ran] at h
    | done w u =>
      simp only [ran] at h
      simp only [c.stable ran]
      exact h

theorem evaluatesBeside {τ : Type} {c : Program ε σ α} {s t : σ × τ} {v} :
    (c.beside τ).Evaluates s v t ↔ c.Evaluates s.1 v t.1 ∧ t.2 = s.2 := by
  constructor
  · rintro ⟨fuel,h⟩
    simp only [beside] at h
    split at h
    · cases h
    · rename_i w u ran
      cases h
      exact ⟨⟨fuel,ran⟩,rfl⟩
  · rintro ⟨⟨fuel,ran⟩,same⟩
    refine ⟨fuel,?_⟩
    simp only [beside,ran,← same]

def ErrorsIn (errors : ε → Prop) (c : Program ε σ α) : Prop := ∀ s e t, c.Raises s e t → errors e

def Unfailing (c : Program ε σ α) : Prop := c.ErrorsIn fun _ => False

theorem Unfailing.errors {c : Program ε σ α} (h : c.Unfailing) (errors : ε → Prop) : c.ErrorsIn errors :=
  fun s e t raised => (h s e t raised).elim

section Errors
variable {errors : ε → Prop}

theorem errorsStep {f : σ → Except ε α × σ} (ok : ∀ s, ∃ a t, f s = (.ok a,t)) : (step f).ErrorsIn errors := by
  intro s e t raised
  obtain ⟨a,u,same⟩ := ok s
  have bad := raisesStep.mp raised
  rw [same] at bad
  cases bad

theorem pureNever {a : α} {s t : σ} {e : ε} : ¬ (pure a : Program ε σ α).Raises s e t := by
  intro raised
  cases raisesStep.mp raised

theorem errorsPure (a : α) : (pure a : Program ε σ α).ErrorsIn errors := fun _ _ _ raised => absurd raised pureNever

theorem errorsLift {v : Except ε α} (h : ∀ e, v = .error e → errors e) : (lift v : Program ε σ α).ErrorsIn errors := by
  intro s e t raised
  have same := raisesStep.mp raised
  exact h e (congrArg Prod.fst same)

theorem errorsBind {c : Program ε σ α} {next : α → Program ε σ β} (first : c.ErrorsIn errors)
    (rest : ∀ s a t, c.Returns s a t → (next a).ErrorsIn errors) : (c >>= next).ErrorsIn errors := by
  intro s e t raised
  rcases raisesBind.mp raised with bad | ⟨a,u,ran,bad⟩
  · exact first s e t bad
  · exact rest s a u ran u e t bad

theorem errorsAfter {c : Program ε σ α} {next : α → Program ε σ β} {a : α} (first : ∀ s, c.Returns s a s) :
    (c >>= next).ErrorsIn errors ↔ (next a).ErrorsIn errors :=
  ⟨fun h s e t raised => h s e t ((evaluatesAfter (first s)).mpr raised),
    fun h s e t raised => h s e t ((evaluatesAfter (first s)).mp raised)⟩

theorem errorsRaised {c : Program ε σ α} (next : α → Program ε σ β) {s e t} (raised : c.Raises s e t)
    (bad : ¬ errors e) : ¬ (c >>= next).ErrorsIn errors :=
  fun h => bad (h s e t (raisesBind.mpr (.inl raised)))

theorem errorsLoop {body : α → Program ε σ (α ⊕ β)} (pass : ∀ a, (body a).ErrorsIn errors) (a : α) :
    (loop body a).ErrorsIn errors := by
  rintro s e t ⟨fuel,h⟩
  have passes : ∀ n a s, iterate body fuel n a s = .done (.error e) t → errors e := by
    intro n
    induction n with
    | zero => intro a s h; simp [iterate] at h
    | succ n ih =>
      intro a s h
      obtain ⟨f,hf,same⟩ | ⟨x,u,_,hn⟩ := Outcome.bindDone h
      · cases same
        exact pass a s e t ⟨fuel,hf⟩
      · cases x with
        | inl again => exact ih again u hn
        | inr out => simp at hn
  exact passes fuel a s h

theorem errorsAttempts {body : Program ε σ (Option α)} {after : α} (pass : body.ErrorsIn errors) (n : Nat) :
    (attempts body after n).ErrorsIn errors := by
  intro s e t raised
  obtain ⟨_,_,u,_,last⟩ := raisesAttempts.mp raised
  exact pass u e t last

end Errors

def Keeps (R : σ → σ → Prop) (c : Program ε σ α) : Prop := ∀ s v t, c.Evaluates s v t → R s t

theorem keepsStep {R : σ → σ → Prop} {f : σ → Except ε α × σ} (each : ∀ s, R s (f s).2) : (step f).Keeps R := by
  rintro s v t ⟨_,h⟩
  injection h with _ ht
  exact ht ▸ each s

section Keeps
variable {R : σ → σ → Prop} [IsPreorder σ R]

theorem keepsPure (a : α) : (pure a : Program ε σ α).Keeps R := keepsStep fun s => refl_of R s

theorem keepsBind {c : Program ε σ α} {next : α → Program ε σ β} (first : c.Keeps R)
    (rest : ∀ a, (next a).Keeps R) : (c >>= next).Keeps R := by
  intro s v t h
  rcases evaluatesBind.mp h with ⟨e,raised,_⟩ | ⟨a,u,ran,later⟩
  · exact first s _ t raised
  · exact trans_of R (first s _ u ran) (rest a u v t later)

theorem keepsLoop {body : α → Program ε σ (α ⊕ β)} (pass : ∀ a, (body a).Keeps R) (a : α) : (loop body a).Keeps R := by
  rintro s v t ⟨fuel,h⟩
  have passes : ∀ n a s, iterate body fuel n a s = .done v t → R s t := by
    intro n
    induction n with
    | zero => intro a s h; simp [iterate] at h
    | succ n ih =>
      intro a s h
      obtain ⟨e,he,_⟩ | ⟨x,u,hx,hn⟩ := Outcome.bindDone h
      · exact pass a s _ t ⟨fuel,he⟩
      · have first := pass a s _ u ⟨fuel,hx⟩
        cases x with
        | inl again => exact trans_of R first (ih again u hn)
        | inr out =>
          simp only [Outcome.done.injEq] at hn
          exact hn.2 ▸ first
  exact passes fuel a s h

theorem keepsAttempts {body : Program ε σ (Option α)} {after : α} (pass : body.Keeps R) (n : Nat) :
    (attempts body after n).Keeps R := by
  induction n with
  | zero => exact keepsPure after
  | succ n ih =>
    refine keepsBind pass fun x => ?_
    cases x with
    | some a => exact keepsPure a
    | none => exact ih

end Keeps

theorem endsPure (a : α) (s : σ) : (pure a : Program ε σ α).Ends s :=
  ⟨a,s,returnsPure.mpr ⟨rfl,rfl⟩⟩

theorem endsStep {f : σ → Except ε α × σ} {s a t} (h : f s = (.ok a,t)) : (step f).Ends s :=
  ⟨a,t,returnsStep.mpr h⟩

theorem endsBind {c : Program ε σ α} {next : α → Program ε σ β} {s}
    (first : c.Ends s) (rest : ∀ a t, c.Returns s a t → (next a).Ends t) : (c >>= next).Ends s := by
  obtain ⟨a,u,ha⟩ := first
  obtain ⟨b,t,hb⟩ := rest a u ha
  exact ⟨b,t,returnsBind.mpr ⟨a,u,ha,hb⟩⟩

def Halts (c : Program ε σ α) (s : σ) : Prop := ∃ v t, c.Evaluates s v t

theorem haltsStep (f : σ → Except ε α × σ) (s : σ) : (step f).Halts s := ⟨_,_,0,rfl⟩

theorem haltsPure (a : α) (s : σ) : (pure a : Program ε σ α).Halts s := haltsStep _ s

theorem haltsEnds {c : Program ε σ α} {s} (ends : c.Ends s) : c.Halts s := by
  obtain ⟨a,t,ran⟩ := ends
  exact ⟨_,t,ran⟩

theorem haltsBind {c : Program ε σ α} {next : α → Program ε σ β} {s}
    (first : c.Halts s) (rest : ∀ a t, c.Returns s a t → (next a).Halts t) : (c >>= next).Halts s := by
  obtain ⟨v,u,ran⟩ := first
  cases v with
  | error e => exact ⟨_,u,evaluatesBind.mpr (.inl ⟨e,ran,rfl⟩)⟩
  | ok a =>
    obtain ⟨w,t,later⟩ := rest a u ran
    exact ⟨w,t,evaluatesBind.mpr (.inr ⟨a,u,ran,later⟩)⟩

theorem endsLoop {body : α → Program ε σ (α ⊕ β)} (Inv : α → σ → Prop) (size : α → σ → Nat)
    (pass : ∀ a s, Inv a s → (body a).Ends s)
    (again : ∀ a s next u, Inv a s → (body a).Returns s (.inl next) u → Inv next u ∧ size next u < size a s)
    {a s} (start : Inv a s) : (loop body a).Ends s := by
  generalize measure : size a s = n
  induction n using Nat.strongRecOn generalizing a s with
  | ind n ih =>
    obtain ⟨x,u,hx⟩ := pass a s start
    cases x with
    | inr out => exact ⟨out,u,returnsLoop.mpr (.inl hx)⟩
    | inl next =>
      obtain ⟨kept,less⟩ := again a s next u start hx
      obtain ⟨b,t,hb⟩ := ih _ (measure ▸ less) kept rfl
      exact ⟨b,t,returnsLoop.mpr (.inr ⟨next,u,hx,hb⟩)⟩

def Total (c : Program ε σ α) (s : σ) (good : α → σ → Prop) (bad : ε → σ → Prop) : Prop :=
  (∃ a t, c.Returns s a t ∧ good a t) ∨ ∃ e t, c.Raises s e t ∧ bad e t

section Total
variable {good : α → σ → Prop} {bad : ε → σ → Prop}

theorem totalReturns {c : Program ε σ α} {s a t} (ran : c.Returns s a t) (post : good a t) : c.Total s good bad :=
  .inl ⟨a,t,ran,post⟩

theorem totalPure {a : α} {s : σ} (post : good a s) : (pure a : Program ε σ α).Total s good bad :=
  totalReturns (returnsPure.mpr ⟨rfl,rfl⟩) post

theorem totalBind {c : Program ε σ α} {next : α → Program ε σ β} {good : β → σ → Prop} {s}
    (h : c.Total s (fun a u => (next a).Total u good bad) bad) : (c >>= next).Total s good bad := by
  rcases h with ⟨a,u,first,⟨b,t,later,post⟩ | ⟨e,t,raised,post⟩⟩ | ⟨e,t,raised,post⟩
  · exact .inl ⟨b,t,returnsBind.mpr ⟨a,u,first,later⟩,post⟩
  · exact .inr ⟨e,t,raisesBind.mpr (.inr ⟨a,u,first,raised⟩),post⟩
  · exact .inr ⟨e,t,raisesBind.mpr (.inl raised),post⟩

theorem totalAfter {c : Program ε σ α} {next : α → Program ε σ β} {good : β → σ → Prop} {s a u}
    (first : c.Returns s a u) (later : (next a).Total u good bad) : (c >>= next).Total s good bad :=
  totalBind (totalReturns first later)

theorem totalWeaken {c : Program ε σ α} {good' : α → σ → Prop} {bad' : ε → σ → Prop} {s} (h : c.Total s good bad)
    (returned : ∀ a t, good a t → good' a t) (raised : ∀ e t, bad e t → bad' e t) : c.Total s good' bad' := by
  rcases h with ⟨a,t,ran,post⟩ | ⟨e,t,ran,post⟩
  · exact .inl ⟨a,t,ran,returned a t post⟩
  · exact .inr ⟨e,t,ran,raised e t post⟩

theorem totalLoop {body : α → Program ε σ (α ⊕ β)} {good : β → σ → Prop} (Inv : α → σ → Prop) (size : α → σ → Nat)
    (pass : ∀ a s, Inv a s → (body a).Total s (fun x t => match x with
      | .inl next => Inv next t ∧ size next t < size a s
      | .inr out => good out t) bad) {a s} (start : Inv a s) : (loop body a).Total s good bad := by
  generalize measure : size a s = n
  induction n using Nat.strongRecOn generalizing a s with
  | ind n ih =>
    rcases pass a s start with ⟨x,u,ran,post⟩ | ⟨e,t,raised,post⟩
    · cases x with
      | inr out => exact .inl ⟨out,u,returnsLoop.mpr (.inl ran),post⟩
      | inl next =>
        rcases ih _ (measure ▸ post.2) post.1 rfl with ⟨b,t,later,holds⟩ | ⟨e,t,raised,holds⟩
        · exact .inl ⟨b,t,returnsLoop.mpr (.inr ⟨next,u,ran,later⟩),holds⟩
        · exact .inr ⟨e,t,evaluatesLoop.mpr (raisesBind.mpr (.inr ⟨_,u,ran,raised⟩)),holds⟩
    · exact .inr ⟨e,t,evaluatesLoop.mpr (raisesBind.mpr (.inl raised)),post⟩

theorem totalAttempts {body : Program ε σ (Option α)} {after : α} (Inv : Nat → σ → Prop) {k n s}
    (pass : ∀ i s, i < k + n → Inv i s → body.Total s (fun x t => match x with
      | some a => good a t
      | none => Inv (i + 1) t) bad)
    (last : ∀ s, Inv (k + n) s → good after s) (start : Inv k s) : (attempts body after n).Total s good bad := by
  induction n generalizing k s with
  | zero => exact totalPure (last s start)
  | succ n ih =>
    have rest : k + 1 + n = k + (n + 1) := Nat.succ_add_eq_add_succ k n
    refine totalBind (totalWeaken (pass k s (by omega) start) (fun x t post => ?_) fun _ _ post => post)
    cases x with
    | some a => exact totalPure post
    | none => exact ih (fun i u less => pass i u (rest ▸ less)) (fun u => rest ▸ last u) post

end Total

theorem failsLast {body : Program ε σ (Option α)} {k s t u} (fails : Fails body k s t) (last : body.Returns t none u) :
    Fails body (k + 1) s u := by
  induction fails with
  | zero => exact .succ last (.zero u)
  | succ first later ih => exact .succ first (ih last)

end Program
end Imperative
