import RTno2Proxy.Program

/-! Programs beside one another: relations that the constructs of programs keep, and
one of them, in which a program stands for another. The second program reads its environment
from a schedule in its own state, the first one from an environment of its own. Which
schedule explains a run is known from its end backwards: `Matches` fixes the state
that the second program ends in before it is told what the schedule of the rest is. -/
namespace Imperative

namespace Program
variable {ε σ τ α β : Type}

theorem evaluatesLift {v w : Except ε α} {s t : σ} : (lift v).Evaluates s w t ↔ w = v ∧ t = s := by
  constructor
  · rintro ⟨_,h⟩
    cases h
    exact ⟨rfl,rfl⟩
  · rintro ⟨rfl,rfl⟩
    exact ⟨0,rfl⟩

theorem evaluatesStep {f : σ → Except ε α × σ} {s t : σ} {v : Except ε α} : (step f).Evaluates s v t ↔ f s = (v,t) := by
  constructor
  · rintro ⟨_,h⟩
    injection h with value state
    exact Prod.ext value state
  · intro h
    exact ⟨0,by simp only [step,h]⟩

def dropped (c : Program ε σ α) : Program ε σ Unit := c >>= fun _ => pure ()

theorem evaluatesDropped {c : Program ε σ α} {next : Program ε σ β} {s v t} :
    (c >>= fun _ => next).Evaluates s v t ↔ (c.dropped >>= fun _ => next).Evaluates s v t := by
  refine evaluatesBind.trans (Iff.trans ?_ evaluatesBind.symm)
  constructor
  · rintro (⟨e,raised,rfl⟩ | ⟨a,u,returned,later⟩)
    · exact .inl ⟨e,raisesBind.mpr (.inl raised),rfl⟩
    · exact .inr ⟨(),u,returnsBind.mpr ⟨a,u,returned,returnsPure.mpr ⟨rfl,rfl⟩⟩,later⟩
  · rintro (⟨e,raised,rfl⟩ | ⟨_,u,returned,later⟩)
    · rcases raisesBind.mp raised with first | ⟨a,u,_,never⟩
      · exact .inl ⟨e,first,rfl⟩
      · exact absurd never pureNever
    · obtain ⟨a,u,first,last⟩ := returnsBind.mp returned
      obtain ⟨_,rfl⟩ := returnsPure.mp last
      exact .inr ⟨a,_,first,later⟩

def Stays (I : α → Prop) (body : α → Program ε σ (α ⊕ β)) : Prop :=
  ∀ a s next t, I a → (body a).Returns s (.inl next) t → I next

/- Relations between programs that every construct keeps. `own` are the errors that a program raises by itself. -/
structure Congruence (own : ε → Prop) (Q : ∀ α : Type, Program ε σ α → Program ε τ α → Prop) : Prop where
  lift : ∀ {α : Type} (v : Except ε α), (∀ e, v = .error e → own e) → Q α (lift v) (lift v)
  bind : ∀ {α β : Type} {c : Program ε σ α} {d : Program ε τ α} {next : α → Program ε σ β} {next' : α → Program ε τ β},
    Q α c d → (∀ a, Q β (next a) (next' a)) → Q β (c >>= next) (d >>= next')
  lifted : ∀ {α β : Type} {v : Except ε α} {next : α → Program ε σ β} {next' : α → Program ε τ β},
    (∀ e, v = .error e → own e) → (∀ a, v = .ok a → Q β (next a) (next' a)) → Q β (Program.lift v >>= next) (Program.lift v >>= next')
  ignore : ∀ {α β γ : Type} {c : Program ε σ α} {d : Program ε τ β} {next : Program ε σ γ} {next' : Program ε τ γ},
    Q Unit c.dropped d.dropped → Q γ next next' → Q γ (c >>= fun _ => next) (d >>= fun _ => next')
  loopWithin : ∀ {α β : Type} {I : α → Prop} {body : α → Program ε σ (α ⊕ β)} {body' : α → Program ε τ (α ⊕ β)},
    Stays I body → (∀ a, I a → Q _ (body a) (body' a)) → ∀ a, I a → Q β (Program.loop body a) (Program.loop body' a)

namespace Congruence
variable {own : ε → Prop} {Q : ∀ α : Type, Program ε σ α → Program ε τ α → Prop}

theorem value (q : Congruence own Q) (a : α) : Q α (pure a) (pure a) := q.lift (.ok a) fun _ never => nomatch never

theorem raise (q : Congruence own Q) {e : ε} (mine : own e) : Q α (throw e) (throw e) :=
  q.lift (.error e) fun _ same => Except.error.inj same ▸ mine

theorem ite {p : Prop} [Decidable p] {c c' : Program ε σ α} {d d' : Program ε τ α} (yes : Q α c d) (no : Q α c' d') :
    Q α (if p then c else c') (if p then d else d') := by
  split
  · exact yes
  · exact no

theorem loop (q : Congruence own Q) {body : α → Program ε σ (α ⊕ β)} {body' : α → Program ε τ (α ⊕ β)}
    (pass : ∀ a, Q _ (body a) (body' a)) (a : α) : Q β (Program.loop body a) (Program.loop body' a) :=
  q.loopWithin (I := fun _ => True) (fun _ _ _ _ _ _ => trivial) (fun a _ => pass a) a trivial

theorem attempts (q : Congruence own Q) {body : Program ε σ (Option α)} {body' : Program ε τ (Option α)} (after : α)
    (pass : Q _ body body') (n : Nat) : Q α (attempts body after n) (attempts body' after n) := by
  induction n with
  | zero => exact q.value after
  | succ n ih =>
    refine q.bind pass fun x => ?_
    cases x with
    | some a => exact q.value a
    | none => exact ih

end Congruence

def Signals (e : ε) (bad : σ → Prop) (c : Program ε σ α) : Prop :=
  ∀ s v t, ¬ bad s → c.Evaluates s v t → (v = .error e ↔ bad t)

theorem signalsLift {e : ε} {bad : σ → Prop} {v : Except ε α} (other : v ≠ .error e) : (lift v : Program ε σ α).Signals e bad := by
  intro s w t good ran
  obtain ⟨rfl,rfl⟩ := evaluatesLift.mp ran
  exact ⟨fun same => absurd same other,fun bad => absurd bad good⟩

theorem signalsBind {e : ε} {bad : σ → Prop} {c : Program ε σ α} {next : α → Program ε σ β} (first : c.Signals e bad)
    (rest : ∀ s a t, c.Returns s a t → (next a).Signals e bad) : (c >>= next).Signals e bad := by
  intro s v t good ran
  rcases evaluatesBind.mp ran with ⟨f,raised,rfl⟩ | ⟨a,u,returned,later⟩
  · have ended := first s (.error f) t good raised
    exact ⟨fun same => ended.mp (congrArg Except.error (Except.error.inj same)),
      fun bad => congrArg Except.error (Except.error.inj (ended.mpr bad))⟩
  · have still : ¬ bad u := fun bad => nomatch (first s (.ok a) u good returned).mpr bad
    exact rest s a u returned u v t still later

theorem signalsLoop {e : ε} {bad : σ → Prop} {I : α → Prop} {body : α → Program ε σ (α ⊕ β)} (stays : Stays I body)
    (pass : ∀ a, I a → (body a).Signals e bad) (a : α) (start : I a) : (loop body a).Signals e bad := by
  intro s v t good ran
  refine evaluatesLoopRule (motive := fun a s v t => I a → ¬ bad s → (v = .error e ↔ bad t)) ?_ ?_ ?_ ran start good
  · intro a s f t raised inside good
    have ended := pass a inside s (.error f) t good raised
    exact ⟨fun same => ended.mp (congrArg Except.error (Except.error.inj same)),
      fun bad => congrArg Except.error (Except.error.inj (ended.mpr bad))⟩
  · intro a s b t returned inside good
    have ended := pass a inside s (.ok (.inr b)) t good returned
    exact ⟨fun never => (nomatch never),fun bad => nomatch ended.mpr bad⟩
  · intro a s next u v t returned later inside good
    exact later (stays a s next u inside returned) fun bad => nomatch (pass a inside s (.ok (.inl next)) u good returned).mpr bad

theorem signalsCongruence (e : ε) (bad : σ → Prop) :
    Congruence (· ≠ e) fun α (c : Program ε σ α) (_ : Program ε σ α) => c.Signals e bad where
  lift _ mine := signalsLift fun same => mine e same rfl
  bind first rest := signalsBind first fun _ a _ _ => rest a
  lifted mine rest := signalsBind (signalsLift fun same => mine e same rfl) fun _ a _ given =>
    rest a (evaluatesLift.mp given).1.symm
  ignore first rest s v t good ran := signalsBind first (fun _ _ _ _ => rest) s v t good (evaluatesDropped.mp ran)
  loopWithin := signalsLoop

section Keeps
variable {R : σ → σ → Prop} [IsPreorder σ R]

theorem keepsLoopWithin {I : α → Prop} {body : α → Program ε σ (α ⊕ β)} (stays : Stays I body)
    (pass : ∀ a, I a → (body a).Keeps R) (a : α) (start : I a) : (loop body a).Keeps R := by
  intro s v t ran
  refine evaluatesLoopRule (motive := fun a s _ t => I a → R s t) ?_ ?_ ?_ ran start
  · exact fun a s e t raised inside => pass a inside s _ t raised
  · exact fun a s b t returned inside => pass a inside s _ t returned
  · exact fun a s next u v t returned later inside =>
      trans_of R (pass a inside s _ u returned) (later (stays a s next u inside returned))

theorem keepsCongruence (own : ε → Prop) :
    Congruence own fun α (c : Program ε σ α) (_ : Program ε σ α) => c.Keeps R where
  lift v _ := keepsStep fun s => refl_of R s
  bind first rest := keepsBind first rest
  lifted _ rest s w t ran := by
    rcases evaluatesBind.mp ran with ⟨e,raised,_⟩ | ⟨a,u,given,later⟩
    · rw [(evaluatesLift.mp raised).2]
      exact refl_of R s
    · obtain ⟨same,rfl⟩ := evaluatesLift.mp given
      exact rest a same.symm u w t later
  ignore first rest s v t ran := keepsBind first (fun _ => rest) s v t (evaluatesDropped.mp ran)
  loopWithin := keepsLoopWithin

end Keeps

end Program

def Retains {σ : Type} (bad : σ → Prop) (s t : σ) : Prop := bad s → bad t

instance {σ : Type} (bad : σ → Prop) : IsPreorder σ (Retains bad) where
  refl _ h := h
  trans _ _ _ first later h := later (first h)

/- `related` does not look at the schedule that `under` puts into a state; from a
`spoiled` state on nothing is said any more. -/
structure Correspondence (σ τ ρ : Type) where
  related : σ → τ → Prop
  under : ρ → τ → τ
  spoiled : σ → Prop

namespace Correspondence
variable {ε σ τ ρ α : Type}

def Matches (k : Correspondence σ τ ρ) (d : Program ε τ α) (t : τ) (v : Except ε α) (s : σ) : Prop :=
  ∃ t', k.related s t' ∧ ∀ later, ∃ now, d.Evaluates (k.under now t) v (k.under later t')

end Correspondence

namespace Program
variable {ε σ τ ρ α β : Type}

structure Simulates (k : Correspondence σ τ ρ) (c : Program ε σ α) (d : Program ε τ α) : Prop where
  spoils : c.Keeps (Retains k.spoiled)
  runs : ∀ {s t v s'}, k.related s t → c.Evaluates s v s' → ¬ k.spoiled s' → k.Matches d t v s'

section Rules
variable {k : Correspondence σ τ ρ}

theorem matchesLift {v : Except ε α} {s : σ} {t : τ} (related : k.related s t) : k.Matches (lift v) t v s :=
  ⟨t,related,fun later => ⟨later,evaluatesLift.mpr ⟨rfl,rfl⟩⟩⟩

theorem simulatesLift (v : Except ε α) : Simulates k (lift v) (lift v) where
  spoils := keepsStep fun _ h => h
  runs related ran _ := by
    obtain ⟨rfl,rfl⟩ := evaluatesLift.mp ran
    exact matchesLift related

theorem simulatesPure (a : α) : Simulates k (pure a : Program ε σ α) (pure a) := simulatesLift (.ok a)

theorem matchesAfter {d : Program ε τ α} {next : α → Program ε τ β} {t a u v s} (first : ∀ later, ∃ now,
    d.Returns (k.under now t) a (k.under later u)) (rest : k.Matches (next a) u v s) : k.Matches (d >>= next) t v s := by
  obtain ⟨t',related,schedules⟩ := rest
  refine ⟨t',related,fun later => ?_⟩
  obtain ⟨middle,ended⟩ := schedules later
  obtain ⟨now,began⟩ := first middle
  exact ⟨now,evaluatesBind.mpr (.inr ⟨a,_,began,ended⟩)⟩

theorem matchesRaised {d : Program ε τ α} {next : α → Program ε τ β} {t e s} (first : k.Matches d t (.error e) s) :
    k.Matches (d >>= next) t (.error e) s := by
  obtain ⟨t',related,schedules⟩ := first
  refine ⟨t',related,fun later => ?_⟩
  obtain ⟨now,raised⟩ := schedules later
  exact ⟨now,evaluatesBind.mpr (.inl ⟨e,raised,rfl⟩)⟩

theorem simulatesLifted {v : Except ε α} {next : α → Program ε σ β} {next' : α → Program ε τ β}
    (rest : ∀ a, v = .ok a → Simulates k (next a) (next' a)) : Simulates k (lift v >>= next) (lift v >>= next') where
  spoils s w t ran := by
    rcases evaluatesBind.mp ran with ⟨e,raised,_⟩ | ⟨a,u,given,later⟩
    · rw [(evaluatesLift.mp raised).2]
      exact refl_of (Retains k.spoiled) s
    · obtain ⟨same,rfl⟩ := evaluatesLift.mp given
      exact (rest a same.symm).spoils u w t later
  runs {s t w s'} related ran clean := by
    rcases evaluatesBind.mp ran with ⟨e,raised,rfl⟩ | ⟨a,u,given,later⟩
    · obtain ⟨rfl,rfl⟩ := evaluatesLift.mp raised
      exact matchesRaised (matchesLift related)
    · obtain ⟨rfl,rfl⟩ := evaluatesLift.mp given
      exact matchesAfter (fun later => ⟨later,evaluatesLift.mpr ⟨rfl,rfl⟩⟩) ((rest a rfl).runs related later clean)

theorem simulatesBind {c : Program ε σ α} {d : Program ε τ α} {next : α → Program ε σ β} {next' : α → Program ε τ β}
    (first : Simulates k c d) (rest : ∀ a, Simulates k (next a) (next' a)) : Simulates k (c >>= next) (d >>= next') where
  spoils := keepsBind first.spoils fun a => (rest a).spoils
  runs {s t v s'} related ran clean := by
    rcases evaluatesBind.mp ran with ⟨e,raised,rfl⟩ | ⟨a,u,returned,later⟩
    · exact matchesRaised (first.runs related raised clean)
    · have unspoiled : ¬ k.spoiled u := fun bad => clean ((rest a).spoils u v s' later bad)
      obtain ⟨w,middle,schedules⟩ := first.runs related returned unspoiled
      exact matchesAfter schedules ((rest a).runs middle later clean)

theorem simulatesDropped {c : Program ε σ α} {d : Program ε τ β} {γ : Type} {next : Program ε σ γ} {next' : Program ε τ γ}
    (first : Simulates k c.dropped d.dropped) (rest : Simulates k next next') :
    Simulates k (c >>= fun _ => next) (d >>= fun _ => next') := by
  have both := simulatesBind first fun _ => rest
  refine ⟨fun s v t ran => both.spoils s v t (evaluatesDropped.mp ran),fun related ran clean => ?_⟩
  obtain ⟨t',ended,schedules⟩ := both.runs related (evaluatesDropped.mp ran) clean
  refine ⟨t',ended,fun later => ?_⟩
  obtain ⟨now,same⟩ := schedules later
  exact ⟨now,evaluatesDropped.mpr same⟩

theorem simulatesIgnored (a : α) (b : β) :
    Simulates k (pure a : Program ε σ α).dropped (pure b : Program ε τ β).dropped where
  spoils := keepsBind (keepsPure a) fun _ => keepsPure ()
  runs related ran _ := by
    obtain ⟨rfl,rfl⟩ := evaluatesLift.mp ((evaluatesAfter (returnsPure.mpr ⟨rfl,rfl⟩)).mp ran)
    exact matchesAfter (a := b) (fun later => ⟨later,returnsPure.mpr ⟨rfl,rfl⟩⟩) (matchesLift related)

theorem simulatesLoop {I : α → Prop} {body : α → Program ε σ (α ⊕ β)} {body' : α → Program ε τ (α ⊕ β)} (stays : Stays I body)
    (pass : ∀ a, I a → Simulates k (body a) (body' a)) (a : α) (start : I a) : Simulates k (loop body a) (loop body' a) where
  spoils := keepsLoopWithin stays (fun a inside => (pass a inside).spoils) a start
  runs {s t v s'} related ran := by
    have spoils : ∀ a, I a → (loop body a).Keeps (Retains k.spoiled) :=
      keepsLoopWithin stays fun a inside => (pass a inside).spoils
    have runs : (loop body a).Evaluates s v s' ∧
        (I a → ∀ t, k.related s t → ¬ k.spoiled s' → k.Matches (loop body' a) t v s') := by
      refine evaluatesLoopRule (motive := fun a s v s' => (loop body a).Evaluates s v s' ∧
        (I a → ∀ t, k.related s t → ¬ k.spoiled s' → k.Matches (loop body' a) t v s')) ?_ ?_ ?_ ran
      · intro a s e s' raised
        refine ⟨evaluatesLoop.mpr (raisesBind.mpr (.inl raised)),fun inside t related clean => ?_⟩
        obtain ⟨t',ended,schedules⟩ := (pass a inside).runs related raised clean
        refine ⟨t',ended,fun later => ?_⟩
        obtain ⟨now,same⟩ := schedules later
        exact ⟨now,evaluatesLoop.mpr (raisesBind.mpr (.inl same))⟩
      · intro a s b s' returned
        refine ⟨returnsLoop.mpr (.inl returned),fun inside t related clean => ?_⟩
        obtain ⟨t',ended,schedules⟩ := (pass a inside).runs related returned clean
        refine ⟨t',ended,fun later => ?_⟩
        obtain ⟨now,same⟩ := schedules later
        exact ⟨now,returnsLoop.mpr (.inl same)⟩
      · intro a s next u v s' returned ⟨rest,ih⟩
        refine ⟨evaluatesLoop.mpr (evaluatesBind.mpr (.inr ⟨_,u,returned,rest⟩)),fun inside t related clean => ?_⟩
        have onward := stays a s next u inside returned
        have unspoiled : ¬ k.spoiled u := fun bad => clean (spoils next onward u v s' rest bad)
        obtain ⟨w,middle,first⟩ := (pass a inside).runs related returned unspoiled
        obtain ⟨t',ended,others⟩ := ih onward w middle clean
        refine ⟨t',ended,fun later => ?_⟩
        obtain ⟨between,went⟩ := others later
        obtain ⟨now,began⟩ := first between
        exact ⟨now,evaluatesLoop.mpr (evaluatesBind.mpr (.inr ⟨_,_,began,went⟩))⟩
    exact runs.2 start t related

theorem simulatesCongruence (own : ε → Prop) : Congruence own fun α (c : Program ε σ α) (d : Program ε τ α) => Simulates k c d where
  lift v _ := simulatesLift v
  bind := simulatesBind
  lifted _ := simulatesLifted
  ignore := simulatesDropped
  loopWithin := simulatesLoop

theorem simulatesRun {c : Program ε σ α} {d : Program ε τ α} {s t v s'} (simulates : Simulates k c d) (related : k.related s t)
    (ran : c.Evaluates s v s') (clean : ¬ k.spoiled s') (later : ρ) :
    ∃ now t', k.related s' t' ∧ d.Evaluates (k.under now t) v (k.under later t') := by
  obtain ⟨t',ended,schedules⟩ := simulates.runs related ran clean
  obtain ⟨now,same⟩ := schedules later
  exact ⟨now,t',ended,same⟩

end Rules

end Program
end Imperative
