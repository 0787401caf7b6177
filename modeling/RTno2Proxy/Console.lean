import RTno2Proxy.Dispatch
import RTno2Proxy.Inject

/-! src/rtno_main.cpp: `do_interactive`, from the text on the standard input to the lines that its commands print. -/
namespace RTno2Proxy
namespace Commands
open Imperative
open Interactive (word strsplit)
open Program (Congruence)
variable {σ τ : Type} {floats : Floats} {objects : Nat → Nat → UInt8}

/- What is left of the standard input, the lines on the standard output apart from the prompts and what the
logger writes there, and the number of commands made. -/
structure Console where
  stdin : Bytes
  stdout : List Bytes
  made : Nat
  deriving DecidableEq

def nextElems (stdin : Bytes) : List Bytes × Bytes :=
  let read := (Tokens.getline (ascii '\n') stdin).getD ([],[])
  (strsplit read.1 ' ',read.2)

/- `objects` is what lies in the vector objects of each command. -/
def interactivePass (h : Host σ) (floats : Floats) (objects : Nat → Nat → UInt8) (c : Console) : Act σ (Console ⊕ Console) :=
  let elems := nextElems c.stdin
  match elems.1 with
  | [] => pure (.inl {c with stdin := elems.2})
  | first :: rest =>
      if first = word "exit" then pure (.inr {c with stdin := elems.2})
      else do
        let out ← doMain h floats (objects c.made) first (first :: rest) (1000 * 1000)
        pure (.inl ⟨elems.2,c.stdout ++ out.2,c.made + 1⟩)

def doInteractive (h : Host σ) (floats : Floats) (objects : Nat → Nat → UInt8) (stdin : Bytes) : Act σ Console :=
  Program.loop (interactivePass h floats objects) ⟨stdin,[],0⟩

section Typed

def names (stdin : Bytes) : List Bytes := (strsplit stdin '\n').filterMap fun line => (strsplit line ' ').head?

def typed (stdin : Bytes) : List Bytes := (names stdin).takeWhile (· ≠ word "exit")

theorem namesElems (stdin : Bytes) : names stdin = (nextElems stdin).1.head?.toList ++ names (nextElems stdin).2 := by
  have item (item rest : Bytes) (free : ascii '\n' ∉ item) (split : strsplit stdin '\n' =
      if item ≠ [] then item :: strsplit rest '\n' else strsplit rest '\n') :
      names stdin = (strsplit item ' ').head?.toList ++ names rest := by
    unfold names
    rw [split]
    split
    · rw [List.filterMap_cons]
      cases (strsplit item ' ').head? <;> rfl
    · rename_i empty
      rw [not_not.mp empty]
      rfl
  by_cases broken : ascii '\n' ∈ stdin
  · obtain ⟨line,rest,rfl,free⟩ := List.eq_append_cons_of_mem broken
    have read := Tokens.getlineItem rest free
    rw [nextElems,read]
    exact item line rest free (Tokens.tokensItem rest free)
  · cases stdin with
    | nil => rfl
    | cons b stdin =>
      have read := Tokens.getlineLast (List.cons_ne_nil b stdin) broken
      rw [nextElems,read]
      exact item (b :: stdin) [] broken (Tokens.tokensLast broken)

theorem typedNothing {stdin : Bytes} (blank : (nextElems stdin).1 = []) : typed stdin = typed (nextElems stdin).2 := by
  rw [typed,namesElems,blank]
  rfl

theorem typedFirst {stdin first : Bytes} {rest : List Bytes} (elems : (nextElems stdin).1 = first :: rest)
    (other : first ≠ word "exit") : typed stdin = first :: typed (nextElems stdin).2 := by
  rw [typed,namesElems,elems]
  exact List.takeWhile_cons_of_pos (decide_eq_true other)

end Typed

inductive PassSource (h : Host σ) (floats : Floats) (objects : Nat → Nat → UInt8) (c : Console) (s : σ) :
    Except Fault (Console ⊕ Console) → σ → Prop where
  | blank (rest : Bytes) (same : typed c.stdin = typed rest) (left : names c.stdin = names rest) :
      PassSource h floats objects c s (.ok (.inl {c with stdin := rest})) s
  | exits (rest : Bytes) (nothing : typed c.stdin = []) (named : word "exit" ∈ names c.stdin) :
      PassSource h floats objects c s (.ok (.inr {c with stdin := rest})) s
  | raised {first rest : Bytes} {args : List Bytes} {e : Fault} {t : σ} (more : typed c.stdin = first :: typed rest)
      (ran : (doMain h floats (objects c.made) first args (1000 * 1000)).Raises s e t) :
      PassSource h floats objects c s (.error e) t
  | made {first rest : Bytes} {args : List Bytes} {out : Int × List Bytes} {t : σ} (more : typed c.stdin = first :: typed rest)
      (left : names c.stdin = first :: names rest)
      (ran : (doMain h floats (objects c.made) first args (1000 * 1000)).Returns s out t) :
      PassSource h floats objects c s (.ok (.inl ⟨rest,c.stdout ++ out.2,c.made + 1⟩)) t

theorem passSource {h : Host σ} {c : Console} {s t : σ} {v : Except Fault (Console ⊕ Console)}
    (ran : (interactivePass h floats objects c).Evaluates s v t) : PassSource h floats objects c s v t := by
  unfold interactivePass at ran
  dsimp only at ran
  have split := namesElems c.stdin
  cases elems : (nextElems c.stdin).1 with
  | nil =>
    rw [elems] at ran split
    obtain ⟨rfl,rfl⟩ := Program.evaluatesLift.mp ran
    exact .blank _ (typedNothing elems) split
  | cons first rest =>
    rw [elems] at ran split
    dsimp only at ran
    split at ran
    · rename_i exits
      obtain ⟨rfl,rfl⟩ := Program.evaluatesLift.mp ran
      have ends : names c.stdin = word "exit" :: names (nextElems c.stdin).2 := exits ▸ split
      refine .exits _ ?_ (ends ▸ List.mem_cons_self)
      rw [typed,ends]
      exact List.takeWhile_cons_of_neg (by simp)
    · rename_i other
      have more := typedFirst elems other
      rcases Program.evaluatesBind.mp ran with ⟨e,raised,rfl⟩ | ⟨out,u,returned,last⟩
      · exact .raised more raised
      · obtain ⟨rfl,rfl⟩ := Program.evaluatesLift.mp last
        exact .made more split returned

theorem interactiveReturns {h : Host σ} {stdin : Bytes} {out : Console} {s t : σ}
    (ran : (doInteractive h floats objects stdin).Returns s out t) :
    word "exit" ∈ names stdin ∧ out.made = (typed stdin).length := by
  have passes := Program.evaluatesLoopRule (motive := fun c (_ : σ) (v : Except Fault Console) (_ : σ) => ∀ out, v = .ok out →
    word "exit" ∈ names c.stdin ∧ out.made = c.made + (typed c.stdin).length) ?_ ?_ ?_ ran out rfl
  · exact ⟨passes.1,by rw [passes.2,Nat.zero_add]⟩
  · exact fun c s e t raised out never => nomatch never
  · rintro c s b t returned out same
    cases same
    cases passSource returned with
    | exits rest none named => exact ⟨named,by rw [none]; rfl⟩
  · intro c s next u v t returned later out same
    obtain ⟨named,count⟩ := later out same
    cases passSource returned with
    | blank rest same left => exact ⟨left ▸ named,by rw [count,same]⟩
    | made more left ran =>
      refine ⟨left ▸ List.mem_cons_of_mem _ named,?_⟩
      rw [count,more,List.length_cons]
      exact Nat.add_right_comm _ _ _

theorem interactiveReturnsUnknown : word "exit" ∈ names (word "help\nexit\nleft") ∧ 1 = (typed (word "help\nexit\nleft")).length := by
  obtain ⟨v,t,ran,good⟩ := Program.evaluatesEnded
    (c := doInteractive (Line.host .silent) noFloats (fun _ _ => 0) (word "help\nexit\nleft")) (s := .idle)
    (p := fun v _ => decide (v.toOption = some ⟨word "left",[],1⟩)) 5 (by decide +kernel)
  cases v with
  | error e => cases of_decide_eq_true good
  | ok out =>
    cases of_decide_eq_true good
    exact interactiveReturns ran

theorem doInteractiveRealised {Q : ∀ α : Type, Act σ α → Act τ α → Prop} {kinds : Command → Prop} {h : Host σ} {g : Host τ}
    (q : Congruence Own Q) (realises : h.Realises Q kinds g) (floats : Floats) (objects : Nat → Nat → UInt8) {stdin : Bytes}
    (allowed : ∀ name ∈ typed stdin, ∀ c ∈ requests name, kinds c) :
    Q _ (doInteractive h floats objects stdin) (doInteractive g floats objects stdin) := by
  refine q.loopWithin (I := fun c : Console => ∀ name ∈ typed c.stdin, ∀ k ∈ requests name, kinds k) ?_ ?_ _ allowed
  · intro c s next t inside returned
    cases passSource returned with
    | blank rest same left => exact same ▸ inside
    | made more left ran => exact fun name member => inside name (more ▸ List.mem_cons_of_mem _ member)
  · intro c inside
    unfold interactivePass
    dsimp only
    cases elems : (nextElems c.stdin).1 with
    | nil => exact q.value _
    | cons first rest =>
      dsimp only
      by_cases exits : first = word "exit"
      · rw [if_pos exits,if_pos exits]
        exact q.value _
      · rw [if_neg exits,if_neg exits]
        have mine := inside first (typedFirst elems exits ▸ List.mem_cons_self)
        exact q.bind (doMainRealised q realises floats _ _ _ mine) fun _ => q.value _

end Commands
end RTno2Proxy
