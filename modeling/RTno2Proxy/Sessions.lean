import RTno2Proxy.Links
import RTno2Proxy.Lockstep

/-! Sessions on a device: the calls of any sequence, one after another, and what a board that keeps in
step with them makes of it. -/
namespace RTno2Proxy
open Imperative
open Program (Simulates Congruence)
open Protocol (IsPort)
variable {σ τ : Type}

def session (h : Host σ) : List Call → Act σ (List Reply)
  | [] => pure []
  | call :: rest => do
      let reply ← call.run h
      let more ← session h rest
      pure (reply :: more)

theorem sessionRealised {Q : ∀ α : Type, Act σ α → Act τ α → Prop} {kinds : Command → Prop} {h : Host σ} {g : Host τ}
    (q : Congruence Own Q) (realises : h.Realises Q kinds g) (calls : List Call) (allowed : ∀ c ∈ calls, kinds c.operation.kind) :
    Q _ (session h calls) (session g calls) := by
  induction calls with
  | nil => exact q.value []
  | cons call rest ih =>
    obtain ⟨first,others⟩ := List.forall_mem_cons.mp allowed
    exact q.bind (Call.runRealised q realises call first) fun _ => q.bind (ih others) fun _ => q.value _

section Parts
variable {h : Host σ} {s t : σ}

end Parts

theorem sessionRuns {setting : Setting} {calls : List Call} {replies : List Reply} {w t : Line} :
    (session (Line.host setting) calls).Returns w replies t ↔ ∃ exchanges, Runs setting w exchanges t ∧
      exchanges.map Exchange.call = calls ∧ exchanges.map Exchange.reply = replies := by
  induction calls generalizing w replies with
  | nil =>
    refine Program.returnsPure.trans ?_
    constructor
    · rintro ⟨rfl,rfl⟩
      exact ⟨[],.nil t,rfl,rfl⟩
    · rintro ⟨exchanges,runs,nothing,rfl⟩
      obtain rfl := List.map_eq_nil_iff.mp nothing
      cases runs
      exact ⟨rfl,rfl⟩
  | cons call rest ih =>
    refine Program.returnsBind.trans ?_
    constructor
    · rintro ⟨reply,u,first,later⟩
      obtain ⟨more,others,rfl⟩ := Program.returnsMap.mp later
      obtain ⟨exchanges,runs,calls,replies⟩ := ih.mp others
      exact ⟨⟨call,reply,w,u⟩ :: exchanges,.cons first runs,by simp [calls],by simp [replies]⟩
    · rintro ⟨exchanges,runs,calls,rfl⟩
      cases runs with
      | nil => cases calls
      | @cons _ u _ call' reply more first later =>
        obtain ⟨same,others⟩ := List.cons.inj calls
        subst same
        exact ⟨reply,u,first,Program.returnsMap.mpr ⟨_,ih.mpr ⟨more,later,others,rfl⟩,rfl⟩⟩

section Transmits
variable {h : Host σ} {l : Link σ} {setting : Setting} {clock : Bool → Prop}

theorem sessionExplained (transmits : h.Transmits l setting clock) (early : ∃ late, clock late) {calls : List Call} {s t : σ}
    {w : Line} {v : Except Fault (List Reply)} (sound : l.sound s) (feeds : (l.view s).Feeds w)
    (ran : (session h calls).Evaluates s v t) (clean : ¬ l.spoiled t) : ∃ polls u, (∀ p ∈ polls, clock p.late) ∧
      (session (Line.host setting) calls).Evaluates {w with polls := polls} v u ∧ (l.view t).Feeds u := by
  have simulates := sessionRealised (Program.simulatesCongruence Own) (transmitsRealises transmits early) calls
    fun _ _ => trivial
  obtain ⟨now,u,⟨_,fed⟩,same⟩ := Program.simulatesRun simulates ⟨sound,feeds⟩ ran clean ⟨[],by simp⟩
  exact ⟨now.1,_,now.2,same,fed.arrived,fed.stream,fed.incoming,fed.packets,fed.written⟩

theorem View.feedsIdle {v : View} (unread : v.unread = []) (peer : v.peer = ⟨[],[],[]⟩) :
    v.Feeds {Line.idle with written := v.written} := by
  refine ⟨List.nil_prefix,?_,?_,?_,rfl⟩
  · rw [unread,peer]
    rfl
  · rw [peer]
    rfl
  · rw [peer]
    rfl

end Transmits
end RTno2Proxy
