import RTno2Proxy.Interleaving

/-! src/hal/EtherTcp.cpp: the life of one device. The main thread constructs it, uses it and
destroys it while the thread of `svc` takes its own statements; nothing makes one wait for the other. -/
namespace RTno2Proxy
namespace Shutdown
open Interleaving (Steps Free stepsInvariant stepsFree stepsAppend)

/- The main thread before `new ssr::Socket`, before `std::thread`, between constructor and
destructor, behind `m_Endflag = 1`, behind `delete m_pSocket`, and behind the destructor of
`m_thread`, which has come back or called `std::terminate`. -/
inductive Main where
  | connecting
  | starting
  | alive
  | flagged
  | deleted
  | destroyed
  | terminated
  deriving DecidableEq

def Main.Stopping : Main → Prop
  | flagged => True
  | deleted => True
  | destroyed => True
  | terminated => True
  | _ => False

def Main.Through (m : Main) : Prop := m = .destroyed ∨ m = .terminated

inductive Svc where
  | idle
  | clearFlag
  | setNonBlock
  | test
  | read
  | push
  | done
  | dangling
  deriving DecidableEq

/- `joinable` is what `m_thread.joinable()` says: only `join` and `detach` end it, not the return of `svc`. -/
structure EtherTcp where
  endflag : Int
  main : Main
  svc : Svc
  joinable : Bool

inductive Event where
  | main
  | use
  | svc (sz : Int)
  deriving DecidableEq

def mainStep (s : EtherTcp) : Option EtherTcp :=
  match s.main with
  | .connecting => some {s with main := .starting}
  | .starting => some {s with main := .alive, svc := .clearFlag, joinable := true}
  | .alive => some {s with main := .flagged, endflag := 1}
  | .flagged => some {s with main := .deleted}
  | .deleted => some {s with main := if s.joinable then .terminated else .destroyed}
  | .destroyed | .terminated => none

def socketCall (place : Svc) (s : EtherTcp) : EtherTcp := {s with svc := if s.main = .deleted then .dangling else place}

def svcStep (sz : Int) (s : EtherTcp) : Option EtherTcp :=
  if s.main = .destroyed ∨ s.main = .terminated then none
  else match s.svc with
    | .clearFlag => some {s with endflag := 0, svc := .setNonBlock}
    | .setNonBlock => some (socketCall .test s)
    | .test => some {s with svc := if s.endflag ≠ 0 then .done else .read}
    | .read => some (socketCall (if sz = 1 then .push else .test) s)
    | .push => some {s with svc := .test}
    | _ => none

def next (s : EtherTcp) : Event → Option EtherTcp
  | .main => mainStep s
  | .use => if s.main = .alive then some s else none
  | .svc sz => svcStep sz s

def init (endflag : Int) : EtherTcp := ⟨endflag,.connecting,.idle,false⟩

structure Orderly (s : EtherTcp) : Prop where
  socket : s.svc ≠ .dangling
  request : s.main.Stopping → s.endflag ≠ 0
  finished : s.main.Through → s.svc = .done ∧ s.main ≠ .terminated

/- The destructor goes on when `svc` is past its own `m_Endflag = 0` and past its last call of
`m_pSocket`, and stops before it destroys `m_thread`. -/
def Waits (s : EtherTcp) (e : Event) : Prop := e = .main → match s.main with
  | .alive => s.svc ≠ .clearFlag
  | .flagged => s.svc = .test ∨ s.svc = .push ∨ s.svc = .done
  | .deleted => False
  | _ => True

def Placed : Main → Svc → Prop
  | .connecting, svc => svc = .idle
  | .starting, svc => svc = .idle
  | .alive, svc => svc ≠ .idle ∧ svc ≠ .dangling
  | .flagged, svc => svc ≠ .idle ∧ svc ≠ .clearFlag ∧ svc ≠ .dangling
  | .deleted, svc => svc = .test ∨ svc = .push ∨ svc = .done
  | .destroyed, _ => False
  | .terminated, _ => False

structure Invariant (s : EtherTcp) : Prop where
  placed : Placed s.main s.svc
  request : s.main.Stopping → s.endflag ≠ 0

def Unjoined (s : EtherTcp) : Prop := s.main ≠ .destroyed ∧ (s.main = .connecting ∨ s.main = .starting ∨ s.joinable = true)

theorem unjoinedStep {s t : EtherTcp} {e : Event} (inv : Unjoined s) (taken : next s e = some t) : Unjoined t := by
  obtain ⟨apart,joins⟩ := inv
  cases e with
  | main =>
    simp only [next,mainStep] at taken
    cases here : s.main with
    | connecting | starting =>
      rw [here] at taken
      cases taken
      exact ⟨Main.noConfusion,by simp⟩
    | alive | flagged | deleted =>
      have joinable : s.joinable = true := by simpa [here] using joins
      rw [here] at taken
      cases taken
      simp [Unjoined,joinable]
    | destroyed => exact absurd here apart
    | terminated =>
      rw [here] at taken
      cases taken
  | use =>
    simp only [next,Option.ite_none_right_eq_some,Option.some.injEq] at taken
    obtain ⟨_,rfl⟩ := taken
    exact ⟨apart,joins⟩
  | svc sz =>
    simp only [next,svcStep] at taken
    split at taken
    · cases taken
    · cases here : s.svc with
      | clearFlag | setNonBlock | test | read | push =>
        rw [here] at taken
        cases taken
        exact ⟨apart,joins⟩
      | idle | done | dangling =>
        rw [here] at taken
        cases taken

theorem unjoinedRun {endflag : Int} {events : List Event} {s : EtherTcp} (run : Steps next Free (init endflag) events s) :
    Unjoined s :=
  stepsInvariant Unjoined (fun _ _ _ inv _ => unjoinedStep inv) ⟨Main.noConfusion,.inl rfl⟩ run

theorem placedSafe {main : Main} {svc : Svc} (placed : Placed main svc) : svc ≠ .dangling := by
  rintro rfl
  cases main <;> simp [Placed] at placed

theorem invariantOrderly {s : EtherTcp} (inv : Invariant s) : Orderly s where
  socket := placedSafe inv.placed
  request := inv.request
  finished through := by
    have placed := inv.placed
    rcases through with here | here <;> exact (by simp [here,Placed] at placed)

theorem invariantInit (endflag : Int) : Invariant (init endflag) := ⟨rfl,False.elim⟩

theorem mainStepKeeps {s t : EtherTcp} (inv : Invariant s) (waits : Waits s .main) (taken : mainStep s = some t) :
    Invariant t := by
  obtain ⟨placed,request⟩ := inv
  have waits := waits rfl
  unfold mainStep at taken
  cases here : s.main with
  | connecting =>
    rw [here] at taken placed
    cases taken
    exact ⟨placed,False.elim⟩
  | starting =>
    rw [here] at taken
    cases taken
    exact ⟨⟨by simp,by simp⟩,False.elim⟩
  | alive =>
    rw [here] at taken placed waits
    cases taken
    exact ⟨⟨placed.1,waits,placed.2⟩,fun _ => by simp⟩
  | flagged =>
    rw [here] at taken waits request
    cases taken
    exact ⟨waits,fun _ => request trivial⟩
  | deleted =>
    rw [here] at waits
    exact waits.elim
  | destroyed | terminated =>
    rw [here] at taken
    cases taken

theorem socketCallKeeps {s : EtherTcp} {place : Svc} (inv : Invariant s) (calls : s.svc = .setNonBlock ∨ s.svc = .read)
    (inside : place = .test ∨ place = .push) : Invariant (socketCall place s) := by
  obtain ⟨placed,request⟩ := inv
  refine ⟨?_,request⟩
  unfold socketCall
  cases here : s.main with
  | alive =>
    obtain rfl | rfl := inside <;> simp [Placed]
  | flagged =>
    obtain rfl | rfl := inside <;> simp [Placed]
  | connecting | starting | deleted | destroyed | terminated =>
    rw [here] at placed
    obtain calls | calls := calls <;> simp [Placed,calls] at placed

theorem svcStepKeeps {s t : EtherTcp} {sz : Int} (inv : Invariant s) (taken : svcStep sz s = some t) : Invariant t := by
  unfold svcStep at taken
  split at taken
  · cases taken
  · rename_i running
    cases here : s.svc with
    | clearFlag =>
      rw [here] at taken
      cases taken
      obtain ⟨placed,_⟩ := inv
      rw [here] at placed
      cases main : s.main with
      | alive => exact ⟨by simp [Placed],False.elim⟩
      | _ => simp [main,Placed] at placed
    | setNonBlock =>
      rw [here] at taken
      cases taken
      exact socketCallKeeps inv (.inl here) (.inl rfl)
    | test =>
      rw [here] at taken
      cases taken
      obtain ⟨placed,request⟩ := inv
      refine ⟨?_,request⟩
      rw [here] at placed
      cases main : s.main with
      | alive =>
        dsimp only [Placed]
        split <;> simp
      | flagged =>
        rw [main] at request
        simp [Placed,request trivial]
      | deleted =>
        rw [main] at request
        simp [Placed,request trivial]
      | connecting | starting | destroyed | terminated => simp [main,Placed] at placed
    | read =>
      rw [here] at taken
      cases taken
      refine socketCallKeeps inv (.inr here) ?_
      split
      · exact .inr rfl
      · exact .inl rfl
    | push =>
      rw [here] at taken
      cases taken
      obtain ⟨placed,request⟩ := inv
      refine ⟨?_,request⟩
      rw [here] at placed
      cases main : s.main with
      | alive | flagged | deleted => simp [Placed]
      | connecting | starting | destroyed | terminated => simp [main,Placed] at placed
    | idle | done | dangling =>
      rw [here] at taken
      cases taken

theorem invariantStep {s t : EtherTcp} {e : Event} (inv : Invariant s) (waits : Waits s e) (taken : next s e = some t) :
    Invariant t := by
  cases e with
  | main => exact mainStepKeeps inv waits taken
  | use =>
    simp only [next,Option.ite_none_right_eq_some,Option.some.injEq] at taken
    obtain ⟨_,rfl⟩ := taken
    exact inv
  | svc sz => exact svcStepKeeps inv taken

def Alone (_ : EtherTcp) (e : Event) : Prop := ∃ sz, e = .svc sz

theorem aloneKeeps {s t : EtherTcp} {events : List Event} (inv : Invariant s) (run : Steps next Alone s events t) :
    Invariant t := by
  refine stepsInvariant Invariant (fun s e t inv alone taken => ?_) inv run
  obtain ⟨sz,rfl⟩ := alone
  exact svcStepKeeps inv taken

theorem hastyBreaks {s t : EtherTcp} (inv : Invariant s) (unjoined : Unjoined s) (taken : next s .main = some t)
    (orderly : ∀ more u, Steps next Alone t more u → Orderly u) : Waits s .main := by
  intro _
  have first (sz : Int) {u : EtherTcp} (stepped : svcStep sz t = some u) : Orderly u :=
    orderly [.svc sz] u (.cons ⟨sz,rfl⟩ stepped (.nil u))
  obtain ⟨placed,_⟩ := inv
  simp only [next,mainStep] at taken
  cases here : s.main with
  | connecting => trivial
  | starting => trivial
  | alive =>
    rw [here] at taken
    cases taken
    intro clears
    have undone := (first 0 (u := {s with main := .flagged, endflag := 0, svc := .setNonBlock})
      (by simp [svcStep,clears])).request trivial
    exact undone rfl
  | flagged =>
    rw [here] at taken placed
    cases taken
    have called (calls : svcStep 0 {s with main := .deleted} = some (socketCall .test {s with main := .deleted})) :
        False := (first 0 calls).socket (by simp [socketCall])
    cases svc : s.svc with
    | test => exact .inl rfl
    | push => exact .inr (.inl rfl)
    | done => exact .inr (.inr rfl)
    | setNonBlock => exact (called (by simp [svcStep,svc])).elim
    | read => exact (called (by simp [svcStep,svc])).elim
    | idle | clearFlag | dangling => simp [svc,Placed] at placed
  | deleted =>
    have joinable : s.joinable = true := by simpa [here] using unjoined.2
    rw [here] at taken
    cases taken
    have ended := (orderly [] _ (.nil _)).finished (by simp [Main.Through,joinable])
    simp [joinable] at ended
  | destroyed | terminated =>
    rw [here] at taken
    cases taken

theorem shutdownOrderly {endflag : Int} {events : List Event} {s : EtherTcp}
    (run : Steps next Free (init endflag) events s) :
    (s.main.Through → s.main = .terminated ∧ ¬ Orderly s) ∧
    (Steps next Waits (init endflag) events s → Orderly s ∧ ∀ t, next s .main = some t →
      (Waits s .main ↔ ∀ more u, Steps next Alone t more u → Orderly u)) := by
  have unjoined := unjoinedRun run
  refine ⟨fun through => ?_,fun waited => ?_⟩
  · have here := through.resolve_left unjoined.1
    exact ⟨here,fun orderly => (orderly.finished through).2 here⟩
  · have inv := stepsInvariant Invariant (fun _ _ _ => invariantStep) (invariantInit endflag) waited
    refine ⟨invariantOrderly inv,fun t taken => ⟨fun waits more u alone => ?_,hastyBreaks inv unjoined taken⟩⟩
    exact invariantOrderly (aloneKeeps (invariantStep inv waits taken) alone)

theorem lateDestructor : ∃ s t, Steps next Waits (init 0) [.main,.main,.svc 0,.svc 0,.use,.svc 0,.svc 1,.svc 0,.main,
    .svc 0,.main] s ∧ Orderly s ∧ next s .main = some t ∧ t.svc = .done ∧ t.main = .terminated ∧ ¬ Orderly t := by
  have other {s : EtherTcp} {e : Event} (apart : e ≠ .main) : Waits s e := fun same => absurd same apart
  have run : ∃ s t, Steps next Waits (init 0) [.main,.main,.svc 0,.svc 0,.use,.svc 0,.svc 1,.svc 0,.main,
      .svc 0,.main] s ∧ next s .main = some t ∧ t.svc = .done ∧ t.main = .terminated :=
    ⟨_,_,.cons (fun _ => trivial) rfl (.cons (fun _ => trivial) rfl (.cons (other (by simp)) rfl (.cons (other (by simp)) rfl
      (.cons (other (by simp)) rfl (.cons (other (by simp)) rfl (.cons (other (by simp)) rfl (.cons (other (by simp)) rfl
      (.cons (fun _ => Svc.noConfusion) rfl (.cons (other (by simp)) rfl (.cons (fun _ => .inr (.inr rfl)) rfl
      (.nil _))))))))))),rfl,rfl,rfl⟩
  obtain ⟨s,t,run,taken,returned,here⟩ := run
  have free := stepsFree run
  have ended : Steps next Free (init 0) _ t := stepsAppend free (.cons trivial taken (.nil t))
  exact ⟨s,t,run,((shutdownOrderly free).2 run).1,taken,returned,here,((shutdownOrderly ended).1 (.inr here)).2⟩

theorem hastyDestructor :
    (∃ t, Steps next Free (init 0) [.main,.main,.main,.svc 0] t ∧ t.main = .flagged ∧ t.endflag = 0 ∧ ¬ Orderly t) ∧
    (∃ t, Steps next Free (init 0) [.main,.main,.svc 0,.svc 0,.svc 0,.main,.main,.svc 0] t ∧ t.svc = .dangling ∧
      ¬ Orderly t) ∧
    (∃ t, Steps next Free (init 0) [.main,.main,.main,.main,.main] t ∧ t.main = .terminated ∧ t.svc = .clearFlag ∧
      ¬ Orderly t) ∧
    ∃ t, Steps next Free (init 0) [.main,.main,.svc 0,.svc 0,.main,.svc 0,.main,.main] t ∧ t.main = .terminated ∧
      t.svc = .done ∧ ¬ Orderly t := by
  refine ⟨⟨_,.cons trivial rfl (.cons trivial rfl (.cons trivial rfl (.cons trivial rfl (.nil _)))),rfl,rfl,?_⟩,
    ⟨_,.cons trivial rfl (.cons trivial rfl (.cons trivial rfl (.cons trivial rfl (.cons trivial rfl
      (.cons trivial rfl (.cons trivial rfl (.cons trivial rfl (.nil _)))))))),rfl,?_⟩,
    ⟨_,.cons trivial rfl (.cons trivial rfl (.cons trivial rfl (.cons trivial rfl (.cons trivial rfl (.nil _))))),rfl,
      rfl,?_⟩,
    ⟨_,.cons trivial rfl (.cons trivial rfl (.cons trivial rfl (.cons trivial rfl (.cons trivial rfl
      (.cons trivial rfl (.cons trivial rfl (.cons trivial rfl (.nil _)))))))),rfl,rfl,?_⟩⟩
  · exact fun orderly => orderly.request trivial rfl
  · exact fun orderly => orderly.socket rfl
  · exact fun orderly => (orderly.finished (.inr rfl)).2 rfl
  · exact fun orderly => (orderly.finished (.inr rfl)).2 rfl

end Shutdown
end RTno2Proxy
