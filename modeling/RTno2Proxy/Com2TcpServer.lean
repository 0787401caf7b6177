import Mathlib.Algebra.BigOperators.Ring.List
import Mathlib.Algebra.Ring.Nat
import RTno2Proxy.Com2TcpSession

/-! The rest of `main` in src/com2tcp_main.cpp: the server socket, and the outer loop that serves one
connection after another. `~Serial` closes its port; `~Socket` closes nothing, so every connection that
has been accepted keeps a descriptor of the process. -/
namespace RTno2Proxy
namespace Com2Tcp
open Interleaving (Steps Free stepsInvariant stepsCredit stepsWeaken stepsFree stepsTo stepsComputed)

inductive Stage where
  | socket
  | bind
  | listen
  | accept
  | setNonBlock
  | serial
  | session (b : Bridge)
  | returned
  | terminated

def Stage.Live : Stage → Prop
  | returned => False
  | terminated => False
  | _ => True

def Stage.held : Stage → Nat
  | socket => 0
  | session _ => 2
  | _ => 1

def Stage.current : Stage → Nat
  | setNonBlock => 1
  | serial => 1
  | session _ => 1
  | _ => 0

structure Server where
  stage : Stage
  descriptors : Nat
  clients : Nat
  sessions : List Bridge

namespace Server

/- `stack` is what the memory of `buffer` holds when a session begins. -/
inductive Move where
  | call (ok : Bool) (stack : Buffer)
  | inner (e : Event)

def Move.sent : Move → Nat
  | inner (.socketArrives raw) => raw.length
  | _ => 0

def start (base : Nat) : Server := ⟨.socket,base,0,[]⟩

section Next
variable (limit : Nat)

def takes (ok : Bool) (s t : Server) : Server :=
  if ok = true ∧ s.descriptors < limit then {t with descriptors := s.descriptors + 1} else {s with stage := .terminated}

def call (ok : Bool) (stack : Buffer) (s : Server) : Option Server :=
  match s.stage with
  | .socket => some (takes limit ok s {s with stage := .bind})
  | .bind => some {s with stage := if ok then .listen else .terminated}
  | .listen => some {s with stage := if ok then .accept else .terminated}
  | .accept => some (takes limit ok s {s with stage := .setNonBlock, clients := s.clients + 1})
  | .setNonBlock => some {s with stage := if ok then .serial else .returned}
  | .serial => some (takes limit ok s {s with stage := .session (accepted stack)})
  | .session _ => none
  | .returned => none
  | .terminated => none

def landed (c : Bridge) (s : Server) : Server :=
  match c.place with
  | .left => {s with stage := .accept, descriptors := s.descriptors - 1, sessions := s.sessions ++ [c]}
  | .terminated => {s with stage := .terminated, sessions := s.sessions ++ [c]}
  | _ => {s with stage := .session c}

def next (s : Server) : Move → Option Server
  | .call ok stack => call limit ok stack s
  | .inner e => match s.stage with
    | .session b => (Com2Tcp.next true b e).map (landed · s)
    | _ => none

end Next

def served (s : Server) : List Bridge := match s.stage with
  | .session b => s.sessions ++ [b]
  | _ => s.sessions

def CalmMove (s : Server) (m : Move) : Prop := ∀ b e, s.stage = .session b → m = .inner e → Calm b e

def Stays (_ : Server) (m : Move) : Prop := m ≠ .inner .peerCloses

section Demo

/- A process with six descriptors, three of them open from the beginning, serves one client, which sends a byte
and is then silent for a pass; the second connection takes the last descriptor. -/
def demo : List Move :=
  List.replicate 6 (.call true unwritten) ++ [.inner (.socketArrives [7])] ++ List.replicate 6 (.inner (.step 0)) ++
    List.replicate 3 (.call true unwritten)

def quiet (s : Server) (m : Move) : Bool :=
  (match s.stage with
    | .session b => !b.serialHungUp && b.serial.isEmpty && b.socket.length < maxBuffer && !(b.place matches .socketWrite _)
    | _ => true) && match m with
    | .inner .peerCloses => false
    | _ => true

theorem quietMove {s : Server} {m : Move} (passed : quiet s m = true) : CalmMove s m ∧ Stays s m := by
  unfold quiet at passed
  obtain ⟨small,stays⟩ := Bool.and_eq_true_iff.mp passed
  constructor
  · intro b e here same ret _
    rw [here] at small
    simp only [Bool.and_eq_true,Bool.not_eq_true'] at small
    obtain ⟨⟨⟨plugged,serial⟩,socket⟩,writes⟩ := small
    have silent : b.serial = [] := List.isEmpty_iff.mp serial
    refine ⟨fun _ => .inr ⟨plugged,by rw [silent]; decide⟩,fun _ _ => plugged,fun received place => ?_,fun _ =>
      of_decide_eq_true socket⟩
    rw [place] at writes
    cases writes
  · rintro rfl
    cases stays

theorem demoRun : ∃ t, Steps (next 6) (fun s m => CalmMove s m ∧ Stays s m) (start 3) demo t ∧ t.stage = .terminated ∧
    t.clients = 2 ∧ t.served.map (·.toSerial) = [[7]] := by
  have ran : ∃ t, stepsTo (next 6) quiet (start 3) demo = some t ∧ t.stage = .terminated ∧ t.clients = 2 ∧
      t.served.map (·.toSerial) = [[7]] := ⟨_,rfl,rfl,rfl,rfl⟩
  obtain ⟨t,ran,found⟩ := ran
  exact ⟨t,stepsComputed (fun _ _ => quietMove) ran,found⟩

end Demo

inductive Went (limit : Nat) (s : Server) : Move → Server → Prop where
  | throws {ok : Bool} {stack : Buffer} (live : s.stage.Live) (outside : ∀ b, s.stage ≠ .session b) :
      Went limit s (.call ok stack) {s with stage := .terminated}
  | created {ok : Bool} {stack : Buffer} (here : s.stage = .socket) (room : s.descriptors < limit) :
      Went limit s (.call ok stack) {s with stage := .bind, descriptors := s.descriptors + 1}
  | bound {ok : Bool} {stack : Buffer} (here : s.stage = .bind) : Went limit s (.call ok stack) {s with stage := .listen}
  | listens {ok : Bool} {stack : Buffer} (here : s.stage = .listen) : Went limit s (.call ok stack) {s with stage := .accept}
  | accepts {ok : Bool} {stack : Buffer} (here : s.stage = .accept) (room : s.descriptors < limit) :
      Went limit s (.call ok stack)
        {s with stage := .setNonBlock, descriptors := s.descriptors + 1, clients := s.clients + 1}
  | nonBlocking {ok : Bool} {stack : Buffer} (here : s.stage = .setNonBlock) :
      Went limit s (.call ok stack) {s with stage := .serial}
  | returns {ok : Bool} {stack : Buffer} (here : s.stage = .setNonBlock) :
      Went limit s (.call ok stack) {s with stage := .returned}
  | opens {ok : Bool} {stack : Buffer} (here : s.stage = .serial) (room : s.descriptors < limit) :
      Went limit s (.call ok stack) {s with stage := .session (accepted stack), descriptors := s.descriptors + 1}
  | stays {b c : Bridge} {e : Event} (here : s.stage = .session b) (taken : Com2Tcp.next true b e = some c)
      (running : c.place.Running) : Went limit s (.inner e) {s with stage := .session c}
  | leaves {b c : Bridge} {e : Event} (here : s.stage = .session b) (taken : Com2Tcp.next true b e = some c)
      (left : c.place = .left) : Went limit s (.inner e)
        {s with stage := .accept, descriptors := s.descriptors - 1, sessions := s.sessions ++ [c]}
  | raises {b c : Bridge} {e : Event} (here : s.stage = .session b) (taken : Com2Tcp.next true b e = some c)
      (thrown : c.place = .terminated) :
      Went limit s (.inner e) {s with stage := .terminated, sessions := s.sessions ++ [c]}

section Runs
variable {limit base : Nat} {s t : Server}

theorem nextWent {m : Move} (taken : next limit s m = some t) : Went limit s m t := by
  cases m with
  | call ok stack =>
    unfold next call takes at taken
    cases here : s.stage with
    | socket =>
      simp only [here,Option.some.injEq] at taken
      split_ifs at taken with room <;> subst taken
      · exact .created here room.2
      · exact .throws (by rw [here]; trivial) (by simp [here])
    | bind =>
      simp only [here,Option.some.injEq] at taken
      subst taken
      cases ok with
      | true => exact .bound here
      | false => exact .throws (by rw [here]; trivial) (by simp [here])
    | listen =>
      simp only [here,Option.some.injEq] at taken
      subst taken
      cases ok with
      | true => exact .listens here
      | false => exact .throws (by rw [here]; trivial) (by simp [here])
    | accept =>
      simp only [here,Option.some.injEq] at taken
      split_ifs at taken with room <;> subst taken
      · exact .accepts here room.2
      · exact .throws (by rw [here]; trivial) (by simp [here])
    | setNonBlock =>
      simp only [here,Option.some.injEq] at taken
      subst taken
      cases ok with
      | true => exact .nonBlocking here
      | false => exact .returns here
    | serial =>
      simp only [here,Option.some.injEq] at taken
      split_ifs at taken with room <;> subst taken
      · exact .opens here room.2
      · exact .throws (by rw [here]; trivial) (by simp [here])
    | session b | returned | terminated => simp [here] at taken
  | inner e =>
    unfold next at taken
    cases here : s.stage with
    | session b =>
      simp only [here,Option.map_eq_some_iff] at taken
      obtain ⟨c,taken,rfl⟩ := taken
      unfold landed
      cases place : c.place with
      | left => exact .leaves here taken place
      | terminated => exact .raises here taken place
      | _ => exact .stays here taken (by rw [place]; trivial)
    | _ => simp [here] at taken

structure Counted (limit base : Nat) (s : Server) : Prop where
  descriptors : s.stage.Live → s.descriptors = base + s.stage.held + s.clients
  clients : s.stage.Live → s.clients = s.sessions.length + s.stage.current
  bound : s.served.length ≤ limit - (base + 2)

theorem countedStart : Counted limit base (start base) := ⟨fun _ => rfl,fun _ => rfl,Nat.zero_le _⟩

theorem countedStep {m : Move} (counted : Counted limit base s) (taken : next limit s m = some t) : Counted limit base t := by
  obtain ⟨descriptors,clients,bound⟩ := counted
  cases nextWent taken with
  | throws live outside =>
    have same : s.served = s.sessions := by
      unfold served
      split
      · exact absurd ‹_› (outside _)
      · rfl
    exact ⟨fun live => live.elim,fun live => live.elim,by rw [same] at bound; exact bound⟩
  | returns here =>
    have same : s.served = s.sessions := by simp [served,here]
    exact ⟨fun live => live.elim,fun live => live.elim,by rw [same] at bound; exact bound⟩
  | created here | bound here | listens here | accepts here | nonBlocking here =>
    simp only [here,Stage.held,Stage.current,served] at descriptors clients bound
    refine ⟨fun _ => ?_,fun _ => ?_,bound⟩
    · simp only [Stage.held,descriptors trivial]
      try omega
    · simp only [Stage.current,clients trivial]
  | opens here room =>
    simp only [here,Stage.held,Stage.current,served] at descriptors clients bound
    have held := descriptors trivial
    have begun := clients trivial
    refine ⟨fun _ => ?_,fun _ => clients trivial,?_⟩
    · simp only [Stage.held]
      omega
    · simp only [served,List.length_append,List.length_singleton]
      omega
  | stays here =>
    simp only [here,Stage.held,Stage.current,served,List.length_append,List.length_singleton] at descriptors clients bound
    exact ⟨descriptors,clients,by simpa [served] using bound⟩
  | leaves here =>
    simp only [here,Stage.held,Stage.current,served,List.length_append,List.length_singleton] at descriptors clients bound
    have held := descriptors trivial
    refine ⟨fun _ => ?_,fun _ => ?_,by simpa [served] using bound⟩
    · simp only [Stage.held]
      omega
    · simpa [Stage.current] using clients trivial
  | raises here =>
    simp only [here,served,List.length_append,List.length_singleton] at bound
    exact ⟨fun live => live.elim,fun live => live.elim,by simpa [served] using bound⟩

theorem serverServes {moves : List Move} (run : Steps (next limit) Free (start base) moves t) :
    t.served.length ≤ limit - (base + 2) ∧ (t.stage.Live → t.descriptors = base + t.stage.held + t.clients) := by
  have counted := stepsInvariant (Counted limit base) (fun _ _ _ counted _ taken => countedStep counted taken) countedStart run
  exact ⟨counted.bound,counted.descriptors⟩

theorem serverServesOne : ∃ t : Server, t.stage = .terminated ∧ t.served.map (·.toSerial) = [[7]] ∧
    t.served.length ≤ 6 - (3 + 2) := by
  obtain ⟨t,run,ended,_,sent⟩ := demoRun
  exact ⟨t,ended,sent,(serverServes (stepsFree run)).1⟩

end Runs

section Ends
variable {limit base : Nat} {s t : Server}

end Ends

end Server
end Com2Tcp
end RTno2Proxy
