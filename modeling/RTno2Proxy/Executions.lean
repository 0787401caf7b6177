import RTno2Proxy.Deliveries
import RTno2Proxy.StaleReply
import RTno2Proxy.Lockstep

/-! How often a call of `execute` runs the board's `on_execute`, which the board does once
for each EXECUTE request it receives. The retry loop sends the request again after any
failure, also when the board has received it and only its answer is late. -/
namespace RTno2Proxy
open Imperative

namespace Protocol
variable {setting : Setting} {waitUsec : UInt32}

theorem missedRepeats {c : Command} {k : Nat} {w t : Line} (waiting : w.incoming = [])
    (missed : Missed setting waitUsec c k w t) :
    t.incoming = [] ∧ t.packets = w.packets ++ List.replicate k (command c) := by
  unfold Missed at missed
  induction missed with
  | zero => exact ⟨waiting,by simp⟩
  | @succ k w u t first later ih =>
    have tried := attemptTried (steadyPure _) waiting first
    obtain ⟨left,packets⟩ := ih tried.incoming
    refine ⟨left,?_⟩
    rw [packets,Line.packets,tried.requests,List.map_append,← Line.packets,List.append_assoc,List.replicate_succ]
    rfl

theorem executeSource {retryCount : Int} {w t : Line} {out : Result} (waiting : w.incoming = [])
    (h : (execute (Line.host setting) waitUsec retryCount).Returns w out t) :
    (∃ k < retryCount.toNat, ∃ u v p, Missed setting waitUsec .execute k w u ∧
        Delivers setting waitUsec (u.sent setting (command .execute)) p v ∧ p.command = .execute ∧ out = .ok ∧
        t.packets = w.packets ++ List.replicate (k + 1) (command .execute)) ∨
      Missed setting waitUsec .execute retryCount.toNat w t ∧ out = .err ∧
        t.packets = w.packets ++ List.replicate retryCount.toNat (command .execute) := by
  rcases attemptsSource h with ⟨k,less,u,v,p,missed,delivered,ok,exited⟩ | ⟨missed,same⟩
  · obtain ⟨q,x,present,last⟩ := Program.returnsBind.mp exited
    obtain ⟨value,rfl⟩ := valueReturns.mp present
    obtain ⟨rfl,rfl⟩ := Program.returnsPure.mp last
    obtain ⟨own,_⟩ := awaitedValue.mp value
    obtain ⟨left,packets⟩ := missedRepeats waiting missed
    obtain ⟨_,took⟩ := deliversTook delivered
    refine .inl ⟨k,less,u,t,p,missed,delivered,own,ok,?_⟩
    rw [took.packets,Line.sentAccept (Nat.zero_le _) left,List.replicate_succ',← List.append_assoc,← packets]
    simp [Line.accept,Line.packets]
  · exact .inr ⟨missed,same,(missedRepeats waiting missed).2⟩

end Protocol

variable {setting : Setting}

def Line.executions (w : Line) : Nat := w.packets.countP fun p => p.command = .execute

def ExecutedOnce (e : Exchange) : Prop :=
  (e.reply.code = .ok → e.finish.executions = e.start.executions + 1) ∧
    (e.reply.code ≠ .ok → e.finish.executions ≤ e.start.executions + 1)
instance (e : Exchange) : Decidable (ExecutedOnce e) := by unfold ExecutedOnce; infer_instance

def AnsweredFirst (setting : Setting) (e : Exchange) : Prop :=
  ∃ p v, Protocol.Delivers setting e.call.waitUsec (e.start.sent setting (Protocol.command .execute)) p v ∧
    p.command = .execute

theorem executionsRepeated {w t : Line} {n : Nat}
    (packets : t.packets = w.packets ++ List.replicate n (Protocol.command .execute)) :
    t.executions = w.executions + n := by
  simp [Line.executions,packets,List.countP_append,List.countP_replicate,Protocol.command,Packet.initialise]

theorem executedOnceCall {call : Call} {reply : Reply} {w t : Line} (waiting : w.incoming = [])
    (operation : call.operation = .execute) (retries : 1 ≤ call.retryCount)
    (h : (call.run (Line.host setting)).Returns w reply t) :
    ExecutedOnce ⟨call,reply,w,t⟩ ↔ call.retryCount = 1 ∨ AnsweredFirst setting ⟨call,reply,w,t⟩ := by
  obtain ⟨operation,waitUsec,retryCount⟩ := call
  subst operation
  dsimp only at retries
  obtain ⟨out,ran,rfl⟩ := Program.returnsMap.mp h
  change (Protocol.execute (Line.host setting) waitUsec retryCount).Returns w out t at ran
  rcases Protocol.executeSource waiting ran with ⟨k,less,u,v,p,missed,delivered,own,rfl,packets⟩ | ⟨missed,rfl,packets⟩
  · have count := executionsRepeated packets
    have once : ExecutedOnce ⟨⟨.execute,waitUsec,retryCount⟩,.result .ok,w,t⟩ ↔ k = 0 := by
      simp [ExecutedOnce,Reply.code,count]
    rw [once]
    dsimp only
    constructor
    · rintro rfl
      cases missed
      exact .inr ⟨p,v,delivered,own⟩
    · rintro (single | ⟨q,x,first,own⟩)
      · omega
      · have early := Protocol.missedShort (.zero w) first (own ▸ Protocol.awaitedOwn) missed
        omega
  · have count := executionsRepeated packets
    have once : ExecutedOnce ⟨⟨.execute,waitUsec,retryCount⟩,.result .err,w,t⟩ ↔ retryCount.toNat ≤ 1 := by
      simp [ExecutedOnce,Reply.code,count]
    rw [once]
    dsimp only
    constructor
    · intro small
      exact .inl (by omega)
    · rintro (single | ⟨q,x,first,own⟩)
      · omega
      · have early := Protocol.missedShort (.zero w) first (own ▸ Protocol.awaitedOwn) missed
        omega

theorem executedOnceUnlessRetried {session : List Exchange} {w t : Line} (waiting : w.incoming = [])
    (run : Runs setting w session t) :
    ∀ e ∈ session, e.call.operation = .execute → 1 ≤ e.call.retryCount →
      (ExecutedOnce e ↔ e.call.retryCount = 1 ∨ AnsweredFirst setting e) := by
  induction run with
  | nil => simp
  | cons ran later ih =>
    intro e member operation retries
    rcases List.mem_cons.mp member with rfl | member
    · exact executedOnceCall waiting operation retries ran
    · exact ih (callWaiting waiting ran) e member operation retries

def executeReply : Packet := ⟨.execute,.ok,[],Packet.noData⟩

def executed : Line :=
  {Line.idle with late := true, written := (Protocol.command .execute).frame,
                  requests := [⟨Protocol.command .execute,[]⟩]}

set_option maxRecDepth 4000 in
theorem executedOnceDemo :
    Runs demoBoard .idle [⟨⟨.execute,1000,1⟩,.result .ok,.idle,executed⟩] executed ∧
      ExecutedOnce ⟨⟨.execute,1000,1⟩,.result .ok,.idle,executed⟩ := by
  have ran : ((⟨.execute,1000,1⟩ : Call).run (Line.host demoBoard)).Returns .idle (.result .ok) executed := ⟨9,rfl⟩
  have run := Runs.cons ran (.nil executed)
  exact ⟨run,(executedOnceUnlessRetried rfl run _ List.mem_cons_self rfl (by decide)).mpr (.inl rfl)⟩

def executedTwice : Line :=
  {Line.idle with late := true, rx := executeReply.frame,
                  written := (Protocol.command .execute).frame ++ (Protocol.command .execute).frame,
                  requests := [⟨Protocol.command .execute,[]⟩,⟨Protocol.command .execute,executeReply.frame⟩]}

set_option maxRecDepth 4000 in
theorem executedTwiceOnSuccess :
    (∀ history, demoBoard.reply (history ++ [Protocol.command .execute]) = executeReply.frame) ∧
      Runs demoBoard {Line.idle with polls := [⟨0,true⟩]}
        [⟨⟨.execute,1000,2⟩,.result .ok,{Line.idle with polls := [⟨0,true⟩]},executedTwice⟩] executedTwice ∧
      executedTwice.executions = 2 ∧
      ¬ ExecutedOnce ⟨⟨.execute,1000,2⟩,.result .ok,{Line.idle with polls := [⟨0,true⟩]},executedTwice⟩ := by
  have ran : ((⟨.execute,1000,2⟩ : Call).run (Line.host demoBoard)).Returns {Line.idle with polls := [⟨0,true⟩]}
      (.result .ok) executedTwice := ⟨9,rfl⟩
  refine ⟨fun history => ?_,.cons ran (.nil _),by decide,by decide⟩
  simp [demoBoard,demoAnswer,Protocol.command,Packet.initialise,executeReply]

end RTno2Proxy
