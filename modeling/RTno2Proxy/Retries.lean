import RTno2Proxy.Lockstep
import RTno2Proxy.StaleReply

/-! Lost requests. A wait on a line where nothing comes ends when the next deadline of the
schedule passes and leaves the line clean, so a retry loop starts each request afresh. The two
data operations send one request whatever their `retry_count` is. -/
namespace RTno2Proxy
open Imperative

namespace Line

def skipLate : List Poll → List Poll
  | [] => []
  | p :: rest => if p.late = true then rest else skipLate rest

/- The line when a wait in vain is over, and when that wait was for the answer to a request. -/
def waited (w : Line) : Line := {w with polls := skipLate w.polls, late := true}

def lost (w : Line) (request : Packet) : Line :=
  {w with written := w.written ++ request.frame, requests := w.requests ++ [⟨request,[]⟩],
          polls := skipLate w.polls, late := true}

def lostAll (w : Line) (request : Packet) : Nat → Line
  | 0 => w
  | k + 1 => (w.lost request).lostAll request k

theorem quietParts {w : Line} (quiet : w.stream = []) : w.rx = [] ∧ w.flight = [] := List.append_eq_nil_iff.mp quiet

theorem acceptLost {setting : Setting} {w : Line} {request : Packet} (quiet : w.stream = [])
    (silent : setting.reply (w.packets ++ [request]) = []) : (w.accept setting request).waited = w.lost request := by
  simp only [accept,waited,lost,silent,quiet,List.append_nil]

variable {w : Line} {request : Packet} {k : Nat}

theorem lostAllStream : (w.lostAll request k).stream = w.stream := by
  induction k generalizing w with
  | zero => rfl
  | succ k ih => exact ih

theorem lostAllIncoming : (w.lostAll request k).incoming = w.incoming := by
  induction k generalizing w with
  | zero => rfl
  | succ k ih => exact ih

theorem lostAllRequests : (w.lostAll request k).requests = w.requests ++ List.replicate k ⟨request,[]⟩ := by
  induction k generalizing w with
  | zero => simp [lostAll]
  | succ k ih =>
    refine ih.trans ?_
    simp [lost,List.replicate_succ]

theorem lostAllPackets : (w.lostAll request k).packets = w.packets ++ List.replicate k request := by
  simp [packets,lostAllRequests]

theorem lostAllPolls : (w.lostAll request k).polls = skipLate^[k] w.polls := by
  induction k generalizing w with
  | zero => rfl
  | succ k ih => exact ih

end Line

namespace Transport
variable {waitUsec : UInt32}

theorem awaitLost (setting : Setting) {size : UInt8} {w : Line} (asked : 0 < size.toNat) (finite : waitUsec ≠ uint32Max)
    (quiet : w.stream = []) : (await (Line.host setting) size waitUsec).Returns w false w.waited := by
  obtain ⟨rx,flight,polls,late,written,incoming,requests⟩ := w
  obtain ⟨rfl,rfl⟩ := Line.quietParts quiet
  refine Program.returnsLoop.mpr ?_
  induction polls generalizing late with
  | nil =>
    refine .inl (pollPassReturns.mpr ⟨?_,rfl⟩)
    simp [pollVerdict,Line.poll,finite]
    omega
  | cons p rest ih =>
    obtain ⟨deliver,passed⟩ := p
    cases passed with
    | true =>
      refine .inl (pollPassReturns.mpr ⟨?_,?_⟩)
      · simp [pollVerdict,Line.poll,finite]
        omega
      · simp [Line.waited,Line.skipLate,Line.poll]
    | false =>
      refine .inr ⟨(),⟨[],[],rest,false,written,incoming,requests⟩,pollPassReturns.mpr ⟨?_,?_⟩,?_⟩
      · simp [pollVerdict,Line.poll]
        omega
      · simp [Line.poll]
      · exact Program.returnsLoop.mpr (ih false quiet)

theorem readByteLost (setting : Setting) (buf : UInt8) {w : Line} (finite : waitUsec ≠ uint32Max) (quiet : w.stream = []) :
    (readByte (Line.host setting) buf waitUsec).Returns w (.timeout,buf) w.waited := by
  have waited := awaitLost setting (show 0 < (1 : UInt8).toNat by decide) finite quiet
  exact Program.returnsBind.mpr ⟨(.timeout,[buf]),w.waited,
    Program.returnsBind.mpr ⟨false,w.waited,waited,Program.returnsPure.mpr ⟨rfl,rfl⟩⟩,Program.returnsPure.mpr ⟨rfl,rfl⟩⟩

theorem isNewLost (setting : Setting) {w : Line} (finite : waitUsec ≠ uint32Max) (quiet : w.stream = []) :
    (isNew (Line.host setting) waitUsec).Returns w .timeout w.waited := by
  refine Program.returnsBind.mpr ⟨_,w,scratchReturns.mpr ⟨rfl,rfl⟩,Program.returnsLoop.mpr (.inl ?_)⟩
  exact Program.returnsBind.mpr ⟨_,_,readByteLost setting _ finite quiet,Program.returnsPure.mpr ⟨rfl,rfl⟩⟩

end Transport

namespace Protocol
open Transport (uint32Max isNewLost sendAccept)
variable {setting : Setting} {waitUsec : UInt32} {α : Type}

theorem waitLost (setting : Setting) (c : Command) {w : Line} (finite : waitUsec ≠ uint32Max) (quiet : w.stream = []) :
    (waitAndReceiveCommand (Line.host setting) c waitUsec).Returns w (.ofResult .timeout) w.waited :=
  Program.returnsBind.mpr ⟨_,_,isNewLost setting finite quiet,Program.returnsPure.mpr ⟨rfl,rfl⟩⟩

theorem waitLostAccept {c : Command} {request : Packet} {w : Line} (finite : waitUsec ≠ uint32Max)
    (quiet : w.stream = []) (silent : setting.reply (w.packets ++ [request]) = []) :
    (waitAndReceiveCommand (Line.host setting) c waitUsec).Returns (w.accept setting request) (.ofResult .timeout)
      (w.lost request) := by
  rw [← Line.acceptLost quiet silent]
  exact waitLost setting c finite (by rw [Line.acceptStream,quiet,silent,List.append_nil])

theorem attemptLost {c : Command} (exit : ResultT Packet → Act Line α) {w : Line} (finite : waitUsec ≠ uint32Max)
    (quiet : w.stream = []) (waiting : w.incoming = []) (silent : setting.reply (w.packets ++ [command c]) = []) :
    (attempt (Line.host setting) c waitUsec exit).Returns w none (w.lost (command c)) := by
  refine Program.returnsBind.mpr ⟨_,_,sendAccept setting (Nat.zero_le _) waiting,?_⟩
  exact Program.returnsBind.mpr ⟨_,_,waitLostAccept finite quiet silent,Program.returnsPure.mpr ⟨rfl,rfl⟩⟩

theorem profileLost {w : Line} (finite : waitUsec ≠ uint32Max) (quiet : w.stream = []) (waiting : w.incoming = [])
    (silent : setting.reply (w.packets ++ [command .getProfile]) = []) :
    (profileAttempt (Line.host setting) waitUsec).Returns w none (w.lost (command .getProfile)) := by
  refine Program.returnsBind.mpr ⟨_,_,sendAccept setting (Nat.zero_le _) waiting,Program.returnsLoop.mpr (.inl ?_)⟩
  have stream : (w.accept setting (command .getProfile)).stream = [] := by
    rw [Line.acceptStream,quiet,silent,List.append_nil]
  rw [← Line.acceptLost quiet silent]
  exact Program.returnsBind.mpr ⟨_,_,isNewLost setting finite stream,Program.returnsPure.mpr ⟨rfl,rfl⟩⟩

end Protocol

def Operation.resends : Operation → Bool
  | .sendInportData _ _ => false
  | .receiveOutportData _ _ _ _ => false
  | _ => true

def Operation.Fits : Operation → Prop
  | .sendInportData portName data => 2 + portName.length + (UInt8.ofNat data.length).toNat ≤ Protocol.bufferSize
  | .receiveOutportData portName _ _ _ => 2 + portName.length ≤ Protocol.bufferSize
  | _ => True

variable {setting : Setting}

theorem attemptsNext {α : Type} {body : Act Line (Option α)} {after : α} {retryCount : Int} {w u t : Line} {v : Except Fault α}
    (retries : 1 ≤ retryCount) (first : body.Returns w none u) :
    (Program.attempts body after retryCount.toNat).Evaluates w v t ↔
      (Program.attempts body after (retryCount - 1).toNat).Evaluates u v t := by
  obtain ⟨n,rfl⟩ : ∃ n : Nat, retryCount = n + 1 := ⟨(retryCount - 1).toNat,by omega⟩
  have left : ((n : Int) + 1).toNat = n + 1 := by omega
  have right : ((n : Int) + 1 - 1).toNat = n := by omega
  rw [left,right]
  exact Program.evaluatesAfter first

theorem callLost {operation : Operation} {waitUsec : UInt32} {retryCount : Int} {w t : Line} {v : Except Fault Reply}
    (resends : operation.resends = true) (retries : 1 ≤ retryCount) (finite : waitUsec ≠ Transport.uint32Max)
    (quiet : w.stream = []) (waiting : w.incoming = [])
    (silent : setting.reply (w.packets ++ [operation.request (setting.scratch 1)]) = []) :
    ((⟨operation,waitUsec,retryCount⟩ : Call).run (Line.host setting)).Evaluates w v t ↔
      ((⟨operation,waitUsec,retryCount - 1⟩ : Call).run (Line.host setting)).Evaluates
        (w.lost (operation.request (setting.scratch 1))) v t := by
  cases operation with
  | getState =>
    exact Program.evaluatesBindCongr fun _ _ => attemptsNext retries (Protocol.attemptLost _ finite quiet waiting silent)
  | getEcType =>
    exact Program.evaluatesBindCongr fun _ _ => attemptsNext retries (Protocol.attemptLost _ finite quiet waiting silent)
  | getProfile =>
    exact Program.evaluatesBindCongr fun _ _ => attemptsNext retries (Protocol.profileLost finite quiet waiting silent)
  | activate =>
    exact Program.evaluatesBindCongr fun _ _ => attemptsNext retries (Protocol.attemptLost _ finite quiet waiting silent)
  | deactivate =>
    exact Program.evaluatesBindCongr fun _ _ => attemptsNext retries (Protocol.attemptLost _ finite quiet waiting silent)
  | execute =>
    exact Program.evaluatesBindCongr fun _ _ => attemptsNext retries (Protocol.attemptLost _ finite quiet waiting silent)
  | sendInportData => cases resends
  | receiveOutportData => cases resends

def LostRequests (setting : Setting) (w : Line) (request : Packet) (k : Nat) : Prop :=
  ∀ i, 1 ≤ i → i ≤ k → setting.reply (w.packets ++ List.replicate i request) = []

theorem lostNext {w : Line} {request : Packet} {k : Nat} (lost : LostRequests setting w request (k + 1)) :
    setting.reply (w.packets ++ [request]) = [] ∧ LostRequests setting (w.lost request) request k := by
  refine ⟨lost 1 (Nat.le_refl 1) (Nat.succ_le_succ (Nat.zero_le k)),fun i low high => ?_⟩
  have later := lost (i + 1) (by omega) (by omega)
  have packets : (w.lost request).packets = w.packets ++ [request] := by simp [Line.packets,Line.lost]
  rw [packets,List.append_assoc]
  exact later

theorem callLostAll {operation : Operation} {waitUsec : UInt32} {retryCount : Int} {w t : Line} {v : Except Fault Reply}
    {k : Nat} (resends : operation.resends = true) (retries : k ≤ retryCount) (finite : waitUsec ≠ Transport.uint32Max)
    (quiet : w.stream = []) (waiting : w.incoming = [])
    (lost : LostRequests setting w (operation.request (setting.scratch 1)) k) :
    ((⟨operation,waitUsec,retryCount⟩ : Call).run (Line.host setting)).Evaluates w v t ↔
      ((⟨operation,waitUsec,retryCount - k⟩ : Call).run (Line.host setting)).Evaluates
        (w.lostAll (operation.request (setting.scratch 1)) k) v t := by
  induction k generalizing w retryCount with
  | zero => simp [Line.lostAll]
  | succ k ih =>
    obtain ⟨silent,later⟩ := lostNext lost
    refine (callLost resends (by omega) finite quiet waiting silent).trans ?_
    refine (ih (w := w.lost _) (show (k : Int) ≤ retryCount - 1 by omega) quiet waiting later).trans ?_
    rw [show retryCount - 1 - (k : Int) = retryCount - ((k + 1 : Nat) : Int) by omega]
    rfl

theorem callExhausted {operation : Operation} {waitUsec : UInt32} {retryCount : Int} (w : Line)
    (resends : operation.resends = true) (never : retryCount ≤ 0) :
    ∃ reply, reply.code ≠ .ok ∧
      ((⟨operation,waitUsec,retryCount⟩ : Call).run (Line.host setting)).Returns w reply w := by
  have zero : retryCount.toNat = 0 := by omega
  have ended {α : Type} (body : Act Line (Option α)) (after : α) :
      (Program.attempts body after retryCount.toNat).Returns w after w := by
    rw [zero]
    exact Program.returnsPure.mpr ⟨rfl,rfl⟩
  cases operation with
  | getState =>
    exact ⟨.state (.ofResult .err),by simp [Reply.code,ResultT.ofResult],
      Program.returnsBind.mpr ⟨_,w,ended _ _,Program.returnsPure.mpr ⟨rfl,rfl⟩⟩⟩
  | getEcType =>
    exact ⟨.ecType (.ofResult .err),by simp [Reply.code,ResultT.ofResult],
      Program.returnsBind.mpr ⟨_,w,ended _ _,Program.returnsPure.mpr ⟨rfl,rfl⟩⟩⟩
  | getProfile =>
    exact ⟨.profile (.ofResult .timeout),by simp [Reply.code,ResultT.ofResult],
      Program.returnsBind.mpr ⟨_,w,ended _ _,Program.returnsPure.mpr ⟨rfl,rfl⟩⟩⟩
  | activate =>
    exact ⟨.result .err,by simp [Reply.code],Program.returnsBind.mpr ⟨_,w,ended _ _,Program.returnsPure.mpr ⟨rfl,rfl⟩⟩⟩
  | deactivate =>
    exact ⟨.result .err,by simp [Reply.code],Program.returnsBind.mpr ⟨_,w,ended _ _,Program.returnsPure.mpr ⟨rfl,rfl⟩⟩⟩
  | execute =>
    exact ⟨.result .err,by simp [Reply.code],Program.returnsBind.mpr ⟨_,w,ended _ _,Program.returnsPure.mpr ⟨rfl,rfl⟩⟩⟩
  | sendInportData => cases resends
  | receiveOutportData => cases resends

theorem sendInportLost {portName data : Bytes} {waitUsec : UInt32} {retryCount : Int} {w : Line}
    (fits : (Operation.sendInportData portName data).Fits) (finite : waitUsec ≠ Transport.uint32Max)
    (quiet : w.stream = []) (waiting : w.incoming = [])
    (silent : setting.reply (w.packets ++ [Protocol.inportRequest portName data (UInt8.ofNat data.length)]) = []) :
    ((⟨.sendInportData portName data,waitUsec,retryCount⟩ : Call).run (Line.host setting)).Returns w (.result .err)
      (w.lost (Protocol.inportRequest portName data (UInt8.ofNat data.length))) := by
  have ran := (Protocol.sendInportReturns retryCount (givenLength data) waiting).mpr
    ⟨fits,_,Protocol.waitLostAccept finite quiet silent,.inl ⟨by simp [ResultT.ofResult],rfl⟩⟩
  exact Program.returnsBind.mpr ⟨_,_,ran,Program.returnsPure.mpr ⟨rfl,rfl⟩⟩

theorem receiveOutportLost {portName array : Bytes} {maxSize sizeRead : UInt8} {waitUsec : UInt32} {retryCount : Int}
    {w : Line} (fits : 2 + portName.length ≤ Protocol.bufferSize) (finite : waitUsec ≠ Transport.uint32Max)
    (quiet : w.stream = []) (waiting : w.incoming = [])
    (silent : setting.reply (w.packets ++ [Protocol.outportRequest (setting.scratch 1) portName]) = []) :
    ((⟨.receiveOutportData portName array maxSize sizeRead,waitUsec,retryCount⟩ : Call).run (Line.host setting)).Returns w
      (.received (.err,array,sizeRead)) (w.lost (Protocol.outportRequest (setting.scratch 1) portName)) := by
  have ran : (Protocol.receiveOutportData (Line.host setting) portName array maxSize sizeRead waitUsec retryCount).Returns w
      (.err,array,sizeRead) (w.lost (Protocol.outportRequest (setting.scratch 1) portName)) :=
    (Protocol.receiveOutportReturns sizeRead retryCount waiting).mpr
      ⟨fits,_,_,Protocol.waitLostAccept finite quiet silent,.inl ⟨by simp [ResultT.ofResult],rfl,rfl⟩⟩
  exact Program.returnsBind.mpr ⟨_,_,ran,Program.returnsPure.mpr ⟨rfl,rfl⟩⟩

theorem dataLost {operation : Operation} {waitUsec : UInt32} {retryCount : Int} {w : Line}
    (once : operation.resends = false) (fits : operation.Fits) (finite : waitUsec ≠ Transport.uint32Max)
    (quiet : w.stream = []) (waiting : w.incoming = [])
    (silent : setting.reply (w.packets ++ [operation.request (setting.scratch 1)]) = []) :
    ∃ reply, reply.code ≠ .ok ∧ ((⟨operation,waitUsec,retryCount⟩ : Call).run (Line.host setting)).Returns w reply
      (w.lost (operation.request (setting.scratch 1))) := by
  cases operation with
  | sendInportData => exact ⟨_,by simp [Reply.code],sendInportLost fits finite quiet waiting silent⟩
  | receiveOutportData => exact ⟨_,by simp [Reply.code],receiveOutportLost fits finite quiet waiting silent⟩
  | _ => cases once

theorem dataOverflow {operation : Operation} {waitUsec : UInt32} {retryCount : Int} {reply : Reply} {w t : Line}
    (large : ¬ operation.Fits)
    (h : ((⟨operation,waitUsec,retryCount⟩ : Call).run (Line.host setting)).Returns w reply t) : False := by
  cases operation with
  | sendInportData portName data =>
    obtain ⟨_,_,ran,_⟩ := Program.returnsBind.mp h
    obtain ⟨bad,_⟩ := (Protocol.sendInportOverflow setting waitUsec retryCount (givenLength data) large).mp ran
    cases bad
  | receiveOutportData portName array maxSize sizeRead =>
    obtain ⟨_,_,ran,_⟩ := Program.returnsBind.mp h
    obtain ⟨bad,_⟩ := (Protocol.receiveOutportOverflow setting array maxSize sizeRead waitUsec retryCount large).mp ran
    cases bad
  | _ => exact large trivial

structure AnsweredAfter (setting : Setting) (w : Line) (request : Packet) (k : Nat) (answer : List Packet) : Prop where
  lost : LostRequests setting w request k
  answers : setting.reply (w.packets ++ List.replicate (k + 1) request) = answer.flatMap Packet.frame
  small : ∀ p ∈ answer, p.data.length ≤ 252
  ok : ∀ p ∈ answer, p.result = .ok
  timely : ∀ p ∈ Line.skipLate^[k] w.polls, p.late = false

def ReturnsAfter (setting : Setting) (call : Call) (w : Line) (reply : Reply) (n : Nat) : Prop :=
  ∃ t, (call.run (Line.host setting)).Returns w reply t ∧
    t.requests = w.requests ++ List.replicate n ⟨call.operation.request (setting.scratch 1),[]⟩

theorem retriedAfter {call : Call} {w : Line} {k : Nat} {answer : List Packet} {reply : Reply}
    (resends : call.operation.resends = true ∨ k = 0) (less : k < call.retryCount)
    (finite : call.waitUsec ≠ Transport.uint32Max) (quiet : w.stream = []) (waiting : w.incoming = [])
    (answered : AnsweredAfter setting w (call.operation.request (setting.scratch 1)) k answer)
    (carries : Carries call.operation answer reply) : ReturnsAfter setting call w reply (k + 1) := by
  obtain ⟨operation,waitUsec,retryCount⟩ := call
  dsimp only at resends less finite answered carries
  have reached : ∃ t, ((⟨operation,waitUsec,retryCount - k⟩ : Call).run (Line.host setting)).Returns
      (w.lostAll (operation.request (setting.scratch 1)) k) reply t ∧
      Sent (w.lostAll (operation.request (setting.scratch 1)) k) (operation.request (setting.scratch 1)) t := by
    refine callLockstep (by dsimp only; omega) answered.small ?_ carries ?_ ?_ ?_
    · rw [Line.lostAllPackets,List.append_assoc,← List.replicate_succ']
      exact answered.answers
    · rw [Line.lostAllStream]
      exact quiet
    · rw [Line.lostAllIncoming]
      exact waiting
    · unfold Line.Timely
      rw [Line.lostAllPolls]
      exact answered.timely
  obtain ⟨t,ran,sent⟩ := reached
  refine ⟨t,?_,by rw [sent.requests,Line.lostAllRequests,List.append_assoc,← List.replicate_succ']⟩
  rcases resends with resends | rfl
  · exact (callLostAll resends (by omega) finite quiet waiting answered.lost).mpr ran
  · simpa [Line.lostAll] using ran

theorem dataSendsOnce {operation : Operation} {waitUsec : UInt32} {retryCount : Int} {reply : Reply} {w t : Line}
    (once : operation.resends = false) (waiting : w.incoming = [])
    (h : ((⟨operation,waitUsec,retryCount⟩ : Call).run (Line.host setting)).Returns w reply t) :
    t.requests.length = w.requests.length + 1 := by
  cases operation with
  | sendInportData portName data =>
    obtain ⟨_,ran,_⟩ := Program.returnsMap.mp h
    simp [(Protocol.sendInportTried (givenLength data) waiting ran).requests]
  | receiveOutportData portName array maxSize sizeRead =>
    obtain ⟨_,ran,_⟩ := Program.returnsMap.mp h
    simp [(Protocol.receiveOutportTried waiting ran).requests]
  | _ => cases once

theorem dataReturnsAfter {call : Call} {reply : Reply} {w : Line} {n : Nat} (once : call.operation.resends = false)
    (waiting : w.incoming = []) (h : ReturnsAfter setting call w reply n) : n = 1 ∧ call.operation.Fits := by
  obtain ⟨t,ran,requests⟩ := h
  have more := dataSendsOnce once waiting ran
  rw [requests,List.length_append,List.length_replicate] at more
  refine ⟨by omega,?_⟩
  by_contra large
  exact dataOverflow large ran

theorem allLost {call : Call} {w : Line} (resends : call.operation.resends = true)
    (finite : call.waitUsec ≠ Transport.uint32Max) (quiet : w.stream = []) (waiting : w.incoming = [])
    (lost : LostRequests setting w (call.operation.request (setting.scratch 1)) call.retryCount.toNat) :
    ∃ reply, reply.code ≠ .ok ∧ ReturnsAfter setting call w reply call.retryCount.toNat := by
  obtain ⟨operation,waitUsec,retryCount⟩ := call
  dsimp only at resends finite lost ⊢
  by_cases never : retryCount ≤ 0
  · obtain ⟨reply,bad,ran⟩ := callExhausted w resends never
    have zero : retryCount.toNat = 0 := by omega
    exact ⟨reply,bad,w,ran,by simp [zero]⟩
  · obtain ⟨n,rfl⟩ : ∃ n : Nat, retryCount = n := ⟨retryCount.toNat,by omega⟩
    rw [Int.toNat_natCast] at lost ⊢
    obtain ⟨reply,bad,ran⟩ := callExhausted (w.lostAll (operation.request (setting.scratch 1)) n) resends (show (n : Int) - n ≤ 0 by omega)
    exact ⟨reply,bad,_,(callLostAll resends (Int.le_refl _) finite quiet waiting lost).mpr ran,Line.lostAllRequests⟩

theorem retryCountLaw {call : Call} {w : Line} (finite : call.waitUsec ≠ Transport.uint32Max) (quiet : w.stream = [])
    (waiting : w.incoming = []) :
    (∀ (k : Nat) answer reply, k < call.retryCount →
      AnsweredAfter setting w (call.operation.request (setting.scratch 1)) k answer →
      Carries call.operation answer reply →
        (ReturnsAfter setting call w reply (k + 1) ↔ call.operation.resends = true ∨ k = 0)) ∧
    (LostRequests setting w (call.operation.request (setting.scratch 1)) call.retryCount.toNat →
      ((∃ reply, reply.code ≠ .ok ∧ ReturnsAfter setting call w reply call.retryCount.toNat) ↔
        call.operation.resends = true ∨ call.retryCount = 1 ∧ call.operation.Fits)) := by
  constructor
  · intro k answer reply less answered carries
    constructor
    · intro returned
      by_cases resends : call.operation.resends = true
      · exact .inl resends
      · obtain ⟨one,_⟩ := dataReturnsAfter (Bool.eq_false_iff.mpr resends) waiting returned
        exact .inr (by omega)
    · intro again
      exact retriedAfter again less finite quiet waiting answered carries
  · intro lost
    constructor
    · rintro ⟨reply,_,returned⟩
      by_cases resends : call.operation.resends = true
      · exact .inl resends
      · obtain ⟨one,fits⟩ := dataReturnsAfter (Bool.eq_false_iff.mpr resends) waiting returned
        exact .inr ⟨by omega,fits⟩
    · intro again
      by_cases resends : call.operation.resends = true
      · exact allLost resends finite quiet waiting lost
      · obtain ⟨single,fits⟩ := again.resolve_left resends
        obtain ⟨operation,waitUsec,retryCount⟩ := call
        dsimp only at single
        subst single
        have silent := lost 1 (Nat.le_refl 1) (by simp)
        obtain ⟨reply,bad,ran⟩ := dataLost (Bool.eq_false_iff.mpr resends) fits finite quiet waiting silent
        exact ⟨reply,bad,_,ran,rfl⟩

def inattentive : Setting :=
  {Setting.silent with reply := fun history => match history with
    | [_,request] => (demoAnswer request.command).flatMap Packet.frame
    | _ => []}

theorem inattentiveAnswers {request : Packet} (command : request.command = .getState ∨ request.command = .sendData) :
    AnsweredAfter inattentive .idle request 1 (demoAnswer request.command) where
  lost i low high := by
    obtain rfl : i = 1 := by omega
    rfl
  answers := rfl
  small := by rcases command with command | command <;> rw [command] <;> decide
  ok := by rcases command with command | command <;> rw [command] <;> decide
  timely := by decide

theorem retriedOnce :
    ReturnsAfter inattentive ⟨.getState,1000,2⟩ .idle (.state (.ofValue .inactive)) 2 ∧
      ∃ reply, reply.code ≠ .ok ∧ ReturnsAfter .silent ⟨.getState,1000,2⟩ .idle reply 2 := by
  have state : Carries .getState (demoAnswer .getState) (.state (.ofValue .inactive)) :=
    .getState (b := ascii 'I') rfl rfl
  have answered := @retryCountLaw inattentive ⟨.getState,1000,2⟩ .idle (by decide) rfl rfl
  have unanswered := @retryCountLaw .silent ⟨.getState,1000,2⟩ .idle (by decide) rfl rfl
  exact ⟨(answered.1 1 _ _ (by decide) (inattentiveAnswers (.inl rfl)) state).mpr (.inl rfl),
    (unanswered.2 fun _ _ _ => rfl).mpr (.inl rfl)⟩

def sendOne : Call := ⟨.sendInportData [ascii 'a'] [1,0,0,0],1000,5⟩

set_option maxRecDepth 4000 in
theorem retryCountIgnored :
    AnsweredAfter inattentive .idle (sendOne.operation.request 0) 1 (demoAnswer .sendData) ∧
      Carries sendOne.operation (demoAnswer .sendData) (.result .ok) ∧
      ReturnsAfter inattentive sendOne .idle (.result .err) 1 ∧
      ¬ ReturnsAfter inattentive sendOne .idle (.result .ok) 2 := by
  have ran : (sendOne.run (Line.host inattentive)).Returns .idle (.result .err) (Line.idle.lost (sendOne.operation.request 0)) :=
    ⟨9,rfl⟩
  refine ⟨inattentiveAnswers (.inr rfl),.sendInportData rfl (by decide),⟨_,ran,rfl⟩,?_⟩
  rintro ⟨t,other,_⟩
  obtain ⟨same,_⟩ := Program.returnsUnique ran other
  cases same

end RTno2Proxy
