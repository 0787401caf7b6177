import RTno2Proxy.Session

/-! Which answer a call's result comes from. Requests carry no number and nothing drains
the line before one is sent, so an answer that outlives its call is read by the next; what
rules this out is a condition on the bytes still unread when a request is sent. -/
namespace RTno2Proxy
open Imperative
open EnumClass (toByte ofByte)
open Line (Took tookNothing)
open Protocol (IsPort Announces)

def replies (setting : Setting) : List Packet → List Packet → Bytes
  | _, [] => []
  | history, request :: rest => setting.reply (history ++ [request]) ++ replies setting (history ++ [request]) rest

namespace Protocol
open Transport (uint32Max)
variable {setting : Setting} {waitUsec : UInt32} {α : Type}

structure Tried (u : Line) (request : Packet) (t : Line) : Prop where
  incoming : t.incoming = []
  requests : t.requests = u.requests ++ [⟨request,u.stream⟩]

theorem triedTook {u t : Line} {request : Packet} {raw : Bytes} (waiting : u.incoming = [])
    (took : Took (u.accept setting request) raw t) : Tried u request t :=
  ⟨took.incoming.trans waiting,took.requests⟩

theorem attemptTried {c : Command} {exit : ResultT Packet → Act Line α} {u t : Line} {out : Option α}
    (steady : Steady exit) (waiting : u.incoming = [])
    (h : (attempt (Line.host setting) c waitUsec exit).Returns u out t) : Tried u (command c) t := by
  obtain ⟨result,x,waited,last⟩ := attemptAccepted waiting h
  obtain ⟨_,took⟩ := waitTook waited
  rcases last with ⟨_,_,rfl⟩ | ⟨_,a,_,exited⟩
  · exact triedTook waiting took
  · obtain ⟨rfl,_⟩ := steady _ _ _ _ exited
    exact triedTook waiting took

theorem profileTried {u t : Line} {out : Option (ResultT Profile)} (waiting : u.incoming = [])
    (h : (profileAttempt (Line.host setting) waitUsec).Returns u out t) :
    Tried u (command .getProfile) t ∧ (Program.loop (getProfilePass (Line.host setting) waitUsec) .empty).Returns
      (u.accept setting (command .getProfile)) out t := by
  obtain ⟨_,x,hs,ran⟩ := Program.returnsBind.mp h
  obtain ⟨_,rfl⟩ := (Transport.sendAccepted (Nat.zero_le _) waiting).mp hs
  obtain ⟨_,took⟩ := getProfileLoopTook ran
  exact ⟨triedTook waiting took,ran⟩

theorem sendInportTried {portName data : Bytes} {length : UInt8} {retryCount : Int} {w t : Line} {out : Result}
    (given : length.toNat ≤ data.length) (waiting : w.incoming = [])
    (h : (sendInportData (Line.host setting) portName data length waitUsec retryCount).Returns w out t) :
    Tried w (inportRequest portName data length) t := by
  obtain ⟨_,result,waited,_⟩ := (sendInportReturns retryCount given waiting).mp h
  obtain ⟨_,took⟩ := waitTook waited
  exact triedTook waiting took

theorem receiveOutportTried {portName data : Bytes} {maxSize sizeRead : UInt8} {retryCount : Int} {w t : Line}
    {out : Result × Bytes × UInt8} (waiting : w.incoming = [])
    (h : (receiveOutportData (Line.host setting) portName data maxSize sizeRead waitUsec retryCount).Returns w out t) :
    Tried w (outportRequest (setting.scratch 1) portName) t := by
  obtain ⟨_,result,u,waited,last⟩ := (receiveOutportReturns sizeRead retryCount waiting).mp h
  obtain ⟨_,took⟩ := waitTook waited
  rcases last with ⟨_,_,rfl⟩ | ⟨_,copied⟩
  · exact triedTook waiting took
  · obtain ⟨rfl,_⟩ := copyOutSteady setting data maxSize _ _ _ _ copied
    exact triedTook waiting took

end Protocol

variable {setting : Setting}

theorem givenLength (data : Bytes) : (UInt8.ofNat data.length).toNat ≤ data.length := by
  rw [UInt8.toNat_ofNat']
  exact Nat.mod_le _ _

theorem attemptsWaiting {α : Type} {c : Command} {waitUsec : UInt32} {exit : ResultT Packet → Act Line α} {after a : α}
    {n : Nat} {w t : Line} (steady : Protocol.Steady exit) (waiting : w.incoming = [])
    (h : (Program.attempts (Protocol.attempt (Line.host setting) c waitUsec exit) after n).Returns w a t) :
    t.incoming = [] := by
  rcases Program.attemptsRule (fun u => u.incoming = [])
    (fun u v between failed => (Protocol.attemptTried steady between failed).incoming) waiting h
    with ⟨_,kept⟩ | ⟨u,between,succeeded⟩
  · exact kept
  · exact (Protocol.attemptTried steady between succeeded).incoming

theorem callWaiting {call : Call} {reply : Reply} {w t : Line} (waiting : w.incoming = [])
    (h : (call.run (Line.host setting)).Returns w reply t) : t.incoming = [] := by
  obtain ⟨operation,waitUsec,retryCount⟩ := call
  cases operation with
  | getState =>
    obtain ⟨_,ran,_⟩ := Program.returnsMap.mp h
    exact attemptsWaiting (Protocol.firstByteSteady setting) waiting ran
  | getEcType =>
    obtain ⟨_,ran,_⟩ := Program.returnsMap.mp h
    exact attemptsWaiting (Protocol.firstByteSteady setting) waiting ran
  | getProfile =>
    obtain ⟨_,ran,_⟩ := Program.returnsMap.mp h
    rcases Program.attemptsRule (fun u => u.incoming = [])
      (fun u v between failed => (Protocol.profileTried between failed).1.incoming) waiting ran
      with ⟨_,kept⟩ | ⟨u,between,succeeded⟩
    · exact kept
    · exact (Protocol.profileTried between succeeded).1.incoming
  | activate =>
    obtain ⟨_,ran,_⟩ := Program.returnsMap.mp h
    exact attemptsWaiting (Protocol.steadyPure _) waiting ran
  | deactivate =>
    obtain ⟨_,ran,_⟩ := Program.returnsMap.mp h
    exact attemptsWaiting (Protocol.steadyPure _) waiting ran
  | execute =>
    obtain ⟨_,ran,_⟩ := Program.returnsMap.mp h
    exact attemptsWaiting (Protocol.steadyValue _) waiting ran
  | sendInportData portName data =>
    obtain ⟨_,ran,_⟩ := Program.returnsMap.mp h
    exact (Protocol.sendInportTried (givenLength data) waiting ran).incoming
  | receiveOutportData =>
    obtain ⟨_,ran,_⟩ := Program.returnsMap.mp h
    exact (Protocol.receiveOutportTried waiting ran).incoming

def asked : Line :=
  {Line.idle with late := true, written := (Protocol.command .getState).frame,
                  requests := [⟨Protocol.command .getState,[]⟩]}

end RTno2Proxy
