import RTno2Proxy.PortData
import RTno2Proxy.ProfileReads

/-! Sessions: any sequence of calls of the eight operations on one line. Each call is
recorded with the line before and after it. -/
namespace RTno2Proxy
open Imperative
open EnumClass (toByte ofByte)
open Line (Took tookNothing)

inductive Operation where
  | getState | getEcType | getProfile | activate | deactivate | execute
  | sendInportData (portName data : Bytes)
  | receiveOutportData (portName data : Bytes) (maxSize sizeRead : UInt8)
  deriving DecidableEq

structure Call where
  operation : Operation
  waitUsec : UInt32
  retryCount : Int
  deriving DecidableEq

inductive Reply where
  | state (out : ResultT State)
  | ecType (out : ResultT EcType)
  | profile (out : ResultT Profile)
  | result (out : Result)
  | received (out : Result × Bytes × UInt8)
  deriving DecidableEq

def Reply.code : Reply → Result
  | state out => out.result
  | ecType out => out.result
  | profile out => out.result
  | result out => out
  | received out => out.1

namespace Call
variable {σ : Type}

def run (h : Host σ) (c : Call) : Act σ Reply :=
  match c.operation with
  | .getState => do
      let out ← Protocol.getState h c.waitUsec c.retryCount
      pure (.state out)
  | .getEcType => do
      let out ← Protocol.getEcType h c.waitUsec c.retryCount
      pure (.ecType out)
  | .getProfile => do
      let out ← Protocol.getProfile h c.waitUsec c.retryCount
      pure (.profile out)
  | .activate => do
      let out ← Protocol.activate h c.waitUsec c.retryCount
      pure (.result out)
  | .deactivate => do
      let out ← Protocol.deactivate h c.waitUsec c.retryCount
      pure (.result out)
  | .execute => do
      let out ← Protocol.execute h c.waitUsec c.retryCount
      pure (.result out)
  | .sendInportData portName data => do
      let out ← Protocol.sendInportData h portName data (UInt8.ofNat data.length) c.waitUsec c.retryCount
      pure (.result out)
  | .receiveOutportData portName data maxSize sizeRead => do
      let out ← Protocol.receiveOutportData h portName data maxSize sizeRead c.waitUsec c.retryCount
      pure (.received out)

end Call

/- The request of a call; `unset` is what its local array holds at index 1. -/
def Operation.request (unset : UInt8) : Operation → Packet
  | .getState => Protocol.command .getState
  | .getEcType => Protocol.command .getContextType
  | .getProfile => Protocol.command .getProfile
  | .activate => Protocol.command .activate
  | .deactivate => Protocol.command .deactivate
  | .execute => Protocol.command .execute
  | .sendInportData portName data => Protocol.inportRequest portName data (UInt8.ofNat data.length)
  | .receiveOutportData portName _ _ _ => Protocol.outportRequest unset portName

structure Exchange where
  call : Call
  reply : Reply
  start : Line
  finish : Line

inductive Runs (setting : Setting) : Line → List Exchange → Line → Prop where
  | nil (w : Line) : Runs setting w [] w
  | cons {w u t : Line} {call : Call} {reply : Reply} {rest : List Exchange}
      (ran : (call.run (Line.host setting)).Returns w reply u) (later : Runs setting u rest t) :
      Runs setting w (⟨call,reply,w,u⟩ :: rest) t

end RTno2Proxy
