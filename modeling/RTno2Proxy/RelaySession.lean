import RTno2Proxy.Relay
import RTno2Proxy.TcpDevice
import RTno2Proxy.Transcripts

/-! The whole way from the calls and the commands of the proxy to a board on a serial port elsewhere:
`EtherTcp` and its two threads, the network, the loop of com2tcp, and the cable. -/
namespace RTno2Proxy
namespace Relay
open Imperative
open TcpDevice (Connection Moment Lossy view)
open Com2Tcp (Buffer accepted unwritten)
variable {setting : Setting} {wouldBlock : Bool} {world : Nat → Moment Move} {buffer : Buffer}

def opened (buffer : Buffer) : Relay := ⟨[],accepted buffer,⟨[],⟨[],[],[]⟩⟩,[],false⟩

abbrev remote (setting : Setting) (wouldBlock : Bool) (world : Nat → Moment Move) : Host (Connection Relay) :=
  TcpDevice.host setting (channel setting wouldBlock) world

def connected (buffer : Buffer) : Connection Relay := TcpDevice.connectedTo (opened buffer)

theorem connectedSound (setting : Setting) (buffer : Buffer) : (TcpDevice.link (medium setting)).sound (connected buffer) :=
  ⟨⟨EtherTcp.invariantInit,Com2Tcp.invariantAccepted buffer,rfl⟩,trivial⟩

def call : TcpDevice.Move Move := .elsewhere (.step 256)

/- For each request, where it begins in the run and how long its frame is. The server waits in `recv`, which is not
called before a byte is there: each byte of a request goes the whole way at once, and the answer comes with the last. -/
def lively (served : List (Nat × Nat)) : Nat → Moment Move := fun n =>
  ⟨(if n = 0 then [call] else []) ++
    (if served.any fun r => r.1 + r.2 = n then
      .elsewhere .proxy :: List.replicate 3 call ++ .elsewhere .forward :: List.replicate 64 (.elsewhere .board) ++
        List.replicate 3 call ++ List.replicate 64 .svc
    else if served.any fun r => r.1 < n ∧ n < r.1 + r.2 then
      .elsewhere .proxy :: List.replicate 4 call ++ [.elsewhere .forward]
    else []),false,.accepts⟩

def livelyTalk : Nat → Moment Move := lively [(0,6),(29,6),(100,9),(136,6),(207,13)]

section Console
open Commands
open Interactive (word)
variable {floats : Floats} {objects : Nat → Nat → UInt8}

theorem talkRun : ∃ v t, (doInteractive (remote demoBoard true livelyTalk) noFloats (fun _ _ => 0) demoTyped).Evaluates
    (connected unwritten) v t ∧ ¬ Lossy (medium demoBoard) t := by
  obtain ⟨v,t,ran,good⟩ := Program.evaluatesEnded
    (c := doInteractive (remote demoBoard true livelyTalk) noFloats (fun _ _ => 0) demoTyped) (s := connected unwritten)
    (p := fun _ t => decide (¬ Lossy (medium demoBoard) t)) 90 (by decide +kernel)
  exact ⟨v,t,ran,of_decide_eq_true good⟩

end Console

end Relay
end RTno2Proxy
