import RTno2Proxy.TcpDevice
import RTno2Proxy.Transcripts

/-! Sessions and the console over `EtherTcp`, under every order of the two threads and of the board. -/
namespace RTno2Proxy
namespace TcpDevice
open Imperative

theorem connectedSound (setting : Setting) : (link (Wire.medium setting)).sound connected := ⟨⟨EtherTcp.invariantInit,trivial⟩,trivial⟩

def promptly : Nat → Moment Unit := fun _ => ⟨List.replicate 8 (.elsewhere ()) ++ List.replicate 8 .svc,false,.accepts⟩

def demoCalls : List Call := demoSession.map Prod.fst

theorem promptRun : ∃ t, (session (direct demoBoard promptly) demoCalls).Evaluates connected
    (.ok (demoSession.map Prod.snd)) t ∧ ¬ Lossy (Wire.medium demoBoard) t := by
  obtain ⟨v,t,ran,good⟩ := Program.evaluatesEnded (c := session (direct demoBoard promptly) demoCalls) (s := connected)
    (p := fun v t => decide (v.toOption = some (demoSession.map Prod.snd) ∧ ¬ Lossy (Wire.medium demoBoard) t)) 60 (by decide +kernel)
  obtain ⟨value,whole⟩ := of_decide_eq_true good
  cases v with
  | error e => cases value
  | ok replies =>
    cases value
    exact ⟨t,ran,whole⟩

theorem tcpSession (setting : Setting) (world : Nat → Moment Unit) {calls : List Call} {v : Except Fault (List Reply)} {t : Connection Wire}
    (ran : (session (direct setting world) calls).Evaluates connected v t) (whole : ¬ Lossy (Wire.medium setting) t) :
    ∃ polls u, (∀ p ∈ polls, ∃ n, p.late = (world n).late) ∧
      (session (Line.host setting) calls).Evaluates {Line.idle with polls := polls} v u ∧ (view (Wire.medium setting) t).Feeds u := by
  have transmits : (direct setting world).Transmits (link (Wire.medium setting)) setting fun late => ∃ n, late = (world n).late :=
    directTransmits _ _ fun n => ⟨n,rfl⟩
  exact sessionExplained (w := Line.idle) transmits ⟨_,0,rfl⟩ (connectedSound setting) ⟨List.nil_prefix,rfl,rfl,rfl,rfl⟩ ran whole

theorem tcpSessionDemo : ∃ t polls u, (∀ p ∈ polls, ∃ n, p.late = (promptly n).late) ∧
    (session (Line.host demoBoard) demoCalls).Evaluates {Line.idle with polls := polls} (.ok (demoSession.map Prod.snd)) u ∧
      (view (Wire.medium demoBoard) t).Feeds u := by
  obtain ⟨t,ran,whole⟩ := promptRun
  exact ⟨t,tcpSession demoBoard promptly ran whole⟩

section Console
open Commands
open Interactive (word)
variable {floats : Floats} {objects : Nat → Nat → UInt8}

theorem talkRun : ∃ v t, (doInteractive (direct demoBoard promptly) noFloats (fun _ _ => 0) demoTyped).Evaluates connected v t ∧
    ¬ Lossy (Wire.medium demoBoard) t := by
  obtain ⟨v,t,ran,good⟩ := Program.evaluatesEnded
    (c := doInteractive (direct demoBoard promptly) noFloats (fun _ _ => 0) demoTyped) (s := connected)
    (p := fun _ t => decide (¬ Lossy (Wire.medium demoBoard) t)) 60 (by decide +kernel)
  exact ⟨v,t,ran,of_decide_eq_true good⟩

theorem tcpConsole (setting : Setting) (world : Nat → Moment Unit) {stdin : Bytes} {v : Except Fault Console} {t : Connection Wire}
    (ran : (doInteractive (direct setting world) floats objects stdin).Evaluates connected v t) (whole : ¬ Lossy (Wire.medium setting) t) :
    ∃ frames, t.written = frames.flatMap Packet.frame ∧ (t.wire.settled setting).packets = frames ∧
      (t.wire.settled setting).incoming = [] ∧ ∀ p ∈ frames, ∃ name ∈ typed stdin, p.command ∈ requests name := by
  have transmits : (direct setting world).Transmits (link (Wire.medium setting)) setting fun late => ∃ n, late = (world n).late :=
    directTransmits _ _ fun n => ⟨n,rfl⟩
  exact handsExplained transmits ⟨_,0,rfl⟩ (connectedSound setting) rfl rfl ran whole

theorem tcpConsoleDemo : ∃ (t : Connection Wire) (frames : List Packet), t.written = frames.flatMap Packet.frame ∧ (t.wire.settled demoBoard).packets = frames ∧
    (t.wire.settled demoBoard).incoming = [] ∧ ∀ p ∈ frames, ∃ name ∈ typed demoTyped, p.command ∈ requests name := by
  obtain ⟨v,t,ran,whole⟩ := talkRun
  exact ⟨t,tcpConsole demoBoard promptly ran whole⟩

end Console

end TcpDevice
end RTno2Proxy
