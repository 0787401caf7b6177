import RTno2Proxy.SerialPort
import RTno2Proxy.Transcripts

/-! Sessions and the console over a serial port: what they are as long as the port works, and how they
end when it does not. -/
namespace RTno2Proxy
namespace SerialPort
open Imperative
variable {setting : Setting} {world : Nat → Moment}

def steadily (broken : Option Nat) : Nat → Moment := fun n =>
  ⟨List.replicate 8 .board ++ List.replicate 8 .received,false,decide (some n = broken),true,0⟩

def demoCalls : List Call := demoSession.map Prod.fst

theorem steadyRun : ∃ t, (session (host demoBoard (steadily none)) demoCalls).Evaluates opened
    (.ok (demoSession.map Prod.snd)) t ∧ ¬ Lossy t := by
  obtain ⟨v,t,ran,good⟩ := Program.evaluatesEnded (c := session (host demoBoard (steadily none)) demoCalls) (s := opened)
    (p := fun v t => decide (v.toOption = some (demoSession.map Prod.snd) ∧ ¬ Lossy t)) 60 (by decide +kernel)
  obtain ⟨value,clean⟩ := of_decide_eq_true good
  cases v with
  | error e => cases value
  | ok replies =>
    cases value
    exact ⟨t,ran,clean⟩

theorem serialSession (setting : Setting) (world : Nat → Moment) {calls : List Call} {v : Except Fault (List Reply)} {t : Port}
    (ran : (session (host setting world) calls).Evaluates opened v t) (clean : ¬ Lossy t) :
    ∃ polls u, (∀ p ∈ polls, ∃ n, p.late = (world n).late) ∧
      (session (Line.host setting) calls).Evaluates {Line.idle with polls := polls} v u ∧ (view setting t).Feeds u := by
  have transmits : (host setting world).Transmits (link setting) setting fun late => ∃ n, late = (world n).late :=
    portTransmits fun n => ⟨n,rfl⟩
  exact sessionExplained (w := Line.idle) transmits ⟨_,0,rfl⟩ trivial ⟨List.nil_prefix,rfl,rfl,rfl,rfl⟩ ran clean

theorem serialSessionDemo : ∃ t polls u, (∀ p ∈ polls, ∃ n, p.late = (steadily none n).late) ∧
    (session (Line.host demoBoard) demoCalls).Evaluates {Line.idle with polls := polls} (.ok (demoSession.map Prod.snd)) u ∧
      (view demoBoard t).Feeds u := by
  obtain ⟨t,ran,clean⟩ := steadyRun
  exact ⟨t,serialSession demoBoard (steadily none) ran clean⟩

/- The exception of the device leaves a session exactly when one of its `select`, `read` and `write`
calls has failed: no operation catches it, and a failing `ioctl` is not noticed. -/
theorem serialExcepts (setting : Setting) (world : Nat → Moment) {calls : List Call} {s t : Port} {v : Except Fault (List Reply)}
    (good : ¬ Failed s) (ran : (session (host setting world) calls).Evaluates s v t) : v = .error .deviceError ↔ Failed t :=
  sessionRealised excepts (portSignals setting world) calls (fun _ _ => trivial) s v t good ran

theorem brokenRun : ∃ v t, (session (host demoBoard (steadily (some 41))) demoCalls).Evaluates opened v t ∧
    t.failed = true ∧ t.moment = 42 := by
  obtain ⟨v,t,ran,good⟩ := Program.evaluatesEnded (c := session (host demoBoard (steadily (some 41))) demoCalls) (s := opened)
    (p := fun _ t => decide (t.failed = true ∧ t.moment = 42)) 60 (by decide +kernel)
  exact ⟨v,t,ran,of_decide_eq_true good⟩

theorem serialExceptsDemo : ∃ t, t.moment = 42 ∧
    (session (host demoBoard (steadily (some 41))) demoCalls).Evaluates opened (.error .deviceError) t := by
  obtain ⟨v,t,ran,failed,moment⟩ := brokenRun
  have whole : ¬ Failed opened := Bool.false_ne_true
  obtain rfl := (serialExcepts demoBoard (steadily (some 41)) whole ran).mpr failed
  exact ⟨t,moment,ran⟩

section Console
open Commands
open Interactive (word)
variable {floats : Floats} {objects : Nat → Nat → UInt8}

theorem talkRun : ∃ v t, (doInteractive (host demoBoard (steadily none)) noFloats (fun _ _ => 0) demoTyped).Evaluates opened v t ∧
    ¬ Lossy t := by
  obtain ⟨v,t,ran,good⟩ := Program.evaluatesEnded
    (c := doInteractive (host demoBoard (steadily none)) noFloats (fun _ _ => 0) demoTyped) (s := opened)
    (p := fun _ t => decide (¬ Lossy t)) 60 (by decide +kernel)
  exact ⟨v,t,ran,of_decide_eq_true good⟩

theorem serialConsole (setting : Setting) (world : Nat → Moment) {stdin : Bytes} {v : Except Fault Console} {t : Port}
    (ran : (doInteractive (host setting world) floats objects stdin).Evaluates opened v t) (clean : ¬ Lossy t) :
    ∃ frames, t.written = frames.flatMap Packet.frame ∧ (t.wire.settled setting).packets = frames ∧
      (t.wire.settled setting).incoming = [] ∧ ∀ p ∈ frames, ∃ name ∈ typed stdin, p.command ∈ requests name := by
  have transmits : (host setting world).Transmits (link setting) setting fun late => ∃ n, late = (world n).late :=
    portTransmits fun n => ⟨n,rfl⟩
  exact handsExplained transmits ⟨_,0,rfl⟩ trivial rfl rfl ran clean

theorem serialConsoleDemo : ∃ (t : Port) (frames : List Packet), t.written = frames.flatMap Packet.frame ∧ (t.wire.settled demoBoard).packets = frames ∧
    (t.wire.settled demoBoard).incoming = [] ∧ ∀ p ∈ frames, ∃ name ∈ typed demoTyped, p.command ∈ requests name := by
  obtain ⟨v,t,ran,clean⟩ := talkRun
  exact ⟨t,serialConsole demoBoard (steadily none) ran clean⟩

end Console

end SerialPort
end RTno2Proxy
