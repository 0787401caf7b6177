import RTno2Proxy.Console
import RTno2Proxy.Sessions

/-! What a line is handed: whole frames, of the kinds that the calls of a session or the commands of a
console are there to send, and a board that was waiting for a request receives exactly these. -/
namespace RTno2Proxy
open Imperative
variable {setting : Setting} {kinds : Command → Prop}

namespace Line

structure Handed (kinds : Command → Prop) (w : Line) (frames : List Packet) (t : Line) : Prop where
  written : t.written = w.written ++ frames.flatMap Packet.frame
  allowed : ∀ p ∈ frames, kinds p.command ∧ p.data.length ≤ Protocol.bufferSize
  received : w.incoming = [] → t.incoming = [] ∧ t.packets = w.packets ++ frames

def HandsOver (kinds : Command → Prop) (w t : Line) : Prop := ∃ frames, Handed kinds w frames t

theorem handsNothing {w t : Line} (written : t.written = w.written) (incoming : t.incoming = w.incoming)
    (requests : t.requests = w.requests) : HandsOver kinds w t :=
  ⟨[],by simp [written],by simp,fun waiting => ⟨incoming.trans waiting,by rw [packets,requests,packets,List.append_nil]⟩⟩

instance (kinds : Command → Prop) : IsPreorder Line (HandsOver kinds) where
  refl w := handsNothing rfl rfl rfl
  trans w u t first later := by
    obtain ⟨left,first⟩ := first
    obtain ⟨right,later⟩ := later
    refine ⟨left ++ right,?_,List.forall_mem_append.mpr ⟨first.allowed,later.allowed⟩,fun waiting => ?_⟩
    · rw [later.written,first.written,List.flatMap_append,List.append_assoc]
    · obtain ⟨between,earlier⟩ := first.received waiting
      obtain ⟨ends,all⟩ := later.received between
      exact ⟨ends,by rw [all,earlier,List.append_assoc]⟩

theorem tookHands {w t : Line} {raw : Bytes} (took : Took w raw t) : HandsOver kinds w t :=
  handsNothing took.written took.incoming took.requests

end Line
open Line (Handed HandsOver handsNothing tookHands)

namespace Transport

theorem sendHands {packet : Packet} (kind : kinds packet.command) (fits : packet.data.length ≤ Protocol.bufferSize) :
    (send (Line.host setting) packet).Keeps (HandsOver kinds) := by
  intro w v t ran
  obtain ⟨_,rfl⟩ := Program.evaluatesUnique ran (sendSent setting w packet)
  have small : packet.data.length ≤ 252 := Nat.le_trans fits (by decide)
  refine ⟨[packet],?_,by simpa using ⟨kind,fits⟩,fun waiting => ?_⟩
  · rw [List.flatMap_singleton]
    exact Line.foldWritten w packet.frame
  · rw [Line.sent,Line.foldFrame small waiting]
    exact ⟨waiting,by simp [Line.packets,Line.accept]⟩

theorem readHands (buffer : Bytes) (size : UInt8) (waitUsec : UInt32) :
    (read (Line.host setting) buffer size waitUsec).Keeps (HandsOver kinds) :=
  readRealised (g := Line.host setting) (Program.keepsCongruence Own) (Program.keepsStep fun w => tookHands (Line.pollTook w))
    (fun _ => Program.keepsStep fun w => refl_of (HandsOver kinds) w)
    (fun _ => Program.keepsStep fun _ => by exact handsNothing rfl rfl rfl) buffer size waitUsec

end Transport

def Hands (kinds : Command → Prop) (α : Type) (c _ : Act Line α) : Prop := c.Keeps (HandsOver kinds)

theorem hands (kinds : Command → Prop) : Program.Congruence Own (Hands kinds) := Program.keepsCongruence Own

theorem lineHands (setting : Setting) (kinds : Command → Prop) : (Line.host setting).Realises (Hands kinds) kinds (Line.host setting) where
  read := Transport.readHands
  send _ := Transport.sendHands
  getSenderInfo := Program.keepsBind (Program.keepsPure _) fun _ => Program.keepsPure ()
  scratch n _ next next' rest := by
    refine (hands kinds).lifted (fun _ never => nomatch never) fun raw given => rest raw ?_
    rw [← Except.ok.inj given,List.length_map,List.length_range]
  outside offset := by
    simp only [Line.host]
    cases setting.outside offset with
    | some b => exact Program.keepsPure b
    | none => exact Program.keepsStep fun w => refl_of (HandsOver kinds) w

namespace Commands

theorem consoleHands (setting : Setting) (floats : Floats) (objects : Nat → Nat → UInt8) (stdin : Bytes) :
    (doInteractive (Line.host setting) floats objects stdin).Keeps
      (HandsOver fun c => ∃ name ∈ typed stdin, c ∈ requests name) :=
  doInteractiveRealised (hands _) (lineHands setting _) floats objects fun name member _ mine =>
    ⟨name,member,mine⟩

section Transmits
variable {σ : Type} {h : Host σ} {l : Link σ} {clock : Bool → Prop} {floats : Floats} {objects : Nat → Nat → UInt8}

theorem consoleExplained (transmits : h.Transmits l setting clock) (early : ∃ late, clock late) {stdin : Bytes} {s t : σ}
    {w : Line} {v : Except Fault Console} (sound : l.sound s) (feeds : (l.view s).Feeds w)
    (ran : (doInteractive h floats objects stdin).Evaluates s v t) (clean : ¬ l.spoiled t) :
    ∃ polls u, (∀ p ∈ polls, clock p.late) ∧
      (doInteractive (Line.host setting) floats objects stdin).Evaluates {w with polls := polls} v u ∧ (l.view t).Feeds u := by
  have simulates : Program.Simulates (l.line clock) (doInteractive h floats objects stdin)
      (doInteractive (Line.host setting) floats objects stdin) :=
    doInteractiveRealised (Program.simulatesCongruence Own) (transmitsRealises transmits early) floats objects fun _ _ _ _ => trivial
  obtain ⟨now,u,⟨_,fed⟩,same⟩ := Program.simulatesRun simulates ⟨sound,feeds⟩ ran clean ⟨[],by simp⟩
  exact ⟨now.1,_,now.2,same,fed.arrived,fed.stream,fed.incoming,fed.packets,fed.written⟩

theorem handsExplained (transmits : h.Transmits l setting clock) (early : ∃ late, clock late) {stdin : Bytes} {s t : σ}
    {v : Except Fault Console} (sound : l.sound s) (unread : (l.view s).unread = []) (peer : (l.view s).peer = ⟨[],[],[]⟩)
    (ran : (doInteractive h floats objects stdin).Evaluates s v t) (clean : ¬ l.spoiled t) :
    ∃ frames, (l.view t).written = (l.view s).written ++ frames.flatMap Packet.frame ∧ (l.view t).peer.packets = frames ∧
      (l.view t).peer.incoming = [] ∧ ∀ p ∈ frames, ∃ name ∈ typed stdin, p.command ∈ requests name := by
  obtain ⟨polls,u,_,same,fed⟩ := consoleExplained transmits early sound (View.feedsIdle unread peer) ran clean
  obtain ⟨frames,handed⟩ := consoleHands setting floats objects stdin _ _ _ same
  obtain ⟨waiting,packets⟩ := handed.received rfl
  exact ⟨frames,fed.written.symm.trans handed.written,fed.packets.symm.trans packets,fed.incoming.symm.trans waiting,
    fun p member => (handed.allowed p member).1⟩

end Transmits

end Commands
end RTno2Proxy
