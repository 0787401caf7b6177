import RTno2Proxy.TcpDevice
import RTno2Proxy.FrontEnds

/-! Sessions and the console over `EtherTcp` come to an end, under every order of the two threads and of
the board, whether the ring loses bytes or makes some up. -/
namespace RTno2Proxy

structure Channel.Depletes {χ μ : Type} (c : Channel χ μ) (ahead : χ → Nat) : Prop where
  happen : ∀ {e s}, ahead (c.happen e s) = ahead s
  fetch : ∀ {s t b}, c.fetch s = some (b,t) → ahead t < ahead s

theorem Wire.depletes (setting : Setting) : (channel setting).Depletes fun w => (w.settled setting).coming.length where
  happen {_ s} := congrArg (fun p : Peer => p.coming.length) (forwardSettled setting s)
  fetch {s t b} fetched := by
    have settled := fetchSettled setting fetched
    change (t.settled setting).coming.length < (s.settled setting).coming.length
    rw [settled,List.length_append]
    exact Nat.lt_add_of_pos_left (Nat.succ_pos _)

/- The connections of one process, the newest first, each to a board of its own. An object that has been replaced
still has its thread; `turn` is the one that the next byte is read by. -/
structure Wires where
  lines : List (Setting × Wire)
  turn : Nat

namespace Wires

inductive Move where
  | board (i : Nat)
  | thread (i : Nat)

def happen (e : Move) (c : Wires) : Wires :=
  match e with
  | .board i => {c with lines := c.lines.modify i fun l => (l.1,l.2.forward l.1)}
  | .thread i => {c with turn := i}

def fetch (c : Wires) : Option (UInt8 × Wires) :=
  match c.lines[c.turn]? with
  | none => none
  | some l => l.2.fetch.map fun read => (read.1,{c with lines := c.lines.set c.turn (l.1,read.2)})

def send (raw : Bytes) (c : Wires) : Wires := {c with lines := c.lines.modify 0 fun l => (l.1,l.2.send raw)}

def channel : Channel Wires Move := ⟨happen,fetch,send⟩

def comingLength (l : Setting × Wire) : Nat := (l.2.settled l.1).coming.length

def ahead (c : Wires) : Nat := (c.lines.map comingLength).sum

theorem modifyAhead {f : Setting × Wire → Setting × Wire} (kept : ∀ l, comingLength (f l) = comingLength l)
    (lines : List (Setting × Wire)) (i : Nat) : (lines.modify i f).map comingLength = lines.map comingLength := by
  induction lines generalizing i with
  | nil => cases i <;> rfl
  | cons l lines ih =>
    cases i with
    | zero => simp [kept]
    | succ i => simp [ih]

theorem setAhead {lines : List (Setting × Wire)} {i : Nat} {l m : Setting × Wire} (here : lines[i]? = some l)
    (less : comingLength m < comingLength l) : ((lines.set i m).map comingLength).sum < (lines.map comingLength).sum := by
  induction lines generalizing i with
  | nil => cases here
  | cons first lines ih =>
    cases i with
    | zero =>
      cases here
      simp only [List.set_cons_zero,List.map_cons,List.sum_cons]
      omega
    | succ i =>
      have rest := ih here
      simp only [List.set_cons_succ,List.map_cons,List.sum_cons]
      omega

theorem depletes : channel.Depletes ahead where
  happen {e c} := by
    cases e with
    | board i =>
      refine congrArg List.sum (modifyAhead (fun l => ?_) c.lines i)
      exact congrArg (fun p : Peer => p.coming.length) (Wire.forwardSettled l.1 l.2)
    | thread i => rfl
  fetch {c d b} fetched := by
    change fetch c = some (b,d) at fetched
    unfold fetch at fetched
    split at fetched
    · cases fetched
    · rename_i l here
      obtain ⟨read,got,same⟩ := Option.map_eq_some_iff.mp fetched
      cases same
      exact setAhead here ((Wire.depletes l.1).fetch got)

end Wires

namespace TcpDevice
open Imperative
open EtherTcp (Tcp Phase mainStep)
variable {χ μ : Type} {setting : Setting} {channel : Channel χ μ} {ahead : χ → Nat} {world : Nat → Moment μ}

/- Each byte that is still to come counts for more than the ring can hold: a push into a full ring empties it. -/
def stock (ahead : χ → Nat) (s : Connection χ) : Nat := EtherTcp.bufsize * ahead s.wire + s.tcp.ring.size.toNat

def Idle (s : Connection χ) : Prop := s.tcp.phase.Outside

theorem stockAhead {s t : Connection χ} (less : ahead t.wire < ahead s.wire) : stock ahead t < stock ahead s := by
  have small : t.tcp.ring.size.toNat < EtherTcp.bufsize := t.tcp.ring.sizeLt
  unfold stock
  calc EtherTcp.bufsize * ahead t.wire + t.tcp.ring.size.toNat
      < EtherTcp.bufsize * (ahead t.wire + 1) := by rw [Nat.mul_succ]; omega
    _ ≤ EtherTcp.bufsize * ahead s.wire := Nat.mul_le_mul_left _ less
    _ ≤ EtherTcp.bufsize * ahead s.wire + s.tcp.ring.size.toNat := Nat.le_add_right _ _

structure Brought (ahead : χ → Nat) (s t : Connection χ) : Prop where
  phase : t.tcp.phase = s.tcp.phase
  ring : ahead t.wire < ahead s.wire ∨ ahead t.wire = ahead s.wire ∧ t.tcp.ring = s.tcp.ring

theorem broughtNothing (s : Connection χ) : Brought ahead s s := ⟨rfl,.inr ⟨rfl,rfl⟩⟩

theorem Brought.later {s t u : Connection χ} (first : Brought ahead s t) (second : Brought ahead t u) : Brought ahead s u := by
  refine ⟨second.phase.trans first.phase,?_⟩
  rcases first.ring with less | ⟨same,ring⟩
  · rcases second.ring with more | ⟨same,_⟩
    · exact .inl (Nat.lt_trans more less)
    · exact .inl (same ▸ less)
  · rcases second.ring with more | ⟨again,still⟩
    · exact .inl (same ▸ more)
    · exact .inr ⟨again.trans same,still.trans ring⟩

theorem broughtStock {s t : Connection χ} (brought : Brought ahead s t) : stock ahead t ≤ stock ahead s := by
  rcases brought.ring with less | ⟨same,ring⟩
  · exact Nat.le_of_lt (stockAhead less)
  · unfold stock
    rw [same,ring]

theorem moveBrought (depletes : channel.Depletes ahead) (s : Connection χ) (e : Move μ) : Brought ahead s (move channel s e) := by
  unfold move
  cases e with
  | elsewhere e => exact ⟨rfl,.inr ⟨depletes.happen,rfl⟩⟩
  | svc =>
    cases read : channel.fetch s.wire with
    | none => exact broughtNothing s
    | some fetched => exact ⟨rfl,.inl (depletes.fetch read)⟩

theorem elapseBrought (depletes : channel.Depletes ahead) (s : Connection χ) : Brought ahead s (elapse channel world s) := by
  have moves (moves : List (Move μ)) (s : Connection χ) : Brought ahead s (moves.foldl (move channel) s) := by
    induction moves generalizing s with
    | nil => exact broughtNothing s
    | cons m moves ih => exact (moveBrought depletes s m).later (ih _)
  obtain ⟨phase,ring⟩ := moves (world s.moment).moves s
  exact ⟨phase,ring⟩

theorem broughtIdle {s t : Connection χ} (brought : Brought ahead s t) (idle : Idle s) : Idle t := by
  unfold Idle
  rw [brought.phase]
  exact idle

def Taking (held : Nat) (s : Tcp) : Prop :=
  match s.phase with
  | .idle => False
  | .compare size => 0 < size.toNat ∧ s.ring.size.toNat = held
  | .fetch _ => s.ring.size.toNat = held
  | .popping sizeRead dst =>
      0 < sizeRead.toNat ∧ sizeRead.toNat ≤ held ∧ dst.length ≤ sizeRead.toNat ∧ s.ring.size.toNat + dst.length = held
  | .returned _ _ => s.ring.size.toNat < held

theorem takingStep {held : Nat} {s t : Tcp} (filled : 0 < held) (taking : Taking held s) (stepped : mainStep s = some t) :
    Taking held t := by
  unfold Taking at taking
  have moved := EtherTcp.nextSource (e := .step) stepped
  cases moved with
  | enough here less =>
    rw [here] at taking
    exact taking.2
  | @plenty size here more =>
    rw [here] at taking
    obtain ⟨asked,held⟩ := taking
    refine ⟨?_,?_,Nat.zero_le _,held⟩
    · rw [UInt8.toNat_toUInt32]
      exact asked
    · rw [UInt8.toNat_toUInt32,← held]
      exact Nat.le_of_lt more
  | fetch here =>
    rw [here] at taking
    refine ⟨?_,?_,Nat.zero_le _,taking⟩
    · rw [EtherTcp.unsignedSize,taking]
      exact filled
    · rw [EtherTcp.unsignedSize,taking]
  | @pop sizeRead dst here left =>
    rw [here] at taking
    obtain ⟨asked,most,_,rest⟩ := taking
    have unread : 0 < s.ring.size.toNat := by omega
    refine ⟨asked,most,?_,?_⟩
    · rw [List.length_append,List.length_singleton]
      exact left
    · rw [RingBuffer.sizePop unread,List.length_append,List.length_singleton]
      omega
  | @leave sizeRead dst here all =>
    rw [here] at taking
    obtain ⟨asked,most,_,rest⟩ := taking
    change s.ring.size.toNat < held
    omega

def Drawing (ahead : χ → Nat) (s t : Connection χ) : Prop :=
  ahead t.wire < ahead s.wire ∨ ahead t.wire = ahead s.wire ∧ Taking s.tcp.ring.size.toNat t.tcp

theorem drawingBrought {s t u : Connection χ} (drawing : Drawing ahead s t) (brought : Brought ahead t u) : Drawing ahead s u := by
  rcases brought.ring with less | ⟨same,ring⟩
  · rcases drawing with fewer | ⟨before,_⟩
    · exact .inl (Nat.lt_trans less fewer)
    · exact .inl (before ▸ less)
  · rcases drawing with fewer | ⟨before,taking⟩
    · exact .inl (same ▸ fewer)
    · refine .inr ⟨same.trans before,?_⟩
      unfold Taking at taking ⊢
      rw [brought.phase,ring]
      exact taking

theorem insideSteps {s : Tcp} (inside : ¬ s.phase.Outside) : ∃ t, mainStep s = some t := by
  unfold mainStep
  cases here : s.phase with
  | idle | returned =>
    rw [here] at inside
    exact absurd trivial inside
  | compare size =>
    dsimp only
    split
    · exact ⟨_,rfl⟩
    · exact ⟨_,rfl⟩
  | fetch size => exact ⟨_,rfl⟩
  | popping sizeRead dst =>
    dsimp only
    split
    · exact ⟨_,rfl⟩
    · exact ⟨_,rfl⟩

theorem stepPlace {s t : Tcp} (stepped : mainStep s = some t) :
    (∃ retval dst, t.phase = .returned retval dst) ∨ ¬ t.phase.Outside := by
  cases EtherTcp.nextSource (e := .step) stepped with
  | enough | plenty | fetch | pop => exact .inr id
  | leave => exact .inl ⟨_,_,rfl⟩

theorem readPassLast {s t : Connection χ} {retval : UInt32} {dst : Bytes} (next : advance .step (elapse channel world s) = t)
    (here : t.tcp.phase = .returned retval dst) : (readPass channel world).Returns s (.inr (dst,retval.toNat)) t := by
  refine Program.returnsStep.mpr ?_
  dsimp only
  rw [next,here]

theorem readPassMore {s t : Connection χ} (next : advance .step (elapse channel world s) = t) (inside : ¬ t.tcp.phase.Outside) :
    (readPass channel world).Returns s (.inl ()) t := by
  refine Program.returnsStep.mpr ?_
  dsimp only
  rw [next]
  cases here : t.tcp.phase with
  | returned retval dst =>
    rw [here] at inside
    exact absurd trivial inside
  | _ => rfl

theorem readPassTotal (depletes : channel.Depletes ahead) {s t : Connection χ} (filled : 0 < s.tcp.ring.size.toNat) (drawing : Drawing ahead s t)
    (inside : ¬ t.tcp.phase.Outside) : (readPass channel world).Total t (fun x u => Drawing ahead s u ∧
      x.elim (fun _ => ¬ u.tcp.phase.Outside ∧ u.tcp.phase.left < t.tcp.phase.left) fun _ => ∃ retval dst, u.tcp.phase = .returned retval dst)
      fun _ _ => True := by
  have brought : Brought ahead t (elapse channel world t) := elapseBrought depletes t
  obtain ⟨tcp,stepped⟩ := insideSteps (brought.phase ▸ inside)
  have less := EtherTcp.leftStep stepped
  rw [brought.phase] at less
  have next : advance .step (elapse channel world t) = {elapse channel world t with tcp := tcp} := by
    unfold advance
    rw [EtherTcp.next,stepped,Option.getD_some]
  have drawn : Drawing ahead s {elapse channel world t with tcp := tcp} := by
    rcases drawingBrought drawing brought with fewer | ⟨same,taking⟩
    · exact .inl fewer
    · exact .inr ⟨same,takingStep filled taking stepped⟩
  rcases stepPlace stepped with ⟨retval,dst,here⟩ | further
  · exact .inl ⟨_,_,readPassLast next here,drawn,retval,dst,here⟩
  · exact .inl ⟨_,_,readPassMore next further,drawn,further,less⟩

theorem readTotal (depletes : channel.Depletes ahead) {s : Connection χ} {size : UInt8} (idle : Idle s) (positive : size ≠ 0)
    (enough : size.toNat ≤ s.tcp.ring.size.toNat) :
    (read channel world size).Total s (fun _ t => Idle t ∧ stock ahead t < stock ahead s) fun _ _ => True := by
  have asked : 0 < size.toNat := Nat.pos_of_ne_zero fun zero => positive (UInt8.toNat_inj.mp zero)
  have filled : 0 < s.tcp.ring.size.toNat := Nat.lt_of_lt_of_le asked enough
  have called : advance (.read size) s = {s with tcp := {s.tcp with phase := .compare size}} := by
    have outside : s.tcp.phase.Outside := idle
    unfold advance
    rw [EtherTcp.next,if_pos outside,Option.getD_some]
  unfold read
  refine Program.totalAfter (Program.returnsStep.mpr rfl) ?_
  rw [called]
  refine Program.totalBind (Program.totalLoop (fun _ t => Drawing ahead s t ∧ ¬ t.tcp.phase.Outside) (fun _ t => t.tcp.phase.left)
    (fun _ t within => Program.totalWeaken (readPassTotal depletes filled within.1 within.2) (fun x u passed => ?_)
      fun _ _ _ => trivial) ⟨.inr ⟨rfl,asked,rfl⟩,id⟩)
  obtain ⟨drawn,post⟩ := passed
  cases x with
  | inl _ => exact ⟨⟨drawn,post.1⟩,post.2⟩
  | inr out =>
    obtain ⟨retval,dst,here⟩ := post
    refine Program.totalAfter (Program.returnsStep.mpr rfl) (Program.totalPure ⟨?_,?_⟩)
    · change u.tcp.phase.Outside
      rw [here]
      trivial
    · change stock ahead u < stock ahead s
      rcases drawn with fewer | ⟨same,taking⟩
      · exact stockAhead fewer
      · unfold Taking at taking
        rw [here] at taking
        unfold stock
        rw [same]
        exact Nat.add_lt_add_left taking _

theorem transportReadDrains (depletes : channel.Depletes ahead) (overdue : Overdue fun k => (world k).late) (buffer : Bytes)
    (size : UInt8) {waitUsec : UInt32} (finite : waitUsec ≠ Transport.uint32Max) :
    (Transport.read (host setting channel world) buffer size waitUsec).Drains Idle (stock ahead)
      fun out => out.1 = .ok ∧ size ≠ 0 := by
  refine Transport.readDrains Connection.moment (fun t => size.toNat ≤ t.tcp.ring.size.toNat) overdue finite
    (fun _ s idle => ?_) (fun s idle => ?_) (fun positive s idle enough => readTotal depletes idle positive enough) buffer
  · have brought : Brought ahead s (elapse channel world s) := elapseBrought depletes s
    refine Program.totalReturns (Program.returnsStep.mpr rfl) ⟨⟨broughtIdle brought idle,broughtStock brought⟩,?_,fun reached => ?_⟩
    · exact ⟨Nat.lt_succ_self s.moment,Nat.le_succ (s.moment + 1)⟩
    · have counted := RingBuffer.sizeToNat (elapse channel world s).tcp.ring
      change (size.toNat : Int) ≤ (elapse channel world s).tcp.ring.size at reached
      omega
  · have brought : Brought ahead s (elapse channel world s) := elapseBrought depletes s
    exact Program.totalReturns (Program.returnsStep.mpr rfl) ⟨⟨broughtIdle brought idle,broughtStock brought⟩,rfl,rfl⟩

theorem tcpSupplied (depletes : channel.Depletes ahead) (overdue : Overdue fun k => (world k).late) : (host setting channel world).Supplied Idle (stock ahead) where
  read := transportReadDrains depletes overdue
  send := Transport.sendSettles fun b => Program.settlesStep fun s idle => by
    have brought : Brought ahead s (elapse channel world s) := elapseBrought depletes s
    have after : Idle (elapse channel world s) := broughtIdle brought idle
    dsimp only
    cases (world s.moment).sent with
    | accepts | refuses | kills => exact after
  getSenderInfo := Program.drainsPure id
  scratch _ := Program.drainsPure id
  outside offset := by
    simp only [host]
    cases setting.outside offset with
    | some b => exact Program.drainsPure id
    | none => exact Program.drainsThrow _

def hasty : Nat → Moment Unit := fun n => ⟨List.replicate 300 .svc,decide (40 ≤ n),.accepts⟩

theorem hastyOverdue : Overdue fun k => (hasty k).late := overdueOf 40 fun _ after => decide_eq_true after

def Still (setting : Setting) (s : Connection Wire) : Prop :=
  Idle s ∧ (s.wire.settled setting).coming.length = 0 ∧ s.tcp.ring.size.toNat = 0

section Mute
variable {world : Nat → Moment Unit}

theorem stillElapsed {s : Connection Wire} (still : Still setting s) : Still setting (elapse (Wire.channel setting) world s) := by
  obtain ⟨idle,drained,empty⟩ := still
  have brought : Brought (fun w => (w.settled setting).coming.length) s (elapse (Wire.channel setting) world s) :=
    elapseBrought (Wire.depletes setting) s
  rcases brought.ring with less | ⟨same,ring⟩
  · rw [drained] at less
    exact absurd less (Nat.not_lt_zero _)
  · exact ⟨broughtIdle brought idle,same.trans drained,by rw [ring]; exact empty⟩

theorem tcpMute (silent : ∀ packets, setting.reply packets = []) (survives : ∀ n, (world n).sent ≠ .kills) :
    (direct setting world).Mute (Still setting) where
  size := Program.continuesStep fun s still => by
    refine ⟨stillElapsed still,_,rfl,?_⟩
    have counted := RingBuffer.sizeToNat (elapse (Wire.channel setting) world s).tcp.ring
    have empty : (elapse (Wire.channel setting) world s).tcp.ring.size.toNat = 0 := (stillElapsed still).2.2
    change (elapse (Wire.channel setting) world s).tcp.ring.size ≤ 0
    omega
  expired _ := Program.continuesStep fun _ still => ⟨stillElapsed still,_,rfl,trivial⟩
  write b := Program.continuesStep fun s still => by
    obtain ⟨idle,drained,empty⟩ : Still setting (elapse (Wire.channel setting) world s) := stillElapsed still
    dsimp only
    cases sent : (world s.moment).sent with
    | accepts =>
      refine ⟨⟨idle,?_,empty⟩,_,rfl,trivial⟩
      change (((elapse (Wire.channel setting) world s).wire.send [b]).settled setting).coming.length = 0
      rw [Wire.sendSettled,Peer.receive]
      split
      · exact drained
      · rw [silent,List.append_nil]
        exact drained
    | refuses => exact ⟨⟨idle,drained,empty⟩,_,rfl,trivial⟩
    | kills => exact absurd sent (survives s.moment)
  scratch n := Program.continuesPure (by rw [List.length_map,List.length_range])

theorem tcpHaltsFinite (setting : Setting) (world : Nat → Moment Unit) (overdue : Overdue fun k => (world k).late)
    (silent : ∀ packets, setting.reply packets = []) (survives : ∀ n, (world n).sent ≠ .kills) {call : Call} (asks : call.Asks) :
    (call.run (direct setting world)).Halts connected ↔ call.waitUsec ≠ Transport.uint32Max := by
  constructor
  · exact fun halts endless => Call.runStalls (tcpMute silent survives) asks endless connected ⟨trivial,rfl,rfl⟩ halts
  · exact fun finite => Program.settlesHalts (Call.runSettles (tcpSupplied (Wire.depletes setting) overdue) call finite) trivial

theorem tcpHaltsFiniteState : ¬ ((⟨.getState,Transport.uint32Max,5⟩ : Call).run (direct .silent hasty)).Halts connected := by
  have asks : (⟨.getState,Transport.uint32Max,5⟩ : Call).Asks := ⟨trivial,fun _ => by decide⟩
  have survives : ∀ n, (hasty n).sent ≠ .kills := fun _ => Sent.noConfusion
  exact fun halts => (tcpHaltsFinite .silent hasty hastyOverdue (fun _ => rfl) survives asks).mp halts rfl

end Mute

end TcpDevice
end RTno2Proxy
