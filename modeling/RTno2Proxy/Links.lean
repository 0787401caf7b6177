import RTno2Proxy.LineReads
import RTno2Proxy.LineWrites
import RTno2Proxy.Devices

/-! What makes a serial device a line. A device has a buffer of its own, and a peer that the bytes
reach with a delay. Its contract says what a single call may do to the two; a device that keeps it
stands for the line, under the schedule of arrivals that the run itself brings out. -/
namespace RTno2Proxy
open Imperative
open Program (Simulates simulatesPure simulatesLoop matchesAfter)

structure Peer where
  incoming : Bytes
  packets : List Packet
  coming : Bytes
  deriving DecidableEq

def Peer.receive (setting : Setting) (b : UInt8) (p : Peer) : Peer :=
  match Line.requestOf (p.incoming ++ [b]) with
  | none => {p with incoming := p.incoming ++ [b]}
  | some request => ⟨[],p.packets ++ [request],p.coming ++ setting.reply (p.packets ++ [request])⟩

namespace Peer

def receiveAll (setting : Setting) (raw : Bytes) (p : Peer) : Peer := raw.foldl (fun p b => p.receive setting b) p

theorem receiveComing (setting : Setting) (front : Bytes) (b : UInt8) (p : Peer) :
    receive setting b {p with coming := front ++ p.coming} =
      {receive setting b p with coming := front ++ (receive setting b p).coming} := by
  unfold receive
  dsimp only
  cases Line.requestOf (p.incoming ++ [b]) with
  | none => rfl
  | some request => simp only [List.append_assoc]

theorem receiveAllComing (setting : Setting) (front raw : Bytes) (p : Peer) :
    receiveAll setting raw {p with coming := front ++ p.coming} =
      {receiveAll setting raw p with coming := front ++ (receiveAll setting raw p).coming} := by
  induction raw generalizing p with
  | nil => rfl
  | cons b rest ih =>
    have first := receiveComing setting front b p
    simp only [receiveAll,List.foldl_cons] at ih ⊢
    rw [first,ih]

theorem receiveAllLast (setting : Setting) (raw : Bytes) (b : UInt8) (p : Peer) :
    receiveAll setting (raw ++ [b]) p = receive setting b (receiveAll setting raw p) := by
  simp [receiveAll]

end Peer

/- A connection on which bytes take their time: `outbound` is on its way to the peer, and what the
peer has sent so far is still on its way back. -/
structure Wire where
  outbound : Bytes
  peer : Peer
  deriving DecidableEq

namespace Wire

def settled (setting : Setting) (c : Wire) : Peer := Peer.receiveAll setting c.outbound c.peer

def send (raw : Bytes) (c : Wire) : Wire := {c with outbound := c.outbound ++ raw}

def forward (setting : Setting) (c : Wire) : Wire :=
  match c.outbound with
  | [] => c
  | b :: rest => ⟨rest,c.peer.receive setting b⟩

def fetch (c : Wire) : Option (UInt8 × Wire) :=
  match c.peer.coming with
  | [] => none
  | b :: rest => some (b,{c with peer := {c.peer with coming := rest}})

theorem forwardSettled (setting : Setting) (c : Wire) : (c.forward setting).settled setting = c.settled setting := by
  obtain ⟨outbound,peer⟩ := c
  cases outbound with
  | nil => rfl
  | cons b rest => rfl

theorem fetchSettled (setting : Setting) {c d : Wire} {b : UInt8} (fetched : c.fetch = some (b,d)) :
    c.settled setting = {d.settled setting with coming := [b] ++ (d.settled setting).coming} := by
  unfold fetch at fetched
  cases coming : c.peer.coming with
  | nil =>
    rw [coming] at fetched
    cases fetched
  | cons first rest =>
    rw [coming] at fetched
    cases fetched
    have front := Peer.receiveAllComing setting [b] c.outbound {c.peer with coming := rest}
    unfold settled
    rw [← front,List.singleton_append,← coming]

theorem sendSettled (setting : Setting) (b : UInt8) (c : Wire) :
    (c.send [b]).settled setting = (c.settled setting).receive setting b := Peer.receiveAllLast setting c.outbound b c.peer

end Wire

/- What a socket is connected to: what can happen there by itself, and the end that is at hand. -/
structure Channel (χ μ : Type) where
  happen : μ → χ → χ
  fetch : χ → Option (UInt8 × χ)
  send : Bytes → χ → χ

structure Medium (χ : Type) where
  settled : χ → Peer
  sound : χ → Prop
  spoiled : χ → Prop

structure Channel.Conveys {χ μ : Type} (c : Channel χ μ) (m : Medium χ) (setting : Setting) : Prop where
  happenSpoils : ∀ {e s}, m.spoiled s → m.spoiled (c.happen e s)
  fetchSpoils : ∀ {s t b}, c.fetch s = some (b,t) → m.spoiled s → m.spoiled t
  sendSpoils : ∀ {raw s}, m.spoiled s → m.spoiled (c.send raw s)
  happen : ∀ {e s}, m.sound s → ¬ m.spoiled (c.happen e s) →
    m.sound (c.happen e s) ∧ m.settled (c.happen e s) = m.settled s
  fetch : ∀ {s t b}, m.sound s → c.fetch s = some (b,t) → ¬ m.spoiled t →
    m.sound t ∧ m.settled s = {m.settled t with coming := [b] ++ (m.settled t).coming}
  send : ∀ {b s}, m.sound s → ¬ m.spoiled s →
    m.sound (c.send [b] s) ∧ m.settled (c.send [b] s) = (m.settled s).receive setting b

namespace Wire

def channel (setting : Setting) : Channel Wire Unit := ⟨fun _ => forward setting,fetch,send⟩

def medium (setting : Setting) : Medium Wire := ⟨settled setting,fun _ => True,fun _ => False⟩

instance (setting : Setting) : DecidablePred (medium setting).spoiled := fun _ => inferInstanceAs (Decidable False)

theorem conveys (setting : Setting) : (channel setting).Conveys (medium setting) setting where
  happenSpoils := id
  fetchSpoils _ := id
  sendSpoils := id
  happen _ _ := ⟨trivial,forwardSettled setting _⟩
  fetch _ fetched _ := ⟨trivial,fetchSettled setting fetched⟩
  send _ _ := ⟨trivial,sendSettled setting _ _⟩

end Wire

structure View where
  unread : Bytes
  peer : Peer
  written : Bytes
  deriving DecidableEq

namespace View

structure Waits (v u : View) : Prop where
  arrived : ∃ more, u.unread = v.unread ++ more ∧ v.peer.coming = more ++ u.peer.coming
  incoming : u.peer.incoming = v.peer.incoming
  packets : u.peer.packets = v.peer.packets
  written : u.written = v.written

theorem waitsNothing (v : View) : Waits v v := ⟨⟨[],by simp⟩,rfl,rfl,rfl⟩

theorem Waits.later {v u t : View} (first : Waits v u) (second : Waits u t) : Waits v t where
  arrived := by
    obtain ⟨raw,unread,coming⟩ := first.arrived
    obtain ⟨more,unread',coming'⟩ := second.arrived
    exact ⟨raw ++ more,by rw [unread',unread,List.append_assoc],by rw [coming,coming',List.append_assoc]⟩
  incoming := second.incoming.trans first.incoming
  packets := second.packets.trans first.packets
  written := second.written.trans first.written

theorem waitsFetched {p q : Peer} {b : UInt8} (fetched : p = {q with coming := [b] ++ q.coming}) (unread written : Bytes) :
    Waits ⟨unread,p,written⟩ ⟨unread ++ [b],q,written⟩ := by
  subst fetched
  exact ⟨⟨[b],rfl,rfl⟩,rfl,rfl,rfl⟩

def send (setting : Setting) (b : UInt8) (v : View) : View :=
  {v with peer := v.peer.receive setting b, written := v.written ++ [b]}

/- The line that this device is: what it says has arrived may be less than the device holds. -/
structure Feeds (v : View) (w : Line) : Prop where
  arrived : w.rx <+: v.unread
  stream : w.stream = v.unread ++ v.peer.coming
  incoming : w.incoming = v.peer.incoming
  packets : w.packets = v.peer.packets
  written : w.written = v.written

theorem feedsWaits {v u : View} {w : Line} (feeds : Feeds v w) (waits : Waits v u) : Feeds u w := by
  obtain ⟨more,unread,coming⟩ := waits.arrived
  refine ⟨?_,?_,?_,?_,?_⟩
  · exact unread ▸ feeds.arrived.trans (List.prefix_append _ _)
  · rw [feeds.stream,unread,coming,List.append_assoc]
  · exact feeds.incoming.trans waits.incoming.symm
  · exact feeds.packets.trans waits.packets.symm
  · exact feeds.written.trans waits.written.symm

def delivered (v : View) (late : Bool) (w : Line) : Line := {w with rx := v.unread, flight := v.peer.coming, late := late}

theorem feedsDelivered {v : View} {w : Line} (late : Bool) (feeds : Feeds v w) : Feeds v (v.delivered late w) :=
  ⟨List.prefix_refl _,rfl,feeds.incoming,feeds.packets,feeds.written⟩

def poll (v : View) (late : Bool) (w : Line) : Poll := ⟨v.unread.length - w.rx.length,late⟩

theorem pollDelivers {v : View} {w : Line} (late : Bool) (polls : List Poll) (feeds : Feeds v w) :
    Line.poll {w with polls := v.poll late w :: polls} = {v.delivered late w with polls := polls} := by
  obtain ⟨more,unread⟩ := feeds.arrived
  have flight : w.flight = more ++ v.peer.coming := by
    have stream := feeds.stream
    rw [← unread,List.append_assoc] at stream
    exact List.append_cancel_left stream
  have count : v.unread.length - w.rx.length = more.length := by
    rw [← unread,List.length_append,Nat.add_sub_cancel_left]
  simp [Line.poll,poll,delivered,count,flight,unread]

theorem feedsTaken {v : View} {w : Line} {raw rest : Bytes} (feeds : Feeds v w) (unread : v.unread = raw ++ rest)
    (enough : raw.length ≤ w.rx.length) :
    w.rx.take raw.length = raw ∧ Feeds {v with unread := rest} {w with rx := w.rx.drop raw.length} := by
  have front : raw <+: w.rx :=
    List.prefix_of_prefix_length_le (unread ▸ List.prefix_append raw rest) feeds.arrived enough
  obtain ⟨left,rx⟩ := front
  have stream := feeds.stream
  have arrived := feeds.arrived
  rw [Line.stream,← rx,unread,List.append_assoc,List.append_assoc] at stream
  rw [← rx,unread] at arrived
  refine ⟨by rw [← rx,List.take_left],?_,?_,feeds.incoming,feeds.packets,feeds.written⟩
  · rw [← rx,List.drop_left]
    exact (List.prefix_append_right_inj raw).mp arrived
  · rw [Line.stream,← rx,List.drop_left]
    exact List.append_cancel_left stream

theorem receiveBytePolls (setting : Setting) (w : Line) (polls : List Poll) (b : UInt8) :
    Line.receiveByte setting {w with polls := polls} b = {Line.receiveByte setting w b with polls := polls} := by
  unfold Line.receiveByte
  dsimp only
  cases Line.requestOf (w.incoming ++ [b]) with
  | none => rfl
  | some request => rfl

theorem feedsSend {v : View} {w : Line} (setting : Setting) (b : UInt8) (feeds : Feeds v w) :
    Feeds (v.send setting b) (Line.receiveByte setting w b) := by
  obtain ⟨arrived,stream,incoming,packets,written⟩ := feeds
  unfold View.send Peer.receive Line.receiveByte
  rw [incoming]
  dsimp only
  cases Line.requestOf (v.peer.incoming ++ [b]) with
  | none => exact ⟨arrived,stream,rfl,packets,by rw [← written]⟩
  | some request =>
    simp only [Line.stream,Line.packets] at stream packets ⊢
    refine ⟨arrived,?_,rfl,?_,by rw [← written]⟩
    · simp only [Line.stream,packets,← List.append_assoc,stream]
    · simp only [Line.packets,List.map_append,packets,List.map_cons,List.map_nil]

end View

structure Link (σ : Type) where
  view : σ → View
  sound : σ → Prop
  spoiled : σ → Prop

abbrev Timetable (clock : Bool → Prop) := {polls : List Poll // ∀ p ∈ polls, clock p.late}

def Link.line {σ : Type} (l : Link σ) (clock : Bool → Prop) : Correspondence σ Line (Timetable clock) where
  related s w := l.sound s ∧ (l.view s).Feeds w
  under polls w := {w with polls := polls.1}
  spoiled := l.spoiled

/- What each call of a device may do. A read is only asked for what the device has reported before. -/
structure Host.Transmits {σ : Type} (h : Host σ) (l : Link σ) (setting : Setting) (clock : Bool → Prop) : Prop where
  sizeSpoils : h.device.getSizeInRxBuffer.Keeps (Retains l.spoiled)
  expiredSpoils : ∀ waitUsec, (h.expired waitUsec).Keeps (Retains l.spoiled)
  readSpoils : ∀ size, (h.device.read size).Keeps (Retains l.spoiled)
  writeSpoils : ∀ raw, (h.device.write raw).Keeps (Retains l.spoiled)
  size : ∀ {s v t}, l.sound s → h.device.getSizeInRxBuffer.Evaluates s v t → ¬ l.spoiled t →
    l.sound t ∧ (l.view s).Waits (l.view t) ∧ v = .ok ((l.view t).unread.length : Int)
  expired : ∀ {waitUsec s v t}, l.sound s → (h.expired waitUsec).Evaluates s v t → ¬ l.spoiled t →
    l.sound t ∧ (l.view s).Waits (l.view t) ∧ ∃ late, clock late ∧ v = .ok late
  read : ∀ {size s v t}, l.sound s → (h.device.read size).Evaluates s v t → ¬ l.spoiled t →
    size.toNat ≤ (l.view s).unread.length → l.sound t ∧ ∃ u raw count, (l.view s).Waits u ∧ raw.length = size.toNat ∧
      u = {l.view t with unread := raw ++ (l.view t).unread} ∧ v = .ok (raw,count)
  write : ∀ {b s v t}, l.sound s → (h.device.write [b]).Evaluates s v t → ¬ l.spoiled t →
    l.sound t ∧ ∃ u count, (l.view s).Waits u ∧ l.view t = u.send setting b ∧ v = .ok count
  sender : ∃ info, h.device.getSenderInfo = pure info
  scratch : ∀ n, h.scratch n = pure ((List.range n).map setting.scratch)
  outside : ∀ offset, h.outside offset = match setting.outside offset with
    | some b => pure b
    | none => .throw (.outsidePayload offset)

section Transmits
variable {σ : Type} {h : Host σ} {l : Link σ} {setting : Setting} {clock : Bool → Prop}

theorem pollPassExplained (transmits : h.Transmits l setting clock) (early : ∃ late, clock late) (size : UInt8)
    (waitUsec : UInt32) : Simulates (l.line clock) (Transport.pollPass h size waitUsec)
      (Transport.pollPass (Line.host setting) size waitUsec) where
  spoils := by
    unfold Transport.pollPass
    refine Program.keepsBind transmits.sizeSpoils fun available => ?_
    split
    · exact Program.keepsPure _
    · refine Program.keepsBind (transmits.expiredSpoils waitUsec) fun expired => ?_
      split
      · exact Program.keepsPure _
      · exact Program.keepsPure _
  runs {s w v t} related ran clean := by
    obtain ⟨sound,feeds⟩ := related
    have polled {u : View} (late : Bool) (ok : clock late) (feeds : u.Feeds w) {x : Unit ⊕ Bool}
        (verdict : x = Transport.pollVerdict size waitUsec (u.delivered late w)) : ∀ later : Timetable clock,
        ∃ now : Timetable clock, (Transport.pollPass (Line.host setting) size waitUsec).Returns {w with polls := now.1} x
          {u.delivered late w with polls := later.1} := by
      intro later
      refine ⟨⟨u.poll late w :: later.1,List.forall_mem_cons.mpr ⟨ok,later.2⟩⟩,?_⟩
      exact Transport.pollPassReturns.mpr ⟨by rw [View.pollDelivers late later.1 feeds]; exact verdict,
        (View.pollDelivers late later.1 feeds).symm⟩
    unfold Transport.pollPass at ran
    rcases Program.evaluatesBind.mp ran with ⟨e,raised,rfl⟩ | ⟨available,u,asked,rest⟩
    · obtain ⟨_,_,never⟩ := transmits.size sound raised clean
      cases never
    · split at rest
      · rename_i enough
        obtain ⟨rfl,rfl⟩ := Program.evaluatesLift.mp rest
        obtain ⟨sound,waits,same⟩ := transmits.size sound asked clean
        cases same
        obtain ⟨late,ok⟩ := early
        have fed := View.feedsWaits feeds waits
        refine ⟨_,⟨sound,View.feedsDelivered late fed⟩,polled late ok fed ?_⟩
        unfold Transport.pollVerdict View.delivered
        rw [if_pos (Int.ofNat_le.mp enough)]
      · rename_i short
        have unspoiled : ¬ l.spoiled u := by
          refine fun bad => clean ?_
          rcases Program.evaluatesBind.mp rest with ⟨e,raised,_⟩ | ⟨expired,x,tested,last⟩
          · exact transmits.expiredSpoils waitUsec _ _ _ raised bad
          · have ended : t = x := by
              split at last <;> exact (Program.evaluatesLift.mp last).2
            exact ended ▸ transmits.expiredSpoils waitUsec _ _ _ tested bad
        obtain ⟨sound,waits,same⟩ := transmits.size sound asked unspoiled
        cases same
        have fed := View.feedsWaits feeds waits
        rcases Program.evaluatesBind.mp rest with ⟨e,raised,rfl⟩ | ⟨expired,x,tested,last⟩
        · obtain ⟨_,_,_,_,never⟩ := transmits.expired sound raised clean
          cases never
        · have ended : t = x := by
            split at last <;> exact (Program.evaluatesLift.mp last).2
          subst ended
          obtain ⟨sound,waits,late,ok,same⟩ := transmits.expired sound tested clean
          cases same
          refine ⟨_,⟨sound,View.feedsWaits (View.feedsDelivered expired fed) waits⟩,?_⟩
          have verdict : Transport.pollVerdict size waitUsec ((l.view u).delivered expired w) =
              if expired = true ∧ waitUsec ≠ Transport.uint32Max then .inr false else .inl () := by
            unfold Transport.pollVerdict View.delivered
            rw [if_neg fun enough => short (Int.ofNat_le.mpr enough)]
          split at last
          · rename_i passed
            obtain ⟨rfl,_⟩ := Program.evaluatesLift.mp last
            exact polled expired ok fed (by rw [verdict,if_pos passed])
          · rename_i going
            obtain ⟨rfl,_⟩ := Program.evaluatesLift.mp last
            exact polled expired ok fed (by rw [verdict,if_neg going])

theorem readExplained (transmits : h.Transmits l setting clock) (early : ∃ late, clock late) (buffer : Bytes) (size : UInt8)
    (waitUsec : UInt32) : Simulates (l.line clock) (Transport.read h buffer size waitUsec)
      (Transport.read (Line.host setting) buffer size waitUsec) := by
  unfold Transport.read
  split
  · exact simulatesPure _
  have awaited := (Program.simulatesCongruence Own).loop (fun _ => pollPassExplained transmits early size waitUsec) ()
  refine ⟨Program.keepsBind awaited.spoils fun ready => ?_,fun {s w v t} related ran clean => ?_⟩
  · split
    · exact Program.keepsBind (transmits.readSpoils size) fun _ => Program.keepsPure _
    · exact Program.keepsPure _
  rcases Program.evaluatesBind.mp ran with ⟨e,raised,rfl⟩ | ⟨ready,u,waited,rest⟩
  · exact Program.matchesRaised (awaited.runs related raised clean)
  split at rest
  · rename_i yes
    have unspoiled : ¬ l.spoiled u := by
      refine fun bad => clean ?_
      rcases Program.evaluatesBind.mp rest with ⟨e,raised,_⟩ | ⟨delivered,x,taken,last⟩
      · exact transmits.readSpoils size _ _ _ raised bad
      · obtain ⟨_,rfl⟩ := Program.evaluatesLift.mp last
        exact transmits.readSpoils size _ _ _ taken bad
    obtain ⟨w',⟨sound,feeds⟩,schedules⟩ := awaited.runs related waited unspoiled
    -- What the polls have reported is there, on the line and in the device.
    have enough : size.toNat ≤ w'.rx.length := by
      obtain ⟨now,polled⟩ := schedules ⟨[],by simp⟩
      exact (Transport.awaitSource polled).2.1 yes
    have held : size.toNat ≤ (l.view u).unread.length := Nat.le_trans enough feeds.arrived.length_le
    refine matchesAfter schedules ?_
    rw [if_pos yes]
    rcases Program.evaluatesBind.mp rest with ⟨e,raised,rfl⟩ | ⟨delivered,x,taken,last⟩
    · obtain ⟨_,_,_,_,_,_,_,never⟩ := transmits.read sound raised clean held
      cases never
    · obtain ⟨rfl,rfl⟩ := Program.evaluatesLift.mp last
      obtain ⟨sound,between,raw,count,waits,length,front,same⟩ := transmits.read sound taken clean held
      cases same
      have unread : between.unread = raw ++ (l.view t).unread := by rw [front]
      obtain ⟨first,fed⟩ := View.feedsTaken (View.feedsWaits feeds waits) unread (length ▸ enough)
      rw [front,length] at fed
      refine ⟨_,⟨sound,fed⟩,fun later => ⟨later,Program.evaluatesBind.mpr (.inr ⟨_,_,Program.returnsStep.mpr rfl,?_⟩)⟩⟩
      refine Program.evaluatesLift.mpr ⟨?_,rfl⟩
      change Except.ok (Result.ok,Transport.store buffer raw) = .ok (.ok,Transport.store buffer (w'.rx.take size.toNat))
      rw [← length,first]
  · rename_i no
    obtain ⟨rfl,rfl⟩ := Program.evaluatesLift.mp rest
    obtain ⟨w',ended,schedules⟩ := awaited.runs related waited clean
    refine matchesAfter schedules ?_
    rw [if_neg no]
    exact Program.matchesLift ended

theorem writeExplained (transmits : h.Transmits l setting clock) (b : UInt8) : Simulates (l.line clock)
    (h.device.write [b]).dropped ((Line.host setting).device.write [b]).dropped where
  spoils := Program.keepsBind (transmits.writeSpoils [b]) fun _ => Program.keepsPure _
  runs {s w v t} related ran clean := by
    obtain ⟨sound,feeds⟩ := related
    rcases Program.evaluatesBind.mp ran with ⟨e,raised,rfl⟩ | ⟨count,u,written,last⟩
    · obtain ⟨_,_,_,_,_,never⟩ := transmits.write sound raised clean
      cases never
    · obtain ⟨rfl,rfl⟩ := Program.evaluatesLift.mp last
      obtain ⟨sound,between,_,waits,sent,_⟩ := transmits.write sound written clean
      refine ⟨Line.receiveByte setting w b,⟨sound,?_⟩,fun later => ⟨later,?_⟩⟩
      · rw [sent]
        exact View.feedsSend setting b (View.feedsWaits feeds waits)
      · refine Program.evaluatesBind.mpr (.inr ⟨_,_,Program.returnsStep.mpr rfl,Program.evaluatesLift.mpr ⟨rfl,?_⟩⟩)
        exact (View.receiveBytePolls setting w later.1 b).symm

theorem transmitsRealises (transmits : h.Transmits l setting clock) (early : ∃ late, clock late) :
    h.Realises (fun _ => Simulates (l.line clock)) (fun _ => True) (Line.host setting) where
  read := readExplained transmits early
  send packet _ _ := Transport.sendRealised (Program.simulatesCongruence Own) (writeExplained transmits) packet
  getSenderInfo := by
    obtain ⟨info,same⟩ := transmits.sender
    rw [same]
    exact Program.simulatesIgnored info _
  scratch n _ next next' rest := by
    rw [transmits.scratch n]
    refine Program.simulatesLifted fun raw same => rest raw ?_
    rw [← Except.ok.inj same,List.length_map,List.length_range]
  outside offset := by
    rw [transmits.outside offset]
    simp only [Line.host]
    cases setting.outside offset with
    | some b => exact simulatesPure b
    | none => exact Program.simulatesLift _

end Transmits
end RTno2Proxy
