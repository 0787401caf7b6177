import RTno2Proxy.Transport

/-! The transport's sending side on a line: `send` hands over exactly the frame of
its packet, and a board that was waiting for a request receives it as that packet. -/
namespace RTno2Proxy
open Imperative
open EnumClass (toByte ofByte)

namespace Packet

theorem frameSmall {p : Packet} (small : p.data.length ≤ 252) :
    p.frame = Transport.startMarker ++ (p.serialize ++ [p.getSum]) := by
  rw [frame,summedAll small,List.append_assoc]

theorem frameLength {p : Packet} (small : p.data.length ≤ 252) : p.frame.length = 6 + p.data.length := by
  simp only [frameSmall small,List.length_append,serializeLength,Transport.startMarker,List.length_cons,
    List.length_nil]
  omega

/- A packet too long for its length byte is written as a frame shorter than any other. -/
theorem frameInjective {p q : Packet} (small : q.data.length ≤ 252) (same : p.frame = q.frame) : p = q := by
  have long : p.frame.length = 6 + q.data.length := by rw [same,frameLength small]
  by_cases short : p.data.length ≤ 252
  · rw [frameSmall short,frameSmall small] at same
    exact (serializeInjective (List.append_cancel_left same)).1
  · have fits := p.fits
    have count := packetLength p
    simp only [frame,Transport.startMarker,List.length_append,List.length_take,serializeLength,List.length_cons,
      List.length_nil] at long
    omega

end Packet

namespace Line
variable {setting : Setting}

theorem receiveByteWritten (w : Line) (b : UInt8) : (w.receiveByte setting b).written = w.written ++ [b] := by
  unfold receiveByte
  dsimp only
  split <;> rfl

theorem foldWritten (w : Line) (raw : Bytes) :
    (raw.foldl (receiveByte setting) w).written = w.written ++ raw := by
  induction raw generalizing w with
  | nil => simp
  | cons b rest ih => simp [ih,receiveByteWritten]

theorem foldIncomplete {w : Line} {raw : Bytes}
    (incomplete : ∀ part, part <+: raw → part ≠ [] → requestOf (w.incoming ++ part) = none) :
    raw.foldl (receiveByte setting) w =
      {w with written := w.written ++ raw, incoming := w.incoming ++ raw} := by
  induction raw generalizing w with
  | nil => simp
  | cons b rest ih =>
    have first : w.receiveByte setting b =
        {w with written := w.written ++ [b], incoming := w.incoming ++ [b]} := by
      have alone := incomplete [b] (by simp) (by simp)
      simp only [receiveByte,alone]
    rw [List.foldl_cons,first,ih]
    · simp
    · intro part before _
      have whole := incomplete (b :: part) (List.cons_prefix_cons.mpr ⟨rfl,before⟩) (by simp)
      simpa using whole

theorem requestOfFrame {p : Packet} (small : p.data.length ≤ 252) : requestOf p.frame = some p := by
  rw [Packet.frameSmall small]
  simp only [Packet.serialize,Transport.startMarker,List.cons_append,List.nil_append,requestOf]
  rw [if_pos (by simp [Packet.dataLength])]
  simp only [Packet.initialise,Packet.dataLength,EnumClass.ofByteToByte,List.take_left]

theorem requestOfPart {p : Packet} (small : p.data.length ≤ 252) {part : Bytes} (before : part <+: p.frame)
    (strict : part.length < p.frame.length) : requestOf part = none := by
  unfold requestOf
  split
  · rename_i a b command result size rest
    rw [Packet.frameLength small] at strict
    rw [Packet.frameSmall small] at before
    simp only [Packet.serialize,Transport.startMarker,List.cons_append,List.nil_append,
      List.cons_prefix_cons] at before
    have bound := p.dataLength
    rw [← before.2.2.2.2.1] at bound
    simp only [List.length_cons] at strict
    rw [if_neg (by omega)]
  · rfl

def accept (setting : Setting) (w : Line) (p : Packet) : Line :=
  {w with written := w.written ++ p.frame, requests := w.requests ++ [⟨p,w.stream⟩],
          flight := w.flight ++ setting.reply (w.packets ++ [p])}

theorem foldFrame {w : Line} {p : Packet} (small : p.data.length ≤ 252) (waiting : w.incoming = []) :
    p.frame.foldl (receiveByte setting) w = w.accept setting p := by
  have split : p.frame = (Transport.startMarker ++ p.serialize) ++ [p.getSum] := by
    rw [Packet.frameSmall small,List.append_assoc]
  have unfinished : ∀ part, part <+: Transport.startMarker ++ p.serialize → part ≠ [] →
      requestOf (w.incoming ++ part) = none := by
    intro part before _
    have longer : part.length < p.frame.length := by
      have short := before.length_le
      rw [split,List.length_append,List.length_singleton]
      omega
    rw [waiting,List.nil_append]
    exact requestOfPart small (split ▸ before.trans (List.prefix_append _ _)) longer
  have complete := requestOfFrame small
  rw [split] at complete
  rw [split,List.foldl_append,foldIncomplete unfinished,List.foldl_cons,List.foldl_nil]
  simp only [receiveByte,waiting,List.nil_append,complete,accept,stream,packets]
  simp [split]

theorem acceptStream (setting : Setting) (w : Line) (p : Packet) :
    (w.accept setting p).stream = w.stream ++ setting.reply (w.packets ++ [p]) := by
  simp [accept,stream]

theorem acceptTimely {w : Line} {p : Packet} (timely : w.Timely) : (w.accept setting p).Timely := timely

end Line

namespace Transport
variable {setting : Setting}

theorem writeEachReturns {raw : Bytes} {w t : Line} {x : Unit} :
    (writeEach (Line.host setting) raw).Returns w x t ↔ t = raw.foldl (Line.receiveByte setting) w := by
  induction raw generalizing w with
  | nil => exact Program.returnsPure.trans (by simp)
  | cons b rest ih =>
    refine Program.returnsBind.trans ?_
    simp only [ih,List.foldl_cons]
    constructor
    · intro h
      obtain ⟨_,u,hu,ht⟩ := h
      have same := Program.returnsStep.mp hu
      simp only [Prod.mk.injEq,List.foldl_cons,List.foldl_nil] at same
      rw [ht,← same.2]
    · intro h
      exact ⟨_,_,Program.returnsStep.mpr rfl,h⟩

theorem writeReturns {buffer : Bytes} {size : UInt8} {w t : Line} {result : Result} :
    (write (Line.host setting) buffer size).Returns w result t ↔
      result = .ok ∧ t = (buffer.take size.toNat).foldl (Line.receiveByte setting) w := by
  refine Program.returnsBind.trans ?_
  simp only [writeEachReturns,Program.returnsPure]
  constructor
  · intro h
    obtain ⟨_,u,hu,ok,ht⟩ := h
    exact ⟨ok,ht.trans hu⟩
  · intro h
    exact ⟨(),_,rfl,h.1,h.2⟩

theorem sendReturns {p : Packet} {w t : Line} {result : Result} :
    (send (Line.host setting) p).Returns w result t ↔
      result = .ok ∧ t = p.frame.foldl (Line.receiveByte setting) w := by
  simp only [send,Program.returnsBind,writeReturns,Program.returnsIte,Program.returnsPure,and_assoc,
    exists_and_left,exists_eq_left,ne_eq,not_true_eq_false,if_false,Packet.frame,List.foldl_append]
  rfl

theorem sendWritten {p : Packet} {w t : Line} {result : Result}
    (h : (send (Line.host setting) p).Returns w result t) :
    result = .ok ∧ t.written = w.written ++ p.frame := by
  obtain ⟨ok,ht⟩ := sendReturns.mp h
  exact ⟨ok,by rw [ht,Line.foldWritten]⟩

theorem sendAccepted {p : Packet} {w t : Line} {result : Result} (small : p.data.length ≤ 252)
    (waiting : w.incoming = []) :
    (send (Line.host setting) p).Returns w result t ↔ result = .ok ∧ t = w.accept setting p := by
  rw [sendReturns,Line.foldFrame small waiting]

theorem sendAccept (setting : Setting) {p : Packet} {w : Line} (small : p.data.length ≤ 252)
    (waiting : w.incoming = []) : (send (Line.host setting) p).Returns w .ok (w.accept setting p) :=
  (sendAccepted small waiting).mpr ⟨rfl,rfl⟩

end Transport
end RTno2Proxy
