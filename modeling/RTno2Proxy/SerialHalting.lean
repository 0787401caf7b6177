import RTno2Proxy.SerialPort
import RTno2Proxy.FrontEnds

/-! Sessions and the console over a serial port that does not hang up come to an end, whatever the system calls say
and whatever the driver drops: a read is only made while something is pending, and takes some of it. -/
namespace RTno2Proxy
namespace SerialPort
open Imperative
variable {setting : Setting} {world : Nat → Moment}

def stock (setting : Setting) (s : Port) : Nat := (s.wire.settled setting).coming.length + s.queue.length

def Plugged (s : Port) : Prop := s.hungUp = false

def Stays (world : Nat → Moment) : Prop := ∀ n, Move.hangsUp ∉ (world n).moves

structure Brought (setting : Setting) (s t : Port) : Prop where
  queue : s.queue ≠ [] → t.queue ≠ []
  stock : stock setting t ≤ stock setting s
  plugged : Plugged s → Plugged t

theorem broughtNothing (s : Port) : Brought setting s s := ⟨id,Nat.le_refl _,id⟩

theorem Brought.later {s t u : Port} (first : Brought setting s t) (second : Brought setting t u) : Brought setting s u :=
  ⟨fun pending => second.queue (first.queue pending),Nat.le_trans second.stock first.stock,
    fun plugged => second.plugged (first.plugged plugged)⟩

theorem moveBrought (s : Port) {m : Move} (stays : m ≠ .hangsUp) : Brought setting s (move setting s m) := by
  have fetched {read : UInt8 × Wire} (fetch : s.wire.fetch = some read) :
      (s.wire.settled setting).coming.length = 1 + (read.2.settled setting).coming.length := by
    rw [Wire.fetchSettled setting fetch,List.length_append]
    rfl
  unfold move
  cases m with
  | board =>
    refine ⟨id,Nat.le_of_eq ?_,id⟩
    unfold stock
    rw [Wire.forwardSettled]
  | received =>
    cases read : s.wire.fetch with
    | none => exact broughtNothing s
    | some taken =>
      refine ⟨fun _ => by simp,?_,id⟩
      have shorter := fetched read
      simp only [stock,List.length_append,List.length_singleton]
      omega
  | dropped =>
    cases read : s.wire.fetch with
    | none => exact broughtNothing s
    | some taken =>
      refine ⟨id,?_,id⟩
      have shorter := fetched read
      simp only [stock]
      omega
  | hangsUp => exact absurd rfl stays

theorem elapseBrought (stays : Stays world) (s : Port) : Brought setting s (elapse setting world s) := by
  have moves (moves : List Move) (stays : .hangsUp ∉ moves) (s : Port) : Brought setting s (moves.foldl (move setting) s) := by
    induction moves generalizing s with
    | nil => exact broughtNothing s
    | cons m moves ih =>
      have first : m ≠ .hangsUp := fun same => stays (same ▸ List.mem_cons_self)
      exact (moveBrought s first).later (ih (fun member => stays (List.mem_cons_of_mem m member)) _)
  obtain ⟨queue,stock,plugged⟩ := moves (world s.moment).moves (stays s.moment) s
  exact ⟨queue,stock,plugged⟩

structure Asked (setting : Setting) (s t : Port) (available : Int) : Prop where
  brought : Brought setting s t
  on : s.moment < t.moment
  soon : t.moment ≤ s.moment + 2
  pending : 0 < available → t.queue ≠ []

theorem sizeTotal (stays : Stays world) {s : Port} (plugged : Plugged s) :
    (getSizeInRxBuffer setting world).Total s (fun available t => Asked setting s t available) fun _ _ => True := by
  have first : Brought setting s (elapse setting world s) := elapseBrought stays s
  have connected := first.plugged plugged
  unfold getSizeInRxBuffer
  by_cases fails : (world s.moment).fails = true
  · refine Program.totalAfter (Program.returnsStep.mpr (if_pos fails)) ?_
    rw [if_neg (by decide),if_pos rfl]
    exact .inr ⟨_,_,Program.evaluatesLift.mpr ⟨rfl,rfl⟩,trivial⟩
  · refine Program.totalAfter (Program.returnsStep.mpr (if_neg fails)) ?_
    by_cases empty : (elapse setting world s).queue = []
    · have idle : (if (elapse setting world s).queue = [] ∧ (elapse setting world s).hungUp = false then (0 : Int) else 1) = 0 :=
        if_pos ⟨empty,connected⟩
      rw [idle,if_pos rfl]
      exact Program.totalPure ⟨first,Nat.lt_succ_self s.moment,Nat.le_succ (s.moment + 1),fun never => absurd never (Int.lt_irrefl 0)⟩
    · have ready : (if (elapse setting world s).queue = [] ∧ (elapse setting world s).hungUp = false then (0 : Int) else 1) = 1 :=
        if_neg fun both => empty both.1
      rw [ready,if_neg (by decide),if_neg (by decide)]
      have next : Brought setting (elapse setting world s) (elapse setting world (elapse setting world s)) :=
        elapseBrought stays _
      have second := first.later next
      have pending := next.queue empty
      by_cases garbled : (world (s.moment + 1)).fails = true
      · refine Program.totalReturns (Program.returnsStep.mpr (if_pos (.inl garbled))) ?_
        exact ⟨⟨second.queue,second.stock,second.plugged⟩,show s.moment < s.moment + 2 by omega,Nat.le_refl (s.moment + 2),fun _ => pending⟩
      · have reads : ¬ ((world (s.moment + 1)).fails = true ∨
            (elapse setting world (elapse setting world s)).hungUp = true) := by
          have still : (elapse setting world (elapse setting world s)).hungUp = false := second.plugged plugged
          simp [garbled,still]
        refine Program.totalReturns (Program.returnsStep.mpr (if_neg reads)) ?_
        exact ⟨second,show s.moment < s.moment + 2 by omega,Nat.le_refl (s.moment + 2),fun _ => pending⟩

theorem readTotal (stays : Stays world) {s : Port} {size : UInt8} (positive : size ≠ 0) (plugged : Plugged s)
    (pending : s.queue ≠ []) :
    (read setting world size).Total s (fun _ t => Plugged t ∧ stock setting t < stock setting s) fun _ _ => True := by
  have brought : Brought setting s (elapse setting world s) := elapseBrought stays s
  have connected : (elapse setting world s).hungUp = false := brought.plugged plugged
  have filled := List.length_pos_iff.mpr (brought.queue pending)
  have asked : 0 < size.toNat := Nat.pos_of_ne_zero fun zero => positive (UInt8.toNat_inj.mp zero)
  unfold read
  by_cases fails : (world s.moment).fails = true
  · refine Program.totalAfter (Program.returnsStep.mpr (if_pos fails)) ?_
    rw [if_pos (by decide)]
    exact .inr ⟨_,_,Program.evaluatesLift.mpr ⟨rfl,rfl⟩,trivial⟩
  · refine Program.totalAfter (Program.returnsStep.mpr ((if_neg fails).trans (if_neg (by simp [connected])))) ?_
    rw [if_neg (Int.not_lt.mpr (Int.natCast_nonneg _))]
    refine Program.totalPure ⟨connected,Nat.lt_of_lt_of_le ?_ brought.stock⟩
    simp only [stock,List.length_drop]
    omega

theorem transportReadDrains (stays : Stays world) (overdue : Overdue fun k => (world k).late) (buffer : Bytes) (size : UInt8)
    {waitUsec : UInt32} (finite : waitUsec ≠ Transport.uint32Max) :
    (Transport.read (host setting world) buffer size waitUsec).Drains Plugged (stock setting)
      fun out => out.1 = .ok ∧ size ≠ 0 := by
  refine Transport.readDrains Port.moment (fun t => t.queue ≠ []) overdue finite
    (fun positive s plugged => ?_) (fun s plugged => ?_) (fun positive s plugged pending => readTotal stays positive plugged pending)
    buffer
  · have asked : 0 < size.toNat := Nat.pos_of_ne_zero fun zero => positive (UInt8.toNat_inj.mp zero)
    refine Program.totalWeaken (sizeTotal stays plugged) (fun available t ⟨brought,on,soon,pending⟩ => ?_) fun _ _ _ => trivial
    exact ⟨⟨brought.plugged plugged,brought.stock⟩,⟨on,soon⟩,fun reached => pending (by omega)⟩
  · have brought : Brought setting s (elapse setting world s) := elapseBrought stays s
    exact Program.totalReturns (Program.returnsStep.mpr rfl) ⟨⟨brought.plugged plugged,brought.stock⟩,rfl,rfl⟩

def plugged : Commands.Ports Port where
  etherTcp _ _ := pure false
  serial _ _ := .step fun s => (.ok true,{opened with moment := s.moment})
  destroy := pure ()

end SerialPort
end RTno2Proxy
