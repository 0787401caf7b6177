import RTno2Proxy.Program
import RTno2Proxy.Packet

/-! What the proxy runs on: the abstract class `SerialDevice`, the wall clock and
the storage that the code reads without having written it. `Line` is the device
that loses and reorders nothing; when its bytes arrive is left to a schedule. -/
namespace RTno2Proxy
open Imperative
open EnumClass (ofByte)

/- The ends of a run that are not a return: exceptions, `std::terminate`, `SIGPIPE`. The last two stand
where the C++ behaviour is undefined: a checked run stops there. -/
inductive Fault where
  | badOptionalAccess
  | deviceError
  | terminated
  | killed
  | outsidePayload (offset : Int)
  | outsideBuffer
  deriving DecidableEq

abbrev Act (σ α : Type) := Program Fault σ α

/- include/hal/SerialDevice.h. A pointer to `size` bytes is the list of these
bytes; `read` yields the bytes it stored at `dst` beside its `RETVAL`. -/
structure SerialDevice (σ : Type) where
  getSizeInRxBuffer : Act σ Int
  write : Bytes → Act σ Int
  read : UInt8 → Act σ (Bytes × Int)
  getSenderInfo : Act σ Bytes

/- `expired waitUsec` is the test `duration * 1000000 > wait_usec` of
`transport_t::read`. `scratch n` is what an uninitialised local array of `n` bytes
holds, `outside i` what lies at offset `i` outside a packet's data. -/
structure Host (σ : Type) where
  device : SerialDevice σ
  expired : UInt32 → Act σ Bool
  scratch : Nat → Act σ Bytes
  outside : Int → Act σ UInt8

/- One pass of the polling loop as the outside world decides it: how many of the
bytes on their way have arrived by now, and what the deadline test would say. -/
structure Poll where
  deliver : Nat
  late : Bool
  deriving DecidableEq

structure Request where
  packet : Packet
  outstanding : Bytes
  deriving DecidableEq

structure Line where
  rx : Bytes
  flight : Bytes
  polls : List Poll
  late : Bool
  written : Bytes
  incoming : Bytes
  requests : List Request
  deriving DecidableEq

/- The fixed part of a setting: what the board emits for the last of the requests
it has received so far, and the contents of the memory nobody wrote. -/
structure Setting where
  reply : List Packet → Bytes
  scratch : Nat → UInt8
  outside : Int → Option UInt8

def Setting.silent : Setting := ⟨fun _ => [],fun _ => 0,fun _ => none⟩

namespace Line

def idle : Line := ⟨[],[],[],false,[],[],[]⟩

def stream (w : Line) : Bytes := w.rx ++ w.flight

def packets (w : Line) : List Packet := w.requests.map Request.packet

/- When the schedule is used up, what is still on its way arrives and every deadline passes. -/
def poll (w : Line) : Line :=
  match w.polls with
  | [] => {w with rx := w.rx ++ w.flight, flight := [], late := true}
  | p :: rest => {w with rx := w.rx ++ w.flight.take p.deliver, flight := w.flight.drop p.deliver,
                         polls := rest, late := p.late}

def requestOf : Bytes → Option Packet
  | _ :: _ :: command :: result :: size :: rest =>
      if rest.length = size.toNat + 1 then
        some (Packet.initialise (ofByte command) (ofByte result) rest size)
      else none
  | _ => none

def receiveByte (setting : Setting) (w : Line) (b : UInt8) : Line :=
  let incoming := w.incoming ++ [b]
  let w := {w with written := w.written ++ [b]}
  match requestOf incoming with
  | none => {w with incoming := incoming}
  | some p => {w with incoming := [], requests := w.requests ++ [⟨p,w.stream⟩],
                      flight := w.flight ++ setting.reply (w.packets ++ [p])}

def device (setting : Setting) : SerialDevice Line where
  getSizeInRxBuffer := .step fun w => (.ok w.poll.rx.length,w.poll)
  write raw := .step fun w => (.ok raw.length,raw.foldl (receiveByte setting) w)
  read size := .step fun w => (.ok (w.rx.take size.toNat,(w.rx.take size.toNat).length),
    {w with rx := w.rx.drop size.toNat})
  getSenderInfo := pure (['U','A','R','T'].map ascii)

def host (setting : Setting) : Host Line where
  device := device setting
  expired _ := .step fun w => (.ok w.late,w)
  scratch n := pure ((List.range n).map setting.scratch)
  outside offset := match setting.outside offset with
    | some b => pure b
    | none => .throw (.outsidePayload offset)

def Timely (w : Line) : Prop := ∀ p ∈ w.polls, p.late = false
instance (w : Line) : Decidable w.Timely := by unfold Timely; infer_instance

structure Took (w : Line) (raw : Bytes) (t : Line) : Prop where
  stream : w.stream = raw ++ t.stream
  polls : t.polls <:+ w.polls
  written : t.written = w.written
  incoming : t.incoming = w.incoming
  requests : t.requests = w.requests

theorem tookNothing (w : Line) : Took w [] w := ⟨rfl,List.suffix_refl _,rfl,rfl,rfl⟩

theorem Took.append {w u t : Line} {left right : Bytes} (h : Took w left u) (k : Took u right t) :
    Took w (left ++ right) t where
  stream := by rw [h.stream, k.stream, List.append_assoc]
  polls := k.polls.trans h.polls
  written := k.written.trans h.written
  incoming := k.incoming.trans h.incoming
  requests := k.requests.trans h.requests

theorem Took.timely {w t : Line} {raw : Bytes} (h : Took w raw t) (timely : w.Timely) : t.Timely :=
  fun p member => timely p (h.polls.subset member)

theorem Took.packets {w t : Line} {raw : Bytes} (h : Took w raw t) : t.packets = w.packets := by
  rw [Line.packets, h.requests, Line.packets]

theorem pollTook (w : Line) : Took w [] w.poll := by
  unfold poll
  cases h : w.polls with
  | nil => exact ⟨by simp [stream],by simp [h],rfl,rfl,rfl⟩
  | cons p rest => exact ⟨by simp [stream],by simp [h],rfl,rfl,rfl⟩

theorem readTook {w : Line} {n : Nat} (enough : n ≤ w.rx.length) :
    Took w (w.rx.take n) {w with rx := w.rx.drop n} ∧ (w.rx.take n).length = n := by
  refine ⟨⟨?_,List.suffix_refl _,rfl,rfl,rfl⟩,List.length_take_of_le enough⟩
  simp only [stream]
  rw [← List.append_assoc, List.take_append_drop]

theorem lateArrived {w : Line} (timely : w.Timely) (late : w.poll.late = true) : w.poll.rx = w.stream := by
  unfold poll at late ⊢
  cases h : w.polls with
  | nil => rfl
  | cons p rest =>
    have early := timely p (by simp [h])
    simp [h, early] at late

end Line
end RTno2Proxy
