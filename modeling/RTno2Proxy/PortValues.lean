import RTno2Proxy.PortData

/-! The templates of include/rtno2/protocol.h that read a value, or a sequence of values, from
an out-port. A value of type `T` is the `sizeof(T)` bytes of its object representation. -/
namespace RTno2Proxy
open Imperative

inductive ValueType where
  | int32 | float | double
  deriving DecidableEq

def ValueType.sizeof : ValueType → Nat
  | .int32 => 4
  | .float => 4
  | .double => 8

namespace Protocol
variable {σ : Type}

def maxPacketSize : UInt8 := 255

def peek (buf : Bytes) (size : Nat) : Except Fault Bytes :=
  if size ≤ buf.length then .ok (buf.take size) else .error .outsideBuffer

/- `into<T>`. The two specialisations copy into the bytes of a union, which is as large as the type. -/
def into (h : Host σ) (T : ValueType) (buf : Bytes) (size : UInt8) : Act σ Bytes :=
  match T with
  | .int32 => .lift (peek buf T.sizeof)
  | .float | .double => do
      let i ← h.scratch T.sizeof
      .lift (memcpy i 0 (buf.take size.toNat))

def intoEach (h : Host σ) (T : ValueType) (buf : Bytes) (i : Nat) : Nat → Act σ (List Bytes)
  | 0 => pure []
  | n + 1 => do
      let val ← into h T (buf.drop (i * T.sizeof)) (UInt8.ofNat T.sizeof)
      let rest ← intoEach h T buf (i + 1) n
      pure (val :: rest)

def intoVec (h : Host σ) (T : ValueType) (buf : Bytes) (size : UInt8) : Act σ (List Bytes) :=
  intoEach h T buf 0 (size.toNat / T.sizeof)

def receiveAs (h : Host σ) (T : ValueType) (portName : Bytes) : Act σ (ResultT Bytes) := do
  let size ← h.scratch 1
  let buffer ← h.scratch maxPacketSize.toNat
  let state ← receiveOutportData h portName buffer maxPacketSize (size.headD 0) (1000 * 1000) 5
  if state.1 = .ok then do
    let val ← into h T state.2.1 state.2.2
    pure (.ofValue val)
  else pure (.ofResult state.1)

def receiveSeqAs (h : Host σ) (T : ValueType) (portName : Bytes) : Act σ (ResultT (List Bytes)) := do
  let size ← h.scratch 1
  let buffer ← h.scratch maxPacketSize.toNat
  let state ← receiveOutportData h portName buffer maxPacketSize (size.headD 0) (1000 * 1000) 5
  if state.1 = .ok then do
    let val ← intoVec h T state.2.1 state.2.2
    pure (.ofValue val)
  else pure (.ofResult state.1)

section Errors
variable {setting : Setting} {errors : Fault → Prop}

theorem scratchErrors (n : Nat) : ((Line.host setting).scratch n).ErrorsIn errors := Program.errorsPure _

theorem intoErrors (buffers : errors .outsideBuffer) (T : ValueType) (buf : Bytes) (size : UInt8) :
    (into (Line.host setting) T buf size).ErrorsIn errors := by
  have copied (i : Bytes) : (Program.lift (memcpy i 0 (buf.take size.toNat)) : Act Line Bytes).ErrorsIn errors :=
    Program.errorsLift fun e failed => memcpyError failed ▸ buffers
  cases T with
  | int32 =>
    refine Program.errorsLift fun e failed => ?_
    unfold peek at failed
    split at failed <;> cases failed
    exact buffers
  | float => exact Program.errorsBind (scratchErrors _) fun _ i _ _ => copied i
  | double => exact Program.errorsBind (scratchErrors _) fun _ i _ _ => copied i

theorem intoVecErrors (buffers : errors .outsideBuffer) (T : ValueType) (buf : Bytes) (size : UInt8) :
    (intoVec (Line.host setting) T buf size).ErrorsIn errors := by
  unfold intoVec
  generalize size.toNat / T.sizeof = n
  generalize 0 = i
  induction n generalizing i with
  | zero => exact Program.errorsPure _
  | succ n ih =>
    exact Program.errorsBind (intoErrors buffers T _ _) fun _ _ _ _ =>
      Program.errorsBind (ih _) fun _ _ _ _ => Program.errorsPure _

end Errors

end Protocol
end RTno2Proxy
