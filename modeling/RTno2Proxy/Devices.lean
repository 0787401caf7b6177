import RTno2Proxy.Simulation
import RTno2Proxy.PortValues
import RTno2Proxy.Session
import RTno2Proxy.Commands

/-! One device in place of another. What the code asks of a host is little: whole reads, bytes
written one at a time, and the memory nobody wrote. A host that can be explained by another in these
is explained by it in every operation and every command. -/
namespace RTno2Proxy
open Imperative
open Program (Congruence)
variable {σ τ α : Type}

def Own (e : Fault) : Prop := e ≠ .deviceError

/- `kinds` are the requests that the host has to stand for; the array an operation builds one in has `bufferSize` bytes. -/
structure Host.Realises (Q : ∀ α : Type, Act σ α → Act τ α → Prop) (kinds : Command → Prop) (h : Host σ) (g : Host τ) : Prop where
  read : ∀ buffer size waitUsec, Q _ (Transport.read h buffer size waitUsec) (Transport.read g buffer size waitUsec)
  send : ∀ packet : Packet, kinds packet.command → packet.data.length ≤ Protocol.bufferSize →
    Q _ (Transport.send h packet) (Transport.send g packet)
  getSenderInfo : Q _ h.device.getSenderInfo.dropped g.device.getSenderInfo.dropped
  scratch : ∀ (n : Nat) {β : Type} {next : Bytes → Act σ β} {next' : Bytes → Act τ β},
    (∀ raw, raw.length = n → Q β (next raw) (next' raw)) → Q β (h.scratch n >>= next) (g.scratch n >>= next')
  outside : ∀ offset, Q _ (h.outside offset) (g.outside offset)

section Realises
variable {Q : ∀ α : Type, Act σ α → Act τ α → Prop} {kinds : Command → Prop} {h : Host σ} {g : Host τ}

namespace Transport

theorem sendRealised (q : Congruence Own Q) (byte : ∀ b, Q _ (h.device.write [b]).dropped (g.device.write [b]).dropped)
    (packet : Packet) : Q _ (send h packet) (send g packet) := by
  have each (raw : Bytes) : Q _ (writeEach h raw) (writeEach g raw) := by
    induction raw with
    | nil => exact q.value ()
    | cons b rest ih => exact q.ignore (byte b) ih
  have whole (buffer : Bytes) (size : UInt8) : Q _ (write h buffer size) (write g buffer size) :=
    q.bind (each _) fun _ => q.value _
  unfold send
  exact q.bind (whole _ _) fun _ => Congruence.ite (q.value _) (q.bind (whole _ _) fun _ => Congruence.ite (q.value _)
    (q.bind (whole _ _) fun _ => Congruence.ite (q.value _) (q.value _)))

theorem readRealised (q : Congruence Own Q) (size : Q _ h.device.getSizeInRxBuffer g.device.getSizeInRxBuffer)
    (expired : ∀ waitUsec, Q _ (h.expired waitUsec) (g.expired waitUsec)) (taken : ∀ n, Q _ (h.device.read n) (g.device.read n))
    (buffer : Bytes) (n : UInt8) (waitUsec : UInt32) : Q _ (read h buffer n waitUsec) (read g buffer n waitUsec) := by
  have passes : Q _ (await h n waitUsec) (await g n waitUsec) := by
    refine q.loop (fun _ => ?_) ()
    unfold pollPass
    exact q.bind size fun _ => Congruence.ite (q.value _) (q.bind (expired _) fun _ => Congruence.ite (q.value _) (q.value _))
  unfold read
  exact Congruence.ite (q.value _) (q.bind passes fun _ => Congruence.ite (q.bind (taken _) fun _ => q.value _) (q.value _))

theorem readByteRealised (q : Congruence Own Q) (realises : h.Realises Q kinds g) (buf : UInt8) (waitUsec : UInt32) :
    Q _ (readByte h buf waitUsec) (readByte g buf waitUsec) :=
  q.bind (realises.read _ _ _) fun _ => q.value _

theorem isNewRealised (q : Congruence Own Q) (realises : h.Realises Q kinds g) (waitUsec : UInt32) : Q _ (isNew h waitUsec) (isNew g waitUsec) := by
  refine realises.scratch 1 fun _ _ => q.loop (fun buf => ?_) _
  unfold isNewPass
  exact q.bind (readByteRealised q realises _ _) fun _ => Congruence.ite (q.value _)
    (Congruence.ite (q.value _) (q.bind (readByteRealised q realises _ _) fun _ => Congruence.ite (q.value _)
      (Congruence.ite (q.value _) (q.value _))))

theorem receiveRealised (q : Congruence Own Q) (realises : h.Realises Q kinds g) (waitUsec : UInt32) :
    Q _ (receive h waitUsec) (receive g waitUsec) := by
  have checksum (packet : Packet) : Q _ (receiveChecksum h waitUsec packet) (receiveChecksum g waitUsec packet) := by
    unfold receiveChecksum
    exact realises.scratch 1 fun _ _ => q.bind (readByteRealised q realises _ _) fun _ =>
      Congruence.ite (q.value _) (Congruence.ite (q.value _) (q.value _))
  have body (command result size : UInt8) :
      Q _ (receiveBody h waitUsec command result size) (receiveBody g waitUsec command result size) := by
    unfold receiveBody
    exact realises.scratch 256 fun _ _ => q.bind (realises.read _ _ _) fun _ =>
      Congruence.ite (q.value _) (checksum _)
  unfold receive
  exact realises.scratch _ fun _ _ => q.bind (realises.read _ _ _) fun _ =>
    Congruence.ite (q.value _) (q.ignore realises.getSenderInfo (body _ _ _))

end Transport

namespace Protocol

theorem bufferOwn {e : Fault} (same : e = .outsideBuffer) : Own e := by simp [Own,same]

theorem profileFrameOwn {profile : Profile} {pac : Packet} {e : Fault} (failed : profileFrame profile pac = .error e) : Own e := by
  unfold profileFrame at failed
  split at failed
  case h_2 | h_3 =>
    rcases Program.exceptBindError.mp failed with parse | ⟨_,_,never⟩
    · exact bufferOwn (parseError parse)
    · cases never
  all_goals cases failed

theorem peekError {buf : Bytes} {size : Nat} {e : Fault} (failed : peek buf size = .error e) : e = .outsideBuffer := by
  unfold peek at failed
  split at failed
  · cases failed
  · cases failed
    rfl

theorem valueRealised (q : Congruence Own Q) (result : ResultT α) : Q _ (value result : Act σ α) (value result) := by
  unfold value
  cases result.value with
  | some a => exact q.value a
  | none => exact q.raise (by simp [Own])

theorem payloadRealised (q : Congruence Own Q) (realises : h.Realises Q kinds g) (packet : Packet) (offset : Int) :
    Q _ (payload h packet offset) (payload g packet offset) := by
  unfold payload
  split
  · exact q.value _
  · exact realises.outside offset

theorem payloadRangeRealised (q : Congruence Own Q) (realises : h.Realises Q kinds g) (packet : Packet) (offset : Int) (n : Nat) :
    Q _ (payloadRange h packet offset n) (payloadRange g packet offset n) := by
  induction n generalizing offset with
  | zero => exact q.value []
  | succ n ih =>
    exact q.bind (payloadRealised q realises packet offset) fun _ => q.bind (ih (offset + 1)) fun _ => q.value _

theorem waitRealised (q : Congruence Own Q) (realises : h.Realises Q kinds g) (command : Command) (waitUsec : UInt32) :
    Q _ (waitAndReceiveCommand h command waitUsec) (waitAndReceiveCommand g command waitUsec) := by
  unfold waitAndReceiveCommand
  exact q.bind (Transport.isNewRealised q realises _) fun _ => Congruence.ite
    (q.bind (Transport.receiveRealised q realises _) fun _ => Congruence.ite (q.value _)
      (q.bind (valueRealised q _) fun _ => Congruence.ite (q.value _) (Congruence.ite (q.value _) (q.value _))))
    (q.value _)

theorem commandSmall (c : Command) : (Packet.initialise c .ok [] 0).data.length ≤ bufferSize := Nat.zero_le _

theorem attemptRealised (q : Congruence Own Q) (realises : h.Realises Q kinds g) {command : Command} (kind : kinds command)
    (waitUsec : UInt32)
    {exit : ResultT Packet → Act σ α} {exit' : ResultT Packet → Act τ α} (exits : ∀ result, Q _ (exit result) (exit' result)) :
    Q _ (attempt h command waitUsec exit) (attempt g command waitUsec exit') :=
  q.bind (realises.send _ kind (commandSmall command)) fun _ => q.bind (waitRealised q realises _ _) fun _ =>
    Congruence.ite (q.bind (exits _) fun _ => q.value _) (q.value _)

theorem firstByteRealised {ε : Type} [EnumClass ε] (q : Congruence Own Q) (realises : h.Realises Q kinds g) (result : ResultT Packet) :
    Q _ (firstByte h result : Act σ (ResultT ε)) (firstByte g result) :=
  q.bind (valueRealised q _) fun _ => q.bind (payloadRealised q realises _ _) fun _ => q.value _

theorem getProfileRealised (q : Congruence Own Q) (realises : h.Realises Q kinds g) (kind : kinds .getProfile)
    (waitUsec : UInt32) (retryCount : Int) :
    Q _ (getProfile h waitUsec retryCount) (getProfile g waitUsec retryCount) := by
  refine q.attempts _ (q.bind (realises.send _ kind (commandSmall _)) fun _ => q.loop (fun profile => ?_) _) _
  unfold getProfilePass
  exact q.bind (Transport.isNewRealised q realises _) fun _ => Congruence.ite (q.value _)
    (q.bind (Transport.receiveRealised q realises _) fun _ => Congruence.ite (Congruence.ite (q.value _) (q.value _))
      (q.bind (valueRealised q _) fun _ => q.lift _ fun _ => profileFrameOwn))

theorem memcpyLength {buffer raw out : Bytes} {offset : Nat} (copied : memcpy buffer offset raw = .ok out) :
    out.length = buffer.length := by
  unfold memcpy at copied
  split at copied
  · rename_i fits
    cases copied
    simp only [List.length_append,List.length_take,List.length_drop]
    omega
  · cases copied

theorem inportBufferLength {buffer portName data out : Bytes} {length : UInt8}
    (filled : inportBuffer buffer portName data length = .ok out) : out.length = buffer.length := by
  obtain ⟨_,first,filled⟩ := Program.exceptBind.mp filled
  obtain ⟨_,second,filled⟩ := Program.exceptBind.mp filled
  obtain ⟨_,third,last⟩ := Program.exceptBind.mp filled
  rw [memcpyLength last,memcpyLength third,memcpyLength second,memcpyLength first]

theorem outportBufferLength {buffer portName out : Bytes} (filled : outportBuffer buffer portName = .ok out) :
    out.length = buffer.length := by
  obtain ⟨_,first,last⟩ := Program.exceptBind.mp filled
  rw [memcpyLength last,memcpyLength first]

theorem bufferSmall {c : Command} {buffer : Bytes} {size : UInt8} (length : buffer.length = bufferSize) :
    (Packet.initialise c .ok buffer size).data.length ≤ bufferSize :=
  length ▸ List.length_take_le' _ _

theorem sendInportRealised (q : Congruence Own Q) (realises : h.Realises Q kinds g) (kind : kinds .sendData)
    (portName data : Bytes) (length : UInt8) (waitUsec : UInt32) (retryCount : Int) :
    Q _ (sendInportData h portName data length waitUsec retryCount)
      (sendInportData g portName data length waitUsec retryCount) := by
  unfold sendInportData
  exact realises.scratch _ fun _ size => q.lifted (fun _ failed => bufferOwn (inportBufferError failed)) fun _ filled =>
    q.bind (realises.send _ kind (bufferSmall ((inportBufferLength filled).trans size))) fun _ => q.bind (waitRealised q realises _ _) fun _ =>
      Congruence.ite (q.bind (valueRealised q _) fun _ => q.value _) (q.value _)

theorem copyOutRealised (q : Congruence Own Q) (realises : h.Realises Q kinds g) (result : ResultT Packet) (data : Bytes) (maxSize : UInt8) :
    Q _ (copyOut h result data maxSize) (copyOut g result data maxSize) := by
  unfold copyOut
  exact q.bind (valueRealised q _) fun _ => q.bind (payloadRealised q realises _ _) fun _ =>
    q.bind (payloadRealised q realises _ _) fun _ => Congruence.ite (q.value _)
      (q.bind (payloadRangeRealised q realises _ _ _) fun _ => q.value _)

theorem receiveOutportRealised (q : Congruence Own Q) (realises : h.Realises Q kinds g) (kind : kinds .receiveData)
    (portName data : Bytes) (maxSize sizeRead : UInt8) (waitUsec : UInt32) (retryCount : Int) :
    Q _ (receiveOutportData h portName data maxSize sizeRead waitUsec retryCount)
      (receiveOutportData g portName data maxSize sizeRead waitUsec retryCount) := by
  unfold receiveOutportData
  exact realises.scratch _ fun _ size => q.lifted (fun _ failed => bufferOwn (outportBufferError failed)) fun _ filled =>
    q.bind (realises.send _ kind (bufferSmall ((outportBufferLength filled).trans size))) fun _ => q.bind (waitRealised q realises _ _) fun _ =>
      Congruence.ite (copyOutRealised q realises _ _ _) (q.value _)

theorem intoRealised (q : Congruence Own Q) (realises : h.Realises Q kinds g) (T : ValueType) (buf : Bytes) (size : UInt8) :
    Q _ (into h T buf size) (into g T buf size) := by
  cases T with
  | int32 => exact q.lift _ fun _ failed => bufferOwn (peekError failed)
  | float => exact realises.scratch _ fun _ _ => q.lift _ fun _ failed => bufferOwn (memcpyError failed)
  | double => exact realises.scratch _ fun _ _ => q.lift _ fun _ failed => bufferOwn (memcpyError failed)

theorem intoVecRealised (q : Congruence Own Q) (realises : h.Realises Q kinds g) (T : ValueType) (buf : Bytes) (size : UInt8) :
    Q _ (intoVec h T buf size) (intoVec g T buf size) := by
  unfold intoVec
  generalize size.toNat / T.sizeof = n
  generalize 0 = i
  induction n generalizing i with
  | zero => exact q.value []
  | succ n ih =>
    exact q.bind (intoRealised q realises _ _ _) fun _ => q.bind (ih _) fun _ => q.value _

theorem receiveAsRealised (q : Congruence Own Q) (realises : h.Realises Q kinds g) (kind : kinds .receiveData)
    (T : ValueType) (portName : Bytes) :
    Q _ (receiveAs h T portName) (receiveAs g T portName) := by
  unfold receiveAs
  exact realises.scratch _ fun _ _ => realises.scratch _ fun _ _ =>
    q.bind (receiveOutportRealised q realises kind _ _ _ _ _ _) fun _ =>
      Congruence.ite (q.bind (intoRealised q realises _ _ _) fun _ => q.value _) (q.value _)

theorem receiveSeqAsRealised (q : Congruence Own Q) (realises : h.Realises Q kinds g) (kind : kinds .receiveData)
    (T : ValueType) (portName : Bytes) :
    Q _ (receiveSeqAs h T portName) (receiveSeqAs g T portName) := by
  unfold receiveSeqAs
  exact realises.scratch _ fun _ _ => realises.scratch _ fun _ _ =>
    q.bind (receiveOutportRealised q realises kind _ _ _ _ _ _) fun _ =>
      Congruence.ite (q.bind (intoVecRealised q realises _ _ _) fun _ => q.value _) (q.value _)

end Protocol

def Operation.kind : Operation → Command
  | .getState => .getState
  | .getEcType => .getContextType
  | .getProfile => .getProfile
  | .activate => .activate
  | .deactivate => .deactivate
  | .execute => .execute
  | .sendInportData _ _ => .sendData
  | .receiveOutportData _ _ _ _ => .receiveData

theorem Call.runRealised (q : Congruence Own Q) (realises : h.Realises Q kinds g) (c : Call) (kind : kinds c.operation.kind) :
    Q _ (c.run h) (c.run g) := by
  obtain ⟨operation,waitUsec,retryCount⟩ := c
  have answered {α : Type} {command : Command} (kind : kinds command) (after : α) {exit : ResultT Packet → Act σ α}
      {exit' : ResultT Packet → Act τ α} (exits : ∀ result, Q _ (exit result) (exit' result)) :
      Q _ (Program.attempts (Protocol.attempt h command waitUsec exit) after retryCount.toNat)
        (Program.attempts (Protocol.attempt g command waitUsec exit') after retryCount.toNat) :=
    q.attempts after (Protocol.attemptRealised q realises kind waitUsec exits) _
  cases operation with
  | getState => exact q.bind (answered kind _ (Protocol.firstByteRealised q realises)) fun _ => q.value _
  | getEcType => exact q.bind (answered kind _ (Protocol.firstByteRealised q realises)) fun _ => q.value _
  | getProfile => exact q.bind (Protocol.getProfileRealised q realises kind _ _) fun _ => q.value _
  | activate => exact q.bind (answered kind _ fun _ => q.value _) fun _ => q.value _
  | deactivate => exact q.bind (answered kind _ fun _ => q.value _) fun _ => q.value _
  | execute =>
    exact q.bind (answered kind _ fun _ => q.bind (Protocol.valueRealised q _) fun _ => q.value _) fun _ => q.value _
  | sendInportData portName data =>
    exact q.bind (Protocol.sendInportRealised q realises kind _ _ _ _ _) fun _ => q.value _
  | receiveOutportData portName data maxSize sizeRead =>
    exact q.bind (Protocol.receiveOutportRealised q realises kind _ _ _ _ _ _) fun _ => q.value _

end Realises
end RTno2Proxy
