import RTno2Proxy.Device

/-! src/rtno2proxy/transport.cpp, over any serial device. The logger calls are
left out; their arguments are formatted but decide nothing. -/
namespace RTno2Proxy
open Imperative
open EnumClass (ofByte)

namespace Transport
variable {σ : Type}

def uint32Max : UInt32 := 0xFFFFFFFF
def startByte : UInt8 := 0x0a
def startMarker : Bytes := [startByte,startByte]
def packetReceiveHeaderSize : UInt8 := 3

def store (buffer raw : Bytes) : Bytes := raw.take buffer.length ++ buffer.drop raw.length

def pollPass (h : Host σ) (size : UInt8) (waitUsec : UInt32) : Act σ (Unit ⊕ Bool) := do
  let available ← h.device.getSizeInRxBuffer
  if (size.toNat : Int) ≤ available then pure (.inr true)
  else do
    let expired ← h.expired waitUsec
    if expired = true ∧ waitUsec ≠ uint32Max then pure (.inr false) else pure (.inl ())

def await (h : Host σ) (size : UInt8) (waitUsec : UInt32) : Act σ Bool :=
  Program.loop (fun _ => pollPass h size waitUsec) ()

/- The result of `serial_device_->read` is dropped, as in the source. -/
def read (h : Host σ) (buffer : Bytes) (size : UInt8) (waitUsec : UInt32) : Act σ (Result × Bytes) :=
  if size = 0 then pure (.ok,buffer)
  else do
    let ready ← await h size waitUsec
    if ready = true then do
      let delivered ← h.device.read size
      pure (.ok,store buffer delivered.1)
    else pure (.timeout,buffer)

def readByte (h : Host σ) (buf : UInt8) (waitUsec : UInt32) : Act σ (Result × UInt8) := do
  let out ← read h [buf] 1 waitUsec
  pure (out.1,out.2.headD buf)

def writeEach (h : Host σ) : Bytes → Act σ Unit
  | [] => pure ()
  | b :: rest => do
      let _ ← h.device.write [b]
      writeEach h rest

def write (h : Host σ) (buffer : Bytes) (size : UInt8) : Act σ Result := do
  writeEach h (buffer.take size.toNat)
  pure .ok

def send (h : Host σ) (packet : Packet) : Act σ Result := do
  let result ← write h startMarker 2
  if result ≠ .ok then pure result
  else do
    let result ← write h packet.serialize packet.getPacketLength
    if result ≠ .ok then pure result
    else do
      let result ← write h [packet.getSum] 1
      if result ≠ .ok then pure result else pure .ok

def isNewPass (h : Host σ) (waitUsec : UInt32) (buf : UInt8) : Act σ (UInt8 ⊕ Result) := do
  let first ← readByte h buf waitUsec
  if first.1 ≠ .ok then pure (.inr first.1)
  else if first.2 ≠ startByte then pure (.inl first.2)
  else do
    let second ← readByte h first.2 waitUsec
    if second.1 ≠ .ok then pure (.inr second.1)
    else if second.2 = startByte then pure (.inr .ok)
    else pure (.inl second.2)

def isNew (h : Host σ) (waitUsec : UInt32) : Act σ Result := do
  let buf ← h.scratch 1
  Program.loop (isNewPass h waitUsec) (buf.headD 0)

def receiveChecksum (h : Host σ) (waitUsec : UInt32) (packet : Packet) : Act σ (ResultT Packet) := do
  let buf ← h.scratch 1
  let last ← readByte h (buf.headD 0) waitUsec
  if last.1 ≠ .ok then
    pure (.ofResult (if last.1 = .timeout then .packetChecksumTimeout else last.1))
  else if packet.getSum ≠ last.2 then pure (.ofResult .checksumError)
  else pure (.ofValue packet)

def receiveBody (h : Host σ) (waitUsec : UInt32) (command result size : UInt8) : Act σ (ResultT Packet) := do
  let dataBuffer ← h.scratch 256
  let body ← read h dataBuffer size waitUsec
  if body.1 ≠ .ok then
    pure (.ofResult (if body.1 = .timeout then .packetBodyTimeout else body.1))
  else receiveChecksum h waitUsec (Packet.initialise (ofByte command) (ofByte result) body.2 size)

def receive (h : Host σ) (waitUsec : UInt32) : Act σ (ResultT Packet) := do
  let header ← h.scratch packetReceiveHeaderSize.toNat
  let head ← read h header packetReceiveHeaderSize waitUsec
  if head.1 ≠ .ok then
    pure (.ofResult (if head.1 = .timeout then .packetHeaderTimeout else head.1))
  else do
    let _ ← h.device.getSenderInfo
    receiveBody h waitUsec (head.2.getD 0 0) (head.2.getD 1 0) (head.2.getD 2 0)

end Transport

def Packet.frame (p : Packet) : Bytes :=
  Transport.startMarker ++ p.serialize.take p.getPacketLength.toNat ++ [p.getSum]

end RTno2Proxy
