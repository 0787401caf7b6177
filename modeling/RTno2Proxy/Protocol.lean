import RTno2Proxy.Transport
import RTno2Proxy.Profile

/-! src/rtno2proxy/protocol.cpp over any serial device. What an operation does with an
accepted reply is kept apart from the exchange that obtains it. -/
namespace RTno2Proxy
open Imperative
open EnumClass (toByte ofByte)

namespace Protocol
variable {σ α : Type}

def value (result : ResultT α) : Act σ α :=
  match result.value with
  | some a => pure a
  | none => .throw .badOptionalAccess

def payload (h : Host σ) (packet : Packet) (offset : Int) : Act σ UInt8 :=
  match if 0 ≤ offset then packet.data[offset.toNat]? else none with
  | some b => pure b
  | none => h.outside offset

def payloadRange (h : Host σ) (packet : Packet) (offset : Int) : Nat → Act σ Bytes
  | 0 => pure []
  | n + 1 => do
      let b ← payload h packet offset
      let rest ← payloadRange h packet (offset + 1) n
      pure (b :: rest)

def memcpy (buffer : Bytes) (offset : Nat) (raw : Bytes) : Except Fault Bytes :=
  if offset + raw.length ≤ buffer.length then
    .ok (buffer.take offset ++ raw ++ buffer.drop (offset + raw.length))
  else .error .outsideBuffer

def waitAndReceiveCommand (h : Host σ) (command : Command) (waitUsec : UInt32) : Act σ (ResultT Packet) := do
  let result ← Transport.isNew h waitUsec
  if result = .ok then do
    let receiveResult ← Transport.receive h waitUsec
    if receiveResult.result ≠ .ok then pure (.ofResult receiveResult.result)
    else do
      let pac ← value receiveResult
      if pac.command = command then pure (.ofValue pac)
      else if pac.command = .packetError then pure (.ofResult pac.result)
      else pure (.ofResult .err)
  else pure (.ofResult result)

/- The body of a retry loop. A failure is retried whatever it is: the branch for
the four timeouts only writes a log line. -/
def attempt (h : Host σ) (command : Command) (waitUsec : UInt32) (exit : ResultT Packet → Act σ α) :
    Act σ (Option α) := do
  let _ ← Transport.send h (.initialise command .ok [] 0)
  let result ← waitAndReceiveCommand h command waitUsec
  if result.result = .ok then do
    let out ← exit result
    pure (some out)
  else pure none

def firstByte {ε : Type} [EnumClass ε] (h : Host σ) (result : ResultT Packet) : Act σ (ResultT ε) := do
  let packet ← value result
  let code ← payload h packet 0
  pure (.ofValue (ofByte code))

def getState (h : Host σ) (waitUsec : UInt32) (retryCount : Int) : Act σ (ResultT State) :=
  .attempts (attempt h .getState waitUsec (firstByte h)) (.ofResult .err) retryCount.toNat

def getEcType (h : Host σ) (waitUsec : UInt32) (retryCount : Int) : Act σ (ResultT EcType) :=
  .attempts (attempt h .getContextType waitUsec (firstByte h)) (.ofResult .err) retryCount.toNat

def activate (h : Host σ) (waitUsec : UInt32) (retryCount : Int) : Act σ Result :=
  .attempts (attempt h .activate waitUsec fun result => pure result.result) .err retryCount.toNat

def deactivate (h : Host σ) (waitUsec : UInt32) (retryCount : Int) : Act σ Result :=
  .attempts (attempt h .deactivate waitUsec fun result => pure result.result) .err retryCount.toNat

/- The log line of a success looks into the reply, unlike those of `activate` and `deactivate`. -/
def execute (h : Host σ) (waitUsec : UInt32) (retryCount : Int) : Act σ Result :=
  .attempts (attempt h .execute waitUsec fun result => do
    let _ ← value result
    pure result.result) .err retryCount.toNat

def profileFrame (profile : Profile) (pac : Packet) : Except Fault (Profile ⊕ Option (ResultT Profile)) :=
  match pac.command with
  | .getProfile => .ok (.inr (some (.ofValue profile)))
  | .inportProfile => do
      let inportProf ← parsePortProfile pac
      .ok (.inl (profile.appendInPort inportProf))
  | .outportProfile => do
      let outportProf ← parsePortProfile pac
      .ok (.inl (profile.appendOutPort outportProf))
  | .packetError => .ok (.inr (some (.ofResult .err)))
  | .packetErrorChecksum => .ok (.inr (some (.ofResult .checksumError)))
  | .packetErrorTimeout => .ok (.inr (some (.ofResult .timeout)))
  | _ => .ok (.inl profile)

/- One pass of the loop of `get_profile`, which may end the call (`some`) or the attempt (`none`). -/
def getProfilePass (h : Host σ) (waitUsec : UInt32) (profile : Profile) :
    Act σ (Profile ⊕ Option (ResultT Profile)) := do
  let result ← Transport.isNew h waitUsec
  if result ≠ .ok then pure (.inr none)
  else do
    let receiveResult ← Transport.receive h waitUsec
    if receiveResult.result ≠ .ok then
      if receiveResult.result = .packetStartTimeout ∨ receiveResult.result = .packetHeaderTimeout ∨
          receiveResult.result = .packetBodyTimeout ∨ receiveResult.result = .packetChecksumTimeout then
        pure (.inr none)
      else pure (.inr (some (.ofResult receiveResult.result)))
    else do
      let pac ← value receiveResult
      .lift (profileFrame profile pac)

def getProfile (h : Host σ) (waitUsec : UInt32) (retryCount : Int) : Act σ (ResultT Profile) :=
  .attempts (do
    let _ ← Transport.send h (.initialise .getProfile .ok [] 0)
    .loop (getProfilePass h waitUsec) .empty) (.ofResult .timeout) retryCount.toNat

def bufferSize : Nat := 64

/- The local arrays of the two data operations. Byte 1 of a RECEIVE_DATA request is never set. -/
def inportBuffer (buffer portName data : Bytes) (length : UInt8) : Except Fault Bytes := do
  let buffer ← memcpy buffer 0 [UInt8.ofNat portName.length]
  let buffer ← memcpy buffer 1 [length]
  let buffer ← memcpy buffer 2 portName
  memcpy buffer (2 + portName.length) (data.take length.toNat)

def outportBuffer (buffer portName : Bytes) : Except Fault Bytes := do
  let buffer ← memcpy buffer 0 [UInt8.ofNat portName.length]
  memcpy buffer 2 portName

/- `retry_count` is a parameter that nothing reads, here and in `receive_outport_data`. -/
def sendInportData (h : Host σ) (portName data : Bytes) (length : UInt8) (waitUsec : UInt32)
    (_retryCount : Int) : Act σ Result := do
  let scratch ← h.scratch bufferSize
  let buffer ← .lift (inportBuffer scratch portName data length)
  let _ ← Transport.send h
    (.initialise .sendData .ok buffer (UInt8.ofNat (2 + portName.length + length.toNat)))
  let result ← waitAndReceiveCommand h .sendData waitUsec
  if result.result = .ok then do
    let packet ← value result
    pure packet.result
  else pure .err

/- The caller's array and `*size_read` are handed in and handed back. Both length bytes
of the reply are read as `int8_t`; the second is then stored as a `uint8_t` again. -/
def copyOut (h : Host σ) (result : ResultT Packet) (data : Bytes) (maxSize : UInt8) :
    Act σ (Result × Bytes × UInt8) := do
  let packet ← value result
  let nameLen ← payload h packet 0
  let dataLen ← payload h packet 1
  if dataLen > maxSize then pure (packet.result,data,dataLen)
  else do
    let raw ← payloadRange h packet (2 + nameLen.toInt8.toInt) dataLen.toNat
    pure (packet.result,Transport.store data raw,dataLen)

def receiveOutportData (h : Host σ) (portName data : Bytes) (maxSize sizeRead : UInt8) (waitUsec : UInt32)
    (_retryCount : Int) : Act σ (Result × Bytes × UInt8) := do
  let scratch ← h.scratch bufferSize
  let buffer ← .lift (outportBuffer scratch portName)
  let _ ← Transport.send h (.initialise .receiveData .ok buffer (UInt8.ofNat (2 + portName.length)))
  let result ← waitAndReceiveCommand h .receiveData waitUsec
  if result.result = .ok then copyOut h result data maxSize
  else pure (.err,data,sizeRead)

end Protocol
end RTno2Proxy
