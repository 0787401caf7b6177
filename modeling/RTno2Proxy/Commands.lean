import RTno2Proxy.PortValues
import RTno2Proxy.Interactive

/-! src/rtno_main.cpp: `inject` and `print`, with the conversions between texts and values they
use. What the standard library makes of floating-point numbers is a parameter. -/
namespace RTno2Proxy
namespace Commands
open Imperative
open EnumClass (toByte)
open Interactive (strsplit word)
variable {σ α : Type}

/- A value is its object representation, of `sizeof(float)` or `sizeof(double)` bytes. -/
structure Floats where
  atof : Bytes → Bytes
  toFloat : Bytes → Bytes
  text : ValueType → Bytes → Bytes
  doubleSize : ∀ str, (atof str).length = ValueType.double.sizeof
  floatSize : ∀ value, (toFloat value).length = ValueType.float.sizeof

def cStr (str : Bytes) : Bytes := str.takeWhile (· ≠ 0)

def isSpace (b : UInt8) : Bool := b = ascii ' ' ∨ 9 ≤ b ∧ b ≤ 13

def isDigit (b : UInt8) : Bool := ascii '0' ≤ b ∧ b ≤ ascii '9'

def digitsValue (digits : Bytes) : Nat := digits.foldl (fun n b => 10 * n + (b.toNat - (ascii '0').toNat)) 0

def longMin : Int := -2 ^ 63
def longMax : Int := 2 ^ 63 - 1

def strtol (str : Bytes) : Int :=
  let str := str.dropWhile isSpace
  let digits := if str.head? = some (ascii '-') ∨ str.head? = some (ascii '+') then str.tail else str
  let magnitude : Int := digitsValue (digits.takeWhile isDigit)
  max longMin (min longMax (if str.head? = some (ascii '-') then -magnitude else magnitude))

def atoi (str : Bytes) : Int := (strtol str).bmod (2 ^ 32)

def atois (str : Bytes) (delim : Char) (func : Bytes → α) : List α := (strsplit str delim).map func

def strjoin (v : List Bytes) : Bytes := List.intercalate [ascii ','] v

def littleEndian : Nat → Int → Bytes
  | 0, _ => []
  | n + 1, value => UInt8.ofNat (value % 256).toNat :: littleEndian n (value / 256)

def int32Bytes (value : Int) : Bytes := littleEndian ValueType.int32.sizeof value

def unsigned : Bytes → Nat
  | [] => 0
  | b :: rest => b.toNat + 256 * unsigned rest

def int32Of (raw : Bytes) : Int := (unsigned raw : Int).bmod (2 ^ 32)

def decimal (value : Int) : Bytes :=
  if value < 0 then ascii '-' :: (Nat.toDigits 10 value.natAbs).map ascii
  else (Nat.toDigits 10 value.natAbs).map ascii

def valueText (floats : Floats) (T : ValueType) (value : Bytes) : Bytes :=
  match T with
  | .int32 => decimal (int32Of value)
  | .float | .double => floats.text T value

/- include/rtno2/result.h. PACKET_CHECKSUM_TIMEOUT has no case of its own. -/
def resultToString (r : Result) : Bytes :=
  match r with
  | .ok => word "RESULT::OK"
  | .err => word "RESULT::ERROR"
  | .none => word "RESULT::NONE"
  | .timeout => word "RESULT::TIMEOUT"
  | .dataTimeout => word "RESULT::DATA_TIMEOUT"
  | .checksumError => word "RESULT::CHECKSUM_ERROR"
  | .notAvailable => word "RESULT::NOT_AVAILABLE"
  | .invalidPrestate => word "RESULT::INVALID_PRESTATE"
  | .inportNotFound => word "RESULT::INPORT_NOT_FOUND"
  | .outportNotFound => word "RESULT::OUTPORT_NOT_FOUND"
  | .outportBufferEmpty => word "RESULT::OUTPORT_BUFFER_EMPTY"
  | .packetStartTimeout => word "RESULT::PACKET_START_TIMEOUT"
  | .packetHeaderTimeout => word "RESULT::PACKET_BODY_TIMEOUT"
  | .packetBodyTimeout => word "RESULT::PACKET_BODY_TIMEOUT"
  | .packetChecksumTimeout | .unnamed _ _ =>
      word "RESULT::UNKNOWN(" ++ [toByte r] ++ word "/" ++ decimal (toByte r).toNat ++ word ")"

def resultTToString (text : α → Bytes) (result : ResultT α) : Act σ Bytes :=
  if result.result = .ok then do
    let value ← Protocol.value result
    pure (word "RESULT::OK(" ++ text value ++ word ")")
  else pure (resultToString result.result)

def seqText (floats : Floats) (T : ValueType) (values : List Bytes) : Bytes :=
  word "[" ++ strjoin (values.map (valueText floats T)) ++ word "]"

def printValue (h : Host σ) (floats : Floats) (T : ValueType) (nameStr : Bytes) : Act σ Bytes := do
  let val ← Protocol.receiveAs h T nameStr
  resultTToString (valueText floats T) val

def printSeq (h : Host σ) (floats : Floats) (T : ValueType) (nameStr : Bytes) : Act σ Bytes := do
  let v ← Protocol.receiveSeqAs h T nameStr
  resultTToString (seqText floats T) v

/- The branches for a port of the name; those for TIMED_BOOLEAN and TIMED_CHAR are empty. -/
def printPort (h : Host σ) (floats : Floats) (nameStr : Bytes) : TypeCode → Option (Act σ Bytes)
  | .timedBoolean => none
  | .timedChar => none
  | .timedLong => some (printValue h floats .int32 nameStr)
  | .timedFloat => some (printValue h floats .float nameStr)
  | .timedDouble => some (printValue h floats .double nameStr)
  | .timedLongSeq => some (printSeq h floats .int32 nameStr)
  | .timedFloatSeq => some (printSeq h floats .float nameStr)
  | .timedDoubleSeq => some (printSeq h floats .double nameStr)
  | _ => some (pure (resultToString .err))

def printPorts (h : Host σ) (floats : Floats) (nameStr : Bytes) : List PortProfile → Act σ Bytes
  | [] => pure (resultToString .outportNotFound)
  | port :: rest =>
      if port.name = nameStr then
        match printPort h floats nameStr port.typecode with
        | some returned => returned
        | none => printPorts h floats nameStr rest
      else printPorts h floats nameStr rest

def print (h : Host σ) (floats : Floats) (nameStr : Bytes) : Act σ Bytes := do
  let result ← Protocol.getProfile h (1000 * 1000) 5
  if result.result ≠ .ok then pure (resultToString result.result)
  else do
    let prof ← Protocol.value result
    printPorts h floats nameStr prof.outports

/- `send_inport_data(name_str, (uint8_t*)(&data), data.size() * sizeof(T))` of a `std::vector`: the
pointer is that of the vector, not of its elements. `object` is what lies there. -/
def sendVector (h : Host σ) (object : Nat → UInt8) (nameStr : Bytes) (T : ValueType) (size : Nat) : Act σ Result :=
  let length := UInt8.ofNat (size * T.sizeof)
  Protocol.sendInportData h nameStr ((List.range length.toNat).map object) length (1000 * 1000) 5

def injectPort (h : Host σ) (floats : Floats) (object : Nat → UInt8) (nameStr dataStr : Bytes) : TypeCode → Act σ Result
  | .timedBoolean => Protocol.sendInportData h nameStr [if dataStr = word "true" then 1 else 0] 1 (1000 * 1000) 5
  | .timedChar => Protocol.sendInportData h nameStr [(cStr dataStr).headD 0] 1 (1000 * 1000) 5
  | .timedLong => Protocol.sendInportData h nameStr (int32Bytes (atoi (cStr dataStr))) 4 (1000 * 1000) 5
  | .timedFloat => Protocol.sendInportData h nameStr (floats.toFloat (floats.atof (cStr dataStr))) 4 (1000 * 1000) 5
  | .timedDouble => Protocol.sendInportData h nameStr (floats.atof (cStr dataStr)) 8 (1000 * 1000) 5
  | .timedLongSeq => sendVector h object nameStr .int32 (atois dataStr ',' fun s => atoi (cStr s)).length
  | .timedFloatSeq =>
      sendVector h object nameStr .float (atois dataStr ',' fun s => floats.toFloat (floats.atof (cStr s))).length
  | .timedDoubleSeq => sendVector h object nameStr .double (atois dataStr ',' fun s => floats.atof (cStr s)).length
  | _ => pure .ok

def injectPorts (h : Host σ) (floats : Floats) (object : Nat → UInt8) (nameStr dataStr : Bytes) :
    List PortProfile → Act σ Result
  | [] => pure .inportNotFound
  | port :: rest =>
      if port.name = nameStr then injectPort h floats object nameStr dataStr port.typecode
      else injectPorts h floats object nameStr dataStr rest

def inject (h : Host σ) (floats : Floats) (object : Nat → UInt8) (nameStr dataStr : Bytes) : Act σ Result := do
  let result ← Protocol.getProfile h (1000 * 1000) 5
  if result.result ≠ .ok then pure result.result
  else do
    let prof ← Protocol.value result
    injectPorts h floats object nameStr dataStr prof.inports

example : atois (word "7,,-2,") ',' atoi = [7,-2] := by decide

example : int32Of (int32Bytes (-2)) = -2 := by decide

end Commands
end RTno2Proxy
