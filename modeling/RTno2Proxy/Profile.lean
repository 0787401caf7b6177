import Mathlib.Data.List.TakeWhile
import RTno2Proxy.Device

/-! include/rtno2/state.h, ec_type.h, type_code.h and profile.h, with the parser of
src/rtno2proxy/protocol.cpp that turns one frame into a port. -/
namespace RTno2Proxy
open Imperative
open EnumClass (toByte ofByte)

def stateCodes : List UInt8 := ['C','I','A','E','N'].map ascii

inductive State where
  | created | inactive | active | err | none
  | unnamed (code : UInt8) (other : code ∉ stateCodes)
  deriving DecidableEq

instance : EnumClass State where
  toByte
    | .created => ascii 'C' | .inactive => ascii 'I' | .active => ascii 'A'
    | .err => ascii 'E' | .none => ascii 'N'
    | .unnamed code _ => code
  named := [.created,.inactive,.active,.err,.none]
  codes := stateCodes
  unnamed := .unnamed
  namedCodes := rfl
  distinct := by decide
  unnamedCode _ _ := rfl
  exhaustive e := by cases e <;> simp; assumption

def ecTypeCodes : List UInt8 := [0x21,0x22,0x23,0x24]

inductive EcType where
  | proxySynchronous | timerOne | timerTwo | fspTimer
  | unnamed (code : UInt8) (other : code ∉ ecTypeCodes)
  deriving DecidableEq

instance : EnumClass EcType where
  toByte
    | .proxySynchronous => 0x21 | .timerOne => 0x22 | .timerTwo => 0x23 | .fspTimer => 0x24
    | .unnamed code _ => code
  named := [.proxySynchronous,.timerOne,.timerTwo,.fspTimer]
  codes := ecTypeCodes
  unnamed := .unnamed
  namedCodes := rfl
  distinct := by decide
  unnamedCode _ _ := rfl
  exhaustive e := by cases e <;> simp; assumption

def typeCodes : List UInt8 := ['b','o','c','l','f','d','B','O','C','L','F','D'].map ascii

inductive TypeCode where
  | timedBoolean | timedOctet | timedChar | timedLong | timedFloat | timedDouble
  | timedBooleanSeq | timedOctetSeq | timedCharSeq
  | timedLongSeq | timedFloatSeq | timedDoubleSeq
  | unnamed (code : UInt8) (other : code ∉ typeCodes)
  deriving DecidableEq

instance : EnumClass TypeCode where
  toByte
    | .timedBoolean => ascii 'b' | .timedOctet => ascii 'o' | .timedChar => ascii 'c'
    | .timedLong => ascii 'l' | .timedFloat => ascii 'f' | .timedDouble => ascii 'd'
    | .timedBooleanSeq => ascii 'B' | .timedOctetSeq => ascii 'O' | .timedCharSeq => ascii 'C'
    | .timedLongSeq => ascii 'L' | .timedFloatSeq => ascii 'F' | .timedDoubleSeq => ascii 'D'
    | .unnamed code _ => code
  named := [.timedBoolean,.timedOctet,.timedChar,.timedLong,.timedFloat,.timedDouble,
    .timedBooleanSeq,.timedOctetSeq,.timedCharSeq,.timedLongSeq,.timedFloatSeq,.timedDoubleSeq]
  codes := typeCodes
  unnamed := .unnamed
  namedCodes := rfl
  distinct := by decide
  unnamedCode _ _ := rfl
  exhaustive e := by cases e <;> simp; assumption

/- `port_profile_t`. Its name is made from a C string, so it holds no NUL. -/
structure PortProfile where
  typecode : TypeCode
  name : Bytes
  terminated : 0 ∉ name
  deriving DecidableEq

def PortProfile.ofChars (typeCode : TypeCode) (portName : Bytes) : PortProfile where
  typecode := typeCode
  name := portName.takeWhile (· ≠ 0)
  terminated h := by simpa using List.mem_takeWhile_imp h

structure Profile where
  inports : List PortProfile
  outports : List PortProfile
  deriving DecidableEq

namespace Profile

def empty : Profile := ⟨[],[]⟩

def appendInPort (profile : Profile) (p : PortProfile) : Profile :=
  {profile with inports := profile.inports ++ [p]}

def appendOutPort (profile : Profile) (p : PortProfile) : Profile :=
  {profile with outports := profile.outports ++ [p]}

end Profile

def strbufSize : Nat := 64

/- `memcpy` of `getDataLength() - 1` bytes into `strbuf`, then a NUL behind them. Without
data the count is -1, which `memcpy` takes for the largest size there is. -/
def parsePortProfile (packet : Packet) : Except Fault PortProfile :=
  match packet.data with
  | [] => .error .outsideBuffer
  | code :: portName =>
      if portName.length < strbufSize then .ok (.ofChars (ofByte code) portName)
      else .error .outsideBuffer

theorem parseError {packet : Packet} {e : Fault} (h : parsePortProfile packet = .error e) : e = .outsideBuffer := by
  unfold parsePortProfile at h
  split at h
  · cases h
    rfl
  · split at h <;> cases h
    rfl

end RTno2Proxy
