import Mathlib.Algebra.Group.Int.Defs
import Mathlib.Algebra.GroupWithZero.Nat
import Mathlib.Data.List.Basic
import Mathlib.Data.List.Nodup

/-! The wire vocabulary of include/rtno2: the enumerations whose values travel as
one byte, `packet_t` with its 8-bit length arithmetic, and `result_t`. -/
namespace RTno2Proxy

abbrev Bytes := List UInt8

def ascii (c : Char) : UInt8 := UInt8.ofNat c.toNat

/- `enum class E : char`. A cast admits every value of the underlying byte, so a
value is one of the enumerators or a code that none of them has. -/
class EnumClass (ε : Type) where
  toByte : ε → UInt8
  named : List ε
  codes : List UInt8
  unnamed : (code : UInt8) → code ∉ codes → ε
  namedCodes : named.map toByte = codes
  distinct : codes.Nodup
  unnamedCode : ∀ code other, toByte (unnamed code other) = code
  exhaustive : ∀ e, e ∈ named ∨ ∃ code other, e = unnamed code other

namespace EnumClass
variable {ε : Type} [EnumClass ε]

theorem namedToByte {e : ε} (h : e ∈ named) : toByte e ∈ codes ε := by
  rw [← namedCodes]
  exact List.mem_map_of_mem h

def ofByte (code : UInt8) : ε :=
  match h : named.find? (fun e : ε => toByte e == code) with
  | some e => e
  | none => unnamed code (by
      rw [← namedCodes]
      intro found
      obtain ⟨e, he, same⟩ := List.mem_map.mp found
      exact List.find?_eq_none.mp h e he (beq_iff_eq.mpr same))

theorem toByteOfByte (code : UInt8) : toByte (ofByte code : ε) = code := by
  unfold ofByte
  split
  · rename_i e h
    have found := List.find?_some h
    exact beq_iff_eq.mp found
  · exact unnamedCode _ _

theorem toByteInjective {a b : ε} (same : toByte a = toByte b) : a = b := by
  rcases exhaustive a with ha | ⟨code, other, rfl⟩ <;> rcases exhaustive b with hb | ⟨code', other', rfl⟩
  · exact List.inj_on_of_nodup_map (by rw [namedCodes]; exact distinct) ha hb same
  · rw [unnamedCode] at same
    exact absurd (same ▸ namedToByte ha) other'
  · rw [unnamedCode] at same
    exact absurd (same ▸ namedToByte hb) other
  · simp only [unnamedCode] at same
    subst same
    rfl

theorem ofByteToByte (e : ε) : ofByte (toByte e) = e := toByteInjective (toByteOfByte _)

end EnumClass
open EnumClass (toByte ofByte)

def commandCodes : List UInt8 :=
  ['I','A','D','X','B','E','R','C','Z','P','Q','S','G','F','H','K'].map ascii

inductive Command where
  | initialise | activate | deactivate | getState
  | getContextType | execute | reset
  | onError | getProfile | inportProfile | outportProfile
  | sendData | receiveData
  | packetError | packetErrorChecksum | packetErrorTimeout
  | unnamed (code : UInt8) (other : code ∉ commandCodes)
  deriving DecidableEq

instance : EnumClass Command where
  toByte
    | .initialise => ascii 'I' | .activate => ascii 'A' | .deactivate => ascii 'D' | .getState => ascii 'X'
    | .getContextType => ascii 'B' | .execute => ascii 'E' | .reset => ascii 'R'
    | .onError => ascii 'C' | .getProfile => ascii 'Z' | .inportProfile => ascii 'P'
    | .outportProfile => ascii 'Q' | .sendData => ascii 'S' | .receiveData => ascii 'G'
    | .packetError => ascii 'F' | .packetErrorChecksum => ascii 'H' | .packetErrorTimeout => ascii 'K'
    | .unnamed code _ => code
  named := [.initialise,.activate,.deactivate,.getState,.getContextType,.execute,.reset,.onError,
    .getProfile,.inportProfile,.outportProfile,.sendData,.receiveData,
    .packetError,.packetErrorChecksum,.packetErrorTimeout]
  codes := commandCodes
  unnamed := .unnamed
  namedCodes := rfl
  distinct := by decide
  unnamedCode _ _ := rfl
  exhaustive e := by cases e <;> simp; assumption

def resultCodes : List UInt8 :=
  [ascii '@',ascii 'x',ascii '!',1,2,3,4,ascii 'H',ascii 'F',ascii 'D',ascii 'I',
    ascii 'S',ascii 'T',ascii 'U',ascii 'C']

inductive Result where
  | ok | err | none
  | timeout | dataTimeout | checksumError | notAvailable
  | invalidPrestate | inportNotFound | outportNotFound | outportBufferEmpty
  | packetStartTimeout | packetHeaderTimeout | packetBodyTimeout | packetChecksumTimeout
  | unnamed (code : UInt8) (other : code ∉ resultCodes)
  deriving DecidableEq

instance : EnumClass Result where
  toByte
    | .ok => ascii '@' | .err => ascii 'x' | .none => ascii '!'
    | .timeout => 1 | .dataTimeout => 2 | .checksumError => 3 | .notAvailable => 4
    | .invalidPrestate => ascii 'H' | .inportNotFound => ascii 'F'
    | .outportNotFound => ascii 'D' | .outportBufferEmpty => ascii 'I'
    | .packetStartTimeout => ascii 'S' | .packetHeaderTimeout => ascii 'T'
    | .packetBodyTimeout => ascii 'U' | .packetChecksumTimeout => ascii 'C'
    | .unnamed code _ => code
  named := [.ok,.err,.none,.timeout,.dataTimeout,.checksumError,.notAvailable,.invalidPrestate,
    .inportNotFound,.outportNotFound,.outportBufferEmpty,
    .packetStartTimeout,.packetHeaderTimeout,.packetBodyTimeout,.packetChecksumTimeout]
  codes := resultCodes
  unnamed := .unnamed
  namedCodes := rfl
  distinct := by decide
  unnamedCode _ _ := rfl
  exhaustive e := by cases e <;> simp; assumption

structure ResultT (α : Type) where
  value : Option α
  result : Result
  deriving DecidableEq

def ResultT.ofValue {α : Type} (value : α) : ResultT α := ⟨some value,.ok⟩
def ResultT.ofResult {α : Type} (result : Result) : ResultT α := ⟨Option.none,result⟩

def packetHeaderSize : UInt8 := 3

/- `packet_t`. The length byte of `m_pData` is the length of the data, which the
constructor takes as a `uint8_t`. -/
structure Packet where
  command : Command
  result : Result
  data : Bytes
  fits : data.length < 256
  deriving DecidableEq

namespace Packet

theorem noData : ([] : Bytes).length < 256 := by decide

def initialise (command : Command) (result : Result) (data : Bytes) (size : UInt8) : Packet where
  command := command
  result := result
  data := data.take size.toNat
  fits := by
    have := size.toNat_lt
    simp only [List.length_take]
    omega

def getDataLength (p : Packet) : UInt8 := UInt8.ofNat p.data.length

def serialize (p : Packet) : Bytes :=
  toByte p.command :: toByte p.result :: p.getDataLength :: p.data

def getPacketLength (p : Packet) : UInt8 := packetHeaderSize + p.getDataLength

def sumBytes (raw : Bytes) : UInt8 := raw.foldl (· + ·) 0

def getSum (p : Packet) : UInt8 := sumBytes (p.serialize.take p.getPacketLength.toNat)

theorem dataLength (p : Packet) : p.getDataLength.toNat = p.data.length := by
  simp only [getDataLength, UInt8.toNat_ofNat']
  exact Nat.mod_eq_of_lt p.fits

theorem serializeLength (p : Packet) : p.serialize.length = 3 + p.data.length := by
  simp only [serialize, List.length_cons]
  omega

theorem packetLength (p : Packet) : p.getPacketLength.toNat = (3 + p.data.length) % 256 := by
  simp only [getPacketLength, UInt8.toNat_add, dataLength]
  rfl

theorem packetLengthExact {p : Packet} :
    p.getPacketLength.toNat = 3 + p.data.length ↔ p.data.length ≤ 252 := by
  have := p.fits
  rw [packetLength]
  omega

theorem summedAll {p : Packet} (small : p.data.length ≤ 252) :
    p.serialize.take p.getPacketLength.toNat = p.serialize := by
  rw [packetLengthExact.mpr small, ← serializeLength]
  exact List.take_length

theorem getSumSmall {p : Packet} (small : p.data.length ≤ 252) : p.getSum = sumBytes p.serialize := by
  rw [getSum, summedAll small]

theorem foldSum (raw : Bytes) (start : UInt8) : raw.foldl (· + ·) start = start + sumBytes raw := by
  induction raw generalizing start with
  | nil => simp [sumBytes]
  | cons b rest ih =>
    simp only [sumBytes, List.foldl_cons]
    rw [ih, ih (0 + b), UInt8.zero_add, UInt8.add_assoc]

theorem sumCons (b : UInt8) (raw : Bytes) : sumBytes (b :: raw) = b + sumBytes raw := by
  simp only [sumBytes, List.foldl_cons]
  rw [foldSum, UInt8.zero_add, sumBytes]

theorem sumSet {raw : Bytes} {i : Nat} {b old : UInt8} (found : raw[i]? = some old) (different : b ≠ old) :
    sumBytes (raw.set i b) ≠ sumBytes raw := by
  induction raw generalizing i with
  | nil => simp at found
  | cons head tail ih =>
    cases i with
    | zero =>
      have same : head = old := by simpa using found
      subst same
      simpa [sumCons] using different
    | succ i =>
      have inside := ih (i := i) (by simpa using found)
      simpa [sumCons] using inside

theorem serializeInjective {p q : Packet} {left right : Bytes}
    (same : p.serialize ++ left = q.serialize ++ right) : p = q ∧ left = right := by
  simp only [serialize, List.cons_append, List.cons.injEq] at same
  obtain ⟨command, result, length, rest⟩ := same
  have lengths : p.data.length = q.data.length := by
    rw [← dataLength, ← dataLength, length]
  obtain ⟨data, tails⟩ := List.append_inj rest lengths
  refine ⟨?_, tails⟩
  cases p
  cases q
  simp only [mk.injEq]
  exact ⟨EnumClass.toByteInjective command, EnumClass.toByteInjective result, data⟩

end Packet
end RTno2Proxy
