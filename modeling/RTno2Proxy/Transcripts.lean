import RTno2Proxy.Handovers
import RTno2Proxy.Sequences

/-! Transcripts of the console. The replies of the calls that a command makes decide which further calls
it makes and which line it prints, and so the replies of a board in step decide a whole dialogue. -/
namespace RTno2Proxy

namespace Commands
open Imperative
open Interactive (word strsplit)
variable {α : Type} {setting : Setting} {floats : Floats} {object : Nat → UInt8} {w t : Line}

inductive Reads (T : ValueType) : Result × Bytes × UInt8 → ResultT Bytes → Prop where
  | value {raw rest : Bytes} {count : UInt8} (size : raw.length = T.sizeof) (whole : count.toNat = T.sizeof) :
      Reads T (.ok,raw ++ rest,count) (.ofValue raw)
  | refused {r : Result} (raw : Bytes) (count : UInt8) (bad : r ≠ .ok) : Reads T (r,raw,count) (.ofResult r)

section Dialogue
variable {objects : Nat → Nat → UInt8}

section Transmits
variable {σ : Type} {h : Host σ} {l : Link σ}

end Transmits

def demoTyped : Bytes :=
  word " getstate" ++ ascii '\n' :: ([] ++ ascii '\n' :: (word "print o now" ++ ascii '\n' :: (word "inject a 7" ++ ascii '\n' ::
    (word "help" ++ ascii '\n' :: (word "exit" ++ ascii '\n' :: word "left")))))

end Dialogue

end Commands
end RTno2Proxy
