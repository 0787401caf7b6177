import RTno2Proxy.Tokens
import RTno2Proxy.Print

/-! A sequence of `int32_t` on its way from the bytes of a reply to the text that `print` shows,
and from that text to the values that `inject` sends. -/
namespace RTno2Proxy
namespace Commands
open Imperative
open Interactive (word)
open Protocol (Delivers outportRequest intoEach intoVec)

def IsInt32 (value : Int) : Prop := -2 ^ 31 ≤ value ∧ value < 2 ^ 31
instance (value : Int) : Decidable (IsInt32 value) := by unfold IsInt32; infer_instance

section Loops
variable {α : Type}

theorem atoisLoop (str : Bytes) (delim : Char) (func : Bytes → α) :
    Tokens.collect (ascii delim) func str = atois str delim func := Tokens.collectTokens func str

/- The loop of `strjoin`, from the item at index `i` on. `v.size()-1` is unsigned, but the loop is
not entered where it wraps. -/
def strjoinFrom (size : Nat) : Nat → List Bytes → Bytes
  | _, [] => []
  | i, item :: rest => item ++ (if i ≠ size - 1 then [ascii ','] else []) ++ strjoinFrom size (i + 1) rest

def strjoinLoop (v : List Bytes) : Bytes := strjoinFrom v.length 0 v

theorem strjoinFromRest {size i : Nat} {rest : List Bytes} (left : i + rest.length = size) :
    strjoinFrom size i rest = strjoin rest := by
  induction rest generalizing i with
  | nil => rfl
  | cons item rest ih =>
    rw [List.length_cons] at left
    rw [strjoinFrom,ih (by omega)]
    cases rest with
    | nil =>
      rw [List.length_nil] at left
      rw [if_neg (by omega)]
      simp [strjoin]
    | cons later rest =>
      rw [List.length_cons] at left
      rw [if_pos (by omega)]
      simp [strjoin]

theorem strjoinLoops (v : List Bytes) : strjoinLoop v = strjoin v := strjoinFromRest (Nat.zero_add _)

end Loops

section Bytes

theorem emodMul (value : Int) (n : Nat) : value % 256 ^ (n + 1) = value % 256 + 256 * (value / 256 % 256 ^ n) := by
  have power : (0 : Int) < 256 ^ n := Int.pow_pos (by decide)
  have high := Int.emod_nonneg (value / 256) (Int.ne_of_gt power)
  have highSmall := Int.emod_lt_of_pos (value / 256) power
  have again := Int.emod_add_mul_ediv (value / 256) (256 ^ n)
  have split : value % 256 + 256 * (value / 256 % 256 ^ n) + 256 * 256 ^ n * (value / 256 / 256 ^ n) = value := by
    rw [Int.mul_assoc]
    omega
  rw [Int.pow_succ,Int.mul_comm]
  exact ((Int.ediv_emod_unique (Int.mul_pos (by decide) power)).mpr ⟨split,by omega,by omega⟩).2

theorem unsignedLittleEndian (n : Nat) (value : Int) : (unsigned (littleEndian n value) : Int) = value % 256 ^ n := by
  induction n generalizing value with
  | zero => simp [littleEndian,unsigned]
  | succ n ih =>
    have low := Int.emod_nonneg value (show (256 : Int) ≠ 0 by decide)
    have small := Int.emod_lt_of_pos value (show (0 : Int) < 256 by decide)
    have byte : ((UInt8.ofNat (value % 256).toNat).toNat : Int) = value % 256 := by
      rw [UInt8.toNat_ofNat']
      omega
    rw [littleEndian,unsigned,Int.natCast_add,Int.natCast_mul,byte,ih,emodMul]
    rfl

theorem int32RoundTrip {value : Int} (int : IsInt32 value) : int32Of (int32Bytes value) = value := by
  have code : int32Bytes value = littleEndian 4 value := rfl
  have power : (256 : Int) ^ 4 = (2 ^ 32 : Nat) := by decide
  obtain ⟨low,high⟩ := int
  unfold int32Of
  rw [code,unsignedLittleEndian,power,Int.emod_bmod]
  exact Int.bmod_eq_of_le (by omega) (by omega)

theorem int32sRoundTrip {values : List Int} (ints : ∀ value ∈ values, IsInt32 value) :
    (values.map int32Bytes).map int32Of = values := by
  rw [List.map_map]
  refine (List.map_congr_left fun value inside => ?_).trans (List.map_id values)
  rw [Function.comp_apply,int32RoundTrip (ints value inside)]
  rfl

theorem encodingsLength (values : List Int) : (values.flatMap int32Bytes).length = 4 * values.length := by
  induction values with
  | nil => rfl
  | cons value values ih =>
    rw [List.flatMap_cons,List.length_append,ih,int32Bytes,littleEndianLength,List.length_cons]
    exact (Nat.mul_add_one 4 _ |>.trans (Nat.add_comm _ _)).symm

theorem intoEachReturns {σ : Type} (h : Host σ) (values : List Int) {before : Bytes} (rest : Bytes) {i : Nat}
    (place : before.length = i * ValueType.int32.sizeof) (s : σ) :
    (intoEach h .int32 (before ++ (values.flatMap int32Bytes ++ rest)) i values.length).Returns s (values.map int32Bytes) s := by
  induction values generalizing before i with
  | nil => exact Program.returnsPure.mpr ⟨rfl,rfl⟩
  | cons value values ih =>
    have encoding : (int32Bytes value).length = ValueType.int32.sizeof := littleEndianLength _ _
    have further : (before ++ int32Bytes value).length = (i + 1) * ValueType.int32.sizeof := by
      rw [List.length_append,place,encoding,Nat.add_one_mul]
    have later := ih further
    rw [List.append_assoc,← List.append_assoc (int32Bytes value),← List.flatMap_cons] at later
    have read : Protocol.peek ((before ++ ((value :: values).flatMap int32Bytes ++ rest)).drop (i * ValueType.int32.sizeof))
        ValueType.int32.sizeof = .ok (int32Bytes value) := by
      rw [List.drop_left' place,List.flatMap_cons,List.append_assoc,Protocol.peek,List.take_left' encoding,if_pos]
      rw [List.length_append,encoding]
      exact Nat.le_add_right _ _
    exact Program.returnsBind.mpr ⟨_,s,Program.returnsLift.mpr ⟨read,rfl⟩,
      Program.returnsBind.mpr ⟨_,s,later,Program.returnsPure.mpr ⟨rfl,rfl⟩⟩⟩

theorem intoVecReturns {σ : Type} (h : Host σ) {values : List Int} {extra : Bytes} (rest : Bytes) {size : UInt8}
    (few : extra.length ≤ 3) (length : size.toNat = (values.flatMap int32Bytes ++ extra).length) (s : σ) :
    (intoVec h .int32 (values.flatMap int32Bytes ++ extra ++ rest) size).Returns s (values.map int32Bytes) s := by
  have count : size.toNat / ValueType.int32.sizeof = values.length := by
    rw [length,List.length_append,encodingsLength]
    change (4 * values.length + extra.length) / 4 = values.length
    omega
  rw [intoVec,count,List.append_assoc]
  exact @intoEachReturns σ h values [] (extra ++ rest) 0 rfl s

end Bytes

section Digits

theorem digitBounds {b : UInt8} : isDigit b = true ↔ 48 ≤ b.toNat ∧ b.toNat ≤ 57 := decide_eq_true_iff

theorem digitNoSpace {b : UInt8} (digit : isDigit b = true) : isSpace b = false := by
  obtain ⟨low,high⟩ := digitBounds.mp digit
  refine decide_eq_false fun space => ?_
  rcases space with rfl | ⟨_,small⟩
  · exact absurd low (by decide)
  · have bound : b.toNat ≤ 13 := UInt8.le_iff_toNat_le.mp small
    omega

theorem digitByte {c : Char} (digit : c.isDigit = true) : (ascii c).toNat = c.toNat ∧ isDigit (ascii c) = true := by
  simp only [Char.isDigit,Bool.and_eq_true,decide_eq_true_eq] at digit
  have low : 48 ≤ c.toNat := UInt32.le_iff_toNat_le.mp digit.1
  have high : c.toNat ≤ 57 := UInt32.le_iff_toNat_le.mp digit.2
  have byte : (ascii c).toNat = c.toNat := by
    rw [ascii,UInt8.toNat_ofNat']
    omega
  exact ⟨byte,digitBounds.mpr (by omega)⟩

def magnitude (n : Nat) : Bytes := (Nat.toDigits 10 n).map ascii

theorem magnitudeDigits {n : Nat} {b : UInt8} (inside : b ∈ magnitude n) : isDigit b = true := by
  obtain ⟨c,digit,rfl⟩ := List.mem_map.mp inside
  exact (digitByte (Nat.isDigit_of_mem_toDigits (by decide) (Nat.le_refl 10) digit)).2

theorem magnitudeFilled (n : Nat) : magnitude n ≠ [] := fun empty => Nat.toDigits_ne_nil (List.map_eq_nil_iff.mp empty)

theorem magnitudeValue (n : Nat) : digitsValue (magnitude n) = n := by
  have digits : ∀ sofar, ∀ c ∈ Nat.toDigits 10 n,
      10 * sofar + ((ascii c).toNat - (ascii '0').toNat) = 10 * sofar + (c.toNat - '0'.toNat) := by
    intro sofar c digit
    rw [(digitByte (Nat.isDigit_of_mem_toDigits (by decide) (Nat.le_refl 10) digit)).1]
    rfl
  rw [digitsValue,magnitude,List.foldl_map]
  refine (List.foldl_ext _ _ _ digits).trans ?_
  rw [← Nat.ofDigitChars_eq_foldl,Nat.ofDigitChars_ten_toDigits]

theorem strtolDigits {digits : Bytes} (all : ∀ b ∈ digits, isDigit b = true) :
    strtol (ascii '-' :: digits) = max longMin (min longMax (-digitsValue digits)) ∧
      strtol digits = max longMin (min longMax (digitsValue digits)) := by
  have whole : digits.takeWhile isDigit = digits := List.takeWhile_eq_self_iff.mpr all
  constructor
  · have kept : (ascii '-' :: digits).dropWhile isSpace = ascii '-' :: digits := List.dropWhile_cons_of_neg (by decide)
    unfold strtol
    simp only [kept,List.head?_cons,List.tail_cons,true_or,if_true,whole]
  · cases digits with
    | nil => rfl
    | cons b rest =>
      have digit := all b List.mem_cons_self
      have kept : (b :: rest).dropWhile isSpace = b :: rest :=
        List.dropWhile_cons_of_neg (by rw [digitNoSpace digit]; exact Bool.false_ne_true)
      have unsigned : b ≠ ascii '-' ∧ b ≠ ascii '+' :=
        ⟨by rintro rfl; exact absurd digit (by decide),by rintro rfl; exact absurd digit (by decide)⟩
      unfold strtol
      simp only [kept,List.head?_cons,Option.some.injEq,unsigned,or_self,if_false,whole]

theorem atoiDecimal {value : Int} (int : IsInt32 value) : atoi (decimal value) = value := by
  obtain ⟨low,high⟩ := int
  have digits := @strtolDigits (magnitude value.natAbs) fun _ inside => magnitudeDigits inside
  rw [magnitudeValue] at digits
  have read : strtol (decimal value) = value := by
    unfold longMin longMax at digits
    rw [decimal,← magnitude]
    split
    · rw [digits.1]
      omega
    · rw [digits.2]
      omega
  rw [atoi,read]
  exact Int.bmod_eq_of_le (by omega) (by omega)

theorem decimalByte {value : Int} {b : UInt8} (inside : b ∈ decimal value) : b = ascii '-' ∨ isDigit b = true := by
  rw [decimal,← magnitude] at inside
  split at inside
  · exact (List.mem_cons.mp inside).imp_right magnitudeDigits
  · exact .inr (magnitudeDigits inside)

theorem decimalItem (value : Int) : decimal value ≠ [] ∧ ascii ',' ∉ decimal value ∧ cStr (decimal value) = decimal value := by
  refine ⟨?_,fun inside => ?_,List.takeWhile_eq_self_iff.mpr fun b inside => decide_eq_true ?_⟩
  · rw [decimal,← magnitude]
    split
    · exact List.cons_ne_nil _ _
    · exact magnitudeFilled _
  · rcases decimalByte inside with bad | bad <;> exact absurd bad (by decide)
  · rintro rfl
    rcases decimalByte inside with bad | bad <;> exact absurd bad (by decide)

theorem typedJoined {values : List Int} (ints : ∀ value ∈ values, IsInt32 value) :
    typedItems (strjoin (values.map decimal)) = values := by
  have items : ∀ item ∈ values.map decimal, item ≠ [] ∧ ascii ',' ∉ item := by
    intro item inside
    obtain ⟨value,_,rfl⟩ := List.mem_map.mp inside
    exact ⟨(decimalItem value).1,(decimalItem value).2.1⟩
  rw [typedItems,← atoisLoop,Tokens.collectTokens,strjoin,Tokens.tokensIntercalate items,List.map_map]
  refine (List.map_congr_left fun value inside => ?_).trans (List.map_id values)
  rw [Function.comp_apply,(decimalItem value).2.2,atoiDecimal (ints value inside)]
  rfl

end Digits

section Shown
variable {setting : Setting} {floats : Floats} {nameStr : Bytes} {w u t : Line} {prof : Profile}

theorem printPortsFirst {σ : Type} {h : Host σ} {ports : List PortProfile} {port : PortProfile} {returned : Act σ Bytes}
    (first : ports.find? (·.name = nameStr) = some port)
    (branch : printPort h floats nameStr port.typecode = some returned) : printPorts h floats nameStr ports = returned := by
  induction ports with
  | nil => cases first
  | cons other rest ih =>
    by_cases named : other.name = nameStr
    · have found : other = port := by simpa [named] using first
      rw [printPorts,if_pos named,found,branch]
    · have later : rest.find? (·.name = nameStr) = some port := by simpa [named] using first
      rw [printPorts,if_neg named,ih later]

structure Carries (setting : Setting) (nameStr raw : Bytes) (u : Line) (p : Packet) (t : Line) : Prop where
  fits : 2 + nameStr.length ≤ Protocol.bufferSize
  delivered : Delivers setting (1000 * 1000) (u.sent setting (outportRequest (setting.scratch 1) nameStr)) p t
  command : p.command = .receiveData
  ok : p.result = .ok
  layout : ∃ more, p.data = UInt8.ofNat nameStr.length :: UInt8.ofNat raw.length :: (nameStr ++ raw ++ more)

theorem receiveSeqReturns {values : List Int} {extra : Bytes} {p : Packet} (few : extra.length ≤ 3)
    (carries : Carries setting nameStr (values.flatMap int32Bytes ++ extra) u p t) :
    (Protocol.receiveSeqAs (Line.host setting) .int32 nameStr).Returns u (.ofValue (values.map int32Bytes)) t := by
  obtain ⟨fits,delivered,command,ok,more,layout⟩ := carries
  have room := p.fits
  rw [layout,List.length_cons,List.length_cons,List.length_append,List.length_append] at room
  have nameSize : (UInt8.ofNat nameStr.length).toNat = nameStr.length := Protocol.smallSize (by omega)
  have size : (UInt8.ofNat (values.flatMap int32Bytes ++ extra).length).toNat = (values.flatMap int32Bytes ++ extra).length := by
    rw [UInt8.toNat_ofNat']
    omega
  have signed : (UInt8.ofNat nameStr.length).toNat < 128 := by
    rw [nameSize]
    unfold Protocol.bufferSize at fits
    omega
  have within := UInt8.not_lt.mp (Protocol.withinMaximum (UInt8.ofNat (values.flatMap int32Bytes ++ extra).length))
  have buffer : ((List.range Protocol.maxPacketSize.toNat).map setting.scratch).length = 255 := by simp; rfl
  have copied := copyOutCarries setting more layout nameSize.symm signed size.symm within
    (show _ ≤ ((List.range Protocol.maxPacketSize.toNat).map setting.scratch).length by omega) t
  rw [ok] at copied
  have waited := Protocol.waitDelivered (c := .receiveData) delivered
  rw [Protocol.awaited,if_pos command] at waited
  refine Program.returnsBind.mpr ⟨_,u,Transport.scratchReturns.mpr ⟨rfl,rfl⟩,Program.returnsBind.mpr
    ⟨_,u,Transport.scratchReturns.mpr ⟨rfl,rfl⟩,Program.returnsBind.mpr ⟨_,t,
      (Protocol.receiveOutportFits setting _ _ _ _ _ fits).mpr (Program.returnsBind.mpr ⟨_,t,waited,copied⟩),?_⟩⟩⟩
  rw [if_pos rfl]
  exact Program.returnsBind.mpr ⟨_,t,intoVecReturns (Line.host setting) _ few size t,Program.returnsPure.mpr ⟨rfl,rfl⟩⟩

def Shows (setting : Setting) (nameStr raw : Bytes) (w t : Line) : Prop :=
  ∃ prof u port p, Queried setting w prof u ∧ prof.outports.find? (·.name = nameStr) = some port ∧
    port.typecode = .timedLongSeq ∧ Carries setting nameStr raw u p t

theorem printShown (floats : Floats) {values : List Int} {extra : Bytes} (ints : ∀ value ∈ values, IsInt32 value)
    (few : extra.length ≤ 3) (shows : Shows setting nameStr (values.flatMap int32Bytes ++ extra) w t) :
    (print (Line.host setting) floats nameStr).Returns w
      (word "RESULT::OK([" ++ strjoin (values.map decimal) ++ word "])") t := by
  obtain ⟨prof,u,port,p,queried,first,sequence,carries⟩ := shows
  have text : (values.map int32Bytes).map (valueText floats .int32) = values.map decimal := by
    have same : valueText floats .int32 = decimal ∘ int32Of := funext fun raw => by rw [valueText,Function.comp_apply]
    rw [same,← List.map_map,int32sRoundTrip ints]
  refine (printQueried queried _ _).mpr ?_
  rw [printPortsFirst first (by rw [sequence]; rfl)]
  refine Program.returnsBind.mpr ⟨_,t,receiveSeqReturns few carries,?_⟩
  rw [resultTToString,if_pos (show (ResultT.ofValue (values.map int32Bytes)).result = .ok from rfl)]
  refine Program.returnsBind.mpr ⟨_,t,Protocol.valueReturns.mpr ⟨rfl,rfl⟩,Program.returnsPure.mpr ⟨?_,rfl⟩⟩
  have opened : word "RESULT::OK([" = word "RESULT::OK(" ++ word "[" := rfl
  have closed : word "])" = word "]" ++ word ")" := rfl
  rw [seqText,text,opened,closed]
  simp only [List.append_assoc]

def Decodes (values : List Int) (extra : Bytes) : Prop :=
  ∀ (σ : Type) (h : Host σ) (rest : Bytes) (s : σ), ∃ raw,
    (intoVec h .int32 (values.flatMap int32Bytes ++ extra ++ rest)
      (UInt8.ofNat (values.flatMap int32Bytes ++ extra).length)).Returns s raw s ∧ raw.map int32Of = values

def ShownBack (values : List Int) (extra : Bytes) : Prop :=
  ∀ (setting : Setting) (floats : Floats) (nameStr : Bytes) (w t : Line),
    Shows setting nameStr (values.flatMap int32Bytes ++ extra) w t →
      ∃ text, (print (Line.host setting) floats nameStr).Returns w (word "RESULT::OK([" ++ text ++ word "])") t ∧
        typedItems text = values

theorem sequenceRoundTrip {values : List Int} {extra : Bytes} (ints : ∀ value ∈ values, IsInt32 value)
    (count : values.length ≤ 63) (few : extra.length ≤ 3) : Decodes values extra ∧
      Tokens.collect (ascii ',') (fun s => atoi (cStr s)) (strjoinLoop (values.map decimal)) = values ∧
      ShownBack values extra := by
  have joined := typedJoined ints
  refine ⟨fun σ h rest s => ⟨values.map int32Bytes,?_,?_⟩,?_,fun setting floats nameStr w t shows => ?_⟩
  · refine intoVecReturns h rest few ?_ s
    rw [UInt8.toNat_ofNat',List.length_append,encodingsLength]
    omega
  · exact int32sRoundTrip ints
  · rw [strjoinLoops,atoisLoop]
    exact joined
  · exact ⟨_,printShown floats ints few shows,joined⟩

def sequenceReply : Packet := ⟨.receiveData,.ok,1 :: 9 :: ascii 'o' :: ([7,-2].flatMap int32Bytes ++ [9]),by decide⟩

def sequenceBoard : Setting :=
  {Setting.silent with reply := fun requests =>
    if requests.getLast?.map Packet.command = some .receiveData then sequenceReply.frame
    else (announcing [outPort 'L']).reply requests}

set_option maxRecDepth 4000 in
theorem sequenceRoundTripTwo : Decodes [7,-2] [9] ∧ ∃ t text,
    (print (Line.host sequenceBoard) noFloats [ascii 'o']).Returns .idle (word "RESULT::OK([" ++ text ++ word "])") t ∧
      typedItems text = [7,-2] := by
  obtain ⟨decodes,_,shown⟩ := @sequenceRoundTrip [7,-2] [9] (by decide) (by decide) (by decide)
  have queried : Queried sequenceBoard .idle (Protocol.announced [outPort 'L']) Protocol.profileAsked := ⟨9,rfl⟩
  have carries : ∃ t, Carries sequenceBoard [ascii 'o'] ([7,-2].flatMap int32Bytes ++ [9]) Protocol.profileAsked sequenceReply t :=
    ⟨_,⟨by decide,⟨_,⟨9,rfl⟩,⟨9,rfl⟩⟩,rfl,rfl,⟨[],by decide⟩⟩⟩
  obtain ⟨t,carries⟩ := carries
  exact ⟨decodes,t,shown sequenceBoard noFloats [ascii 'o'] .idle t ⟨_,_,_,_,queried,rfl,rfl,carries⟩⟩

end Shown

end Commands
end RTno2Proxy
