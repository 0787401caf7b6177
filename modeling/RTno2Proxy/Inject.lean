import RTno2Proxy.Commands
import RTno2Proxy.Profiles
import RTno2Proxy.PortReads

/-! What `inject` has done when it returns: the frames it has handed over, the reply behind its
result, and the bytes of a sequence. -/
namespace RTno2Proxy
open Imperative

structure Handed (w t : Line) (frames : List Packet) : Prop where
  small : ∀ p ∈ frames, p.data.length ≤ 252
  written : t.written = w.written ++ frames.flatMap Packet.frame

namespace Handed
variable {w u t : Line}

theorem nothing (w : Line) : Handed w w [] := ⟨by simp,by simp⟩

theorem more {frames : List Packet} {p : Packet} (before : Handed w u frames) (small : p.data.length ≤ 252)
    (written : t.written = u.written ++ p.frame) : Handed w t (frames ++ [p]) where
  small := List.forall_mem_append.mpr ⟨before.small,List.forall_mem_singleton.mpr small⟩
  written := by rw [written,before.written,List.flatMap_append,List.flatMap_singleton,List.append_assoc]

theorem unique {ps qs : List Packet} (left : Handed w t ps) (right : Handed w t qs) : ps = qs := by
  have framed (p : Packet) (rest : Bytes) : p.frame ++ rest ≠ [] := by simp [Packet.frame,Transport.startMarker]
  have same : ps.flatMap Packet.frame = qs.flatMap Packet.frame :=
    List.append_cancel_left (left.written.symm.trans right.written)
  have small := left.small
  have short := right.small
  clear left right
  induction ps generalizing qs with
  | nil =>
    cases qs with
    | nil => rfl
    | cons q qs => exact absurd same.symm (framed q _)
  | cons p ps ih =>
    cases qs with
    | nil => exact absurd same (framed p _)
    | cons q qs =>
      obtain ⟨smallHead,smallTail⟩ := List.forall_mem_cons.mp small
      obtain ⟨shortHead,shortTail⟩ := List.forall_mem_cons.mp short
      rw [List.flatMap_cons,List.flatMap_cons,Packet.frameSmall smallHead,Packet.frameSmall shortHead] at same
      simp only [List.append_assoc] at same
      obtain ⟨rfl,rest⟩ := Packet.serializeInjective (List.append_cancel_left same)
      rw [ih (List.append_cancel_left rest) smallTail shortTail]

end Handed

def SendsOnly (w t : Line) (p : Packet) : Prop := ∃ frames, Handed w t frames ∧ frames.filter (·.command = .sendData) = [p]

theorem sendsOnlyUnique {w t : Line} {p q : Packet} (left : SendsOnly w t p) (right : SendsOnly w t q) : p = q := by
  obtain ⟨ps,handed,one⟩ := left
  obtain ⟨qs,again,other⟩ := right
  rw [handed.unique again,other] at one
  exact (List.singleton_inj.mp one).symm

namespace Protocol
variable {setting : Setting} {waitUsec : UInt32}

def profileRequests (k : Nat) : List Packet := List.replicate k (command .getProfile)

theorem profileRequestsData (k : Nat) : (profileRequests k).filter (·.command = .sendData) = [] := by
  refine List.filter_eq_nil_iff.mpr fun p member => ?_
  rw [List.eq_of_mem_replicate member]
  decide

theorem profileAttemptHanded {w u t : Line} {k : Nat} {out : Option (ResultT Profile)} (before : Handed w u (profileRequests k))
    (h : (profileAttempt (Line.host setting) waitUsec).Returns u out t) : Handed w t (profileRequests (k + 1)) := by
  obtain ⟨_,x,sent,loop⟩ := Program.returnsBind.mp h
  obtain ⟨_,rfl⟩ := Program.returnsUnique sent (profileSent setting u)
  obtain ⟨_,took⟩ := getProfileLoopTook loop
  rw [profileRequests,List.replicate_succ']
  exact before.more (Nat.zero_le _) (sentWritten took)

theorem profileHanded {retryCount : Int} {w t : Line} {out : ResultT Profile}
    (h : (getProfile (Line.host setting) waitUsec retryCount).Returns w out t) : ∃ k, Handed w t (profileRequests k) := by
  have attempts : (Program.attempts (profileAttempt (Line.host setting) waitUsec) (.ofResult .timeout) retryCount.toNat).Returns
      w out t := h
  have failures (u v : Line) (before : ∃ k, Handed w u (profileRequests k))
      (failed : (profileAttempt (Line.host setting) waitUsec).Returns u none v) : ∃ k, Handed w v (profileRequests k) := by
    obtain ⟨k,asked⟩ := before
    exact ⟨k + 1,profileAttemptHanded asked failed⟩
  rcases Program.attemptsRule _ failures ⟨0,.nothing w⟩ attempts with ⟨_,asked⟩ | ⟨u,⟨k,asked⟩,last⟩
  · exact asked
  · exact ⟨k + 1,profileAttemptHanded asked last⟩

theorem sendsOnlyLast {w u t : Line} {k : Nat} {p : Packet} (before : Handed w u (profileRequests k))
    (small : p.data.length ≤ 252) (written : t.written = u.written ++ p.frame) (command : p.command = .sendData) :
    SendsOnly w t p := by
  refine ⟨_,before.more small written,?_⟩
  rw [List.filter_append,profileRequestsData,List.nil_append,List.filter_singleton,decide_eq_true command,cond_true]

theorem waitEnds (setting : Setting) (c : Command) (finite : waitUsec ≠ Transport.uint32Max) (w : Line) :
    (waitAndReceiveCommand (Line.host setting) c waitUsec).Ends w := by
  refine Program.endsBind (Transport.isNewEnds setting waitUsec (.inr finite)) fun found u _ => ?_
  split
  · refine Program.endsBind (Transport.receiveEnds setting waitUsec (.inr finite)) fun out v received => ?_
    split
    · exact Program.endsPure _ _
    · rename_i ok
      rcases Transport.receiveCoupled received with ⟨p,rfl⟩ | ⟨failed,bad,rfl⟩
      · refine Program.endsBind (Program.endsPure p v) fun pac x _ => ?_
        split
        · exact Program.endsPure _ _
        · split <;> exact Program.endsPure _ _
      · exact absurd (not_not.mp ok) bad
  · exact Program.endsPure _ _

theorem valueHalts {α : Type} (result : ResultT α) (w : Line) : (value result : Act Line α).Halts w := by
  unfold value
  split
  · exact Program.haltsPure _ _
  · exact Program.haltsStep _ _

theorem sendInportEvaluates (setting : Setting) (waitUsec : UInt32) (retryCount : Int) {portName data : Bytes}
    {length : UInt8} (w : Line) (finite : waitUsec ≠ Transport.uint32Max) (given : length.toNat ≤ data.length)
    (fits : 2 + portName.length + length.toNat ≤ bufferSize) :
    ∃ v t, (sendInportData (Line.host setting) portName data length waitUsec retryCount).Evaluates w v t ∧
      t.written = w.written ++ (inportRequest portName data length).frame := by
  have answered : (answer (Line.host setting) .sendData waitUsec ownResult .err).Halts
      (w.sent setting (inportRequest portName data length)) := by
    refine Program.haltsBind (Program.haltsEnds (waitEnds setting .sendData finite _)) fun result u _ => ?_
    split
    · exact Program.haltsBind (valueHalts result u) fun _ _ _ => Program.haltsPure _ _
    · exact Program.haltsPure _ _
  obtain ⟨v,t,ran⟩ := answered
  have sent := (sendInportFits setting waitUsec retryCount given fits).mpr ran
  exact ⟨v,t,sent,inportWritten given fits sent⟩

theorem inportSection {portName data : Bytes} {length : UInt8} (given : length.toNat ≤ data.length)
    (fits : 2 + portName.length + length.toNat ≤ bufferSize) :
    dataSection (inportRequest portName data length) = data.take length.toNat := by
  have named : (UInt8.ofNat portName.length).toNat = portName.length := smallSize (by omega)
  rw [dataSection,inportRequestData given fits,inportPayload,List.headD_cons,named,Nat.add_comm 2]
  simp [List.take_take]

end Protocol

namespace Commands
open Interactive (strsplit word)
open Protocol (TrueLengths Delivers getProfile sendInportData profileHanded getProfileOut profileRequestsData)

section Branches
variable {σ : Type} (h : Host σ) (floats : Floats) (object : Nat → UInt8) (nameStr dataStr : Bytes)

def injected : List TypeCode :=
  [.timedBoolean,.timedChar,.timedLong,.timedFloat,.timedDouble,.timedLongSeq,.timedFloatSeq,.timedDoubleSeq]

theorem injectPortsFirst (ports : List PortProfile) : injectPorts h floats object nameStr dataStr ports =
    match ports.find? (·.name = nameStr) with
    | some port => injectPort h floats object nameStr dataStr port.typecode
    | none => pure .inportNotFound := by
  induction ports with
  | nil => rfl
  | cons port rest ih =>
    by_cases named : port.name = nameStr
    · simp [injectPorts,named]
    · simp [injectPorts,named,ih]

theorem littleEndianLength (n : Nat) (value : Int) : (littleEndian n value).length = n := by
  induction n generalizing value with
  | zero => rfl
  | succ n ih => rw [littleEndian,List.length_cons,ih]

theorem sendVectorGiven (object : Nat → UInt8) (length : UInt8) :
    length.toNat ≤ ((List.range length.toNat).map object).length := by
  simp

theorem injectPortSends {code : TypeCode} (sends : code ∈ injected) : ∃ data length,
    injectPort h floats object nameStr dataStr code = sendInportData h nameStr data length (1000 * 1000) 5 ∧
      length.toNat ≤ data.length := by
  simp only [injected,List.mem_cons,List.not_mem_nil,or_false] at sends
  rcases sends with rfl | rfl | rfl | rfl | rfl | rfl | rfl | rfl
  · exact ⟨_,_,rfl,Nat.le_refl 1⟩
  · exact ⟨_,_,rfl,Nat.le_refl 1⟩
  · exact ⟨_,_,rfl,(littleEndianLength _ _).ge⟩
  · exact ⟨_,_,rfl,(floats.floatSize _).ge⟩
  · exact ⟨_,_,rfl,(floats.doubleSize _).ge⟩
  · exact ⟨_,_,rfl,sendVectorGiven object _⟩
  · exact ⟨_,_,rfl,sendVectorGiven object _⟩
  · exact ⟨_,_,rfl,sendVectorGiven object _⟩

theorem injectPortIgnores {code : TypeCode} (ignored : code ∉ injected) :
    injectPort h floats object nameStr dataStr code = pure .ok := by
  cases code <;> first | rfl | exact absurd (by decide) ignored

end Branches

section Reports
variable {setting : Setting} {floats : Floats} {object : Nat → UInt8} {nameStr dataStr : Bytes} {w u : Line} {prof : Profile}

def Queried (setting : Setting) (w : Line) (prof : Profile) (u : Line) : Prop :=
  (getProfile (Line.host setting) (1000 * 1000) 5).Returns w (.ofValue prof) u

theorem injectQueried (queried : Queried setting w prof u) (v : Except Fault Result) (t : Line) :
    (inject (Line.host setting) floats object nameStr dataStr).Evaluates w v t ↔
      (injectPorts (Line.host setting) floats object nameStr dataStr prof.inports).Evaluates u v t := by
  refine (Program.evaluatesAfter queried).trans ?_
  exact Program.evaluatesAfter (Protocol.valueReturns.mpr ⟨rfl,rfl⟩)

/- Behind the query, the device has answered the only SEND_DATA frame, which carries the name of the
port, with a SEND_DATA reply of this result. -/
def Answered (setting : Setting) (nameStr : Bytes) (w t : Line) (result : Result) : Prop :=
  ∃ prof u p data reply, Queried setting w prof u ∧ SendsOnly w t p ∧ TrueLengths nameStr data p ∧
    Delivers setting (1000 * 1000) (u.sent setting p) reply t ∧ reply.command = .sendData ∧ reply.result = result

theorem sendAnswered {data : Bytes} {length : UInt8} {result : Result} {t : Line} (queried : Queried setting w prof u)
    (given : length.toNat ≤ data.length)
    (h : (sendInportData (Line.host setting) nameStr data length (1000 * 1000) 5).Returns u result t) :
    result = .err ∨ Answered setting nameStr w t result := by
  by_cases fits : 2 + nameStr.length + length.toNat ≤ Protocol.bufferSize
  · have ran := (Protocol.sendInportFits setting _ _ given fits).mp h
    have written := (Protocol.answerWritten ran).2
    rw [Line.sent,Line.foldWritten] at written
    rcases Protocol.answerReturns ran with ⟨failed,_⟩ | ⟨p,v,delivered,_,exited⟩
    · exact .inl failed
    · obtain ⟨q,x,present,last⟩ := Program.returnsBind.mp exited
      obtain ⟨found,rfl⟩ := Protocol.valueReturns.mp present
      obtain ⟨rfl,rfl⟩ := Program.returnsPure.mp last
      obtain ⟨own,rfl⟩ := Protocol.awaitedValue.mp found
      obtain ⟨k,before⟩ := profileHanded queried
      have only := Protocol.sendsOnlyLast before (Protocol.inportRequestSmall given fits) written rfl
      exact .inr ⟨prof,u,_,_,q,queried,only,Protocol.inportTrueLengths given fits,delivered,own,rfl⟩
  · obtain ⟨bad,_⟩ := (Protocol.sendInportOverflow setting _ _ given fits).mp h
    cases bad

structure Reports (setting : Setting) (floats : Floats) (object : Nat → UInt8) (nameStr dataStr : Bytes) (w : Line) : Prop where
  ok : ∀ t, (inject (Line.host setting) floats object nameStr dataStr).Returns w .ok t →
    Answered setting nameStr w t .ok
  missing : ∀ t, (inject (Line.host setting) floats object nameStr dataStr).Returns w .inportNotFound t →
    (∃ prof u, Queried setting w prof u ∧ ∀ port ∈ prof.inports, port.name ≠ nameStr) ∨
      Answered setting nameStr w t .inportNotFound

def Handles (prof : Profile) (nameStr : Bytes) : Prop :=
  ∀ port, prof.inports.find? (·.name = nameStr) = some port → port.typecode ∈ injected

theorem injectSource {result : Result} {t : Line} (handles : ∀ prof u, Queried setting w prof u → Handles prof nameStr)
    (h : (inject (Line.host setting) floats object nameStr dataStr).Returns w result t) :
    result ∈ [Result.err,.checksumError,.timeout] ∨ Answered setting nameStr w t result ∨
      result = .inportNotFound ∧ ∃ prof u, Queried setting w prof u ∧ ∀ port ∈ prof.inports, port.name ≠ nameStr := by
  obtain ⟨out,u,asked,rest⟩ := Program.returnsBind.mp h
  rcases getProfileOut asked with ⟨prof,rfl⟩ | ⟨failed,listed,rfl⟩
  · have queried : Queried setting w prof u := asked
    have searched := (injectQueried queried _ _).mp h
    rw [injectPortsFirst] at searched
    split at searched
    · rename_i port first
      obtain ⟨data,length,sends,given⟩ :=
        injectPortSends (Line.host setting) floats object nameStr dataStr (handles prof u queried port first)
      rw [sends] at searched
      rcases sendAnswered queried given searched with rfl | answered
      · exact .inl List.mem_cons_self
      · exact .inr (.inl answered)
    · rename_i missing
      obtain ⟨rfl,_⟩ := Program.returnsPure.mp searched
      exact .inr (.inr ⟨rfl,prof,u,queried,fun port member => by simpa using List.find?_eq_none.mp missing port member⟩)
  · rw [if_pos (by rintro rfl; simp at listed)] at rest
    obtain ⟨rfl,rfl⟩ := Program.returnsPure.mp rest
    exact .inl listed

theorem injectReports (setting : Setting) (floats : Floats) (object : Nat → UInt8) (nameStr dataStr : Bytes) (w : Line) :
    Reports setting floats object nameStr dataStr w ↔ ∀ prof u, Queried setting w prof u → Handles prof nameStr := by
  constructor
  · intro reports prof u queried port first
    by_contra ignored
    have ran : (inject (Line.host setting) floats object nameStr dataStr).Returns w .ok u := by
      refine (injectQueried queried _ _).mpr ?_
      simp only [injectPortsFirst,first,injectPortIgnores _ _ _ _ _ ignored]
      exact Program.returnsPure.mpr ⟨rfl,rfl⟩
    obtain ⟨_,_,p,_,_,_,⟨frames,handed,one⟩,_⟩ := reports.ok u ran
    obtain ⟨k,asked⟩ := profileHanded queried
    rw [handed.unique asked,profileRequestsData] at one
    cases one
  · intro handles
    constructor
    · intro t ran
      rcases injectSource handles ran with listed | answered | ⟨bad,_⟩
      · simp at listed
      · exact answered
      · cases bad
    · intro t ran
      rcases injectSource handles ran with listed | answered | ⟨_,missing⟩
      · simp at listed
      · exact .inr answered
      · exact .inl missing

def announcing (ports : List Packet) : Setting :=
  {Setting.silent with reply := fun _ => (ports ++ [Protocol.demoClosing]).flatMap Packet.frame}

def noFloats : Floats := ⟨fun _ => List.replicate 8 0,fun _ => List.replicate 4 0,fun _ _ => [],fun _ => rfl,fun _ => rfl⟩

def octetBoard : Setting := announcing [⟨.inportProfile,.ok,[ascii 'o',ascii 'a'],by decide⟩]

set_option maxRecDepth 4000 in
theorem octetSwallowed :
    (inject (Line.host octetBoard) noFloats (fun _ => 0) [ascii 'a'] [ascii '7']).Returns .idle .ok Protocol.profileAsked ∧
      Protocol.profileAsked.written = (Protocol.command .getProfile).frame ∧
      ¬ Reports octetBoard noFloats (fun _ => 0) [ascii 'a'] [ascii '7'] .idle := by
  have ran : (inject (Line.host octetBoard) noFloats (fun _ => 0) [ascii 'a'] [ascii '7']).Returns .idle .ok
      Protocol.profileAsked := ⟨9,rfl⟩
  have asked : Handed .idle Protocol.profileAsked (Protocol.profileRequests 1) := ⟨by decide,rfl⟩
  refine ⟨ran,rfl,fun reports => ?_⟩
  obtain ⟨_,_,_,_,_,_,⟨frames,handed,one⟩,_⟩ := reports.ok _ ran
  rw [handed.unique asked,profileRequestsData] at one
  cases one

def typedItems (dataStr : Bytes) : List Int := atois dataStr ',' fun s => atoi (cStr s)

def SendsTyped (setting : Setting) (floats : Floats) (object : Nat → UInt8) (nameStr dataStr : Bytes) (w : Line) : Prop :=
  ∃ v t p, (inject (Line.host setting) floats object nameStr dataStr).Evaluates w v t ∧ SendsOnly w t p ∧
    Protocol.dataSection p = (typedItems dataStr).flatMap int32Bytes

theorem strsplitNothing {str : Bytes} {delim : Char} : strsplit str delim = [] ↔ ∀ b ∈ str, b = ascii delim := by
  unfold strsplit List.splitOn
  induction str with
  | nil => simp
  | cons b rest ih =>
    rw [List.splitOnP_cons_eq_if_modifyHead,List.forall_mem_cons]
    by_cases same : b = ascii delim
    · simpa [same] using ih
    · obtain ⟨item,items,split⟩ := List.exists_cons_of_ne_nil (List.splitOnP_ne_nil (· == ascii delim) rest)
      simp [same,split]

theorem sequenceSent {port : PortProfile} (object : Nat → UInt8) (queried : Queried setting w prof u)
    (first : prof.inports.find? (·.name = nameStr) = some port) (sequence : port.typecode = .timedLongSeq)
    (fits : 2 + nameStr.length + 4 * (typedItems dataStr).length ≤ Protocol.bufferSize) :
    ∃ v t p, (inject (Line.host setting) floats object nameStr dataStr).Evaluates w v t ∧ SendsOnly w t p ∧
      Protocol.dataSection p = (List.range (4 * (typedItems dataStr).length)).map object := by
  obtain ⟨k,asked⟩ := profileHanded queried
  let length := UInt8.ofNat ((typedItems dataStr).length * ValueType.int32.sizeof)
  have size : length.toNat = 4 * (typedItems dataStr).length := by
    have small : (typedItems dataStr).length * 4 ≤ Protocol.bufferSize := by omega
    rw [Nat.mul_comm 4]
    exact Protocol.smallSize small
  have given := sendVectorGiven object length
  rw [← size] at fits ⊢
  obtain ⟨v,t,ran,written⟩ := Protocol.sendInportEvaluates setting (1000 * 1000) 5 u (by decide) given fits
  have found := Protocol.inportSection given fits
  rw [List.take_of_length_le (by simp)] at found
  refine ⟨v,t,_,(injectQueried queried v t).mpr ?_,
    Protocol.sendsOnlyLast asked (Protocol.inportRequestSmall given fits) written rfl,found⟩
  rw [injectPortsFirst,first]
  simp only [sequence]
  exact ran

theorem sendsTypedObject (floats : Floats) {port : PortProfile} (object : Nat → UInt8) (queried : Queried setting w prof u)
    (first : prof.inports.find? (·.name = nameStr) = some port) (sequence : port.typecode = .timedLongSeq)
    (fits : 2 + nameStr.length + 4 * (typedItems dataStr).length ≤ Protocol.bufferSize) :
    SendsTyped setting floats object nameStr dataStr w ↔
      (List.range (4 * (typedItems dataStr).length)).map object = (typedItems dataStr).flatMap int32Bytes := by
  obtain ⟨v,t,p,ran,only,found⟩ := sequenceSent object queried first sequence fits
  constructor
  · rintro ⟨_,_,q,again,other,typed⟩
    obtain ⟨_,rfl⟩ := Program.evaluatesUnique ran again
    rw [← found,sendsOnlyUnique only other,typed]
  · intro same
    exact ⟨v,t,p,ran,only,found.trans same⟩

theorem injectSequence {setting : Setting} {floats : Floats} {nameStr dataStr : Bytes} {w u : Line} {prof : Profile}
    {port : PortProfile} (queried : Queried setting w prof u)
    (first : prof.inports.find? (·.name = nameStr) = some port) (sequence : port.typecode = .timedLongSeq)
    (fits : 2 + nameStr.length + 4 * (typedItems dataStr).length ≤ Protocol.bufferSize) :
    (∀ object, SendsTyped setting floats object nameStr dataStr w) ↔ ∀ b ∈ dataStr, b = ascii ',' := by
  have each (object : Nat → UInt8) := sendsTypedObject floats object queried first sequence fits
  rw [← strsplitNothing,forall_congr' each]
  constructor
  · intro all
    -- Two vectors at different places cannot both look like the encodings.
    have zeros := all fun _ => 0
    have ones := all fun _ => 1
    have same := zeros.trans ones.symm
    rw [List.map_const',List.map_const',List.length_range,List.replicate_inj] at same
    have empty : (typedItems dataStr).length = 0 := by
      rcases same.2 with zero | bad
      · omega
      · cases bad
    exact List.map_eq_nil_iff.mp (List.length_eq_zero_iff.mp empty)
  · intro nothing object
    have empty : typedItems dataStr = [] := by rw [typedItems,atois,nothing,List.map_nil]
    simp [empty]

def sequencePort : Packet := ⟨.inportProfile,.ok,[ascii 'L',ascii 'a'],by decide⟩

set_option maxRecDepth 4000 in
theorem sequenceQueried : Queried (announcing [sequencePort]) .idle (Protocol.announced [sequencePort]) Protocol.profileAsked :=
  ⟨9,rfl⟩

theorem injectSequenceEmpty : SendsTyped (announcing [sequencePort]) noFloats (fun _ => 7) [ascii 'a'] [ascii ','] .idle := by
  have fits : 2 + [ascii 'a'].length + 4 * (typedItems [ascii ',']).length ≤ Protocol.bufferSize := by decide
  exact (injectSequence sequenceQueried rfl rfl fits).mpr (List.forall_mem_singleton.mpr rfl) fun _ => 7

theorem vectorObjectSent : typedItems (word "7") = [7] ∧
    (∃ v t p, (inject (Line.host (announcing [sequencePort])) noFloats (fun _ => 0) [ascii 'a'] (word "7")).Evaluates
        .idle v t ∧ SendsOnly .idle t p ∧ Protocol.dataSection p = [0,0,0,0]) ∧
    ¬ SendsTyped (announcing [sequencePort]) noFloats (fun _ => 0) [ascii 'a'] (word "7") .idle := by
  have fits : 2 + [ascii 'a'].length + 4 * (typedItems (word "7")).length ≤ Protocol.bufferSize := by decide
  refine ⟨by decide,sequenceSent (fun _ => 0) sequenceQueried rfl rfl fits,fun typed => ?_⟩
  exact absurd ((sendsTypedObject noFloats _ sequenceQueried rfl rfl fits).mp typed) (by decide)

end Reports
end Commands
end RTno2Proxy
