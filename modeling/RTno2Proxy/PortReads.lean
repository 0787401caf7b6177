import RTno2Proxy.Requests
import RTno2Proxy.Payloads

/-! What a reader gets from an out-port: `receive_outport_data` undoes the layout that
`send_inport_data` writes, and `receive_as` turns the bytes into a value without a look at how
many there are. -/
namespace RTno2Proxy
open Imperative

namespace Protocol
variable {setting : Setting} {waitUsec : UInt32}

theorem writesUnique {p : Packet} {raw : Bytes} (written : Transport.Writes setting p raw) : raw = p.frame := by
  obtain ⟨t,sent,bytes⟩ := written .idle
  have frame := (Transport.sendWritten sent).2
  rw [bytes] at frame
  exact List.append_cancel_left frame

/- The payload of the reply is that of the frame which a call of `send_inport_data` has written. -/
theorem layoutRoundTrip {setting board sender : Setting} {waitUsec waitSent : UInt32} (retryCount : Int) {retrySent : Int}
    {portName data array raw rest : Bytes} {maxSize : UInt8} (sizeRead : UInt8) {w u s : Line} {reply request : Packet}
    {sent : Except Fault Result} (fits : 2 + portName.length + data.length ≤ bufferSize)
    (bounded : data.length ≤ maxSize.toNat) (room : data.length ≤ array.length)
    (writer : (sendInportData (Line.host sender) portName data (UInt8.ofNat data.length) waitSent retrySent).Evaluates
      u sent s) (frame : s.written = u.written ++ request.frame)
    (command : reply.command = .receiveData) (ok : reply.result = .ok) (payload : reply.data = request.data)
    (written : Transport.Writes board reply raw) (timely : w.Timely)
    (stream : (w.sent setting (outportRequest (setting.scratch 1) portName)).stream = raw ++ rest) :
    ∃ size t, (receiveOutportData (Line.host setting) portName array maxSize sizeRead waitUsec retryCount).Returns w
        (.ok,data ++ array.drop data.length,size) t ∧ size.toNat = data.length ∧ t.stream = rest := by
  have nameSize : (UInt8.ofNat portName.length).toNat = portName.length := smallSize (by omega)
  have dataSize : (UInt8.ofNat data.length).toNat = data.length := smallSize (by omega)
  have given : 2 + portName.length + (UInt8.ofNat data.length).toNat ≤ bufferSize := by rwa [dataSize]
  have carried := inportWritten (givenLength data) given writer
  rw [frame] at carried
  have built := Packet.frameInjective (inportRequestSmall (givenLength data) given) (List.append_cancel_left carried)
  rw [built] at payload
  have layout : reply.data = UInt8.ofNat portName.length :: UInt8.ofNat data.length :: (portName ++ data ++ []) := by
    rw [payload,inportRequestData (givenLength data) given,inportPayload,dataSize,List.take_length,
      List.append_nil]
  have signed : (UInt8.ofNat portName.length).toNat < 128 := by
    rw [nameSize]
    unfold bufferSize at fits
    omega
  have within : UInt8.ofNat data.length ≤ maxSize := UInt8.le_iff_toNat_le.mpr (by rw [dataSize]; exact bounded)
  have small : reply.data.length ≤ 252 := by
    rw [layout]
    simp only [List.length_cons,List.length_append,List.append_nil]
    unfold bufferSize at fits
    omega
  rw [writesUnique written,← Packet.wholeFrame small] at stream
  obtain ⟨t,waited,left,_⟩ := waitWholeTimely setting waitUsec (Line.sentTimely timely _) stream
  have copied := copyOutCarries setting [] layout nameSize.symm signed dataSize.symm within room t
  rw [ok] at copied
  rw [command] at waited
  refine ⟨_,t,?_,dataSize,left⟩
  refine (receiveOutportFits setting array maxSize sizeRead waitUsec retryCount (by omega)).mpr ?_
  exact Program.returnsBind.mpr ⟨_,t,waited,copied⟩

def portSent : Packet := inportRequest [ascii 'o'] [7,8] 2
def portWritten : Line := {Line.idle with late := true, written := portSent.frame, requests := [⟨portSent,[]⟩]}

theorem layoutRoundTripTwo : ∃ size t, (receiveOutportData (Line.host portBoard) [ascii 'o'] [0,0,9] 3 0 1000 1).Returns .idle
    (.ok,[7,8] ++ [9],size) t ∧ size.toNat = 2 ∧ t.stream = [] := by
  have writer : (sendInportData (Line.host .silent) [ascii 'o'] [7,8] 2 1000 1).Returns .idle .err portWritten :=
    ⟨9,rfl⟩
  have written := Transport.writesFrame .silent portReply
  exact layoutRoundTrip 1 0 (by decide) (by decide) (by decide) writer rfl rfl rfl (by decide) written (by decide) rfl

def dataSection (p : Packet) : Bytes := (p.data.drop (2 + (p.data.headD 0).toNat)).take (p.data.getD 1 0).toNat

structure AcceptedReply (setting : Setting) (w : Line) (portName : Bytes) (p : Packet) : Prop where
  fits : 2 + portName.length ≤ bufferSize
  reply : OutportReply setting (1000 * 1000) w portName p
  command : p.command = .receiveData
  ok : p.result = .ok

def FromReply (setting : Setting) (T : ValueType) (w : Line) (portName : Bytes) (p : Packet) : Prop :=
  ∀ v t, (receiveAs (Line.host setting) T portName).Evaluates w v t → ∃ out, v = .ok out ∧
    (out.result ≠ .ok ∨ T.sizeof ≤ (dataSection p).length ∧ out = .ofValue ((dataSection p).take T.sizeof))

def Takes (T : ValueType) (size : Nat) : Prop :=
  match T with
  | .int32 => T.sizeof ≤ size
  | .float | .double => size = T.sizeof
instance (T : ValueType) (size : Nat) : Decidable (Takes T size) := by unfold Takes; cases T <;> infer_instance

def Declares (p : Packet) (size : Nat) : Prop :=
  ∃ nameLen dataLen name data rest, p.data = nameLen :: dataLen :: (name ++ data ++ rest) ∧
    name.length = nameLen.toNat ∧ nameLen.toNat < 128 ∧ data.length = dataLen.toNat ∧ data.length = size

def intoOutcome (T : ValueType) (i buf : Bytes) (size : UInt8) : Except Fault Bytes :=
  match T with
  | .int32 => peek buf T.sizeof
  | .float | .double => memcpy i 0 (buf.take size.toNat)

theorem intoEvaluates (T : ValueType) (buf : Bytes) (size : UInt8) (w : Line) :
    (into (Line.host setting) T buf size).Evaluates w (intoOutcome T ((List.range T.sizeof).map setting.scratch) buf size) w := by
  have lifted {α : Type} (v : Except Fault α) : (Program.lift v : Act Line α).Evaluates w v w := ⟨0,rfl⟩
  cases T with
  | int32 => exact lifted _
  | float => exact (Program.evaluatesAfter (Transport.scratchReturns.mpr ⟨rfl,rfl⟩)).mpr (lifted _)
  | double => exact (Program.evaluatesAfter (Transport.scratchReturns.mpr ⟨rfl,rfl⟩)).mpr (lifted _)

theorem receiveAsAccepted {T : ValueType} {w t : Line} {portName : Bytes} {p : Packet}
    (fits : 2 + portName.length ≤ bufferSize) (command : p.command = .receiveData)
    (delivered : Delivers setting (1000 * 1000) (w.sent setting (outportRequest (setting.scratch 1) portName)) p t)
    (v : Except Fault (ResultT Bytes)) (u : Line) :
    (receiveAs (Line.host setting) T portName).Evaluates w v u ↔
      (do
        let state ← copyOut (Line.host setting) (.ofValue p) ((List.range 255).map setting.scratch) maxPacketSize
        if state.1 = .ok then do
          let val ← into (Line.host setting) T state.2.1 state.2.2
          pure (.ofValue val)
        else pure (.ofResult state.1) : Act Line (ResultT Bytes)).Evaluates t v u := by
  refine (Program.evaluatesAfter (Transport.scratchReturns.mpr ⟨rfl,rfl⟩)).trans ?_
  refine (Program.evaluatesAfter (Transport.scratchReturns.mpr ⟨rfl,rfl⟩)).trans ?_
  refine Program.evaluatesBindCongr fun state x => ?_
  refine (receiveOutportFits setting _ maxPacketSize _ (1000 * 1000) 5 fits).trans ?_
  have waited := waitDelivered (c := .receiveData) delivered
  rw [awaited,if_pos command] at waited
  exact Program.evaluatesAfter waited

theorem withinMaximum (d : UInt8) : ¬ d > maxPacketSize := by
  have := d.toNat_lt
  rw [gt_iff_lt,UInt8.lt_iff_toNat_lt]
  change ¬ 255 < d.toNat
  omega

theorem copyOutRuns {p : Packet} {n d : UInt8} {rest raw array : Bytes} (data : p.data = n :: d :: rest)
    (range : ∀ w, (payloadRange (Line.host setting) p (2 + n.toInt8.toInt) d.toNat).Returns w raw w) (w : Line) :
    (copyOut (Line.host setting) (.ofValue p) array maxPacketSize).Returns w (p.result,Transport.store array raw,d) w := by
  refine Program.returnsBind.mpr ⟨p,w,valueOf w,Program.returnsBind.mpr ⟨n,w,payloadInside (by simp [data]) w,
    Program.returnsBind.mpr ⟨d,w,payloadInside (by simp [data]) w,?_⟩⟩⟩
  rw [if_neg (withinMaximum d)]
  exact Program.returnsBind.mpr ⟨raw,w,range w,Program.returnsPure.mpr ⟨rfl,rfl⟩⟩

theorem copyOutTrapped {p : Packet} {array : Bytes} (w : Line)
    (outside : ¬ ∃ n d rest, p.data = n :: d :: rest ∧ Covers p (2 + n.toInt8.toInt) d.toNat) :
    ∃ e, (copyOut (Line.host setting.checked) (.ofValue p) array maxPacketSize).Raises w e w := by
  by_cases zero : Covers p 0 1
  · obtain ⟨n,first⟩ := payloadCovered setting.checked zero
    by_cases one : Covers p 1 1
    · obtain ⟨m,d,rest,data⟩ := coversTwo.mp ⟨zero,one⟩
      have uncovered : ¬ Covers p (2 + m.toInt8.toInt) d.toNat := fun covers => outside ⟨m,d,rest,data,covers⟩
      obtain ⟨j,raised⟩ := @payloadRangeTrapped setting _ _ _ uncovered w
      have name : (payload (Line.host setting.checked) p 0).Returns w m w := payloadInside (by simp [data]) w
      have size : (payload (Line.host setting.checked) p 1).Returns w d w := payloadInside (by simp [data]) w
      refine ⟨.outsidePayload j,(Program.evaluatesAfter (valueOf w)).mpr ((Program.evaluatesAfter name).mpr
        ((Program.evaluatesAfter size).mpr ?_))⟩
      rw [if_neg (withinMaximum d)]
      exact Program.raisesBind.mpr (.inl raised)
    · exact ⟨_,(Program.evaluatesAfter (valueOf w)).mpr ((Program.evaluatesAfter (first w)).mpr
        (Program.raisesBind.mpr (.inl (payloadTrapped one w))))⟩
  · exact ⟨_,(Program.evaluatesAfter (valueOf w)).mpr (Program.raisesBind.mpr (.inl (payloadTrapped zero w)))⟩

theorem outcomeTakes {T : ValueType} {i buffer raw : Bytes} {size : UInt8} (union : i.length = T.sizeof)
    (room : buffer.length = 255) (length : raw.length = size.toNat) :
    (∃ value, intoOutcome T i (Transport.store buffer raw) size = .ok value ∧ T.sizeof ≤ raw.length ∧
      value = raw.take T.sizeof) ↔ Takes T raw.length := by
  have bound := size.toNat_lt
  have stored : Transport.store buffer raw = raw ++ buffer.drop raw.length := Transport.storeAll (by omega)
  have filled : (raw ++ buffer.drop raw.length).length = 255 := by
    rw [List.length_append,List.length_drop]
    omega
  have copied : (raw ++ buffer.drop raw.length).take size.toNat = raw := by rw [← length,List.take_left']; rfl
  have unioned : (∃ value, memcpy i 0 raw = .ok value ∧ T.sizeof ≤ raw.length ∧ value = raw.take T.sizeof) ↔
      raw.length = T.sizeof := by
    constructor
    · rintro ⟨value,ok,enough,_⟩
      unfold memcpy at ok
      split at ok
      · omega
      · cases ok
    · intro same
      refine ⟨raw,?_,by omega,by rw [← same,List.take_length]⟩
      unfold memcpy
      rw [if_pos (by omega),List.take_zero,List.nil_append,List.drop_eq_nil_of_le (by omega),List.append_nil]
  rw [stored]
  cases T with
  | int32 =>
    have small : ValueType.int32.sizeof ≤ (raw ++ buffer.drop raw.length).length := by
      rw [filled]
      decide
    constructor
    · rintro ⟨_,_,enough,_⟩
      exact enough
    · intro enough
      refine ⟨_,if_pos small,enough,?_⟩
      exact List.take_append_of_le_length enough
  | float => simpa only [intoOutcome,copied,Takes] using unioned
  | double => simpa only [intoOutcome,copied,Takes] using unioned

theorem fromReplyOutcome {T : ValueType} {w t : Line} {portName : Bytes} {p : Packet} {outcome : Except Fault Bytes}
    (evaluated : (receiveAs (Line.host setting) T portName).Evaluates w (outcome.map .ofValue) t) :
    FromReply setting T w portName p ↔ ∃ value, outcome = .ok value ∧ T.sizeof ≤ (dataSection p).length ∧
      value = (dataSection p).take T.sizeof := by
  constructor
  · intro fromReply
    obtain ⟨out,same,decoded⟩ := fromReply _ _ evaluated
    cases outcome with
    | error e => cases same
    | ok value =>
      cases same
      obtain ⟨enough,same⟩ := decoded.resolve_left (not_not.mpr rfl)
      exact ⟨value,rfl,enough,Option.some.inj (congrArg ResultT.value same)⟩
  · rintro ⟨value,rfl,enough,same⟩ v u h
    obtain ⟨rfl,rfl⟩ := Program.evaluatesUnique h evaluated
    exact ⟨.ofValue value,rfl,.inr ⟨enough,by rw [same]⟩⟩

theorem negativeByte {b : UInt8} (large : 128 ≤ b.toNat) : b.toInt8.toInt = b.toNat - 256 := by
  have bits : b.toInt8.toInt = b.toBitVec.toInt := rfl
  have size := b.toNat_lt
  rw [bits,BitVec.toInt_eq_toNat_cond,if_neg]
  · rfl
  · change ¬ 2 * b.toNat < 256
    omega

theorem declaresShape {p : Packet} {n d : UInt8} {rest : Bytes} {size : Nat} (data : p.data = n :: d :: rest)
    (declares : Declares p size) : size = d.toNat ∧ n.toNat < 128 ∧ ∃ name raw more, rest = name ++ raw ++ more ∧
      name.length = n.toNat ∧ raw.length = d.toNat := by
  obtain ⟨_,_,name,raw,more,shape,nameLength,signed,length,rfl⟩ := declares
  rw [data] at shape
  cases shape
  exact ⟨length,signed,name,raw,more,rfl,nameLength,length⟩

theorem sectionHeld {p : Packet} {n d : UInt8} {name raw more : Bytes} (data : p.data = n :: d :: (name ++ raw ++ more))
    (nameLength : name.length = n.toNat) (dataLength : raw.length = d.toNat) : dataSection p = raw := by
  have front : (n :: d :: name).length = 2 + n.toNat := by
    rw [← nameLength,List.length_cons,List.length_cons]
    omega
  have split : p.data = (n :: d :: name) ++ (raw ++ more) := by simp [data]
  have head : p.data.headD 0 = n := by simp [data]
  have size : p.data.getD 1 0 = d := by simp [data]
  rw [dataSection,head,size,split,List.drop_left' front,List.take_left' dataLength]

theorem declaresInside {p : Packet} {size : Nat} (declares : Declares p size) :
    ∃ n d rest, p.data = n :: d :: rest ∧ Covers p (2 + n.toInt8.toInt) d.toNat := by
  obtain ⟨n,d,name,raw,rest,shape,nameLength,signed,length,_⟩ := declares
  refine ⟨n,d,_,shape,.inr ?_⟩
  rw [signedByte signed,shape,← nameLength,← length]
  simp only [List.length_cons,List.length_append]
  omega

theorem sectionShort {p : Packet} {n d : UInt8} {rest : Bytes} (data : p.data = n :: d :: rest)
    (covers : Covers p (2 + n.toInt8.toInt) d.toNat) (other : ¬ Declares p d.toNat) : (dataSection p).length = 0 := by
  have fits := p.fits
  have code : dataSection p = (p.data.drop (2 + n.toNat)).take d.toNat := by simp [dataSection,data]
  rw [code,List.length_take,List.length_drop]
  by_cases signed : n.toNat < 128
  · rw [signedByte signed] at covers
    rcases covers with nothing | ⟨_,inside⟩
    · omega
    · refine absurd ?_ other
      have length : 2 + rest.length = p.data.length := by
        rw [data,List.length_cons,List.length_cons]
        omega
      refine ⟨n,d,rest.take n.toNat,(rest.drop n.toNat).take d.toNat,(rest.drop n.toNat).drop d.toNat,?_,?_,signed,?_,?_⟩
      · rw [data,List.append_assoc,List.take_append_drop,List.take_append_drop]
      · rw [List.length_take_of_le (by omega)]
      · rw [List.length_take_of_le (by rw [List.length_drop]; omega)]
      · rw [List.length_take_of_le (by rw [List.length_drop]; omega)]
  · rw [negativeByte (by omega)] at covers
    unfold Covers at covers
    omega

theorem receiveAsReads {T : ValueType} {w t : Line} {portName raw : Bytes} {p : Packet} {n d : UInt8} {rest : Bytes}
    (fits : 2 + portName.length ≤ bufferSize) (command : p.command = .receiveData) (ok : p.result = .ok)
    (delivered : Delivers setting (1000 * 1000) (w.sent setting (outportRequest (setting.scratch 1) portName)) p t)
    (data : p.data = n :: d :: rest)
    (range : ∀ w, (payloadRange (Line.host setting) p (2 + n.toInt8.toInt) d.toNat).Returns w raw w) :
    (receiveAs (Line.host setting) T portName).Evaluates w
      ((intoOutcome T ((List.range T.sizeof).map setting.scratch)
        (Transport.store ((List.range 255).map setting.scratch) raw) d).map .ofValue) t := by
  refine (receiveAsAccepted fits command delivered _ _).mpr ((Program.evaluatesAfter (copyOutRuns data range t)).mpr ?_)
  rw [if_pos ok]
  exact Program.evaluatesMap ResultT.ofValue (intoEvaluates T _ d t)

theorem receiveAsReply {setting : Setting} {T : ValueType} {w : Line} {portName : Bytes} {p : Packet}
    (accepted : AcceptedReply setting.checked w portName p) :
    FromReply setting.checked T w portName p ↔ ∃ size, Declares p size ∧ Takes T size := by
  obtain ⟨fits,⟨t,delivered⟩,command,ok⟩ := accepted
  by_cases inside : ∃ n d rest, p.data = n :: d :: rest ∧ Covers p (2 + n.toInt8.toInt) d.toNat
  · obtain ⟨n,d,rest,data,covers⟩ := inside
    obtain ⟨raw,range⟩ := payloadRangeCovered setting.checked covers
    rw [fromReplyOutcome (receiveAsReads fits command ok delivered data range)]
    by_cases declares : Declares p d.toNat
    · obtain ⟨_,signed,name,held,more,rfl,nameLength,dataLength⟩ := declaresShape data declares
      have split : p.data = (n :: d :: name) ++ held ++ more := by simp [data]
      have start : 2 + n.toInt8.toInt = (n :: d :: name).length := by
        rw [signedByte signed,← nameLength,List.length_cons,List.length_cons]
        omega
      have read := payloadRangeInside setting.checked split .idle
      rw [← start,dataLength] at read
      obtain ⟨rfl,_⟩ := Program.returnsUnique (range .idle) read
      rw [sectionHeld data nameLength dataLength,outcomeTakes (by simp) (by simp) dataLength,dataLength]
      constructor
      · intro takes
        exact ⟨_,declares,takes⟩
      · rintro ⟨size,found,takes⟩
        exact (declaresShape data found).1 ▸ takes
    · have short := sectionShort data covers declares
      refine iff_of_false ?_ ?_
      · rintro ⟨_,_,enough,_⟩
        cases T <;> simp [short,ValueType.sizeof] at enough
      · rintro ⟨size,found,_⟩
        exact declares ((declaresShape data found).1 ▸ found)
  · obtain ⟨e,raised⟩ := @copyOutTrapped setting p ((List.range 255).map setting.checked.scratch) t inside
    refine iff_of_false (fun fromReply => ?_) fun ⟨size,declares,_⟩ => inside (declaresInside declares)
    obtain ⟨out,bad,_⟩ := fromReply _ _ ((receiveAsAccepted fits command delivered _ _).mpr (Program.raisesBind.mpr (.inl raised)))
    cases bad

def valueReply (data : Bytes) (fits : (1 :: UInt8.ofNat data.length :: ascii 'o' :: data).length < 256) : Packet :=
  ⟨.receiveData,.ok,1 :: UInt8.ofNat data.length :: ascii 'o' :: data,fits⟩

def valueBoard (reply : Packet) : Setting := {Setting.silent with reply := fun _ => reply.whole}.checked

theorem valueAccepted {reply : Packet} (command : reply.command = .receiveData) (ok : reply.result = .ok) :
    AcceptedReply (valueBoard reply) .idle [ascii 'o'] reply := by
  have small : (outportRequest 0 [ascii 'o']).data.length ≤ 252 := by decide
  have stream : (Line.idle.sent (valueBoard reply) (outportRequest 0 [ascii 'o'])).stream = reply.whole ++ [] := by
    rw [Line.sentAccept small rfl,Line.acceptStream,List.append_nil]
    rfl
  have timely : Line.idle.Timely := by decide
  obtain ⟨u,t,_,new,received,_⟩ := Transport.nextFrame (valueBoard reply) (1000 * 1000) (Line.sentTimely timely _)
    (stream ▸ Transport.wholeMarked reply [])
  exact ⟨by decide,⟨t,u,new,received⟩,command,ok⟩

def twoBytes : Packet := valueReply [7,8] (by decide)
def fourBytes : Packet := valueReply [5,0,0,0] (by decide)
def fiveBytes : Packet := valueReply [5,0,0,0,9] (by decide)

theorem receiveAsReplyFour : FromReply (valueBoard fourBytes) .int32 .idle [ascii 'o'] fourBytes := by
  have accepted : AcceptedReply (valueBoard fourBytes) .idle [ascii 'o'] fourBytes := valueAccepted rfl rfl
  exact (receiveAsReply accepted).mpr ⟨4,⟨1,4,[ascii 'o'],[5,0,0,0],[],rfl,rfl,by decide,rfl,rfl⟩,by decide⟩

set_option maxRecDepth 4000 in
/- Two bytes for an `int32_t`: two more are taken from the buffer. Five for a `float`: one is
written behind its union. Two for a `double`: six bytes of the union are what they were. -/
theorem valueFromElsewhere :
    AcceptedReply (valueBoard twoBytes) .idle [ascii 'o'] twoBytes ∧
      AcceptedReply (valueBoard fiveBytes) .idle [ascii 'o'] fiveBytes ∧
      (receiveAs (Line.host (valueBoard twoBytes)) .int32 [ascii 'o']).Returns .idle (.ofValue [7,8,0,0]) portAsked ∧
      (receiveAs (Line.host (valueBoard fiveBytes)) .float [ascii 'o']).Raises .idle .outsideBuffer portAsked ∧
      (receiveAs (Line.host (valueBoard twoBytes)) .double [ascii 'o']).Returns .idle (.ofValue [7,8,0,0,0,0,0,0]) portAsked ∧
      ¬ FromReply (valueBoard twoBytes) .int32 .idle [ascii 'o'] twoBytes ∧
      ¬ FromReply (valueBoard fiveBytes) .float .idle [ascii 'o'] fiveBytes ∧
      ¬ FromReply (valueBoard twoBytes) .double .idle [ascii 'o'] twoBytes := by
  have int : (receiveAs (Line.host (valueBoard twoBytes)) .int32 [ascii 'o']).Returns .idle (.ofValue [7,8,0,0]) portAsked :=
    ⟨9,rfl⟩
  have float : (receiveAs (Line.host (valueBoard fiveBytes)) .float [ascii 'o']).Raises .idle .outsideBuffer portAsked :=
    ⟨9,rfl⟩
  have double : (receiveAs (Line.host (valueBoard twoBytes)) .double [ascii 'o']).Returns .idle
      (.ofValue [7,8,0,0,0,0,0,0]) portAsked := ⟨9,rfl⟩
  refine ⟨valueAccepted rfl rfl,valueAccepted rfl rfl,int,float,double,fun fromReply => ?_,fun fromReply => ?_,
    fun fromReply => ?_⟩
  · obtain ⟨out,same,decoded⟩ := fromReply _ _ int
    cases same
    exact absurd decoded (by decide)
  · obtain ⟨out,bad,_⟩ := fromReply _ _ float
    cases bad
  · obtain ⟨out,same,decoded⟩ := fromReply _ _ double
    cases same
    exact absurd decoded (by decide)

end Protocol
end RTno2Proxy
