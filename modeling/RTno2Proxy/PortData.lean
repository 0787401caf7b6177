import RTno2Proxy.Deliveries

/-! The two data operations on a line: the requests they build in their local arrays,
and their exchanges as equivalences with the exchange of that request. -/
namespace RTno2Proxy
open Imperative

namespace Protocol
variable {setting : Setting} {waitUsec : UInt32} {α : Type}

theorem memcpyNext (junk left : Bytes) {raw out : Bytes} (fits : left.length ≤ junk.length) :
    memcpy (left ++ junk.drop left.length) left.length raw = .ok out ↔
      (left ++ raw).length ≤ junk.length ∧ out = left ++ raw ++ junk.drop (left ++ raw).length := by
  have length : (left ++ junk.drop left.length).length = junk.length := by
    rw [List.length_append,List.length_drop]
    omega
  have past : left.drop (left.length + raw.length) = [] := List.drop_eq_nil_of_le (by omega)
  unfold memcpy
  rw [length,List.length_append]
  split
  · rename_i small
    simp [List.drop_append,past,small,eq_comm]
  · rename_i large
    simp [large]

theorem memcpyError {buffer raw : Bytes} {offset : Nat} {e : Fault} (h : memcpy buffer offset raw = .error e) :
    e = .outsideBuffer := by
  unfold memcpy at h
  split at h <;> cases h
  rfl

def inportPayload (portName data : Bytes) (length : UInt8) : Bytes :=
  UInt8.ofNat portName.length :: length :: (portName ++ data.take length.toNat)

theorem inportBufferOk {junk portName data out : Bytes} {length : UInt8} :
    inportBuffer junk portName data length = .ok out ↔
      (inportPayload portName data length).length ≤ junk.length ∧
        out = inportPayload portName data length ++ junk.drop (inportPayload portName data length).length := by
  have third : 2 + portName.length = ([UInt8.ofNat portName.length] ++ [length] ++ portName).length := by
    simp
    omega
  unfold inportBuffer
  rw [third]
  constructor
  · intro h
    obtain ⟨_,h₁,h⟩ := Program.exceptBind.mp h
    obtain ⟨fits₁,rfl⟩ := (memcpyNext junk [] (Nat.zero_le _)).mp h₁
    obtain ⟨_,h₂,h⟩ := Program.exceptBind.mp h
    obtain ⟨fits₂,rfl⟩ := (memcpyNext junk _ fits₁).mp h₂
    obtain ⟨_,h₃,h⟩ := Program.exceptBind.mp h
    obtain ⟨fits₃,rfl⟩ := (memcpyNext junk _ fits₂).mp h₃
    simpa [inportPayload] using (memcpyNext junk _ fits₃).mp h
  · intro h
    obtain ⟨fits,rfl⟩ := h
    have whole : inportPayload portName data length =
        [UInt8.ofNat portName.length] ++ [length] ++ portName ++ data.take length.toNat := by simp [inportPayload]
    rw [whole] at fits ⊢
    have fits₃ := Nat.le_trans (List.prefix_append _ _).length_le fits
    have fits₂ := Nat.le_trans (List.prefix_append _ _).length_le fits₃
    have fits₁ := Nat.le_trans (List.prefix_append _ _).length_le fits₂
    exact Program.exceptBind.mpr ⟨_,(memcpyNext junk [] (Nat.zero_le _)).mpr ⟨fits₁,rfl⟩,
      Program.exceptBind.mpr ⟨_,(memcpyNext junk _ fits₁).mpr ⟨fits₂,rfl⟩,
        Program.exceptBind.mpr ⟨_,(memcpyNext junk _ fits₂).mpr ⟨fits₃,rfl⟩,
          (memcpyNext junk _ fits₃).mpr ⟨fits,rfl⟩⟩⟩⟩

def outportPayload (unset : UInt8) (portName : Bytes) : Bytes := UInt8.ofNat portName.length :: unset :: portName

theorem outportBufferOk {first unset : UInt8} {junk portName out : Bytes} :
    outportBuffer (first :: unset :: junk) portName = .ok out ↔
      (outportPayload unset portName).length ≤ (first :: unset :: junk).length ∧
        out = outportPayload unset portName ++ (first :: unset :: junk).drop (outportPayload unset portName).length := by
  have named : memcpy (UInt8.ofNat portName.length :: unset :: junk) 2 portName = .ok out ↔ _ :=
    memcpyNext (UInt8.ofNat portName.length :: unset :: junk) [UInt8.ofNat portName.length,unset] (by simp)
  simpa [outportBuffer,memcpy,bind,Except.bind,outportPayload] using named

def inportRequest (portName data : Bytes) (length : UInt8) : Packet :=
  .initialise .sendData .ok (inportPayload portName data length) (UInt8.ofNat (2 + portName.length + length.toNat))

def outportRequest (unset : UInt8) (portName : Bytes) : Packet :=
  .initialise .receiveData .ok (outportPayload unset portName) (UInt8.ofNat (2 + portName.length))

theorem initialiseJunk (c : Command) (r : Result) {raw : Bytes} (junk : Bytes) {size : UInt8}
    (length : raw.length = size.toNat) :
    Packet.initialise c r (raw ++ junk) size = Packet.initialise c r raw size := by
  simp [Packet.initialise,← length]

theorem smallSize {n : Nat} (small : n ≤ bufferSize) : (UInt8.ofNat n).toNat = n := by
  rw [UInt8.toNat_ofNat']
  exact Nat.mod_eq_of_lt (Nat.lt_of_le_of_lt small (by decide))

theorem inportPayloadLength {portName data : Bytes} {length : UInt8} (given : length.toNat ≤ data.length) :
    (inportPayload portName data length).length = 2 + portName.length + length.toNat := by
  simp [inportPayload,given]
  omega

theorem inportRequestSmall {portName data : Bytes} {length : UInt8} (given : length.toNat ≤ data.length)
    (fits : 2 + portName.length + length.toNat ≤ bufferSize) :
    (inportRequest portName data length).data.length ≤ 252 := by
  simp only [inportRequest,Packet.initialise,List.length_take,inportPayloadLength given]
  unfold bufferSize at fits
  omega

theorem outportRequestSmall (unset : UInt8) {portName : Bytes} (fits : 2 + portName.length ≤ bufferSize) :
    (outportRequest unset portName).data.length ≤ 252 := by
  simp only [outportRequest,outportPayload,Packet.initialise,List.length_take,List.length_cons]
  unfold bufferSize at fits
  omega

theorem acceptedValue {result : ResultT α} {a : α} (ok : result.result = .ok) (present : result.value = some a) :
    result = .ofValue a := by
  cases result
  simp only at ok present
  rw [ok,present,ResultT.ofValue]

theorem inportBufferError {junk portName data : Bytes} {length : UInt8} {e : Fault}
    (h : inportBuffer junk portName data length = .error e) : e = .outsideBuffer := by
  rcases Program.exceptBindError.mp h with bad | ⟨_,_,h⟩
  · exact memcpyError bad
  · rcases Program.exceptBindError.mp h with bad | ⟨_,_,h⟩
    · exact memcpyError bad
    · rcases Program.exceptBindError.mp h with bad | ⟨_,_,bad⟩
      · exact memcpyError bad
      · exact memcpyError bad

theorem outportBufferError {junk portName : Bytes} {e : Fault} (h : outportBuffer junk portName = .error e) :
    e = .outsideBuffer := by
  rcases Program.exceptBindError.mp h with bad | ⟨_,_,bad⟩
  · exact memcpyError bad
  · exact memcpyError bad

def ownResult {σ : Type} (result : ResultT Packet) : Act σ Result := do
  let packet ← value result
  pure packet.result

theorem sendInportFits (setting : Setting) (waitUsec : UInt32) (retryCount : Int) {portName data : Bytes}
    {length : UInt8} {w t : Line} {v : Except Fault Result} (given : length.toNat ≤ data.length)
    (fits : 2 + portName.length + length.toNat ≤ bufferSize) :
    (sendInportData (Line.host setting) portName data length waitUsec retryCount).Evaluates w v t ↔
      (answer (Line.host setting) .sendData waitUsec ownResult .err).Evaluates
        (w.sent setting (inportRequest portName data length)) v t := by
  have scratch : ((List.range bufferSize).map setting.scratch).length = bufferSize := by simp
  have filled : inportBuffer ((List.range bufferSize).map setting.scratch) portName data length = .ok _ :=
    inportBufferOk.mpr ⟨by rwa [inportPayloadLength given,scratch],rfl⟩
  refine (Program.evaluatesAfter (Transport.scratchReturns.mpr ⟨rfl,rfl⟩)).trans ?_
  refine (Program.evaluatesAfter (Program.returnsLift.mpr ⟨filled,rfl⟩)).trans ?_
  refine (Program.evaluatesAfter (Transport.sendSent setting w _)).trans ?_
  rw [initialiseJunk _ _ _ (by rw [inportPayloadLength given,smallSize fits]),← inportRequest]
  exact Iff.rfl

theorem sendInportOverflow (setting : Setting) (waitUsec : UInt32) (retryCount : Int) {portName data : Bytes}
    {length : UInt8} {w t : Line} {v : Except Fault Result} (given : length.toNat ≤ data.length)
    (large : ¬ 2 + portName.length + length.toNat ≤ bufferSize) :
    (sendInportData (Line.host setting) portName data length waitUsec retryCount).Evaluates w v t ↔
      v = .error .outsideBuffer ∧ t = w := by
  have scratch : ((List.range bufferSize).map setting.scratch).length = bufferSize := by simp
  have raised : (sendInportData (Line.host setting) portName data length waitUsec retryCount).Raises w .outsideBuffer w := by
    refine (Program.evaluatesAfter (Transport.scratchReturns.mpr ⟨rfl,rfl⟩)).mpr (Program.raisesBind.mpr (.inl ?_))
    refine Program.raisesStep.mpr (Prod.ext ?_ rfl)
    cases filled : inportBuffer ((List.range bufferSize).map setting.scratch) portName data length with
    | error e => rw [inportBufferError filled]
    | ok buffer =>
      obtain ⟨fits,_⟩ := inportBufferOk.mp filled
      rw [inportPayloadLength given,scratch] at fits
      exact absurd fits large
  constructor
  · intro h
    exact Program.evaluatesUnique h raised
  · rintro ⟨rfl,rfl⟩
    exact raised

theorem sendInportReturns (retryCount : Int) {portName data : Bytes} {length : UInt8} {w t : Line} {out : Result}
    (given : length.toNat ≤ data.length) (waiting : w.incoming = []) :
    (sendInportData (Line.host setting) portName data length waitUsec retryCount).Returns w out t ↔
      2 + portName.length + length.toNat ≤ bufferSize ∧
        ∃ result, (waitAndReceiveCommand (Line.host setting) .sendData waitUsec).Returns
          (w.accept setting (inportRequest portName data length)) result t ∧
        (result.result ≠ .ok ∧ out = .err ∨ ∃ p, result = .ofValue p ∧ out = p.result) := by
  by_cases fits : 2 + portName.length + length.toNat ≤ bufferSize
  · refine (sendInportFits setting waitUsec retryCount given fits).trans ?_
    rw [Line.sentAccept (inportRequestSmall given fits) waiting,and_iff_right fits]
    refine Program.returnsBind.trans ?_
    constructor
    · rintro ⟨result,u,waited,last⟩
      split at last
      · rename_i ok
        obtain ⟨p,_,hv,after⟩ := Program.returnsBind.mp last
        obtain ⟨present,rfl⟩ := valueReturns.mp hv
        obtain ⟨rfl,rfl⟩ := Program.returnsPure.mp after
        exact ⟨result,waited,.inr ⟨p,acceptedValue ok present,rfl⟩⟩
      · rename_i failed
        obtain ⟨rfl,rfl⟩ := Program.returnsPure.mp last
        exact ⟨result,waited,.inl ⟨failed,rfl⟩⟩
    · rintro ⟨result,waited,⟨failed,rfl⟩ | ⟨p,rfl,rfl⟩⟩
      · refine ⟨result,t,waited,?_⟩
        rw [if_neg failed]
        exact Program.returnsPure.mpr ⟨rfl,rfl⟩
      · exact ⟨_,t,waited,Program.returnsBind.mpr ⟨p,t,valueReturns.mpr ⟨rfl,rfl⟩,Program.returnsPure.mpr ⟨rfl,rfl⟩⟩⟩
  · refine (sendInportOverflow setting waitUsec retryCount given fits).trans ?_
    simp [fits]

theorem copyOutSteady (setting : Setting) (data : Bytes) (maxSize : UInt8) :
    Steady fun result => copyOut (Line.host setting) result data maxSize := by
  intro result w out t h
  obtain ⟨p,_,hv,atName⟩ := Program.returnsBind.mp h
  obtain ⟨present,rfl⟩ := valueReturns.mp hv
  obtain ⟨nameLen,_,hn,atLen⟩ := Program.returnsBind.mp atName
  obtain ⟨dataLen,_,hd,last⟩ := Program.returnsBind.mp atLen
  obtain ⟨rfl,first⟩ := payloadStill hn
  obtain ⟨rfl,second⟩ := payloadStill hd
  have read {u : Line} {c} (rest : c.Returns u out u)
      (code : c = if dataLen > maxSize then pure (p.result,data,dataLen) else do
        let raw ← payloadRange (Line.host setting) p (2 + nameLen.toInt8.toInt) dataLen.toNat
        pure (p.result,Transport.store data raw,dataLen)) :
      (copyOut (Line.host setting) result data maxSize).Returns u out u := by
    subst code
    exact Program.returnsBind.mpr ⟨p,u,valueReturns.mpr ⟨present,rfl⟩,Program.returnsBind.mpr ⟨_,_,first u,
      Program.returnsBind.mpr ⟨_,_,second u,rest⟩⟩⟩
  split at last
  · rename_i large
    obtain ⟨rfl,rfl⟩ := Program.returnsPure.mp last
    exact ⟨rfl,fun u => read (Program.returnsPure.mpr ⟨rfl,rfl⟩) (by rw [if_pos large])⟩
  · rename_i fits
    obtain ⟨raw,_,hr,after⟩ := Program.returnsBind.mp last
    obtain ⟨rfl,range⟩ := payloadRangeStill hr
    obtain ⟨rfl,rfl⟩ := Program.returnsPure.mp after
    exact ⟨rfl,fun u => read (Program.returnsBind.mpr ⟨_,_,range u,Program.returnsPure.mpr ⟨rfl,rfl⟩⟩)
      (by rw [if_neg fits])⟩

theorem outportPayloadLength (unset : UInt8) (portName : Bytes) :
    (outportPayload unset portName).length = 2 + portName.length := by
  simp [outportPayload]
  omega

theorem outportScratch (setting : Setting) : ∃ junk, (List.range bufferSize).map setting.scratch =
    setting.scratch 0 :: setting.scratch 1 :: junk ∧ (setting.scratch 0 :: setting.scratch 1 :: junk).length = bufferSize :=
  ⟨_,rfl,by simp [bufferSize]⟩

theorem receiveOutportFits (setting : Setting) (data : Bytes) (maxSize sizeRead : UInt8) (waitUsec : UInt32)
    (retryCount : Int) {portName : Bytes} {w t : Line} {v : Except Fault (Result × Bytes × UInt8)}
    (fits : 2 + portName.length ≤ bufferSize) :
    (receiveOutportData (Line.host setting) portName data maxSize sizeRead waitUsec retryCount).Evaluates w v t ↔
      (answer (Line.host setting) .receiveData waitUsec (copyOut (Line.host setting) · data maxSize)
        (.err,data,sizeRead)).Evaluates (w.sent setting (outportRequest (setting.scratch 1) portName)) v t := by
  obtain ⟨junk,scratch,size⟩ := outportScratch setting
  have filled : outportBuffer (setting.scratch 0 :: setting.scratch 1 :: junk) portName = .ok _ :=
    outportBufferOk.mpr ⟨by rwa [outportPayloadLength,size],rfl⟩
  rw [← scratch] at filled
  refine (Program.evaluatesAfter (Transport.scratchReturns.mpr ⟨rfl,rfl⟩)).trans ?_
  refine (Program.evaluatesAfter (Program.returnsLift.mpr ⟨filled,rfl⟩)).trans ?_
  refine (Program.evaluatesAfter (Transport.sendSent setting w _)).trans ?_
  rw [initialiseJunk _ _ _ (by rw [outportPayloadLength,smallSize fits]),← outportRequest]
  exact Iff.rfl

theorem receiveOutportOverflow (setting : Setting) (data : Bytes) (maxSize sizeRead : UInt8) (waitUsec : UInt32)
    (retryCount : Int) {portName : Bytes} {w t : Line} {v : Except Fault (Result × Bytes × UInt8)}
    (large : ¬ 2 + portName.length ≤ bufferSize) :
    (receiveOutportData (Line.host setting) portName data maxSize sizeRead waitUsec retryCount).Evaluates w v t ↔
      v = .error .outsideBuffer ∧ t = w := by
  obtain ⟨junk,scratch,size⟩ := outportScratch setting
  have raised : (receiveOutportData (Line.host setting) portName data maxSize sizeRead waitUsec retryCount).Raises w
      .outsideBuffer w := by
    refine (Program.evaluatesAfter (Transport.scratchReturns.mpr ⟨rfl,rfl⟩)).mpr (Program.raisesBind.mpr (.inl ?_))
    refine Program.raisesStep.mpr (Prod.ext ?_ rfl)
    cases filled : outportBuffer ((List.range bufferSize).map setting.scratch) portName with
    | error e => rw [outportBufferError filled]
    | ok buffer =>
      rw [scratch] at filled
      obtain ⟨fits,_⟩ := outportBufferOk.mp filled
      rw [outportPayloadLength,size] at fits
      exact absurd fits large
  constructor
  · intro h
    exact Program.evaluatesUnique h raised
  · rintro ⟨rfl,rfl⟩
    exact raised

theorem receiveOutportReturns (sizeRead : UInt8) (retryCount : Int) {portName data : Bytes} {maxSize : UInt8} {w t : Line}
    {out : Result × Bytes × UInt8} (waiting : w.incoming = []) :
    (receiveOutportData (Line.host setting) portName data maxSize sizeRead waitUsec retryCount).Returns w out t ↔
      2 + portName.length ≤ bufferSize ∧
        ∃ result u, (waitAndReceiveCommand (Line.host setting) .receiveData waitUsec).Returns
          (w.accept setting (outportRequest (setting.scratch 1) portName)) result u ∧
        (result.result ≠ .ok ∧ out = (.err,data,sizeRead) ∧ t = u ∨
          result.result = .ok ∧ (copyOut (Line.host setting) result data maxSize).Returns u out t) := by
  by_cases fits : 2 + portName.length ≤ bufferSize
  · refine (receiveOutportFits setting data maxSize sizeRead waitUsec retryCount fits).trans ?_
    rw [Line.sentAccept (outportRequestSmall _ fits) waiting,and_iff_right fits]
    refine Program.returnsBind.trans ?_
    constructor
    · rintro ⟨result,u,waited,last⟩
      split at last
      · rename_i ok
        exact ⟨result,u,waited,.inr ⟨ok,last⟩⟩
      · rename_i failed
        exact ⟨result,u,waited,.inl ⟨failed,Program.returnsPure.mp last⟩⟩
    · rintro ⟨result,u,waited,⟨failed,rfl,rfl⟩ | ⟨ok,copied⟩⟩
      · refine ⟨result,t,waited,?_⟩
        rw [if_neg failed]
        exact Program.returnsPure.mpr ⟨rfl,rfl⟩
      · refine ⟨result,u,waited,?_⟩
        rwa [if_pos ok]
  · refine (receiveOutportOverflow setting data maxSize sizeRead waitUsec retryCount fits).trans ?_
    simp [fits]

end Protocol
end RTno2Proxy
