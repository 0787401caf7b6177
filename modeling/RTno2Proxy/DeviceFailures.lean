import RTno2Proxy.LineReads

/-! Devices that fail. The transport runs on any serial device; a log beside it keeps what each
call of `write` and `read` was given and what became of it. -/
namespace RTno2Proxy
open Imperative
open EnumClass (toByte ofByte)

inductive Transfer where
  | wrote (raw : Bytes) (result : Int)
  | took (size : UInt8) (raw : Bytes)
  deriving DecidableEq

namespace Transfer

def accepted : Transfer → Bytes
  | wrote raw result => raw.take result.toNat
  | took _ _ => []

def delivered : Transfer → Bytes
  | wrote _ _ => []
  | took _ raw => raw

def Whole : Transfer → Prop
  | wrote raw result => raw.length ≤ result
  | took size raw => raw.length = size.toNat
instance (e : Transfer) : Decidable e.Whole := by unfold Whole; cases e <;> infer_instance

end Transfer

abbrev Log := List Transfer

namespace Log

def accepted (log : Log) : Bytes := log.flatMap Transfer.accepted

def delivered (log : Log) : Bytes := log.flatMap Transfer.delivered

def Whole (log : Log) : Prop := ∀ e ∈ log, e.Whole
instance (log : Log) : Decidable log.Whole := by unfold Whole; infer_instance

theorem wholeAppend {first later : Log} : Whole (first ++ later) ↔ first.Whole ∧ later.Whole := List.forall_mem_append

theorem deliveredAppend (first later : Log) : delivered (first ++ later) = first.delivered ++ later.delivered :=
  List.flatMap_append

end Log

namespace Host
variable {σ : Type}

def note (e : Transfer) : Act (σ × Log) Unit := .step fun s => (.ok (),s.1,s.2 ++ [e])

def logged (h : Host σ) : Host (σ × Log) where
  device := {
    getSizeInRxBuffer := h.device.getSizeInRxBuffer.beside Log
    write raw := do
      let result ← (h.device.write raw).beside Log
      note (.wrote raw result)
      pure result
    read size := do
      let out ← (h.device.read size).beside Log
      note (.took size out.1)
      pure out
    getSenderInfo := h.device.getSenderInfo.beside Log }
  expired waitUsec := (h.expired waitUsec).beside Log
  scratch n := (h.scratch n).beside Log
  outside offset := (h.outside offset).beside Log

/- `read` stores at most as many bytes as it is asked for, and an array of `n` bytes has `n` bytes. -/
structure Contract (h : Host σ) : Prop where
  bounded : ∀ {size s out t}, (h.device.read size).Returns s out t → out.1.length ≤ size.toNat
  extent : ∀ {n s raw t}, (h.scratch n).Returns s raw t → raw.length = n

variable {h : Host σ}

theorem writeLogged {raw : Bytes} {s t : σ × Log} {result : Int} (ran : (h.logged.device.write raw).Returns s result t) :
    t.2 = s.2 ++ [.wrote raw result] := by
  obtain ⟨_,u,written,ran⟩ := Program.returnsBind.mp ran
  obtain ⟨_,v,noted,last⟩ := Program.returnsBind.mp ran
  obtain ⟨rfl,rfl⟩ := Program.returnsPure.mp last
  obtain ⟨_,same⟩ := Program.evaluatesBeside.mp written
  cases Program.returnsStep.mp noted
  rw [same]

theorem readLogged {size : UInt8} {s t : σ × Log} {out : Bytes × Int} (ran : (h.logged.device.read size).Returns s out t) :
    t.2 = s.2 ++ [.took size out.1] ∧ ∃ u, (h.device.read size).Returns s.1 out u := by
  obtain ⟨_,u,took,ran⟩ := Program.returnsBind.mp ran
  obtain ⟨_,v,noted,last⟩ := Program.returnsBind.mp ran
  obtain ⟨rfl,rfl⟩ := Program.returnsPure.mp last
  obtain ⟨read,same⟩ := Program.evaluatesBeside.mp took
  cases Program.returnsStep.mp noted
  exact ⟨by rw [same],_,read⟩

end Host

inductive Wrote : Bytes → Log → Prop where
  | nil : Wrote [] []
  | cons {rest log} (b : UInt8) (result : Int) (later : Wrote rest log) : Wrote (b :: rest) (.wrote [b] result :: log)

namespace Wrote

theorem append {left right : Bytes} {first later : Log} (one : Wrote left first) (other : Wrote right later) :
    Wrote (left ++ right) (first ++ later) := by
  induction one with
  | nil => exact other
  | cons b result _ ih => exact .cons b result ih

theorem short {raw : Bytes} {log : Log} (wrote : Wrote raw log) : log.accepted.length ≤ raw.length := by
  induction wrote with
  | nil => exact Nat.le_refl 0
  | @cons rest log b result later ih =>
    have one : ([b].take result.toNat).length ≤ 1 := List.length_take_le' _ _
    simp only [Log.accepted,List.flatMap_cons,Transfer.accepted,List.length_append,List.length_cons] at ih ⊢
    omega

theorem accepted {raw : Bytes} {log : Log} (wrote : Wrote raw log) : log.accepted = raw ↔ log.Whole := by
  induction wrote with
  | nil => exact iff_of_true rfl fun e member => absurd member List.not_mem_nil
  | @cons rest log b result later ih =>
    have split : Log.Whole (.wrote [b] result :: log) ↔ 1 ≤ result ∧ log.Whole := List.forall_mem_cons
    rw [split,← ih]
    by_cases taken : 1 ≤ result
    · obtain ⟨n,positive⟩ : ∃ n, result.toNat = n + 1 := ⟨result.toNat - 1,by omega⟩
      simp [Log.accepted,Transfer.accepted,positive,taken]
    · have lost : result.toNat = 0 := by omega
      refine iff_of_false (fun same => ?_) fun both => taken both.1
      have length := later.short
      have unaccepted : Log.accepted (.wrote [b] result :: log) = log.accepted := by
        simp [Log.accepted,Transfer.accepted,lost]
      rw [← unaccepted,same,List.length_cons] at length
      omega

end Wrote

def Quiet {σ : Type} (s t : σ × Log) : Prop := t.2 = s.2

instance {σ : Type} : IsPreorder (σ × Log) Quiet where
  refl _ := rfl
  trans _ _ _ first later := Eq.trans later first

theorem besideQuiet {σ α : Type} (c : Act σ α) : (c.beside Log).Keeps Quiet := fun _ _ _ h => (Program.evaluatesBeside.mp h).2

namespace Transport
variable {σ : Type} {h : Host σ} {waitUsec : UInt32}

theorem writeEachLogged {raw : Bytes} {s t : σ × Log} {x : Unit} (ran : (writeEach h.logged raw).Returns s x t) :
    ∃ log, t.2 = s.2 ++ log ∧ Wrote raw log := by
  induction raw generalizing s with
  | nil =>
    obtain ⟨_,rfl⟩ := Program.returnsPure.mp ran
    exact ⟨[],by simp,.nil⟩
  | cons b rest ih =>
    obtain ⟨result,u,written,more⟩ := Program.returnsBind.mp ran
    obtain ⟨log,later,wrote⟩ := ih more
    exact ⟨_,by rw [later,Host.writeLogged written,List.append_assoc,List.singleton_append],.cons b result wrote⟩

theorem writeLogged {buffer : Bytes} {size : UInt8} {s t : σ × Log} {result : Result}
    (ran : (write h.logged buffer size).Returns s result t) :
    result = .ok ∧ ∃ log, t.2 = s.2 ++ log ∧ Wrote (buffer.take size.toNat) log := by
  obtain ⟨_,u,each,last⟩ := Program.returnsBind.mp ran
  obtain ⟨rfl,rfl⟩ := Program.returnsPure.mp last
  exact ⟨rfl,writeEachLogged each⟩

theorem sendLogged {p : Packet} {s t : σ × Log} {result : Result} (ran : (send h.logged p).Returns s result t) :
    result = .ok ∧ ∃ log, t.2 = s.2 ++ log ∧ Wrote p.frame log := by
  obtain ⟨_,u,marker,ran⟩ := Program.returnsBind.mp ran
  obtain ⟨rfl,first,early,one⟩ := writeLogged marker
  rw [if_neg (not_not.mpr rfl)] at ran
  obtain ⟨_,v,body,ran⟩ := Program.returnsBind.mp ran
  obtain ⟨rfl,second,middle,two⟩ := writeLogged body
  rw [if_neg (not_not.mpr rfl)] at ran
  obtain ⟨_,x,sum,ran⟩ := Program.returnsBind.mp ran
  obtain ⟨rfl,third,late,three⟩ := writeLogged sum
  rw [if_neg (not_not.mpr rfl)] at ran
  obtain ⟨rfl,rfl⟩ := Program.returnsPure.mp ran
  refine ⟨rfl,first ++ second ++ third,?_,(one.append two).append three⟩
  rw [late,middle,early]
  simp only [List.append_assoc]

inductive ReadLog (buffer : Bytes) (size : UInt8) : Result × Bytes → Log → Prop where
  | read {raw log} (delivered : log.delivered = raw) (bounded : raw.length ≤ size.toNat)
      (whole : log.Whole ↔ raw.length = size.toNat) : ReadLog buffer size (.ok,store buffer raw) log
  | timeout : ReadLog buffer size (.timeout,buffer) []

theorem readLogged (contract : h.Contract) {buffer : Bytes} {size : UInt8} {s t : σ × Log} {out : Result × Bytes}
    (ran : (read h.logged buffer size waitUsec).Returns s out t) : ∃ log, t.2 = s.2 ++ log ∧ ReadLog buffer size out log := by
  unfold read at ran
  split at ran
  · rename_i zero
    obtain ⟨rfl,rfl⟩ := Program.returnsPure.mp ran
    have nothing : ReadLog buffer size (.ok,store buffer []) [] :=
      .read rfl (Nat.zero_le _) (iff_of_true (fun e member => absurd member List.not_mem_nil) (by rw [zero]; rfl))
    exact ⟨[],by simp,by simpa [store] using nothing⟩
  · have polls : (await h.logged size waitUsec).Keeps Quiet := by
      refine Program.keepsLoop (fun _ => Program.keepsBind (besideQuiet _) fun available => ?_) ()
      split
      · exact Program.keepsPure _
      · refine Program.keepsBind (besideQuiet _) fun expired => ?_
        split <;> exact Program.keepsPure _
    obtain ⟨ready,u,waited,ran⟩ := Program.returnsBind.mp ran
    have quiet : u.2 = s.2 := polls _ _ _ waited
    split at ran
    · obtain ⟨delivered,v,took,last⟩ := Program.returnsBind.mp ran
      obtain ⟨rfl,rfl⟩ := Program.returnsPure.mp last
      obtain ⟨logged,_,read⟩ := Host.readLogged took
      refine ⟨[.took size delivered.1],by rw [logged,quiet],.read (List.flatMap_singleton _ _) (contract.bounded read) ?_⟩
      simp [Log.Whole,Transfer.Whole]
    · obtain ⟨rfl,rfl⟩ := Program.returnsPure.mp ran
      exact ⟨[],by rw [quiet,List.append_nil],.timeout⟩

theorem readByteLogged (contract : h.Contract) {buf : UInt8} {s t : σ × Log} {out : Result × UInt8}
    (ran : (readByte h.logged buf waitUsec).Returns s out t) :
    ∃ log more, t.2 = s.2 ++ log ∧ ReadLog [buf] 1 (out.1,more) log ∧ out.2 = more.headD buf := by
  obtain ⟨x,u,read,last⟩ := Program.returnsBind.mp ran
  obtain ⟨rfl,rfl⟩ := Program.returnsPure.mp last
  obtain ⟨log,later,source⟩ := readLogged contract read
  exact ⟨log,x.2,later,source,rfl⟩

theorem ReadLog.byte {buf : UInt8} {more : Bytes} {log : Log} (source : ReadLog [buf] 1 (.ok,more) log) (whole : log.Whole) :
    log.delivered = [more.headD buf] := by
  cases source with
  | read delivered _ exact =>
    obtain ⟨b,rfl⟩ := List.length_eq_one_iff.mp (exact.mp whole)
    exact delivered

theorem isNewPassLogged (contract : h.Contract) {buf : UInt8} {s t : σ × Log} {x : UInt8 ⊕ Result}
    (ran : (isNewPass h.logged waitUsec buf).Returns s x t) :
    ∃ log, t.2 = s.2 ++ log ∧ (x = .inr .ok → log.Whole → log.delivered = startMarker) := by
  obtain ⟨first,u,one,ran⟩ := Program.returnsBind.mp ran
  obtain ⟨early,more,logged,source,value⟩ := readByteLogged contract one
  split at ran
  · rename_i failed
    obtain ⟨rfl,rfl⟩ := Program.returnsPure.mp ran
    exact ⟨early,logged,fun ok => absurd (Sum.inr.inj ok) failed⟩
  · rename_i ok
    split at ran
    · obtain ⟨rfl,rfl⟩ := Program.returnsPure.mp ran
      exact ⟨early,logged,fun ok => by cases ok⟩
    · rename_i start
      obtain ⟨second,v,two,last⟩ := Program.returnsBind.mp ran
      obtain ⟨late,rest,after,again,found⟩ := readByteLogged contract two
      rw [logged,List.append_assoc] at after
      split at last
      · rename_i failed
        obtain ⟨rfl,rfl⟩ := Program.returnsPure.mp last
        exact ⟨_,after,fun ok => absurd (Sum.inr.inj ok) failed⟩
      · rename_i fine
        split at last
        · rename_i marker
          obtain ⟨rfl,rfl⟩ := Program.returnsPure.mp last
          refine ⟨_,after,fun _ whole => ?_⟩
          obtain ⟨left,right⟩ := Log.wholeAppend.mp whole
          rw [not_not.mp ok] at source
          rw [not_not.mp fine] at again
          rw [Log.deliveredAppend,source.byte left,again.byte right,← value,← found,marker,not_not.mp start]
          rfl
        · obtain ⟨rfl,rfl⟩ := Program.returnsPure.mp last
          exact ⟨_,after,fun ok => by cases ok⟩

theorem isNewLogged (contract : h.Contract) {s t : σ × Log} {result : Result}
    (ran : (isNew h.logged waitUsec).Returns s result t) :
    ∃ log, t.2 = s.2 ++ log ∧ (result = .ok → log.Whole → ∃ skipped, log.delivered = skipped ++ startMarker) := by
  obtain ⟨buf,u,scratch,ran⟩ := Program.returnsBind.mp ran
  have quiet : u.2 = s.2 := besideQuiet _ _ _ _ scratch
  rw [← quiet]
  refine Program.loopRule (motive := fun _ s result t => ∃ log, t.2 = s.2 ++ log ∧
    (result = .ok → log.Whole → ∃ skipped, log.delivered = skipped ++ startMarker)) ?_ ?_ ran
  · intro _ s result t pass
    obtain ⟨log,logged,marker⟩ := isNewPassLogged contract pass
    exact ⟨log,logged,fun ok whole => ⟨[],marker (by rw [ok]) whole⟩⟩
  · intro _ s next u result t pass later
    obtain ⟨early,logged,_⟩ := isNewPassLogged contract pass
    obtain ⟨late,after,marker⟩ := later
    refine ⟨early ++ late,by rw [after,logged,List.append_assoc],fun ok whole => ?_⟩
    obtain ⟨skipped,found⟩ := marker ok (Log.wholeAppend.mp whole).2
    exact ⟨early.delivered ++ skipped,by rw [Log.deliveredAppend,found,List.append_assoc]⟩

theorem storeLength (buffer raw : Bytes) : (store buffer raw).length = buffer.length := by
  simp only [store,List.length_append,List.length_take,List.length_drop]
  omega

structure ReadWhole (size : Nat) (log : Log) : Prop where
  bounded : log.delivered.length ≤ size
  whole : log.Whole ↔ log.delivered.length = size

theorem ReadWhole.append {m n : Nat} {first later : Log} (one : ReadWhole m first) (other : ReadWhole n later) :
    ReadWhole (m + n) (first ++ later) where
  bounded := by
    rw [Log.deliveredAppend,List.length_append]
    exact Nat.add_le_add one.bounded other.bounded
  whole := by
    have short := one.bounded
    have small := other.bounded
    rw [Log.wholeAppend,one.whole,other.whole,Log.deliveredAppend,List.length_append]
    omega

theorem receiveChecksumLogged (contract : h.Contract) {p : Packet} {s t : σ × Log} {out : ResultT Packet}
    (ran : (receiveChecksum h.logged waitUsec p).Returns s out t) :
    ∃ log, t.2 = s.2 ++ log ∧ ∀ q, out = .ofValue q → q = p ∧ ReadWhole 1 log ∧ (log.Whole → log.delivered = [p.getSum]) := by
  obtain ⟨buf,u,scratch,ran⟩ := Program.returnsBind.mp ran
  have quiet : u.2 = s.2 := besideQuiet _ _ _ _ scratch
  obtain ⟨last,v,read,ran⟩ := Program.returnsBind.mp ran
  obtain ⟨log,more,logged,source,value⟩ := readByteLogged contract read
  rw [quiet] at logged
  refine ⟨log,?_⟩
  split at ran
  · obtain ⟨rfl,rfl⟩ := Program.returnsPure.mp ran
    exact ⟨logged,fun q bad => by cases bad⟩
  · rename_i ok
    split at ran
    · obtain ⟨rfl,rfl⟩ := Program.returnsPure.mp ran
      exact ⟨logged,fun q bad => by cases bad⟩
    · rename_i sum
      obtain ⟨rfl,rfl⟩ := Program.returnsPure.mp ran
      rw [not_not.mp ok] at source
      refine ⟨logged,fun q same => ⟨(Option.some.inj (congrArg ResultT.value same)).symm,?_,fun whole => ?_⟩⟩
      · cases source with
        | read delivered bounded whole =>
          subst delivered
          exact ⟨bounded,whole⟩
      · rw [source.byte whole,← value,not_not.mp sum]

theorem receiveBodyLogged (contract : h.Contract) {command result size : UInt8} {s t : σ × Log} {out : ResultT Packet}
    (ran : (receiveBody h.logged waitUsec command result size).Returns s out t) :
    ∃ log, t.2 = s.2 ++ log ∧ ∀ p, out = .ofValue p → p.data.length = size.toNat ∧ ReadWhole (size.toNat + 1) log ∧
      (log.Whole → p.serialize ++ [p.getSum] = [command,result,size] ++ log.delivered) := by
  obtain ⟨buffer,u,scratch,ran⟩ := Program.returnsBind.mp ran
  have quiet : u.2 = s.2 := besideQuiet _ _ _ _ scratch
  have room : buffer.length = 256 := contract.extent (Program.evaluatesBeside.mp scratch).1
  obtain ⟨body,v,read,ran⟩ := Program.returnsBind.mp ran
  obtain ⟨early,logged,source⟩ := readLogged contract read
  rw [quiet] at logged
  split at ran
  · obtain ⟨rfl,rfl⟩ := Program.returnsPure.mp ran
    exact ⟨early,logged,fun p bad => by cases bad⟩
  · rename_i ok
    obtain ⟨late,after,sum⟩ := receiveChecksumLogged contract ran
    refine ⟨early ++ late,by rw [after,logged,List.append_assoc],fun p value => ?_⟩
    obtain ⟨rfl,last,checked⟩ := sum p value
    cases source with
    | timeout => exact absurd (not_not.mp ok) (by simp)
    | @read raw _ delivered bounded whole =>
      subst delivered
      have bound := size.toNat_lt
      refine ⟨?_,ReadWhole.append ⟨bounded,whole⟩ last,fun all => ?_⟩
      · simp only [Packet.initialise]
        rw [List.length_take_of_le (by rw [storeLength]; omega)]
      · obtain ⟨left,right⟩ := Log.wholeAppend.mp all
        have serialized : (Packet.initialise (ofByte command) (ofByte result)
            (early.delivered ++ buffer.drop early.delivered.length) size).serialize = [command,result,size] ++ early.delivered :=
          initialiseSerialize _ (whole.mp left)
        rw [← storeAll (by omega)] at serialized
        rw [Log.deliveredAppend,checked right,serialized,List.append_assoc]

theorem receiveLogged (contract : h.Contract) {s t : σ × Log} {out : ResultT Packet}
    (ran : (receive h.logged waitUsec).Returns s out t) :
    ∃ log, t.2 = s.2 ++ log ∧ ∀ p, out = .ofValue p → (log.delivered = p.serialize ++ [p.getSum] ↔ log.Whole) := by
  obtain ⟨header,u,scratch,ran⟩ := Program.returnsBind.mp ran
  have quiet : u.2 = s.2 := besideQuiet _ _ _ _ scratch
  have room : header.length = 3 := contract.extent (Program.evaluatesBeside.mp scratch).1
  obtain ⟨head,v,read,ran⟩ := Program.returnsBind.mp ran
  obtain ⟨early,logged,source⟩ := readLogged contract read
  rw [quiet] at logged
  split at ran
  · obtain ⟨rfl,rfl⟩ := Program.returnsPure.mp ran
    exact ⟨early,logged,fun p bad => by cases bad⟩
  · rename_i ok
    obtain ⟨sender,x,info,ran⟩ := Program.returnsBind.mp ran
    have still : x.2 = v.2 := besideQuiet _ _ _ _ info
    obtain ⟨late,after,rest⟩ := receiveBodyLogged contract ran
    refine ⟨early ++ late,by rw [after,still,logged,List.append_assoc],fun p value => ?_⟩
    obtain ⟨length,last,serialized⟩ := rest p value
    cases source with
    | timeout => exact absurd (not_not.mp ok) (by simp)
    | @read raw _ delivered bounded whole =>
      subst delivered
      have all := ReadWhole.append ⟨bounded,whole⟩ last
      constructor
      · intro same
        refine all.whole.mpr ?_
        rw [same,List.length_append,Packet.serializeLength,length]
        change 3 + _ + 1 = 3 + (_ + 1)
        exact Nat.add_assoc _ _ _
      · intro exact
        obtain ⟨left,right⟩ := Log.wholeAppend.mp exact
        obtain ⟨command,result,size,three⟩ := List.length_eq_three.mp (whole.mp left)
        have stored : store header [command,result,size] = [command,result,size] := by
          rw [storeAll (by simp [room]),List.drop_eq_nil_of_le (by simp [room]),List.append_nil]
        rw [Log.deliveredAppend,serialized right,three,stored]
        rfl

def SendReports (p : Packet) (result : Result) (log : Log) : Prop := result = .ok → log.accepted = p.frame

def ReadReports (buffer : Bytes) (size : UInt8) (out : Result × Bytes) (log : Log) : Prop :=
  out.1 = .ok → log.delivered.length = size.toNat ∧ out.2 = store buffer log.delivered

def IsNewReports (result : Result) (log : Log) : Prop := result = .ok → ∃ skipped, log.delivered = skipped ++ startMarker

def ReceiveReports (p : Packet) (log : Log) : Prop := log.delivered = p.serialize ++ [p.getSum]

theorem readReports (contract : h.Contract) {buffer : Bytes} {size : UInt8} {s t : σ} {log : Log} {out : Result × Bytes}
    (ran : (read h.logged buffer size waitUsec).Returns (s,[]) out (t,log)) : ReadReports buffer size out log ↔ log.Whole := by
  obtain ⟨_,rfl,source⟩ := readLogged contract ran
  cases source with
  | read delivered bounded whole =>
    subst delivered
    exact Iff.trans ⟨fun reports => (reports rfl).1,fun exact _ => ⟨exact,rfl⟩⟩ whole.symm
  | timeout => exact iff_of_true (fun ok => by cases ok) fun e member => absurd member List.not_mem_nil

theorem deviceFailures {h : Host σ} (contract : h.Contract) (waitUsec : UInt32) (s t : σ) (log : Log) :
    (∀ p result, (send h.logged p).Returns (s,[]) result (t,log) → (SendReports p result log ↔ log.Whole)) ∧
    (∀ buffer size out, (read h.logged buffer size waitUsec).Returns (s,[]) out (t,log) →
      (ReadReports buffer size out log ↔ log.Whole)) ∧
    (∀ result, (isNew h.logged waitUsec).Returns (s,[]) result (t,log) → log.Whole → IsNewReports result log) ∧
    ∀ p, (receive h.logged waitUsec).Returns (s,[]) (.ofValue p) (t,log) → (ReceiveReports p log ↔ log.Whole) := by
  refine ⟨fun p result ran => ?_,fun buffer size out ran => readReports contract ran,fun result ran whole ok => ?_,
    fun p ran => ?_⟩
  · obtain ⟨rfl,_,rfl,wrote⟩ := sendLogged ran
    exact Iff.trans ⟨fun reports => reports rfl,fun same _ => same⟩ wrote.accepted
  · obtain ⟨_,rfl,marker⟩ := isNewLogged contract ran
    exact marker ok whole
  · obtain ⟨_,rfl,packets⟩ := receiveLogged contract ran
    exact packets p rfl

def steady (writes : Int) (reads : Nat) : Host Unit where
  device := {
    getSizeInRxBuffer := pure 255
    write _ := pure writes
    read size := pure (List.replicate (min size.toNat reads) 0,min size.toNat reads)
    getSenderInfo := pure [] }
  expired _ := pure false
  scratch n := pure (List.replicate n 0)
  outside _ := pure 0

theorem steadyContract (writes : Int) (reads : Nat) : (steady writes reads).Contract where
  bounded h := by
    obtain ⟨rfl,_⟩ := Program.returnsPure.mp h
    rw [List.length_replicate]
    exact Nat.min_le_left _ _
  extent h := by
    obtain ⟨rfl,_⟩ := Program.returnsPure.mp h
    exact List.length_replicate

def stateRequest : Packet := .initialise .getState .ok [] 0

def writtenWith (result : Int) : Log := stateRequest.frame.map fun b => .wrote [b] result

theorem deviceFailuresNone : (send (steady 1 255).logged stateRequest).Returns ((),[]) .ok ((),writtenWith 1) ∧
    SendReports stateRequest .ok (writtenWith 1) := by
  have ran : (send (steady 1 255).logged stateRequest).Returns ((),[]) .ok ((),writtenWith 1) := ⟨0,rfl⟩
  exact ⟨ran,((deviceFailures (steadyContract 1 255) 1000 () () (writtenWith 1)).1 _ _ ran).mpr (by decide)⟩

def nothingReceived : Packet := .initialise (ofByte 0) (ofByte 0) [] 0

theorem failuresSwallowed :
    (send (steady (-1) 0).logged stateRequest).Returns ((),[]) .ok ((),writtenWith (-1)) ∧
      (writtenWith (-1)).accepted = [] ∧ ¬ SendReports stateRequest .ok (writtenWith (-1)) ∧
      (receive (steady (-1) 0).logged 1000).Returns ((),[]) (.ofValue nothingReceived) ((),[.took 3 [],.took 1 []]) ∧
      ¬ ReceiveReports nothingReceived [.took 3 [],.took 1 []] := by
  refine ⟨⟨0,rfl⟩,by decide,fun reports => absurd (reports rfl) (by decide),⟨9,rfl⟩,fun reports => ?_⟩
  unfold ReceiveReports at reports
  exact absurd reports (by decide)

end Transport
end RTno2Proxy
