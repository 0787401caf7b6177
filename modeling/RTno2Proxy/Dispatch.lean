import RTno2Proxy.Devices
import RTno2Proxy.CommandLines

/-! src/rtno_main.cpp: `do_main`, one command of the console from its name to the line it prints, with
the texts of include/rtno2/state.h, ec_type.h, type_code.h and profile.h. -/
namespace RTno2Proxy
namespace Commands
open Imperative
open Interactive (word)
open Program (Congruence)
variable {σ τ α : Type}

def charValue (code : UInt8) : Int := code.toInt8.toInt

def stateToString : State → Bytes
  | .created => word "STATE::CREATED"
  | .inactive => word "STATE::INACTIVE"
  | .active => word "STATE::ACTIVE"
  | .err => word "STATE::ERROR"
  | .none => word "STATE::NONE"
  | .unnamed code _ => word "STATE::UNKNOWN(" ++ decimal (charValue code) ++ word ")"

def ecTypeToString : EcType → Bytes
  | .proxySynchronous => word "ProxySynchronousExecutionContext"
  | .timerOne => word "Timer1ExecutionContext"
  | .timerTwo => word "Timer2ExecutionContext"
  | .fspTimer => word "FSPTimerExecutionContext"
  | .unnamed code _ => word "UnknownExecutionContext(" ++ decimal (charValue code) ++ word ")"

def typecodeToStr : TypeCode → Bytes
  | .timedBoolean => word "TimedBoolean"
  | .timedChar => word "TimedChar"
  | .timedLong => word "TimedLong"
  | .timedFloat => word "TimedFloat"
  | .timedDouble => word "TimedDouble"
  | .timedLongSeq => word "TimedLongSeq"
  | .timedFloatSeq => word "TimedFloatSeq"
  | .timedDoubleSeq => word "TimedDoubleSeq"
  | _ => word "UnknownTypeCode"

def portToString (port : PortProfile) : Bytes :=
  word "port_profile_t(" ++ typecodeToStr port.typecode ++ word ", " ++ port.name ++ word ")"

def profileToString (prof : Profile) : Bytes :=
  word "rtno2::profile_t(inports=[" ++ prof.inports.flatMap (fun port => portToString port ++ word ",") ++
    word "], outports=[" ++ prof.outports.flatMap (fun port => portToString port ++ word ",") ++ word "]" ++ word ")"

/- `args[i]`, which is checked against nothing. -/
def argument (args : List Bytes) (i : Nat) : Act σ Bytes :=
  match args[i]? with
  | some arg => pure arg
  | none => .throw .outsideBuffer

def printed (text : α → Bytes) (result : ResultT α) : Act σ Bytes :=
  if result.result ≠ .ok then pure (resultToString result.result)
  else do
    let value ← Protocol.value result
    pure (text value)

def doMain (h : Host σ) (floats : Floats) (object : Nat → UInt8) (command : Bytes) (args : List Bytes) (waitUsec : UInt32) :
    Act σ (Int × List Bytes) :=
  if command = word "getprofile" then do
    let prof ← Protocol.getProfile h waitUsec 5
    let line ← printed profileToString prof
    pure (0,[line])
  else if command = word "getstate" then do
    let state ← Protocol.getState h waitUsec 5
    let line ← printed stateToString state
    pure (0,[line])
  else if command = word "getectype" then do
    let ectype ← Protocol.getEcType h waitUsec 5
    let line ← printed ecTypeToString ectype
    pure (0,[line])
  else if command = word "activate" then do
    let state ← Protocol.activate h waitUsec 5
    pure (0,[resultToString state])
  else if command = word "deactivate" then do
    let state ← Protocol.deactivate h waitUsec 5
    pure (0,[resultToString state])
  else if command = word "execute" then do
    let result ← Protocol.execute h waitUsec 5
    pure (0,[resultToString result])
  else if command = word "inject" then do
    let nameStr ← argument args 1
    let dataStr ← argument args 2
    let state ← inject h floats object nameStr dataStr
    pure (0,[resultToString state])
  else if command = word "print" then do
    let nameStr ← argument args 1
    let state ← print h floats nameStr
    pure (0,[state])
  else pure (0,[])

def requests (command : Bytes) : List Command :=
  if command = word "getprofile" then [.getProfile]
  else if command = word "getstate" then [.getState]
  else if command = word "getectype" then [.getContextType]
  else if command = word "activate" then [.activate]
  else if command = word "deactivate" then [.deactivate]
  else if command = word "execute" then [.execute]
  else if command = word "inject" then [.getProfile,.sendData]
  else if command = word "print" then [.getProfile,.receiveData]
  else []

section Realises
variable {Q : ∀ α : Type, Act σ α → Act τ α → Prop} {kinds : Command → Prop} {h : Host σ} {g : Host τ}

theorem resultTToStringRealised (q : Congruence Own Q) (text : α → Bytes) (result : ResultT α) :
    Q _ (resultTToString text result) (resultTToString text result) :=
  Congruence.ite (q.bind (Protocol.valueRealised q _) fun _ => q.value _) (q.value _)

theorem printPortsRealised (q : Congruence Own Q) (realises : h.Realises Q kinds g) (kind : kinds .receiveData) (floats : Floats)
    (nameStr : Bytes) (ports : List PortProfile) :
    Q _ (printPorts h floats nameStr ports) (printPorts g floats nameStr ports) := by
  have one (T : ValueType) : Q _ (printValue h floats T nameStr) (printValue g floats T nameStr) :=
    q.bind (Protocol.receiveAsRealised q realises kind T nameStr) fun _ => resultTToStringRealised q _ _
  have many (T : ValueType) : Q _ (printSeq h floats T nameStr) (printSeq g floats T nameStr) :=
    q.bind (Protocol.receiveSeqAsRealised q realises kind T nameStr) fun _ => resultTToStringRealised q _ _
  induction ports with
  | nil => exact q.value _
  | cons port rest ih =>
    refine Congruence.ite ?_ ih
    cases port.typecode with
    | timedBoolean | timedChar => exact ih
    | timedLong => exact one .int32
    | timedFloat => exact one .float
    | timedDouble => exact one .double
    | timedLongSeq => exact many .int32
    | timedFloatSeq => exact many .float
    | timedDoubleSeq => exact many .double
    | _ => exact q.value _

theorem printRealised (q : Congruence Own Q) (realises : h.Realises Q kinds g) (profile : kinds .getProfile)
    (kind : kinds .receiveData) (floats : Floats) (nameStr : Bytes) :
    Q _ (print h floats nameStr) (print g floats nameStr) :=
  q.bind (Protocol.getProfileRealised q realises profile _ _) fun _ => Congruence.ite (q.value _)
    (q.bind (Protocol.valueRealised q _) fun _ => printPortsRealised q realises kind floats nameStr _)

theorem injectPortsRealised (q : Congruence Own Q) (realises : h.Realises Q kinds g) (kind : kinds .sendData) (floats : Floats)
    (object : Nat → UInt8) (nameStr dataStr : Bytes) (ports : List PortProfile) :
    Q _ (injectPorts h floats object nameStr dataStr ports) (injectPorts g floats object nameStr dataStr ports) := by
  have sent (data : Bytes) (length : UInt8) : Q _ (Protocol.sendInportData h nameStr data length (1000 * 1000) 5)
      (Protocol.sendInportData g nameStr data length (1000 * 1000) 5) :=
    Protocol.sendInportRealised q realises kind _ _ _ _ _
  induction ports with
  | nil => exact q.value _
  | cons port rest ih =>
    refine Congruence.ite ?_ ih
    cases port.typecode with
    | timedBoolean | timedChar | timedLong | timedFloat | timedDouble => exact sent _ _
    | timedLongSeq | timedFloatSeq | timedDoubleSeq => exact sent _ _
    | _ => exact q.value _

theorem injectRealised (q : Congruence Own Q) (realises : h.Realises Q kinds g) (profile : kinds .getProfile)
    (kind : kinds .sendData) (floats : Floats) (object : Nat → UInt8) (nameStr dataStr : Bytes) :
    Q _ (inject h floats object nameStr dataStr) (inject g floats object nameStr dataStr) :=
  q.bind (Protocol.getProfileRealised q realises profile _ _) fun _ => Congruence.ite (q.value _)
    (q.bind (Protocol.valueRealised q _) fun _ => injectPortsRealised q realises kind floats object nameStr dataStr _)

theorem argumentRealised (q : Congruence Own Q) (args : List Bytes) (i : Nat) :
    Q _ (argument args i) (argument args i) := by
  unfold argument
  cases args[i]? with
  | some arg => exact q.value arg
  | none => exact q.raise (by simp [Own])

theorem printedRealised (q : Congruence Own Q) (text : α → Bytes) (result : ResultT α) :
    Q _ (printed text result) (printed text result) :=
  Congruence.ite (q.value _) (q.bind (Protocol.valueRealised q _) fun _ => q.value _)

theorem doMainRealised (q : Congruence Own Q) (realises : h.Realises Q kinds g) (floats : Floats) (object : Nat → UInt8)
    {command : Bytes} (args : List Bytes) (waitUsec : UInt32) (allowed : ∀ c ∈ requests command, kinds c) :
    Q _ (doMain h floats object command args waitUsec) (doMain g floats object command args waitUsec) := by
  have answered {α β : Type} {c : Command} (kind : kinds c) (after : α) {exit : ResultT Packet → Act σ α}
      {exit' : ResultT Packet → Act τ α} {next : α → Act σ β} {next' : α → Act τ β}
      (exits : ∀ result, Q _ (exit result) (exit' result)) (rest : ∀ a, Q _ (next a) (next' a)) :
      Q _ (Program.attempts (Protocol.attempt h c waitUsec exit) after (5 : Int).toNat >>= next)
        (Program.attempts (Protocol.attempt g c waitUsec exit') after (5 : Int).toNat >>= next') :=
    q.bind (q.attempts after (Protocol.attemptRealised q realises kind waitUsec exits) _) rest
  unfold doMain
  unfold requests at allowed
  -- One goal for each name that `do_main` knows, in the order of its comparisons, and one for any other.
  split_ifs at allowed ⊢
  · exact q.bind (Protocol.getProfileRealised q realises (allowed _ (by simp)) _ _) fun _ =>
      q.bind (printedRealised q _ _) fun _ => q.value _
  · exact answered (allowed _ (by simp)) _ (Protocol.firstByteRealised q realises) fun _ =>
      q.bind (printedRealised q _ _) fun _ => q.value _
  · exact answered (allowed _ (by simp)) _ (Protocol.firstByteRealised q realises) fun _ =>
      q.bind (printedRealised q _ _) fun _ => q.value _
  · exact answered (allowed _ (by simp)) _ (fun _ => q.value _) fun _ => q.value _
  · exact answered (allowed _ (by simp)) _ (fun _ => q.value _) fun _ => q.value _
  · exact answered (allowed _ (by simp)) _ (fun _ => q.bind (Protocol.valueRealised q _) fun _ => q.value _)
      fun _ => q.value _
  · exact q.bind (argumentRealised q _ _) fun _ => q.bind (argumentRealised q _ _) fun _ =>
      q.bind (injectRealised q realises (allowed _ (by simp)) (allowed _ (by simp)) _ _ _ _) fun _ => q.value _
  · exact q.bind (argumentRealised q _ _) fun _ =>
      q.bind (printRealised q realises (allowed _ (by simp)) (allowed _ (by simp)) _ _) fun _ => q.value _
  · exact q.value _

end Realises

end Commands
end RTno2Proxy
