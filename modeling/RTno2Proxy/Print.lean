import RTno2Proxy.Inject

/-! When `print` says that there is no such out-port. A branch for a type code returns, or it is
empty and the search goes on. -/
namespace RTno2Proxy
namespace Commands
open Imperative
open Interactive (word)
open Protocol (Delivers outportRequest receiveOutportData)

section Texts

theorem notFoundText {r : Result} : resultToString r = resultToString .outportNotFound ↔ r = .outportNotFound := by
  constructor
  · intro same
    cases r with
    | unnamed code other =>
      have letter : ascii 'U' = ascii 'O' := Option.some.inj (congrArg (fun s : Bytes => s[8]?) same)
      exact absurd letter (by decide)
    | outportNotFound => rfl
    | _ => exact absurd same (by decide)
  · rintro rfl
    rfl

theorem okText (text : Bytes) : word "RESULT::OK(" ++ text ≠ resultToString .outportNotFound := by
  intro same
  have letter : ascii 'K' = ascii 'U' := Option.some.inj (congrArg (fun s : Bytes => s[9]?) same)
  exact absurd letter (by decide)

end Texts

section Readings
variable {setting : Setting} {nameStr : Bytes} {w u t : Line} {α : Type}

def OutportAnswered (setting : Setting) (nameStr : Bytes) (u t : Line) (result : Result) : Prop :=
  ∃ reply, Delivers setting (1000 * 1000) (u.sent setting (outportRequest (setting.scratch 1) nameStr)) reply t ∧
    reply.command = .receiveData ∧ reply.result = result

theorem answeredMoves {result : Result} : ¬ OutportAnswered setting nameStr u u result := by
  rintro ⟨reply,delivered,_⟩
  obtain ⟨_,took⟩ := Protocol.deliversTook delivered
  have same := Protocol.sentWritten took
  simp [Packet.frame,Transport.startMarker] at same

theorem outportSource {data : Bytes} {maxSize sizeRead : UInt8} {out : Result × Bytes × UInt8}
    (h : (receiveOutportData (Line.host setting) nameStr data maxSize sizeRead (1000 * 1000) 5).Returns u out t) :
    (out.1 ≠ .err → OutportAnswered setting nameStr u t out.1) ∧
      ∀ result v, OutportAnswered setting nameStr u v result → out.1 = result := by
  obtain ⟨_,⟨rfl,unanswered⟩ | ⟨p,delivered,command,copied⟩⟩ := Protocol.receiveOutportSource h
  · refine ⟨fun bad => absurd rfl bad,fun result v answer => ?_⟩
    obtain ⟨reply,again,command,_⟩ := answer
    exact absurd command (unanswered reply ⟨v,again⟩)
  · have code := Protocol.copyOutCode copied
    refine ⟨fun _ => ⟨p,delivered,command,code.symm⟩,fun result v answer => ?_⟩
    obtain ⟨reply,again,_,carried⟩ := answer
    obtain ⟨rfl,_⟩ := Protocol.deliversUnique again delivered
    exact code.trans carried

def reading {σ : Type} (h : Host σ) (nameStr : Bytes) (into : Bytes → UInt8 → Act σ α) : Act σ (ResultT α) := do
  let size ← h.scratch 1
  let buffer ← h.scratch Protocol.maxPacketSize.toNat
  let state ← receiveOutportData h nameStr buffer Protocol.maxPacketSize (size.headD 0) (1000 * 1000) 5
  if state.1 = .ok then do
    let val ← into state.2.1 state.2.2
    pure (.ofValue val)
  else pure (.ofResult state.1)

theorem readingText (into : Bytes → UInt8 → Act Line α) {text : α → Bytes} {out : Bytes}
    (h : (reading (Line.host setting) nameStr into >>= resultTToString text).Returns u out t) :
    out = resultToString .outportNotFound ↔ OutportAnswered setting nameStr u t .outportNotFound := by
  obtain ⟨val,v,read,last⟩ := Program.returnsBind.mp h
  obtain ⟨_,_,size,afterSize⟩ := Program.returnsBind.mp read
  obtain ⟨_,rfl⟩ := Transport.scratchReturns.mp size
  obtain ⟨_,_,buffer,afterBuffer⟩ := Program.returnsBind.mp afterSize
  obtain ⟨_,rfl⟩ := Transport.scratchReturns.mp buffer
  obtain ⟨state,x,received,converted⟩ := Program.returnsBind.mp afterBuffer
  obtain ⟨answered,carried⟩ := outportSource received
  split at converted
  · rename_i ok
    obtain ⟨raw,_,_,made⟩ := Program.returnsBind.mp converted
    obtain ⟨rfl,rfl⟩ := Program.returnsPure.mp made
    obtain ⟨value,_,present,told⟩ := Program.returnsBind.mp last
    obtain ⟨rfl,_⟩ := Program.returnsPure.mp told
    refine iff_of_false ?_ fun answer => ?_
    · rw [List.append_assoc]
      exact okText _
    · have bad := carried _ _ answer
      rw [ok] at bad
      cases bad
  · rename_i failed
    obtain ⟨rfl,rfl⟩ := Program.returnsPure.mp converted
    rw [resultTToString,if_neg (show ¬ (ResultT.ofResult (α := α) state.1).result = .ok from failed)] at last
    obtain ⟨rfl,rfl⟩ := Program.returnsPure.mp last
    refine notFoundText.trans ⟨fun missing => ?_,fun answer => carried _ _ answer⟩
    change state.1 = _ at missing
    rw [← missing]
    exact answered (by rw [missing]; simp)

end Readings

section Ports
variable {setting : Setting} {floats : Floats} {nameStr : Bytes} {w u t : Line} {prof : Profile}

def unprinted : List TypeCode := [.timedBoolean,.timedChar]

theorem printPortNone {σ : Type} {h : Host σ} {code : TypeCode} : printPort h floats nameStr code = none ↔ code ∈ unprinted := by
  cases code <;> simp [printPort,unprinted]

theorem printPortText {code : TypeCode} {returned : Act Line Bytes} {text : Bytes}
    (branch : printPort (Line.host setting) floats nameStr code = some returned) (h : returned.Returns u text t) :
    text = resultToString .outportNotFound ↔ OutportAnswered setting nameStr u t .outportNotFound := by
  have values {T : ValueType} (same : printValue (Line.host setting) floats T nameStr = returned) :
      text = resultToString .outportNotFound ↔ OutportAnswered setting nameStr u t .outportNotFound :=
    readingText (Protocol.into (Line.host setting) T) (same ▸ h)
  have sequences {T : ValueType} (same : printSeq (Line.host setting) floats T nameStr = returned) :
      text = resultToString .outportNotFound ↔ OutportAnswered setting nameStr u t .outportNotFound :=
    readingText (Protocol.intoVec (Line.host setting) T) (same ▸ h)
  have other (same : pure (resultToString .err) = returned) :
      text = resultToString .outportNotFound ↔ OutportAnswered setting nameStr u t .outportNotFound := by
    subst same
    obtain ⟨rfl,rfl⟩ := Program.returnsPure.mp h
    exact iff_of_false (by decide) answeredMoves
  cases code with
  | timedBoolean => cases branch
  | timedChar => cases branch
  | timedLong => exact values (Option.some.inj branch)
  | timedFloat => exact values (Option.some.inj branch)
  | timedDouble => exact values (Option.some.inj branch)
  | timedLongSeq => exact sequences (Option.some.inj branch)
  | timedFloatSeq => exact sequences (Option.some.inj branch)
  | timedDoubleSeq => exact sequences (Option.some.inj branch)
  | _ => exact other (Option.some.inj branch)

theorem printPortsEnd {σ : Type} (h : Host σ) (floats : Floats) (nameStr : Bytes) (ports : List PortProfile) :
    (∃ port ∈ ports, port.name = nameStr ∧ port.typecode ∉ unprinted ∧
        printPort h floats nameStr port.typecode = some (printPorts h floats nameStr ports)) ∨
      (∀ port ∈ ports, port.name = nameStr → port.typecode ∈ unprinted) ∧
        printPorts h floats nameStr ports = pure (resultToString .outportNotFound) := by
  induction ports with
  | nil => exact .inr ⟨by simp,rfl⟩
  | cons port rest ih =>
    by_cases ends : port.name = nameStr ∧ port.typecode ∉ unprinted
    · obtain ⟨named,printed⟩ := ends
      obtain ⟨returned,branch⟩ := Option.ne_none_iff_exists'.mp (printPortNone.not.mpr printed)
      refine .inl ⟨port,List.mem_cons_self,named,printed,?_⟩
      rw [printPorts,if_pos named,branch]
    · have goes : printPorts h floats nameStr (port :: rest) = printPorts h floats nameStr rest := by
        by_cases named : port.name = nameStr
        · have skipped : printPort h floats nameStr port.typecode = none :=
            printPortNone.mpr (not_not.mp fun printed => ends ⟨named,printed⟩)
          rw [printPorts,if_pos named,skipped]
        · rw [printPorts,if_neg named]
      rw [goes]
      rcases ih with ⟨found,member,first⟩ | ⟨all,last⟩
      · exact .inl ⟨found,List.mem_cons_of_mem _ member,first⟩
      · refine .inr ⟨List.forall_mem_cons.mpr ⟨fun named => ?_,all⟩,last⟩
        exact not_not.mp fun printed => ends ⟨named,printed⟩

def SaysMissing (setting : Setting) (floats : Floats) (nameStr : Bytes) (prof : Profile) (w u : Line) : Prop :=
  ∀ text t, (print (Line.host setting) floats nameStr).Returns w text t →
    (text = resultToString .outportNotFound ↔
      (∀ port ∈ prof.outports, port.name ≠ nameStr) ∨ OutportAnswered setting nameStr u t .outportNotFound)

theorem printQueried (queried : Queried setting w prof u) (v : Except Fault Bytes) (t : Line) :
    (print (Line.host setting) floats nameStr).Evaluates w v t ↔
      (printPorts (Line.host setting) floats nameStr prof.outports).Evaluates u v t := by
  refine (Program.evaluatesAfter queried).trans ?_
  exact Program.evaluatesAfter (Protocol.valueReturns.mpr ⟨rfl,rfl⟩)

theorem printSaysMissing {setting : Setting} {nameStr : Bytes} {w u : Line} {prof : Profile} (floats : Floats)
    (queried : Queried setting w prof u) : SaysMissing setting floats nameStr prof w u ↔
      (∀ port ∈ prof.outports, port.name ≠ nameStr) ∨
        ∃ port ∈ prof.outports, port.name = nameStr ∧ port.typecode ∉ unprinted := by
  rcases printPortsEnd (Line.host setting) floats nameStr prof.outports with
    ⟨port,member,named,printed,branch⟩ | ⟨all,last⟩
  · refine iff_of_true (fun text t ran => ?_) (.inr ⟨port,member,named,printed⟩)
    rw [printPortText branch ((printQueried queried _ _).mp ran)]
    refine ⟨.inr,fun either => either.resolve_left fun blank => blank port member named⟩
  · have ran : (print (Line.host setting) floats nameStr).Returns w (resultToString .outportNotFound) u := by
      refine (printQueried queried _ _).mpr ?_
      rw [last]
      exact Program.returnsPure.mpr ⟨rfl,rfl⟩
    constructor
    · intro law
      exact .inl (((law _ _ ran).mp rfl).resolve_right answeredMoves)
    · rintro (blank | ⟨port,member,named,printed⟩)
      · intro text t again
        obtain ⟨rfl,rfl⟩ := Program.returnsUnique again ran
        exact iff_of_true rfl (.inl blank)
      · exact absurd (all port member named) printed

def outPort (code : Char) : Packet := ⟨.outportProfile,.ok,[ascii code,ascii 'o'],show 2 < 256 by decide⟩

set_option maxRecDepth 4000 in
theorem printSaysMissingLong : SaysMissing (announcing [outPort 'l']) noFloats [ascii 'o']
    (Protocol.announced [outPort 'l']) .idle Protocol.profileAsked := by
  have queried : Queried (announcing [outPort 'l']) .idle (Protocol.announced [outPort 'l']) Protocol.profileAsked := ⟨9,rfl⟩
  exact (printSaysMissing noFloats queried).mpr (.inr (by decide))

set_option maxRecDepth 4000 in
theorem booleanMissing : Queried (announcing [outPort 'b']) .idle (Protocol.announced [outPort 'b']) Protocol.profileAsked ∧
    (print (Line.host (announcing [outPort 'b'])) noFloats [ascii 'o']).Returns .idle (resultToString .outportNotFound)
      Protocol.profileAsked ∧
    ¬ SaysMissing (announcing [outPort 'b']) noFloats [ascii 'o'] (Protocol.announced [outPort 'b']) .idle
      Protocol.profileAsked := by
  have ran : (print (Line.host (announcing [outPort 'b'])) noFloats [ascii 'o']).Returns .idle
      (resultToString .outportNotFound) Protocol.profileAsked := ⟨9,rfl⟩
  refine ⟨⟨9,rfl⟩,ran,fun law => ?_⟩
  have absent := ((law _ _ ran).mp rfl).resolve_right answeredMoves
  exact absurd absent (by decide)

end Ports

end Commands
end RTno2Proxy
