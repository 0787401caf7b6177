import RTno2Proxy.Inject

/-! Every operation of the protocol comes to an end on every finite stream. The passes of the two
loops inside one attempt are bounded by the bytes that are left, the attempts by the retries. -/
namespace RTno2Proxy
open Imperative
open Line (Took tookNothing)

def Consumes {α β : Type} (body : α → Act Line (α ⊕ β)) : Prop :=
  ∀ a next w t, (body a).Returns w (.inl next) t → ∃ raw, raw ≠ [] ∧ Took w raw t

theorem tookShorter {w t : Line} {raw : Bytes} (filled : raw ≠ []) (took : Took w raw t) : t.stream.length < w.stream.length := by
  have positive := List.length_pos_iff.mpr filled
  rw [took.stream,List.length_append]
  omega

namespace Transport
variable {setting : Setting} {waitUsec : UInt32}

theorem isNewConsumes (setting : Setting) (waitUsec : UInt32) : Consumes (isNewPass (Line.host setting) waitUsec) := by
  intro buf next w t pass
  rcases isNewPassSource pass with ⟨_,bad,_⟩ | ⟨_,skipped,_,took,filled,_⟩
  · cases bad
  · exact ⟨skipped,filled,took⟩

end Transport

namespace Protocol
variable {setting : Setting} {waitUsec : UInt32} {α : Type}

def Exits (exit : ResultT Packet → Act Line α) : Prop :=
  ∀ result w, (exit result).Total w (fun _ t => t = w) fun e t => e = .badOptionalAccess ∧ t = w

theorem valueTotal (result : ResultT Packet) (w : Line) :
    (value result : Act Line Packet).Total w (fun _ t => t = w) fun e t => e = .badOptionalAccess ∧ t = w := by
  unfold value
  split
  · exact Program.totalPure rfl
  · exact .inr ⟨_,w,⟨0,rfl⟩,rfl,rfl⟩

theorem payloadReturns (inside : ∀ i, (setting.outside i).isSome) (p : Packet) (i : Int) (w : Line) :
    ∃ b, (payload (Line.host setting) p i).Returns w b w := by
  unfold payload
  split
  · exact ⟨_,Program.returnsPure.mpr ⟨rfl,rfl⟩⟩
  · obtain ⟨b,there⟩ := Option.isSome_iff_exists.mp (inside i)
    refine ⟨b,?_⟩
    simp only [Line.host,there]
    exact Program.returnsPure.mpr ⟨rfl,rfl⟩

theorem payloadRangeReturns (inside : ∀ i, (setting.outside i).isSome) (p : Packet) (i : Int) (n : Nat) (w : Line) :
    ∃ raw, (payloadRange (Line.host setting) p i n).Returns w raw w := by
  induction n generalizing i with
  | zero => exact ⟨[],Program.returnsPure.mpr ⟨rfl,rfl⟩⟩
  | succ n ih =>
    obtain ⟨b,first⟩ := payloadReturns inside p i w
    obtain ⟨rest,later⟩ := ih (i + 1)
    exact ⟨b :: rest,Program.returnsBind.mpr ⟨b,w,first,Program.returnsBind.mpr ⟨rest,w,later,
      Program.returnsPure.mpr ⟨rfl,rfl⟩⟩⟩⟩

theorem exitsPure {exit : ResultT Packet → α} : Exits fun result => (pure (exit result) : Act Line α) :=
  fun _ _ => Program.totalPure rfl

theorem exitsValue {next : ResultT Packet → Packet → Act Line α} (rest : ∀ result p w, ∃ a, (next result p).Returns w a w) :
    Exits fun result => value result >>= next result := by
  intro result w
  refine Program.totalBind (Program.totalWeaken (valueTotal result w) (fun p t same => ?_) fun _ _ post => post)
  obtain ⟨a,ran⟩ := rest result p t
  exact Program.totalReturns ran same

theorem firstByteExits {ε : Type} [EnumClass ε] (inside : ∀ i, (setting.outside i).isSome) :
    Exits (firstByte (Line.host setting) : ResultT Packet → Act Line (ResultT ε)) := by
  refine exitsValue fun _ p w => ?_
  obtain ⟨code,read⟩ := payloadReturns inside p 0 w
  exact ⟨_,Program.returnsBind.mpr ⟨code,w,read,Program.returnsPure.mpr ⟨rfl,rfl⟩⟩⟩

theorem copyOutExits (inside : ∀ i, (setting.outside i).isSome) (data : Bytes) (maxSize : UInt8) :
    Exits (copyOut (Line.host setting) · data maxSize) := by
  refine exitsValue fun _ p w => ?_
  obtain ⟨nameLen,first⟩ := payloadReturns inside p 0 w
  obtain ⟨dataLen,second⟩ := payloadReturns inside p 1 w
  obtain ⟨raw,copied⟩ := payloadRangeReturns inside p (2 + nameLen.toInt8.toInt) dataLen.toNat w
  by_cases large : dataLen > maxSize
  · refine ⟨(p.result,data,dataLen),Program.returnsBind.mpr ⟨nameLen,w,first,Program.returnsBind.mpr ⟨dataLen,w,second,?_⟩⟩⟩
    rw [if_pos large]
    exact Program.returnsPure.mpr ⟨rfl,rfl⟩
  · refine ⟨(p.result,Transport.store data raw,dataLen),
      Program.returnsBind.mpr ⟨nameLen,w,first,Program.returnsBind.mpr ⟨dataLen,w,second,?_⟩⟩⟩
    rw [if_neg large]
    exact Program.returnsBind.mpr ⟨raw,w,copied,Program.returnsPure.mpr ⟨rfl,rfl⟩⟩

theorem answerTotal {c : Command} {exit : ResultT Packet → Act Line α} {other : α} (finite : waitUsec ≠ Transport.uint32Max)
    (exits : Exits exit) (w : Line) :
    (answer (Line.host setting) c waitUsec exit other).Total w (fun _ t => t.written = w.written)
      fun e t => e = .badOptionalAccess ∧ t.written = w.written := by
  obtain ⟨result,u,waited⟩ := waitEnds setting c finite w
  obtain ⟨_,took⟩ := waitTook waited
  refine Program.totalAfter waited ?_
  split
  · refine Program.totalWeaken (exits result u) ?_ ?_
    · rintro _ _ rfl
      exact took.written
    · rintro _ _ ⟨thrown,rfl⟩
      exact ⟨thrown,took.written⟩
  · exact Program.totalPure took.written

theorem attemptTotal {c : Command} {exit : ResultT Packet → Act Line α} (finite : waitUsec ≠ Transport.uint32Max)
    (exits : Exits exit) (w : Line) :
    (attempt (Line.host setting) c waitUsec exit).Total w (fun _ t => t.written = w.written ++ (command c).frame)
      fun e t => e = .badOptionalAccess ∧ t.written = w.written ++ (command c).frame := by
  obtain ⟨result,u,waited⟩ := waitEnds setting c finite (w.sent setting (command c))
  obtain ⟨_,took⟩ := waitTook waited
  refine Program.totalAfter (Transport.sendSent setting w _) (Program.totalAfter waited ?_)
  split
  · refine Program.totalBind (Program.totalWeaken (exits result u) ?_ ?_)
    · rintro _ _ rfl
      exact Program.totalPure (sentWritten took)
    · rintro _ _ ⟨thrown,rfl⟩
      exact ⟨thrown,sentWritten took⟩
  · exact Program.totalPure (sentWritten took)

def AtMost (n : Nat) (request : Packet) (w t : Line) : Prop := ∃ k ≤ n, Handed w t (List.replicate k request)

theorem handedAgain {request : Packet} {w u t : Line} {k : Nat} (before : Handed w u (List.replicate k request))
    (small : request.data.length ≤ 252) (written : t.written = u.written ++ request.frame) :
    Handed w t (List.replicate (k + 1) request) := by
  rw [List.replicate_succ']
  exact before.more small written

theorem attemptsTotal {c : Command} {exit : ResultT Packet → Act Line α} (after : α) (n : Nat)
    (finite : waitUsec ≠ Transport.uint32Max) (exits : Exits exit) (w : Line) :
    (Program.attempts (attempt (Line.host setting) c waitUsec exit) after n).Total w
      (fun _ t => AtMost n (command c) w t) fun e t => e = .badOptionalAccess ∧ AtMost n (command c) w t := by
  refine Program.totalAttempts (k := 0) (fun k u => Handed w u (List.replicate k (command c))) (fun k u less before => ?_)
    (fun u all => ⟨n,Nat.le_refl n,Nat.zero_add n ▸ all⟩) (.nothing w)
  have enough : k + 1 ≤ n := by omega
  refine Program.totalWeaken (attemptTotal finite exits u) (fun x t written => ?_) fun e t ⟨thrown,written⟩ => ?_
  · have handed := handedAgain before (Nat.zero_le _) written
    cases x with
    | some a => exact ⟨k + 1,enough,handed⟩
    | none => exact handed
  · exact ⟨thrown,k + 1,enough,handedAgain before (Nat.zero_le _) written⟩

theorem deliversConsumes {w t : Line} {p : Packet} (delivered : Delivers setting waitUsec w p t) :
    ∃ raw, raw ≠ [] ∧ Took w raw t := by
  obtain ⟨u,new,received⟩ := delivered
  cases Transport.isNewSource new with
  | @found skipped _ took _ =>
    obtain ⟨raw,rest⟩ := (Transport.receiveSource received).took
    exact ⟨skipped ++ Transport.startMarker ++ raw,by simp [Transport.startMarker],took.append rest⟩

theorem getProfilePassRuns {profile next : Profile} {w t : Line}
    (pass : (getProfilePass (Line.host setting) waitUsec profile).Returns w (.inl next) t) :
    ∃ p, Delivers setting waitUsec w p t ∧ ¬ Stops p := by
  rcases getProfilePassDelivers pass with bad | bad | ⟨p,delivered,frame⟩
  · cases bad
  · cases bad
  · refine ⟨p,delivered,fun stops => ?_⟩
    cases (profileFrameStops stops).symm.trans frame

theorem getProfileConsumes (setting : Setting) (waitUsec : UInt32) : Consumes (getProfilePass (Line.host setting) waitUsec) := by
  intro profile next w t pass
  obtain ⟨_,delivered,_⟩ := getProfilePassRuns pass
  exact deliversConsumes delivered

theorem profileFrameFits (profile : Profile) {p : Packet} (fits : IsPort p → 1 ≤ p.data.length ∧ p.data.length ≤ 64) :
    ∃ x, profileFrame profile p = .ok x := by
  by_cases stops : Stops p
  · exact ⟨_,profileFrameStops stops⟩
  · by_cases port : IsPort p
    · have parsed := parsePort (fits port)
      rcases port with command | command
      · exact ⟨_,(profileFrameInport profile command).mpr ⟨_,parsed,rfl⟩⟩
      · exact ⟨_,(profileFrameOutport profile command).mpr ⟨_,parsed,rfl⟩⟩
    · obtain ⟨notIn,notOut⟩ := not_or.mp port
      refine ⟨.inl profile,?_⟩
      unfold Stops at stops
      unfold profileFrame
      split <;> simp_all

theorem getProfilePassEnds (profile : Profile) {w : Line} (finite : waitUsec ≠ Transport.uint32Max)
    (fits : ∀ p t, Delivers setting waitUsec w p t → IsPort p → 1 ≤ p.data.length ∧ p.data.length ≤ 64) :
    (getProfilePass (Line.host setting) waitUsec profile).Ends w := by
  refine Program.endsBind (Transport.isNewEnds setting waitUsec (.inr finite)) fun found u new => ?_
  split
  · exact Program.endsPure _ _
  · rename_i ok
    refine Program.endsBind (Transport.receiveEnds setting waitUsec (.inr finite)) fun out v received => ?_
    rcases Transport.receiveCoupled received with ⟨p,rfl⟩ | ⟨failed,bad,rfl⟩
    · obtain ⟨x,frame⟩ := profileFrameFits profile (fits p v ⟨u,not_not.mp ok ▸ new,received⟩)
      rw [if_neg (show ¬ (ResultT.ofValue p).result ≠ .ok from not_not.mpr rfl)]
      refine Program.endsBind (Program.endsPure p v) fun pac x present => ?_
      obtain ⟨same,rfl⟩ := valueReturns.mp present
      cases same
      exact ⟨_,_,Program.returnsLift.mpr ⟨frame,rfl⟩⟩
    · rw [if_pos (show (ResultT.ofResult (α := Packet) failed).result ≠ .ok from bad)]
      split <;> exact Program.endsPure _ _

def Decodes (setting : Setting) (waitUsec : UInt32) (n : Nat) (w : Line) (p : Packet) : Prop :=
  ∃ k < n, ∃ u heard t, Program.Fails (profileAttempt (Line.host setting) waitUsec) k w u ∧
    Reads setting waitUsec (u.sent setting (command .getProfile)) (heard ++ [p]) t ∧ ∀ q ∈ heard, ¬ Stops q

theorem readsLast {w u t : Line} {frames : List Packet} {p : Packet} (reads : Reads setting waitUsec w frames u)
    (last : Delivers setting waitUsec u p t) : Reads setting waitUsec w (frames ++ [p]) t := by
  induction reads with
  | nil => exact .cons last (.nil t)
  | cons first later ih => exact .cons first (ih last)

/- The invariant of the loop is what has been heard so far, its measure what there is left to hear. -/
theorem profileAttemptTotal {w u : Line} {k n : Nat} (finite : waitUsec ≠ Transport.uint32Max) (less : k < n)
    (fits : ∀ p, Decodes setting waitUsec n w p → IsPort p → 1 ≤ p.data.length ∧ p.data.length ≤ 64)
    (fails : Program.Fails (profileAttempt (Line.host setting) waitUsec) k w u) :
    (profileAttempt (Line.host setting) waitUsec).Total u
      (fun _ t => t.written = u.written ++ (command .getProfile).frame) fun _ _ => False := by
  refine Program.totalAfter (profileSent setting u) (Program.totalLoop
    (fun _ v => ∃ heard raw, Reads setting waitUsec (u.sent setting (command .getProfile)) heard v ∧
      (∀ q ∈ heard, ¬ Stops q) ∧ Took (u.sent setting (command .getProfile)) raw v)
    (fun _ v => v.stream.length) (fun profile v inv => ?_) ⟨[],[],.nil _,by simp,tookNothing _⟩)
  obtain ⟨heard,raw,reads,running,took⟩ := inv
  have decoded (p : Packet) (t : Line) (delivered : Delivers setting waitUsec v p t) : Decodes setting waitUsec n w p :=
    ⟨k,less,u,heard,t,fails,readsLast reads delivered,running⟩
  obtain ⟨x,t,pass⟩ := getProfilePassEnds profile finite fun p t delivered => fits p (decoded p t delivered)
  refine Program.totalReturns pass ?_
  cases x with
  | inl next =>
    obtain ⟨p,delivered,goesOn⟩ := getProfilePassRuns pass
    obtain ⟨more,filled,further⟩ := deliversConsumes delivered
    refine ⟨⟨heard ++ [p],raw ++ more,readsLast reads delivered,?_,took.append further⟩,tookShorter filled further⟩
    exact List.forall_mem_append.mpr ⟨running,List.forall_mem_singleton.mpr goesOn⟩
  | inr out =>
    obtain ⟨_,last⟩ := getProfilePassTook pass
    exact sentWritten (took.append last)

theorem getProfileTotal {w : Line} (retryCount : Int) (finite : waitUsec ≠ Transport.uint32Max)
    (fits : ∀ p, Decodes setting waitUsec retryCount.toNat w p → IsPort p → 1 ≤ p.data.length ∧ p.data.length ≤ 64) :
    (getProfile (Line.host setting) waitUsec retryCount).Total w
      (fun _ t => AtMost retryCount.toNat (command .getProfile) w t) fun _ _ => False := by
  refine Program.totalAttempts (k := 0) (fun k u => Program.Fails (profileAttempt (Line.host setting) waitUsec) k w u ∧
    Handed w u (List.replicate k (command .getProfile))) (fun k u less ⟨fails,before⟩ => ?_)
    (fun u ⟨_,all⟩ => ⟨_,Nat.le_refl _,Nat.zero_add retryCount.toNat ▸ all⟩) ⟨.zero w,.nothing w⟩
  have enough : k + 1 ≤ retryCount.toNat := by omega
  rcases profileAttemptTotal finite enough fits fails with ⟨x,t,ran,written⟩ | ⟨_,_,_,bad⟩
  · have handed := handedAgain before (Nat.zero_le _) written
    refine Program.totalReturns ran ?_
    cases x with
    | some out => exact ⟨k + 1,enough,handed⟩
    | none => exact ⟨Program.failsLast fails ran,handed⟩
  · exact bad.elim

end Protocol

variable {setting : Setting}

def Asked (setting : Setting) (call : Call) (w t : Line) : Prop :=
  ∃ k, Handed w t (List.replicate k (call.operation.request (setting.scratch 1))) ∧
    if call.operation.resends = true then k ≤ call.retryCount.toNat else k = 1

def PortsFit (setting : Setting) (call : Call) (w : Line) : Prop :=
  call.operation = .getProfile → ∀ p, Protocol.Decodes setting call.waitUsec call.retryCount.toNat w p →
    Protocol.IsPort p → 1 ≤ p.data.length ∧ p.data.length ≤ 64

theorem answeredOnce {α : Type} {c d : Act Line α} {w : Line} {request : Packet} (small : request.data.length ≤ 252)
    (same : ∀ v t, c.Evaluates w v t ↔ d.Evaluates (w.sent setting request) v t)
    (answered : d.Total (w.sent setting request) (fun _ t => t.written = (w.sent setting request).written)
      fun e t => e = .badOptionalAccess ∧ t.written = (w.sent setting request).written) :
    c.Total w (fun _ t => Handed w t [request]) fun e t => e = .badOptionalAccess ∧ Handed w t [request] := by
  have once {t : Line} (written : t.written = (w.sent setting request).written) : Handed w t [request] := by
    rw [Line.sent,Line.foldWritten] at written
    exact (Handed.nothing w).more small written
  rcases answered with ⟨a,t,ran,written⟩ | ⟨e,t,ran,thrown,written⟩
  · exact .inl ⟨a,t,(same _ _).mpr ran,once written⟩
  · exact .inr ⟨e,t,(same _ _).mpr ran,thrown,once written⟩

theorem askedRepeated {call : Call} {w t : Line} (resends : call.operation.resends = true)
    (most : Protocol.AtMost call.retryCount.toNat (call.operation.request (setting.scratch 1)) w t) : Asked setting call w t := by
  obtain ⟨k,less,handed⟩ := most
  exact ⟨k,handed,by rw [if_pos resends]; exact less⟩

theorem askedOnce {call : Call} {w t : Line} (other : ¬ call.operation.resends = true)
    (handed : Handed w t [call.operation.request (setting.scratch 1)]) : Asked setting call w t :=
  ⟨1,handed,by rw [if_neg other]⟩

theorem shapedTotal {call : Call} {w : Line} {α : Type} {c : Act Line α} {sent : Line → Prop} (shape : α → Reply)
    (asked : ∀ t, sent t → Asked setting call w t)
    (h : c.Total w (fun _ t => sent t) fun e t => e = .badOptionalAccess ∧ sent t) :
    (c >>= fun out => pure (shape out)).Total w (fun _ t => Asked setting call w t)
      fun e t => e = .badOptionalAccess ∧ Asked setting call w t :=
  Program.totalBind (Program.totalWeaken h (fun _ t done => Program.totalPure (asked t done))
    fun _ t ⟨thrown,done⟩ => ⟨thrown,asked t done⟩)

theorem callEnds {call : Call} {w : Line} (inside : ∀ i, (setting.outside i).isSome) (fits : call.operation.Fits)
    (finite : call.waitUsec ≠ Transport.uint32Max) (ports : PortsFit setting call w) :
    (call.run (Line.host setting)).Total w (fun _ t => Asked setting call w t)
      fun e t => e = .badOptionalAccess ∧ Asked setting call w t := by
  obtain ⟨operation,waitUsec,retryCount⟩ := call
  cases operation with
  | getState =>
    exact shapedTotal _ (fun _ => askedRepeated rfl) (Protocol.attemptsTotal _ _ finite (Protocol.firstByteExits inside) w)
  | getEcType =>
    exact shapedTotal _ (fun _ => askedRepeated rfl) (Protocol.attemptsTotal _ _ finite (Protocol.firstByteExits inside) w)
  | getProfile =>
    refine shapedTotal _ (fun _ => askedRepeated rfl) ?_
    exact Program.totalWeaken (Protocol.getProfileTotal retryCount finite (ports rfl)) (fun _ _ most => most)
      fun _ _ bad => bad.elim
  | activate => exact shapedTotal _ (fun _ => askedRepeated rfl) (Protocol.attemptsTotal _ _ finite Protocol.exitsPure w)
  | deactivate => exact shapedTotal _ (fun _ => askedRepeated rfl) (Protocol.attemptsTotal _ _ finite Protocol.exitsPure w)
  | execute =>
    refine shapedTotal _ (fun _ => askedRepeated rfl)
      (Protocol.attemptsTotal _ _ finite (Protocol.exitsValue fun result p u => ?_) w)
    exact ⟨_,Program.returnsPure.mpr ⟨rfl,rfl⟩⟩
  | sendInportData portName data =>
    have given := givenLength data
    refine shapedTotal _ (fun _ => askedOnce Bool.false_ne_true) (answeredOnce (Protocol.inportRequestSmall given fits)
      (fun _ _ => Protocol.sendInportFits setting waitUsec retryCount given fits) (Protocol.answerTotal finite ?_ _))
    exact Protocol.exitsValue fun result p u => ⟨_,Program.returnsPure.mpr ⟨rfl,rfl⟩⟩
  | receiveOutportData portName data maxSize sizeRead =>
    exact shapedTotal _ (fun _ => askedOnce Bool.false_ne_true) (answeredOnce (Protocol.outportRequestSmall _ fits)
      (fun _ _ => Protocol.receiveOutportFits setting data maxSize sizeRead waitUsec retryCount fits)
      (Protocol.answerTotal finite (Protocol.copyOutExits inside data maxSize) _))

theorem operationEnds {call : Call} {w : Line} (inside : ∀ i, (setting.outside i).isSome) (fits : call.operation.Fits)
    (finite : call.waitUsec ≠ Transport.uint32Max) (ports : PortsFit setting call w) :
    (call.run (Line.host setting)).Total w (fun _ t => Asked setting call w t)
        (fun e t => e = .badOptionalAccess ∧ Asked setting call w t) ∧
      Consumes (Transport.isNewPass (Line.host setting) call.waitUsec) ∧
      Consumes (Protocol.getProfilePass (Line.host setting) call.waitUsec) :=
  ⟨callEnds inside fits finite ports,Transport.isNewConsumes setting _,Protocol.getProfileConsumes setting _⟩

def portAnnounced : Setting := {Commands.announcing [Commands.sequencePort] with outside := fun _ => some 0}

def askProfile : Call := ⟨.getProfile,1000,1⟩

set_option maxRecDepth 4000 in
theorem portAnnouncedDelivers : ∃ u t,
    Protocol.Delivers portAnnounced 1000 (Line.idle.sent portAnnounced (Protocol.command .getProfile)) Commands.sequencePort u ∧
      Protocol.Delivers portAnnounced 1000 u Protocol.demoClosing t :=
  ⟨_,_,⟨_,⟨9,rfl⟩,⟨9,rfl⟩⟩,⟨_,⟨9,rfl⟩,⟨9,rfl⟩⟩⟩

theorem operationEndsProfile : (askProfile.run (Line.host portAnnounced)).Total .idle
    (fun _ t => Asked portAnnounced askProfile .idle t)
    fun e t => e = .badOptionalAccess ∧ Asked portAnnounced askProfile .idle t := by
  refine (@operationEnds portAnnounced askProfile .idle (fun _ => rfl) trivial (by decide) fun _ p decoded port => ?_).1
  obtain ⟨k,less,u,heard,t,fails,reads,running⟩ := decoded
  obtain rfl : k = 0 := Nat.lt_one_iff.mp less
  cases fails
  obtain ⟨x,y,first,second⟩ := portAnnouncedDelivers
  cases heard with
  | nil =>
    cases reads with
    | cons delivered _ =>
      obtain ⟨rfl,_⟩ := Protocol.deliversUnique delivered first
      decide
  | cons q heard =>
    cases reads with
    | cons delivered later =>
      obtain ⟨rfl,rfl⟩ := Protocol.deliversUnique delivered first
      cases heard with
      | nil =>
        cases later with
        | cons delivered _ =>
          obtain ⟨rfl,_⟩ := Protocol.deliversUnique delivered second
          exact absurd port (by unfold Protocol.IsPort; decide)
      | cons q heard =>
        cases later with
        | cons delivered _ =>
          obtain ⟨rfl,_⟩ := Protocol.deliversUnique delivered second
          exact absurd (.inl rfl) (running Protocol.demoClosing (by simp))

end RTno2Proxy
