import RTno2Proxy.Payloads
import RTno2Proxy.Retries

/-! Port profiles: the parser of one frame within its 64-byte array, and `get_profile` as a fold
of the frames it reads, which starts from nothing at every request. -/
namespace RTno2Proxy
open Imperative
open EnumClass (toByte ofByte)
open Line (Took tookNothing)

namespace Protocol
variable {setting : Setting} {waitUsec : UInt32}

structure ParsesInside (setting : Setting) (p : Packet) : Prop where
  count : 0 ≤ (p.getDataLength.toNat : Int) - 1
  inside : (readPortProfile (Line.host setting) p).ErrorsIn (· ≠ .outsideBuffer)
  portName : ∀ w, ∃ q, (readPortProfile (Line.host setting) p).Returns w q w ∧
    q.name = (p.data.drop 1).takeWhile (· ≠ 0)

theorem parsesInside (setting : Setting) (p : Packet) :
    ParsesInside setting p ↔ 1 ≤ p.data.length ∧ p.data.length ≤ 64 := by
  constructor
  · intro parses
    have count := parses.count
    rw [Packet.dataLength] at count
    have filled : p.data ≠ [] := List.ne_nil_of_length_pos (by omega)
    obtain ⟨q,ran,_⟩ := parses.portName .idle
    obtain ⟨parsed,_⟩ := Program.evaluatesUnique (readPortProfileParses filled .idle) ran
    obtain ⟨code,portName,data⟩ := List.exists_cons_of_ne_nil filled
    simp only [parsePortProfile,data] at parsed
    split at parsed
    · rename_i short
      unfold strbufSize at short
      rw [data,List.length_cons]
      omega
    · cases parsed
  · rintro ⟨positive,short⟩
    have filled : p.data ≠ [] := List.ne_nil_of_length_pos positive
    have ran (w : Line) : (readPortProfile (Line.host setting) p).Evaluates w (parsePortProfile p) w :=
      readPortProfileParses filled w
    rw [parsePort ⟨positive,short⟩] at ran
    refine ⟨by rw [Packet.dataLength]; omega,fun w e t raised => ?_,fun w => ⟨portOf p,ran w,?_⟩⟩
    · cases (Program.evaluatesUnique raised (ran w)).1
    · rw [portOf,PortProfile.ofChars,List.drop_one]

def longPort : Packet := ⟨.inportProfile,.ok,ascii 'l' :: List.replicate 64 (ascii 'a'),by decide⟩

def emptyPortBoard : Setting := {Setting.silent with reply := fun _ => emptyPort.whole}

def profileAsked : Line :=
  {Line.idle with late := true, written := (command .getProfile).frame, requests := [⟨command .getProfile,[]⟩]}

set_option maxRecDepth 4000 in
theorem portsOutside :
    (getProfile (Line.host emptyPortBoard) 1000 1).Raises .idle .outsideBuffer profileAsked ∧
      ¬ ParsesInside .silent emptyPort ∧ ¬ ParsesInside .silent longPort := by
  refine ⟨⟨9,rfl⟩,fun parses => absurd parses.count (by decide),fun parses => ?_⟩
  obtain ⟨q,ran,_⟩ := parses.portName .idle
  have overflow : parsePortProfile longPort = .error .outsideBuffer := by decide
  have raised : (readPortProfile (Line.host .silent) longPort).Evaluates .idle (parsePortProfile longPort) .idle :=
    readPortProfileParses (by decide) .idle
  rw [overflow] at raised
  cases (Program.evaluatesUnique raised ran).1

def Stops (p : Packet) : Prop :=
  p.command = .getProfile ∨ p.command = .packetError ∨ p.command = .packetErrorChecksum ∨ p.command = .packetErrorTimeout

/- The profile that frames announce, port by port in their order, with frames of other commands skipped. -/
def announced (frames : List Packet) : Profile := ⟨portsOf .inportProfile frames,portsOf .outportProfile frames⟩

def stopValue (profile : Profile) (stop : Packet) : ResultT Profile :=
  if stop.command = .getProfile then .ofValue profile
  else if stop.command = .packetError then .ofResult .err
  else if stop.command = .packetErrorChecksum then .ofResult .checksumError
  else .ofResult .timeout

structure ValidFrame (p : Packet) : Prop where
  small : p.data.length ≤ 252
  port : IsPort p → 1 ≤ p.data.length ∧ p.data.length ≤ 64

def extended (profile : Profile) (frames : List Packet) : Profile :=
  ⟨profile.inports ++ portsOf .inportProfile frames,profile.outports ++ portsOf .outportProfile frames⟩

theorem extendedNothing (profile : Profile) : extended profile [] = profile := by
  simp [extended,portsOf]

theorem extendedCons (profile : Profile) (p : Packet) (frames : List Packet) :
    extended (extended profile [p]) frames = extended profile (p :: frames) := by
  have split (c : Command) : portsOf c (p :: frames) = portsOf c [p] ++ portsOf c frames := by
    rw [portsOf,← List.singleton_append,List.filter_append,List.map_append,portsOf,portsOf]
  simp only [extended,List.append_assoc,split]

theorem profileFrameRuns {profile : Profile} {p : Packet} (running : ¬ Stops p) (valid : ValidFrame p) :
    profileFrame profile p = .ok (.inl (extended profile [p])) := by
  by_cases port : IsPort p
  · have parsed := parsePort (valid.port port)
    rcases port with command | command
    · rw [(profileFrameInport profile command).mpr ⟨_,parsed,rfl⟩]
      simp [extended,portsOf,command,Profile.appendInPort]
    · rw [(profileFrameOutport profile command).mpr ⟨_,parsed,rfl⟩]
      simp [extended,portsOf,command,Profile.appendOutPort]
  · have same : extended profile [p] = profile := by
      obtain ⟨notIn,notOut⟩ := not_or.mp port
      simp [extended,portsOf,notIn,notOut]
    rw [same]
    unfold Stops at running
    unfold IsPort at port
    unfold profileFrame
    split <;> simp_all

theorem profileFrameStops {profile : Profile} {p : Packet} (stops : Stops p) :
    profileFrame profile p = .ok (.inr (some (stopValue profile p))) := by
  rcases stops with command | command | command | command <;> simp [profileFrame,stopValue,command]

theorem getProfileLoopFolds (setting : Setting) (waitUsec : UInt32) {frames : List Packet} {rest : Bytes} (profile : Profile)
    {w : Line} (running : ∀ p ∈ frames, ¬ Stops p) (valid : ∀ p ∈ frames, ValidFrame p) (timely : w.Timely)
    (stream : w.stream = frames.flatMap Packet.whole ++ rest) :
    ∃ u raw, u.stream = rest ∧ Took w raw u ∧ ∀ v t,
      (Program.loop (getProfilePass (Line.host setting) waitUsec) profile).Evaluates w v t ↔
        (Program.loop (getProfilePass (Line.host setting) waitUsec) (extended profile frames)).Evaluates u v t := by
  induction frames generalizing profile w with
  | nil => exact ⟨w,[],stream,tookNothing w,fun v t => by rw [extendedNothing]⟩
  | cons p frames ih =>
    rw [List.flatMap_cons,List.append_assoc] at stream
    have frame : profileFrame profile p = .ok (.inl (extended profile [p])) :=
      profileFrameRuns (running p List.mem_cons_self) (valid p List.mem_cons_self)
    obtain ⟨x,pass,left,raw,took⟩ := getProfilePassTimely setting waitUsec timely stream frame
    obtain ⟨u,more,quiet,later,same⟩ := ih (extended profile [p]) (fun q member => running q (List.mem_cons_of_mem p member))
      (fun q member => valid q (List.mem_cons_of_mem p member)) (took.timely timely) left
    refine ⟨u,raw ++ more,quiet,took.append later,fun v t => ?_⟩
    rw [Program.evaluatesLoop,Program.evaluatesAfter pass,same,extendedCons]

inductive Reads (setting : Setting) (waitUsec : UInt32) : Line → List Packet → Line → Prop where
  | nil (w : Line) : Reads setting waitUsec w [] w
  | cons {w u t : Line} {p : Packet} {frames : List Packet} (first : Delivers setting waitUsec w p u)
      (later : Reads setting waitUsec u frames t) : Reads setting waitUsec w (p :: frames) t

theorem parsedPort {p : Packet} {q : PortProfile} (parsed : parsePortProfile p = .ok q) : q = portOf p := by
  unfold parsePortProfile at parsed
  split at parsed
  · cases parsed
  · rename_i code portName data
    split at parsed
    · cases parsed
      simp only [portOf,data,List.headD_cons,List.tail_cons]
    · cases parsed

theorem profileFrameNext {profile next : Profile} {p : Packet} (h : profileFrame profile p = .ok (.inl next)) :
    next = extended profile [p] := by
  by_cases port : IsPort p
  · rcases port with command | command
    · obtain ⟨q,parsed,same⟩ := (profileFrameInport profile command).mp h
      cases same
      simp [extended,portsOf,command,Profile.appendInPort,parsedPort parsed]
    · obtain ⟨q,parsed,same⟩ := (profileFrameOutport profile command).mp h
      cases same
      simp [extended,portsOf,command,Profile.appendOutPort,parsedPort parsed]
  · have same : extended profile [p] = profile := by
      obtain ⟨notIn,notOut⟩ := not_or.mp port
      simp [extended,portsOf,notIn,notOut]
    rw [same]
    by_cases closing : p.command = .getProfile
    · simp [profileFrame,closing] at h
    · rcases profileFrameOther closing port h with same | ⟨failed,_,same⟩
      · cases same
        rfl
      · cases same

theorem profileFrameClosed {profile out : Profile} {p : Packet}
    (h : profileFrame profile p = .ok (.inr (some (.ofValue out)))) : p.command = .getProfile ∧ out = profile := by
  by_cases closing : p.command = .getProfile
  · simp only [profileFrame,closing,Except.ok.injEq,Sum.inr.injEq,Option.some.injEq,ResultT.ofValue,ResultT.mk.injEq,
      and_true] at h
    exact ⟨closing,h.symm⟩
  · by_cases port : IsPort p
    · rcases port with command | command
      · obtain ⟨_,_,bad⟩ := (profileFrameInport profile command).mp h
        cases bad
      · obtain ⟨_,_,bad⟩ := (profileFrameOutport profile command).mp h
        cases bad
    · rcases profileFrameOther closing port h with same | ⟨failed,_,same⟩
      · cases same
      · cases same

theorem getProfileLoopReads {profile out : Profile} {w t : Line}
    (h : (Program.loop (getProfilePass (Line.host setting) waitUsec) profile).Returns w (some (.ofValue out)) t) :
    ∃ heard stop, Reads setting waitUsec w (heard ++ [stop]) t ∧ stop.command = .getProfile ∧ out = extended profile heard := by
  generalize value : some (ResultT.ofValue out) = x at h
  refine Program.loopRule (motive := fun profile w x t => some (ResultT.ofValue out) = x → ∃ heard stop,
    Reads setting waitUsec w (heard ++ [stop]) t ∧ stop.command = .getProfile ∧ out = extended profile heard) ?_ ?_ h value
  · intro profile w x t pass value
    subst value
    rcases getProfilePassDelivers pass with unfinished | bad | ⟨p,delivered,frame⟩
    · cases unfinished
    · cases bad
    · obtain ⟨closing,rfl⟩ := profileFrameClosed frame
      exact ⟨[],p,.cons delivered (.nil t),closing,(extendedNothing out).symm⟩
  · intro profile w next u x t pass later value
    rcases getProfilePassDelivers pass with unfinished | bad | ⟨p,delivered,frame⟩
    · cases unfinished
    · cases bad
    · obtain ⟨heard,stop,reads,closing,same⟩ := later value
      refine ⟨p :: heard,stop,.cons delivered reads,closing,?_⟩
      rw [same,profileFrameNext frame,extendedCons]

theorem framesWhole {frames : List Packet} (valid : ∀ p ∈ frames, ValidFrame p) :
    frames.flatMap Packet.frame = frames.flatMap Packet.whole :=
  answerWhole fun p member => (valid p member).small

theorem profileSent (setting : Setting) (w : Line) :
    (Transport.send (Line.host setting) (.initialise .getProfile .ok [] 0)).Returns w .ok (w.sent setting (command .getProfile)) :=
  Transport.sendSent setting w _

theorem sentWritten {w u : Line} {raw : Bytes} {p : Packet} (took : Took (w.sent setting p) raw u) :
    u.written = w.written ++ p.frame := by
  rw [took.written,Line.sent,Line.foldWritten]

theorem profileStopped (setting : Setting) (waitUsec : UInt32) {retryCount : Int} {before : List Packet} {stop : Packet}
    {rest : Bytes} {w : Line} (retries : 1 ≤ retryCount) (running : ∀ p ∈ before, ¬ Stops p) (stops : Stops stop)
    (valid : ∀ p ∈ before, ValidFrame p) (timely : w.Timely)
    (stream : (w.sent setting (command .getProfile)).stream = before.flatMap Packet.whole ++ (stop.whole ++ rest)) :
    ∃ t, (getProfile (Line.host setting) waitUsec retryCount).Returns w (stopValue (announced before) stop) t ∧
      t.stream = rest ∧ t.written = w.written ++ (command .getProfile).frame := by
  obtain ⟨u,_,left,took,same⟩ := getProfileLoopFolds setting waitUsec .empty running valid (Line.sentTimely timely _) stream
  obtain ⟨t,pass,quiet,_,last⟩ := getProfilePassTimely setting waitUsec (took.timely (Line.sentTimely timely _)) left
    (profileFrameStops stops)
  have ran : (profileAttempt (Line.host setting) waitUsec).Returns w (some (stopValue (announced before) stop)) t :=
    Program.returnsBind.mpr ⟨_,_,profileSent setting w,(same _ _).mpr (Program.returnsLoop.mpr (.inl pass))⟩
  exact ⟨t,Program.attemptsFirst _ (by omega) ran,quiet,sentWritten (took.append last)⟩

theorem profileRestarts (setting : Setting) {waitUsec : UInt32} {retryCount : Int} {frames : List Packet} {w : Line}
    (retries : 1 ≤ retryCount) (finite : waitUsec ≠ Transport.uint32Max) (running : ∀ p ∈ frames, ¬ Stops p)
    (valid : ∀ p ∈ frames, ValidFrame p) (timely : w.Timely)
    (stream : (w.sent setting (command .getProfile)).stream = frames.flatMap Packet.whole) :
    ∃ u, u.stream = [] ∧ u.written = w.written ++ (command .getProfile).frame ∧ ∀ v t,
      (getProfile (Line.host setting) waitUsec retryCount).Evaluates w v t ↔
        (getProfile (Line.host setting) waitUsec (retryCount - 1)).Evaluates u v t := by
  rw [← List.append_nil (frames.flatMap Packet.whole)] at stream
  obtain ⟨u,_,quiet,took,same⟩ := getProfileLoopFolds setting waitUsec .empty running valid (Line.sentTimely timely _) stream
  have pass : (getProfilePass (Line.host setting) waitUsec (extended .empty frames)).Returns u (.inr none) u.waited :=
    Program.returnsBind.mpr ⟨_,_,Transport.isNewLost setting finite quiet,Program.returnsPure.mpr ⟨rfl,rfl⟩⟩
  have ran : (profileAttempt (Line.host setting) waitUsec).Returns w none u.waited :=
    Program.returnsBind.mpr ⟨_,_,profileSent setting w,(same _ _).mpr (Program.returnsLoop.mpr (.inl pass))⟩
  have written : u.waited.written = _ := (sentWritten took : u.written = _)
  exact ⟨u.waited,quiet,written,fun v t => attemptsNext retries ran⟩

theorem profileHeard {retryCount : Int} {profile : Profile} {w t : Line}
    (h : (getProfile (Line.host setting) waitUsec retryCount).Returns w (.ofValue profile) t) :
    ∃ k < retryCount.toNat, ∃ u heard stop, Program.Fails (profileAttempt (Line.host setting) waitUsec) k w u ∧
      Reads setting waitUsec (u.sent setting (command .getProfile)) (heard ++ [stop]) t ∧
      stop.command = .getProfile ∧ profile = announced heard := by
  rcases Program.attemptsReturns.mp h with ⟨k,less,u,fails,last⟩ | ⟨_,same⟩
  · obtain ⟨_,x,sent,loop⟩ := Program.returnsBind.mp last
    obtain ⟨_,rfl⟩ := Program.returnsUnique sent (profileSent setting u)
    obtain ⟨heard,stop,reads,closing,same⟩ := getProfileLoopReads loop
    exact ⟨k,less,u,heard,stop,fails,reads,closing,same⟩
  · cases same

theorem profileFolds (setting : Setting) (waitUsec : UInt32) {retryCount : Int} {frames : List Packet} {w : Line}
    (retries : 1 ≤ retryCount) (valid : ∀ p ∈ frames, ValidFrame p) (timely : w.Timely) :
    (∀ before stop after rest, frames = before ++ stop :: after → (∀ p ∈ before, ¬ Stops p) → Stops stop →
      (w.sent setting (command .getProfile)).stream = frames.flatMap Packet.frame ++ rest →
      ∃ t, (getProfile (Line.host setting) waitUsec retryCount).Returns w (stopValue (announced before) stop) t ∧
        t.stream = after.flatMap Packet.frame ++ rest ∧ t.written = w.written ++ (command .getProfile).frame) ∧
    ((∀ p ∈ frames, ¬ Stops p) → waitUsec ≠ Transport.uint32Max →
      (w.sent setting (command .getProfile)).stream = frames.flatMap Packet.frame →
      ∃ u, u.stream = [] ∧ u.written = w.written ++ (command .getProfile).frame ∧ ∀ v t,
        (getProfile (Line.host setting) waitUsec retryCount).Evaluates w v t ↔
          (getProfile (Line.host setting) waitUsec (retryCount - 1)).Evaluates u v t) ∧
    ∀ profile t, (getProfile (Line.host setting) waitUsec retryCount).Returns w (.ofValue profile) t →
      ∃ k < retryCount.toNat, ∃ u heard stop, Program.Fails (profileAttempt (Line.host setting) waitUsec) k w u ∧
        Reads setting waitUsec (u.sent setting (command .getProfile)) (heard ++ [stop]) t ∧
        stop.command = .getProfile ∧ profile = announced heard := by
  refine ⟨fun before stop after rest shape running stops stream => ?_,fun running finite stream => ?_,
    fun profile t h => profileHeard h⟩
  · subst shape
    have all : ∀ p ∈ before, ValidFrame p := fun p member => valid p (List.mem_append_left _ member)
    have small := (valid stop (List.mem_append_right _ List.mem_cons_self)).small
    refine profileStopped setting waitUsec retries running stops all timely ?_
    rw [stream,List.flatMap_append,List.flatMap_cons,framesWhole all,Packet.wholeFrame small]
    simp only [List.append_assoc]
  · rw [framesWhole valid] at stream
    exact profileRestarts setting retries finite running valid timely stream

def demoClosing : Packet := ⟨.getProfile,.ok,[],Packet.noData⟩

theorem profileFoldsDemo : ∃ t, (getProfile (Line.host demoBoard) 1000 5).Returns .idle (.ofValue (announced demoPorts)) t ∧
    t.stream = [] ∧ t.written = (command .getProfile).frame := by
  have valid : ∀ p ∈ demoPorts ++ [demoClosing], ValidFrame p := by
    have sizes : ∀ p ∈ demoPorts ++ [demoClosing], p.data.length ≤ 252 ∧
        (p.command = .inportProfile ∨ p.command = .outportProfile → 1 ≤ p.data.length ∧ p.data.length ≤ 64) := by decide
    exact fun p member => ⟨(sizes p member).1,(sizes p member).2⟩
  have running : ∀ p ∈ demoPorts, ¬ Stops p := by unfold Stops; decide
  exact (profileFolds demoBoard 1000 (by decide) valid (by decide)).1 demoPorts demoClosing [] [] rfl running (.inl rfl) rfl

end Protocol
end RTno2Proxy
