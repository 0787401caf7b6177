import RTno2Proxy.Session

/-! Sessions in lock step: whatever the calls are, each one whose answer arrives in time
sends one request, returns what its own answer carries and takes exactly that answer. -/
namespace RTno2Proxy
open Imperative
open EnumClass (toByte ofByte)
open Line (Took tookNothing)
open Protocol (IsPort Announces)

def portOf (p : Packet) : PortProfile := .ofChars (ofByte (p.data.headD 0)) p.data.tail

def portsOf (command : Command) (frames : List Packet) : List PortProfile :=
  (frames.filter (fun p => p.command = command)).map portOf

inductive Carries : Operation → List Packet → Reply → Prop where
  | getState {p b rest} (command : p.command = .getState) (data : p.data = b :: rest) :
      Carries .getState [p] (.state (.ofValue (ofByte b)))
  | getEcType {p b rest} (command : p.command = .getContextType) (data : p.data = b :: rest) :
      Carries .getEcType [p] (.ecType (.ofValue (ofByte b)))
  | getProfile {frames last} (ports : ∀ p ∈ frames, IsPort p)
      (sizes : ∀ p ∈ frames, 1 ≤ p.data.length ∧ p.data.length ≤ 64) (closing : last.command = .getProfile) :
      Carries .getProfile (frames ++ [last])
        (.profile (.ofValue ⟨portsOf .inportProfile frames,portsOf .outportProfile frames⟩))
  | activate {p} (command : p.command = .activate) : Carries .activate [p] (.result .ok)
  | deactivate {p} (command : p.command = .deactivate) : Carries .deactivate [p] (.result .ok)
  | execute {p} (command : p.command = .execute) : Carries .execute [p] (.result .ok)
  | sendInportData {p portName data} (command : p.command = .sendData)
      (fits : 2 + portName.length + data.length ≤ 64) :
      Carries (.sendInportData portName data) [p] (.result p.result)
  | receiveOutportData {p portName name raw array nameLen dataLen maxSize sizeRead} (command : p.command = .receiveData)
      (fits : 2 + portName.length ≤ 64) (data : p.data = nameLen :: dataLen :: (name ++ raw))
      (nameLength : name.length = nameLen.toNat) (signed : nameLen.toNat < 128)
      (dataLength : raw.length = dataLen.toNat) (bounded : dataLen ≤ maxSize) (room : maxSize.toNat ≤ array.length) :
      Carries (.receiveOutportData portName array maxSize sizeRead) [p]
        (.received (p.result,raw ++ array.drop raw.length,dataLen))

theorem parsePort {p : Packet} (size : 1 ≤ p.data.length ∧ p.data.length ≤ 64) : parsePortProfile p = .ok (portOf p) := by
  unfold parsePortProfile portOf
  cases data : p.data with
  | nil => simp [data] at size
  | cons code portName =>
    have short : portName.length < strbufSize := by
      rw [data,List.length_cons] at size
      unfold strbufSize
      omega
    simp only [if_pos short,List.headD_cons,List.tail_cons]

theorem announcesPorts {frames : List Packet} (ports : ∀ p ∈ frames, IsPort p)
    (sizes : ∀ p ∈ frames, 1 ≤ p.data.length ∧ p.data.length ≤ 64) :
    Announces frames (portsOf .inportProfile frames) (portsOf .outportProfile frames) := by
  induction frames with
  | nil => exact .nil
  | cons p frames ih =>
    have parsed := parsePort (sizes p List.mem_cons_self)
    have later := ih (fun q member => ports q (List.mem_cons_of_mem p member))
      (fun q member => sizes q (List.mem_cons_of_mem p member))
    rcases ports p List.mem_cons_self with command | command
    · have added : Announces (p :: frames) (portOf p :: portsOf .inportProfile frames) (portsOf .outportProfile frames) :=
        .inport command parsed later
      simpa [portsOf,command] using added
    · have added : Announces (p :: frames) (portsOf .inportProfile frames) (portOf p :: portsOf .outportProfile frames) :=
        .outport command parsed later
      simpa [portsOf,command] using added

inductive Lockstep (setting : Setting) : List Packet → List (Call × Reply) → Prop where
  | nil (history : List Packet) : Lockstep setting history []
  | cons {history : List Packet} {call : Call} {answer : List Packet} {reply : Reply} {rest : List (Call × Reply)}
      (retries : 1 ≤ call.retryCount) (small : ∀ p ∈ answer, p.data.length ≤ 252)
      (answers : setting.reply (history ++ [call.operation.request (setting.scratch 1)]) = answer.flatMap Packet.frame)
      (carries : Carries call.operation answer reply)
      (later : Lockstep setting (history ++ [call.operation.request (setting.scratch 1)]) rest) :
      Lockstep setting history ((call,reply) :: rest)

structure Sent (w : Line) (request : Packet) (t : Line) : Prop where
  stream : t.stream = []
  written : t.written = w.written ++ request.frame
  incoming : t.incoming = []
  requests : t.requests = w.requests ++ [⟨request,[]⟩]
  polls : t.polls <:+ w.polls

theorem sentTook {setting : Setting} {w t : Line} {request : Packet} {raw : Bytes} (waiting : w.incoming = [])
    (quiet : w.stream = []) (took : Took (w.accept setting request) raw t) (left : t.stream = []) :
    Sent w request t where
  stream := left
  written := took.written
  incoming := took.incoming.trans waiting
  requests := by rw [took.requests,Line.accept,quiet]
  polls := took.polls

theorem signedByte {b : UInt8} (small : b.toNat < 128) : b.toInt8.toInt = b.toNat := by
  have bits : b.toInt8.toInt = b.toBitVec.toInt := rfl
  rw [bits,BitVec.toInt_eq_toNat_of_lt]
  · rfl
  · change 2 * b.toNat < 256
    omega

theorem copyOutCarries (setting : Setting) (rest : Bytes) {p : Packet} {name raw array : Bytes}
    {nameLen dataLen maxSize : UInt8} (data : p.data = nameLen :: dataLen :: (name ++ raw ++ rest)) (nameLength : name.length = nameLen.toNat)
    (signed : nameLen.toNat < 128) (dataLength : raw.length = dataLen.toNat) (bounded : dataLen ≤ maxSize)
    (room : raw.length ≤ array.length) (w : Line) :
    (Protocol.copyOut (Line.host setting) (.ofValue p) array maxSize).Returns w
      (p.result,raw ++ array.drop raw.length,dataLen) w := by
  have first : (Protocol.payload (Line.host setting) p 0).Returns w nameLen w :=
    Protocol.payloadInside (by simp [data]) w
  have second : (Protocol.payload (Line.host setting) p 1).Returns w dataLen w :=
    Protocol.payloadInside (by simp [data]) w
  have split : p.data = (nameLen :: dataLen :: name) ++ raw ++ rest := by simp [data]
  have start : 2 + nameLen.toInt8.toInt = (nameLen :: dataLen :: name).length := by
    rw [signedByte signed,← nameLength,List.length_cons,List.length_cons]
    omega
  have range := Protocol.payloadRangeInside setting split w
  rw [← start,dataLength] at range
  refine Program.returnsBind.mpr ⟨p,w,Protocol.valueReturns.mpr ⟨rfl,rfl⟩,Program.returnsBind.mpr ⟨_,w,first,
    Program.returnsBind.mpr ⟨_,w,second,?_⟩⟩⟩
  rw [if_neg (UInt8.not_lt.mpr bounded)]
  refine Program.returnsBind.mpr ⟨raw,w,range,Program.returnsPure.mpr ⟨?_,rfl⟩⟩
  rw [Transport.storeAll room]

theorem answerWhole {answer : List Packet} (small : ∀ p ∈ answer, p.data.length ≤ 252) :
    answer.flatMap Packet.frame = answer.flatMap Packet.whole :=
  List.flatMap_congr fun p member => (Packet.wholeFrame (small p member)).symm

theorem requestLockstep (setting : Setting) (waitUsec : UInt32) {α : Type} (exit : ResultT Packet → Act Line α)
    (after : α) {c : Command} {p : Packet} {w : Line} {a : α} {n : Nat} (more : 0 < n) (same : p.command = c)
    (quiet : w.stream = []) (waiting : w.incoming = []) (timely : w.Timely)
    (stream : (w.accept setting (Protocol.command c)).stream = [p].flatMap Packet.whole)
    (exits : ∀ u, (exit (.ofValue p)).Returns u a u) :
    ∃ t, (Program.attempts (Protocol.attempt (Line.host setting) c waitUsec exit) after n).Returns w a t ∧
      Sent w (Protocol.command c) t := by
  subst same
  obtain ⟨t,_,ran,left,took⟩ := Protocol.attemptTimely setting waitUsec timely waiting stream exits
  exact ⟨t,Program.attemptsFirst after more ran,sentTook waiting quiet took left⟩

theorem firstByteReturns (setting : Setting) {ε : Type} [EnumClass ε] {p : Packet} {b : UInt8} {rest : Bytes}
    (data : p.data = b :: rest) (u : Line) :
    (Protocol.firstByte (Line.host setting) (.ofValue p)).Returns u (.ofValue (ofByte b : ε)) u := by
  have first : (Protocol.payload (Line.host setting) p 0).Returns u b u := Protocol.payloadInside (by simp [data]) u
  exact Program.returnsBind.mpr ⟨p,u,Protocol.valueReturns.mpr ⟨rfl,rfl⟩,
    Program.returnsBind.mpr ⟨b,u,first,Program.returnsPure.mpr ⟨rfl,rfl⟩⟩⟩

theorem profileLockstep (setting : Setting) (waitUsec : UInt32) {frames : List Packet} {last : Packet} {w : Line}
    {n : Nat} (more : 0 < n) (ports : ∀ p ∈ frames, IsPort p)
    (sizes : ∀ p ∈ frames, 1 ≤ p.data.length ∧ p.data.length ≤ 64) (closing : last.command = .getProfile)
    (quiet : w.stream = []) (waiting : w.incoming = []) (timely : w.Timely)
    (stream : (w.accept setting (Protocol.command .getProfile)).stream = (frames ++ [last]).flatMap Packet.whole) :
    ∃ t, (Protocol.getProfile (Line.host setting) waitUsec n).Returns w
        (.ofValue ⟨portsOf .inportProfile frames,portsOf .outportProfile frames⟩) t ∧
      Sent w (Protocol.command .getProfile) t := by
  have accepted := Transport.sendAccept setting (p := Protocol.command .getProfile) (Nat.zero_le _) waiting
  rw [List.flatMap_append,List.flatMap_singleton,← List.append_nil last.whole] at stream
  obtain ⟨t,ran,left⟩ := Protocol.getProfileLoopTimely setting waitUsec .empty
    (Line.acceptTimely timely) (announcesPorts ports sizes) closing stream
  obtain ⟨_,took⟩ := Protocol.getProfileLoopTook ran
  exact ⟨t,Program.attemptsFirst _ more (Program.returnsBind.mpr ⟨_,_,accepted,ran⟩),sentTook waiting quiet took left⟩

theorem callLockstep {setting : Setting} {call : Call} {answer : List Packet} {reply : Reply} {w : Line}
    (retries : 1 ≤ call.retryCount) (small : ∀ p ∈ answer, p.data.length ≤ 252)
    (answers : setting.reply (w.packets ++ [call.operation.request (setting.scratch 1)]) = answer.flatMap Packet.frame)
    (carries : Carries call.operation answer reply) (quiet : w.stream = []) (waiting : w.incoming = [])
    (timely : w.Timely) :
    ∃ t, (call.run (Line.host setting)).Returns w reply t ∧
      Sent w (call.operation.request (setting.scratch 1)) t := by
  obtain ⟨operation,waitUsec,retryCount⟩ := call
  have more : 0 < retryCount.toNat := by
    dsimp only at retries
    omega
  have stream := Line.acceptStream setting w (operation.request (setting.scratch 1))
  rw [quiet,List.nil_append,answers,answerWhole small] at stream
  cases carries with
  | getState command data =>
    obtain ⟨t,ran,sent⟩ := requestLockstep setting waitUsec (α := ResultT State) _ (.ofResult .err) more command quiet waiting timely stream
      (firstByteReturns setting data)
    exact ⟨t,Program.returnsMap.mpr ⟨_,ran,rfl⟩,sent⟩
  | getEcType command data =>
    obtain ⟨t,ran,sent⟩ := requestLockstep setting waitUsec (α := ResultT EcType) _ (.ofResult .err) more command quiet waiting timely stream
      (firstByteReturns setting data)
    exact ⟨t,Program.returnsMap.mpr ⟨_,ran,rfl⟩,sent⟩
  | getProfile ports sizes closing =>
    obtain ⟨t,ran,sent⟩ := profileLockstep setting waitUsec more ports sizes closing quiet waiting timely stream
    exact ⟨t,Program.returnsMap.mpr ⟨_,ran,rfl⟩,sent⟩
  | activate command =>
    obtain ⟨t,ran,sent⟩ := requestLockstep setting waitUsec (fun result => pure result.result) .err more command quiet
      waiting timely stream (fun u => Program.returnsPure.mpr ⟨rfl,rfl⟩)
    exact ⟨t,Program.returnsMap.mpr ⟨_,ran,rfl⟩,sent⟩
  | deactivate command =>
    obtain ⟨t,ran,sent⟩ := requestLockstep setting waitUsec (fun result => pure result.result) .err more command quiet
      waiting timely stream (fun u => Program.returnsPure.mpr ⟨rfl,rfl⟩)
    exact ⟨t,Program.returnsMap.mpr ⟨_,ran,rfl⟩,sent⟩
  | @execute p command =>
    obtain ⟨t,ran,sent⟩ := requestLockstep setting waitUsec (fun result => do
      let _ ← Protocol.value result
      pure result.result) .err more command quiet waiting timely stream
      (fun u => Program.returnsBind.mpr ⟨p,u,Protocol.valueReturns.mpr ⟨rfl,rfl⟩,Program.returnsPure.mpr ⟨rfl,rfl⟩⟩)
    exact ⟨t,Program.returnsMap.mpr ⟨_,ran,rfl⟩,sent⟩
  | @sendInportData p portName data command fits =>
    have length : (UInt8.ofNat data.length).toNat = data.length := Protocol.smallSize (by
      unfold Protocol.bufferSize
      omega)
    obtain ⟨t,waited,left,_,took⟩ := Protocol.waitWholeTimely setting waitUsec (Line.acceptTimely timely) stream
    rw [command] at waited
    have ran := (Protocol.sendInportReturns retryCount (Nat.le_of_eq length) waiting).mpr
      ⟨by rw [length]; exact fits,_,waited,.inr ⟨p,rfl,rfl⟩⟩
    exact ⟨t,Program.returnsMap.mpr ⟨_,ran,rfl⟩,sentTook waiting quiet took left⟩
  | @receiveOutportData p portName name raw array nameLen dataLen maxSize sizeRead command fits data nameLength signed
      dataLength bounded room =>
    obtain ⟨t,waited,left,_,took⟩ := Protocol.waitWholeTimely setting waitUsec (Line.acceptTimely timely) stream
    rw [command] at waited
    have enough : raw.length ≤ array.length := by
      have := UInt8.le_iff_toNat_le.mp bounded
      omega
    have copied := copyOutCarries setting [] (by rw [data,List.append_nil]) nameLength signed dataLength bounded enough t
    have ran := (Protocol.receiveOutportReturns sizeRead retryCount waiting).mpr
      ⟨fits,_,t,waited,.inr ⟨rfl,copied⟩⟩
    exact ⟨t,Program.returnsMap.mpr ⟨_,ran,rfl⟩,sentTook waiting quiet took left⟩

/- The induction is on the session: every call finds the empty line that the one before it left. -/
theorem lockstepSession {setting : Setting} {session : List (Call × Reply)} {w : Line}
    (lock : Lockstep setting w.packets session) (quiet : w.stream = []) (waiting : w.incoming = [])
    (timely : w.Timely) :
    ∃ exchanges t, Runs setting w exchanges t ∧ exchanges.map (fun e => (e.call,e.reply)) = session ∧
      t.stream = [] ∧
      ∀ e ∈ exchanges, Sent e.start (e.call.operation.request (setting.scratch 1)) e.finish := by
  generalize past : w.packets = history at lock
  induction lock generalizing w with
  | nil => exact ⟨[],w,.nil w,rfl,quiet,by simp⟩
  | @cons history call answer reply rest retries small answers carries later ih =>
    subst past
    obtain ⟨u,ran,sent⟩ := callLockstep retries small answers carries quiet waiting timely
    have packets : u.packets = w.packets ++ [call.operation.request (setting.scratch 1)] := by
      simp [Line.packets,sent.requests]
    obtain ⟨exchanges,t,runs,calls,empty,each⟩ := ih sent.stream sent.incoming
      (fun p member => timely p (sent.polls.subset member)) packets
    refine ⟨⟨call,reply,w,u⟩ :: exchanges,t,.cons ran runs,by simp [calls],empty,fun e member => ?_⟩
    rcases List.mem_cons.mp member with rfl | member
    · exact sent
    · exact each e member

def demoPorts : List Packet :=
  [⟨.inportProfile,.ok,[ascii 'l',ascii 'a'],by decide⟩,⟨.outportProfile,.ok,[ascii 'L',ascii 'o'],by decide⟩]

def demoAnswer : Command → List Packet
  | .getState => [⟨.getState,.ok,[ascii 'I'],by decide⟩]
  | .getProfile => demoPorts ++ [⟨.getProfile,.ok,[],Packet.noData⟩]
  | .receiveData => [⟨.receiveData,.ok,[1,2,ascii 'o',Transport.startByte,Transport.startByte],by decide⟩]
  | c => [⟨c,.ok,[],Packet.noData⟩]

def demoBoard : Setting :=
  {Setting.silent with reply := fun history => match history.getLast? with
    | some request => (demoAnswer request.command).flatMap Packet.frame
    | none => []}

def demoSession : List (Call × Reply) :=
  [(⟨.getState,1000,1⟩,.state (.ofValue .inactive)),
    (⟨.getProfile,1000,5⟩,
      .profile (.ofValue ⟨portsOf .inportProfile demoPorts,portsOf .outportProfile demoPorts⟩)),
    (⟨.sendInportData [ascii 'a'] [1,0,0,0],1000,1⟩,.result .ok),
    (⟨.receiveOutportData [ascii 'o'] [0,0,0] 3 0,1000,1⟩,
      .received (.ok,[Transport.startByte,Transport.startByte] ++ [0],2))]

theorem lockstepDemo : ∃ exchanges t, Runs demoBoard .idle exchanges t ∧
    exchanges.map (fun e => (e.call,e.reply)) = demoSession ∧ t.stream = [] ∧
    ∀ e ∈ exchanges, Sent e.start (e.call.operation.request 0) e.finish := by
  have state : Carries .getState (demoAnswer .getState) (.state (.ofValue .inactive)) :=
    .getState (b := ascii 'I') rfl rfl
  have profile : Carries .getProfile (demoAnswer .getProfile)
      (.profile (.ofValue ⟨portsOf .inportProfile demoPorts,portsOf .outportProfile demoPorts⟩)) :=
    .getProfile (by unfold IsPort; decide) (by decide) rfl
  have sent : Carries (.sendInportData [ascii 'a'] [1,0,0,0]) (demoAnswer .sendData) (.result .ok) :=
    .sendInportData rfl (by decide)
  have received : Carries (.receiveOutportData [ascii 'o'] [0,0,0] 3 0) (demoAnswer .receiveData)
      (.received (.ok,[Transport.startByte,Transport.startByte] ++ [0],2)) :=
    @Carries.receiveOutportData _ _ [ascii 'o'] [Transport.startByte,Transport.startByte] _ _ _ _ _ rfl (by decide)
      rfl rfl (by decide) rfl (by decide) (by decide)
  have lock : Lockstep demoBoard Line.idle.packets demoSession :=
    .cons (by decide) (by decide) rfl state (.cons (by decide) (by decide) rfl profile
      (.cons (by decide) (by decide) rfl sent (.cons (by decide) (by decide) rfl received (.nil _))))
  exact lockstepSession lock rfl rfl (by decide)

end RTno2Proxy
