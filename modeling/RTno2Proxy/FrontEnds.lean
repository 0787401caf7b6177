import RTno2Proxy.Halting
import RTno2Proxy.CommandLines

/-! src/rtno_main.cpp: `create_serial`, `do_whole_interactive` and `main`, with the objects they create
and delete, the commands they make and what they print; and how the three ways to give a command agree. -/
namespace RTno2Proxy
namespace Commands
open Imperative
open Interactive (Session word strsplit)
open Interleaving (Steps Free)
open CommandLines (called)
variable {σ : Type}

def printUsage : List Bytes := [
  "> getprofile # Get RTCProfile from RTno",
  "> getstate.  # Get RTCState from RTno",
  "> getectype. # Get EC's type from RTno",
  "> activate   # Activate RTC",
  "> deactivate # Deactivate RTC",
  "> execute    # Execute RTC.",
  "             # If RTno uses ProxySynchronousExecutionContext, ",
  "             # This function sends an execute trigger to RTno.",
  "             # Eventually, the RTno's 'on_execute' function is called once.",
  "> print [PORT_NAME] # Print value of output buffer of RTno's outport",
  "             # Usually, output buffer is written in 'on_execute' function, so",
  "             # If 'print' function causes error, you might as well do 'execute'.",
  "> inject [PORT_NAME] [VALUE]...",
  "             # This function send value to inport's input buffer.",
  "             # [VALUE] is parsed according to the value type of InPort specified.",
  "  ex: > inject in0 2     # Write single value 2. This will work for TimedLong, TimedFloat, and TimedDouble",
  "      > inject in0 2,3,4 # Write sequence value [2,3,4]. This will work for TimedLongSeq, TimedFloatSeq, and TimedDoubleSeq.",
  "             # You can't put any while-space and any brackets nor parentheses in the array value."].map word

def printUsageWholeInteractive : List Bytes :=
  ["Usage:",
    " - If you have not opened device...",
    "> open [PORT_FILE_NAME] [PORT_ARGUMENT]",
    " ex: open COM3 57600 # for COM port in Windows OS.",
    "     open /dev/ttyUSB0 57600 # for tty port in Linux/OSX",
    "     open tcp://192.168.1.1 12345 # for TCP port (addr 192.168.1.1, number 12345)",
    "",
    " - If you are ready..."].map word ++ printUsage ++
  ["> close.     # Close serial device.",
    "> exit       # Exit this program"].map word

def notOpened : List Bytes := word "ERROR: Port is not opened." :: printUsageWholeInteractive

def openArgument : List Bytes := [word "ERROR. open need argument. type 'help' to get more info."]

/- The constructors of the two devices, which say whether they have thrown the exception that
`create_serial` catches, and the destructor. -/
structure Ports (σ : Type) where
  etherTcp : Bytes → Int → Act σ Bool
  serial : Bytes → Int → Act σ Bool
  destroy : Act σ Unit

def createSerial (ports : Ports σ) (filename : Bytes) (intArg : Int) : Act σ (Bool × List Bytes) :=
  if filename.take 6 = word "tcp://" then do
    let opened ← ports.etherTcp (filename.drop 6) intArg
    pure (opened,[])
  else do
    let opened ← ports.serial filename intArg
    pure (opened,if opened = true then [] else [word "COM Open Error"])

def deleteSerial (ports : Ports σ) (s : Session) : Act σ Unit :=
  if s.serialPort.isSome then ports.destroy else pure ()

/- The input that is left, the lines printed apart from the prompts and from those of the logger, the number of
commands made, and the pointers with the objects behind them. -/
structure Whole where
  stdin : Bytes
  stdout : List Bytes
  made : Nat
  session : Session

/- What becomes of a line, by its words. The last branch but one stands where `*rtno` is a null reference. -/
def wholeCommand (h : Host σ) (ports : Ports σ) (floats : Floats) (objects : Nat → Nat → UInt8) (c : Whole)
    (elems : List Bytes) : Act σ (Whole ⊕ Whole) :=
  match elems with
  | [] => pure (.inl c)
  | first :: args =>
      if first = word "open" then
        match args with
        | filename :: intArg :: _ => do
            let created ← createSerial ports (cStr filename) (atoi (cStr intArg))
            pure (.inl {c with stdout := c.stdout ++ created.2, session := Interactive.open' created.1 c.session})
        | _ => pure (.inl {c with stdout := c.stdout ++ openArgument})
      else if first = word "close" then do
        deleteSerial ports c.session
        pure (.inl {c with session := Interactive.close c.session})
      else if first = word "exit" then do
        deleteSerial ports c.session
        pure (.inr {c with session := Interactive.exit c.session})
      else if c.session.serialPort.isSome then
        if c.session.rtno.isSome then do
          let out ← doMain h floats (objects c.made) first (first :: args) (1000 * 1000)
          pure (.inl {c with stdout := c.stdout ++ out.2, made := c.made + 1})
        else .throw .outsideBuffer
      else pure (.inl {c with stdout := c.stdout ++ notOpened})

def wholePass (h : Host σ) (ports : Ports σ) (floats : Floats) (objects : Nat → Nat → UInt8) (c : Whole) : Act σ (Whole ⊕ Whole) :=
  match Tokens.getline (ascii '\n') c.stdin with
  | none => pure (.inr {c with session := {c.session with place := .ended}})
  | some (commandline,rest) => wholeCommand h ports floats objects {c with stdin := rest} (strsplit commandline ' ')

def doWholeInteractive (h : Host σ) (ports : Ports σ) (floats : Floats) (objects : Nat → Nat → UInt8) (stdin : Bytes) :
    Act σ Whole :=
  Program.loop (wholePass h ports floats objects) ⟨stdin,[],0,Interactive.init⟩

/- The exit status and what is printed. `argv[argc]` is null, which neither `atoi` nor `std::string` takes. -/
def main (h : Host σ) (ports : Ports σ) (floats : Floats) (objects : Nat → Nat → UInt8) (argv : List Bytes) (stdin : Bytes) :
    Act σ (Int × List Bytes) :=
  if argv.length = 1 then do
    let out ← doWholeInteractive h ports floats objects stdin
    pure (0,out.stdout)
  else
    match argv[1]?, argv[2]?, argv[3]? with
    | some filename, some baudrate, some command => do
        let created ← createSerial ports filename (atoi baudrate)
        if created.1 = false then pure (-1,created.2)
        else if command = word "interactive" then do
          let out ← doInteractive h floats objects stdin
          pure (0,created.2 ++ out.stdout)
        else do
          let out ← doMain h floats (objects 0) command (argv.drop 3) (1000 * 1000)
          ports.destroy
          pure (0,created.2 ++ out.2)
    | _, _, _ => .throw .outsideBuffer

def usb : Bytes := word "open /dev/ttyUSB0 57600"

def ready : Ports Line := ⟨fun _ _ => pure true,fun _ _ => pure true,pure ()⟩

section Refinement
variable {h : Host σ} {ports : Ports σ} {floats : Floats} {objects : Nat → Nat → UInt8} {c : Whole} {s t : σ}

def landed : Whole ⊕ Whole → Whole := Sum.elim id id

def Left (out : Whole) : Prop := out.session.place = .exited ∨ out.session.place = .ended ∧ out.stdin = []

theorem wholeCommandNext {elems : List Bytes} {x : Whole ⊕ Whole} (here : c.session.place = .prompt)
    (ran : (wholeCommand h ports floats objects c elems).Returns s x t) : ∃ created,
    Interactive.command elems created true c.session = (landed x).session ∧ (landed x).stdin = c.stdin ∧
      (landed x).made = c.made + (called elems c.session).toList.length ∧
      x.elim (·.session.place = .prompt) (·.session.place = .exited) := by
  cases elems with
  | nil =>
    obtain ⟨rfl,rfl⟩ := Program.returnsPure.mp ran
    exact ⟨true,rfl,rfl,rfl,here⟩
  | cons first args =>
    unfold wholeCommand at ran
    unfold Interactive.command called
    dsimp only at ran ⊢
    by_cases opening : first = word "open"
    · simp only [if_pos opening] at ran ⊢
      match args, ran with
      | [], ran | [_], ran =>
        obtain ⟨rfl,rfl⟩ := Program.returnsPure.mp ran
        exact ⟨true,rfl,rfl,rfl,here⟩
      | filename :: intArg :: more, ran =>
        obtain ⟨created,ran,rfl⟩ := Program.returnsMap.mp ran
        exact ⟨created.1,if_neg (by simp),rfl,rfl,(Interactive.openPlace _ _).trans here⟩
    by_cases closing : first = word "close"
    · simp only [if_neg opening,if_pos closing] at ran ⊢
      obtain ⟨_,_,rfl⟩ := Program.returnsMap.mp ran
      exact ⟨true,rfl,rfl,rfl,here⟩
    by_cases leaving : first = word "exit"
    · simp only [if_neg opening,if_neg closing,if_pos leaving] at ran ⊢
      obtain ⟨_,_,rfl⟩ := Program.returnsMap.mp ran
      exact ⟨true,rfl,rfl,rfl,rfl⟩
    simp only [if_neg opening,if_neg closing,if_neg leaving] at ran ⊢
    by_cases port : c.session.serialPort.isSome = true
    · simp only [if_pos port] at ran ⊢
      by_cases rtno : c.session.rtno.isSome = true
      · rw [if_pos rtno] at ran
        obtain ⟨_,_,rfl⟩ := Program.returnsMap.mp ran
        exact ⟨true,if_pos ⟨rtno,rfl⟩,rfl,rfl,here⟩
      · rw [if_neg rtno] at ran
        exact absurd (Program.evaluatesLift.mp ran).1 (by simp)
    · simp only [if_neg port] at ran ⊢
      obtain ⟨rfl,rfl⟩ := Program.returnsPure.mp ran
      exact ⟨true,rfl,rfl,rfl,here⟩

theorem wholePassLine {commandline rest : Bytes} (read : Tokens.getline (ascii '\n') c.stdin = some (commandline,rest)) :
    wholePass h ports floats objects c = wholeCommand h ports floats objects {c with stdin := rest} (strsplit commandline ' ') := by
  rw [wholePass,read]

theorem wholePassEnded (read : Tokens.getline (ascii '\n') c.stdin = none) :
    wholePass h ports floats objects c = pure (.inr {c with session := {c.session with place := .ended}}) := by
  rw [wholePass,read]

theorem wholePassNext {x : Whole ⊕ Whole} (here : c.session.place = .prompt)
    (ran : (wholePass h ports floats objects c).Returns s x t) : ∃ created calls,
    (∀ before, CommandLines.doWholeInteractive created true c.session ⟨c.stdin,before⟩ =
      some ((landed x).session,⟨(landed x).stdin,before ++ calls⟩)) ∧
      (landed x).made = c.made + calls.length ∧ x.elim (·.session.place = .prompt) Left := by
  cases read : Tokens.getline (ascii '\n') c.stdin with
  | none =>
    rw [wholePassEnded read] at ran
    obtain ⟨rfl,rfl⟩ := Program.returnsPure.mp ran
    refine ⟨true,[],fun before => ?_,rfl,.inr ⟨rfl,Tokens.getlineNone read⟩⟩
    rw [CommandLines.doWholeInteractive,read,List.append_nil]
    simp only [Interactive.next,if_pos here,Option.map_some,landed,Sum.elim_inr,id]
  | some line =>
    obtain ⟨commandline,rest⟩ := line
    rw [wholePassLine read] at ran
    obtain ⟨created,session,left,made,going⟩ := wholeCommandNext (c := {c with stdin := rest}) here ran
    refine ⟨created,_,fun before => ?_,made,?_⟩
    · rw [CommandLines.doWholeInteractive,read]
      simp only [Interactive.next,if_pos here,Option.map_some,session,left]
    · cases x with
      | inl next => exact going
      | inr out => exact .inl going

theorem wholeRun {out : Whole} (here : c.session.place = .prompt)
    (ran : (Program.loop (wholePass h ports floats objects) c).Returns s out t) (before : List CommandLines.Call) :
    ∃ creations calls, Steps (fun x (created : Bool) => CommandLines.doWholeInteractive created true x.1 x.2) Free
      (c.session,⟨c.stdin,before⟩) creations (out.session,⟨out.stdin,before ++ calls⟩) ∧
      out.made = c.made + calls.length ∧ Left out := by
  revert before
  refine Program.loopRule (motive := fun c (_ : σ) out (_ : σ) => c.session.place = .prompt → ∀ before, ∃ creations calls,
    Steps (fun x (created : Bool) => CommandLines.doWholeInteractive created true x.1 x.2) Free
      (c.session,⟨c.stdin,before⟩) creations (out.session,⟨out.stdin,before ++ calls⟩) ∧
      out.made = c.made + calls.length ∧ Left out) ?_ ?_ ran here
  · intro c s out t left here before
    obtain ⟨created,calls,taken,made,gone⟩ := wholePassNext here left
    exact ⟨[created],calls,.cons trivial (taken before) (.nil _),made,gone⟩
  · intro c s next u out t went later here before
    obtain ⟨created,calls,taken,made,going⟩ := wholePassNext here went
    obtain ⟨creations,more,run,total,gone⟩ := later going (before ++ calls)
    refine ⟨created :: creations,calls ++ more,.cons trivial (taken before) ?_,?_,gone⟩
    · rw [← List.append_assoc]
      exact run
    · rw [total,List.length_append]
      change next.made = c.made + calls.length at made
      omega

def Served (u : Session) : Prop := u.serialPort.isSome = true → u.rtno.isSome = true

theorem commandServed {u : Session} (served : Served u) (elems : List Bytes) (created completes : Bool) :
    Served (Interactive.command elems created completes u) := by
  have source := Interactive.lineSource u elems created completes
  generalize Interactive.command elems created completes u = v at source
  cases source with
  | stays | exits | stops => exact served
  | opens opens =>
    cases created with
    | true => exact fun _ => rfl
    | false => exact fun never => absurd never Bool.false_ne_true
  | closes => exact fun never => absurd never Bool.false_ne_true

theorem turnSource {u v : Session} {typed typed' : CommandLines.Typed} {created completes : Bool}
    (taken : CommandLines.doWholeInteractive created completes u typed = some (v,typed')) : u.place = .prompt ∧
    ((∃ commandline, Tokens.getline (ascii '\n') typed.stdin = some (commandline,typed'.stdin) ∧
        v = Interactive.command (strsplit commandline ' ') created completes u) ∨
      Tokens.getline (ascii '\n') typed.stdin = none ∧ v = {u with place := .ended}) := by
  unfold CommandLines.doWholeInteractive Interactive.next at taken
  cases read : Tokens.getline (ascii '\n') typed.stdin with
  | none =>
    rw [read] at taken
    obtain ⟨w,next,same⟩ := Option.map_eq_some_iff.mp taken
    cases same
    split at next
    · rename_i here
      cases next
      exact ⟨here,.inr ⟨rfl,rfl⟩⟩
    · cases next
  | some line =>
    obtain ⟨commandline,rest⟩ := line
    rw [read] at taken
    obtain ⟨w,next,same⟩ := Option.map_eq_some_iff.mp taken
    cases same
    split at next
    · rename_i here
      cases next
      exact ⟨here,.inl ⟨commandline,rfl,rfl⟩⟩
    · cases next

theorem turnServed {u v : Session} {typed typed' : CommandLines.Typed} {created completes : Bool} (served : Served u)
    (taken : CommandLines.doWholeInteractive created completes u typed = some (v,typed')) : Served v := by
  obtain ⟨_,⟨commandline,_,rfl⟩ | ⟨_,rfl⟩⟩ := turnSource taken
  · exact commandServed served _ _ _
  · exact served

inductive Throws (h : Host σ) (ports : Ports σ) (floats : Floats) (object : Nat → UInt8) (u : Session) (elems : List Bytes)
    (s : σ) (e : Fault) (t : σ) : Prop where
  | constructor {filename : Bytes} {intArg : Int} (raised : (createSerial ports filename intArg).Raises s e t)
  | destructor (raised : ports.destroy.Raises s e t)
  | command {call : CommandLines.Call} (made : called elems u = some call)
      (raised : (doMain h floats object call.command call.args (1000 * 1000)).Raises s e t)

theorem mapRaised {α β : Type} {a : Act σ α} {f : α → β} {e : Fault} (raised : (a >>= fun x => pure (f x)).Raises s e t) :
    a.Raises s e t := by
  rcases Program.raisesBind.mp raised with first | ⟨_,_,_,never⟩
  · exact first
  · exact absurd never Program.pureNever

theorem deleteRaised {u : Session} {e : Fault} (raised : (deleteSerial ports u).Raises s e t) : ports.destroy.Raises s e t := by
  unfold deleteSerial at raised
  split at raised
  · exact raised
  · exact absurd raised Program.pureNever

theorem wholeCommandRaised {elems : List Bytes} {e : Fault} (served : Served c.session)
    (raised : (wholeCommand h ports floats objects c elems).Raises s e t) :
    Throws h ports floats (objects c.made) c.session elems s e t := by
  cases elems with
  | nil => exact absurd raised Program.pureNever
  | cons first args =>
    unfold wholeCommand at raised
    dsimp only at raised
    by_cases opening : first = word "open"
    · rw [if_pos opening] at raised
      match args, raised with
      | [], raised | [_], raised => exact absurd raised Program.pureNever
      | filename :: intArg :: more, raised => exact .constructor (mapRaised raised)
    rw [if_neg opening] at raised
    by_cases closing : first = word "close"
    · rw [if_pos closing] at raised
      exact .destructor (deleteRaised (mapRaised raised))
    rw [if_neg closing] at raised
    by_cases leaving : first = word "exit"
    · rw [if_pos leaving] at raised
      exact .destructor (deleteRaised (mapRaised raised))
    rw [if_neg leaving] at raised
    by_cases port : c.session.serialPort.isSome = true
    · rw [if_pos port,if_pos (served port)] at raised
      have made : called (first :: args) c.session = some ⟨first,first :: args⟩ := by
        rw [called,if_neg opening,if_neg closing,if_neg leaving,if_pos port]
      exact .command made (mapRaised raised)
    · rw [if_neg port] at raised
      exact absurd raised Program.pureNever

theorem wholeRaised {e : Fault} (here : c.session.place = .prompt) (served : Served c.session)
    (raised : (Program.loop (wholePass h ports floats objects) c).Raises s e t) (before : List CommandLines.Call) :
    ∃ creations calls u stdin commandline rest x,
      Steps (fun x (created : Bool) => CommandLines.doWholeInteractive created true x.1 x.2) Free
        (c.session,⟨c.stdin,before⟩) creations (u,⟨stdin,before ++ calls⟩) ∧
      Tokens.getline (ascii '\n') stdin = some (commandline,rest) ∧
      Throws h ports floats (objects (c.made + calls.length)) u (strsplit commandline ' ') x e t := by
  have whole := Program.evaluatesLoopRule (motive := fun c (_ : σ) v t => ∀ e, v = .error e → c.session.place = .prompt →
    Served c.session → ∀ before, ∃ creations calls u stdin commandline rest x,
      Steps (fun x (created : Bool) => CommandLines.doWholeInteractive created true x.1 x.2) Free
        (c.session,⟨c.stdin,before⟩) creations (u,⟨stdin,before ++ calls⟩) ∧
      Tokens.getline (ascii '\n') stdin = some (commandline,rest) ∧
      Throws h ports floats (objects (c.made + calls.length)) u (strsplit commandline ' ') x e t) ?_ ?_ ?_ raised e rfl here served before
  · exact whole
  · rintro c s e t raised _ ⟨⟩ here served before
    cases read : Tokens.getline (ascii '\n') c.stdin with
    | none =>
      rw [wholePassEnded read] at raised
      exact absurd raised Program.pureNever
    | some line =>
      obtain ⟨commandline,rest⟩ := line
      rw [wholePassLine read] at raised
      have thrown := wholeCommandRaised (c := {c with stdin := rest}) served raised
      refine ⟨[],[],c.session,c.stdin,commandline,rest,s,?_,read,thrown⟩
      rw [List.append_nil]
      exact .nil _
  · exact fun c s out t left e never => nomatch never
  · intro c s next u v t went later e same here served before
    obtain ⟨created,calls,taken,made,going⟩ := wholePassNext here went
    have after : Served next.session := turnServed served (taken [])
    obtain ⟨creations,more,v,stdin,commandline,rest,x,run,read,thrown⟩ := later e same (going) after (before ++ calls)
    refine ⟨created :: creations,calls ++ more,v,stdin,commandline,rest,x,.cons trivial (taken before) ?_,read,?_⟩
    · rw [← List.append_assoc]
      exact run
    · change next.made = c.made + calls.length at made
      rw [List.length_append,← Nat.add_assoc,← made]
      exact thrown

theorem wholeRefines {stdin : Bytes} {out : Whole} (ran : (doWholeInteractive h ports floats objects stdin).Returns s out t) :
    ∃ creations calls, Steps (fun x (created : Bool) => CommandLines.doWholeInteractive created true x.1 x.2) Free
      (Interactive.init,⟨stdin,[]⟩) creations (out.session,⟨out.stdin,calls⟩) ∧ out.made = calls.length ∧ Left out := by
  obtain ⟨creations,calls,run,made,gone⟩ := wholeRun rfl ran []
  exact ⟨creations,calls,run,made.trans (Nat.zero_add _),gone⟩

def used : Bytes := usb ++ word "\ngetstate\nexit\n"

theorem wholeRefinesUsed : ∃ (out : Whole) (creations : List Bool) (calls : List CommandLines.Call),
    Steps (fun x (created : Bool) => CommandLines.doWholeInteractive created true x.1 x.2) Free
      (Interactive.init,⟨used,[]⟩) creations (out.session,⟨out.stdin,calls⟩) ∧ out.made = calls.length ∧ Left out ∧
      out.stdout = [word "STATE::INACTIVE"] := by
  obtain ⟨v,t,ran,good⟩ := Program.evaluatesEnded
    (c := doWholeInteractive (Line.host demoBoard) ready noFloats (fun _ _ => 0) used) (s := .idle)
    (p := fun v _ => decide (v.toOption.map Whole.stdout = some [word "STATE::INACTIVE"])) 60 (by decide +kernel)
  cases v with
  | error e => cases of_decide_eq_true good
  | ok out =>
    obtain ⟨creations,calls,run,made,left⟩ := wholeRefines ran
    exact ⟨out,creations,calls,run,made,left,Option.some.inj (of_decide_eq_true good)⟩

theorem wholeThrows {stdin : Bytes} {e : Fault} (raised : (doWholeInteractive h ports floats objects stdin).Raises s e t) :
    ∃ creations calls u unread commandline rest x,
      Steps (fun x (created : Bool) => CommandLines.doWholeInteractive created true x.1 x.2) Free
        (Interactive.init,⟨stdin,[]⟩) creations (u,⟨unread,calls⟩) ∧
      Tokens.getline (ascii '\n') unread = some (commandline,rest) ∧
      Throws h ports floats (objects calls.length) u (strsplit commandline ' ') x e t := by
  obtain ⟨creations,calls,u,unread,commandline,rest,x,run,read,thrown⟩ :=
    wholeRaised (c := ⟨stdin,[],0,Interactive.init⟩) rfl (fun never => absurd never Bool.false_ne_true) raised []
  rw [Nat.zero_add] at thrown
  exact ⟨creations,calls,u,unread,commandline,rest,x,run,read,thrown⟩

theorem wholeThrowsArgument : ∃ (creations : List Bool) (calls : List CommandLines.Call) (u : Session) (unread : Bytes)
    (commandline : Bytes) (rest : Bytes) (x t : Line),
      Steps (fun x (created : Bool) => CommandLines.doWholeInteractive created true x.1 x.2) Free
        (Interactive.init,⟨usb ++ word "\nprint\nexit\n",[]⟩) creations (u,⟨unread,calls⟩) ∧
      Tokens.getline (ascii '\n') unread = some (commandline,rest) ∧
      Throws (Line.host demoBoard) ready noFloats (fun _ => 0) u (strsplit commandline ' ') x .outsideBuffer t := by
  obtain ⟨v,t,ran,good⟩ := Program.evaluatesEnded
    (c := doWholeInteractive (Line.host demoBoard) ready noFloats (fun _ _ => 0) (usb ++ word "\nprint\nexit\n")) (s := .idle)
    (p := fun v _ => decide (v.map Whole.stdout = .error .outsideBuffer)) 60 (by decide +kernel)
  cases v with
  | ok out => cases of_decide_eq_true good
  | error e =>
    cases of_decide_eq_true good
    obtain ⟨creations,calls,u,unread,commandline,rest,x,run,read,thrown⟩ := wholeThrows ran
    exact ⟨creations,calls,u,unread,commandline,rest,x,t,run,read,thrown⟩

end Refinement

section Ownership
open Interactive (Paired Invariant Opens)

def wordLines (stdin : Bytes) : List (List Bytes) := (strsplit stdin '\n').map fun line => strsplit line ' '

theorem wordLinesLine {stdin commandline rest : Bytes} (read : Tokens.getline (ascii '\n') stdin = some (commandline,rest)) :
    wordLines stdin = if commandline ≠ [] then strsplit commandline ' ' :: wordLines rest else wordLines rest := by
  unfold wordLines
  have lines := CommandLines.strsplitLoop stdin '\n'
  rw [Tokens.collectSome id read,CommandLines.strsplitLoop] at lines
  rw [← lines]
  split
  · rfl
  · rfl

def closedBetween (opened : Bool) : List (List Bytes) → Bool
  | [] => true
  | elems :: rest =>
      if Opens elems then !opened && closedBetween true rest
      else if elems.head? = some (word "close") then closedBetween false rest
      else closedBetween opened rest

structure Kept (u : Session) (stdin : Bytes) : Prop where
  paired : u.place ≠ .exited → u.place ≠ .lost → Paired u
  deleted : u.place = .exited → u.devices.AllDeletedOnce ∧ u.protocols.AllDeletedOnce
  between : u.place = .prompt → closedBetween u.serialPort.isSome (wordLines stdin) = true

theorem closedNone {opened : Bool} {lines : List (List Bytes)} (between : closedBetween opened lines = true) :
    closedBetween false lines = true := by
  induction lines with
  | nil => rfl
  | cons elems rest ih =>
    unfold closedBetween at between ⊢
    split at between
    · rename_i opens
      rw [if_pos opens]
      exact (Bool.and_eq_true_iff.mp between).2
    · rename_i other
      rw [if_neg other]
      split at between
      · rename_i close
        rw [if_pos close]
        exact between
      · rename_i stays
        rw [if_neg stays]
        exact ih between

theorem closesSource {elems : List Bytes} (close : elems.head? = some (word "close")) (created completes : Bool) (u : Session) :
    Interactive.command elems created completes u = Interactive.close u := by
  cases elems with
  | nil => cases close
  | cons first rest =>
    cases close
    rfl

theorem commandKept {u : Session} {elems : List Bytes} {stdin : Bytes} (paired : Paired u) (here : u.place = .prompt)
    (between : closedBetween u.serialPort.isSome (elems :: wordLines stdin) = true) (created : Bool) :
    Kept (Interactive.command elems created true u) stdin := by
  have prompt {v : Session} (at' : v.place = .prompt) (paired : Paired v)
      (between : closedBetween v.serialPort.isSome (wordLines stdin) = true) : Kept v stdin :=
    ⟨fun _ _ => paired,fun gone => (by rw [at'] at gone; cases gone),fun _ => between⟩
  unfold closedBetween at between
  by_cases opens : Opens elems
  · rw [if_pos opens] at between
    obtain ⟨closed,later⟩ := Bool.and_eq_true_iff.mp between
    rw [Interactive.opensSource opens]
    refine prompt ((Interactive.openPlace created u).trans here) (Interactive.openPaired created paired ?_) ?_
    · simpa using closed
    · cases created with
      | true => exact later
      | false => exact closedNone later
  rw [if_neg opens] at between
  by_cases close : elems.head? = some (word "close")
  · rw [if_pos close] at between
    rw [closesSource close]
    exact prompt here (Interactive.closePaired paired) between
  rw [if_neg close] at between
  have source := Interactive.lineSource u elems created true
  generalize Interactive.command elems created true u = v at source
  cases source with
  | stays => exact prompt here paired between
  | opens again => exact absurd again opens
  | closes => exact prompt here (Interactive.closePaired paired) (closedNone between)
  | exits => exact ⟨fun stays => absurd rfl stays,fun _ => Interactive.exitDeleted paired,nofun⟩
  | stops => exact ⟨fun _ stays => absurd rfl stays,nofun,nofun⟩

theorem turnKept {u v : Session} {typed typed' : CommandLines.Typed} {created : Bool} (kept : Kept u typed.stdin)
    (taken : CommandLines.doWholeInteractive created true u typed = some (v,typed')) : Kept v typed'.stdin := by
  obtain ⟨here,⟨commandline,read,rfl⟩ | ⟨_,rfl⟩⟩ := turnSource taken
  · have paired := kept.paired (by rw [here]; exact nofun) (by rw [here]; exact nofun)
    have between := kept.between here
    rw [wordLinesLine read] at between
    refine commandKept paired here ?_ created
    split at between
    · exact between
    · rename_i empty
      rw [not_not.mp empty]
      exact between
  · have paired := kept.paired (by rw [here]; exact nofun) (by rw [here]; exact nofun)
    exact ⟨fun _ _ => ⟨paired.devices,paired.protocols,paired.both⟩,nofun,nofun⟩

theorem wholeOwned {h : Host σ} {ports : Ports σ} {floats : Floats} {objects : Nat → Nat → UInt8} {stdin : Bytes} {out : Whole}
    {s t : σ} (between : closedBetween false (wordLines stdin) = true)
    (ran : (doWholeInteractive h ports floats objects stdin).Returns s out t) :
    (out.session.place = .exited ∧ out.session.devices.AllDeletedOnce ∧ out.session.protocols.AllDeletedOnce) ∨
      out.session.place = .ended ∧ out.stdin = [] ∧ Paired out.session := by
  obtain ⟨creations,calls,run,_,gone⟩ := wholeRun (c := ⟨stdin,[],0,Interactive.init⟩) rfl ran []
  have start : Kept Interactive.init stdin := ⟨fun _ _ => Interactive.pairedInit,nofun,fun _ => between⟩
  have kept := Interleaving.stepsInvariant (fun x : Session × CommandLines.Typed => Kept x.1 x.2.stdin)
    (fun _ _ _ kept _ taken => turnKept kept taken) start run
  rcases gone with exited | ⟨ended,read⟩
  · exact .inl ⟨exited,kept.deleted exited⟩
  · exact .inr ⟨ended,read,kept.paired (by rw [ended]; exact nofun) (by rw [ended]; exact nofun)⟩

def reopened : Bytes := usb ++ word "\nclose\n" ++ usb ++ word "\ngetstate\nexit\n"

theorem wholeOwnedReopened : ∃ out : Whole, out.session.devices.created = 2 ∧
    ((out.session.place = .exited ∧ out.session.devices.AllDeletedOnce ∧ out.session.protocols.AllDeletedOnce) ∨
      out.session.place = .ended ∧ out.stdin = [] ∧ Paired out.session) := by
  obtain ⟨v,t,ran,good⟩ := Program.evaluatesEnded
    (c := doWholeInteractive (Line.host demoBoard) ready noFloats (fun _ _ => 0) reopened) (s := .idle)
    (p := fun v _ => decide (v.toOption.map (fun out => out.session.devices.created) = some 2)) 60 (by decide +kernel)
  cases v with
  | error e => cases of_decide_eq_true good
  | ok out => exact ⟨out,Option.some.inj (of_decide_eq_true good),wholeOwned (by decide) ran⟩

end Ownership

section Agreement
variable {h : Host σ} {ports : Ports σ} {floats : Floats} {objects : Nat → Nat → UInt8} {s t : σ}

def closing (ports : Ports σ) (u : Session) (out : Console) : Act σ Whole := do
  ports.destroy
  pure ⟨out.stdin,out.stdout,out.made,Interactive.exit u⟩

end Agreement

section Halting
open Program (drainsPure drainsThrow drainsThen drainsIte)
variable {h : Host σ} {ports : Ports σ} {good : σ → Prop} {stock : σ → Nat}

end Halting

end Commands
end RTno2Proxy
