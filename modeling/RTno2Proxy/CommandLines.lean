import RTno2Proxy.Tokens
import RTno2Proxy.Commands

/-! src/rtno_main.cpp: how `main`, `do_interactive` and `do_whole_interactive` come to call `do_main`.
The command and its arguments are those of the process, or the words of a line that is read. -/
namespace RTno2Proxy
namespace CommandLines
open Interactive (Session Event strsplit word doMain)
open Interleaving (Steps Free)
open Commands (atoi)

structure Call where
  command : Bytes
  args : List Bytes
  deriving DecidableEq

theorem strsplitLoop (str : Bytes) (delim : Char) : Tokens.collect (ascii delim) id str = strsplit str delim := by
  rw [Tokens.collectTokens,List.map_id]
  rfl

section Process

def argsFrom (argv : List Bytes) (i : Nat) : List Bytes :=
  if _h : i < argv.length then argv[i] :: argsFrom argv (i + 1) else []
termination_by argv.length - i

/- `argv[argc]` is null, and neither `atoi` nor `std::string` takes a null pointer. -/
inductive Start where
  | wholeInteractive
  | nullArgument
  | notOpened
  | interactive
  | oneShot (call : Call)
  deriving DecidableEq

/- `opens` is the outcome of `create_serial`; each of `argv` is the text up to its NUL. -/
def main (opens : Bytes → Int → Bool) (argv : List Bytes) : Start :=
  if argv.length = 1 then .wholeInteractive
  else
    let args := argsFrom argv 3
    match argv[1]?, argv[2]?, argv[3]? with
    | some filename, some baudrate, some command =>
        if opens filename (atoi baudrate) = true then
          if command = word "interactive" then .interactive else .oneShot ⟨command,args⟩
        else .notOpened
    | _, _, _ => .nullArgument

theorem argsFromDrop (argv : List Bytes) (i : Nat) : argsFrom argv i = argv.drop i := by
  induction i using argsFrom.induct argv with
  | case1 i inside ih => rw [argsFrom,dif_pos inside,ih,← List.drop_eq_getElem_cons inside]
  | case2 i outside => rw [argsFrom,dif_neg outside,List.drop_eq_nil_of_le (Nat.le_of_not_lt outside)]

end Process

section Lines

structure Typed where
  stdin : Bytes
  calls : List Call

/- One turn of `do_interactive`, which does not look at the state of `std::cin`: behind the end of
the input each line is empty. The turn that leaves the loop is none. -/
def doInteractive (t : Typed) : Option Typed :=
  let read := (Tokens.getline (ascii '\n') t.stdin).getD ([],[])
  match strsplit read.1 ' ' with
  | [] => some {t with stdin := read.2}
  | first :: rest => if first = word "exit" then none else some ⟨read.2,t.calls ++ [⟨first,first :: rest⟩]⟩

def called (elems : List Bytes) (s : Session) : Option Call :=
  match elems with
  | [] => none
  | first :: _ =>
      if first = word "open" then none
      else if first = word "close" then none
      else if first = word "exit" then none
      else if s.serialPort.isSome then some ⟨first,elems⟩
      else none

def doWholeInteractive (created completes : Bool) (s : Session) (t : Typed) : Option (Session × Typed) :=
  match Tokens.getline (ascii '\n') t.stdin with
  | none => (Interactive.next s .endOfInput).map fun s' => (s',t)
  | some (commandline,rest) =>
      (Interactive.next s (.line commandline created completes)).map fun s' =>
        (s',⟨rest,t.calls ++ (called (strsplit commandline ' ') s).toList⟩)

theorem calledSource (elems : List Bytes) (s : Session) :
    (∃ call, called elems s = some call ∧ ∀ created completes,
        Interactive.command elems created completes s = doMain completes s) ∨
      called elems s = none ∧ ∀ created completes,
        Interactive.command elems created completes s = Interactive.command elems created true s := by
  cases elems with
  | nil => exact .inr ⟨rfl,fun _ _ => rfl⟩
  | cons first rest =>
    unfold called Interactive.command
    dsimp only
    by_cases opening : first = word "open"
    · refine .inr ⟨?_,fun _ _ => ?_⟩
      · rw [if_pos opening]
      · rw [if_pos opening,if_pos opening]
    by_cases close : first = word "close"
    · refine .inr ⟨?_,fun _ _ => ?_⟩
      · rw [if_neg opening,if_pos close]
      · simp only [if_neg opening,if_pos close]
    by_cases exit : first = word "exit"
    · refine .inr ⟨?_,fun _ _ => ?_⟩
      · rw [if_neg opening,if_neg close,if_pos exit]
      · simp only [if_neg opening,if_neg close,if_pos exit]
    by_cases port : s.serialPort.isSome = true
    · refine .inl ⟨⟨first,first :: rest⟩,?_,fun _ _ => ?_⟩
      · rw [if_neg opening,if_neg close,if_neg exit,if_pos port]
      · rw [if_neg opening,if_neg close,if_neg exit,if_pos port]
    · refine .inr ⟨?_,fun _ _ => ?_⟩
      · rw [if_neg opening,if_neg close,if_neg exit,if_neg port]
      · simp only [if_neg opening,if_neg close,if_neg exit,if_neg port]

theorem calledSome {elems : List Bytes} {s : Session} {call : Call} (calls : called elems s = some call)
    (created completes : Bool) : Interactive.command elems created completes s = doMain completes s := by
  rcases calledSource elems s with ⟨_,_,same⟩ | ⟨uncalled,_⟩
  · exact same created completes
  · rw [uncalled] at calls
    cases calls

theorem openProtocol {events : List Event} {s : Session} (run : Steps Interactive.next Free Interactive.init events s) :
    s.serialPort.isSome = true → s.rtno.isSome = true := by
  refine Interleaving.stepsInvariant (fun s => s.serialPort.isSome = true → s.rtno.isSome = true) ?_
    (fun bad => absurd bad Bool.false_ne_true) run
  intro s e t both _ taken
  obtain ⟨_,⟨commandline,created,completes,_,rfl⟩ | ⟨_,rfl⟩⟩ := Interactive.nextSource taken
  · have source := Interactive.lineSource s (strsplit commandline ' ') created completes
    generalize Interactive.command (strsplit commandline ' ') created completes s = t at source
    cases source with
    | stays => exact both
    | opens opens =>
      cases created with
      | true => exact fun _ => rfl
      | false => exact fun bad => absurd bad Bool.false_ne_true
    | closes => exact fun bad => absurd bad Bool.false_ne_true
    | exits => exact both
    | stops => exact both
  · exact both

end Lines

section Modes
variable {first line : Bytes} {words : List Bytes}

def taken : List Bytes := [word "exit",word "interactive",word "open",word "close"]

theorem strsplitSpaced (spaced : Tokens.Spaced (ascii ' ') words line) (whole : ∀ w ∈ words, w ≠ [] ∧ ascii ' ' ∉ w) :
    strsplit line ' ' = words := Tokens.tokensSpaced spaced whole

structure CalledAlike (call : Call) (line : Bytes) : Prop where
  oneShot : ∀ (opens : Bytes → Int → Bool) (program filename baudrate : Bytes), opens filename (atoi baudrate) = true →
    main opens (program :: filename :: baudrate :: call.args) = .oneShot call
  interactive : ∀ (rest : Bytes) (calls : List Call),
    doInteractive ⟨line ++ ascii '\n' :: rest,calls⟩ = some ⟨rest,calls ++ [call]⟩
  wholeInteractive : ∀ (events : List Event) (s : Session) (rest : Bytes) (calls : List Call) (created completes : Bool),
    Steps Interactive.next Free Interactive.init events s → s.place = .prompt → s.serialPort.isSome = true →
      s.rtno.isSome = true ∧ doWholeInteractive created completes s ⟨line ++ ascii '\n' :: rest,calls⟩ =
        some (doMain completes s,⟨rest,calls ++ [call]⟩)

theorem mainOneShot {opens : Bytes → Int → Bool} {program filename baudrate : Bytes}
    (opened : opens filename (atoi baudrate) = true) (free : first ≠ word "interactive") :
    main opens (program :: filename :: baudrate :: first :: words) = .oneShot ⟨first,first :: words⟩ := by
  have several : (program :: filename :: baudrate :: first :: words).length ≠ 1 := by simp
  rw [main,if_neg several,argsFromDrop]
  exact (if_pos opened).trans (if_neg free)

theorem calledFirst {s : Session} (free : first ∉ taken) (port : s.serialPort.isSome = true) :
    called (first :: words) s = some ⟨first,first :: words⟩ := by
  simp only [taken,List.mem_cons,List.not_mem_nil,or_false,not_or] at free
  obtain ⟨exit,_,opening,close⟩ := free
  rw [called,if_neg opening,if_neg close,if_neg exit,if_pos port]

theorem sameCall (whole : ∀ w ∈ first :: words, w ≠ [] ∧ ascii ' ' ∉ w ∧ ascii '\n' ∉ w) (free : first ∉ taken)
    (spaced : Tokens.Spaced (ascii ' ') (first :: words) line) : CalledAlike ⟨first,first :: words⟩ line := by
  have split : strsplit line ' ' = first :: words :=
    strsplitSpaced spaced fun w member => ⟨(whole w member).1,(whole w member).2.1⟩
  have unbroken : ascii '\n' ∉ line := Tokens.spacedFree spaced (by decide) fun w member => (whole w member).2.2
  have typed (rest : Bytes) := Tokens.getlineItem rest unbroken
  refine ⟨fun opens program filename baudrate opened => ?_,fun rest calls => ?_,
    fun events s rest calls created completes run here port => ⟨openProtocol run port,?_⟩⟩
  · exact mainOneShot opened fun same => free (by simp [taken,same])
  · have stays : first ≠ word "exit" := fun same => free (by simp [taken,same])
    rw [doInteractive,typed,Option.getD_some]
    simp only [split,if_neg stays]
  · have calls' := @calledFirst first words s free port
    rw [doWholeInteractive,typed]
    simp only [Interactive.next,if_pos here,Option.map_some,split,calls',calledSome calls',Option.toList_some]

def portLine : Bytes := word "  inject in0   2,3 "

theorem sameCallInject : CalledAlike ⟨word "inject",[word "inject",word "in0",word "2,3"]⟩ portLine ∧
    main (fun _ _ => true) [word "rtno",word "COM3",word "57600",word "inject",word "in0",word "2,3"] =
      .oneShot ⟨word "inject",[word "inject",word "in0",word "2,3"]⟩ := by
  have spaced : Tokens.Spaced (ascii ' ') [word "inject",word "in0",word "2,3"] portLine :=
    .cons 2 (word "inject") (.cons 0 (word "in0") (.last 2 1 (word "2,3")))
  have alike := sameCall (by decide) (by decide) spaced
  exact ⟨alike,alike.oneShot (fun _ _ => true) (word "rtno") (word "COM3") (word "57600") rfl⟩

def script (turns : List (Call × Bytes)) : Bytes := turns.flatMap fun turn => turn.2 ++ [ascii '\n']

theorem scriptCons (call : Call) (line : Bytes) (turns : List (Call × Bytes)) (rest : Bytes) :
    script ((call,line) :: turns) ++ rest = line ++ ascii '\n' :: (script turns ++ rest) := by
  simp [script]

theorem interactiveCalls {turns : List (Call × Bytes)} (alike : ∀ turn ∈ turns, CalledAlike turn.1 turn.2) (rest : Bytes)
    (calls : List Call) : Steps (fun t (_ : Unit) => doInteractive t) Free ⟨script turns ++ rest,calls⟩
      (turns.map fun _ => ()) ⟨rest,calls ++ turns.map Prod.fst⟩ := by
  induction turns generalizing calls with
  | nil =>
    rw [List.map_nil,List.map_nil,List.append_nil]
    exact .nil _
  | cons turn turns ih =>
    obtain ⟨call,line⟩ := turn
    obtain ⟨now,later⟩ := List.forall_mem_cons.mp alike
    rw [scriptCons]
    have rest := ih later (calls ++ [call])
    rw [List.append_assoc] at rest
    exact .cons trivial (now.interactive _ calls) rest

theorem wholeInteractiveCalls {turns : List (Call × Bytes)} (alike : ∀ turn ∈ turns, CalledAlike turn.1 turn.2)
    {events : List Event} {s : Session} (run : Steps Interactive.next Free Interactive.init events s)
    (here : s.place = .prompt) (port : s.serialPort.isSome = true) (rest : Bytes) (calls : List Call) :
    Steps (fun c (created : Bool) => doWholeInteractive created true c.1 c.2) Free (s,⟨script turns ++ rest,calls⟩)
      (turns.map fun _ => true) (s,⟨rest,calls ++ turns.map Prod.fst⟩) := by
  induction turns generalizing calls with
  | nil =>
    rw [List.map_nil,List.map_nil,List.append_nil]
    exact .nil _
  | cons turn turns ih =>
    obtain ⟨call,line⟩ := turn
    obtain ⟨now,later⟩ := List.forall_mem_cons.mp alike
    obtain ⟨protocol,taken⟩ := now.wholeInteractive events s (script turns ++ rest) calls true true run here port
    rw [doMain,if_pos ⟨protocol,rfl⟩] at taken
    rw [scriptCons]
    have rest := ih later (calls ++ [call])
    rw [List.append_assoc] at rest
    exact .cons trivial taken rest

end Modes

end CommandLines
end RTno2Proxy
