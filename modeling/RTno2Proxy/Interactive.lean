import RTno2Proxy.Packet
import RTno2Proxy.Ownership
import RTno2Proxy.Interleaving

/-! src/rtno_main.cpp: `do_whole_interactive`, one command line after another. Of the heap only
what is created and deleted is kept; whether a device can be opened is up to the system. -/
namespace RTno2Proxy
namespace Interactive
open Interleaving (Steps Free stepsFree stepsExact)

def strsplit (str : Bytes) (delim : Char) : List Bytes := (str.splitOn (ascii delim)).filter (· ≠ [])

def word (text : String) : Bytes := text.toList.map ascii

/- At the prompt; behind the `return` of `exit`, or that of the end of the input; or in a call of
`do_main` that has not come back. -/
inductive Place where
  | prompt
  | exited
  | ended
  | lost
  deriving DecidableEq

structure Session where
  serialPort : Option Nat
  rtno : Option Nat
  devices : Heap
  protocols : Heap
  builtOn : Nat → Nat
  place : Place

/- `created` is the outcome of `create_serial` and `completes` that of `do_main`, where they are called. -/
inductive Event where
  | line (commandline : Bytes) (created completes : Bool)
  | endOfInput
  deriving DecidableEq

def createSerial (created : Bool) (s : Session) : Session :=
  if created then {s with serialPort := some s.devices.created, devices := s.devices.create}
  else {s with serialPort := none}

def newProtocol (s : Session) : Session :=
  match s.serialPort with
  | some device =>
      {s with rtno := some s.protocols.created, protocols := s.protocols.create,
              builtOn := Function.update s.builtOn s.protocols.created device}
  | none => s

def open' (created : Bool) (s : Session) : Session := newProtocol (createSerial created s)

def deleteBoth (s : Session) : Session :=
  {s with protocols := s.protocols.delete s.rtno, devices := s.devices.delete s.serialPort}

def close (s : Session) : Session := {deleteBoth s with rtno := none, serialPort := none}

def exit (s : Session) : Session := {deleteBoth s with place := .exited}

def doMain (completes : Bool) (s : Session) : Session :=
  if s.rtno.isSome = true ∧ completes = true then s else {s with place := .lost}

def command (elems : List Bytes) (created completes : Bool) (s : Session) : Session :=
  match elems with
  | [] => s
  | first :: _ =>
      if first = word "open" then
        if elems.length < 3 then s else open' created s
      else if first = word "close" then close s
      else if first = word "exit" then exit s
      else if s.serialPort.isSome then doMain completes s
      else s

def next (s : Session) (e : Event) : Option Session :=
  if s.place = .prompt then
    match e with
    | .line commandline created completes => some (command (strsplit commandline ' ') created completes s)
    | .endOfInput => some {s with place := .ended}
  else none

def init : Session := ⟨none,none,.empty,.empty,fun _ => 0,.prompt⟩

structure Owned (s : Session) : Prop where
  both : s.place = .prompt → (s.rtno.isSome ↔ s.serialPort.isSome)
  built : s.place = .prompt → ∀ p, s.rtno = some p → s.serialPort = some (s.builtOn p)
  single : s.place = .prompt → s.devices.AtMostOne
  deleted : s.place = .exited → s.devices.AllDeletedOnce ∧ s.protocols.AllDeletedOnce

def Opens (elems : List Bytes) : Prop := elems.head? = some (word "open") ∧ 3 ≤ elems.length
instance (elems : List Bytes) : Decidable (Opens elems) := by unfold Opens; infer_instance

def OpensOnce (s : Session) (e : Event) : Prop := ∀ commandline created completes,
  e = .line commandline created completes → Opens (strsplit commandline ' ') → s.serialPort = none

structure Paired (s : Session) : Prop where
  devices : s.devices.Owns s.serialPort
  protocols : s.protocols.Owns s.rtno
  both : s.serialPort = s.rtno.map s.builtOn

theorem pairedInit : Paired init := ⟨Heap.ownsEmpty,Heap.ownsEmpty,rfl⟩

theorem pairedClosed {s : Session} (paired : Paired s) (closed : s.serialPort = none) : s.rtno = none := by
  have both := paired.both
  rw [closed] at both
  exact Option.map_eq_none_iff.mp both.symm

theorem openPaired {s : Session} (created : Bool) (paired : Paired s) (closed : s.serialPort = none) :
    Paired (open' created s) := by
  obtain ⟨devices,protocols,_⟩ := paired
  have rtno := pairedClosed ⟨devices,protocols,‹_›⟩ closed
  rw [closed] at devices
  rw [rtno] at protocols
  cases created with
  | true =>
    refine ⟨Heap.ownsCreate devices,Heap.ownsCreate protocols,?_⟩
    simp [open',createSerial,newProtocol]
  | false =>
    refine ⟨devices,?_,?_⟩
    · change s.protocols.Owns s.rtno
      rw [rtno]
      exact protocols
    · change none = s.rtno.map s.builtOn
      rw [rtno]
      rfl

theorem closePaired {s : Session} (paired : Paired s) : Paired (close s) :=
  ⟨Heap.ownsDelete paired.devices,Heap.ownsDelete paired.protocols,rfl⟩

theorem exitDeleted {s : Session} (paired : Paired s) :
    (exit s).devices.AllDeletedOnce ∧ (exit s).protocols.AllDeletedOnce :=
  ⟨Heap.ownsNone (Heap.ownsDelete paired.devices),Heap.ownsNone (Heap.ownsDelete paired.protocols)⟩

structure Invariant (s : Session) : Prop where
  paired : s.place = .prompt → Paired s
  deleted : s.place = .exited → s.devices.AllDeletedOnce ∧ s.protocols.AllDeletedOnce

theorem invariantOwned {s : Session} (inv : Invariant s) : Owned s where
  both here := by
    rw [(inv.paired here).both,Option.isSome_map]
  built here p rtno := by
    rw [(inv.paired here).both,rtno]
    rfl
  single here := Heap.ownsAtMostOne (inv.paired here).devices
  deleted := inv.deleted

theorem promptInvariant {s : Session} (here : s.place = .prompt) (paired : Paired s) : Invariant s :=
  ⟨fun _ => paired,fun gone => by rw [here] at gone; cases gone⟩

inductive LineSource (s : Session) (elems : List Bytes) (created completes : Bool) : Session → Prop where
  | stays : LineSource s elems created completes s
  | opens (opens : Opens elems) : LineSource s elems created completes (open' created s)
  | closes : LineSource s elems created completes (close s)
  | exits : LineSource s elems created completes (exit s)
  | stops : LineSource s elems created completes {s with place := .lost}

theorem lineSource (s : Session) (elems : List Bytes) (created completes : Bool) :
    LineSource s elems created completes (command elems created completes s) := by
  unfold command doMain
  cases elems with
  | nil => exact .stays
  | cons first rest =>
    dsimp only
    split
    · rename_i opens
      split
      · exact .stays
      · rename_i long
        exact .opens ⟨congrArg some opens,Nat.le_of_not_lt long⟩
    · split
      · exact .closes
      · split
        · exact .exits
        · split
          · split
            · exact .stays
            · exact .stops
          · exact .stays

theorem opensSource {elems : List Bytes} (opens : Opens elems) (created completes : Bool) (s : Session) :
    command elems created completes s = open' created s := by
  obtain ⟨first,long⟩ := opens
  cases elems with
  | nil => cases first
  | cons head rest =>
    cases first
    unfold command
    dsimp only
    rw [if_pos rfl,if_neg (Nat.not_lt.mpr long)]

theorem openPlace (created : Bool) (s : Session) : (open' created s).place = s.place := by
  cases created with
  | true => rfl
  | false => rfl

theorem nextSource {s t : Session} {e : Event} (taken : next s e = some t) : s.place = .prompt ∧
    ((∃ commandline created completes, e = .line commandline created completes ∧
      t = command (strsplit commandline ' ') created completes s) ∨ e = .endOfInput ∧ t = {s with place := .ended}) := by
  unfold next at taken
  split at taken
  · rename_i here
    cases e with
    | line commandline created completes =>
      cases taken
      exact ⟨here,.inl ⟨commandline,created,completes,rfl,rfl⟩⟩
    | endOfInput =>
      cases taken
      exact ⟨here,.inr ⟨rfl,rfl⟩⟩
  · cases taken

theorem invariantStep {s t : Session} {e : Event} (inv : Invariant s) (once : OpensOnce s e)
    (taken : next s e = some t) : Invariant t := by
  obtain ⟨here,⟨commandline,created,completes,rfl,rfl⟩ | ⟨rfl,rfl⟩⟩ := nextSource taken
  · have paired := inv.paired here
    have source := lineSource s (strsplit commandline ' ') created completes
    generalize command (strsplit commandline ' ') created completes s = t at source
    cases source with
    | stays => exact inv
    | opens opens =>
      have closed := once _ _ _ rfl opens
      exact promptInvariant ((openPlace created s).trans here) (openPaired created paired closed)
    | closes => exact promptInvariant here (closePaired paired)
    | exits => exact ⟨fun back => (Place.noConfusion back),fun _ => exitDeleted paired⟩
    | stops => exact ⟨fun back => (Place.noConfusion back),fun gone => (Place.noConfusion gone)⟩
  · exact ⟨fun back => (Place.noConfusion back),fun gone => (Place.noConfusion gone)⟩

theorem openedTwice {s t : Session} {e : Event} (inv : Invariant s) (taken : next s e = some t) (owned : Owned t) :
    OpensOnce s e := by
  rintro commandline created completes rfl opens
  obtain ⟨here,⟨_,_,_,same,rfl⟩ | ⟨same,_⟩⟩ := nextSource taken
  · cases same
    rw [opensSource opens] at owned
    have prompt := (openPlace created s).trans here
    have paired := inv.paired here
    cases port : s.serialPort with
    | none => rfl
    | some device =>
      have devices := paired.devices
      rw [port] at devices
      cases created with
      | true => exact absurd (owned.single prompt) (Heap.createTwice devices)
      | false =>
        have both := (paired.both).symm.trans port
        obtain ⟨p,rtno,_⟩ := Option.map_eq_some_iff.mp both
        have served : (open' false s).rtno.isSome := by
          change s.rtno.isSome = true
          rw [rtno]
          rfl
        exact absurd ((owned.both prompt).mp served) Bool.false_ne_true
  · cases same

theorem ownedUnlessOpenedTwice {events : List Event} {t : Session} (run : Steps next Free init events t) :
    (∀ left right u, events = left ++ right → Steps next Free init left u → Owned u) ↔
      Steps next OpensOnce init events t :=
  stepsExact Invariant Owned (fun _ => invariantOwned) (fun _ _ _ => invariantStep) (fun _ _ _ => openedTwice)
    (promptInvariant rfl pairedInit) run

def opening : Bytes := word "open /dev/ttyUSB0 57600"

theorem ownedReopened : ∃ t, Steps next OpensOnce init [.line opening true true,.line (word "getstate") true true,
    .line (word "close") true true,.line opening false true,.line (word "exit") true true] t ∧
    t.place = .exited ∧ Owned t := by
  have other {s : Session} {commandline : Bytes} {created completes : Bool} (short : ¬ Opens (strsplit commandline ' ')) :
      OpensOnce s (.line commandline created completes) := by
    rintro _ _ _ ⟨⟩ opens
    exact absurd opens short
  have run : ∃ t, Steps next OpensOnce init [.line opening true true,.line (word "getstate") true true,
      .line (word "close") true true,.line opening false true,.line (word "exit") true true] t ∧ t.place = .exited :=
    ⟨_,.cons (fun _ _ _ _ _ => rfl) rfl (.cons (other (by decide)) rfl (.cons (other (by decide)) rfl
      (.cons (fun _ _ _ _ _ => rfl) rfl (.cons (other (by decide)) rfl (.nil _))))),by decide⟩
  obtain ⟨t,run,place⟩ := run
  have whole := stepsFree run
  exact ⟨t,run,place,(ownedUnlessOpenedTwice whole).mpr run _ [] t (List.append_nil _).symm whole⟩

theorem openedTwiceNotOwned :
    (∃ s, Steps next Free init [.line opening true true,.line opening true true,.line (word "exit") true true] s ∧
      s.devices.deletions 0 = 0 ∧ ¬ Owned s) ∧
    ∃ s, Steps next Free init [.line opening true true,.line opening false true] s ∧ s.place = .prompt ∧
      s.rtno = some 0 ∧ s.serialPort = none ∧ ¬ Owned s := by
  constructor
  · refine ⟨_,.cons trivial rfl (.cons trivial rfl (.cons trivial rfl (.nil _))),by decide,fun owned => ?_⟩
    have once := (owned.deleted (by decide)).1 0 (by decide)
    contradiction
  · refine ⟨_,.cons trivial rfl (.cons trivial rfl (.nil _)),by decide,by decide,by decide,fun owned => ?_⟩
    have both := owned.both (by decide)
    contradiction

end Interactive
end RTno2Proxy
