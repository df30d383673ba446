import SessionShell.Programs.Quoting
import SessionShell.Programs.Script.Word
import SessionShell.Programs.World
import SessionShell.Text.Decimal

/-! The state of a shell that runs a script, and the steps that change it. -/

namespace SessionShell.Programs

structure Variable where
  name : String
  value : Option Raw
  exported : Bool := false
  readOnly : Bool := false

inductive Skip
  | nothing
  | leaveLoops (count : Nat)
  | nextRound (count : Nat)
  | leaveFunction
  deriving DecidableEq, Repr

structure Function where
  name : String
  body : Script

/-- Where the scan of the options of a script stands: the argument, and the letters of it that are
left. -/
structure OptionScan where
  index : Nat := 1
  letters : List Char := []

structure Tracked where
  name : Raw
  index : Nat
  isStale : Bool := false

structure Job where
  slot : Nat
  number : Nat
  stages : Nat := 1
  ended : Int32
  isNoticed : Bool := false
  isAwaited : Bool := false

/-- What the end of a function puts back: how variables stood before they became local, and the
settings if they are local too. -/
structure Frame where
  bindings : List (String × Option Variable) := []
  settings : Option (List Char) := none

structure ShellRun where
  process : Process
  world : World
  number : Nat
  name : Raw
  parameters : List Raw := []
  bindings : List Variable := []
  functions : List Function := []
  settings : List Char := []
  /-- The settings that the arguments of the shell have not switched so far. Until all arguments have
  been read they are shown as if they were on. -/
  undecided : List Char := []
  documents : Array Pieces := #[]
  aliases : List (String × Raw) := []
  tracked : List Tracked := []
  /-- How the last command ended: zero stands for success. A function can have a status of any size;
  that of a process has eight bits. -/
  status : Nat := 0
  substituted : Nat := 0
  line : Nat := 0
  calls : Nat := 0
  speaker : Option Raw := none
  skip : Skip := .nothing
  loops : Nat := 0
  traps : List (Nat × Raw) := []
  saved : Option Nat := none
  frames : List Frame := []
  jobs : List Job := []
  lastJob : Option Nat := none
  path : Raw := "/"
  optionScan : OptionScan := {}
  lost : Bool := false
  isAtEnd : Bool := false
  isTracing : Bool := false

inductive Halt
  | exit
  | error
  | killed (signal : Nat)
  deriving DecidableEq, Repr

abbrev Step := ExceptT Halt (StateM ShellRun)

def Step.runOn {α : Type} (step : Step α) (r : ShellRun) : Except Halt α × ShellRun :=
  Id.run (StateT.run (ExceptT.run step) r)

def Step.ofRun {α : Type} (f : ShellRun → Except Halt α × ShellRun) : Step α :=
  ExceptT.mk fun r => pure (f r)

def Step.restoring {α : Type} (back : ShellRun → ShellRun → ShellRun) (step : Step α) : Step α :=
  .ofRun fun r =>
    let (result, after) := step.runOn r
    (result, back r after)

def Step.attempt {α : Type} (step : Step α) : Step (Option α) :=
  .ofRun fun r =>
    match step.runOn r with
    | (.ok a, r) => (.ok (some a), r)
    | (.error .error, r) => (.ok none, r)
    | (.error e, r) => (.error e, r)

def Step.succeeds (step : Step Unit) : Step Bool := do
  return (← step.attempt).isSome

def Step.repeated {α : Type} (step : α → Step (Bool × α)) :
    Nat → α → ShellRun → Except Halt α × ShellRun
  | 0, _, r => (.error (.killed 13), r)
  | bound + 1, a, r =>
    match (step a).runOn r with
    | (.ok (true, a), r) => Step.repeated step bound a r
    | (.ok (false, a), r) => (.ok a, r)
    | (.error e, r) => (.error e, r)

def Step.rounds : Nat := 1000000

/-- Repeats a step on what it makes of a value, as long as it says so. Only a run that would never end
is cut short. -/
def Step.whileTrue {α : Type} (a : α) (step : α → Step (Bool × α)) : Step α :=
  .ofRun (Step.repeated step Step.rounds a)

namespace ShellRun

def isSet (r : ShellRun) (setting : Char) : Bool :=
  r.settings.contains setting

def setStatus (code : Nat) : Step Unit :=
  modify fun r => { r with status := code }

def write (descriptor : Nat) (text : Raw) : Step Bool := do
  let r ← get
  if text = "" then return true
  let (result, world) := r.world.writeTo r.process descriptor (Raw.bytes text)
  set { r with world }
  return result.toBool

def put (text : Raw) : Step Unit := do
  if !(← write 1 text) then
    modify fun r => { r with lost := true }

def warning (r : ShellRun) (message : Raw) : Raw :=
  r.name ++ ": " ++ Text.decimal r.line ++ ": " ++ (r.speaker.elim "" (· ++ ": ")) ++ message ++
    "\n"

def warn (message : Raw) : Step Unit := do
  let _ ← write 2 ((← get).warning message)

def fail {α : Type} (message : Raw) : Step α := do
  warn message
  setStatus 2
  throw .error

/-! Variables. -/

def named? (r : ShellRun) (name : String) : Option Variable :=
  r.bindings.find? (·.name == name)

def value? (r : ShellRun) (name : String) : Option Raw :=
  (r.named? name).bind (·.value)

def valueOf (r : ShellRun) (name : String) : Raw :=
  (r.value? name).getD ""

def place (v : Variable) (bindings : List Variable) : List Variable :=
  if bindings.any (·.name == v.name) then
    bindings.map fun old => if old.name == v.name then v else old
  else bindings ++ [v]

def forgetPrograms (r : ShellRun) (name : String) : ShellRun :=
  if name = "PATH" then { r with tracked := [] } else r

def setVariable (name : String) (value : Raw) (export? : Bool) : Step Unit := do
  let r ← get
  let old := (r.named? name).getD { name, value := none }
  if old.readOnly then
    fail (name ++ ": is read only")
  set { r.forgetPrograms name with
    bindings := place
      { old with value := some value, exported := old.exported || export? || r.isSet 'a' }
      r.bindings
    optionScan := if name = "OPTIND" then { index := (value.toNat?).getD 1 } else r.optionScan }

def unsetVariable (name : String) : Step Unit := do
  let r ← get
  if (r.named? name).any (·.readOnly) then
    fail (name ++ ": is read only")
  set { r.forgetPrograms name with bindings := r.bindings.filter (·.name != name) }

def mark (name : String) (change : Variable → Variable) : Step Unit :=
  modify fun r =>
    let old := (r.named? name).getD { name, value := none }
    { r with bindings := place (change old) r.bindings }

def saveLocal (name : String) : Step Unit :=
  modify fun r =>
    match r.frames with
    | frame :: frames =>
      if frame.bindings.any (·.1 == name) then r
      else
        let bindings := (name, r.named? name) :: frame.bindings
        { r with frames := { frame with bindings } :: frames }
    | [] => r

def saveSettings (r : ShellRun) : ShellRun :=
  match r.frames with
  | frame :: frames =>
    { r with frames := { frame with settings := frame.settings.or (some r.settings) } :: frames }
  | [] => r

def pushFrame (r : ShellRun) : ShellRun :=
  { r with frames := {} :: r.frames }

def putBack (r : ShellRun) (name : String) (old : Option Variable) : ShellRun :=
  { r.forgetPrograms name with
    bindings := match old with
      | some v => place v r.bindings
      | none => r.bindings.filter (·.name != name) }

def popFrame (r : ShellRun) : ShellRun :=
  match r.frames with
  | frame :: frames =>
    let r := frame.bindings.foldl (fun r (name, old) => r.putBack name old) r
    { r with frames, settings := frame.settings.getD r.settings }
  | [] => r

def unwind (depth : Nat) (r : ShellRun) : ShellRun :=
  (List.range (r.frames.length - depth)).foldl (fun r _ => r.popFrame) r

/-- The group that a variable belongs to by its name. An environment lists one group after the
other. -/
def groupOf (name : String) : Nat :=
  let codes := name.toList.map Char.toNat
  (codes.headD 0 * 16 + codes.foldl (· + ·) 0) % 39

def environment (r : ShellRun) : List Raw :=
  let exported := r.bindings.filter (·.exported)
  (exported.mergeSort fun v w => groupOf v.name ≤ groupOf w.name).filterMap fun v =>
    v.value.map fun value => v.name ++ "=" ++ value

def separators (r : ShellRun) : List Char :=
  ((r.value? "IFS").getD " \t\n").toList

def settingLetters (r : ShellRun) : Raw :=
  String.ofList ("pubaCEVvxsnmiIfe".toList.filter r.isSet)

/-- The text of a parameter, if it is set. Not for the list of all parameters. -/
def parameter? (r : ShellRun) (name : String) : Option Raw :=
  match name with
  | "#" => some (Text.decimal r.parameters.length)
  | "?" => some (Text.decimal r.status)
  | "$" => some (Text.decimal r.number)
  | "!" => r.lastJob.map fun n => Text.decimal n
  | "-" => some r.settingLetters
  | "0" => some r.name
  | _ =>
    if name.toList.all Char.isDigit then r.parameters[digitsValue 10 name.toList - 1]?
    else r.value? name

/-! Descriptors. -/

def restoreDescriptors (before after : ShellRun) : ShellRun :=
  { after with process := { after.process with descriptors := before.process.descriptors } }

def setDescriptor (p : Process) (n : Nat) (index : Option Nat) : Process :=
  { p with descriptors := match index with
    | some index => (n, index) :: p.descriptors.filter (·.1 != n)
    | none => p.descriptors.filter (·.1 != n) }

def addStream (s : Stream) : Step Nat := do
  let r ← get
  let (index, world) := r.world.addStream s
  set { r with world }
  return index

def codeOf (ended : Int32) : Nat :=
  (exitCode ended).toUInt32.toUInt8.toNat

def exited (code : Nat) : Int32 :=
  ((UInt8.ofNat code).toUInt32 <<< 8).toInt32

/-- Takes a slot for something that is started, and tells its number. A job that was waited for gives
up its slot. -/
def takeSlot : Step Nat := do
  let r ← get
  let waits (slot : Nat) : Bool := r.jobs.any fun j => j.slot == slot && !j.isAwaited
  let slot := ((List.range (r.jobs.length + 1)).find? fun n => !waits (n + 1)).getD 0 + 1
  set { r with jobs := r.jobs.filter (·.slot != slot) }
  return slot

end ShellRun

end SessionShell.Programs
