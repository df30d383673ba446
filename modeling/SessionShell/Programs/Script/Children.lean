import SessionShell.Programs.Load
import SessionShell.Programs.Script.Expansion
import SessionShell.Programs.Script.Parser
import SessionShell.Programs.Signal

/-! What a shell starts: scripts in texts, copies of itself, and programs. -/

namespace SessionShell.Programs

/-- How a script is run. The status of one that is tested is used, so that it is no failure of the
whole. Behind one that is final the shell has nothing left to do. -/
structure Course where
  tested : Bool := false
  final : Bool := false

def Course.onlyTested (c : Course) : Course :=
  { c with final := false }

structure Runner where
  evaluate : Course → Script → Step Unit
  start : Loaded → Process → World → Int32 × World

/-- Where the text of a script comes from: it is given, taken from a stream of its own, or taken in parts
from the input of the shell. -/
inductive Source
  | given
  | stream (index : Nat)
  | input

namespace Source

/-- How many bytes are taken from the input at a time. What is left there is for commands to read. -/
def chunk : Nat := 8192

def index? (source : Source) (r : ShellRun) : Option Nat :=
  match source with
  | .given => none
  | .stream index => some index
  | .input => r.process.descriptor? 0

def size (source : Source) : Step Nat := do
  let r ← get
  return (source.index? r).elim 0 fun index => (r.world.left index).length

/-- Takes the next part of a text. Zeros in it are left out. -/
def take (source : Source) : Step Raw := do
  let r ← get
  match source.index? r with
  | none => return ""
  | some index =>
    let count := match source with
      | .input => some chunk
      | _ => none
    let (result, world) := r.world.read index count
    set { r with world }
    return Raw.ofBytes ((result.toOption.getD []).filter (· ≠ 0))

end Source

namespace ShellRun

/-- Sends the shell the signal that a process of it has ended, if a trap waits for that. One signal is
enough for all that have ended. -/
def childEnded (r : ShellRun) : ShellRun :=
  let r := { r with jobs := r.jobs.map fun j => { j with isNoticed := true } }
  let signal := (r.process.number, Signal.child)
  if (r.traps.lookup Signal.child).any (· ≠ "") && !r.world.signals.contains signal then
    { r with world := { r.world with signals := signal :: r.world.signals } }
  else r

def await (ended : Int32) : Step Nat := do
  if let some text := Signal.notice? ended then
    let _ ← ShellRun.write 2 text
  modify childEnded
  return ShellRun.codeOf ended

end ShellRun

namespace Runner

variable (d : Runner)

def prepare (reading : Reading) : Step Reading := do
  let r ← get
  let aliases := r.aliases.map fun (name, text) => (name, text.toList)
  return { reading with documents := r.documents }.withAliases aliases

def nextLines (cs : List Char) : List Char :=
  (cs.dropWhile (· ≠ '\n')).drop 1

/-- Shows the lines that have been read, if that is asked for. A line is shown once its first character
has been read. -/
def showLines (reading : Reading) (left : List Char) : Step Unit := do
  if reading.isShown && (← get).isSet 'v' then
    let text := if reading.opened.isEmpty then reading.left else nextLines reading.left
    let read := text.take (text.length - left.length)
    let behind := if read.isEmpty || read.getLast? = some '\n' then left else nextLines left
    let _ ← ShellRun.write 2 (String.ofList (text.take (text.length - behind.length)))

def acceptLine (reading : Reading) (result : Except SyntaxFault (Option Script × Reading)) :
    Step (Option Script × Reading) := do
  match result with
  | .error fault =>
    showLines reading fault.left
    modify fun r => { r with line := fault.line }
    ShellRun.fail fault.message
  | .ok (script, after) =>
    showLines reading after.left
    modify fun r => { r with documents := after.documents, isAtEnd := after.isAtEnd }
    return (script, after)

def isShort : Except SyntaxFault (Option Script × Reading) → Bool
  | .ok (_, after) => after.ended
  | .error fault => fault.left.isEmpty

/-- Takes the next line of commands, given what it is in the text so far. If that ends before it does,
more is taken from its source. The bound is greater than the number of parts that the source has. -/
def extendLine (source : Source) :
    Nat → Reading → Except SyntaxFault (Option Script × Reading) → Step (Option Script × Reading)
  | 0, reading, result => acceptLine reading result
  | bound + 1, reading, result => do
    let more ← if isShort result then source.take else pure ""
    if more = "" then acceptLine reading result
    else
      let reading ← prepare (reading.extend more)
      extendLine source bound reading reading.next

def nextLine (source : Source) (reading : Reading) : Step (Option Script × Reading) := do
  let reading ← prepare reading
  let result := reading.next
  let parts ← if isShort result then source.size else pure 0
  extendLine source (parts / Source.chunk + 2) reading result

/-- Runs the lines of a text. The status is that of the last one. -/
def evaluateLines (course : Course) (source : Source) (reading : Reading) : Step Unit := do
  let (_, status) ← Step.whileTrue (reading, 0) fun (reading, status) => do
    match ← nextLine source reading with
    | (none, after) => return (false, after, status)
    | (some script, after) =>
      let isLast := course.final && after.isAtEnd
      let status ← match script with
        | .nothing => pure status
        | script => do
          d.evaluate { course with final := isLast } script
          pure (← get).status
      if isLast && !(← get).isSet 'n' then
        throw .exit
      return ((← get).skip = .nothing, after, status)
  ShellRun.setStatus status

def evaluateText (course : Course) (text : Raw) : Step Unit :=
  d.evaluateLines course .given (.ofText text)

def evaluateStream (course : Course) (index : Nat) : Step Unit :=
  d.evaluateLines course (.stream index) { Reading.ofText "" with isShown := true }

/-- Runs what a trap asks for. The status is as before if nothing else is said. -/
def runTrap (action : Raw) : Step Unit := do
  let before ← get
  let status := before.saved.getD before.status
  set { before with saved := some status }
  d.evaluateText {} action
  modify fun r => { r with
    status := if r.skip = .leaveFunction then r.status else status
    saved := before.saved }

def notice : Step Unit := do
  let r ← get
  if r.world.signals.isEmpty then
    return
  let own := r.world.signals.filter (·.1 == r.process.number)
  let left := r.world.signals.filter (·.1 != r.process.number)
  set { r with world := { r.world with signals := left } }
  for (_, signal) in own.mergeSort (fun a b => a.2 ≤ b.2) do
    let r ← get
    if signal = 9 then
      throw (.killed signal)
    let isStubborn := r.isSet 'i' && r.process.number = r.number && [3, 15].contains signal
    match r.traps.lookup signal with
    | some action =>
      if r.skip ≠ .nothing then
        set { r with world := { r.world with signals := (r.process.number, signal) ::
          r.world.signals } }
      else if action ≠ "" then
        d.runTrap action
    | none =>
      if !isStubborn && !Signal.isHarmless signal && !r.process.ignored.contains signal then
        throw (.killed signal)

def finish (result : Except Halt Unit) : Step Int32 := do
  match result with
  | .error (.killed signal) => return (UInt32.ofNat signal).toInt32
  | _ =>
    let r ← get
    match r.traps.lookup 0 with
    | none | some "" => return ShellRun.exited r.status
    | some action =>
      set { r with
        traps := r.traps.filter (·.1 != 0), skip := .nothing, saved := some r.status }
      let step := d.evaluateText {} action
      let (result, after) := step.runOn (← get)
      set after
      match result with
      | .ok _ => return ShellRun.exited r.status
      | .error (.killed signal) => return (UInt32.ofNat signal).toInt32
      | .error _ => return ShellRun.exited after.status

def hasTraps (r : ShellRun) : Bool :=
  r.traps.any (·.2 != "")

/-- Runs a step in a copy of the shell. Only the world keeps what was changed. The result is the
number of the copy and how it ended. -/
def apart (change : Process → Process) (body : Step Unit) : Step (Nat × Int32) := do
  let r ← get
  let (number, world) := r.world.fork
  let parent := { r with world := { files := r.world.files } }
  let child := { r with
    process := change { r.process with number, parent := r.process.number }
    world
    traps := r.traps.filter (·.2 == "")
    saved := none
    jobs := [] }
  let (result, after) := body.runOn child
  let (ended, after) := (d.finish result).runOn after
  set { parent with world := after.world }
  return (number, ended.toOption.getD 0)

def substitute (body : Script) : Step Raw := do
  if body matches .nothing then
    return ""
  let _ ← ShellRun.takeSlot
  let index ← ShellRun.addStream (.sink [])
  let (_, ended) ← d.apart (ShellRun.setDescriptor · 1 (some index)) (d.evaluate { final := true } body)
  let code ← ShellRun.await ended
  let r ← get
  let output := Raw.ofBytes (r.world.written index)
  set { r with world := r.world.setStream index .null, substituted := code }
  return output

def processFor (r : ShellRun) (name : Raw) (arguments : List Raw) : Process :=
  { r.process with name, arguments, environment := r.environment }

def become {α : Type} (loaded : Loaded) (process : Process) : Step α := do
  let r ← get
  let (ended, world) := d.start loaded process r.world
  let signal := (ended.toUInt32 &&& 0x7F).toNat
  set { r with world, status := ShellRun.codeOf ended, traps := [] }
  throw (if signal = 0 then .exit else .killed signal)

def runProgram (loaded : Loaded) (process : Process) : Step Nat := do
  let _ ← ShellRun.takeSlot
  let r ← get
  let (number, world) := r.world.fork
  let (ended, world) := d.start loaded { process with number, parent := process.number } world
  set { r with world }
  ShellRun.await ended

end Runner

end SessionShell.Programs
