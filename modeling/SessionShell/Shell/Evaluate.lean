import SessionShell.Host.Lookup
import SessionShell.Shell.Builtin

/-! How programs run. A command is a native, a builtin or a program of the machine, in this order.
Code inside substitutions is parsed when it is reached, so evaluation takes from a bound on how deep
substitutions lie inside each other. -/

namespace SessionShell

namespace Shell

/-- The value of a part of a word. `capture` gives the output of code. -/
def expandPart (capture : String → Shell String) : WordPart → Shell String
  | .literal text => pure text
  | .parameter name => return ((← get).names.text? name).getD ""
  | .command code => do
    let output ← capture code
    return String.ofList (Text.dropEndWhile (· == '\n') output.toList)

def expand (capture : String → Shell String) : Word → Shell String
  | [] => pure ""
  | part :: rest => do
    let front ← expandPart capture part
    return front ++ (← expand capture rest)

def expandAll (capture : String → Shell String) : List Word → Shell (List String)
  | [] => pure []
  | word :: rest => do
    let front ← expand capture word
    return front :: (← expandAll capture rest)

def expandAssignments (capture : String → Shell String) :
    List Assignment → Shell (List (String × String))
  | [] => pure []
  | a :: rest => do
    let value ← match a.value with
      | some word => expand capture word
      | none => pure ""
    return (a.name, value) :: (← expandAssignments capture rest)

def assignGlobals (assigned : List (String × String)) : Shell Unit :=
  changeNames fun names =>
    assigned.foldl (fun names (name, value) => names.setGlobal name (.text value)) names

structure Call where
  name : String
  arguments : List String
  assigned : List (String × String) := []
  input : Option Bytes := none
  deriving DecidableEq, Repr

/-- Calls a native, which does not see its input. -/
def callNative (native : Native) (c : Call) : Shell Int32 := do
  let reply := native.reply (← get).deeds c.arguments
  modify fun s => { s with deeds := s.deeds ++ [.called c.name c.arguments] }
  write reply.output
  if reply.stops then
    modify fun s => { s with host.running := false }
  match reply.outcome with
  | .ok status => pure status
  | .error message => fail (.reported message)

/-- Runs a program of the machine, which gets the text globals and the assignments as its
environment. -/
def runExternal (start : Launcher) (c : Call) : Shell Int32 := do
  let s ← get
  match findCommand s.host.machine ((s.names.text? "PATH").getD "") c.name with
  | none => fail (.commandNotFound c.name)
  | some program =>
    let launch : Launch :=
      { program, arguments := c.arguments, input := c.input
        environment := some (s.names.exported.insertMany c.assigned) }
    let (result, machine) := start.run launch s.host.machine
    set { s with deeds := s.deeds ++ [Deed.started launch], host.machine := machine }
    match result with
    | .error e => throw e
    | .ok finished =>
      write finished.output
      modify fun s => { s with complaints := s.complaints ++ finished.complaints }
      return exitCode finished.ended

def invoke (start : Launcher) (c : Call) : Shell Int32 := do
  match (← get).names.lookup c.name with
  | some (.native native) => callNative native c
  | _ =>
    match Builtin.ofName? c.name with
    | some builtin => builtin.run c.arguments c.input
    | none => runExternal start c

/-! The rest does not depend on how commands are run. -/

/-- Runs the stages of a pipeline. Each gets what the stage in front of it wrote, and only the last
one writes to the output stream. A stage of assignments sets variables if it is the whole
statement. -/
def runStages (perform : Call → Shell Int32) (capture : String → Shell String) (whole : Bool) :
    List Command → Option Bytes → Int32 → Shell Int32
  | [], _, status => pure status
  | stage :: rest, input, _ => do
    let assigned ← expandAssignments capture stage.assignments
    match stage.words with
    | [] =>
      if whole then assignGlobals assigned
      runStages perform capture whole rest none 0
    | first :: more =>
      let name ← expand capture first
      let arguments ← expandAll capture more
      let call : Call := { name, arguments, assigned, input }
      if rest.isEmpty then flushing (perform call)
      else
        let (status, bytes) ← collecting (perform call)
        runStages perform capture whole rest (some bytes) status

def runStatement (perform : Call → Shell Int32) (capture : String → Shell String)
    (s : Statement) : Shell Int32 :=
  runStages perform capture (s.stages.length = 1) s.stages none 0

def runProgram (perform : Call → Shell Int32) (capture : String → Shell String) :
    Program → Shell Unit
  | [] => pure ()
  | s :: rest => do
    let status ← runStatement perform capture s
    changeNames (·.setStatus status)
    runProgram perform capture rest

def captureWithin (perform : Call → Shell Int32) : Nat → String → Shell String
  | 0, _ => fail .nestedTooDeep
  | depth + 1, code =>
    match parse code with
    | .error e => throw ⟨["in $(" ++ code ++ ")"], .malformed e⟩
    | .ok program => do
      let (_, bytes) ← collecting (runProgram perform (captureWithin perform depth) program)
      return Text.Utf8.decodeLossy bytes

/-- A substitution is at least three characters longer than the code in it, so no code has
substitutions deeper than this. -/
def depthBound (code : String) : Nat :=
  code.length / 3

def evaluateWith (perform : Call → Shell Int32) (code : String) : Shell Unit := do
  changeNames Names.resetFrame
  match parse code with
  | .error e => fail (.malformed e)
  | .ok program => runProgram perform (captureWithin perform (depthBound code)) program

def evaluate (start : Launcher) (code : String) : Shell Unit :=
  evaluateWith (invoke start) code

end Shell

end SessionShell
