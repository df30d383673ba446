import SessionShell.Programs.Script.Command
import SessionShell.Programs.Script.Redirect

/-! The evaluation of scripts. What lies inside a command is run by a runner that is given. -/

namespace SessionShell.Programs

namespace Evaluation

variable (d : Runner)

/-! Simple commands. -/

/-- Expands words until there is a field. The words behind are left. -/
def expandFirst : List Pieces → Step (List Raw × List Pieces)
  | [] => return ([], [])
  | word :: rest => do
    match ← Expansion.fields d.substitute word with
    | [] => expandFirst rest
    | fields => return (fields, rest)

inductive Target
  | nothing
  | function (f : Function)
  | action (name : Raw) (action : Commands.Action)
  | program

def targetOf (r : ShellRun) (course : Course) (functions : Bool) (name : Raw) : Target :=
  match if functions then r.functions.find? (·.name == name) else none with
  | some f => .function f
  | none =>
    match Commands.find? d course name with
    | some action => .action name action
    | none => .program

/-- Expands the arguments of a command. Some commands take assignments, which are no fields. -/
def expandArguments (assigning : Bool) : List Pieces → Step (List Raw)
  | [] => return []
  | word :: rest => do
    let front ← match if assigning then Piece.assignment? word else none with
      | some (name, value) =>
        pure [name ++ "=" ++ (← Expansion.assigned d.substitute value)]
      | none => Expansion.fields d.substitute word
    return front ++ (← expandArguments assigning rest)

/-- A command that is ready to be run: what it is, the fields in front of its name, its name and
arguments, whether the shell ends if it fails, and the path on which its program is to be searched for,
if that is its own. -/
structure Ready where
  target : Target := .nothing
  dropped : List Raw := []
  fields : List Raw := []
  special : Bool := false
  searchPath : Option Raw := none

/-- Drops the options of `command` if they only say how a command is run: what is left is that command
with its arguments, and whether it is to be searched for on the standard path. -/
def dropOptions : Nat → Ready → List Pieces → Step (Option (Ready × List Pieces))
  | 0, _, _ => return none
  | bound + 1, ready, words => do
    match ready.fields with
    | [] =>
      match ← expandFirst d words with
      | ([], _) => return none
      | (fields, words) => dropOptions bound { ready with fields } words
    | field :: fields =>
      let behind := { ready with dropped := ready.dropped ++ [field], fields }
      match field.toList with
      | ['-', '-'] =>
        if !fields.isEmpty then return some (behind, words)
        else match ← expandFirst d words with
          | ([], _) => return none
          | (fields, words) => return some ({ behind with fields }, words)
      | '-' :: c :: cs =>
        if (c :: cs).all (· = 'p') then
          dropOptions bound { behind with searchPath := some Lookup.standardPath } words
        else return none
      | _ => return some (ready, words)

/-- Finds out what a command is by its first field, and expands the words behind. The bound is greater
than the number of all words. -/
def prepareFields (course : Course) : Nat → (functions : Bool) → Ready → List Pieces → Step Ready
  | 0, _, _, _ => return {}
  | bound + 1, functions, ready, words => do
    let fields := ready.fields
    let target := targetOf d (← get) course functions (fields.headD "")
    let whole (assigning : Bool) : Step Ready := do
      return { ready with target, fields := fields ++ (← expandArguments d assigning words) }
    match target with
    | .action "command" _ =>
      let behind := { ready with
        dropped := ready.dropped ++ fields.take 1, fields := fields.drop 1, special := false }
      match ← dropOptions d (fields.length + words.length + 1) behind words with
      | some (ready, words) => prepareFields course bound false ready words
      | none => whole false
    | .action name _ => whole (Commands.assigning.contains name)
    | _ => whole false

def prepare (course : Course) (words : List Pieces) : Step Ready := do
  let (fields, words) ← expandFirst d words
  match fields with
  | [] => return {}
  | name :: _ =>
    let special := specialCommands.contains name
    prepareFields d course (fields.length + words.length + 2) true { fields, special } words

def assign (temporary export? : Bool) : List Pieces → Step (List Raw)
  | [] => return []
  | pieces :: rest => do
    match Piece.assignment? pieces with
    | none => assign temporary export? rest
    | some (name, word) =>
      let value ← Expansion.assigned d.substitute word
      if temporary then
        ShellRun.saveLocal name
      ShellRun.setVariable name value export?
      return (name ++ "=" ++ value) :: (← assign temporary export? rest)

/-- The text that a variable has for messages, with its substitutions. A text that is wrong stays as it
is. -/
def prompt (name : String) : Step Raw := do
  let r ← get
  let text := r.valueOf name
  let reading ← Runner.prepare (.ofText text)
  let pushed := if r.isAtEnd then some .finish else none
  let reading := { reading with pushed, isDocument := true }
  let expanded ← Step.attempt do
    match Reader.takePieces Deeper.all.inner false reading.bound .document reading with
    | .error fault =>
      modify fun r => { r with line := fault.line, isAtEnd := false }
      ShellRun.fail fault.message
    | .ok (pieces, after) =>
      modify fun r => { r with documents := after.documents, isAtEnd := after.isAtEnd }
      Expansion.text d.substitute {} pieces
  modify fun after => { after with line := r.line }
  return expanded.getD text

/-- The text in front of a command that is shown. Nothing is shown while it is found out. -/
def traceFront : Step Raw := do
  modify fun r => { r with isTracing := true }
  let text ← prompt d "PS4"
  modify fun r => { r with isTracing := false }
  return text

def trace (descriptors : List (Nat × Nat)) (parts : List Raw) : Step Unit := do
  let r ← get
  if r.isSet 'x' && !r.isTracing then
    let front ← traceFront d
    let text := front ++ " ".intercalate parts ++ "\n"
    modify fun r =>
      let process := { r.process with descriptors }
      { r with world := (r.world.writeTo process 2 (Raw.bytes text)).2 }

def runAction (name : Raw) (special : Bool) (step : Step Nat) : Step Unit := do
  let named : Step Unit := Step.restoring (fun before after =>
      { after with speaker := before.speaker }) do
    modify fun r => { r with speaker := some name, lost := false }
    let status ← step
    if (← get).lost then
      modify fun r => { r with lost := false }
      ShellRun.warn (name ++ ": I/O error")
      ShellRun.setStatus (status ||| 1)
    else ShellRun.setStatus status
  if special then named
  else
    let before ← get
    if !(← named.succeeds) then
      modify fun r => { (r.unwind before.frames.length) with loops := before.loops }

def callLimit : Nat := 1000

def runFunction (course : Course) (f : Function) (arguments : List Raw) : Step Unit := do
  if callLimit ≤ (← get).calls then
    ShellRun.fail ("Maximum function recursion depth (" ++ Text.decimal callLimit ++ ") reached")
  Step.restoring (fun before after =>
    { after with
      parameters := before.parameters
      loops := before.loops
      optionScan := before.optionScan
      calls := before.calls
      skip := if after.skip = .leaveFunction then .nothing else after.skip }) do
    modify fun r => { r with
      parameters := arguments, loops := 0, optionScan := {}, calls := r.calls + 1 }
    d.evaluate course.onlyTested f.body

/-- Runs a program. With nothing left to do the shell leaves its place to it. -/
def runNamed (course : Course) (searchPath : Option Raw) (name : Raw) (arguments : List Raw) :
    Step Unit := do
  match ← Lookup.paths searchPath name with
  | .error e => refuse (Lookup.failure e).1 127
  | .ok paths =>
    let r ← get
    let process := Runner.processFor r name arguments
    match Lookup.load r process .noEntry paths with
    | .ok loaded =>
      if course.final && !Runner.hasTraps r then
        d.become loaded process
      else ShellRun.setStatus (← d.runProgram loaded process)
    | .error e =>
      let (reason, code) := Lookup.failure e
      refuse reason code
where
  refuse (reason : Raw) (code : Nat) : Step Unit := do
    ShellRun.warn (name ++ ": " ++ reason)
    ShellRun.setStatus code

def Ready.isExec (ready : Ready) : Bool :=
  match ready.target with
  | .action "exec" _ => true
  | _ => false

def runCommand (course : Course) (line : Nat) (assignments words : List Pieces)
    (redirections : List Redirection) : Step Unit := do
  modify fun r => { r with line, substituted := 0 }
  let ready ← prepare d course words
  let temporary := !ready.special && !ready.target matches .nothing
  let targets ← Redirected.ofRedirections d redirections
  let back := if ready.isExec then fun _ after => after else ShellRun.restoreDescriptors
  Step.restoring back do
    let outer := (← get).process.descriptors
    if temporary then
      modify ShellRun.pushFrame
    if !(← Step.succeeds (Redirected.apply d targets)) then
      modify fun r => { r with process := { r.process with descriptors := outer } }
      if ready.special then
        throw .error
    else
      let exports := temporary || ready.isExec && 1 < ready.fields.length
      let assigned ← assign d temporary exports assignments
      trace d outer (assigned ++ ready.dropped ++ ready.fields)
      let arguments := ready.fields.drop 1
      match ready.target with
      | .nothing => modify fun r => { r with status := r.substituted }
      | .function f => runFunction d course f arguments
      | .action name action => runAction name ready.special (action arguments)
      | .program => runNamed d course ready.searchPath (ready.fields.headD "") arguments
    if temporary then
      modify ShellRun.popFrame

/-! Compound commands. -/

def settleSkip : Step (Bool × Bool) := do
  let r ← get
  match r.skip with
  | .nothing => return (false, true)
  | .leaveFunction => return (true, false)
  | .leaveLoops n =>
    set { r with skip := if n ≤ 1 then .nothing else .leaveLoops (n - 1) }
    return (true, false)
  | .nextRound n =>
    set { r with skip := if n ≤ 1 then .nothing else .nextRound (n - 1) }
    return (true, n ≤ 1)

def inLoop (step : Step Unit) : Step Unit := do
  modify fun r => { r with loops := r.loops + 1 }
  step
  modify fun r => { r with loops := r.loops - 1 }

def runLoop (course : Course) (succeeds : Bool) (test body : Script) : Step Unit := do
  let round (status : Nat) : Step (Bool × Nat) := do
    d.evaluate { tested := true } test
    let outcome := (← get).status
    match ← settleSkip with
    | (true, again) =>
      return (again, if (← get).skip = .leaveFunction then outcome else status)
    | (false, _) =>
      if (outcome = 0) ≠ succeeds then return (false, status)
      else
        d.evaluate course.onlyTested body
        let status := (← get).status
        let (_, again) ← settleSkip
        return (again, status)
  inLoop do
    ShellRun.setStatus (← Step.whileTrue 0 round)

def runEach (course : Course) (name : String) (body : Script) : List Raw → Step Unit
  | [] => return
  | text :: rest => do
    ShellRun.setVariable name text false
    d.evaluate course.onlyTested body
    let (_, again) ← settleSkip
    if again then
      runEach course name body rest

def selectArm (text : List Char) : List Arm → Step Script
  | [] => return .nothing
  | .mk patterns body :: arms => do
    if ← matchesAny patterns then return body else selectArm text arms
where
  matchesAny : List Pieces → Step Bool
    | [] => return false
    | word :: rest => do
      if Pattern.isMatch (← Expansion.pattern d.substitute word) text then return true
      else matchesAny rest

def foresee (stage : Script) : Step Unit := do
  if let .command _ _ (word :: _) _ := stage then
    if let some cs := Piece.plain? word then
      let name := String.ofList cs
      let r ← get
      if isName name && !(r.functions.any (·.name == name) || Commands.names.contains name) then
        let _ ← Lookup.track name

/-- Runs commands one behind the other, each reading what the one before it has written. They share
the first input and the last output with the shell. The result tells how they ended. -/
def runStages (course : Course) : Option Bytes → List Script → Step (List Int32)
  | _, [] => return []
  | input, stage :: rest => do
    foresee stage
    let source ← input.mapM fun bytes => ShellRun.addStream (.source bytes)
    let sink ← if rest.isEmpty then pure none else some <$> ShellRun.addStream (.sink [])
    let change (p : Process) : Process :=
      let p := if source.isSome then ShellRun.setDescriptor p 0 source else p
      if sink.isSome then ShellRun.setDescriptor p 1 sink else p
    let (_, ended) ← d.apart change (d.evaluate { course with final := true } stage)
    let output ← match sink with
      | none => pure none
      | some index => do
        let r ← get
        let bytes := r.world.written index
        set { r with world := r.world.setStream index .null }
        pure (some bytes)
    return ended :: (← runStages course output rest)

def awaitAll : List Int32 → Step Nat
  | [] => return 0
  | [ended] => ShellRun.await ended
  | ended :: rest => do
    let _ ← ShellRun.await ended
    awaitAll rest

def runBackground (body : Script) : Step Unit := do
  let slot ← ShellRun.takeSlot
  let stages := match body with
    | .pipeline stages => stages.length
    | _ => 1
  let r ← get
  let (empty, world) := r.world.addStream .null
  set { r with world }
  let change (p : Process) : Process :=
    { ShellRun.setDescriptor p 0 (some empty) with ignored := 2 :: 3 :: p.ignored }
  let (number, ended) ← d.apart change (d.evaluate { final := true } body)
  modify fun r => { r with
    jobs := { slot, number, stages, ended } :: r.jobs, lastJob := some number, status := 0 }

def runSubshell (course : Course) (line : Nat) (body : Script)
    (redirections : List Redirection) : Step Unit := do
  modify fun r => { r with line }
  let targets ← Redirected.ofRedirections d redirections
  let run : Step Unit := do
    Redirected.apply d targets
    d.evaluate { course with final := true } body
  if course.final && !Runner.hasTraps (← get) then
    run
    throw .exit
  else
    let _ ← ShellRun.takeSlot
    let (_, ended) ← d.apart id run
    ShellRun.setStatus (← ShellRun.await ended)

def runRedirected (course : Course) (line : Nat) (body : Script)
    (redirections : List Redirection) : Step Unit := do
  modify fun r => { r with line }
  let targets ← Redirected.ofRedirections d redirections
  Step.restoring ShellRun.restoreDescriptors do
    if ← Step.succeeds (Redirected.apply d targets) then
      d.evaluate course.onlyTested body

def commandsOf : Script → List Script → List Script
  | .sequence first second, rest => commandsOf first (second :: rest)
  | script, rest => script :: rest

def runSequence (course : Course) : List Script → Step Unit
  | [] => return
  | [last] => d.evaluate course last
  | script :: rest => do
    d.evaluate course.onlyTested script
    if (← get).skip = .nothing then
      runSequence course rest

def runNode (course : Course) (script : Script) : Step Unit := do
  match script with
  | .nothing => return
  | .command line assignments words redirections =>
    runCommand d course line assignments words redirections
  | .pipeline stages =>
    let _ ← ShellRun.takeSlot
    ShellRun.setStatus (← awaitAll (← runStages d { course with final := true } none stages))
  | .background line body =>
    modify fun r => { r with line }
    runBackground d body
  | .subshell line body redirections => runSubshell d course line body redirections
  | .redirected line body redirections => runRedirected d course line body redirections
  | .sequence first second => runSequence d course (commandsOf first [second])
  | .both first second =>
    d.evaluate { tested := true } first
    let r ← get
    if r.status = 0 && r.skip = .nothing then
      d.evaluate course second
  | .either first second =>
    d.evaluate { tested := true } first
    let r ← get
    if r.status ≠ 0 && r.skip = .nothing then
      d.evaluate course second
  | .negated body =>
    d.evaluate { tested := true } body
    modify fun r => { r with status := if r.status = 0 then 1 else 0 }
  | .choice test yes no =>
    d.evaluate { tested := true } test
    let r ← get
    if r.skip = .nothing then
      if r.status = 0 then d.evaluate course yes
      else if no matches .nothing then ShellRun.setStatus 0
      else d.evaluate course no
  | .loop succeeds test body => runLoop d course succeeds test body
  | .each line name words body =>
    modify fun r => { r with line }
    let texts ← Expansion.fieldsOf d.substitute words
    ShellRun.setStatus 0
    inLoop (runEach d course name body texts)
  | .select line subject arms =>
    modify fun r => { r with line }
    let text ← Expansion.text d.substitute { tilde := .front } subject
    match ← selectArm d text.toList arms with
    | .nothing => ShellRun.setStatus 0
    | body => d.evaluate course body
  | .function name body =>
    modify fun r => { r with
      functions := { name, body } :: r.functions.filter (·.name != name)
      tracked := r.tracked.filter (·.name != name)
      status := 0 }

def isCounted : Script → Bool
  | .command .. | .pipeline _ | .background .. | .subshell .. => true
  | _ => false

def evaluate (course : Course) (script : Script) : Step Unit := do
  if (← get).isSet 'n' then
    return
  if !script matches .nothing then
    d.notice
    runNode d course script
  d.notice
  let r ← get
  if r.isSet 'e' && isCounted script && !course.tested && r.status ≠ 0 then
    throw .exit

end Evaluation

end SessionShell.Programs
