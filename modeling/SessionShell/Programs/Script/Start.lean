import SessionShell.Programs.Script.Evaluate

/-! The start of a shell: its arguments, its first variables, and where its script comes from. -/

namespace SessionShell.Programs

namespace Start

variable (d : Runner)

def defaultPath : Raw :=
  "/usr/local/sbin:/usr/local/bin:/usr/sbin:/usr/bin:/sbin:/bin"

def directoryText (world : World) (p : Process) : Raw :=
  let physical := "/" ++ "/".intercalate (p.directory.map Raw.ofText)
  match p.value? "PWD" with
  | some text =>
    if text.startsWith "/" &&
        (world.files.place p.directory (Raw.text text) .find).toOption = some p.directory then
      text
    else physical
  | none => physical

def variablesOf (p : Process) (path : Raw) : List Variable :=
  let inherited := p.environment.filterMap fun entry =>
    let (name, value) := Commands.splitAssignment entry
    if isName name && value.isSome then some { name, value, exported := true : Variable } else none
  let fixed (name : String) (value : Raw) : Variable := { name, value := some value }
  let own := [fixed "PS1" "# ", fixed "PS2" "> ", fixed "PS4" "+ ", fixed "PATH" defaultPath]
  let own := own.filter fun v => !inherited.any (·.name == v.name)
  [{ fixed "PWD" path with exported := true }, fixed "IFS" " \t\n", fixed "OPTIND" "1",
    fixed "PPID" (Text.decimal p.parent)].foldl (fun bindings v => ShellRun.place v bindings)
    (own ++ inherited)

def fresh (process : Process) (world : World) : ShellRun :=
  let path := directoryText world process
  { process, world, number := process.number, name := process.name, path
    bindings := variablesOf process path }

def patience : Nat := 50

/-- Runs a step. In a shell that talks to a user an error does not end the shell. -/
def guarded {α : Type} (interactive : Bool) (step : Step α) : Step (Option α) :=
  if interactive then step.attempt else some <$> step

def ask (name : String) (count : Nat) : Step Unit := do
  for _ in List.range count do
    let _ ← ShellRun.write 2 (← Evaluation.prompt d name)

/-- Runs the script of the shell from its source. What an error leaves of a part that was taken is not
run. -/
def evaluateAll (source : Source) : Step Unit := do
  let fresh : Reading := { Reading.ofText "" with isShown := true }
  let _ ← Step.whileTrue (fresh, 0) fun (reading, ends) => do
    let interactive := (← get).isSet 'i'
    if interactive then
      ask d "PS1" 1
    let askMore (line : Nat) : Step Unit := do
      if interactive then
        ask d "PS2" (line - reading.line)
    match ← guarded interactive (Runner.nextLine source reading) with
    | none =>
      let line := (← get).line
      askMore line
      return (true, { fresh with line }, 0)
    | some (none, after) =>
      if (← get).isSet 'I' && ends < patience then
        let _ ← ShellRun.write 2 "\nUse \"exit\" to leave shell.\n"
        return (true, after, ends + 1)
      else
        if interactive && !(← get).isSet 'I' then
          let _ ← ShellRun.write 2 "\n"
        return (false, after, ends)
    | some (some script, after) =>
      askMore (if after.isAtEnd then after.line else after.line - 1)
      let done ← guarded interactive (d.evaluate {} script)
      let reading := if done.isSome then after else { fresh with line := after.line }
      return ((← get).skip = .nothing, reading, 0)

def evaluateFile (path : Raw) : Step Unit := do
  let r ← get
  match r.world.openFile r.process path .read with
  | (.error e, _) =>
    ShellRun.fail ("cannot open " ++ path ++ ": " ++ Redirected.reasonOf "No such file" e)
  | (.ok index, world) =>
    set { r with name := path, world }
    Settings.settle
    evaluateAll d (.stream index)

def run : Step Unit := do
  let arguments := (← get).process.arguments
  modify fun r => { r with undecided := Settings.table.map (·.2) }
  let asked ← Settings.read true (arguments.length + 1) arguments false
  Settings.decide
  if asked.script && asked.rest.isEmpty then
    ShellRun.fail "-c requires an argument"
  match asked.script, asked.rest with
  | true, text :: rest =>
    modify fun r => { r with name := rest.headD r.name, parameters := rest.drop 1 }
    Settings.settle
    let final := !(← get).isSet 's'
    let interactive := (← get).isSet 'i'
    let done ← guarded interactive (d.evaluateText { final } text)
    if done.isNone || (← get).isSet 's' then
      evaluateAll d .input
  | _, path :: rest =>
    if (← get).isSet 's' then
      modify fun r => { r with parameters := path :: rest }
      Settings.settle
      evaluateAll d .input
    else
      modify fun r => { r with parameters := rest }
      evaluateFile d path
  | _, [] =>
    Settings.switch 's' true
    Settings.settle
    evaluateAll d .input

def shell (process : Process) (world : World) : Int32 × World :=
  let (result, r) := (run d).runOn (fresh process world)
  let (ended, r) := (d.finish result).runOn r
  (ended.toOption.getD 0, r.world)

end Start

end SessionShell.Programs
