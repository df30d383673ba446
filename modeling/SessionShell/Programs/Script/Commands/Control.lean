import SessionShell.Programs.Script.Commands.Arguments
import SessionShell.Programs.Script.Lookup

/-! The shell's own commands that say what is run next: loops and functions are left, scripts and
programs started, traps set. -/

namespace SessionShell.Programs.Commands

def leaving (skip : Nat → Skip) (args : List Raw) : Step Nat := do
  let n ← match args with
    | [] => pure 1
    | text :: _ =>
      let n ← count text
      if n = 0 then illegalNumber text else pure n
  modify fun r =>
    let n := min n r.loops
    if n = 0 then r else { r with skip := skip n }
  return 0

def returning (args : List Raw) : Step Nat := do
  let status ← match args with
    | [] => pure (← get).status
    | text :: _ => pure (← count text)
  modify fun r => { r with skip := .leaveFunction }
  return status

def exiting (args : List Raw) : Step Nat := do
  let status ← match args with
    | [] => do
      let r ← get
      pure (r.saved.getD r.status)
    | text :: _ => pure (← count text)
  ShellRun.setStatus status
  throw .exit

def evaluating (d : Runner) (course : Course) (args : List Raw) : Step Nat := do
  if args.isEmpty then
    return 0
  d.evaluateText course.onlyTested (" ".intercalate args)
  return (← get).status

/-- The script of a name for `.`: a path if it has a slash, else the first file of that name on the
search path. -/
def script (name : Raw) : Step Raw := do
  let r ← get
  let isFile (path : Raw) : Bool :=
    match r.world.files.find r.process.directory (Raw.text path) with
    | .ok (.file _ _) | .ok (.installed _) => true
    | _ => false
  if name.toList.contains '/' then
    return name
  else match (Lookup.candidates r name).find? isFile with
    | some path => return path
    | none => ShellRun.fail (name ++ ": not found")

def including (d : Runner) (args : List Raw) : Step Nat := do
  let (_, args) ← options "" args
  match args with
  | [] => return 0
  | name :: _ =>
    let path ← script name
    let r ← get
    match r.world.openFile r.process path .read with
    | (.error e, _) =>
      ShellRun.fail ("cannot open " ++ path ++ ": " ++
        (if e = .noEntry || e = .notDirectory then "No such file" else e.reason.1))
    | (.ok index, world) =>
      set { r with speaker := some path, world }
      d.evaluateStream {} index
      modify fun r => { r with
        speaker := r.speaker
        skip := if r.skip = .leaveFunction then .nothing else r.skip }
      return (← get).status

def replacing (d : Runner) (args : List Raw) : Step Nat := do
  match args with
  | [] => return 0
  | name :: arguments =>
    let r ← get
    let process := Runner.processFor r name arguments
    let paths := if name.toList.contains '/' then [name] else Lookup.candidates r name
    match Lookup.load r process .noEntry paths with
    | .ok loaded => d.become loaded process
    | .error e =>
      let (reason, code) := Lookup.failure e
      ShellRun.warn (name ++ ": " ++ reason)
      ShellRun.setStatus code
      throw .exit

def trapping (args : List Raw) : Step Nat := do
  let (_, args) ← options "" args
  match args with
  | [] =>
    let traps := (← get).traps.mergeSort fun a b => a.1 ≤ b.1
    for (signal, action) in traps do
      ShellRun.put ("trap -- " ++ quoted action ++ " " ++ (Signal.name? signal).getD "" ++ "\n")
    return 0
  | first :: rest =>
    let (action, signals) :=
      if rest.isEmpty || ((Numeral.readNat first).bind fun _ => Signal.number? 0 first).isSome then
        (none, args)
      else (some first, rest)
    setAll (if action = some "-" then none else action) signals
where
  setAll (action : Option Raw) : List Raw → Step Nat
    | [] => return 0
    | text :: rest => do
      match Signal.number? 0 text with
      | none =>
        let _ ← ShellRun.write 2 ("trap: " ++ text ++ ": bad trap\n")
        return 1
      | some signal =>
        modify fun r =>
          let others := r.process.ignored.filter (· != signal)
          let ignored := if action = some "" then signal :: others else others
          { r with
            traps := (action.map (signal, ·)).toList ++ r.traps.filter (·.1 != signal)
            process := { r.process with ignored } }
        setAll action rest

end SessionShell.Programs.Commands
