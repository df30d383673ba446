import SessionShell.Programs.Script.Commands.Arguments
import SessionShell.Programs.Script.Children

/-! The shell's own commands that deal with jobs and processes: they are listed and awaited, and get
signals. A job in the background has always ended by the time that the shell looks at it. -/

namespace SessionShell.Programs.Commands

def noJob {α : Type} (reason : Raw) (name : Option Raw) : Step α :=
  ShellRun.fail (reason ++ name.getD "")

/-- The job of a name: a percent sign and the number of a slot, or a sign for the newest job or the one
before it. The commands of jobs are not kept, so that only the empty text is found in them.
`controlled` asks for a job that can be stopped, and there is none. -/
def job (controlled : Bool) (name : Option Raw) : Step Job := do
  let jobs := (← get).jobs
  let found (j : Option Job) (reason : Raw) (shown : Option Raw) : Step Job := do
    match j with
    | none => noJob reason shown
    | some j =>
      if controlled then
        ShellRun.fail ("job " ++ name.getD "(null)" ++ " not created under job control")
      else return j
  let unknown : Step Job := noJob "No such job: " name
  match name.map String.toList with
  | none | some ['%'] | some ['%', '+'] | some ['%', '%'] =>
    found jobs.head? "No current job" none
  | some ['%', '-'] => found jobs[1]? "No previous job" none
  | some ['%', '?'] =>
    match jobs with
    | _ :: _ :: _ => ShellRun.fail (name.getD "" ++ ": ambiguous")
    | jobs => found jobs.head? "No such job: " name
  | some ('%' :: cs) =>
    match Numeral.readNat (String.ofList cs) with
    | some slot => found (jobs.find? (·.slot == slot)) "No such job: " name
    | none => unknown
  | some _ => unknown

inductive Shown
  | nothing
  | process
  | group
  deriving DecidableEq

def outcome (ended : Int32) : Raw :=
  let signal := (ended.toUInt32 &&& 0x7F).toNat
  let code := ShellRun.codeOf ended
  if signal ≠ 0 then Signal.description signal
  else if code = 0 then "Done"
  else "Done(" ++ Text.decimal code ++ ")"

def showJob (shown : Shown) (j : Job) : Step Unit := do
  let number := Text.decimal j.number
  if shown = .group then ShellRun.put (number ++ "\n")
  else
    let r ← get
    let sign := if (r.jobs.head?.map (·.slot)) = some j.slot then "+"
      else if (r.jobs[1]?.map (·.slot)) = some j.slot then "-"
      else " "
    let front := "[" ++ Text.decimal j.slot ++ "] " ++ sign ++ " " ++
      (if shown = .process then number ++ " " else "") ++ outcome j.ended
    ShellRun.put (String.ofList (front.toList ++ List.replicate (max 1 (33 - front.length)) ' ') ++
      String.join (List.replicate (j.stages - 1) " | ") ++ "\n")
    modify fun r => { r with jobs := r.jobs.filter (·.slot != j.slot) }

def listingJobs (args : List Raw) : Step Nat := do
  let (chosen, names) ← options "lp" args
  let shown : Shown := if chosen.any (·.1 == 'p') then .group
    else if chosen.isEmpty then .nothing
    else .process
  if names.isEmpty then
    for j in (← get).jobs do
      showJob shown j
  else
    for name in names do
      showJob shown (← job false (some name))
  return 0

def resuming (args : List Raw) : Step Nat := do
  let (_, names) ← options "" args
  let _ ← job true names.head?
  return 0

def awaiting (args : List Raw) : Step Nat := do
  let (_, names) ← options "" args
  let settle (chosen : Job → Bool) : Step Unit :=
    modify fun r => { r with
      jobs := r.jobs.map fun j => { j with isAwaited := j.isAwaited || chosen j } }
  if names.isEmpty then
    if (← get).jobs.any (!·.isNoticed) then
      modify ShellRun.childEnded
    settle fun _ => true
    return 0
  else
    names.foldlM (fun status name => do
      let found ← if name.startsWith "%" then do
          pure (some (← job false (some name)))
        else do
          let n ← count name
          pure ((← get).jobs.find? (·.number == n))
      match found with
      | none => return status
      | some j =>
        settle fun other => other.slot == j.slot
        if j.isNoticed then return ShellRun.codeOf j.ended else ShellRun.await j.ended) 127

def killUsage : Raw :=
  "Usage: kill [-s sigspec | -signum | -sigspec] [pid | job]... or\nkill -l [exitstatus]"

def send (d : Runner) (signal : Nat) : List Raw → Nat → Step Nat
  | [], status => return status
  | text :: rest, status => do
    let group := text.startsWith "-" || text.startsWith "%"
    let n ← if text.startsWith "%" then do
        pure (← job false (some text)).number
      else count (if group then String.ofList (text.toList.drop 1) else text)
    let r ← get
    if group then
      ShellRun.warn "No such process\n"
      send d signal rest 1
    else if n = r.process.number then
      set { r with world := { r.world with signals := (n, signal) :: r.world.signals } }
      if (r.traps.lookup signal).isNone || signal = 9 then
        d.notice
      send d signal rest status
    else if n = r.number || n = r.process.parent then
      set { r with world := { r.world with signals := (n, signal) :: r.world.signals } }
      send d signal rest status
    else if r.jobs.any fun j => j.number == n && !j.isNoticed then send d signal rest status
    else
      ShellRun.warn "No such process\n"
      send d signal rest 1

def killing (d : Runner) (args : List Raw) : Step Nat := do
  let invalid {α : Type} (text : Raw) : Step α :=
    ShellRun.fail ("invalid signal number or name: " ++ text)
  match args with
  | [] => ShellRun.fail killUsage
  | first :: rest =>
    let direct := if first.startsWith "-" then
      Signal.number? 1 (String.ofList (first.toList.drop 1)) else none
    match direct with
    | some signal =>
      if rest.isEmpty then ShellRun.fail killUsage
      else sendOrTest signal rest
    | none =>
      let (chosen, rest) ← options "ls:" args
      if chosen.any (·.1 == 'l') then
        match rest with
        | [] =>
          ShellRun.put "0\n"
          for n in List.range (Signal.count - 1) do
            ShellRun.put ((Signal.name? (n + 1)).getD "" ++ "\n")
          return 0
        | text :: _ =>
          let n ← count text
          let n := if 128 < n then n - 128 else n
          match if n = 0 then none else Signal.name? n with
          | some name =>
            ShellRun.put (name ++ "\n")
            return 0
          | none => ShellRun.fail ("invalid signal number or exit status: " ++ text)
      else
        let signal ← match chosen.getLast? with
          | some (_, text) => match Signal.number? 1 text with
            | some signal => pure signal
            | none => invalid text
          | none => pure 15
        if rest.isEmpty then ShellRun.fail killUsage
        else sendOrTest signal rest
where
  sendOrTest (signal : Nat) (targets : List Raw) : Step Nat := do
    if signal ≠ 0 then send d signal targets 0
    else
      let r ← get
      let known ← targets.mapM count
      if known.all ([r.process.number, r.number, r.process.parent].contains ·) then
        return 0
      else
        ShellRun.warn "No such process\n"
        return 1

end SessionShell.Programs.Commands
