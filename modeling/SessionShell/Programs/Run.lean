import SessionShell.Programs.Script.Start
import SessionShell.Programs.Tools.Cat
import SessionShell.Programs.Tools.Env
import SessionShell.Programs.Tools.Printf
import SessionShell.Programs.Tools.Sort
import SessionShell.Programs.Tools.Tr
import SessionShell.Programs.Tools.Wc

/-! Runs of the installed programs. -/

namespace SessionShell.Programs

def tools : List (String × UInt8 × Work Ending) :=
  [("cat", 1, Cat.work), ("env", 125, Env.work), ("false", 1, return .code 1),
    ("printf", 1, Printf.work), ("sort", 2, Sort.work), ("tr", 1, Tr.work),
    ("true", 1, return .code 0), ("wc", 1, Wc.work)]

/-- Runs a small program. Another one may take its place. -/
def runTool (d : Runner) (failure : UInt8) (work : Work Ending) (process : Process)
    (world : World) : Int32 × World :=
  match Work.run work failure process world with
  | (.code c, world) => (ShellRun.exited c.toNat, world)
  | (.become program next, world) =>
    match Loaded.search world.files true program next with
    | .ok loaded => d.start loaded next world
    | .error e =>
      let complain := Work.complain (quoteName true program ++ ": " ++ e.reason.1)
      let (_, b) := Id.run (StateT.run complain ({ process, world } : Bench))
      (ShellRun.exited (if e = .noEntry then 127 else 126), b.world)

def start (d : Runner) (loaded : Loaded) (process : Process) (world : World) : Int32 × World :=
  let process := { process with name := loaded.name, arguments := loaded.arguments }
  match tools.lookup loaded.program with
  | some (failure, work) => runTool d failure work process world
  | none => Start.shell d process world

/-- The runner for what lies at most so many levels deep. What lies deeper has no room, and is
killed. -/
def runner : Nat → Runner
  | 0 =>
    { evaluate := fun _ _ => throw (.killed 11), start := fun _ _ world => (11, world) }
  | depth + 1 =>
    let d := runner depth
    { evaluate := Evaluation.evaluate d, start := start d }

def depthLimit : Nat := 12000

def outermost : Runner := runner depthLimit

def entriesOf (environment : Scope String) : List Raw :=
  environment.toList.map fun (name, value) => Raw.ofText (name ++ "=" ++ value)

/-- Starts a program on the machine. With an environment of its own, a program that has to be searched
for may be a file of no known format, which the shell then runs. -/
def launcher : Launcher := fun launch machine =>
  let name := Raw.ofText launch.program
  let arguments := launch.arguments.map Raw.ofText
  let environment := entriesOf (launch.environment.getD machine.environment)
  if (name :: arguments ++ environment).any (·.toList.any (·.toNat = 0)) then
    (.error .zeroInArgument, machine)
  else
    let input := launch.input.getD machine.input.pending
    let process : Process :=
      { name, arguments, environment
        directory := machine.directory
        descriptors := [(0, 0), (1, 1), (2, 2)]
        number := 2
        parent := 1 }
    let world : World :=
      { files := machine.files, streams := #[.source input, .sink [], .sink []], processes := 2 }
    let asScript := launch.environment.isSome && !name.toList.contains '/'
    match Loaded.search world.files asScript name process with
    | .error e => (.error e, machine)
    | .ok loaded =>
      let (ended, world) := outermost.start loaded process world
      let input := if launch.input.isSome then machine.input
        else { machine.input with pending := world.unread 0 }
      (.ok ⟨ended, world.written 1, world.written 2⟩, { machine with files := world.files, input })

end SessionShell.Programs
