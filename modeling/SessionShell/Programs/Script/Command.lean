import SessionShell.Programs.Script.Commands.Control
import SessionShell.Programs.Script.Commands.Jobs
import SessionShell.Programs.Script.Commands.Meaning
import SessionShell.Programs.Script.Commands.Naming
import SessionShell.Programs.Script.Commands.Output

/-! The shell's own commands by name. -/

namespace SessionShell.Programs

namespace Commands

abbrev Action := List Raw → Step Nat

def always (status : Nat) : Action :=
  fun _ => return status

def saying (text : Raw) : Action := fun _ => do
  ShellRun.put text
  return 0

def times : Raw :=
  "0m0.000000s 0m0.000000s\n0m0.000000s 0m0.000000s\n"

def plain : List (String × Action) :=
  [(":", always 0), ("[", testing true), ("alias", aliasing), ("bg", resuming), ("cd", moving),
    ("chdir", moving), ("echo", echoing), ("export", exporting), ("false", always 1),
    ("fg", resuming), ("getopts", takingOption), ("jobs", listingJobs),
    ("local", localizing), ("printf", formatting), ("pwd", showingPlace), ("read", reading),
    ("readonly", protecting), ("set", setting), ("shift", shifting), ("test", testing false),
    ("times", saying times), ("true", always 0), ("ulimit", saying "unlimited\n"),
    ("umask", masking),
    ("unalias", unaliasing), ("unset", unsetting)]

def leading (d : Runner) (course : Course) : List (String × Action) :=
  [(".", including d), ("break", leaving .leaveLoops), ("continue", leaving .nextRound),
    ("eval", evaluating d course), ("exec", replacing d), ("exit", exiting),
    ("kill", killing d), ("return", returning), ("trap", trapping), ("wait", awaiting)]

def idle : Runner :=
  { evaluate := fun _ _ => pure (), start := fun _ _ w => (0, w) }

def names : List String :=
  ["command", "hash", "type"] ++ plain.map (·.1) ++ (leading idle {}).map (·.1)

def find? (d : Runner) (course : Course) (name : Raw) : Option Action :=
  match name with
  | "command" => some (asking names)
  | "hash" => some (tracking names)
  | "type" => some (describing names)
  | name => (plain.lookup name).or ((leading d course).lookup name)

def assigning : List String :=
  ["alias", "export", "local", "readonly"]

end Commands

end SessionShell.Programs
