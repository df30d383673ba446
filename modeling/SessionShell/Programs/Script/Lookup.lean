import SessionShell.Programs.Script.Children

/-! The programs that the names of commands stand for. -/

namespace SessionShell.Programs.Lookup

def failure (e : IoError) : Raw × Nat :=
  match e with
  | .noEntry | .notDirectory => ("not found", 127)
  | .linkLoop | .nameTooLong => (e.reason.1, 127)
  | e => (e.reason.1, 126)

/-- The number of the first of some paths that leads to a program, or the reason why none does. Where
the program was `before` is known: what begins with a slash is not looked at again. -/
def firstProgram (r : ShellRun) (before : Option Nat) :
    IoError → List (Raw × Nat) → Except IoError Nat
  | reason, [] => .error reason
  | reason, (path, n) :: rest =>
    if path.startsWith "/" && before = some n then .ok n
    else if path.startsWith "/" && before.any (n < ·) then firstProgram r before reason rest
    else match r.world.files.find r.process.directory (Raw.text path) with
      | .ok (.file _ true) | .ok (.installed _) => .ok n
      | .ok _ => firstProgram r before .permission rest
      | .error .noEntry | .error .notDirectory => firstProgram r before reason rest
      | .error e => firstProgram r before e rest

def candidates (r : ShellRun) (name : Raw) : List Raw :=
  Loaded.candidates (r.valueOf "PATH") name

def search (r : ShellRun) (before : Option Nat) (paths : List Raw) : Except IoError Nat :=
  firstProgram r before .noEntry paths.zipIdx

def tracked? (r : ShellRun) (name : Raw) : Option Tracked :=
  r.tracked.find? (·.name == name)

def place (t : Tracked) (tracked : List Tracked) : List Tracked :=
  if tracked.any (·.name == t.name) then
    tracked.map fun old => if old.name == t.name then t else old
  else tracked ++ [t]

/-- The number of the directory on the search path that has a program. It is remembered. -/
def track (name : Raw) : Step (Except IoError Nat) := do
  let r ← get
  let known := tracked? r name
  match known.filter (!·.isStale) with
  | some t => return .ok t.index
  | none =>
    match search r (known.map (·.index)) (candidates r name) with
    | .ok index =>
      set { r with tracked := place { name, index } r.tracked }
      return .ok index
    | .error e =>
      set { r with tracked := r.tracked.filter (·.name != name) }
      return .error e

/-- The paths at which the program of a name can be. A name with a slash is a path. With a search
path of its own nothing is remembered. -/
def paths (searchPath : Option Raw) (name : Raw) : Step (Except IoError (List Raw)) := do
  if name.toList.contains '/' then
    return .ok [name]
  else match searchPath with
    | some searchPath =>
      let paths := Loaded.candidates searchPath name
      return (search (← get) none paths).map paths.drop
    | none => return (← track name).map (candidates (← get) name).drop

def standardPath : Raw :=
  "/usr/sbin:/usr/bin:/sbin:/bin"

def leaveDirectory (r : ShellRun) : ShellRun :=
  { r with tracked := r.tracked.map fun t => { t with isStale := true } }

def groupOf (name : Raw) : Nat :=
  let codes := name.toList.map Char.toNat
  ((codes.headD 0 * 16 + codes.foldl (· + ·) 0) % 32768) % 31

def load (r : ShellRun) (process : Process) : IoError → List Raw → Except IoError Loaded
  | reason, [] => .error reason
  | reason, path :: rest =>
    match Loaded.loadAs r.world.files true process path with
    | .ok loaded => .ok loaded
    | .error .noEntry | .error .notDirectory => load r process reason rest
    | .error e => load r process e rest

end SessionShell.Programs.Lookup
