import SessionShell.Programs.Format
import SessionShell.Programs.Script.Commands.Arguments
import SessionShell.Programs.Script.Lookup

/-! The shell's own commands that write texts, or deal with the working directory. -/

namespace SessionShell.Programs.Commands

def echoing (args : List Raw) : Step Nat := do
  let (newline, words) := match args with
    | "-n" :: rest => (false, rest)
    | words => (true, words)
  let text := " ".toList.intercalate (words.map String.toList)
  let (text, early) := Escape.replaceAll .shell text.length text
  ShellRun.put (String.ofList (if early.isNone && newline then text ++ ['\n'] else text))
  return 0

def formatting (args : List Raw) : Step Nat := do
  let (_, args) ← options "" args
  match args with
  | [] => ShellRun.fail "usage: printf format [arg ...]"
  | text :: arguments =>
    let written := format .shell text arguments
    for warning in written.warnings.reverse do
      ShellRun.warn warning
    ShellRun.put written.output
    match written.early with
    | some (.refused message) => ShellRun.fail message
    | _ => return if written.warnings.isEmpty then 0 else 1

def testing (bracket : Bool) (args : List Raw) : Step Nat := do
  let words ← if bracket then
      if args.getLast? = some "]" then pure args.dropLast else ShellRun.fail "missing ]"
    else pure args
  return if ← Condition.decideWhole words then 0 else 1

def resolved (directory path : Raw) : Raw :=
  let steps := (Path.segments (Path.join directory path)).filter fun s => s ≠ "" && s ≠ "."
  let names := steps.foldl (fun names step => if step = ".." then names.drop 1 else step :: names) []
  "/" ++ "/".intercalate names.reverse

/-- Goes to a directory, and remembers the one before. Tells whether that went well. -/
def goTo (physical : Bool) (path : Raw) : Step Bool := do
  let r ← get
  let target := if physical then path else resolved r.path path
  match r.world.files.place r.process.directory (Raw.text target) .find with
  | .error _ => return false
  | .ok place =>
    if r.world.files.entry? place ≠ some .directory then
      return false
    let shown := if physical then "/" ++ "/".intercalate (place.map Raw.ofText) else target
    set { Lookup.leaveDirectory r with
      process := { r.process with directory := place }, path := shown }
    ShellRun.setVariable "OLDPWD" r.path true
    ShellRun.setVariable "PWD" shown true
    return true

def moving (args : List Raw) : Step Nat := do
  let (chosen, args) ← options "LP" args
  let r ← get
  let back := args.head? = some "-"
  let target := match args with
    | [] => r.valueOf "HOME"
    | text :: _ => if back then r.valueOf "OLDPWD" else text
  let isPlain := target.startsWith "/" || target = "." || target = ".." ||
    target.startsWith "./" || target.startsWith "../"
  let name := if target = "" then "." else target
  let found := if isPlain then none else
    ((r.valueOf "CDPATH").toList.splitOn ':').findSome? fun front =>
      let path := Path.join (String.ofList front) name
      if r.world.files.isDirectory r.process.directory (Raw.text path) then
        some (path, !front.isEmpty)
      else none
  let (path, shows) := found.getD (name, false)
  if !(← goTo ((chosen.getLast?.map (·.1)) = some 'P') path) then
    ShellRun.fail ("can't cd to " ++ target)
  if shows || back then
    ShellRun.put ((← get).path ++ "\n")
  return 0

def showingPlace (args : List Raw) : Step Nat := do
  let (chosen, _) ← options "LP" args
  let r ← get
  ShellRun.put (if (chosen.getLast?.map (·.1)) = some 'P' then
      "/" ++ "/".intercalate (r.process.directory.map Raw.ofText) ++ "\n"
    else r.path ++ "\n")
  return 0

def permissions (mask : Nat) : Raw :=
  String.ofList (([('r', 4), ('w', 2), ('x', 1)].filter fun (_, bit) => mask &&& bit = 0).map (·.1))

def modeBits (modes : Nat) : Char → Nat
  | 'r' => 4
  | 'w' => 2
  | 'x' => 1
  | 'u' => modes / 64
  | 'g' => modes / 8
  | 'o' => modes
  | 'X' => if modes &&& 73 = 0 then 0 else 1
  | _ => 0

/-- The classes of users that letters stand for: the lowest bit of each class. Without letters all are
meant. -/
def modeClasses (letters : List Char) (otherwise : Nat) : Nat :=
  let bit : Char → Nat
    | 'u' => 64
    | 'g' => 8
    | 'o' => 1
    | _ => 73
  let classes := letters.foldl (fun classes c => classes ||| bit c) otherwise
  if classes = 0 then 73 else classes

/-- Permissions after changes such as `u=rw,g-w`, which begin with those `before`; `none` if that is no
such text. Classes hold up to a comma. The bound is greater than the length of the text. -/
def changeModes (before : Nat) : Nat → (classes modes : Nat) → List Char → Option Nat
  | 0, _, modes, _ | _, _, modes, [] => some modes
  | bound + 1, classes, modes, cs =>
    let letters := cs.takeWhile "augo".toList.contains
    let classes := modeClasses letters classes
    match cs.drop letters.length with
    | [] => some modes
    | sign :: rest =>
      if !"=+-".toList.contains sign then none
      else
        let named := rest.takeWhile "rwxugoXs".toList.contains
        let bits := (named.foldl (fun bits c => bits ||| modeBits before c) 0) % 8 * classes
        let modes := match sign with
          | '-' => modes &&& (511 - bits)
          | '=' => bits ||| (modes &&& (511 - classes * 7))
          | _ => modes ||| bits
        match rest.drop named.length with
        | ',' :: rest => changeModes before bound 0 modes rest
        | rest => changeModes before bound classes modes rest

example : ["u=rw+x", "g=u", "u=,g=u", "a-x", "+w,o=", "x", "u,"].map (fun s =>
    changeModes 0o750 10 0 0o750 s.toList) =
      [some 0o750, some 0o770, some 0o070, some 0o640, some 0o770, none, none] := by
  decide +kernel

def masking (args : List Raw) : Step Nat := do
  let (chosen, args) ← options "S" args
  let mask := (← get).process.mask
  let set (mask : Nat) : Step Nat := do
    modify fun r => { r with process := { r.process with mask } }
    return 0
  match args with
  | [] =>
    ShellRun.put (if chosen.isEmpty then String.ofList ('0' :: octal3 mask ++ ['\n'])
      else "u=" ++ permissions (mask / 64) ++ ",g=" ++ permissions (mask / 8) ++ ",o=" ++
        permissions mask ++ "\n")
    return 0
  | text :: _ =>
    let cs := text.toList
    if cs.head?.any Char.isDigit then
      if cs.all isOctalDigit then set (digitsValue 8 cs % 512) else illegalNumber text
    else match changeModes (511 - mask) (cs.length + 1) 0 (511 - mask) cs with
      | some modes => set (511 - modes)
      | none => ShellRun.fail ("Illegal mode: " ++ text)

end SessionShell.Programs.Commands
