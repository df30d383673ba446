import SessionShell.Programs.Script.Commands.Arguments
import SessionShell.Programs.Script.Glyph
import SessionShell.Programs.Script.Settings

/-! The shell's own commands that deal with variables and parameters. -/

namespace SessionShell.Programs.Commands

def showVariables (front : Raw) (wanted : Variable → Bool) : Step Unit := do
  let shown := (← get).bindings.filter wanted
  for v in shown.mergeSort fun a b => a.name ≤ b.name do
    ShellRun.put (front ++ v.name ++ (v.value.elim "" fun value => "=" ++ quoted value) ++ "\n")

def marking (front : Raw) (wanted : Variable → Bool) (change : Variable → Variable)
    (args : List Raw) : Step Nat := do
  let (chosen, names) ← options "p" args
  if names.isEmpty || !chosen.isEmpty then
    showVariables front wanted
  else
    for text in names do
      let (name, value) := splitAssignment text
      checkName name name
      if let some value := value then
        ShellRun.setVariable name value false
      ShellRun.mark name change
  return 0

def exporting : List Raw → Step Nat :=
  marking "export " (·.exported) fun v => { v with exported := true }

def protecting : List Raw → Step Nat :=
  marking "readonly " (·.readOnly) fun v => { v with readOnly := true }

def localizing (args : List Raw) : Step Nat := do
  if (← get).calls = 0 then
    ShellRun.fail "not in a function"
  for text in args do
    let (name, value) := splitAssignment text
    if text = "-" then
      modify ShellRun.saveSettings
    else
      checkName name name
      ShellRun.saveLocal name
      if let some value := value then
        ShellRun.setVariable name value false
  return 0

def unsetting (args : List Raw) : Step Nat := do
  let (chosen, names) ← options "vf" args
  for name in names do
    if (chosen.getLast?.map (·.1)) = some 'f' then
      modify fun r => { r with functions := r.functions.filter (·.name != name) }
    else
      checkName name name
      ShellRun.unsetVariable name
  return 0

def setting (args : List Raw) : Step Nat := do
  if args.isEmpty then
    showVariables "" fun v => v.value.isSome
  else
    let asked ← Settings.read false (args.length + 1) args false
    Settings.settle
    if asked.marked || !asked.rest.isEmpty then
      modify fun r => { r with parameters := asked.rest, optionScan := {} }
  return 0

def shifting (args : List Raw) : Step Nat := do
  let n ← match args with
    | [] => pure 1
    | text :: _ => count text
  let r ← get
  if r.parameters.length < n then
    ShellRun.fail "can't shift that many"
  set { r with parameters := r.parameters.drop n, optionScan := {} }
  return 0

def optionKind? (letter : Char) : List Char → Option Bool
  | [] => none
  | c :: ':' :: rest => if c = letter then some true else optionKind? letter rest
  | c :: rest => if c = letter then some false else optionKind? letter rest

def takingOption (args : List Raw) : Step Nat := do
  match args with
  | known :: name :: given =>
    let r ← get
    let words := if given.isEmpty then r.parameters else given
    let scan := if words.length + 1 < r.optionScan.index then {} else r.optionScan
    let silent := known.startsWith ":"
    let finish (letter : Char) (index : Nat) (letters : List Char) (ended : Bool) : Step Nat := do
      ShellRun.setVariable "OPTIND" (Text.decimal index) false
      ShellRun.setVariable name (String.ofList [letter]) false
      modify fun r => { r with optionScan := { index, letters } }
      return if ended then 1 else 0
    let argument (value : Option Raw) : Step Unit := do
      match value with
      | some value => ShellRun.setVariable "OPTARG" value false
      | none => ShellRun.unsetVariable "OPTARG"
    let take (c : Char) (letters : List Char) (index : Nat) : Step Nat := do
      match optionKind? c known.toList with
      | none =>
        if silent then argument (some (String.ofList [c]))
        else
          let _ ← ShellRun.write 2 (String.ofList ("Illegal option -".toList ++ [c, '\n']))
          argument none
        finish '?' index letters false
      | some false =>
        argument (some "")
        finish c index letters false
      | some true =>
        match letters, words[index - 1]? with
        | [], none =>
          if silent then
            argument (some (String.ofList [c]))
            finish ':' index [] false
          else
            let _ ← ShellRun.write 2
              (String.ofList ("No arg for -".toList ++ c :: " option\n".toList))
            argument none
            finish '?' index [] false
        | [], some value =>
          argument (some value)
          finish c (index + 1) [] false
        | letters, _ =>
          argument (some (String.ofList letters))
          finish c index [] false
    match scan.letters with
    | c :: letters => take c letters scan.index
    | [] =>
      match (words[scan.index - 1]?).map String.toList with
      | some ['-', '-'] => finish '?' (scan.index + 1) [] true
      | some ('-' :: c :: letters) => take c letters (scan.index + 1)
      | _ => finish '?' scan.index [] true
  | _ => ShellRun.fail "Usage: getopts optstring var [arg...]"

/-- Takes a line from bytes: its glyphs, how many bytes it took, and whether it ended. A backslash
makes the character behind it part of a field, unless `plain` is set. -/
def takeLine (plain : Bool) : Bytes → Nat → Glyphs → Glyphs × Nat × Bool
  | [], used, line => (line.reverse, used, false)
  | b :: rest, used, line =>
    let c := Raw.charOfByte b
    if c = '\n' then (line.reverse, used + 1, true)
    else if c.toNat = 0 then takeLine plain rest (used + 1) line
    else if c = '\\' && !plain then
      match rest with
      | [] => (line.reverse, used + 1, false)
      | d :: rest =>
        let d := Raw.charOfByte d
        takeLine plain rest (used + 2) (if d = '\n' then line else ⟨d, .quoted⟩ :: line)
    else takeLine plain rest (used + 1) (⟨c, .loose⟩ :: line)

def reading (args : List Raw) : Step Nat := do
  let (chosen, names) ← options "p:r" args
  if names.isEmpty then
    ShellRun.fail "arg count"
  let r ← get
  let left := match r.process.descriptor? 0 with
    | some index => r.world.left index
    | none => []
  let (line, used, ended) := takeLine (chosen.any (·.1 == 'r')) left 0 []
  modify fun r => { r with world := (r.world.readFrom r.process 0 (some used)).2 }
  let fields := Fields.ofLine r.separators names.length line
  for (name, n) in names.zipIdx do
    checkName name name
    ShellRun.setVariable name (String.ofList (Glyph.text ((fields[n]?).getD []))) false
  return if ended then 0 else 1

end SessionShell.Programs.Commands
