import SessionShell.Programs.Script.Commands.Arguments
import SessionShell.Programs.Script.Lookup

/-! The shell's own commands about what the names of commands stand for: aliases, functions, commands
of the shell, and programs. -/

namespace SessionShell.Programs.Commands

def shownAlias (name text : Raw) : Raw :=
  name ++ "=" ++ quoted text ++ "\n"

def missingAlias (speaker name : Raw) : Step Unit := do
  let _ ← ShellRun.write 2 (speaker ++ ": " ++ name ++ " not found\n")

/-- The name and the text of a new alias. An equals sign in front is a part of the name. -/
def newAlias? (r : Raw) : Option (Raw × Raw) :=
  match r.toList with
  | [] => none
  | c :: cs =>
    let name := cs.takeWhile (· ≠ '=')
    match cs.drop name.length with
    | _ :: text => some (String.ofList (c :: name), String.ofList text)
    | [] => none

def placeAlias (name text : Raw) (aliases : List (String × Raw)) : List (String × Raw) :=
  if (aliases.lookup name).isSome then
    aliases.map fun old => if old.1 = name then (name, text) else old
  else aliases ++ [(name, text)]

def aliasing (args : List Raw) : Step Nat := do
  if args.isEmpty then
    let aliases := (← get).aliases
    for (name, text) in aliases.mergeSort (ShellRun.groupOf ·.1 ≤ ShellRun.groupOf ·.1) do
      ShellRun.put (shownAlias name text)
    return 0
  else
    args.foldlM (fun status arg => do
      let aliases := (← get).aliases
      match newAlias? arg with
      | some (name, text) =>
        modify fun r => { r with aliases := placeAlias name text aliases }
        return status
      | none =>
        match aliases.lookup arg with
        | some text =>
          ShellRun.put (shownAlias arg text)
          return status
        | none =>
          missingAlias "alias" arg
          return 1) 0

def unaliasing (args : List Raw) : Step Nat := do
  let (chosen, names) ← options "a" args
  if !chosen.isEmpty then
    modify fun r => { r with aliases := [] }
    return 0
  else
    names.foldlM (fun status name => do
      let aliases := (← get).aliases
      if (aliases.lookup name).isSome then
        modify fun r => { r with aliases := aliases.filter (·.1 != name) }
        return status
      else
        missingAlias "unalias" name
        return 1) 0

inductive Meaning
  | keyword
  | «alias» (text : Raw)
  | function
  | special
  | own
  | program (path : Raw) (known : Bool)

/-- Finds out what a name stands for. With a search path of its own, programs that are known do not
count. -/
def meaning? (builtins : List String) (searchPath : Option Raw) (name : Raw) :
    Step (Option Meaning) := do
  let r ← get
  if Reader.reservedWords.contains name then return some .keyword
  else if let some text := r.aliases.lookup name then return some (.alias text)
  else if r.functions.any (·.name == name) then return some .function
  else if specialCommands.contains name then return some .special
  else if builtins.contains name then return some .own
  else if let (some t, none) := (Lookup.tracked? r name, searchPath) then
    return some (.program (((Lookup.candidates r name)[t.index]?).getD name) true)
  else match ← Lookup.paths searchPath name with
    | .ok (path :: _) =>
      return if r.world.files.exists? r.process.directory (Raw.text path) then
          some (.program path false)
        else none
    | _ => return none

def describe (builtins : List String) (full : Bool) (searchPath : Option Raw) (name : Raw) :
    Step Nat := do
  let tell (sentence short : Raw) : Step Nat := do
    ShellRun.put (if full then name ++ sentence ++ "\n" else short)
    return 0
  let line := name ++ "\n"
  match ← meaning? builtins searchPath name with
  | some .keyword => tell " is a shell keyword" line
  | some (.alias text) => tell (" is an alias for " ++ text) ("alias " ++ shownAlias name text)
  | some .function => tell " is a shell function" line
  | some .special => tell " is a special shell builtin" line
  | some .own => tell " is a shell builtin" line
  | some (.program path known) =>
    tell (" is " ++ (if known then "a tracked alias for " else "") ++ path) (path ++ "\n")
  | none =>
    let _ ← tell ": not found" ""
    return 127

def describing (builtins : List String) (args : List Raw) : Step Nat :=
  args.foldlM (fun status name => do
    return status ||| (← describe builtins true none name)) 0

def asking (builtins : List String) (args : List Raw) : Step Nat := do
  let (chosen, args) ← options "pvV" args
  let searchPath := if chosen.any (·.1 == 'p') then some Lookup.standardPath else none
  match args, chosen.find? (·.1 != 'p') with
  | name :: _, some (letter, _) => describe builtins (letter = 'V') searchPath name
  | _, _ => return 0

def tracking (builtins : List String) (args : List Raw) : Step Nat := do
  let (chosen, names) ← options "r" args
  let r ← get
  if !chosen.isEmpty then
    set { r with tracked := [] }
    return 0
  else if names.isEmpty then
    for t in r.tracked.mergeSort (Lookup.groupOf ·.name ≤ Lookup.groupOf ·.name) do
      ShellRun.put (((Lookup.candidates r t.name)[t.index]?).getD t.name ++
        (if t.isStale then "*" else "") ++ "\n")
    return 0
  else
    names.foldlM (fun status name => do
      modify fun r => { r with tracked := r.tracked.filter (·.name != name) }
      if (← get).functions.any (·.name == name) || builtins.contains name then return status
      else match ← Lookup.paths none name with
        | .ok _ => return status
        | .error e =>
          ShellRun.warn (name ++ ": " ++ (Lookup.failure e).1)
          return 1) 0

end SessionShell.Programs.Commands
