import SessionShell.Programs.Tool

/-! `env`: shows the environment, or starts a program in another one. -/

namespace SessionShell.Programs.Env

def table : OptionTable :=
  { letters := switches "iv0" ++ [('u', .argument), ('C', .argument), ('S', .argument)]
    words := [("ignore-environment", .nothing, 'i'), ("null", .nothing, '0'),
      ("unset", .argument, 'u'), ("chdir", .argument, 'C'), ("debug", .nothing, 'v'),
      ("split-string", .argument, 'S')]
    anywhere := false }

def nameOf (entry : Raw) : List Char :=
  entry.toList.takeWhile (· ≠ '=')

def setEntry (entries : List Raw) (entry : Raw) : List Raw :=
  if entries.any (nameOf · = nameOf entry) then
    entries.map fun old => if nameOf old = nameOf entry then entry else old
  else entries ++ [entry]

inductive Quotes
  | none
  | single
  | double
  deriving DecidableEq

structure Splitting where
  words : List Raw := []
  current : Option (List Char) := none

namespace Splitting

def push (s : Splitting) (cs : List Char) : Splitting :=
  { s with current := some (cs.reverse ++ s.current.getD []) }

def close (s : Splitting) : Splitting :=
  match s.current with
  | some cs => ⟨String.ofList cs.reverse :: s.words, none⟩
  | none => s

end Splitting

def control? (c : Char) : Option Char :=
  if "fnrtv".toList.contains c then
    match c with
    | 'f' => some '\x0c'
    | 'n' => some '\n'
    | 'r' => some '\r'
    | 't' => some '\t'
    | _ => some '\x0b'
  else none

/-- Splits a text into words as a script would be: with quotes, backslashes, comments and variables in
braces. The bound is greater than the length of the text. -/
def split (value? : Raw → Option Raw) :
    Nat → Quotes → List Char → Splitting → Except Raw (List Raw)
  | 0, _, _, s => .ok s.close.words.reverse
  | _, .none, [], s => .ok s.close.words.reverse
  | _, _, [], _ => .error "no terminating quote in -S string"
  | bound + 1, q, c :: rest, s =>
    let go := split value? bound
    if c = '\'' && q ≠ .double then
      go (if q = .single then .none else .single) rest (s.push [])
    else if c = '"' && q ≠ .single then
      go (if q = .double then .none else .double) rest (s.push [])
    else if c = '\\' then
      match rest with
      | [] => .error "invalid backslash at end of string in -S"
      | d :: rest =>
        if q = .single then
          go q rest (s.push (if d = '\\' || d = '\'' then [d] else [c, d]))
        else if "\"#$'\\".toList.contains d then go q rest (s.push [d])
        else if d = '_' then
          if q = .double then go q rest (s.push [' ']) else go q rest s.close
        else if d = 'c' then
          if q = .double then .error "'\\c' must not appear in double-quoted -S string"
          else .ok s.close.words.reverse
        else match control? d with
          | some x => go q rest (s.push [x])
          | none => .error (String.ofList
              ("invalid sequence '\\".toList ++ d :: "' in -S".toList))
    else if c = '$' && q ≠ .single then
      match rest with
      | '\x7b' :: inside =>
        let name := inside.takeWhile fun c => c.isAlphanum || c = '_'
        match inside.drop name.length with
        | '\x7d' :: rest =>
          go q rest (match value? (String.ofList name) with
            | some value => s.push value.toList
            | none => s)
        | _ => .error (expansionFault (c :: rest))
      | _ => .error (expansionFault (c :: rest))
    else if q = .none && isSpace c then go q rest s.close
    else if q = .none && c = '#' && s.current.isNone then .ok s.close.words.reverse
    else go q rest (s.push [c])
where
  expansionFault (cs : List Char) : Raw :=
    "only $\x7bVARNAME\x7d expansion is supported, error at: " ++ String.ofList cs

def splitArguments (value? : Raw → Option Raw) : Nat → List Raw → Except Raw (List Raw)
  | 0, args => .ok args
  | bound + 1, args => do
    let words (text : List Char) : Except Raw (List Raw) :=
      split value? (text.length + 1) .none text {}
    match args with
    | first :: rest =>
      if first = "-S" || first = "--split-string" then
        match rest with
        | text :: rest => splitArguments value? bound ((← words text.toList) ++ rest)
        | [] => return args
      else if first.startsWith "-S" then
        splitArguments value? bound ((← words (first.toList.drop 2)) ++ rest)
      else if first.startsWith "--split-string=" then
        splitArguments value? bound ((← words (first.toList.drop 15)) ++ rest)
      else if ["-i", "-v", "-0", "--ignore-environment", "--debug", "--null"].contains first then
        return first :: (← splitArguments value? bound rest)
      else if first = "-u" || first = "-C" then
        return first :: rest.take 1 ++ (← splitArguments value? bound (rest.drop 1))
      else return args
    | [] => return args

def directory? (b : Bench) (path : Raw) : Except IoError Place := do
  let place ← b.world.files.place b.process.directory (Raw.text path) .find
  match b.world.files.entry? place with
  | some .directory => .ok place
  | some _ => .error .notDirectory
  | none => .error .noEntry

def start (chosen : Chosen) (environment : List Raw) (command : Raw) (args : List Raw) :
    Work Ending := do
  let b ← get
  let process : Process := { b.process with name := command, arguments := args, environment }
  if chosen.has '0' then Work.refuse 125 "cannot specify --null (-0) with command"
  else match chosen.argument? 'C' with
    | none => return .become command process
    | some path =>
      match directory? b path with
      | .ok place => return .become command { process with directory := place }
      | .error e =>
        Work.complain ("cannot change directory to " ++ quoteName true path ++ ": " ++ e.reason.1)
        return .code 125

def showEntries (chosen : Chosen) (environment : List Raw) : Work Ending := do
  if chosen.has 'C' then
    Work.refuse 125 "must specify command with --chdir (-C)"
  else
    let ending := if chosen.has '0' then "\x00" else "\n"
    for entry in environment do
      Work.put (entry ++ ending)
    return .code 0

def perform (chosen : Chosen) : Work Ending := do
  let dash := chosen.operands.head? = some "-"
  let operands := if dash then chosen.operands.drop 1 else chosen.operands
  let p := (← get).process
  let kept := if chosen.has 'i' || dash then [] else p.environment
  let dropped := chosen.options.filterMap fun (letter, argument) =>
    if letter = 'u' then argument else none
  match dropped.find? fun name => name = "" || name.toList.contains '=' with
  | some name =>
    Work.complain ("cannot unset " ++ quoteName true name ++ ": Invalid argument")
    return .code 125
  | none =>
    let kept := kept.filter fun entry => !dropped.contains (String.ofList (nameOf entry))
    let added := operands.takeWhile (·.toList.contains '=')
    let environment := added.foldl setEntry kept
    match operands.drop added.length with
    | command :: args => start chosen environment command args
    | [] => showEntries chosen environment

def work : Work Ending := do
  let p := (← get).process
  match splitArguments p.value? (p.arguments.length + 1) p.arguments with
  | .error message =>
    Work.complain message
    return .code 125
  | .ok arguments =>
    match table.scan arguments with
    | .error message => Work.refuse 125 message
    | .ok chosen => perform chosen

end SessionShell.Programs.Env
