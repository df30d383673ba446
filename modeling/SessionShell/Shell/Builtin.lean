import SessionShell.Shell.State
import SessionShell.Text.Lines
import SessionShell.Usage

/-! The commands that the shell has itself. Whatever goes wrong in one of them is written to its
output and gives status 1; only an output stream that refuses makes it fail. -/

namespace SessionShell

inductive Builtin
  | echo
  | cat
  | wc
  | assignLocals
  | unset
  deriving DecidableEq, Repr

namespace Builtin

def name : Builtin → String
  | .echo => "echo"
  | .cat => "cat"
  | .wc => "wc"
  | .assignLocals => "local"
  | .unset => "unset"

def ofName? : String → Option Builtin
  | "echo" => some .echo
  | "cat" => some .cat
  | "wc" => some .wc
  | "local" => some .assignLocals
  | "unset" => some .unset
  | _ => none

theorem ofName?_name (b : Builtin) : ofName? b.name = some b := by
  cases b <;> rfl

def noNewline : OptionSpec := ⟨["-n", "--no-newline"], .switch⟩

def usage : Builtin → Usage
  | .echo =>
    { options := [noNewline], greedy := true
      help := helpText "echo [-n] [words...]"
        "write the arguments to standard output, separated by spaces."
        ("Options:\n" ++ helpLine "-n, --no-newline" "do not print the trailing newline.") }
  | .cat =>
    { greedy := true
      help := helpText "cat [files...]" "concatenate files, or stdin, to standard output."
        "Options:\n" }
  | .wc =>
    { greedy := true
      help := helpText "wc [files...]" "print line, word and byte counts." "Options:\n" }
  | .assignLocals =>
    { greedy := true
      help := helpText "local [assignments...]"
        "define variables in the local frame of the running fragment." "Options:\n" }
  | .unset =>
    { greedy := true
      help := helpText "unset [names...]" "remove variables from the running fragment."
        "Options:\n" }

def readFile (file : String) : Shell String := do
  let m := (← get).host.machine
  match m.readText (Path.join m.directoryPath file) with
  | .ok text => pure text
  | .error e => throw ⟨[file], .io e⟩

def readFiles : List String → Shell (List (Option String × String))
  | [] => pure []
  | file :: rest => do
    let text ← readFile file
    return (some file, text) :: (← readFiles rest)

def readText (input : Option Bytes) : Shell String := do
  let bytes ← match input with
    | some bytes => pure bytes
    | none => Shell.readInput
  match Text.Utf8.decode? bytes with
  | some text => pure text
  | none => Shell.fail (.io .notText)

/-- The texts of the named files, or of the input if none is named. All are read before any is
used. -/
def inputs (files : List String) (input : Option Bytes) :
    Shell (List (Option String × String)) := do
  match files with
  | [] => return [(none, ← readText input)]
  | files => readFiles files

def writeAll : List String → Shell Unit
  | [] => pure ()
  | text :: rest => do
    Shell.writeText text
    writeAll rest

def counts (file : Option String) (text : String) : String :=
  let numbers : List Nat := [(Text.lines text.toList).length, (Text.words text.toList).length,
    text.utf8ByteSize]
  " ".intercalate (numbers.map (fun (n : Nat) => Text.decimal n) ++ file.toList) ++ "\n"

def splitAssignment (s : String) : String × String :=
  let name := s.toList.takeWhile (· ≠ '=')
  (String.ofList name, String.ofList (s.toList.drop (name.length + 1)))

def defineLocals : List String → Shell Unit
  | [] => pure ()
  | arg :: rest => do
    let (name, value) := splitAssignment arg
    if isName name then
      Shell.changeNames (·.setLocal name (.text value))
      defineLocals rest
    else Shell.fail (.notAName name)

def body (b : Builtin) (args : Scanned) (input : Option Bytes) : Shell Int32 := do
  match b with
  | .echo =>
    let ending := if args.has noNewline then "" else "\n"
    Shell.writeText (" ".intercalate args.positionals ++ ending)
  | .cat => writeAll ((← inputs args.positionals input).map (·.2))
  | .wc => writeAll ((← inputs args.positionals input).map fun (file, text) => counts file text)
  | .assignLocals => defineLocals args.positionals
  | .unset =>
    Shell.changeNames fun names => args.positionals.foldl (fun names name => names.unset name) names
  return 0

def run (b : Builtin) (args : List String) (input : Option Bytes) : Shell Int32 :=
  match b.usage.scan args with
  | .error refusal => do
    Shell.writeText refusal.text
    return match refusal with
      | .help _ => 0
      | .wrong _ => 1
  | .ok scanned =>
    (b.body scanned input).orElseWith fun e => do
      Shell.writeText (b.name ++ ": " ++ e.message ++ "\n")
      return 1

end Builtin

end SessionShell
