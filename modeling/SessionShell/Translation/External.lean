import SessionShell.Failure
import SessionShell.Host.Lookup
import SessionShell.Text.Blank

/-! Translators and formatters that are programs of their own: the source goes in on their input,
and the code comes out on their output. -/

namespace SessionShell

structure Invocation where
  program : String
  arguments : List String
  deriving DecidableEq, Repr

namespace Invocation

/-- Looks up the first word of a command line on the search path of the machine. `role` is what the
program is wanted for. -/
def ofCommandLine (m : Machine) (commandLine role : String) : Except Failure Invocation :=
  match (Text.words commandLine.toList).map String.ofList with
  | [] => .error { cause := .noProgram role }
  | name :: arguments =>
    match findCommand m (m.environment["PATH"]?.getD "") name with
    | none => .error { cause := .programNotFound role name }
    | some program => .ok { program, arguments }

def run (start : Launcher) (i : Invocation) (arguments : List String) (input : String)
    (m : Machine) : Except TranslateError Finished × Machine :=
  let launch : Launch :=
    { program := i.program, arguments := i.arguments ++ arguments
      input := some (Text.Utf8.encode input) }
  match start.run launch m with
  | (.ok finished, m) => (.ok finished, m)
  | (.error e, m) => (.error (.failed e.message), m)

end Invocation

def Finished.complaint (f : Finished) : String :=
  String.ofList (Text.trim (Text.Utf8.decodeLossy f.complaints).toList)

def Finished.text (f : Finished) : String :=
  Text.Utf8.decodeLossy f.output

namespace External

/-- The answer of a translator program: code 0 comes with the translation, 2 asks for more input,
and 1 rejects the input. -/
def answer (program : String) (f : Finished) : Except TranslateError String :=
  let code := exitCode f.ended
  if code = 0 then .ok f.text
  else if code = 2 then .error (.incomplete f.complaint)
  else if code = 1 then .error (.invalid f.complaint)
  else
    .error (.failed (program ++ " exited with status " ++ Text.decimal code.toInt ++ ": " ++
      f.complaint))

/-- The answer of a program that has to end well. `doing` is what it failed to do otherwise. -/
def success (doing : String) (f : Finished) : Except TranslateError String :=
  if f.ended = 0 then .ok f.text else .error (.failed (doing ++ " failed: " ++ f.complaint))

def translator (start : Launcher) (strict : Bool) (i : Invocation) : Translator :=
  { translate := fun text mode m =>
      let arguments := ["--mode", mode.name] ++ if strict then ["--strict"] else []
      let (result, m) := i.run start arguments text m
      (result.bind (answer i.program), m)
    header := fun m =>
      let (result, m) := i.run start ["--header"] "" m
      (result.bind (success (i.program ++ " --header")), m) }

def format (start : Launcher) (i : Invocation) (code : String) (m : Machine) :
    Except TranslateError String × Machine :=
  let (result, m) := i.run start [] code m
  (result.bind (success ("formatter " ++ i.program)), m)

/-- A translator whose code goes through a formatter. The header does not. -/
def formatted (start : Launcher) (inner : Translator) (i : Invocation) : Translator :=
  { inner with
    translate := fun text mode m =>
      match inner.translate text mode m with
      | (.ok code, m) => format start i code m
      | (.error e, m) => (.error e, m) }

end External

end SessionShell
