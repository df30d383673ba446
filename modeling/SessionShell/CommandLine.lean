import SessionShell.Frontend
import SessionShell.Shell.Interpreter
import SessionShell.Translation.Choice

/-! The program as it is called: from arguments and a machine to a status and two streams. -/

namespace SessionShell

structure Called where
  status : UInt8
  output : Bytes
  complaints : Bytes
  machine : Machine

namespace Called

def outputOf : Event → Bytes
  | .report (.info message) => Text.Utf8.encode (Report.info message).line
  | .shell bytes => bytes
  | _ => []

def complaintsOf : Event → Bytes
  | .report (.error message) => Text.Utf8.encode (Report.error message).line
  | .complaint bytes => bytes
  | _ => []

def fatal : List String → String
  | [] => "Error: \n"
  | message :: causes =>
    "Error: " ++ message ++ "\n" ++
      if causes.isEmpty then ""
      else "\nCaused by:\n" ++ String.join (causes.map ("    " ++ · ++ "\n"))

end Called

namespace CommandLine

def choice (a : Arguments) : TranslatorChoice :=
  { strict := a.strict, translator := a.translator, formatter := a.formatter }

def setup (start : Launcher) (translator : Translator) (a : Arguments) (m : Machine) :
    Setup Value ShellContext :=
  { translator, interpreter := shellInterpreter start, exit := .native .exit
    names := .ofEnvironment m.environment, context := {}, debug := a.debug }

def call (start : Launcher) (argv : List String) (m : Machine) : Called :=
  match Arguments.parse argv with
  | .error (.help text) =>
    { status := 0, output := Text.Utf8.encode (text ++ "\n"), complaints := [], machine := m }
  | .error (.wrong message) =>
    { status := 1, output := [], machine := m
      complaints := Text.Utf8.encode (message ++ "\nRun husk --help for more information.\n") }
  | .ok a =>
    match (choice a).build start m with
    | .error e =>
      { status := 1, output := [], machine := m
        complaints := Text.Utf8.encode (Called.fatal (e.context ++ [e.cause.message])) }
    | .ok translator =>
      let (result, f) := Frontend.run (setup start translator a m) a .editor
        { host := ⟨m, false⟩ }
      let called : Called :=
        { status := 0, output := f.seen.flatMap Called.outputOf
          complaints := f.seen.flatMap Called.complaintsOf, machine := f.host.machine }
      match result with
      | .ok status => { called with status }
      | .error e =>
        { called with
          status := 1
          complaints := called.complaints ++ Text.Utf8.encode (Called.fatal e.chain) }

end CommandLine

end SessionShell
