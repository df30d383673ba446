import SessionShell.Translation.Checked
import SessionShell.Translation.External

/-! Which translator the program works with. -/

namespace SessionShell

structure TranslatorChoice where
  strict : Bool := false
  translator : Option String := none
  formatter : Option String := none

namespace TranslatorChoice

def translatorVariable : String := "HUSK_TRANSLATOR"

/-- The command line of the translator program: the one chosen, or else the one that the environment
names, unless that is blank. -/
def commandLine (choice : TranslatorChoice) (m : Machine) : Option String :=
  choice.translator.or
    (m.environment[translatorVariable]?.filter fun line => !(Text.trim line.toList).isEmpty)

def build (start : Launcher) (choice : TranslatorChoice) (m : Machine) :
    Except Failure Translator := do
  let base ← match choice.commandLine m with
    | some line =>
      (Invocation.ofCommandLine m line "translator").map (External.translator start choice.strict)
    | none => .ok (Checked.translator choice.strict)
  match choice.formatter with
  | some line => (Invocation.ofCommandLine m line "formatter").map (External.formatted start base)
  | none => .ok base

end TranslatorChoice

end SessionShell
