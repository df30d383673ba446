import SessionShell.Host.Machine

/-! Translators turn a source text into shell code. -/

namespace SessionShell

/-- What is translated: a statement from the prompt or the command line, a file of its own, or a
file of a module directory. -/
inductive Mode
  | single
  | file
  | module
  deriving DecidableEq, Repr

def Mode.name : Mode → String
  | .single => "single"
  | .file => "file"
  | .module => "module"

inductive TranslateError
  | incomplete (reason : String)
  | invalid (reason : String)
  | failed (reason : String)
  deriving DecidableEq, Repr

namespace TranslateError

def message : TranslateError → String
  | .incomplete reason => "incomplete input: " ++ reason
  | .invalid reason => "invalid input: " ++ reason
  | .failed reason => "translation failed: " ++ reason

def isIncomplete : TranslateError → Bool
  | .incomplete _ => true
  | _ => false

end TranslateError

structure Translator where
  translate : String → Mode → Machine → Except TranslateError String × Machine
  header : Machine → Except TranslateError String × Machine

def Translator.pure (translate : String → Mode → Except TranslateError String)
    (header : Except TranslateError String) : Translator :=
  { translate := fun text mode machine => (translate text mode, machine)
    header := fun machine => (header, machine) }

end SessionShell
