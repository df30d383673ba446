import SessionShell.Host.Machine
import SessionShell.Language.Parse
import SessionShell.Translation.Translator

/-! Failures: what went wrong, and what was being done when it did. -/

namespace SessionShell

inductive Cause
  | malformed (e : SyntaxError)
  | io (e : IoError)
  | untranslated (e : TranslateError)
  | commandNotFound (name : String)
  | emptyCommand
  | notACommand
  | notAName (name : String)
  | reported (message : String)
  | noProgram (role : String)
  | programNotFound (role name : String)
  | nestedTooDeep
  deriving DecidableEq, Repr

def Cause.message : Cause → String
  | .malformed e => e.message
  | .io e => e.message
  | .untranslated e => e.message
  | .commandNotFound name => "command not found: " ++ name
  | .emptyCommand => "empty command"
  | .notACommand => "pipeline contains non-command node"
  | .notAName name => "not a valid identifier: '" ++ name ++ "'"
  | .reported message => message
  | .noProgram role => "empty " ++ role ++ " command"
  | .programNotFound role name => role ++ " not found: " ++ name
  | .nestedTooDeep => "substitutions nested too deep"

structure Failure where
  context : List String := []
  cause : Cause
  deriving DecidableEq, Repr

namespace Failure

def message (f : Failure) : String :=
  ": ".intercalate (f.context ++ [f.cause.message])

def within (doing : String) (f : Failure) : Failure :=
  { f with context := doing :: f.context }

end Failure

/-- The name of a program in a message. One with a zero character is not shown. -/
def Launch.shownName (launch : Launch) : String :=
  if launch.program.toList.contains (Char.ofNat 0) then "<string-with-nul>" else launch.program

def Launcher.run (start : Launcher) (launch : Launch) (m : Machine) :
    Except Failure Finished × Machine :=
  match start launch m with
  | (.ok finished, m) => (.ok finished, m)
  | (.error e, m) => (.error ⟨["failed to spawn " ++ launch.shownName], .io e⟩, m)

end SessionShell
