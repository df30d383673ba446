import SessionShell.Shell.Sink
import SessionShell.Translation.Translator

/-! What the program tells its user, and the record of everything that can be seen of a run. -/

namespace SessionShell

inductive Report
  | info (message : String)
  | error (message : String)
  deriving DecidableEq, Repr

def Report.line : Report → String
  | .info message => "[husk] " ++ message ++ "\n"
  | .error message => "[husk] Error: " ++ message ++ "\n"

structure Console where
  info : Sink
  errors : Sink
  deriving DecidableEq, Repr

/-- Prints a report. A console that refuses it is left as it is. -/
def Console.print (r : Report) (c : Console) : Console :=
  let bytes := Text.Utf8.encode r.line
  match r with
  | .info _ => { c with info := (c.info.write bytes).toOption.getD c.info }
  | .error _ => { c with errors := (c.errors.write bytes).toOption.getD c.errors }

inductive Event
  | report (r : Report)
  | shell (bytes : Bytes)
  | complaint (bytes : Bytes)
  | translating (mode : Mode) (text : String)
  | header
  | prompted (prompt : String) (line : Option String)
  | started
  deriving DecidableEq, Repr

def Event.info (message : String) : Event :=
  .report (.info message)

def Event.error (message : String) : Event :=
  .report (.error message)

end SessionShell
