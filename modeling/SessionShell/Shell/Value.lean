import SessionShell.Host.Machine
import SessionShell.Text.Decimal

/-! What names of the shell stand for: text, or a native command. -/

namespace SessionShell

inductive Deed
  | called (name : String) (arguments : List String)
  | started (launch : Launch)

structure Reply where
  output : Bytes := []
  stops : Bool := false
  outcome : Except String Int32 := .ok 0

/-- A command that the program around the shell provides. It may answer by what was done before. -/
structure Native where
  reply : List Deed → List String → Reply

inductive Value
  | text (text : String)
  | native (native : Native)

def Value.text? : Value → Option String
  | .text s => some s
  | .native _ => none

def Native.exit : Native :=
  ⟨fun _ _ => { stops := true }⟩

namespace Names

def status : String := "?"

def text? (names : Names Value) (name : String) : Option String :=
  (names.lookup name).bind Value.text?

def setStatus (code : Int32) (names : Names Value) : Names Value :=
  names.setLocal status (.text (Text.decimal code.toInt))

/-- Removes a name from both scopes. The status cannot be removed from the locals. -/
def unset (name : String) (names : Names Value) : Names Value :=
  { globals := names.globals.erase name
    locals := if name = status then names.locals else names.locals.erase name }

def resetFrame (names : Names Value) : Names Value :=
  setStatus 0 { names with locals := ∅ }

def ofGlobals (globals : Scope Value) : Names Value :=
  resetFrame { globals, locals := ∅ }

def exported (names : Names Value) : Scope String :=
  names.globals.filterMap fun _ value => value.text?

def ofEnvironment (environment : Scope String) : Names Value :=
  ofGlobals (environment.map fun _ text => .text text)

end Names

end SessionShell
