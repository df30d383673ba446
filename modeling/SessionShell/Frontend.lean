import SessionShell.Arguments
import SessionShell.Compile
import SessionShell.Prompt
import SessionShell.Session
import SessionShell.Text.Quoted
import SessionShell.Translation.Checked

/-! The front end. Code from the command line, from files and from the prompt runs in one session,
which is started when the first fragment runs. -/

namespace SessionShell

/-- What stays the same during a run of the program: the translator, how fragments are evaluated,
the value that ends the session, the names and the context in which the session starts, whether code
is shown before it runs, and what the prompt shows. -/
structure Setup (α κ : Type) where
  translator : Translator
  interpreter : Interpreter α κ
  exit : α
  names : Names α
  context : κ
  debug : Bool := false
  prompts : Prompts := {}

structure Frontend (α κ : Type) where
  host : Host
  seen : List Event := []
  session : Option (Session α κ) := none

def exitName : String := "exit"

namespace Frontend

variable {α κ : Type}

def see (events : List Event) (f : Frontend α κ) : Frontend α κ :=
  { f with seen := f.seen ++ events }

def report (r : Report) (f : Frontend α κ) : Frontend α κ :=
  f.see [.report r]

def translate (c : Setup α κ) (text : String) (mode : Mode) (f : Frontend α κ) :
    Except TranslateError String × Frontend α κ :=
  let (code, machine) := c.translator.translate text mode f.host.machine
  (code, { f with host.machine := machine }.see [.translating mode text])

def header (c : Setup α κ) (f : Frontend α κ) : Except TranslateError String × Frontend α κ :=
  let (code, machine) := c.translator.header f.host.machine
  (code, { f with host.machine := machine }.see [.header])

def runFragment (c : Setup α κ) (code : String) (s : Session α κ) (f : Frontend α κ) :
    Session α κ × Frontend α κ :=
  let (s, host, events) := s.run c.interpreter .increasing code f.host
  (s, { f with host }.see events)

def start (c : Setup α κ) (f : Frontend α κ) : Session α κ × Frontend α κ :=
  let s : Session α κ :=
    { store := (∅ : Scope α).insert exitName c.exit, names := c.names, context := c.context }
  match header c (f.see [.started]) with
  | (.ok code, f) => runFragment c code s f
  | (.error e, f) => (s, f.report (.error e.message))

def execute (c : Setup α κ) (code : String) (f : Frontend α κ) : Frontend α κ :=
  let f := if c.debug then f.report (.info ("Executing " ++ Text.quoted code)) else f
  let (s, f) := match f.session with
    | some s => (s, f)
    | none => f.start c
  let (s, f) := runFragment c code s f
  { f with session := some s }

def runInline (c : Setup α κ) (f : Frontend α κ) (code : String) : Frontend α κ :=
  match f.translate c code .single with
  | (.ok code, f) => f.execute c code
  | (.error e, f) => f.report (.error e.message)

def backend (c : Setup α κ) (directory : Place) : Backend (Frontend α κ) :=
  { translate := fun text mode f => f.translate c text mode
    header := header c
    execute := execute c
    report
    directory
    files := fun f => f.host.machine.files
    setFiles := fun files f => { f with host.machine.files := files } }

def work (c : Setup α κ) (a : Arguments) (f : Frontend α κ) : Frontend α κ :=
  let f := if a.version then f.report (.info ("Version " ++ version)) else f
  let f := a.code.foldl (runInline c) f
  let b := backend c f.host.machine.directory
  a.paths.foldl (fun f path => Compile.compilePath b ⟨!a.nowrite, a.run⟩ path f) f

def handle (c : Setup α κ) (r : Reader) (f : Frontend α κ) :
    Except ReadFailure (Option String) × Reader × Frontend α κ :=
  let (result, d) := Desk.handle c.prompts c.translator { reader := r, machine := f.host.machine }
  (result, d.reader, { f with host.machine := d.machine }.see d.seen)

/-- Reads and runs statements until the session is ended. The bound is greater than the number of
lines that are left. -/
def promptLoop (c : Setup α κ) :
    Nat → Reader → Frontend α κ → Except ReadFailure Unit × Reader × Frontend α κ
  | 0, r, f => (.error .endOfInput, r, f)
  | bound + 1, r, f =>
    if !f.host.running then (.ok (), r, f)
    else match f.handle c r with
      | (.error e, r, f) => (.error e, r, f)
      | (.ok none, r, f) => promptLoop c bound r f
      | (.ok (some code), r, f) => promptLoop c bound r (f.execute c code)

/-- Runs the prompt until the session is ended. A reader without lines ends it too, with its
failure. -/
def prompt (c : Setup α κ) (r : Reader) (f : Frontend α κ) :
    Except ReadFailure Unit × Reader × Frontend α κ :=
  let f := f.report (.info "Interpreter:")
  let f := { f with host.running := true }
  promptLoop c (r.left f.host.machine + 1) r f

/-- Does all the work that the arguments ask for. The status is that of the prompt, if it runs. -/
def run (c : Setup α κ) (a : Arguments) (r : Reader) (f : Frontend α κ) :
    Except ReadFailure UInt8 × Frontend α κ :=
  let f := f.work c a
  if a.wantsPrompt then
    let (ended, _, f) := f.prompt c r
    (promptStatus ended, f)
  else (.ok 0, f)

end Frontend

end SessionShell
