import SessionShell.Report
import SessionShell.Host.Machine
import SessionShell.Text.Lines

/-! The prompt: where lines come from, and how they are put together until they can be
translated. -/

namespace SessionShell

inductive ReadFailure
  | endOfInput
  | notText
  | endOfFile
  | interrupted
  | terminal (reason : String)
  | other (message : String)
  | within (doing : String) (failure : ReadFailure)
  deriving DecidableEq, Repr

namespace ReadFailure

def chain : ReadFailure → List String
  | .endOfInput => ["end of input"]
  | .notText => ["stream did not contain valid UTF-8"]
  | .endOfFile => ["EOF"]
  | .interrupted => ["Interrupted"]
  | .terminal reason => [reason, reason]
  | .other message => [message]
  | .within doing failure => doing :: failure.chain

def message (f : ReadFailure) : String :=
  ": ".intercalate f.chain

def cause : ReadFailure → ReadFailure
  | .within _ failure => failure.cause
  | failure => failure

end ReadFailure

/-- The exit status for how the prompt ended: an end of file is a clean end, an interruption gives
130, and any other failure is passed on. -/
def promptStatus : Except ReadFailure Unit → Except ReadFailure UInt8
  | .ok _ => .ok 0
  | .error f =>
    match f.cause with
    | .endOfFile => .ok 0
    | .interrupted => .ok 130
    | _ => .error f

structure BufferedInput where
  bytes : Bytes
  deriving DecidableEq, Repr

namespace BufferedInput

def lineText (line : Bytes) : Except ReadFailure String :=
  match Text.Utf8.decode? line with
  | some text =>
    .ok (String.ofList (Text.dropEndWhile (fun c => c == '\n' || c == '\r') text.toList))
  | none => .error .notText

def readLine (b : BufferedInput) : Except ReadFailure String × BufferedInput :=
  if b.bytes = [] then (.error .endOfInput, b)
  else
    let front := b.bytes.takeWhile (· ≠ 10)
    let rest := b.bytes.drop front.length
    (lineText (front ++ rest.take 1), ⟨rest.drop 1⟩)

theorem length_readLine {b : BufferedInput} (h : b.bytes ≠ []) :
    b.readLine.2.bytes.length < b.bytes.length := by
  have := List.length_pos_iff.2 h
  simp only [readLine, if_neg h, List.length_drop]
  omega

def lines (b : BufferedInput) : List String × ReadFailure :=
  if _h : b.bytes = [] then ([], .endOfInput)
  else match b.readLine.1 with
    | .error f => ([], f)
    | .ok line =>
      let (more, ending) := b.readLine.2.lines
      (line :: more, ending)
termination_by b.bytes.length
decreasing_by exact length_readLine _h

end BufferedInput

/-- Where the prompt takes lines from: a list with the failure behind it, or the line editor, which
takes them from the input of the machine. -/
inductive Reader
  | lines (left : List String) (ending : ReadFailure)
  | editor
  deriving DecidableEq, Repr

namespace Reader

/-- The text of a line that the editor read. It loses a newline, and a carriage return before it. -/
def editedLine (line : Bytes) : Except ReadFailure String :=
  if line = [] then .error .endOfFile
  else match Text.Utf8.decode? line with
    | none => .error (.terminal IoError.notText.message)
    | some text =>
      let cs := text.toList
      if cs.getLast? = some '\n' then .ok (String.ofList (Text.dropReturn cs.dropLast))
      else .ok text

def read (r : Reader) (m : Machine) : Except ReadFailure String × Reader × Machine :=
  match r with
  | .lines (line :: left) ending => (.ok line, .lines left ending, m)
  | .lines [] ending => (.error ending, r, m)
  | .editor =>
    let (line, input) := m.input.readLine
    (editedLine line, r, { m with input })

def left (r : Reader) (m : Machine) : Nat :=
  match r with
  | .lines left _ => left.length
  | .editor => m.input.size

end Reader

structure Prompts where
  first : String := ">>> "
  more : String := "    "
  deriving DecidableEq, Repr

structure Desk where
  reader : Reader
  machine : Machine
  seen : List Event := []

namespace Desk

def see (e : Event) (d : Desk) : Desk :=
  { d with seen := d.seen ++ [e] }

/-- Asks for a line. The editor shows its prompts itself. -/
def ask (prompt : String) (d : Desk) : Except ReadFailure String × Desk :=
  let (line, reader, machine) := d.reader.read d.machine
  let d := { d with reader, machine }
  (line, if reader = .editor then d else d.see (.prompted prompt line.toOption))

def translate (t : Translator) (text : String) (d : Desk) :
    Except TranslateError String × Desk :=
  let (code, machine) := t.translate text .single d.machine
  (code, { d with machine }.see (.translating .single text))

def lastAttempt (t : Translator) (text : String) (d : Desk) : Option String × Desk :=
  match d.translate t text with
  | (.ok code, d) => (some code, d)
  | (.error e, d) => (none, d.see (.error e.message))

/-- Offers a text, and asks for further lines as long as it is incomplete. An empty line stands for
no more lines. The bound is greater than the number of lines that are left. -/
def complete (t : Translator) (more : String) :
    Nat → String → Desk → Except ReadFailure (Option String) × Desk
  | 0, _, d => (.error .endOfInput, d)
  | bound + 1, text, d =>
    match d.translate t text with
    | (.ok code, d) => (.ok (some code), d)
    | (.error e, d) =>
      if e.isIncomplete then
        match d.ask more with
        | (.error f, d) => (.error f, d)
        | (.ok line, d) =>
          if line = "" then
            let (code, d) := d.lastAttempt t text
            (.ok code, d)
          else complete t more bound (text ++ "\n" ++ line) d
      else (.ok none, d.see (.error e.message))

def handle (p : Prompts) (t : Translator) (d : Desk) :
    Except ReadFailure (Option String) × Desk :=
  match d.ask p.first with
  | (.error f, d) => (.error f, d)
  | (.ok line, d) => complete t p.more (d.reader.left d.machine + 1) line d

end Desk

end SessionShell
