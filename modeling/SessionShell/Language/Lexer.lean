import SessionShell.Language.Token
import SessionShell.Text.Blank

/-! The lexer: a machine that reads one character at a time and never looks ahead, so that what it
has emitted after a text depends on that text alone. Every error is found at the end of the input,
inside a construct that is still open. -/

namespace SessionShell

inductive LexError
  | quote
  | commandSubstitution
  | parameterSubstitution
  | escape
  deriving DecidableEq, Repr

def LexError.message : LexError → String
  | .quote => "unterminated quote"
  | .commandSubstitution => "unterminated command substitution"
  | .parameterSubstitution => "unterminated parameter substitution"
  | .escape => "trailing backslash"

namespace Lexer

inductive Around
  | bare
  | quotes
  deriving DecidableEq, Repr

inductive Bracket
  | command
  | parameter
  deriving DecidableEq, Repr

def Bracket.opening : Bracket → Char
  | .command => '('
  | .parameter => '\x7b'

def Bracket.closing : Bracket → Char
  | .command => ')'
  | .parameter => '\x7d'

def Bracket.unfinished : Bracket → LexError
  | .command => .commandSubstitution
  | .parameter => .parameterSubstitution

/-- The part that a substitution with this text inside stands for. The name of a parameter loses the
blanks around it. -/
def Bracket.part : Bracket → List Char → WordPart
  | .command, inside => .command (String.ofList inside)
  | .parameter, inside => .parameter (String.ofList (Text.trim inside))

/-- Where in the input the machine is. Texts in progress are kept in reverse. -/
inductive Mode
  | gap
  | comment
  | gapEscape
  | word
  | wordEscape
  | single
  | double
  | doubleEscape
  | dollar (around : Around)
  | name (around : Around) (chars : List Char)
  | inside (around : Around) (bracket : Bracket) (depth : Nat) (chars : List Char)
  deriving DecidableEq, Repr

def Around.mode : Around → Mode
  | .bare => .word
  | .quotes => .double

/-- The state of the machine. `emitted`, `parts` and `buffer` are in reverse; `quoted` says that the
open word has a quote or an escape, `assigned` that it began with an assignment. -/
structure State where
  mode : Mode := .gap
  emitted : List Token := []
  parts : List WordPart := []
  buffer : List Char := []
  quoted : Bool := false
  assigned : Bool := false
  deriving DecidableEq, Repr

namespace State

def tokens (s : State) : List Token :=
  s.emitted.reverse

def emit (s : State) (t : Token) : State :=
  { s with emitted := t :: s.emitted }

def push (s : State) (c : Char) : State :=
  { s with buffer := c :: s.buffer }

def flush (s : State) : State :=
  if s.buffer.isEmpty then s
  else { s with parts := .literal (String.ofList s.buffer.reverse) :: s.parts, buffer := [] }

def addPart (s : State) (part : WordPart) : State :=
  { s with parts := part :: s.parts }

def endWord (s : State) : State :=
  { emitted := .word s.flush.parts.reverse :: s.emitted }

def canAssign (s : State) : Bool :=
  !s.assigned && !s.quoted && s.parts.isEmpty && isNameChars s.buffer.reverse

def assign (s : State) : State :=
  { s with emitted := .assign (String.ofList s.buffer.reverse) :: s.emitted, buffer := [],
           assigned := true }

def stepWord (s : State) (c : Char) : State :=
  let s := { s with mode := .word }
  match c with
  | ' ' | '\t' | '\r' => s.endWord
  | '|' => s.endWord.emit .pipe
  | ';' => s.endWord.emit .semicolon
  | '\n' => s.endWord.emit .newline
  | '\'' => { s with mode := .single, quoted := true }
  | '"' => { s with mode := .double, quoted := true }
  | '\\' => { s with mode := .wordEscape }
  | '$' => { s with mode := .dollar .bare }
  | '=' => if s.canAssign then s.assign else s.push c
  | _ => s.push c

def stepDouble (s : State) (c : Char) : State :=
  let s := { s with mode := .double }
  match c with
  | '"' => { s with mode := .word }
  | '\\' => { s with mode := .doubleEscape }
  | '$' => { s with mode := .dollar .quotes }
  | _ => s.push c

def stepGap (s : State) (c : Char) : State :=
  match c with
  | ' ' | '\t' | '\r' => s
  | '|' => s.emit .pipe
  | ';' => s.emit .semicolon
  | '\n' => s.emit .newline
  | '#' => { s with mode := .comment }
  | '\\' => { s with mode := .gapEscape }
  | _ => s.stepWord c

def stepPlain (s : State) : Around → Char → State
  | .bare, c => s.stepWord c
  | .quotes, c => s.stepDouble c

/-- Reads the character after a dollar sign, which is literal if no substitution begins. -/
def stepDollar (s : State) (around : Around) (c : Char) : State :=
  if c = Bracket.opening .command then { s.flush with mode := .inside around .command 0 [] }
  else if c = Bracket.opening .parameter then
    { s.flush with mode := .inside around .parameter 0 [] }
  else if c = '?' then { s.flush.addPart (.parameter "?") with mode := around.mode }
  else if isNameStart c then { s.flush with mode := .name around [c] }
  else (s.push '$').stepPlain around c

def stepName (s : State) (around : Around) (chars : List Char) (c : Char) : State :=
  if isNameChar c then { s with mode := .name around (c :: chars) }
  else (s.addPart (.parameter (String.ofList chars.reverse))).stepPlain around c

/-- Reads a character inside the brackets of a substitution, which ends where they are balanced. -/
def stepInside (s : State) (around : Around) (bracket : Bracket) (depth : Nat) (chars : List Char)
    (c : Char) : State :=
  if c = bracket.opening then { s with mode := .inside around bracket (depth + 1) (c :: chars) }
  else if c = bracket.closing then
    match depth with
    | 0 => { s.addPart (bracket.part chars.reverse) with mode := around.mode }
    | depth + 1 => { s with mode := .inside around bracket depth (c :: chars) }
  else { s with mode := .inside around bracket depth (c :: chars) }

def step (s : State) (c : Char) : State :=
  match s.mode with
  | .gap => s.stepGap c
  | .comment => if c = '\n' then { s with mode := .gap, emitted := .newline :: s.emitted } else s
  | .gapEscape =>
    if c = '\n' then { s with mode := .gap }
    else { s.push c with mode := .word, quoted := true }
  | .word => s.stepWord c
  | .wordEscape =>
    if c = '\n' then { s with mode := .word }
    else { s.push c with mode := .word, quoted := true }
  | .single => if c = '\'' then { s with mode := .word } else s.push c
  | .double => s.stepDouble c
  | .doubleEscape =>
    match c with
    | '\n' => { s with mode := .double }
    | '"' | '\\' | '$' => { s.push c with mode := .double }
    | _ => { (s.push '\\').push c with mode := .double }
  | .dollar around => s.stepDollar around c
  | .name around chars => s.stepName around chars c
  | .inside around bracket depth chars => s.stepInside around bracket depth chars c

def finish (s : State) : Except LexError (List Token) :=
  match s.mode with
  | .gap | .comment => .ok s.tokens
  | .word => .ok s.endWord.tokens
  | .dollar .bare => .ok (s.push '$').endWord.tokens
  | .name .bare chars =>
    .ok (s.addPart (.parameter (String.ofList chars.reverse))).endWord.tokens
  | .gapEscape | .wordEscape => .error .escape
  | .single | .double | .doubleEscape | .dollar .quotes | .name .quotes _ => .error .quote
  | .inside _ bracket _ _ => .error bracket.unfinished

end State

def read (s : State) (cs : List Char) : State :=
  cs.foldl State.step s

@[simp] theorem read_nil (s : State) : read s [] = s := rfl

@[simp] theorem read_cons (s : State) (c : Char) (cs : List Char) :
    read s (c :: cs) = read (s.step c) cs := rfl

theorem read_append (s : State) (cs ds : List Char) : read s (cs ++ ds) = read (read s cs) ds := by
  simp [read]

end Lexer

def tokenize (text : String) : Except LexError (List Token) :=
  (Lexer.read {} text.toList).finish

def tokensBefore (text : String) : List Token :=
  (Lexer.read {} text.toList).tokens

end SessionShell
