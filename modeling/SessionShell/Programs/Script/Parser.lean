import SessionShell.Programs.Script.Word

/-! Reading scripts: lexemes, and the commands that they make. -/

namespace SessionShell.Programs

namespace Reader

def dropComment : Reader Unit := do
  let _ ← takeFront (· ≠ '\n')

/-- Skips blanks and comments, and tells the next character. The bound is greater than the length of
the text. -/
def skipBlanks : Nat → Reader (Option Char)
  | 0 => peek
  | bound + 1 => do
    match ← peek with
    | some c =>
      if c = ' ' || c = '\t' then
        let _ ← nextRaw
        skipBlanks bound
      else if c = '#' then
        dropComment
        skipBlanks bound
      else return some c
    | none => return none

/-- The direction of a redirection behind its first character. Lines from the script get the number
one for now if tabs in front of them are to be dropped. -/
def takeDirection (first : Char) : Reader Direction := do
  if first = '>' then
    if ← take? '>' then return .append
    else if ← take? '|' then return .replace
    else if ← take? '&' then return .same
    else return .output
  else if ← take? '<' then
    return .document (if ← take? '-' then 1 else 0)
  else if ← take? '&' then return .same
  else if ← take? '>' then return .both
  else return .input

def takeWord (inner : Inner) (verbatim : Bool) : Reader Lexeme := do
  modify fun r => { r with wordLine := r.line }
  let pieces ← takePieces inner verbatim (← bound) .bare
  match ← peek, Piece.plain? pieces with
  | some c, some digits =>
    if (c = '<' || c = '>') && digits.length ≤ 1 && digits.all Char.isDigit then
      let _ ← nextRaw
      let usual := if c = '<' then 0 else 1
      let descriptor := match digits with
        | [d] => digitValue d
        | _ => usual
      return .redirection descriptor (← takeDirection c)
    else return .word pieces
  | _, _ => return .word pieces

def takeLexeme (inner : Inner) (verbatim : Bool) : Reader Lexeme := do
  match ← skipBlanks (← bound) with
  | none => return .finish
  | some c =>
    let double (c : Char) (single twice : String) : Reader Lexeme := do
      let _ ← nextRaw
      return .operator (if ← take? c then twice else single)
    match c with
    | '\n' =>
      let _ ← nextRaw
      return .newline
    | '&' => double '&' "&" "&&"
    | '|' => double '|' "|" "||"
    | ';' => double ';' ";" ";;"
    | '(' | ')' =>
      let _ ← nextRaw
      return .operator (String.ofList [c])
    | _ => takeWord inner verbatim

def takeLine : Reader (Option (List Char × List Char)) := do
  let line ← takeFront (· ≠ '\n')
  match ← nextRaw, line with
  | none, [] => return none
  | ending, line => return some (line, ending.toList)

def isContinued (line : List Char) : Bool :=
  (line.reverse.takeWhile (· = '\\')).length % 2 = 1

/-- Takes lines up to the delimiter. `joined` says that the line goes on from the one before it. The
bound is greater than the length of the text. -/
def takeLines (a : Awaited) : Nat → Bool → Reader (List (List Char))
  | 0, _ => pure []
  | bound + 1, joined => do
    match ← takeLine with
    | none => return []
    | some (line, ending) =>
      let line := if a.strip && !joined then line.dropWhile (· = '\t') else line
      if line = a.delimiter && !joined then return []
      else return (line ++ ending) :: (← takeLines a bound (!a.literal && isContinued line))

def takeDocument (inner : Inner) (a : Awaited) : Reader Unit := do
  let line := (← get).line
  let lines ← takeLines a (← bound) false
  let text := lines.flatten
  let pieces ←
    if a.literal then pure [.text true text]
    else fun r =>
      let reading := { r.inside text with line, wordLine := line, isDocument := true }
      match takePieces inner false r.bound .document reading with
      | .error e => .error { e with left := r.left }
      | .ok (pieces, after) => .ok (pieces, { r with documents := after.documents })
  modify fun r => { r with documents := r.documents.setIfInBounds a.number pieces }

def takeDocuments (inner : Inner) : Reader Unit := do
  let awaited := (← get).awaited
  modify fun r => { r with awaited := [] }
  for a in awaited do
    takeDocument inner a

/-- What the next lexeme may be: newlines in front of it are skipped, and a word may be a reserved
one, or an alias. With `verbatim` nothing in a word is substituted. -/
structure Wanted where
  newlines : Bool := false
  keywords : Bool := false
  aliases : Bool := false
  verbatim : Bool := false

def Wanted.any : Wanted := { newlines := true, keywords := true, aliases := true }

def reservedWords : List String :=
  ["!", "case", "do", "done", "elif", "else", "esac", "fi", "for", "if", "in", "then", "until",
    "while", "\x7b", "\x7d"]

def takePushed (inner : Inner) (verbatim : Bool) : Reader Lexeme := do
  match (← get).pushed with
  | some l =>
    modify fun r => { r with pushed := none }
    return l
  | none => takeLexeme inner verbatim

def skipNewlines (inner : Inner) : Nat → Lexeme → Reader Lexeme
  | bound + 1, .newline => do
    takeDocuments inner
    skipNewlines inner bound (← takeLexeme inner false)
  | _, l => pure l

/-- Takes a lexeme. The texts of aliases are read in their places. -/
def takeWithin (inner : Inner) : Nat → Wanted → Reader Lexeme
  | 0, _ => fail "Command too long"
  | more + 1, w => do
    let l ← takePushed inner w.verbatim
    let l ← if w.newlines then skipNewlines inner (← bound) l else pure l
    let r ← get
    let w := { w with aliases := w.aliases || r.isChained }
    set { r with isChained := false }
    match l with
    | .word pieces =>
      match Piece.plain? pieces with
      | some cs =>
        let text := String.ofList cs
        if w.keywords && reservedWords.contains text then return .keyword text
        else match if w.aliases then r.alias? text else none with
          | some replacement =>
            modify fun r => r.open text replacement
            takeWithin inner more w
          | none => return l
      | none => return l
    | l => return l

def take (inner : Inner) (w : Wanted) : Reader Lexeme := do
  takeWithin inner (← bound) w

def push (l : Lexeme) : Reader Unit :=
  modify fun r => { r with pushed := some l }

end Reader

namespace Lexeme

def shown : Lexeme → String
  | .word _ => "word"
  | .keyword text | .operator text => "\"" ++ text ++ "\""
  | .redirection .. => "redirection"
  | .newline => "newline"
  | .finish => "end of file"

def endsList : Lexeme → Bool
  | .finish => true
  | .operator text => text = ";;" || text = ")"
  | .keyword text => ["do", "done", "elif", "else", "esac", "fi", "then", "\x7d"].contains text
  | _ => false

def isKeyword (l : Lexeme) (text : String) : Bool :=
  match l with
  | .keyword t => t = text
  | _ => false

def isOperator (l : Lexeme) (text : String) : Bool :=
  match l with
  | .operator t => t = text
  | _ => false

end Lexeme

/-- How far a list of commands reaches: to the end of a line; to a word or bracket that closes it,
with at least one command in front or even without one. -/
inductive Extent
  | line
  | nonempty
  | any
  deriving DecidableEq, Repr

structure Deeper where
  list : Extent → Reader (Option Script)
  command : Reader Script

namespace Deeper

def inner (d : Deeper) : Inner := fun parenthesis => do
  let body ← d.list .any
  if parenthesis then
    let l ← Reader.take (fun _ => Reader.fail "Word too long") {}
    if !l.isOperator ")" then
      Reader.fail (l.shown ++ " unexpected (expecting \")\")")
  return body.getD .nothing

variable (d : Deeper)

def take (w : Reader.Wanted) : Reader Lexeme :=
  Reader.take d.inner w

def unexpected {α : Type} (l : Lexeme) (expected : Option String) : Reader α :=
  Reader.fail (l.shown ++ " unexpected" ++ expected.elim "" fun e => " (expecting " ++ e ++ ")")

def expectKeyword (w : Reader.Wanted) (text : String) : Reader Unit := do
  let l ← d.take w
  if !l.isKeyword text then
    unexpected l (some ("\"" ++ text ++ "\""))

def body : Reader Script := do
  return (← d.list .nonempty).getD .nothing

def target (descriptor : Nat) (direction : Direction) : Reader Redirection := do
  let verbatim := direction matches .document _
  match ← d.take { verbatim } with
  | .word pieces =>
    if verbatim then
      let number := (← get).documents.size
      let delimiter := pieces.flatMap fun
        | .text _ cs => cs
        | _ => []
      modify fun r => { r with
        documents := r.documents.push []
        awaited := r.awaited ++ [⟨number, delimiter, Piece.isQuoted pieces, direction = .document 1⟩] }
      return .mk descriptor (.document number) []
    else return .mk descriptor direction pieces
  | l => unexpected l none

/-- Reads redirections behind a command. The bound is greater than the length of the text. -/
def redirections : Nat → Reader.Wanted → Reader (List Redirection)
  | 0, _ => pure []
  | bound + 1, w => do
    match ← d.take w with
    | .redirection descriptor direction =>
      let r ← d.target descriptor direction
      return r :: (← redirections bound {})
    | l =>
      Reader.push l
      return []

def isFunctionName (pieces : Pieces) : Option String :=
  (Piece.plain? pieces).bind fun cs =>
    let name := String.ofList cs
    if isNameChars cs && !specialCommands.contains name then some name else none

structure Simple where
  assignments : List Pieces := []
  words : List Pieces := []
  redirections : List Redirection := []

def simple (line : Nat) : Nat → Simple → Reader Script
  | 0, _ => Reader.fail "Command too long"
  | bound + 1, s => do
    let l ← d.take { aliases := s.words.isEmpty }
    let done : Reader Script := do
      Reader.push l
      return .command line s.assignments.reverse s.words.reverse s.redirections.reverse
    match l with
    | .word pieces =>
      if s.words.isEmpty && (Piece.assignment? pieces).isSome then
        simple line bound { s with assignments := pieces :: s.assignments }
      else simple line bound { s with words := pieces :: s.words }
    | .redirection descriptor direction =>
      let r ← d.target descriptor direction
      simple line bound { s with redirections := r :: s.redirections }
    | .operator "(" =>
      match s.words, s.assignments, s.redirections with
      | [pieces], [], [] =>
        let l ← d.take {}
        if !l.isOperator ")" then
          unexpected l (some "\")\"")
        else match isFunctionName pieces with
          | none => Reader.fail "Bad function name"
          | some name =>
            return .function name (← d.command)
      | _, _, _ => done
    | _ => done

def listedWords : Nat → Reader (List Pieces)
  | 0 => pure []
  | bound + 1 => do
    match ← d.take {} with
    | .word pieces => return pieces :: (← listedWords bound)
    | .newline =>
      Reader.push .newline
      return []
    | .operator ";" => return []
    | l => unexpected l none

def forLoop (line : Nat) : Reader Script := do
  match ← d.take {} with
  | .word pieces =>
    match Piece.plain? pieces with
    | some cs =>
      if !isNameChars cs then
        Reader.fail "Bad for loop variable"
      else
        let l ← d.take .any
        let words ←
          if l.isKeyword "in" then d.listedWords (← Reader.bound)
          else
            if !l.isOperator ";" then
              Reader.push l
            pure [[.text true [], .parameter true "@" .value false []]]
        d.expectKeyword .any "do"
        let body ← d.body
        d.expectKeyword {} "done"
        return .each line (String.ofList cs) words body
    | none => Reader.fail "Bad for loop variable"
  | _ => Reader.fail "Bad for loop variable"

def patternWord : Lexeme → Pieces
  | .word pieces => pieces
  | .keyword text => [.text false text.toList]
  | _ => []

def patterns : Nat → Lexeme → Reader (List Pieces)
  | 0, _ => pure []
  | bound + 1, l => do
    let next ← d.take {}
    if next.isOperator "|" then return patternWord l :: (← patterns bound (← d.take {}))
    else if next.isOperator ")" then return [patternWord l]
    else unexpected next (some "\")\"")

def arms : Nat → Reader (List Arm)
  | 0 => pure []
  | bound + 1 => do
    let l ← d.take { newlines := true, keywords := true }
    if l.isKeyword "esac" then return []
    else
      let l ← if l.isOperator "(" then d.take {} else pure l
      let patterns ← d.patterns (← Reader.bound) l
      let body := (← d.list .any).getD .nothing
      let arm : Arm := .mk patterns body
      let l ← d.take { newlines := true, keywords := true }
      if l.isKeyword "esac" then return [arm]
      else if l.isOperator ";;" then return arm :: (← arms bound)
      else unexpected l (some "\";;\"")

def conditional : Nat → Reader Script
  | 0 => Reader.fail "Command too long"
  | bound + 1 => do
    let test ← d.body
    d.expectKeyword {} "then"
    let yes ← d.body
    let l ← d.take {}
    if l.isKeyword "elif" then return .choice test yes (← conditional bound)
    else if l.isKeyword "else" then
      let no ← d.body
      d.expectKeyword {} "fi"
      return .choice test yes no
    else if l.isKeyword "fi" then return .choice test yes .nothing
    else unexpected l (some "\"fi\"")

def withRedirections (line : Nat) (body : Script) : Reader Script := do
  let rs ← d.redirections (← Reader.bound) { keywords := true, aliases := true }
  return if rs.isEmpty then body else match body with
    | .subshell line inside _ => .subshell line inside rs
    | body => .redirected line body rs

def commandOf (l : Lexeme) : Reader Script := do
  let line := (← get).line
  let loop (succeeds : Bool) : Reader Script := do
    let test ← d.body
    d.expectKeyword {} "do"
    let body ← d.body
    d.expectKeyword {} "done"
    d.withRedirections line (.loop succeeds test body)
  match l with
  | .keyword "if" => d.withRedirections line (← d.conditional (← Reader.bound))
  | .keyword "while" => loop true
  | .keyword "until" => loop false
  | .keyword "for" => d.withRedirections line (← d.forLoop line)
  | .keyword "case" =>
    match ← d.take {} with
    | .word subject =>
      d.expectKeyword .any "in"
      let arms ← d.arms (← Reader.bound)
      d.withRedirections line (.select line subject arms)
    | l => unexpected l (some "word")
  | .operator "(" =>
    let body ← d.body
    let l ← d.take {}
    if l.isOperator ")" then d.withRedirections line (.subshell line body [])
    else unexpected l (some "\")\"")
  | .keyword "\x7b" =>
    let body ← d.body
    d.expectKeyword {} "\x7d"
    d.withRedirections line body
  | .word _ | .redirection .. =>
    Reader.push l
    d.simple line (← Reader.bound) {}
  | l => unexpected l none

def stages : Nat → Reader (List Script)
  | 0 => pure []
  | bound + 1 => do
    let l ← d.take {}
    if l.isOperator "|" then
      let stage ← d.commandOf (← d.take .any)
      return stage :: (← stages bound)
    else
      Reader.push l
      return []

def pipeline (l : Lexeme) : Reader Script := do
  let negated := l.isKeyword "!"
  let l ← if negated then d.take { keywords := true, aliases := true } else pure l
  let first ← d.commandOf l
  let rest ← d.stages (← Reader.bound)
  let body := if rest.isEmpty then first else .pipeline (first :: rest)
  return if negated then .negated body else body

def chain : Nat → Script → Reader Script
  | 0, first => pure first
  | bound + 1, first => do
    let l ← d.take {}
    if l.isOperator "&&" then chain bound (.both first (← d.pipeline (← d.take .any)))
    else if l.isOperator "||" then chain bound (.either first (← d.pipeline (← d.take .any)))
    else
      Reader.push l
      return first

/-- Reads a list of commands behind those that are given. `checks` says that it may end here. -/
def listFrom (extent : Extent) : Nat → Bool → Option Script → Reader (Option Script)
  | 0, _, _ => Reader.fail "Command too long"
  | bound + 1, checks, before => do
    let l ← d.take { newlines := extent ≠ .line, keywords := true, aliases := true }
    match l with
    | .newline =>
      Reader.takeDocuments d.inner
      return some (before.getD .nothing)
    | .finish =>
      Reader.takeDocuments d.inner
      Reader.push .finish
      return before
    | l =>
      if checks && l.endsList then
        Reader.push l
        return before
      else
        let line := (← get).line
        let one ← d.chain (← Reader.bound) (← d.pipeline l)
        let l ← d.take {}
        let one := if l.isOperator "&" then .background line one else one
        let now := some (match before with
          | none => one
          | some script => .sequence script one)
        match l with
        | .finish =>
          Reader.takeDocuments d.inner
          Reader.push .finish
          return now
        | .newline =>
          Reader.push l
          listFrom extent bound (extent ≠ .line) now
        | .operator ";" | .operator "&" => listFrom extent bound (extent ≠ .line) now
        | l =>
          if extent = .line then unexpected l none
          else
            Reader.push l
            return now

def listOf (extent : Extent) : Reader (Option Script) := do
  d.listFrom extent (← Reader.bound) (extent = .any) none

def level : Nat → Deeper
  | 0 => ⟨fun _ => Reader.fail "Nested too deep", Reader.fail "Nested too deep"⟩
  | n + 1 =>
    let d := level n
    ⟨d.listOf, do d.commandOf (← d.take .any)⟩

def depth : Nat := 2000

def all : Deeper := level depth

end Deeper

def Reading.next (r : Reading) : Except SyntaxFault (Option Script × Reading) :=
  match Deeper.all.list .line { r with pushed := none, awaited := [] } with
  | .error e => .error e
  | .ok (script, r) => .ok (script, r)

end SessionShell.Programs
