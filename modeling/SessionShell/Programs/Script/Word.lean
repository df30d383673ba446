import SessionShell.Programs.Script.Basic

/-! Reading words: text, quotes and substitutions. -/

namespace SessionShell.Programs

structure SyntaxFault where
  line : Nat
  message : String
  left : List Char
  deriving DecidableEq, Repr

inductive Lexeme
  | word (pieces : Pieces)
  | keyword (text : String)
  | operator (text : String)
  | redirection (descriptor : Nat) (direction : Direction)
  | newline
  | finish

/-- A text of lines that a redirection asks for. It stands behind the next newline, up to the line
that is the delimiter. -/
structure Awaited where
  number : Nat
  delimiter : List Char
  literal : Bool
  strip : Bool

structure Opened where
  name : String
  behind : List Char
  isChained : Bool

structure Reading where
  rest : List Char
  size : Nat
  bound : Nat := size
  line : Nat := 1
  aliases : List (String × List Char) := []
  opened : List Opened := []
  spent : List String := []
  around : List String := []
  isChained : Bool := false
  isShown : Bool := false
  wordLine : Nat := 1
  pushed : Option Lexeme := none
  awaited : List Awaited := []
  isDocument : Bool := false
  documents : Array Pieces := #[]
  ended : Bool := false

abbrev Reader := StateT Reading (Except SyntaxFault)

namespace Reading

def ofText (text : Raw) : Reading :=
  { rest := text.toList, size := text.length + 3 }

def extend (r : Reading) (text : Raw) : Reading :=
  let size := r.size + text.length
  match r.opened.reverse with
  | [] => { r with rest := r.rest ++ text.toList, size }
  | o :: inner =>
    { r with opened := ({ o with behind := o.behind ++ text.toList } :: inner).reverse, size }

def left (r : Reading) : List Char :=
  (r.opened.getLast?.map (·.behind)).getD r.rest

/-- Takes notice of the aliases that there are. Each name in the text can stand for a text, whose names
stand for others. -/
def withAliases (r : Reading) (aliases : List (String × List Char)) : Reading :=
  { r with aliases, bound := aliases.foldl (fun n (_, text) => n * (text.length + 2)) r.size }

def close (r : Reading) : List Opened → Reading
  | [] => { r with opened := [] }
  | o :: opened =>
    if r.rest.isEmpty then
      close { r with
        rest := o.behind
        spent := o.name :: r.spent
        isChained := r.isChained || o.isChained } opened
    else { r with opened := o :: opened }

def settled (r : Reading) : Reading :=
  if r.rest.isEmpty && !r.opened.isEmpty then r.close r.opened else r

def busy (r : Reading) : List String :=
  r.opened.map (·.name) ++ r.spent ++ r.around

def alias? (r : Reading) (word : String) : Option (List Char) :=
  if r.busy.contains word then none else r.aliases.lookup word

def «open» (r : Reading) (name : String) (text : List Char) : Reading :=
  if text.isEmpty then r
  else
    let isChained := text.getLast?.any fun c => c = ' ' || c = '\t'
    { r with rest := text, opened := ⟨name, r.rest, isChained⟩ :: r.opened }

def inside (r : Reading) (text : List Char) : Reading :=
  { r with
    rest := text, opened := [], spent := [], around := r.busy, isChained := false, isShown := false
    awaited := [], isDocument := false }

def isAtEnd (r : Reading) : Bool :=
  match r.pushed with
  | some .finish => true
  | _ => false

end Reading

namespace Reader

def fail {α : Type} (message : String) : Reader α := fun r =>
  .error ⟨r.line, "Syntax error: " ++ message, r.left⟩

def failOpen {α : Type} : Reader α := fun r =>
  .error ⟨r.wordLine, "Syntax error: Missing '\x7d'", r.left⟩

def bound : Reader Nat := do
  return (← get).bound

def dropJoins : List Char → Nat → List Char × Nat
  | '\\' :: '\n' :: rest, line => dropJoins rest (line + 1)
  | cs, line => (cs, line)

def nextRaw : Reader (Option Char) := fun r =>
  let r := { r with spent := [] }.settled
  match r.rest with
  | [] => .ok (none, { r with ended := true })
  | c :: rest => .ok (some c, { r with rest, line := if c = '\n' then r.line + 1 else r.line })

def peek : Reader (Option Char) := fun r =>
  let r := r.settled
  let (rest, line) := dropJoins r.rest r.line
  let r := { r with rest, line }.settled
  .ok (r.rest.head?, { r with ended := r.ended || r.rest.isEmpty })

def next : Reader (Option Char) := do
  let _ ← peek
  nextRaw

def take? (c : Char) : Reader Bool := do
  if (← peek) = some c then
    let _ ← nextRaw
    return true
  else return false

/-- Puts characters back. They hold no newline. -/
def putBack (cs : List Char) : Reader Unit :=
  modify fun r => { r with rest := cs ++ r.rest }

/-- Takes the longest front whose characters satisfy `p`. The bound is at least the length of the
text. -/
def takeWhile (p : Char → Bool) : Nat → Reader (List Char)
  | 0 => pure []
  | bound + 1 => do
    match ← peek with
    | some c =>
      if p c then
        let _ ← nextRaw
        return c :: (← takeWhile p bound)
      else return []
    | none => return []

def takeName : Reader (List Char) := do
  takeWhile isNameChar (← bound)

/-- Takes the longest front whose characters satisfy `p`, in so many texts at most. A backslash is
nothing special. -/
def takeFrontIn (p : Char → Bool) : Nat → Reader (List Char)
  | 0 => pure []
  | texts + 1 => do
    let r ← get
    let front := r.rest.takeWhile p
    let rest := r.rest.drop front.length
    set { r with
      rest
      spent := if front.isEmpty then r.spent else []
      line := r.line + front.count '\n' }
    if rest.isEmpty && !r.opened.isEmpty then
      modify Reading.settled
      return front ++ (← takeFrontIn p texts)
    else return front

/-- Takes the longest front whose characters satisfy `p`. A backslash is nothing special. -/
def takeFront (p : Char → Bool) : Reader (List Char) := do
  takeFrontIn p ((← get).opened.length + 1)

end Reader

inductive Surrounding
  | bare
  | quotes
  | braces (quoted : Bool)
  | sums (opened : Nat)
  | document
  deriving DecidableEq, Repr

namespace Surrounding

def isQuoted : Surrounding → Bool
  | .bare | .braces false => false
  | _ => true

/-- The characters that a backslash makes ordinary. In front of all others it stands for itself;
without quotes it does so in front of none. -/
def escapes (s : Surrounding) (c : Char) : Bool :=
  !s.isQuoted || c = '\\' || c = '$' || c.toNat = 96 ||
    match s with
    | .document => false
    | .braces _ => c = '"' || c = '\x7d'
    | _ => c = '"'

end Surrounding

def isBreak (c : Char) : Bool :=
  " \t\n;&|<>()".toList.contains c

def isSpecialName (c : Char) : Bool :=
  "#?$!-*@".toList.contains c

namespace Piece

def consText (quoted : Bool) (front : List Char) : Pieces → Pieces
  | .text q cs :: rest => if q = quoted then .text q (front ++ cs) :: rest
      else .text quoted front :: .text q cs :: rest
  | rest => .text quoted front :: rest

end Piece

/-- The reader of commands inside substitutions: what follows up to a closing parenthesis, or to the
end of the text. -/
abbrev Inner := (parenthesis : Bool) → Reader Script

namespace Reader

/-- The text between backquotes, with its own backslashes dropped. The bound is at least the length
of the text. -/
def takeBackquoted (quoted : Bool) : Nat → Reader (List Char)
  | 0 => fail "EOF in backquote substitution"
  | bound + 1 => do
    match ← next with
    | none => fail "EOF in backquote substitution"
    | some '\\' =>
      match ← nextRaw with
      | none => fail "EOF in backquote substitution"
      | some c =>
        let rest ← takeBackquoted quoted bound
        if c = '\\' || c.toNat = 96 || c = '$' || quoted && c = '"' then return c :: rest
        else return '\\' :: c :: rest
    | some c =>
      if c.toNat = 96 then return []
      else return c :: (← takeBackquoted quoted bound)

def within (text : List Char) (inner : Reader Script) : Reader Script := fun r =>
  match inner (r.inside text) with
  | .error e => .error { e with left := r.left }
  | .ok (script, after) =>
    .ok (script, { r with documents := after.documents, pushed := none })

def closed (inner : Inner) : Reader Script := fun r =>
  match inner true { r with awaited := [], isDocument := false } with
  | .error e => .error e
  | .ok (script, after) =>
    .ok (script, { after with pushed := none, awaited := r.awaited, isDocument := r.isDocument })

/-- Reads the selector behind the name of a parameter in braces, and whether it asks for a value that
is not empty. -/
def takeSelector : Reader (Selector × Bool) := do
  match ← next with
  | some '%' => return (.cut true (← take? '%'), false)
  | some '#' => return (.cut false (← take? '#'), false)
  | some ':' => return (simple (← next), true)
  | c => return (simple c, false)
where
  simple : Option Char → Selector
    | some '-' => .orElse
    | some '=' => .orAssign
    | some '?' => .orFail
    | some '+' => .ifSet
    | _ => .unknown

/-- Reads a parameter behind its opening brace, up to the word of its selector; `none` stands for a
selector that needs no word, and then the closing brace has been taken. -/
def takeParameter : Reader (String × Option (Selector × Bool)) := do
  let select (name : List Char) : Reader (String × Option (Selector × Bool)) := do
    if ← take? '\x7d' then return (String.ofList name, none)
    else return (String.ofList name, some (← takeSelector))
  let measure (name : List Char) : Reader (String × Option (Selector × Bool)) := do
    return (String.ofList name, some (if (← peek) = some '\x7d' then .length else .unknown, false))
  match ← next with
  | none => failOpen
  | some c =>
    if isNameStart c then select (c :: (← takeName))
    else if c.isDigit then
      select (c :: (← takeWhile Char.isDigit (← bound)))
    else if c = '#' then
      match ← peek with
      | none => failOpen
      | some d =>
        if isNameStart d then measure (← takeName)
        else if d.isDigit then
          measure (← takeWhile Char.isDigit (← bound))
        else
          let _ ← nextRaw
          if d ≠ '\x7d' && (← peek) = some '\x7d' then
            return (String.ofList [d], some (if isSpecialName d then .length else .unknown, false))
          else
            putBack [d]
            select ['#']
    else if isSpecialName c then select [c]
    else
      if c = '\x7d' then
        putBack [c]
      return ("", some (.unknown, false))

def takeSingleQuoted : Reader (List Char) := do
  let inside ← takeFront (· ≠ '\'')
  if (← nextRaw).isNone then
    fail "Unterminated quoted string"
  return inside

def isOrdinary (c : Char) : Bool :=
  !isBreak c && c.toNat ≠ 96 && !"\\\"'$\x7b\x7d".toList.contains c

def finish : Surrounding → Reader Pieces
  | .bare | .document => do
    let _ ← nextRaw
    return []
  | .quotes | .braces true => do
    if (← get).isDocument then failOpen else fail "Unterminated quoted string"
  | .braces false => failOpen
  | .sums _ => fail "Missing '))'"

/-- Reads the pieces of a word as far as what surrounds them reaches. With `verbatim` nothing is
substituted. The bound is greater than the length of the text. -/
def takePieces (inner : Inner) (verbatim : Bool) : Nat → Surrounding → Reader Pieces
  | 0, _ => fail "Word too long"
  | bound + 1, s => do
    let go := takePieces inner verbatim bound
    let ordinary (c : Char) (s : Surrounding) : Reader Pieces := do
      let front ← takeFront isOrdinary
      return Piece.consText s.isQuoted (c :: front) (← go s)
    match ← peek with
    | none => finish s
    | some c =>
      if s = .bare && isBreak c then return []
      else
        let _ ← nextRaw
        if c = '\\' then
          match ← nextRaw with
          | none => return Piece.consText true ['\\'] (← go s)
          | some d =>
            let rest ← go s
            return Piece.consText true (if s.escapes d then [d] else ['\\', d]) rest
        else if c = '"' && (s = .bare || s = .braces false || s = .braces true) then
          let inside ← go .quotes
          return .text true [] :: inside ++ (← go s)
        else if c = '"' && s = .quotes then return []
        else if c = '\'' && !s.isQuoted then
          let inside ← takeSingleQuoted
          return .text true inside :: (← go s)
        else if c = '\x7d' && (s = .braces true || s = .braces false) then return []
        else if c.toNat = 96 && !verbatim then
          let code ← takeBackquoted s.isQuoted (← Reader.bound)
          let body ← within code (inner false)
          return .command s.isQuoted body :: (← go s)
        else if c = '$' && !verbatim then
          match ← peek with
          | some '(' =>
            let _ ← nextRaw
            if ← take? '(' then
              let inside ← go (.sums 0)
              return .arithmetic s.isQuoted inside :: (← go s)
            else
              let body ← closed inner
              return .command s.isQuoted body :: (← go s)
          | some '\x7b' =>
            let _ ← nextRaw
            match ← takeParameter with
            | (name, none) => return .parameter s.isQuoted name .value false [] :: (← go s)
            | (name, some (selector, nonempty)) =>
              let cuts := match selector with
                | .cut _ _ => true
                | _ => false
              let word ← go (.braces (s.isQuoted && !cuts))
              return .parameter s.isQuoted name selector nonempty word :: (← go s)
          | some d =>
            if isNameStart d then
              let name ← takeName
              return .parameter s.isQuoted (String.ofList name) .value false [] :: (← go s)
            else if d.isDigit || isSpecialName d then
              let _ ← nextRaw
              return .parameter s.isQuoted (String.ofList [d]) .value false [] :: (← go s)
            else ordinary c s
          | none => ordinary c s
        else match s, c with
          | .sums opened, '(' => ordinary c (.sums (opened + 1))
          | .sums 0, ')' =>
            if ← take? ')' then return [] else ordinary c s
          | .sums (opened + 1), ')' => ordinary c (.sums opened)
          | s, c => ordinary c s

end Reader

end SessionShell.Programs
