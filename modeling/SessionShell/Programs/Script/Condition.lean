import SessionShell.Programs.Script.Arithmetic

/-! Conditions, as the command `test` decides them. -/

namespace SessionShell.Programs.Condition

inductive Token
  | finish
  | operand
  | unary (letter : Char)
  | binary (sign : String)
  | negation
  | conjunction
  | disjunction
  | opening
  | closing
  deriving DecidableEq, Repr

def unaryLetters : List Char :=
  "rwxefdcbpugkstznhOGLS".toList

def binarySigns : List String :=
  ["=", "!=", "<", ">", "-eq", "-ne", "-ge", "-gt", "-le", "-lt", "-nt", "-ot", "-ef"]

def operator? (w : Raw) : Option Token :=
  match w.toList with
  | ['!'] => some .negation
  | ['('] => some .opening
  | [')'] => some .closing
  | ['-', 'a'] => some .conjunction
  | ['-', 'o'] => some .disjunction
  | ['-', c] => if unaryLetters.contains c then some (.unary c) else none
  | _ => if binarySigns.contains w then some (.binary w) else none

def isBinary (w : Raw) : Bool :=
  match operator? w with
  | some (.binary _) => true
  | _ => false

/-- What the first of some words is. A unary operator in front of nothing, or of a binary operator and
another word, is an operand; so is an opening parenthesis in front of nothing. -/
def token : List Raw → Token
  | [] => .finish
  | w :: rest =>
    match operator? w, rest with
    | none, _ => .operand
    | some (.unary letter), rest =>
      match rest with
      | [] => .operand
      | next :: _ :: _ => if isBinary next then .operand else .unary letter
      | [_] => .unary letter
    | some .opening, [] => .operand
    | some t, _ => t

def integer (w : Raw) : Step Int :=
  match Numeral.readInteger (some 10) w.toList with
  | some (n, rest) =>
    if rest.all isSpace && Numeral.clamp n = n then pure n
    else ShellRun.fail ("Illegal number: " ++ w)
  | none => ShellRun.fail ("Illegal number: " ++ w)

def entry? (r : ShellRun) (path : Raw) : Option Entry :=
  (r.world.files.find r.process.directory (Raw.text path)).toOption

def holds (r : ShellRun) (letter : Char) (path : Raw) : Bool :=
  let entry := entry? r path
  match letter, entry with
  | 'h', _ | 'L', _ =>
    match r.world.files.place r.process.directory (Raw.text path) .keepLink with
    | .ok place => match r.world.files.entry? place with
      | some (.link _) => true
      | _ => false
    | .error _ => false
  | _, none => false
  | 'f', some (.file _ _) | 'f', some (.installed _) => true
  | 'd', some .directory => true
  | 'c', some .null => true
  | 'x', some (.file _ executable) => executable
  | 'x', some entry => entry ≠ .null
  | 's', some (.file content _) => !content.isEmpty
  | 's', some entry => entry ≠ .null
  | letter, some _ => "rweOG".toList.contains letter

def unary (letter : Char) (w : Raw) : Step Bool := do
  match letter with
  | 'z' => return w = ""
  | 'n' => return w ≠ ""
  | 't' => do
    let _ ← integer w
    return false
  | letter => return holds (← get) letter w

def binary (sign : String) (a b : Raw) : Step Bool := do
  let compare (p : Int → Int → Bool) : Step Bool := do
    let a ← integer a
    return p a (← integer b)
  match sign with
  | "=" => return a = b
  | "!=" => return a ≠ b
  | "<" => return a < b
  | ">" => return b < a
  | "-eq" => compare (· = ·)
  | "-ne" => compare (· ≠ ·)
  | "-ge" => compare (· ≥ ·)
  | "-gt" => compare (· > ·)
  | "-le" => compare (· ≤ ·)
  | "-lt" => compare (· < ·)
  | "-ef" => do
    let r ← get
    let place (w : Raw) : Option Place :=
      (r.world.files.place r.process.directory (Raw.text w) .find).toOption.filter fun place =>
        (r.world.files.entry? place).isSome
    return (place a).isSome && place a = place b
  | _ => return false

def refuse {α : Type} (sign : String) (message : String) : Step α :=
  ShellRun.fail ((if sign = "" then "" else sign ++ ": ") ++ message)

inductive Part
  | disjunction
  | conjunction
  | negation
  | primary

/-- Decides a part that begins with the first of some words, which is such a token. The result is with
the words from the last one on that the part took. The bound is greater than four times the number of
the words. -/
def decide : Nat → Part → Token → List Raw → Step (Bool × List Raw)
  | 0, _, _, ws => pure (false, ws)
  | bound + 1, .disjunction, t, ws => do
    let (a, ws) ← decide bound .conjunction t ws
    if token (ws.drop 1) = .disjunction then
      let (b, ws) ← decide bound .disjunction (token (ws.drop 2)) (ws.drop 2)
      return (a || b, ws)
    else return (a, ws)
  | bound + 1, .conjunction, t, ws => do
    let (a, ws) ← decide bound .negation t ws
    if token (ws.drop 1) = .conjunction then
      let (b, ws) ← decide bound .conjunction (token (ws.drop 2)) (ws.drop 2)
      return (a && b, ws)
    else return (a, ws)
  | bound + 1, .negation, t, ws => do
    if t = .negation then
      let next := token (ws.drop 1)
      let (a, ws) ← decide bound .negation next (if next = .finish then ws else ws.drop 1)
      return (!a, ws)
    else decide bound .primary t ws
  | bound + 1, .primary, t, ws => do
    match t with
    | .finish => return (false, ws)
    | .opening =>
      let inside := ws.drop 1
      if token inside = .closing then return (false, inside)
      else
        let (a, ws) ← decide bound .disjunction (token inside) inside
        if token (ws.drop 1) = .closing then return (a, ws.drop 1)
        else refuse "" "closing paren expected"
    | .unary letter =>
      match ws.drop 1 with
      | [] => refuse (String.ofList ['-', letter]) "argument expected"
      | w :: rest => return (← unary letter w, w :: rest)
    | _ =>
      match ws with
      | a :: sign :: rest =>
        match token (sign :: rest) with
        | .binary sign =>
          match rest with
          | b :: rest => return (← binary sign a b, b :: rest)
          | [] => refuse sign "argument expected"
        | _ => return (a ≠ "", ws)
      | _ => return (ws.headD "" ≠ "", ws)

def decideWhole (ws : List Raw) : Step Bool := do
  let begin (t : Token) (ws : List Raw) : Step Bool := do
    let (result, left) ← decide (4 * ws.length + 8) .disjunction t ws
    match left with
    | w :: _ :: _ => refuse w "unexpected operator"
    | _ => return result
  match ws with
  | [] => return false
  | [_, sign, _] => if isBinary sign then begin .operand ws else begin' ws begin
  | ws => begin' ws begin
where
  begin' (ws : List Raw) (begin : Token → List Raw → Step Bool) : Step Bool := do
    let inner := ws.drop 1
    if ws.length = 3 || ws.length = 4 then
      if ws.head? = some "(" && ws.getLast? = some ")" then
        begin (token inner.dropLast) inner.dropLast
      else if ws.head? = some "!" then
        match inner with
        | [_, sign, _] =>
          if isBinary sign then return !(← begin .operand inner)
          else return !(← begin (token inner) inner)
        | inner => return !(← begin (token inner) inner)
      else begin (token ws) ws
    else begin (token ws) ws

end SessionShell.Programs.Condition
