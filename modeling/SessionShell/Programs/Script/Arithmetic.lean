import SessionShell.Programs.Numeral
import SessionShell.Programs.Script.State

/-! Arithmetic in scripts: expressions on integers of 64 bits, with assignments. -/

namespace SessionShell.Programs

inductive BinaryOperator
  | times | divide | remainder
  | plus | minus
  | left | right
  | less | atMost | greater | atLeast
  | equal | unequal
  | bitAnd
  | bitXor
  | bitOr
  deriving DecidableEq, Repr

inductive UnaryOperator
  | negate | logicalNot | complement
  deriving DecidableEq, Repr

namespace BinaryOperator

def sign : BinaryOperator → String
  | .times => "*"
  | .divide => "/"
  | .remainder => "%"
  | .plus => "+"
  | .minus => "-"
  | .left => "<<"
  | .right => ">>"
  | .less => "<"
  | .atMost => "<="
  | .greater => ">"
  | .atLeast => ">="
  | .equal => "=="
  | .unequal => "!="
  | .bitAnd => "&"
  | .bitXor => "^"
  | .bitOr => "|"

def reach : BinaryOperator → Nat
  | .times | .divide | .remainder => 1
  | .plus | .minus => 2
  | .left | .right => 3
  | .less | .atMost | .greater | .atLeast => 4
  | .equal | .unequal => 5
  | .bitAnd => 6
  | .bitXor => 7
  | .bitOr => 8

def assigning : List BinaryOperator :=
  [.left, .right, .times, .divide, .remainder, .plus, .minus, .bitAnd, .bitXor, .bitOr]

def all : List BinaryOperator :=
  [.left, .right, .atMost, .atLeast, .equal, .unequal, .times, .divide, .remainder, .plus, .minus,
    .less, .greater, .bitAnd, .bitXor, .bitOr]

def apply (op : BinaryOperator) (a b : Int) : Option Int :=
  let truth (p : Bool) : Int := if p then 1 else 0
  let bits (f : BitVec 64 → BitVec 64 → BitVec 64) : Int :=
    (f (BitVec.ofInt 64 a) (BitVec.ofInt 64 b)).toInt
  let amount := (b % 64).toNat
  match op with
  | .times => some (Numeral.wrap (a * b))
  | .divide => if b = 0 then none else some (Numeral.wrap (a.tdiv b))
  | .remainder => if b = 0 then none else some (a.tmod b)
  | .plus => some (Numeral.wrap (a + b))
  | .minus => some (Numeral.wrap (a - b))
  | .left => some (Numeral.wrap (a <<< amount))
  | .right => some (a >>> amount)
  | .less => some (truth (a < b))
  | .atMost => some (truth (a ≤ b))
  | .greater => some (truth (b < a))
  | .atLeast => some (truth (b ≤ a))
  | .equal => some (truth (a = b))
  | .unequal => some (truth (a ≠ b))
  | .bitAnd => some (bits (· &&& ·))
  | .bitXor => some (bits (· ^^^ ·))
  | .bitOr => some (bits (· ||| ·))

end BinaryOperator

def UnaryOperator.apply : UnaryOperator → Int → Int
  | .negate, a => Numeral.wrap (-a)
  | .logicalNot, a => if a = 0 then 1 else 0
  | .complement, a => -a - 1

inductive Expression
  | number (n : Int)
  | name (x : String)
  | unary (op : UnaryOperator) (a : Expression)
  | binary (op : BinaryOperator) (a b : Expression)
  | and (a b : Expression)
  | or (a b : Expression)
  | choice (test yes no : Expression)
  | assign (x : String) (op : Option BinaryOperator) (a : Expression)
  | broken (front : Expression) (message : String)

namespace Expression

inductive Token
  | number (n : Int)
  | name (x : String)
  | binary (op : BinaryOperator)
  | assign (op : Option BinaryOperator)
  | sign (text : String)
  | unknown
  deriving DecidableEq, Repr

/-- Operators and signs by their texts. Of two that begin alike the longer one comes first. -/
def symbols : List (List Char × Token) :=
  BinaryOperator.assigning.map (fun op => (op.sign.toList ++ ['='], .assign (some op))) ++
  ["&&", "||"].map (fun s => (s.toList, .sign s)) ++
  BinaryOperator.all.map (fun op => (op.sign.toList, .binary op)) ++
  [(['='], .assign none)] ++
  ["!", "~", "?", ":", "(", ")"].map fun s => (s.toList, .sign s)

/-- Reads the tokens of a text. Nothing is read behind an unknown character. The bound is greater than
the length of the text. -/
def tokens : Nat → List Char → List Token
  | 0, _ => []
  | _, [] => []
  | bound + 1, c :: rest =>
    if c = ' ' || c = '\t' || c = '\n' then tokens bound rest
    else if c.isDigit then
      match Numeral.readInteger none (c :: rest) with
      | some (n, rest) => .number (Numeral.clamp n) :: tokens bound rest
      | none => [.unknown]
    else if isNameStart c then
      let name := c :: rest.takeWhile isNameChar
      .name (String.ofList name) :: tokens bound (rest.drop (name.length - 1))
    else match symbols.find? fun (text, _) => text.isPrefixOf (c :: rest) with
      | some (text, token) => token :: tokens bound (rest.drop (text.length - 1))
      | none => [.unknown]

inductive Part
  | whole
  | choice
  | either
  | both
  | operation (limit : Nat)
  | operators (limit : Nat) (a : Expression)
  | value

/-- Reads a part at the front of tokens. Behind an error nothing is left. The bound is greater than
eight times the number of the tokens. -/
def read : Nat → Part → List Token → Expression × List Token
  | 0, _, _ => (.broken (.number 0) "expecting primary", [])
  | bound + 1, .whole, ts =>
    match ts with
    | .name x :: .assign op :: rest =>
      let (a, rest) := read bound .whole rest
      (.assign x op a, rest)
    | ts => read bound .choice ts
  | bound + 1, .choice, ts =>
    let (test, rest) := read bound .either ts
    match rest with
    | .sign "?" :: rest =>
      let (yes, rest) := read bound .whole rest
      match rest with
      | .sign ":" :: rest =>
        let (no, rest) := read bound .choice rest
        (.choice test yes no, rest)
      | _ => (.choice test (.broken yes "expecting ':'") (.number 0), [])
    | rest => (test, rest)
  | bound + 1, .either, ts =>
    let (a, rest) := read bound .both ts
    match rest with
    | .sign "||" :: rest =>
      let (b, rest) := read bound .either rest
      (.or a b, rest)
    | rest => (a, rest)
  | bound + 1, .both, ts =>
    let (a, rest) := read bound (.operation 9) ts
    match rest with
    | .sign "&&" :: rest =>
      let (b, rest) := read bound .both rest
      (.and a b, rest)
    | rest => (a, rest)
  | bound + 1, .operation limit, ts =>
    let (a, rest) := read bound .value ts
    read bound (.operators limit a) rest
  | bound + 1, .operators limit a, ts =>
    match ts with
    | .binary op :: rest =>
      if op.reach < limit then
        let (b, rest) := read bound (.operation op.reach) rest
        read bound (.operators limit (.binary op a b)) rest
      else (a, ts)
    | ts => (a, ts)
  | bound + 1, .value, ts =>
    let unary (op : UnaryOperator) (rest : List Token) : Expression × List Token :=
      let (a, rest) := read bound .value rest
      (.unary op a, rest)
    match ts with
    | .number n :: rest => (.number n, rest)
    | .name x :: rest => (.name x, rest)
    | .binary .plus :: rest => read bound .value rest
    | .binary .minus :: rest => unary .negate rest
    | .sign "!" :: rest => unary .logicalNot rest
    | .sign "~" :: rest => unary .complement rest
    | .sign "(" :: rest =>
      let (a, rest) := read bound .whole rest
      match rest with
      | .sign ")" :: rest => (a, rest)
      | _ => (.broken a "expecting ')'", [])
    | _ => (.broken (.number 0) "expecting primary", [])

def ofText (text : List Char) : Expression :=
  let ts := tokens (text.length + 1) text
  match read (8 * ts.length + 9) .whole ts with
  | (a, []) => a
  | (a, _) => .broken a "expecting EOF"

def numberOf (x : String) : Step Int := do
  let text := (← get).valueOf x
  match Numeral.readInteger none text.toList with
  | some (n, rest) =>
    if rest.all isSpace && Numeral.clamp n = n then return n
    else ShellRun.fail ("Illegal number: " ++ text)
  | none =>
    if text.toList.all isSpace then return 0
    else ShellRun.fail ("Illegal number: " ++ text)

/-- The value of an expression. What is not `live` is only looked through for errors. -/
def evaluate (text : Raw) (live : Bool) : Expression → Step Int
  | .number n => return n
  | .name x => if live then numberOf x else return 0
  | .unary op a => return op.apply (← evaluate text live a)
  | .binary op a b => do
    let a ← evaluate text live a
    let b ← evaluate text live b
    if live then result op a b else return 0
  | .and a b => do
    let a ← evaluate text live a
    let b ← evaluate text (live && a ≠ 0) b
    return if a ≠ 0 && b ≠ 0 then 1 else 0
  | .or a b => do
    let a ← evaluate text live a
    let b ← evaluate text (live && a = 0) b
    return if a ≠ 0 || b ≠ 0 then 1 else 0
  | .choice test yes no => do
    let test ← evaluate text live test
    let yes ← evaluate text (live && test ≠ 0) yes
    let no ← evaluate text (live && test = 0) no
    return if test ≠ 0 then yes else no
  | .assign x op a => do
    let a ← evaluate text live a
    if live then
      let n ← match op with
        | some op => result op (← numberOf x) a
        | none => pure a
      ShellRun.setVariable x (Text.decimal n) false
      return n
    else return 0
  | .broken a message => do
    let _ ← evaluate text live a
    fault message
where
  fault {α : Type} (message : String) : Step α :=
    ShellRun.fail ("arithmetic expression: " ++ message ++ ": \"" ++ text ++ "\"")
  result (op : BinaryOperator) (a b : Int) : Step Int :=
    match op.apply a b with
    | some n => pure n
    | none => fault "division by zero"

end Expression

end SessionShell.Programs
