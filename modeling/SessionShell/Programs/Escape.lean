import SessionShell.Programs.Raw

/-! Backslash escapes in the texts that programs write. -/

namespace SessionShell.Programs

inductive Dialect
  | shell
  | program
  deriving DecidableEq, Repr

inductive Escape
  | chars (text rest : List Char)
  | stop
  | wrong (message : String)

namespace Escape

def letter? : Char → Option Char
  | 'a' => some '\x07'
  | 'b' => some '\x08'
  | 'e' => some '\x1b'
  | 'f' => some '\x0c'
  | 'n' => some '\n'
  | 'r' => some '\r'
  | 't' => some '\t'
  | 'v' => some '\x0b'
  | '\\' => some '\\'
  | _ => none

def charOf (n : Nat) : Char :=
  Char.ofNat (n % 256)

def readOctal (cs : List Char) : Escape :=
  let digits := (cs.take 3).takeWhile isOctalDigit
  .chars [charOf (digitsValue 8 digits)] (cs.drop digits.length)

def missingDigits : Escape :=
  .wrong "missing hexadecimal number in escape"

/-- A Unicode character by its number, of exactly so many digits. One that is no ASCII character stays
written as an escape, since it is no byte. -/
def readUnicode (letter : Char) (count : Nat) (cs : List Char) : Escape :=
  let digits := (cs.take count).takeWhile isHexDigit
  let n := digitsValue 16 digits
  if digits.length < count then missingDigits
  else if n < 128 then .chars [charOf n] (cs.drop count)
  else if 0xD800 ≤ n && n ≤ 0xDFFF then
    .wrong ("invalid universal character name " ++ String.ofList ('\\' :: letter :: digits))
  else .chars ('\\' :: letter :: digits.map Char.toUpper) (cs.drop count)

def inFormat (d : Dialect) (cs : List Char) : Escape :=
  match cs with
  | [] => .chars ['\\'] []
  | c :: rest =>
    match letter? c with
    | some x => .chars [x] rest
    | none =>
      if isOctalDigit c then readOctal cs
      else if d = .shell then .chars ['\\'] cs
      else if c = '"' then .chars [c] rest
      else if c = 'c' then .stop
      else if c = 'x' then
        let digits := (rest.take 2).takeWhile isHexDigit
        if digits.isEmpty then missingDigits
        else .chars [charOf (digitsValue 16 digits)] (rest.drop digits.length)
      else if c = 'u' then readUnicode c 4 rest
      else if c = 'U' then readUnicode c 8 rest
      else .chars ['\\', c] rest

/-- Reads what follows a backslash in a text to be written, where an octal number may have one more
zero in front. -/
def inText (d : Dialect) (cs : List Char) : Escape :=
  match cs with
  | 'c' :: _ => .stop
  | '0' :: rest => readOctal rest
  | cs => inFormat d cs

/-- The characters of a text with its escapes replaced, and what ended them too early. The bound is
at least the length of the text. -/
def replaceAll (d : Dialect) : Nat → List Char → List Char × Option Escape
  | 0, _ => ([], none)
  | _, [] => ([], none)
  | bound + 1, '\\' :: rest =>
    match inText d rest with
    | .chars text rest =>
      let (more, ended) := replaceAll d bound rest
      (text ++ more, ended)
    | early => ([], some early)
  | bound + 1, c :: rest =>
    let (more, ended) := replaceAll d bound rest
    (c :: more, ended)

end Escape

end SessionShell.Programs
