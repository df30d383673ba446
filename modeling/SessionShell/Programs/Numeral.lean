import SessionShell.Programs.Raw
import SessionShell.Text.Decimal

/-! Numbers as programs read them at the front of a text. -/

namespace SessionShell.Programs.Numeral

def readSign : List Char → Bool × List Char
  | '-' :: rest => (true, rest)
  | '+' :: rest => (false, rest)
  | cs => (false, cs)

def isDigitOf (base : Nat) (c : Char) : Bool :=
  if base = 16 then isHexDigit c else c.isDigit && digitValue c < base

/-- The base that the front of a number announces, and the rest: sixteen after `0x` in front of a
digit, eight after a zero, else ten. -/
def readBase : List Char → Nat × List Char
  | '0' :: x :: c :: rest =>
    if (x = 'x' || x = 'X') && isHexDigit c then (16, c :: rest) else (8, '0' :: x :: c :: rest)
  | '0' :: rest => (8, '0' :: rest)
  | cs => (10, cs)

/-- The integer at the front of a text, behind white space, and the rest. Without a base the number
announces its own. -/
def readInteger (base : Option Nat) (cs : List Char) : Option (Int × List Char) :=
  let (negative, unsigned) := readSign (cs.dropWhile isSpace)
  let (base, body) := match base with
    | some base => (base, unsigned)
    | none => readBase unsigned
  let digits := body.takeWhile (isDigitOf base)
  if digits.isEmpty then none
  else
    let n : Int := digitsValue base digits
    some (if negative then -n else n, body.drop digits.length)

def greatest : Int := 9223372036854775807

def least : Int := -9223372036854775808

def clamp (n : Int) : Int :=
  if n < least then least else if greatest < n then greatest else n

def modulus : Nat := 18446744073709551616

def wrap (n : Int) : Int :=
  n.bmod modulus

def readNat (r : Raw) : Option Nat :=
  let cs := r.toList
  if !cs.isEmpty && cs.all Char.isDigit then some (digitsValue 10 cs) else none

example : ["0x1Fz", "-010", " 7", "08", "0xg"].map (fun s => readInteger none s.toList) =
    [some (31, ['z']), some (-8, []), some (7, []), some (0, ['8']), some (0, ['x', 'g'])] := by
  decide +kernel

end SessionShell.Programs.Numeral
