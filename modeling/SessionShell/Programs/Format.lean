import SessionShell.Programs.Escape
import SessionShell.Programs.Quoting
import SessionShell.Programs.Real

/-! Formats: texts with escapes, and with fields that arguments are put into. A format is used again
as long as arguments are left. -/

namespace SessionShell.Programs

structure Field where
  left : Bool := false
  zeros : Bool := false
  plus : Bool := false
  space : Bool := false
  alternate : Bool := false
  grouped : Bool := false
  width : Nat := 0
  precision : Option Nat := none
  dotted : Bool := false

namespace Field

def pad (f : Field) (zeros : Bool) (sign body : List Char) : List Char :=
  let missing (c : Char) : List Char := List.replicate (f.width - (sign.length + body.length)) c
  if f.left then sign ++ body ++ missing ' '
  else if zeros && f.zeros then sign ++ missing '0' ++ body
  else missing ' ' ++ sign ++ body

def text (f : Field) (cs : List Char) : List Char :=
  f.pad false [] (match f.precision with
    | some n => cs.take n
    | none => cs)

def sign (f : Field) (negative : Bool) : List Char :=
  if negative then ['-'] else if f.plus then ['+'] else if f.space then [' '] else []

def integer (f : Field) (letter : Char) (n : Int) : List Char :=
  let base := if letter = 'o' then 8 else if letter.toLower = 'x' then 16 else 10
  let shown := Nat.toDigits base n.natAbs
  let shown := if letter = 'X' then shown.map Char.toUpper else shown
  let shown := if n = 0 && f.precision = some 0 then [] else shown
  let shown := List.replicate (f.precision.getD 1 - shown.length) '0' ++ shown
  let shown := if letter = 'o' && f.alternate && shown.head? ≠ some '0' then '0' :: shown else shown
  let front :=
    if letter = 'd' || letter = 'i' then f.sign (n < 0)
    else if f.alternate && base = 16 && n ≠ 0 then ['0', letter]
    else []
  f.pad f.precision.isNone front shown

def real (f : Field) (p : Precision) (letter : Char) (r : Real) : List Char :=
  let finite := match r with
    | .finite .. => true
    | _ => false
  let front := if !finite then []
    else if letter = 'a' then ['0', 'x']
    else if letter = 'A' then ['0', 'X']
    else []
  f.pad finite (f.sign r.isNegative ++ front) (r.format p letter f.precision f.alternate)

def withFlag (f : Field) : Char → Field
  | '-' => { f with left := true }
  | '0' => { f with zeros := true }
  | '+' => { f with plus := true }
  | ' ' => { f with space := true }
  | '#' => { f with alternate := true }
  | '\'' | 'I' => { f with grouped := true }
  | _ => f

def suits (f : Field) (letter : Char) : Bool :=
  !(f.grouped && "aAceEosxX".toList.contains letter ||
    f.alternate && "cdisu".toList.contains letter ||
    f.zeros && "cs".toList.contains letter ||
    f.dotted && letter = 'c')

def withWidth (f : Field) (n : Int) : Field :=
  { f with width := n.natAbs, left := f.left || n < 0 }

end Field

inductive Early
  | stopped
  | refused (message : Raw)

/-- How far a format has been written: the arguments left, the parts written and the warnings, both
the newest first. -/
structure Formatting where
  arguments : List Raw
  parts : List (List Char) := []
  warnings : List Raw := []
  early : Option Early := none

namespace Formatting

def put (s : Formatting) (cs : List Char) : Formatting :=
  { s with parts := cs :: s.parts }

def stop (s : Formatting) (e : Early) : Formatting :=
  { s with early := some e }

def next (s : Formatting) : Raw × Formatting :=
  (s.arguments.headD "", { s with arguments := s.arguments.drop 1 })

def warnOf (d : Dialect) (argument : Raw) (found : Bool) : Raw :=
  match d with
  | .shell => argument ++ ": " ++ (if found then "not completely converted"
      else "expected numeric value")
  | .program => quoteText argument ++ ": " ++ (if found then "value not completely converted"
      else "expected a numeric value")

/-- Takes a number from the next argument. A quote in front of a character stands for its number. What
is read is a number, whether it is in range, and the rest of the text. -/
def nextNumber {α : Type} (d : Dialect) (zero : α) (ofChar : Char → α)
    (read : List Char → Option (α × Bool × List Char)) (s : Formatting) : α × Formatting :=
  let (argument, s) := s.next
  let warn (message : Raw) : Formatting := { s with warnings := message :: s.warnings }
  let plain : α × Formatting :=
    match read argument.toList with
    | none => (zero, if argument = "" then s else warn (warnOf d argument false))
    | some (n, inRange, rest) =>
      (n, if !inRange && (rest.isEmpty || d = .program) then
          warn ((if d = .shell then argument else quoteText argument) ++
            ": Numerical result out of range")
        else if rest.isEmpty then s
        else warn (warnOf d argument true))
  match argument.toList with
  | q :: rest =>
    if q = '"' || q = '\'' then
      match rest with
      | c :: more =>
        (ofChar c, if d = .shell || more.isEmpty then s
          else warn ("warning: " ++ String.ofList more ++
            ": character(s) following character constant have been ignored"))
      | [] => if d = .shell then (zero, s) else plain
    else plain
  | [] => plain

def nextInteger (d : Dialect) (s : Formatting) : Int × Formatting :=
  let read (cs : List Char) : Option (Int × Bool × List Char) :=
    (Numeral.readInteger none cs).map fun (n, rest) =>
      (Numeral.clamp n, Numeral.clamp n = n, rest)
  nextNumber d 0 (fun c => (c.toNat : Int)) read s

def nextUnsigned (d : Dialect) (s : Formatting) : Int × Formatting :=
  let read (cs : List Char) : Option (Int × Bool × List Char) :=
    (Numeral.readInteger none cs).map fun (n, rest) =>
      let inRange := n.natAbs < Numeral.modulus
      (if inRange then n % Numeral.modulus else Numeral.modulus - 1, inRange, rest)
  nextNumber d 0 (fun c => (c.toNat : Int)) read s

def precisionOf : Dialect → Precision
  | .shell => .double
  | .program => .extended

def nextReal (d : Dialect) (s : Formatting) : Real × Formatting :=
  nextNumber d (.finite false 0 1) (fun c => .finite false c.toNat 1) (Real.read (precisionOf d)) s

/-- Digits, or a star for the next argument. What is larger than `limit` is refused. -/
def readAmount (d : Dialect) (what : Raw) (limit : Int → Bool) (cs : List Char) (s : Formatting) :
    Int × List Char × Formatting :=
  match cs with
  | '*' :: rest =>
    let argument := s.next.1
    let (n, s) := s.nextInteger d
    if d = .program && limit n then
      (0, rest, s.stop (.refused ("invalid " ++ what ++ ": " ++ quoteText argument)))
    else (n, rest, s)
  | cs =>
    let digits := cs.takeWhile Char.isDigit
    (digitsValue 10 digits, cs.drop digits.length, s)

def readField (d : Dialect) (cs : List Char) (s : Formatting) : Field × List Char × Formatting :=
  let known := if d = .shell then "#-+ 0" else "#-+ 0'I"
  let flags := cs.takeWhile known.toList.contains
  let greatest : Int := 2147483647
  let (width, cs, s) :=
    readAmount d "field width" (fun n => n < -greatest - 1 || greatest < n) (cs.drop flags.length) s
  let field := (flags.foldl Field.withFlag {}).withWidth width
  match cs with
  | '.' :: cs =>
    let (n, cs, s) := readAmount d "precision" (greatest < ·) cs s
    ({ field with precision := if n < 0 then none else some n.toNat, dotted := true }, cs, s)
  | cs => (field, cs, s)

def writeField (d : Dialect) (f : Field) (plain : Bool) (letter : Char) (s : Formatting) :
    Option Formatting :=
  if letter = 's' then
    let (argument, s) := s.next
    some (s.put (f.text argument.toList))
  else if letter = 'c' then
    let (argument, s) := s.next
    some (s.put (f.pad false [] [argument.toList.headD (Char.ofNat 0)]))
  else if letter = 'b' && (d = .shell || plain) then
    let (argument, s) := s.next
    let (cs, ended) := Escape.replaceAll d argument.length argument.toList
    let s := s.put (f.text cs)
    some (match ended with
      | none => s
      | some (.wrong message) => s.stop (.refused message)
      | some _ => s.stop .stopped)
  else if letter = 'q' && d = .program && plain then
    let (argument, s) := s.next
    some (s.put (quoteName false argument).toList)
  else if letter = 'd' || letter = 'i' then
    let (n, s) := s.nextInteger d
    some (s.put (f.integer letter n))
  else if "ouxX".toList.contains letter then
    let (n, s) := s.nextUnsigned d
    some (s.put (f.integer letter n))
  else if "aAeEfFgG".toList.contains letter then
    let (r, s) := s.nextReal d
    some (s.put (f.real (precisionOf d) letter r))
  else none

/-- Writes a format once. The bound is at least its length. -/
def once (d : Dialect) : Nat → List Char → Formatting → Formatting
  | 0, _, s => s
  | _, [], s => s
  | bound + 1, '\\' :: rest, s =>
    match Escape.inFormat d rest with
    | .chars text rest => once d bound rest (s.put text)
    | .stop => s.stop .stopped
    | .wrong message => s.stop (.refused message)
  | bound + 1, '%' :: '%' :: rest, s => once d bound rest (s.put ['%'])
  | bound + 1, '%' :: spec, s =>
    let (field, rest, s) := s.readField d spec
    let rest := if d = .program then rest.dropWhile fun c => "hlLjtz".toList.contains c else rest
    let shown (rest : List Char) : Raw :=
      String.ofList ('%' :: spec.take (spec.length - rest.length))
    if s.early.isSome then s
    else match rest with
    | [] =>
      s.stop (.refused (if d = .shell then "missing format character"
        else shown [] ++ ": invalid conversion specification"))
    | letter :: rest =>
      let suits := d = .shell || field.suits letter
      match if suits then s.writeField d field (spec.head? = some letter) letter else none with
      | some s => if s.early.isSome then s else once d bound rest s
      | none =>
        s.stop (.refused (shown rest ++ (if d = .shell then ": invalid directive"
          else ": invalid conversion specification")))
  | bound + 1, c :: rest, s => once d bound rest (s.put [c])

def repeatedly (d : Dialect) (format : List Char) : Nat → Formatting → Formatting
  | 0, s => s
  | bound + 1, s =>
    let after := once d format.length format s
    if after.early.isSome || after.arguments.isEmpty then after
    else if after.arguments.length = s.arguments.length then
      if d = .shell then after
      else
        { after with
          warnings := ("warning: ignoring excess arguments, starting with " ++
            quoteText (after.arguments.headD "")) :: after.warnings }
    else repeatedly d format bound after

def output (s : Formatting) : Raw :=
  String.ofList s.parts.reverse.flatten

end Formatting

def format (d : Dialect) (text : Raw) (arguments : List Raw) : Formatting :=
  Formatting.repeatedly d text.toList (arguments.length + 1) { arguments }

example : (format .shell "%s,%03d\\n" ["a", "5", "b c", "-7"]).output = "a,005\nb c,-07\n" := by
  decide +kernel

end SessionShell.Programs
