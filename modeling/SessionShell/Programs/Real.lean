import SessionShell.Programs.Numeral

/-! Real numbers as programs read and print them: kept exactly, and rounded to a number of binary
digits once when they are read and to decimal digits once when they are printed. -/

namespace SessionShell.Programs

/-- The numbers that a program can hold: how many binary digits they have at most, the power of two that
divides them all when turned over, and the power of two that they stay below. -/
structure Precision where
  digits : Nat
  finest : Nat
  limit : Nat

def Precision.double : Precision := ⟨53, 1074, 1024⟩

def Precision.extended : Precision := ⟨64, 16445, 16384⟩

inductive Real
  | finite (negative : Bool) (numerator denominator : Nat)
  | infinite (negative : Bool)
  | undefined (negative : Bool)

namespace Real

def roundQuotient (numerator denominator : Nat) : Nat :=
  let whole := numerator / denominator
  let twice := 2 * (numerator % denominator)
  if twice < denominator then whole
  else if twice > denominator then whole + 1
  else whole + whole % 2

def roundBinary (digits numerator denominator : Nat) : Nat × Nat :=
  if numerator = 0 || denominator = 0 then (0, 1)
  else
    let up := digits + denominator.log2 + 1 - numerator.log2
    let down := numerator.log2 - (digits + denominator.log2 + 1)
    let excess := ((numerator <<< up) / (denominator <<< down)).log2 + 1 - digits
    let n := roundQuotient (numerator <<< up) (denominator <<< (down + excess))
    (n <<< (down + excess), 1 <<< up)

/-- The nearest number that a program can hold, and whether it stands for the quotient well enough: one
that is too large becomes infinite, and one that is too small loses digits. -/
def ofQuotient (p : Precision) (negative : Bool) (numerator denominator : Nat) : Real × Bool :=
  let (n, d) := roundBinary p.digits numerator denominator
  if d <<< p.limit ≤ n then (.infinite negative, false)
  else if n = 0 || d <<< (p.digits - 1) ≤ n <<< p.finest then (.finite negative n d, true)
  else
    let few := roundQuotient (numerator <<< p.finest) denominator
    (.finite negative few (1 <<< p.finest), few * denominator = numerator <<< p.finest)

def dropLabel (cs : List Char) : List Char :=
  match cs with
  | '(' :: rest =>
    match rest.dropWhile fun c => c.isAlphanum || c = '_' with
    | ')' :: behind => behind
    | _ => cs
  | cs => cs

def readExponent (letters : List Char) (cs : List Char) : Int × List Char :=
  match cs with
  | e :: rest =>
    if letters.contains e then
      let (negative, body) := Numeral.readSign rest
      let digits := body.takeWhile Char.isDigit
      if digits.isEmpty then (0, cs)
      else
        let n : Int := min (digitsValue 10 digits) 20000
        (if negative then -n else n, body.drop digits.length)
    else (0, cs)
  | [] => (0, [])

/-- The number at the front of a text, behind white space, whether it could be held well enough, and the
rest of the text. -/
def read (p : Precision) (cs : List Char) : Option (Real × Bool × List Char) :=
  let (negative, body) := Numeral.readSign (cs.dropWhile isSpace)
  let begins (word : String) : Bool := word.toList.isPrefixOf (body.map Char.toLower)
  let mantissa (base : Nat) (letters : List Char) (step : Nat) (body : List Char) :
      Option (Real × Bool × List Char) :=
    let whole := body.takeWhile (Numeral.isDigitOf base)
    let (fraction, rest) := match body.drop whole.length with
      | '.' :: rest =>
        let fraction := rest.takeWhile (Numeral.isDigitOf base)
        (fraction, if whole.isEmpty && fraction.isEmpty then '.' :: rest
          else rest.drop fraction.length)
      | rest => ([], rest)
    if whole.isEmpty && fraction.isEmpty then none
    else
      let (exponent, rest) := readExponent letters rest
      let (r, kept) := ofQuotient p negative
        (digitsValue base (whole ++ fraction) * step.pow exponent.toNat)
        (base.pow fraction.length * step.pow (-exponent).toNat)
      some (r, kept, rest)
  if begins "infinity" then some (.infinite negative, true, body.drop 8)
  else if begins "inf" then some (.infinite negative, true, body.drop 3)
  else if begins "nan" then some (.undefined negative, true, dropLabel (body.drop 3))
  else match body with
    | '0' :: x :: rest =>
      if x = 'x' || x = 'X' then
        (mantissa 16 ['p', 'P'] 2 rest).or (some (.finite negative 0 1, true, x :: rest))
      else mantissa 10 ['e', 'E'] 10 body
    | _ => mantissa 10 ['e', 'E'] 10 body

/-- Digits with so many of them behind the point. A point with nothing behind it is kept on
request. -/
def fixed (places : Nat) (keepPoint : Bool) (numerator denominator : Nat) : List Char :=
  let digits := Nat.toDigits 10 (roundQuotient (numerator * Nat.pow 10 places) denominator)
  let digits := List.replicate (places + 1 - digits.length) '0' ++ digits
  let front := digits.take (digits.length - places)
  front ++ (if places = 0 && !keepPoint then [] else '.' :: digits.drop front.length)

def decimalExponent (significant numerator denominator : Nat) : Int :=
  if numerator = 0 then 0
  else
    let lower : Int := ((Nat.toDigits 10 numerator).length : Int) -
      (Nat.toDigits 10 denominator).length - 1
    let scaled (e : Int) : Nat :=
      let power : Int := (significant : Int) - 1 - e
      roundQuotient (numerator * Nat.pow 10 power.toNat) (denominator * Nat.pow 10 (-power).toNat)
    let candidates := [lower, lower + 1, lower + 2, lower + 3]
    (candidates.find? fun e => scaled e < Nat.pow 10 significant).getD lower

def scientific (places : Nat) (keepPoint : Bool) (letter : Char) (numerator denominator : Nat) :
    List Char :=
  let e := decimalExponent (places + 1) numerator denominator
  let exponent := Nat.toDigits 10 e.natAbs
  fixed places keepPoint (numerator * Nat.pow 10 (-e).toNat) (denominator * Nat.pow 10 e.toNat) ++
    letter :: (if e < 0 then '-' else '+') :: (List.replicate (2 - exponent.length) '0' ++ exponent)

def dropZeros (cs : List Char) : List Char :=
  if cs.contains '.' then
    let backwards := cs.reverse.dropWhile (· = '0')
    (match backwards with
      | '.' :: rest => rest
      | rest => rest).reverse
  else cs

def general (significant : Nat) (alternate : Bool) (letter : Char) (numerator denominator : Nat) :
    List Char :=
  let significant := max significant 1
  let e := decimalExponent significant numerator denominator
  if -4 ≤ e && e < significant then
    let places := ((significant : Int) - 1 - e).toNat
    let digits := fixed places alternate numerator denominator
    if alternate then digits else dropZeros digits
  else
    let text := scientific (significant - 1) alternate letter numerator denominator
    let front := text.takeWhile (· ≠ letter)
    (if alternate then front else dropZeros front) ++ text.drop front.length

/-- Hexadecimal digits and a power of two. The first digit has as many bits as all of them have when they
are divided into digits from the end; without a number of places there are as many as it takes. -/
def hexadecimal (p : Precision) (places : Option Nat) (keepPoint : Bool)
    (numerator denominator : Nat) : List Char :=
  let leading := (p.digits - 1) % 4
  let exponent : Int := if numerator = 0 then 0
    else max ((numerator.log2 : Int) - denominator.log2) (p.digits - 1 - p.finest) - leading
  let all := (p.digits - 1) / 4
  let count := places.getD all
  let scaled := roundQuotient (numerator <<< ((-exponent).toNat + 4 * count))
    (denominator <<< exponent.toNat)
  let carried := scaled >>> (4 * count) = 16
  let (scaled, exponent) := if carried then (1 <<< (4 * count), exponent + 4)
    else (scaled, exponent)
  let digits := Nat.toDigits 16 scaled
  let digits := List.replicate (count + 1 - digits.length) '0' ++ digits
  let fraction := digits.drop 1
  let fraction := if places.isNone then (fraction.reverse.dropWhile (· = '0')).reverse else fraction
  digits.take 1 ++ (if fraction.isEmpty && !keepPoint then [] else '.' :: fraction) ++
    'p' :: (if exponent < 0 then '-' else '+') :: Nat.toDigits 10 exponent.natAbs

def isNegative : Real → Bool
  | .finite negative _ _ | .infinite negative | .undefined negative => negative

def format (p : Precision) (letter : Char) (precision : Option Nat) (alternate : Bool) (r : Real) : List Char :=
  let cased (s : String) : List Char := if letter.isUpper then s.toUpper.toList else s.toList
  let exponentLetter := if letter.isUpper then 'E' else 'e'
  match r with
  | .infinite _ => cased "inf"
  | .undefined _ => cased "nan"
  | .finite _ n d =>
    let count := precision.getD 6
    if letter.toLower = 'a' then cased (String.ofList (hexadecimal p precision alternate n d))
    else if letter.toLower = 'f' then fixed count alternate n d
    else if letter.toLower = 'e' then scientific count alternate exponentLetter n d
    else general count alternate exponentLetter n d

example : ([("0.1", none), ("1.999", some 0), ("0", some 1)].map fun (s, places) =>
    (read .extended s.toList).map fun (r, _) =>
      String.ofList (format .extended 'a' places false r)) =
        [some "c.ccccccccccccccdp-7", some "1p+1", some "0.0p+0"] := by
  decide +kernel

example : (["3.14159", "0.0001", "1e10", "12345.678", "0"].map fun s =>
    (read .double s.toList).map fun (r, _) =>
      String.ofList (format .double 'g' none false r)) =
      [some "3.14159", some "0.0001", some "1e+10", some "12345.7", some "0"] := by
  decide +kernel

end Real

end SessionShell.Programs
