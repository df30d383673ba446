import SessionShell.Programs.Real
import SessionShell.Programs.Tool

/-! `sort`: writes lines in the order of their keys, or checks that they are in order. -/

namespace SessionShell.Programs.Sort

inductive Kind
  | text
  | number
  | general
  | sized
  | month
  | version
  deriving DecidableEq, Repr

structure Manner where
  kind : Kind := .text
  reverse : Bool := false
  fold : Bool := false
  dictionary : Bool := false
  printable : Bool := false
  deriving DecidableEq, Repr

/-- Where a key begins or ends: a field and a character in it, both counted from zero, and whether
blanks in front of the field are skipped. -/
structure Position where
  field : Nat
  char : Nat
  skipBlanks : Bool
  deriving DecidableEq, Repr

structure Key where
  first : Position
  last : Option Position
  manner : Manner
  deriving DecidableEq, Repr

def isBlank (b : UInt8) : Bool :=
  b = 32 || b = 9 || b = 10

def dropFields (separator : Option UInt8) : Nat → Bytes → Bytes
  | 0, line => line
  | n + 1, line =>
    match separator with
    | some s => dropFields separator n ((line.dropWhile (· ≠ s)).drop 1)
    | none => dropFields separator n ((line.dropWhile isBlank).dropWhile (!isBlank ·))

def Position.start (p : Position) (separator : Option UInt8) (line : Bytes) : Nat :=
  let rest := dropFields separator p.field line
  let rest := if p.skipBlanks then rest.dropWhile isBlank else rest
  min line.length (line.length - rest.length + p.char)

/-- The offset behind a key. The end of a whole field lies in front of the separator. -/
def Position.stop (p : Position) (separator : Option UInt8) (line : Bytes) : Nat :=
  if p.char = 0 then
    match separator with
    | some s =>
      let rest := dropFields separator p.field line
      line.length - (rest.dropWhile (· ≠ s)).length
    | none => line.length - (dropFields separator (p.field + 1) line).length
  else
    let rest := dropFields separator p.field line
    let rest := if p.skipBlanks then rest.dropWhile isBlank else rest
    min line.length (line.length - rest.length + p.char)

def Key.part (k : Key) (separator : Option UInt8) (line : Bytes) : Bytes :=
  let start := k.first.start separator line
  let stop := match k.last with
    | some p => p.stop separator line
    | none => line.length
  (line.take stop).drop start

def compareNat (a b : Nat) : Ordering :=
  compare a b

def readNumber (bytes : Bytes) : Bool × Bytes × Bytes :=
  let isDigit (b : UInt8) : Bool := 48 ≤ b && b ≤ 57
  let body := bytes.dropWhile isBlank
  let (negative, body) := match body with
    | 45 :: rest => (true, rest)
    | body => (false, body)
  let whole := body.takeWhile isDigit
  let fraction := match body.drop whole.length with
    | 46 :: rest => rest.takeWhile isDigit
    | _ => []
  (negative, whole, fraction)

def numberOf (bytes : Bytes) : Int × Nat :=
  let (negative, whole, fraction) := readNumber bytes
  let n : Int := (whole ++ fraction).foldl (fun n b => n * 10 + (b.toNat - 48)) 0
  (if negative then -n else n, Nat.pow 10 fraction.length)

def compareQuotient (a b : Int × Nat) : Ordering :=
  compare (a.1 * b.2) (b.1 * a.2)

def sizeRank (bytes : Bytes) : Int :=
  let (negative, whole, fraction) := readNumber bytes
  let body := bytes.dropWhile isBlank
  let front := (if negative then 1 else 0) + whole.length
  let rest := body.drop front
  let rest := match rest with
    | 46 :: _ => rest.drop (fraction.length + 1)
    | _ => rest
  let rank : Int := match rest with
    | letter :: _ =>
      (("KMGTPEZYRQ".toList.map Raw.byteOfChar).idxOf? letter).elim
        (if letter = 107 then 1 else 0) fun n => n + 1
    | [] => 0
  let zero := (whole ++ fraction).all (· = 48)
  if zero then 0 else if negative then -rank else rank

def months : List String :=
  ["JAN", "FEB", "MAR", "APR", "MAY", "JUN", "JUL", "AUG", "SEP", "OCT", "NOV", "DEC"]

def upper (b : UInt8) : UInt8 :=
  if 97 ≤ b && b ≤ 122 then b - 32 else b

def monthOf (bytes : Bytes) : Nat :=
  let word := Raw.ofBytes ((bytes.dropWhile isBlank).take 3 |>.map upper)
  (months.idxOf? word).elim 0 (· + 1)

/-- A real number for comparison: texts without a number come first, then those that are none,
then the others in order. -/
def realOf (bytes : Bytes) : Nat × Int × Nat :=
  match Real.read .extended (Raw.ofBytes bytes).toList with
  | none => (0, 0, 1)
  | some (.undefined _, _) => (1, 0, 1)
  | some (.infinite negative, _) => (if negative then 2 else 4, 0, 1)
  | some (.finite negative n d, _) => (3, if negative then -(n : Int) else n, d)

/-- The rank of a character between numbers in a version: a tilde in front of the end, letters in
front of all others. -/
def versionRank (b : Option UInt8) : Nat :=
  match b with
  | none => 1
  | some b =>
    let c := Raw.charOfByte b
    if c = '~' then 0 else if c.isDigit then 1 else if c.isAlpha then b.toNat else b.toNat + 256

/-- Compares versions: parts without digits by rank and parts of digits by value. The bound is
greater than the sum of the lengths. -/
def compareVersion : Nat → Bytes → Bytes → Ordering
  | 0, _, _ => .eq
  | bound + 1, a, b =>
    let isDigit (b : UInt8) : Bool := 48 ≤ b && b ≤ 57
    let begins (bytes : Bytes) : Bool := bytes.head?.any (!isDigit ·)
    if a.isEmpty && b.isEmpty then .eq
    else if begins a || begins b then
      let ranks := compareNat (versionRank a.head?) (versionRank b.head?)
      if ranks ≠ .eq then ranks
      else
        compareVersion bound (if begins a then a.drop 1 else a) (if begins b then b.drop 1 else b)
    else
      let value (bytes : Bytes) : Nat :=
        (bytes.takeWhile isDigit).foldl (fun n b => n * 10 + (b.toNat - 48)) 0
      match compareNat (value a) (value b) with
      | .eq => compareVersion bound (a.dropWhile isDigit) (b.dropWhile isDigit)
      | order => order

def Manner.counted (m : Manner) (bytes : Bytes) : Bytes :=
  let bytes := if m.dictionary then bytes.filter fun b =>
      isBlank b || (Raw.charOfByte b).isAlphanum else bytes
  let bytes := if m.printable then bytes.filter fun b => 32 ≤ b && b ≤ 126 else bytes
  if m.fold then bytes.map upper else bytes

def Manner.compare (m : Manner) (a b : Bytes) : Ordering :=
  match m.kind with
  | .text => Ord.compare (m.counted a) (m.counted b)
  | .number => compareQuotient (numberOf a) (numberOf b)
  | .sized => (Ord.compare (sizeRank a) (sizeRank b)).then
      (compareQuotient (numberOf a) (numberOf b))
  | .month => compareNat (monthOf a) (monthOf b)
  | .general =>
    let (ra, va) := realOf a
    let (rb, vb) := realOf b
    (compareNat ra rb).then (compareQuotient va vb)
  | .version => compareVersion (a.length + b.length + 1) a b

structure Settings where
  keys : List Key
  separator : Option UInt8 := none
  reverse : Bool := false
  stable : Bool := false
  unique : Bool := false

def Settings.compareKeys (s : Settings) (a b : Bytes) : Ordering :=
  s.keys.foldl (fun order k =>
    order.then
      (let order := k.manner.compare (k.part s.separator a) (k.part s.separator b)
      if k.manner.reverse then order.swap else order)) .eq

/-- Compares two lines: by their keys, and lines with equal keys byte by byte unless their order is
kept. -/
def Settings.compare (s : Settings) (a b : Bytes) : Ordering :=
  let order := s.compareKeys a b
  if s.stable || s.unique then order
  else order.then (if s.reverse then (Ord.compare a b).swap else Ord.compare a b)

def Settings.dropRepeats (s : Settings) : List Bytes → List Bytes → List Bytes
  | [], kept => kept.reverse
  | line :: rest, kept =>
    match kept with
    | last :: _ =>
      if s.compareKeys last line = .eq then s.dropRepeats rest kept
      else s.dropRepeats rest (line :: kept)
    | [] => s.dropRepeats rest [line]

def Settings.sorted (s : Settings) (lines : List Bytes) : List Bytes :=
  let sorted := lines.mergeSort fun a b => s.compare a b ≠ .gt
  if s.unique then s.dropRepeats sorted [] else sorted

def Settings.takeFirst (s : Settings) : List (List Bytes) → Option (Bytes × List (List Bytes))
  | [] => none
  | [] :: rest => s.takeFirst rest
  | (line :: lines) :: rest =>
    match s.takeFirst rest with
    | some (other, left) =>
      if s.compare line other = .gt then some (other, (line :: lines) :: left)
      else some (line, lines :: rest)
    | none => some (line, [lines])

/-- Merges lists, each of which should be in order. The bound is at least the number of the lines. -/
def Settings.mergeLists (s : Settings) : Nat → List (List Bytes) → List Bytes
  | 0, _ => []
  | bound + 1, lists =>
    match s.takeFirst lists with
    | some (line, left) => line :: s.mergeLists bound left
    | none => []

def Settings.merged (s : Settings) (lists : List (List Bytes)) : List Bytes :=
  let merged := s.mergeLists lists.flatten.length lists
  if s.unique then s.dropRepeats merged [] else merged

def Settings.disorder? (s : Settings) : Nat → List Bytes → Option (Nat × Bytes)
  | n, a :: b :: rest =>
    let order := s.compare a b
    if order = .gt || s.unique && order = .eq then some (n + 1, b)
    else s.disorder? (n + 1) (b :: rest)
  | _, _ => none

def Manner.with? (m : Manner) (letter : Char) : Option Manner :=
  match letter with
  | 'd' => some { m with dictionary := true }
  | 'f' => some { m with fold := true }
  | 'g' => some { m with kind := .general }
  | 'h' => some { m with kind := .sized }
  | 'i' => some { m with printable := true }
  | 'M' => some { m with kind := .month }
  | 'n' => some { m with kind := .number }
  | 'r' => some { m with reverse := true }
  | 'V' => some { m with kind := .version }
  | 'b' => some m
  | _ => none

def readCount (cs : List Char) : Option (Nat × List Char) :=
  let digits := cs.takeWhile Char.isDigit
  if digits.isEmpty then none else some (digitsValue 10 digits, cs.drop digits.length)

/-- A position as it is written, the letters behind it, and the rest. The number of the character is
`none` if it is missing. -/
def readPosition (cs : List Char) : Option (Nat × Option Nat × List Char × List Char) := do
  let (field, rest) ← readCount cs
  let (char, rest) ← match rest with
    | '.' :: rest =>
      let (n, rest) ← readCount rest
      pure (some n, rest)
    | rest => pure (none, rest)
  let letters := rest.takeWhile fun c => "bdfghiMnrV".toList.contains c
  some (field, char, letters, rest.drop letters.length)

def readKey (r : Raw) : Except Raw (Key × Bool) := do
  let invalid (what : Raw) (cs : List Char) : Raw :=
    "invalid number " ++ what ++ ": invalid count at start of " ++ quoteText (String.ofList cs)
  let some (field, char, letters, rest) := readPosition r.toList
    | throw (invalid "at field start" r.toList)
  if field = 0 then
    throw ("field number is zero: invalid field specification " ++ quoteText r)
  if char = some 0 then
    throw ("character offset is zero: invalid field specification " ++ quoteText r)
  let manner (m : Manner) (letters : List Char) : Manner :=
    letters.foldl (fun m c => (m.with? c).getD m) m
  let first : Position := ⟨field - 1, char.getD 1 - 1, letters.contains 'b'⟩
  match rest with
  | [] => return (⟨first, none, manner {} letters⟩, !letters.isEmpty)
  | ',' :: rest =>
    let some (field, char, more, []) := readPosition rest
      | throw (invalid "after ','" rest)
    if field = 0 then
      throw ("field number is zero: invalid field specification " ++ quoteText r)
    let last : Position := ⟨field - 1, char.getD 0, more.contains 'b'⟩
    return (⟨first, some last, manner {} (letters ++ more)⟩, !(letters ++ more).isEmpty)
  | _ => throw ("stray character in field spec: invalid field specification " ++ quoteText r)

def readSeparator (r : Raw) : Except Raw UInt8 :=
  match r.toList with
  | [c] => .ok (Raw.byteOfChar c)
  | ['\\', '0'] => .ok 0
  | [] => .error "empty tab"
  | _ => .error ("multi-character tab " ++ quoteText r)

def orders : List (String × Char) :=
  [("general-numeric", 'g'), ("human-numeric", 'h'), ("month", 'M'), ("numeric", 'n'),
    ("version", 'V')]

def lettered (chosen : Chosen) : Except Raw Chosen := do
  let options ← chosen.options.mapM fun (letter, argument) =>
    match letter, argument with
    | 'W', some name =>
      match orders.lookup name with
      | some letter => .ok (letter, none)
      | none => .error ("invalid argument " ++ quoteText name ++ " for '--sort'")
    | 'c', some how =>
      if how = "quiet" || how = "silent" then .ok ('C', none)
      else if how = "diagnose-first" then .ok ('c', none)
      else .error ("invalid argument " ++ quoteText how ++ " for '--check'")
    | letter, argument => .ok (letter, argument)
  let values (letter : Char) : List (Option Raw) :=
    ((options.filter (·.1 == letter)).map (·.2)).eraseDups
  if 1 < (values 't').length then
    throw "incompatible tabs"
  if 1 < (values 'o').length then
    throw "multiple output files specified"
  if options.any (·.1 == 'c') && options.any (·.1 == 'C') then
    throw "options '-cC' are incompatible"
  return { chosen with options }

/-- The settings that options ask for. A key without letters of its own takes the common ones. -/
def settings (chosen : Chosen) : Except Raw Settings := do
  let common : Manner := chosen.options.foldl (fun m (letter, _) => (m.with? letter).getD m) {}
  let skip := chosen.has 'b'
  let written ← (chosen.options.filter (·.1 == 'k')).mapM fun (_, argument) =>
    readKey (argument.getD "")
  let inherit (k : Key) : Key :=
    { first := { k.first with skipBlanks := skip }
      last := k.last.map fun p => { p with skipBlanks := skip }
      manner := common }
  let keys := written.map fun (k, own) => if own then k else inherit k
  let whole : Key := ⟨⟨0, 0, skip⟩, none, common⟩
  let separator ← (chosen.argument? 't').mapM readSeparator
  return { keys := if keys.isEmpty then
             (if common = { reverse := common.reverse } && !skip then [] else [whole]) else keys
           separator, reverse := common.reverse, stable := chosen.has 's'
           unique := chosen.has 'u' }

def Settings.completed (s : Settings) : Settings :=
  if s.keys.isEmpty then
    { s with keys := [⟨⟨0, 0, false⟩, none, { reverse := s.reverse }⟩] }
  else s

def table : OptionTable :=
  { letters := switches "bdfghiMnrVcCmsuz" ++
      [('k', .argument), ('o', .argument), ('t', .argument), ('S', .argument), ('T', .argument)]
    words := [("ignore-leading-blanks", .nothing, 'b'), ("dictionary-order", .nothing, 'd'),
      ("ignore-case", .nothing, 'f'), ("general-numeric-sort", .nothing, 'g'),
      ("human-numeric-sort", .nothing, 'h'), ("ignore-nonprinting", .nothing, 'i'),
      ("month-sort", .nothing, 'M'), ("numeric-sort", .nothing, 'n'), ("reverse", .nothing, 'r'),
      ("version-sort", .nothing, 'V'), ("check", .maybe, 'c'), ("merge", .nothing, 'm'),
      ("sort", .argument, 'W'), ("buffer-size", .argument, 'S'), ("parallel", .argument, 'S'),
      ("temporary-directory", .argument, 'T'),
      ("stable", .nothing, 's'), ("unique", .nothing, 'u'), ("zero-terminated", .nothing, 'z'),
      ("key", .argument, 'k'), ("output", .argument, 'o'), ("field-separator", .argument, 't')] }

def readAll (ending : UInt8) : List Raw → Work (Except Raw (List (List Bytes)))
  | [] => return .ok []
  | file :: rest => do
    match ← Work.openInput file with
    | .error e => return .error ("cannot read: " ++ quoteName false file ++ ": " ++ e.reason.1)
    | .ok index =>
      match ← Work.readStream index with
      | .error e => return .error ("read failed: " ++ quoteName false file ++ ": " ++ e.reason.1)
      | .ok bytes =>
        let more ← readAll ending rest
        return more.map (splitEnded ending bytes :: ·)

def check (chosen : Chosen) (s : Settings) (name : Raw) (lines : List Bytes) : Work Ending := do
  match s.disorder? 1 lines with
  | none => return .code 0
  | some (n, line) =>
    if chosen.has 'c' then
      Work.complain (name ++ ":" ++ Text.decimal n ++ ": disorder: " ++ Raw.ofBytes line)
    return .code 1

def deliver (chosen : Chosen) (bytes : Bytes) : Work Ending := do
  match chosen.argument? 'o' with
  | none =>
    Work.putBytes 1 bytes
    return .code 0
  | some file =>
    let b ← get
    match b.world.openFile b.process file .write with
    | (.ok index, world) =>
      set { b with world := (world.write index bytes).2 }
      return .code 0
    | (.error e, _) =>
      Work.complain ("open failed: " ++ quoteName false file ++ ": " ++ e.reason.1)
      return .code 2

def work : Work Ending := do
  match table.scan (← get).process.arguments with
  | .error message => Work.refuse 2 message
  | .ok chosen =>
    match do return (← lettered chosen, ← settings (← lettered chosen)) with
    | .error message =>
      Work.complain message
      return .code 2
    | .ok (chosen, s) =>
      let s := s.completed
      let ending : UInt8 := if chosen.has 'z' then 0 else 10
      let files := if chosen.operands.isEmpty then ["-"] else chosen.operands
      let checks := chosen.has 'c' || chosen.has 'C'
      if checks && 1 < files.length then
        Work.complain
          ("extra operand " ++ quoteName true (files.getD 1 "") ++ " not allowed with -c")
        return .code 2
      else match ← readAll ending files with
        | .error message =>
          Work.complain message
          return .code 2
        | .ok lists =>
          if checks then check chosen s (files.headD "-") lists.flatten
          else
            let lines := if chosen.has 'm' then s.merged lists else s.sorted lists.flatten
            deliver chosen (lines.flatMap (· ++ [ending]))

end SessionShell.Programs.Sort
