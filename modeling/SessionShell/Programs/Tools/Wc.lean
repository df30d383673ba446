import SessionShell.Programs.Tool

/-! `wc`: counts lines, words, characters and bytes, and measures the widest line. -/

namespace SessionShell.Programs.Wc

structure Counts where
  lines : Nat := 0
  words : Nat := 0
  bytes : Nat := 0
  width : Nat := 0

def Counts.add (a b : Counts) : Counts :=
  { lines := a.lines + b.lines, words := a.words + b.words, bytes := a.bytes + b.bytes
    width := max a.width b.width }

structure Counting where
  counts : Counts := {}
  inWord : Bool := false
  column : Nat := 0

/-- Counts a byte. Only bytes with a mark of their own begin a word. -/
def Counting.step (s : Counting) (b : UInt8) : Counting :=
  let c := { s.counts with bytes := s.counts.bytes + 1 }
  let widest := max c.width s.column
  if b = 10 then
    { counts := { c with lines := c.lines + 1, width := widest }, inWord := false, column := 0 }
  else if b = 12 || b = 13 then
    { counts := { c with width := widest }, inWord := false, column := 0 }
  else if b = 9 then { counts := c, inWord := false, column := s.column + 8 - s.column % 8 }
  else if b = 32 then { counts := c, inWord := false, column := s.column + 1 }
  else if b = 11 then { counts := c, inWord := false, column := s.column }
  else if 33 ≤ b && b ≤ 126 then
    { counts := { c with words := if s.inWord then c.words else c.words + 1 }, inWord := true
      column := s.column + 1 }
  else { s with counts := c }

def count (bytes : Bytes) : Counts :=
  let s := bytes.foldl Counting.step {}
  { s.counts with width := max s.counts.width s.column }

def table : OptionTable :=
  { letters := switches "clLmw"
    words := [("bytes", .nothing, 'c'), ("chars", .nothing, 'm'), ("lines", .nothing, 'l'),
      ("words", .nothing, 'w'), ("max-line-length", .nothing, 'L')] }

def shown (chosen : Chosen) (c : Counts) : List Nat :=
  let wanted (letter : Char) (usual : Bool) : Bool :=
    chosen.has letter || usual && chosen.options.isEmpty
  [(wanted 'l' true, c.lines), (wanted 'w' true, c.words), (wanted 'm' false, c.bytes),
    (wanted 'c' true, c.bytes), (wanted 'L' false, c.width)].filterMap fun (asked, n) =>
      if asked then some n else none

def regularSize (w : World) (index : Nat) : Option Nat :=
  match w.stream index with
  | .file place .. => some (w.content place).length
  | _ => none

/-- The width of the columns: wide enough for the sum of the lengths of regular files, and for
seven digits if there are inputs of another kind. A single number takes no more than it needs. -/
def columnWidth (chosen : Chosen) (inputs : List (Option (Option Nat))) : Nat :=
  if inputs.length = 1 && (shown chosen {}).length = 1 then 1
  else
    let sizes := inputs.filterMap id
    let total := (sizes.filterMap id).foldl (· + ·) 0
    max (Nat.toDigits 10 total).length (if sizes.contains none then 7 else 1)

def line (chosen : Chosen) (width : Nat) (c : Counts) (name : Option Raw) : Raw :=
  " ".intercalate ((shown chosen c).map (fun (n : Nat) => padLeft width n) ++ name.toList) ++ "\n"

def work : Work Ending := do
  match table.scan (← get).process.arguments with
  | .error message => Work.refuse 1 message
  | .ok chosen =>
    let files := if chosen.operands.isEmpty then ["-"] else chosen.operands
    let mut opened : List (Raw × Except IoError Nat) := []
    for file in files do
      opened := opened ++ [(file, ← Work.openInput file)]
    let world := (← get).world
    let width := columnWidth chosen (opened.map fun (_, o) => match o with
      | .ok index => some (regularSize world index)
      | .error _ => none)
    let mut total : Counts := {}
    let mut code : UInt8 := 0
    for (file, o) in opened do
      let name := if chosen.operands.isEmpty then none else some file
      let complain (e : IoError) : Work Unit :=
        Work.complain (quoteName false (if file = "-" && name.isNone then "standard input" else file) ++
          ": " ++ e.reason.1)
      match o with
      | .error e =>
        complain e
        code := 1
      | .ok index =>
        let counts ← match ← Work.readStream index with
          | .ok bytes => pure (count bytes)
          | .error e =>
            complain e
            code := 1
            pure {}
        Work.put (line chosen width counts name)
        total := total.add counts
    if 1 < files.length then
      Work.put (line chosen width total (some "total"))
    return .code code

end SessionShell.Programs.Wc
