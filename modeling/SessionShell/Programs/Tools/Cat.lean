import SessionShell.Programs.Tool

/-! `cat`: writes files one after the other, and on request shows line numbers, line ends, tabs and
other characters without a mark of their own. -/

namespace SessionShell.Programs.Cat

structure Settings where
  numbers : Bool
  nonblank : Bool
  squeeze : Bool
  ends : Bool
  tabs : Bool
  controls : Bool

/-- How far the files have been written. `blanks` counts the newlines since the last text, and is
`none` inside a line. -/
structure Progress where
  blanks : Option Nat := some 0
  lines : Nat := 0

def table : OptionTable :=
  { letters := switches "AbeEnstTuv"
    words := [("number-nonblank", .nothing, 'b'), ("number", .nothing, 'n'),
      ("squeeze-blank", .nothing, 's'), ("show-nonprinting", .nothing, 'v'),
      ("show-ends", .nothing, 'E'), ("show-tabs", .nothing, 'T'), ("show-all", .nothing, 'A')] }

def Settings.ofChosen (c : Chosen) : Settings :=
  let any (letters : String) : Bool := letters.toList.any c.has
  { numbers := any "bn", nonblank := any "b", squeeze := any "s", ends := any "AeE"
    tabs := any "AtT", controls := any "Aetv" }

def showByte (b : UInt8) : Bytes :=
  let (front, low) : Bytes × UInt8 := if b < 128 then ([], b) else ([77, 45], b - 128)
  front ++ (if low < 32 then [94, low + 64] else if low = 127 then [94, 63] else [low])

def Progress.number (p : Progress) : Bytes × Progress :=
  (Raw.bytes (padLeft 6 (p.lines + 1) ++ "\t"), { p with lines := p.lines + 1 })

/-- Writes a byte. `atEnd` says that a newline follows it. -/
def Settings.step (s : Settings) (p : Progress) (b : UInt8) (atEnd : Bool) : Bytes × Progress :=
  if b = 10 then
    let blanks := p.blanks.elim 0 (· + 1)
    if s.squeeze && 2 ≤ blanks then ([], { p with blanks := some (min blanks 2) })
    else
      let (front, p) := if 0 < blanks && s.numbers && !s.nonblank then p.number else ([], p)
      (front ++ (if s.ends then [36] else []) ++ [10], { p with blanks := some blanks })
  else
    let (front, p) := if p.blanks.isSome && s.numbers then p.number else ([], p)
    let shown :=
      if b = 9 then (if s.tabs then [94, 73] else [9])
      else if s.controls || (s.ends && b = 13 && atEnd) then showByte b
      else [b]
    (front ++ shown, { p with blanks := none })

def Settings.write (s : Settings) : Progress → Bytes → List Bytes → Bytes × Progress
  | p, [], parts => (parts.reverse.flatten, p)
  | p, b :: rest, parts =>
    let (shown, p) := s.step p b (rest.head? = some 10)
    s.write p rest (shown :: parts)

def Settings.isPlain (s : Settings) : Bool :=
  !(s.numbers || s.squeeze || s.ends || s.tabs || s.controls)

def feedsItself (b : Bench) (index : Nat) : Bool :=
  match b.world.stream index, (b.process.descriptor? 1).map b.world.stream with
  | .file place offset .., some (.file output ..) =>
    place = output && offset < (b.world.content place).length
  | _, _ => false

def writeFile (s : Settings) (p : Progress) (file : Raw) : Work (Bool × Progress) := do
  let fails (e : Raw) : Work (Bool × Progress) := do
    Work.complain (quoteName false file ++ ": " ++ e)
    return (false, p)
  match ← Work.openInput file with
  | .error e => fails e.reason.1
  | .ok index =>
    if feedsItself (← get) index then fails "input file is output file"
    else match ← Work.readStream index with
      | .error e => fails e.reason.1
      | .ok bytes =>
        if s.isPlain then
          Work.putBytes 1 bytes
          return (true, p)
        else
          let (shown, p) := s.write p bytes []
          Work.putBytes 1 shown
          return (true, p)

def writeFiles (s : Settings) : Progress → List Raw → Work Bool
  | _, [] => return true
  | p, file :: rest => do
    let (well, p) ← writeFile s p file
    let others ← writeFiles s p rest
    return well && others

def work : Work Ending := do
  match table.scan (← get).process.arguments with
  | .error message => Work.refuse 1 message
  | .ok chosen =>
    let files := if chosen.operands.isEmpty then ["-"] else chosen.operands
    let p := (← get).process
    let unusable (what : Raw) : Work Ending := do
      Work.complain (what ++ ": " ++ IoError.badDescriptor.reason.1)
      return .code 1
    if (p.descriptor? 1).isNone then unusable "standard output"
    else
      let well ← writeFiles (Settings.ofChosen chosen) {} files
      if files.contains "-" && (p.descriptor? 0).isNone then unusable "closing standard input"
      else return .code (if well then 0 else 1)

end SessionShell.Programs.Cat
