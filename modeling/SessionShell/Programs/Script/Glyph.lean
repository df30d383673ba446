import SessionShell.Programs.Raw

/-! The characters that words expand to, patterns made of them, and their division into fields. -/

namespace SessionShell.Programs

inductive Role
  | quoted
  | literal
  | loose
  | mark
  | gap
  | cut
  deriving DecidableEq, Repr

structure Glyph where
  char : Char
  role : Role
  deriving DecidableEq, Repr

abbrev Glyphs := List Glyph

namespace Glyph

def ofText (role : Role) (cs : List Char) : Glyphs :=
  cs.map (⟨·, role⟩)

def mark : Glyph := ⟨' ', .mark⟩
def gap : Glyph := ⟨'\x00', .gap⟩
def cut : Glyph := ⟨'\x00', .cut⟩

def isChar (g : Glyph) : Bool :=
  g.role = .quoted || g.role = .literal || g.role = .loose

def text (gs : Glyphs) : List Char :=
  (gs.filter isChar).map (·.char)

end Glyph

structure PatternChar where
  char : Char
  active : Bool
  deriving DecidableEq, Repr

abbrev Pattern := List PatternChar

namespace Pattern

def unescape : Pattern → Pattern
  | a :: b :: rest =>
    if a.char = '\\' && a.active then ⟨b.char, false⟩ :: unescape rest else a :: unescape (b :: rest)
  | p => p

def ofGlyphs (gs : Glyphs) : Pattern :=
  unescape ((gs.filter Glyph.isChar).map fun g => ⟨g.char, g.role ≠ .quoted⟩)

def is (p : PatternChar) (c : Char) : Bool :=
  p.active && p.char = c

def class? (p : Pattern) : Option ((Char → Bool) × Pattern) :=
  match p with
  | open' :: colon :: rest =>
    if is open' '[' && colon.char = ':' then
      let name := rest.takeWhile (·.char.isAlpha)
      match rest.drop name.length with
      | a :: b :: rest =>
        if a.char = ':' && b.char = ']' then
          (classMember? (String.ofList (name.map (·.char)))).map (·, rest)
        else none
      | _ => none
    else none
  | _ => none

/-- Whether a character is a member of a bracket, read behind its first sign, and what follows the
closing one; `none` if there is none. `first` says that a closing sign would be a member. The bound
is at least the length of the pattern. -/
def bracket (c : Char) : Nat → Bool → Pattern → Option (Bool × Pattern)
  | 0, _, _ => none
  | _, _, [] => none
  | bound + 1, first, p :: rest =>
    if p.char = ']' && p.active && !first then some (false, rest)
    else match class? (p :: rest) with
      | some (member, rest) =>
        (bracket c bound false rest).map fun (found, rest) => (found || member c, rest)
      | none =>
        match rest with
        | dash :: last :: more =>
          if is dash '-' && !is last ']' then
            (bracket c bound false more).map fun (found, rest) =>
              (found || (p.char ≤ c && c ≤ last.char), rest)
          else
            (bracket c bound false rest).map fun (found, rest) => (found || p.char = c, rest)
        | _ => (bracket c bound false rest).map fun (found, rest) => (found || p.char = c, rest)

/-- Whether a character is in the set behind an opening bracket, and what follows the set; `none` if
the bracket is not closed. -/
def set? (c : Char) (p : Pattern) : Option (Bool × Pattern) :=
  match p with
  | sign :: rest =>
    if is sign '!' then
      (bracket c (rest.length + 1) true rest).map fun (found, rest) => (!found, rest)
    else bracket c (p.length + 1) true p
  | [] => none

/-- Whether a text has the form of a pattern. The bound is greater than the sum of their lengths. -/
def matchWithin : Nat → Pattern → List Char → Bool
  | 0, _, _ => false
  | _, [], cs => cs.isEmpty
  | bound + 1, p :: rest, cs =>
    if is p '*' then
      matchWithin bound rest cs ||
        match cs with
        | _ :: more => matchWithin bound (p :: rest) more
        | [] => false
    else match cs with
      | [] => false
      | c :: more =>
        if is p '?' then matchWithin bound rest more
        else if is p '[' then
          match set? c rest with
          | some (found, after) => found && matchWithin bound after more
          | none => c = '[' && matchWithin bound rest more
        else p.char = c && matchWithin bound rest more

def isMatch (p : Pattern) (cs : List Char) : Bool :=
  matchWithin (p.length + cs.length + 1) p cs

def isActive (p : Pattern) : Bool :=
  p.any fun c => c.active && (c.char = '*' || c.char = '?' || c.char = '[')

def trim (p : Pattern) (atEnd longest : Bool) (cs : List Char) : List Char :=
  let counts := List.range (cs.length + 1)
  let counts := if longest then counts.reverse else counts
  let part (n : Nat) : List Char := if atEnd then cs.drop (cs.length - n) else cs.take n
  match counts.find? fun n => isMatch p (part n) with
  | some n => if atEnd then cs.take (cs.length - n) else cs.drop n
  | none => cs

end Pattern

namespace Fields

def isWhite (c : Char) : Bool :=
  c = ' ' || c = '\t' || c = '\n'

/-- What a glyph is to a division into fields: part of a field, or a separator that is white space or
not. -/
inductive Part
  | inside
  | white
  | other
  | cut
  deriving DecidableEq, Repr

def partOf (separators : List Char) (g : Glyph) : Part :=
  match g.role with
  | .gap => .white
  | .cut => .cut
  | .loose =>
    if separators.contains g.char then (if isWhite g.char then .white else .other) else .inside
  | _ => .inside

/-- The end of a field that takes all that is left: white space at the end goes, and with it one
other separator that the field would have ended at. -/
def dropEnding (separators : List Char) (gs : Glyphs) : Glyphs :=
  let white (g : Glyph) : Bool := partOf separators g = .white
  let front := (gs.reverse.dropWhile white).reverse
  match front.reverse with
  | last :: before =>
    if partOf separators last = .other &&
        !((before.dropWhile white).any fun g => partOf separators g = .other) then
      (before.dropWhile white).reverse
    else front
  | [] => []

inductive Standing
  | inside
  | afterWhite
  | afterOther
  deriving DecidableEq, Repr

/-- Divides glyphs into fields. The open field is given in reverse. `limit` is the number of fields at
most, of which the last takes all that is left. -/
def split (separators : List Char) :
    Option Nat → Standing → Glyphs → Glyphs → List Glyphs → List Glyphs
  | _, _, current, [], done =>
    (if current.isEmpty then done else current.reverse :: done).reverse
  | limit, standing, current, g :: rest, done =>
    let closes : List Glyphs := current.reverse :: done
    if limit = some 1 && current.isEmpty && partOf separators g ≠ .white &&
        !(standing = .afterWhite && partOf separators g = .other) then
      ((dropEnding separators (g :: rest)) :: done).reverse
    else match partOf separators g with
      | .inside => split separators limit .inside (g :: current) rest done
      | .cut => split separators (limit.map (· - 1)) .inside [] rest closes
      | .white =>
        if current.isEmpty then split separators limit standing [] rest done
        else split separators (limit.map (· - 1)) .afterWhite [] rest closes
      | .other =>
        if current.isEmpty && standing = .afterWhite then
          split separators limit .afterOther [] rest done
        else split separators (limit.map (· - 1)) .afterOther [] rest closes

def ofGlyphs (separators : List Char) (gs : Glyphs) : List Glyphs :=
  split separators none .inside [] gs []

def ofLine (separators : List Char) (limit : Nat) (gs : Glyphs) : List Glyphs :=
  split separators (some limit) .inside [] gs []

example : (ofGlyphs " :".toList (Glyph.ofText .loose " a :b  c::d".toList)).map
    (fun gs => String.ofList (Glyph.text gs)) = ["a", "b", "c", "", "d"] := by
  decide +kernel

example : (ofLine " ".toList 2 (Glyph.ofText .loose " a  b c  ".toList)).map
    (fun gs => String.ofList (Glyph.text gs)) = ["a", "b c"] := by
  decide +kernel

end Fields

end SessionShell.Programs
