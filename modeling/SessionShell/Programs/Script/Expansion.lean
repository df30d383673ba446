import SessionShell.Programs.Script.Arithmetic
import SessionShell.Programs.Script.PathPattern

/-! The expansion of words: substitutions, the division into fields, and patterns of paths. -/

namespace SessionShell.Programs

namespace Expansion

abbrev Substitute := Script → Step Raw

inductive Tilde
  | nowhere
  | front
  | colons (front : Bool)

/-- What happens to the text of a word: whether fields are made of it, whether it stands in for the
value of a parameter, so that fields are made of its plain text too, and where it has tildes. -/
structure Manner where
  divided : Bool := false
  standIn : Bool := false
  tilde : Tilde := .nowhere

def inserted (quoted : Bool) (r : Raw) : Glyphs :=
  Glyph.ofText (if quoted then .quoted else .loose) r.toList

def joint (r : ShellRun) (quoted divided each : Bool) : Glyphs :=
  if quoted && divided && each then [Glyph.cut]
  else if divided && !quoted then [Glyph.gap]
  else match r.value? "IFS" with
    | none => inserted quoted " "
    | some separators => inserted quoted (String.ofList (separators.toList.take 1))

/-- The value of a parameter, if it is set. Between quotes each of all parameters is marked, so that
it is a field even if it is empty. -/
def value? (r : ShellRun) (m : Manner) (quoted : Bool) (name : String) : Option Glyphs :=
  if name = "@" || name = "*" then
    let marked := quoted && m.divided && name = "@"
    some ((joint r quoted m.divided (name = "@")).intercalate (r.parameters.map fun text =>
      (if marked then [Glyph.mark] else []) ++ inserted quoted text))
  else (r.parameter? name).map (inserted quoted)

def content (gs : Glyphs) : Glyphs :=
  gs.filter (·.role ≠ .mark)

/-- The value of a parameter. With the setting `-u` it has to be set. -/
def needed (r : ShellRun) (name : String) (value : Option Glyphs) : Step Glyphs :=
  match value with
  | some gs => return gs
  | none => if r.isSet 'u' then ShellRun.fail (name ++ ": parameter not set") else return []

/-- Whether the quotes in front of pieces hold a list of parameters and nothing else, so that they
make no field if the list is empty. -/
def holdsList : Pieces → Bool
  | .parameter true "@" .value _ _ :: rest =>
    match rest with
    | .parameter true .. :: _ | .command true _ :: _ | .arithmetic true _ :: _ => false
    | _ => true
  | _ => false

def home? (r : ShellRun) (name : List Char) : Option Raw :=
  if name.isEmpty then r.value? "HOME"
  else if name = "root".toList then some "/root"
  else none

/-- The glyphs of plain text whose front may be a tilde. Nothing but a slash or the end of the word may
follow the name behind the tilde. -/
def withTilde (r : ShellRun) (role : Role) (ends : Bool) (cs : List Char) : Glyphs :=
  match cs with
  | '~' :: rest =>
    let name := rest.takeWhile (· ≠ '/')
    let behind := rest.drop name.length
    match if behind.isEmpty && !ends then none else home? r name with
    | some home =>
      Glyph.mark :: Glyph.ofText .quoted home.toList ++ Glyph.ofText role behind
    | none => Glyph.ofText role cs
  | cs => Glyph.ofText role cs

/-- The glyphs of plain text. `ends` says that nothing follows it in the word. -/
def plain (r : ShellRun) (m : Manner) (ends : Bool) (cs : List Char) : Glyphs :=
  let role : Role := if m.divided && m.standIn then .loose else .literal
  match m.tilde with
  | .nowhere => Glyph.ofText role cs
  | .front => withTilde r role ends cs
  | .colons front =>
    let parts := cs.splitOn ':'
    let last := parts.length - 1
    [⟨':', role⟩].intercalate (parts.zipIdx.map fun (part, n) =>
      if n = 0 && !front then Glyph.ofText role part
      else withTilde r role (n < last || ends) part)

def Manner.behind (m : Manner) (piece : Piece) : Manner :=
  { m with tilde := match m.tilde, piece with
    | .colons _, .text false cs => .colons (cs.getLast? = some ':')
    | .colons _, _ => .colons false
    | _, _ => .nowhere }

def cutOff (p : Pattern) (atEnd longest : Bool) (gs : Glyphs) : Glyphs :=
  let left := (Pattern.trim p atEnd longest (gs.map (·.char))).length
  if atEnd then gs.take left else gs.drop (gs.length - left)

variable (substitute : Substitute)

def cleaned (output : Raw) : Raw :=
  let cs := output.toList.filter (·.toNat ≠ 0)
  String.ofList (cs.reverse.dropWhile (· = '\n')).reverse

def Manner.ofStandIn (m : Manner) : Manner :=
  { m with standIn := true, tilde := .front }

def ownText : Manner :=
  { tilde := .front }

mutual

def ofPiece (m : Manner) : Piece → Step Glyphs
  | .text quoted cs =>
    return if cs.isEmpty then [Glyph.mark]
      else Glyph.ofText (if quoted then .quoted else .literal) cs
  | .command quoted body => do
    return inserted quoted (cleaned (← substitute body))
  | .arithmetic quoted inside => do
    let text := Glyph.text (← ofPieces {} inside)
    let value ← (Expression.ofText text).evaluate (String.ofList text) true
    return inserted quoted (Text.decimal value)
  | .parameter quoted name selector nonempty word => do
    let r ← get
    let value := value? r m quoted name
    let present := if nonempty then value.filter (fun gs => !(content gs).isEmpty) else value
    match selector, present with
    | .value, _ => needed r name value
    | .length, _ => return inserted quoted (Text.decimal (content (← needed r name value)).length)
    | .orElse, none => ofPieces m.ofStandIn word
    | .orAssign, none => do
      let text := String.ofList (Glyph.text (← ofPieces ownText word))
      if !isName name then
        ShellRun.fail (name ++ ": bad variable name")
      ShellRun.setVariable name text false
      return inserted quoted text
    | .orFail, none => do
      let text := String.ofList (Glyph.text (← ofPieces ownText word))
      ShellRun.fail (name ++ ": " ++ if !word.isEmpty then text
        else "parameter not set" ++ if nonempty then " or null" else "")
    | .orElse, some gs | .orAssign, some gs | .orFail, some gs => return gs
    | .ifSet, some _ => ofPieces m.ofStandIn word
    | .ifSet, none => return []
    | .cut atEnd longest, _ =>
      let gs := content (← needed r name value)
      return cutOff (Pattern.ofGlyphs (← ofPieces ownText word)) atEnd longest gs
    | .unknown, _ => ShellRun.fail "Bad substitution"

def ofPieces (m : Manner) : List Piece → Step Glyphs
  | [] => return []
  | piece :: rest => do
    let gs ← match piece with
      | .text true [] => pure (if holdsList rest then [] else [Glyph.mark])
      | .text false cs => pure (plain (← get) m rest.isEmpty cs)
      | piece => ofPiece m piece
    return gs ++ (← ofPieces (m.behind piece) rest)

end

def text (m : Manner) (pieces : Pieces) : Step Raw := do
  return String.ofList (Glyph.text (← ofPieces substitute m pieces))

def assigned (pieces : Pieces) : Step Raw :=
  text substitute { tilde := .colons true } pieces

def pattern (pieces : Pieces) : Step Pattern := do
  return Pattern.ofGlyphs (← ofPieces substitute ownText pieces)

def matching (r : ShellRun) (field : Glyphs) : List Raw :=
  let pattern := Pattern.ofGlyphs field
  let itself := [String.ofList (Glyph.text field)]
  if r.isSet 'f' || !Pattern.isActive pattern then itself
  else match PathPattern.find r.world.files r.process.directory pattern with
    | [] => itself
    | paths => paths

def fields (pieces : Pieces) : Step (List Raw) := do
  let gs ← ofPieces substitute { divided := true, tilde := .front } pieces
  let r ← get
  return (Fields.ofGlyphs r.separators gs).flatMap (matching r)

def fieldsOf : List Pieces → Step (List Raw)
  | [] => return []
  | word :: rest => do
    let front ← fields substitute word
    return front ++ (← fieldsOf rest)

end Expansion

end SessionShell.Programs
