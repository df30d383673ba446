import SessionShell.Programs.Escape
import SessionShell.Programs.Tool

/-! `tr`: replaces, deletes and squeezes the characters of its input by sets of characters. -/

namespace SessionShell.Programs.Tr

structure Written where
  char : Char
  escaped : Bool
  deriving DecidableEq

inductive Part
  | single (c : Char)
  | range (first last : Char)
  | members (name : String)
  | repeated (c : Char) (count : Option Nat)

/-- Takes the backslashes out of a written set. The bound is at least its length. -/
def unescape : Nat → List Char → List Written
  | 0, _ => []
  | _, [] => []
  | _, ['\\'] => [⟨'\\', false⟩]
  | bound + 1, '\\' :: c :: rest =>
    if isOctalDigit c then
      let digits := ((c :: rest).take 3).takeWhile isOctalDigit
      let digits := if 255 < digitsValue 8 digits then digits.take 2 else digits
      ⟨Escape.charOf (digitsValue 8 digits), true⟩ :: unescape bound ((c :: rest).drop digits.length)
    else ⟨if c = 'e' then c else (Escape.letter? c).getD c, true⟩ :: unescape bound rest
  | bound + 1, c :: rest => ⟨c, false⟩ :: unescape bound rest

def Written.is (w : Written) (c : Char) : Bool :=
  w.char = c && !w.escaped

def splitClosed (delimiter : Char) : List Written → Option (List Char × List Written)
  | a :: b :: rest =>
    if a.is delimiter && b.is ']' then some ([], rest)
    else (splitClosed delimiter (b :: rest)).map fun (front, rest) => (a.char :: front, rest)
  | _ => none

def readRepeat (ws : List Written) : Except Raw (Option (Part × List Written)) :=
  match ws with
  | c :: star :: rest =>
    if star.is '*' then
      let front := rest.takeWhile fun w => !w.is ']'
      match rest.drop front.length with
      | [] => .ok none
      | _ :: rest =>
        let digits := front.map (·.char)
        let base := if digits.head? = some '0' then 8 else 10
        if digits.all fun c => c.isDigit && digitValue c < base then
          let n := digitsValue base digits
          .ok (some (.repeated c.char (if n = 0 then none else some n), rest))
        else
          .error ("invalid repeat count " ++ quoteText (String.ofList digits) ++
            " in [c*n] construct")
    else .ok none
  | _ => .ok none

def readBracket (ws : List Written) : Except Raw (Option (Part × List Written)) :=
  match ws with
  | d :: rest =>
    if d.is ':' || d.is '=' then
      match splitClosed d.char rest with
      | none => readRepeat ws
      | some ([], _) =>
        .error (if d.char = ':' then "missing character class name '[::]'"
          else "missing equivalence class character '[==]'")
      | some (front, left) =>
        let name := String.ofList front
        let again (message : Raw) : Except Raw (Option (Part × List Written)) :=
          if rest.head?.any (·.is '*') then readRepeat ws else .error message
        if d.char = ':' then
          if (classMember? name).isSome then .ok (some (.members name, left))
          else again ("invalid character class " ++ quoteText name)
        else
          match front with
          | [c] => .ok (some (.single c, left))
          | _ => again (name ++ ": equivalence class operand must be a single character")
    else readRepeat ws
  | [] => .ok none

/-- The parts of a set. The bound is at least its length. -/
def readParts : Nat → List Written → Except Raw (List Part)
  | 0, _ => .ok []
  | _, [] => .ok []
  | bound + 1, w :: rest => do
    let bracket ← if w.is '[' && 2 ≤ rest.length then readBracket rest else pure none
    match bracket with
    | some (part, rest) => return part :: (← readParts bound rest)
    | none =>
      match rest with
      | dash :: last :: rest =>
        if dash.is '-' then
          if last.char < w.char then
            throw ("range-endpoints of '" ++ String.ofList [w.char, '-', last.char] ++
              "' are in reverse collating sequence order")
          else return .range w.char last.char :: (← readParts bound rest)
        else return .single w.char :: (← readParts bound (dash :: last :: rest))
      | rest => return .single w.char :: (← readParts bound rest)

def endsOpen (r : Raw) : Bool :=
  (unescape (r.length + 1) r.toList).any (·.is '\\')

def parse (r : Raw) : Except Raw (List Part) :=
  readParts (r.length + 1) (unescape (r.length + 1) r.toList)

def allChars : List Char :=
  (List.range 256).map Char.ofNat

/-- The members of a part. `fill` is how often a character without a number is repeated. -/
def Part.chars (fill : Nat) : Part → List Char
  | .single c => [c]
  | .range first last => allChars.filter fun c => first ≤ c && c ≤ last
  | .members name => allChars.filter ((classMember? name).getD fun _ => false)
  | .repeated c count => List.replicate (count.getD fill) c

def chars (fill : Nat) (parts : List Part) : List Char :=
  parts.flatMap (Part.chars fill)

def casePositions : Nat → List Part → List Nat
  | _, [] => []
  | n, part :: rest =>
    let after := casePositions (n + (part.chars 0).length) rest
    match part with
    | .members "upper" | .members "lower" => n :: after
    | _ => after

def isClass : Part → Bool
  | .members _ => true
  | _ => false

def isFill : Part → Bool
  | .repeated _ none => true
  | _ => false

/-- A table of replacements: the character behind each number. Of several for one character the last
one counts. -/
def replacements (source target : List Char) : Array Char :=
  (source.zip target).foldl (fun table (a, b) => table.setIfInBounds a.toNat b) allChars.toArray

def membership (set : List Char) : Array Bool :=
  set.foldl (fun table c => table.setIfInBounds c.toNat true) (.replicate 256 false)

def squeeze (table : Array Bool) : Option UInt8 → Bytes → Bytes → Bytes
  | _, [], done => done.reverse
  | last, b :: rest, done =>
    if last = some b && table.getD b.toNat false then squeeze table last rest done
    else squeeze table (some b) rest (b :: done)

/-- The target set, made as long as the source set: a repetition without a number fills it up, else
the last character is repeated. -/
def extend (count : Nat) (truncate : Bool) (parts : List Part) : List Char :=
  let fixed := (chars 0 parts).length
  let target := chars (count - fixed) parts
  if truncate then target
  else target ++ List.replicate (count - target.length) (target.getLast?.getD ' ')

structure Plan where
  deleted : Option (Array Bool) := none
  replaced : Option (Array Char) := none
  squeezed : Option (Array Bool) := none

def Plan.apply (p : Plan) (bytes : Bytes) : Bytes :=
  let bytes := match p.deleted with
    | some table => bytes.filter fun b => !table.getD b.toNat false
    | none => bytes
  let bytes := match p.replaced with
    | some table => bytes.map fun b => Raw.byteOfChar (table.getD b.toNat ' ')
    | none => bytes
  match p.squeezed with
  | some table => squeeze table none bytes []
  | none => bytes

def plan (chosen : Chosen) (sets : List (List Part)) : Except Raw Plan := do
  let complement := chosen.has 'c'
  let first := sets.headD []
  let second := sets.getD 1 []
  if first.any isFill then
    throw "the [c*] repeat construct may not appear in string1"
  if 1 < (second.filter isFill).length then
    throw "only one [c*] repeat construct may appear in string2"
  let source := chars 0 first
  let source := if complement then allChars.filter (!source.contains ·) else source
  if chosen.has 'd' then
    return { deleted := some (membership source)
             squeezed := if chosen.has 's' then some (membership (chars 0 second)) else none }
  else if sets.length = 1 then
    return { squeezed := some (membership source) }
  else
    if second.isEmpty && !chosen.has 't' then
      throw "when not truncating set1, string2 must be non-empty"
    if second.any fun part => isClass part && !(part matches .members "upper" | .members "lower") then
      throw "when translating, the only character classes that may appear in\nstring2 are 'upper' and 'lower'"
    if !complement && !(casePositions 0 second).all (casePositions 0 first).contains then
      throw "misaligned [:upper:] and/or [:lower:] construct"
    let target := extend source.length (chosen.has 't') second
    if complement && first.any isClass && target.eraseDups.length ≠ 1 then
      throw "when translating with complemented character classes,\nstring2 must map all characters in the domain to one"
    return { replaced := some (replacements source target)
             squeezed := if chosen.has 's' then some (membership target) else none }

def table : OptionTable :=
  { letters := switches "cCdst"
    words := [("complement", .nothing, 'c'), ("delete", .nothing, 'd'),
      ("squeeze-repeats", .nothing, 's'), ("truncate-set1", .nothing, 't')]
    anywhere := false }

def countFault? (chosen : Chosen) : Option Raw :=
  let both := chosen.has 'd' == chosen.has 's'
  let least := if both then 2 else 1
  let most := if chosen.has 'd' && !chosen.has 's' then 1 else 2
  match chosen.operands with
  | [] => some "missing operand"
  | operands =>
    if operands.length < least then
      some ("missing operand after " ++ quoteText (operands.getLast?.getD "") ++ "\n" ++
        (if chosen.has 's' then
            "Two strings must be given when both deleting and squeezing repeats."
          else "Two strings must be given when translating."))
    else if most < operands.length then
      some ("extra operand " ++ quoteText (operands.getD most "") ++
        (if operands.length = 2 then
            "\nOnly one string may be given when deleting without squeezing repeats."
          else ""))
    else none

def work : Work Ending := do
  match table.scan (← get).process.arguments with
  | .error message => Work.refuse 1 message
  | .ok chosen =>
    let chosen := if chosen.has 'C' then chosen.addOption 'c' none else chosen
    match countFault? chosen with
    | some message => Work.refuse 1 message
    | none =>
      for set in chosen.operands do
        if endsOpen set then
          Work.complain "warning: an unescaped backslash at end of string is not portable"
      match chosen.operands.mapM parse >>= plan chosen with
      | .error message =>
        Work.complain message
        return .code 1
      | .ok plan =>
        match ← Work.readInput "-" with
        | .error e =>
          Work.complain ("read error: " ++ e.reason.1)
          return .code 1
        | .ok bytes =>
          Work.putBytes 1 (plan.apply bytes)
          return .code 0

end SessionShell.Programs.Tr
