import SessionShell.Programs.Quoting

/-! Options of programs: letters behind one dash, several of which may stand together, and words
behind two dashes, which may be cut short as long as they stay unambiguous. -/

namespace SessionShell.Programs

inductive Takes
  | nothing
  | argument
  | maybe
  deriving DecidableEq, Repr

structure OptionTable where
  letters : List (Char × Takes)
  words : List (String × Takes × Char) := []
  anywhere : Bool := true

structure Chosen where
  options : List (Char × Option Raw) := []
  operands : List Raw := []

namespace Chosen

def has (c : Chosen) (letter : Char) : Bool :=
  c.options.any (·.1 == letter)

def argument? (c : Chosen) (letter : Char) : Option Raw :=
  (c.options.reverse.find? (·.1 == letter)).bind (·.2)

def addOption (c : Chosen) (letter : Char) (argument : Option Raw) : Chosen :=
  { c with options := c.options ++ [(letter, argument)] }

end Chosen

namespace OptionTable

/-- Reads letters that stand together. `next` is the argument that follows; the result tells whether
it was used. -/
def readLetters (t : OptionTable) (next : Option Raw) :
    List Char → Chosen → Except String (Chosen × Bool)
  | [], chosen => .ok (chosen, false)
  | letter :: rest, chosen =>
    match t.letters.lookup letter with
    | none => .error ("invalid option -- '" ++ String.ofList [letter] ++ "'")
    | some .nothing => t.readLetters next rest (chosen.addOption letter none)
    | some .maybe =>
      .ok (chosen.addOption letter (if rest.isEmpty then none else some (String.ofList rest)), false)
    | some .argument =>
      match rest, next with
      | [], none =>
        .error ("option requires an argument -- '" ++ String.ofList [letter] ++ "'")
      | [], some argument => .ok (chosen.addOption letter (some argument), true)
      | rest, _ => .ok (chosen.addOption letter (some (String.ofList rest)), false)

def readWord (t : OptionTable) (next : Option Raw) (arg : Raw) (chosen : Chosen) :
    Except String (Chosen × Bool) :=
  let cs := arg.toList.drop 2
  let word := cs.takeWhile (· ≠ '=')
  let value : Option Raw :=
    if word.length = cs.length then none else some (String.ofList (cs.drop (word.length + 1)))
  let name := String.ofList word
  let candidates : List (String × Takes × Char) := match t.words.filter (·.1 == name) with
    | [] => t.words.filter fun (full, _) => word.isPrefixOf (String.toList full)
    | same => same
  match candidates, value with
  | [], _ => .error ("unrecognized option '--" ++ name ++ "'")
  | [(_, .nothing, letter)], none => .ok (chosen.addOption letter none, false)
  | [(full, .nothing, _)], some _ =>
    .error ("option '--" ++ full ++ "' doesn't allow an argument")
  | [(_, .maybe, letter)], value => .ok (chosen.addOption letter value, false)
  | [(_, .argument, letter)], some value => .ok (chosen.addOption letter (some value), false)
  | [(full, .argument, letter)], none =>
    match next with
    | some value => .ok (chosen.addOption letter (some value), true)
    | none => .error ("option '--" ++ full ++ "' requires an argument")
  | several, _ =>
    .error ("option '" ++ arg ++ "' is ambiguous; possibilities:" ++
      String.join (several.map fun (full, _) => " '--" ++ full ++ "'"))

/-- Reads options and operands. `skip` says that the first argument belongs to the option in front of
it. -/
def read (t : OptionTable) : Bool → List Raw → Chosen → Except String Chosen
  | _, [], chosen => .ok chosen
  | true, _ :: rest, chosen => t.read false rest chosen
  | false, arg :: rest, chosen =>
    if arg = "--" then .ok { chosen with operands := chosen.operands ++ rest }
    else if arg.startsWith "--" then
      match t.readWord rest.head? arg chosen with
      | .error e => .error e
      | .ok (chosen, used) => t.read used rest chosen
    else if arg.startsWith "-" && arg ≠ "-" then
      match t.readLetters rest.head? (arg.toList.drop 1) chosen with
      | .error e => .error e
      | .ok (chosen, used) => t.read used rest chosen
    else if t.anywhere then t.read false rest { chosen with operands := chosen.operands ++ [arg] }
    else .ok { chosen with operands := chosen.operands ++ arg :: rest }

def scan (t : OptionTable) (args : List Raw) : Except String Chosen :=
  t.read false args {}

end OptionTable

def switches (letters : String) : List (Char × Takes) :=
  letters.toList.map (·, .nothing)

end SessionShell.Programs
