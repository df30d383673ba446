import SessionShell.Programs.Script.Condition

/-! The arguments of the shell's own commands: options, numbers and names. -/

namespace SessionShell.Programs.Commands

/-- Takes letters off the front of arguments, as far as they are options. A letter with a value, which
comes last in its argument, is followed by a colon in the list of the letters that are known. -/
def takeOptions (known : String) : Nat → List Raw → Step (List (Char × Raw) × List Raw)
  | 0, args => return ([], args)
  | _, [] => return ([], [])
  | bound + 1, arg :: rest => do
    match arg.toList with
    | ['-', '-'] => return ([], rest)
    | '-' :: c :: cs =>
      let (front, rest) ← letters (c :: cs) rest
      let (more, rest) ← takeOptions known bound rest
      return (front ++ more, rest)
    | _ => return ([], arg :: rest)
where
  letters : List Char → List Raw → Step (List (Char × Raw) × List Raw)
    | [], rest => return ([], rest)
    | c :: cs, rest => do
      match known.toList.dropWhile (· ≠ c) with
      | [] => ShellRun.fail (String.ofList ("Illegal option -".toList ++ [c]))
      | _ :: ':' :: _ =>
        match cs, rest with
        | [], value :: rest => return ([(c, value)], rest)
        | [], [] => ShellRun.fail (String.ofList ("No arg for -".toList ++ c :: " option".toList))
        | cs, rest => return ([(c, String.ofList cs)], rest)
      | _ =>
        let (more, rest) ← letters cs rest
        return ((c, "") :: more, rest)

def options (known : String) (args : List Raw) : Step (List (Char × Raw) × List Raw) :=
  takeOptions known (args.length + 1) args

def illegalNumber {α : Type} (r : Raw) : Step α :=
  ShellRun.fail ("Illegal number: " ++ r)

def count (r : Raw) : Step Nat := do
  match Numeral.readInteger (some 10) r.toList with
  | some (n, rest) =>
    if rest.all isSpace && 0 ≤ n && n ≤ 2147483647 then return n.toNat else illegalNumber r
  | none => illegalNumber r

def splitAssignment (r : Raw) : String × Option Raw :=
  let name := r.toList.takeWhile (· ≠ '=')
  (String.ofList name,
    if name.length = r.length then none
    else some (String.ofList (r.toList.drop (name.length + 1))))

def checkName (text name : Raw) : Step Unit := do
  if !isName name then
    ShellRun.fail (text ++ ": bad variable name")

/-- A text as a script can have it: single quotes stand between double quotes, all else between single
ones. The bound is greater than the length of the text. -/
def quotedChars : Nat → List Char → List Char
  | 0, _ => []
  | bound + 1, cs =>
    let front := cs.takeWhile (· ≠ '\'')
    let rest := cs.drop front.length
    let quotes := rest.takeWhile (· = '\'')
    let behind := rest.drop quotes.length
    '\'' :: front ++ '\'' ::
      (if quotes.isEmpty then [] else '"' :: quotes ++ ['"']) ++
      (if behind.isEmpty then [] else quotedChars bound behind)

def quoted (r : Raw) : Raw :=
  String.ofList (quotedChars (r.length + 1) r.toList)

example : ["", "a''b'", "'"].map quoted = ["''", "'a'\"''\"'b'\"'\"", "''\"'\""] := by
  decide +kernel

end SessionShell.Programs.Commands
