import SessionShell.Programs.Script.Glyph
import SessionShell.Programs.World

/-! Patterns of paths, and the paths of a file system that have their form. -/

namespace SessionShell.Programs.PathPattern

/-- Whether a part of a path is more than a name. A bracket counts if it is closed. -/
def isActive : Pattern → Bool
  | [] => false
  | p :: rest =>
    Pattern.is p '*' || Pattern.is p '?' || (Pattern.is p '[' && (Pattern.set? 'a' rest).isSome) ||
      isActive rest

def text (p : Pattern) : List Char :=
  p.map (·.char)

def names (files : FileSystem) (directory : Place) (path : List Char) : List Raw :=
  let path := if path.isEmpty then "." else Raw.text (String.ofList path)
  match files.list directory path with
  | .ok entries => "." :: ".." :: entries.map (Raw.ofText ·.1)
  | .error _ => []

def isThere (files : FileSystem) (directory : Place) (path : List Char) : Bool :=
  match files.place directory (Raw.text (String.ofList path)) .keepLink with
  | .ok place => (files.entry? place).isSome
  | .error _ => false

/-- Whether a name has the form of a part. A dot in front has to be named. -/
def admits (part : Pattern) (name : Raw) : Bool :=
  (!name.startsWith "." || (part.head?.any (·.char = '.'))) && Pattern.isMatch part name.toList

/-- The paths behind a front that has been found. The parts are those between slashes. -/
def paths (files : FileSystem) (directory : Place) : List Char → List Pattern → List Raw
  | _, [] => []
  | front, [part] =>
    if isActive part then
      (names files directory front).filterMap fun name =>
        if admits part name then some (String.ofList front ++ name) else none
    else
      let path := front ++ text part
      if isThere files directory path then [String.ofList path] else []
  | front, part :: parts =>
    if isActive part then
      (names files directory front).flatMap fun name =>
        if admits part name then paths files directory (front ++ name.toList ++ ['/']) parts else []
    else paths files directory (front ++ text part ++ ['/']) parts

def find (files : FileSystem) (directory : Place) (p : Pattern) : List Raw :=
  (paths files directory [] (p.splitOnP (·.char = '/'))).mergeSort fun a b => a ≤ b

end SessionShell.Programs.PathPattern
