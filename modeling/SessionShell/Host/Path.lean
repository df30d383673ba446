/-! Path texts: their components, joining, and the parts of the file name at the end. -/

namespace SessionShell.Path

inductive Component
  | root
  /-- A dot at the front; everywhere else a dot is dropped. -/
  | current
  | parent
  | name (text : String)
  deriving DecidableEq, Repr

def segments (path : String) : List String :=
  (path.toList.splitOn '/').map String.ofList

/-- The steps of a path. Empty segments count for nothing, except that a slash in front is the
root. -/
def components (path : String) : List Component :=
  let named (segment : String) : Option Component :=
    if segment = "" || segment = "." then none
    else if segment = ".." then some .parent
    else some (.name segment)
  match segments path with
  | [] => []
  | first :: rest =>
    let front :=
      if first = "" then (if rest.isEmpty then [] else [.root])
      else if first = "." then [.current]
      else (named first).toList
    front ++ rest.filterMap named

def isAbsolute (path : String) : Bool :=
  path.toList.head? == some '/'

/-- A path looked up from a directory. An absolute path stands for itself. -/
def join (directory path : String) : String :=
  if isAbsolute path || directory = "" then path
  else if directory.toList.getLast? = some '/' then directory ++ path
  else directory ++ "/" ++ path

/-- Removes slashes, and dots that are components, from the end of a path. The path is given, and
returned, in reverse. -/
def dropTail : List Char → List Char
  | '/' :: rest => dropTail rest
  | '.' :: '/' :: rest => dropTail rest
  | path => path

def splitLast (path : String) : List Char × List Char :=
  let backwards := dropTail path.toList.reverse
  ((backwards.dropWhile (· ≠ '/')).reverse, (backwards.takeWhile (· ≠ '/')).reverse)

/-- A file name falls into its stem and its extension at the last dot. A dot in front of the name
begins no extension. -/
def splitExtension (name : List Char) : List Char × Option (List Char) :=
  let backwards := name.reverse
  match backwards.dropWhile (· ≠ '.') with
  | _ :: c :: before =>
    ((c :: before).reverse, some (backwards.takeWhile (· ≠ '.')).reverse)
  | _ => (name, none)

/-- The name of the file that a path ends in, with the text in front of it; `none` when the path
ends in a directory that it does not name. -/
def fileName? (path : String) : Option (List Char × List Char) :=
  let (before, name) := splitLast path
  if name = [] || name = ['.'] || name = ['.', '.'] then none else some (before, name)

def extension? (path : String) : Option String := do
  let (_, name) ← fileName? path
  (splitExtension name).2.map String.ofList

/-- The path without its extension, as far as a cut at the end of its text reaches: as many
characters go as the extension has. Behind the file name there may be slashes and dots, of which
some go instead; `..x` loses so much that no file name is left. -/
def dropExtension (path : String) : String :=
  match extension? path with
  | none => path
  | some old => String.ofList (path.toList.take (path.length - old.length))

/-- Gives the file name another extension, once the old one is cut off. A path that has no file name
then stays as it is. -/
def withExtension (path extension : String) : String :=
  let path := dropExtension path
  match fileName? path with
  | none => path
  | some (before, name) =>
    String.ofList (before ++ (splitExtension name).1 ++ '.' :: extension.toList)

example : (["a/b.hsk", "a/b.hsk/", ".hsk", "a.b.c", "x/..", "x/./", "a."].map
    (withExtension · "sh")) =
      ["a/b.sh", "a/b.sh", ".hsk.sh", "a.b.sh", "x/..", "x.sh", "a.sh"] := by
  decide +kernel

example : (["..hsk", "d/..hsk", "..hsk/", "...hsk"].map (withExtension · "sh")) =
    ["..", "d/..", "..sh", "...sh"] := by
  decide +kernel

end SessionShell.Path
