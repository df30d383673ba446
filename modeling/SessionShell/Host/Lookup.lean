import SessionShell.Host.Machine

/-! Where a command name leads. -/

namespace SessionShell

def searchDirectories (search : String) : List String :=
  (search.toList.splitOn ':').map String.ofList

def findInSearchPath (m : Machine) (search name : String) : Option String :=
  (searchDirectories search).map (Path.join · name) |>.find? m.isFile

def findByPath (m : Machine) (path : String) : Option String :=
  if m.exists? path then some path else none

def Path.Component.text : Path.Component → String
  | .root => "/"
  | .current => "."
  | .parent => ".."
  | .name text => text

/-- The program that a command name stands for. A path of several components, or one that begins at
the root or with a dot, is taken as it is; a single component is looked up in the search path. -/
def findCommand (m : Machine) (search path : String) : Option String :=
  match Path.components path with
  | [] => none
  | .root :: _ => findByPath m path
  | [.current] => (findByPath m path).or (findInSearchPath m search ".")
  | [only] => findInSearchPath m search only.text
  | _ => findByPath m path

end SessionShell
