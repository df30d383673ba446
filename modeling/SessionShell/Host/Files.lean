import Std.Data.ExtTreeMap
import SessionShell.Host.IoError
import SessionShell.Host.Path
import SessionShell.Text.Utf8

/-! A file system: what stands at each place, and how a path leads to a place. -/

namespace SessionShell

inductive Entry
  | file (content : Bytes) (executable : Bool)
  | directory
  | link (target : String)
  | null
  | installed (name : String)
  deriving DecidableEq, Repr

abbrev Place := List String

def Place.ofPath (path : String) : Place :=
  (Path.segments path).filter fun segment => segment ≠ "" && segment ≠ "."

/-- The order in which a directory gives its entries to who reads it. It is the file system's own, but
none is left out and none is added. -/
structure ReadingOrder where
  arrange : Place → List (String × Bool) → List (String × Bool)
  perm : ∀ place entries, (arrange place entries).Perm entries

def ReadingOrder.stored : ReadingOrder :=
  ⟨fun _ entries => entries, fun _ => .refl⟩

@[ext] structure FileSystem where
  entries : Std.ExtTreeMap Place Entry
  order : ReadingOrder := .stored

namespace FileSystem

def entry? (fs : FileSystem) (place : Place) : Option Entry :=
  if place = [] then some .directory else fs.entries[place]?

def insert (place : Place) (entry : Entry) (fs : FileSystem) : FileSystem :=
  { fs with entries := fs.entries.insert place entry }

@[simp] theorem entries_insert (place : Place) (entry : Entry) (fs : FileSystem) :
    (fs.insert place entry).entries = fs.entries.insert place entry := rfl

@[simp] theorem order_insert (place : Place) (entry : Entry) (fs : FileSystem) :
    (fs.insert place entry).order = fs.order := rfl

inductive Step
  | name (text : String)
  | inside
  deriving DecidableEq, Repr

def steps (path : String) : List Step :=
  let segments := Path.segments path
  (segments.filter (· ≠ "")).map .name ++ if segments.getLast? = some "" then [.inside] else []

def nameLimit : Nat := 255

def pathLimit : Nat := 4095

/-- The greatest number of links that are followed on the way to one place. -/
def linkLimit : Nat := 40

/-- What a path is wanted for: something that is there, the last name itself even if it is a link,
or a file that may have to be created. -/
inductive Purpose
  | find
  | keepLink
  | create
  deriving DecidableEq, Repr

inductive Stretch
  | reached (place : Place)
  | link (directory : Place) (target : String) (rest : List Step)

/-- Takes the steps of a path one by one, up to the first link. The place reached may have no entry,
but every place in front of it is a directory. No file can be created under a name with a slash
behind it. -/
def advance (fs : FileSystem) (purpose : Purpose) : Place → List Step → Except IoError Stretch
  | place, [] => .ok (.reached place)
  | place, step :: rest =>
    match fs.entry? place with
    | none => .error .noEntry
    | some .directory =>
      match step with
      | .inside | .name "." => fs.advance purpose place rest
      | .name ".." => fs.advance purpose place.dropLast rest
      | .name text =>
        if purpose = .create && rest = [.inside] then .error .isDirectory
        else if nameLimit < text.utf8ByteSize then .error .nameTooLong
        else match fs.entry? (place ++ [text]) with
          | some (.link target) =>
            if purpose = .keepLink && rest.isEmpty then .ok (.reached (place ++ [text]))
            else .ok (.link place target rest)
          | _ => fs.advance purpose (place ++ [text]) rest
    | some _ => .error .notDirectory

def follow (fs : FileSystem) (purpose : Purpose) :
    Nat → Place → List Step → Except IoError Place
  | links, place, steps =>
    match fs.advance purpose place steps with
    | .error e => .error e
    | .ok (.reached place) => .ok place
    | .ok (.link directory target rest) =>
      match links with
      | 0 => .error .linkLoop
      | links + 1 =>
        fs.follow purpose links (if Path.isAbsolute target then [] else directory)
          (FileSystem.steps target ++ rest)

/-- The place that a path leads to from a directory. It may have no entry. -/
def place (fs : FileSystem) (directory : Place) (path : String) (purpose : Purpose) :
    Except IoError Place :=
  if path.toList.contains (Char.ofNat 0) then .error .zeroInPath
  else if path = "" then .error .noEntry
  else if pathLimit < path.utf8ByteSize then .error .nameTooLong
  else fs.follow purpose linkLimit (if Path.isAbsolute path then [] else directory) (steps path)

def find (fs : FileSystem) (directory : Place) (path : String) : Except IoError Entry := do
  match fs.entry? (← fs.place directory path .find) with
  | some entry => .ok entry
  | none => .error .noEntry

def exists? (fs : FileSystem) (directory : Place) (path : String) : Bool :=
  (fs.find directory path).toBool

def isFile (fs : FileSystem) (directory : Place) (path : String) : Bool :=
  match fs.find directory path with
  | .ok (.file _ _) | .ok (.installed _) => true
  | _ => false

def isDirectory (fs : FileSystem) (directory : Place) (path : String) : Bool :=
  match fs.find directory path with
  | .ok .directory => true
  | _ => false

def installedContent : Bytes := [0x7F, 0x45, 0x4C, 0x46, 0xFF]

def read (fs : FileSystem) (directory : Place) (path : String) : Except IoError Bytes := do
  match ← fs.find directory path with
  | .file content _ => .ok content
  | .directory => .error .isDirectory
  | .link _ => .error .linkLoop
  | .null => .ok []
  | .installed _ => .ok installedContent

def readText (fs : FileSystem) (directory : Place) (path : String) : Except IoError String := do
  match Text.Utf8.decode? (← fs.read directory path) with
  | some text => .ok text
  | none => .error .notText

/-- Replaces the content of a file by what `change` makes of it. A missing file counts as empty and
is created. -/
def update (fs : FileSystem) (directory : Place) (path : String) (change : Bytes → Bytes) :
    Except IoError FileSystem := do
  let place ← fs.place directory path .create
  match fs.entry? place with
  | none => .ok (fs.insert place (.file (change []) false))
  | some (.file content executable) =>
    .ok (fs.insert place (.file (change content) executable))
  | some .directory => .error .isDirectory
  | some (.link _) => .error .linkLoop
  | some .null => .ok fs
  | some (.installed _) => .error .permission

def write (fs : FileSystem) (directory : Place) (path : String) (content : Bytes) :
    Except IoError FileSystem :=
  fs.update directory path fun _ => content

def children (fs : FileSystem) (place : Place) : List (String × Bool) :=
  fs.entries.toList.filterMap fun (other, entry) =>
    if other.dropLast = place then other.getLast?.map (·, entry == .directory) else none

def readDirectory (fs : FileSystem) (directory : Place) (path : String) :
    Except IoError (List (String × Bool)) := do
  let place ← fs.place directory path .find
  match fs.entry? place with
  | none => .error .noEntry
  | some .directory => .ok (fs.order.arrange place (fs.children place))
  | some _ => .error .notDirectory

/-- Entries go by their names, and of one name what is no directory comes first. -/
def precedes (a b : String × Bool) : Bool :=
  a.1 < b.1 || a.1 = b.1 && (!a.2 || b.2)

def insertInOrder (entry : String × Bool) : List (String × Bool) → List (String × Bool)
  | [] => [entry]
  | other :: rest =>
    if precedes entry other then entry :: other :: rest else other :: insertInOrder entry rest

def inOrder (entries : List (String × Bool)) : List (String × Bool) :=
  entries.foldr insertInOrder []

def list (fs : FileSystem) (directory : Place) (path : String) :
    Except IoError (List (String × Bool)) := do
  return inOrder (← fs.readDirectory directory path)

end FileSystem

end SessionShell
