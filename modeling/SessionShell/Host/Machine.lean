import SessionShell.Host.Files
import SessionShell.Host.Input
import SessionShell.Scope

/-! The machine that everything runs on, and the programs that can be started on it. -/

namespace SessionShell

structure Machine where
  files : FileSystem
  directory : Place
  environment : Scope String
  input : StandardInput

/-- An entry of an environment, such as `NAME=value`, falls into name and value at the first equals
sign behind the first character, since a name has at least one. -/
def splitEntry? (entry : String) : Option (String × String) :=
  match entry.toList with
  | [] => none
  | first :: rest =>
    let name := rest.takeWhile (· ≠ '=')
    match rest.drop name.length with
    | [] => none
    | _ :: value => some (String.ofList (first :: name), String.ofList value)

/-- The environment that entries make. One that does not fall into name and value is skipped, and of
equal names the last one wins. -/
def environmentOf (entries : List String) : Scope String :=
  .ofEntries (entries.filterMap splitEntry?)

example : ["A=1", "=v", "=v=w", "A", "B="].filterMap splitEntry? =
    [("A", "1"), ("=v", "w"), ("B", "")] := by
  decide +kernel

namespace Machine

def directoryPath (m : Machine) : String :=
  "/" ++ "/".intercalate m.directory

def exists? (m : Machine) (path : String) : Bool :=
  m.files.exists? m.directory path

def isFile (m : Machine) (path : String) : Bool :=
  m.files.isFile m.directory path

def isDirectory (m : Machine) (path : String) : Bool :=
  m.files.isDirectory m.directory path

def readText (m : Machine) (path : String) : Except IoError String :=
  m.files.readText m.directory path

end Machine

/-- A program to be started. Without an environment of its own it gets that of the machine, and
without input it reads the input of the machine. -/
structure Launch where
  program : String
  arguments : List String := []
  environment : Option (Scope String) := none
  input : Option Bytes := none

structure Finished where
  ended : Int32
  output : Bytes
  complaints : Bytes

abbrev Launcher := Launch → Machine → Except IoError Finished × Machine

/-- The exit code that stands for the way a program ended: its own code, 128 and the number of the
signal that ended it, or -1 if it did not end. -/
def exitCode (ended : Int32) : Int32 :=
  let bits := ended.toUInt32
  let signal := bits &&& 0x7F
  if signal = 0 then ((bits >>> 8) &&& 0xFF).toInt32
  else if signal = 0x7F then -1
  else (128 + signal).toInt32

end SessionShell
