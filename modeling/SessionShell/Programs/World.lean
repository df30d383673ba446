import SessionShell.Host.Machine
import SessionShell.Programs.Raw

/-! What running programs share: the files and the open streams. A program reaches a stream by a
number of its own, its descriptor. -/

namespace SessionShell.Programs

inductive Stream
  | source (rest : Bytes)
  | sink (written : List Bytes)
  | file (place : Place) (offset : Nat) (readable writable atEnd : Bool)
  | directory
  | null

/-- The files, the streams by their indices, the number of processes so far, and the signals that
were sent to processes that have not noticed them. -/
structure World where
  files : FileSystem
  streams : Array Stream := #[]
  processes : Nat := 1
  signals : List (Nat × Nat) := []

namespace World

def stream (w : World) (index : Nat) : Stream :=
  w.streams.getD index .null

def setStream (w : World) (index : Nat) (s : Stream) : World :=
  { w with streams := w.streams.setIfInBounds index s }

def addStream (w : World) (s : Stream) : Nat × World :=
  (w.streams.size, { w with streams := w.streams.push s })

def content (w : World) (place : Place) : Bytes :=
  match w.files.entry? place with
  | some (.file content _) => content
  | some (.installed _) => FileSystem.installedContent
  | _ => []

def read (w : World) (index : Nat) (count : Option Nat) : Except IoError Bytes × World :=
  let part (rest : Bytes) : Bytes := rest.take (count.getD rest.length)
  match w.stream index with
  | .source rest =>
    let bytes := part rest
    (.ok bytes, w.setStream index (.source (rest.drop bytes.length)))
  | .file place offset true writable atEnd =>
    let bytes := part ((w.content place).drop offset)
    (.ok bytes, w.setStream index (.file place (offset + bytes.length) true writable atEnd))
  | .null => (.ok [], w)
  | .directory => (.error .isDirectory, w)
  | .sink _ | .file .. => (.error .badDescriptor, w)

def left (w : World) (index : Nat) : Bytes :=
  match w.stream index with
  | .source rest => rest
  | .file place offset true _ _ => (w.content place).drop offset
  | _ => []

/-- Puts bytes into a content at an offset. Zeros fill what lies in front of it. -/
def splice (content : Bytes) (offset : Nat) (bytes : Bytes) : Bytes :=
  content.take offset ++ List.replicate (offset - content.length) 0 ++ bytes ++
    content.drop (offset + bytes.length)

def write (w : World) (index : Nat) (bytes : Bytes) : Except IoError Unit × World :=
  match w.stream index with
  | .sink written =>
    (.ok (), if bytes = [] then w else w.setStream index (.sink (bytes :: written)))
  | .file place offset readable true atEnd =>
    match w.files.entry? place with
    | some (.file content executable) =>
      let start := if atEnd then content.length else offset
      let files := w.files.insert place (.file (splice content start bytes) executable)
      (.ok (), { w with files }.setStream index
        (.file place (start + bytes.length) readable true atEnd))
    | _ => (.ok (), w)
  | .null => (.ok (), w)
  | .source _ | .directory | .file .. => (.error .badDescriptor, w)

def written (w : World) (index : Nat) : Bytes :=
  match w.stream index with
  | .sink written => written.reverse.flatten
  | _ => []

def unread (w : World) (index : Nat) : Bytes :=
  match w.stream index with
  | .source rest => rest
  | _ => []

def fork (w : World) : Nat × World :=
  (w.processes + 1, { w with processes := w.processes + 1 })

end World

structure Process where
  name : Raw
  arguments : List Raw := []
  environment : List Raw := []
  directory : Place
  descriptors : List (Nat × Nat)
  number : Nat
  parent : Nat
  ignored : List Nat := []
  mask : Nat := 18

namespace Process

def descriptor? (p : Process) (n : Nat) : Option Nat :=
  p.descriptors.lookup n

def value? (p : Process) (name : Raw) : Option Raw :=
  p.environment.findSome? fun entry =>
    let front := entry.toList.takeWhile (· ≠ '=')
    if String.ofList front = name then some (String.ofList (entry.toList.drop (front.length + 1)))
    else none

end Process

inductive Opening
  | read
  | write
  | append
  | both
  deriving DecidableEq, Repr

namespace World

def deviceDescriptor? (place : Place) : Option Nat :=
  match place with
  | ["dev", "stdin"] => some 0
  | ["dev", "stdout"] => some 1
  | ["dev", "stderr"] => some 2
  | ["dev", "fd", n] => n.toNat?
  | _ => none

def openFile (w : World) (p : Process) (path : Raw) (opening : Opening) :
    Except IoError Nat × World :=
  let purpose : FileSystem.Purpose := if opening = .read then .find else .create
  match w.files.place p.directory (Raw.text path) purpose with
  | .error e => (.error e, w)
  | .ok place =>
    match deviceDescriptor? place with
    | some n =>
      match p.descriptor? n with
      | some index => (.ok index, w)
      | none => (.error .noEntry, w)
    | none =>
      let added (w : World) (s : Stream) : Except IoError Nat × World :=
        let (index, w) := w.addStream s
        (.ok index, w)
      match w.files.entry? place, opening with
      | none, .read => (.error .noEntry, w)
      | some .directory, .read => added w .directory
      | some .directory, _ => (.error .isDirectory, w)
      | some .null, _ => added w .null
      | some (.link _), _ => (.error .linkLoop, w)
      | some (.installed _), .read => added w (.file place 0 true false false)
      | some (.installed _), _ => (.error .textBusy, w)
      | some (.file _ _), .read => added w (.file place 0 true false false)
      | entry, opening =>
        let content := match entry, opening with
          | some (.file content _), .append | some (.file content _), .both => content
          | _, _ => []
        let executable := match entry with
          | some (.file _ executable) => executable
          | _ => false
        let files := w.files.insert place (.file content executable)
        added { w with files } (.file place 0 (opening == .both) true (opening == .append))

def readFrom (w : World) (p : Process) (descriptor : Nat) (count : Option Nat) :
    Except IoError Bytes × World :=
  match p.descriptor? descriptor with
  | some index => w.read index count
  | none => (.error .badDescriptor, w)

def writeTo (w : World) (p : Process) (descriptor : Nat) (bytes : Bytes) :
    Except IoError Unit × World :=
  match p.descriptor? descriptor with
  | some index => w.write index bytes
  | none => (.error .badDescriptor, w)

end World

end SessionShell.Programs
