import SessionShell.CommandLine
import SessionShell.Programs.Installed
import SessionShell.Programs.Run

/-! The program on the working directory that it is called in. The directory is read before the
work, and the files that the work changed are written after it. -/

namespace SessionShell.Main

partial def readEntry (above : Place) (entry : IO.FS.DirEntry) : IO (List (Place × Entry)) := do
  let place := above ++ [entry.fileName]
  if ← entry.path.isDir then
    let mut found := [(place, Entry.directory)]
    for below in ← entry.path.readDir do
      found := found ++ (← readEntry place below)
    return found
  else
    let content := (← IO.FS.readBinFile entry.path).toList
    return [(place, .file content (content.take 2 = [35, 33]))]

def readEnvironment : IO (Scope String) := do
  let bytes := (← IO.FS.readBinFile "/proc/self/environ").toList
  return environmentOf ((bytes.splitOn 0).map Text.Utf8.decodeLossy)

partial def readAll (stream : IO.FS.Stream) (front : Bytes) : IO Bytes := do
  let bytes ← stream.read 65536
  if bytes.isEmpty then return front else readAll stream (front ++ bytes.toList)

def writeChanges (directory : Place) (before after : FileSystem) : IO Unit := do
  for (place, entry) in after.entries.toList do
    match entry with
    | .file content _ =>
      if place.take directory.length = directory && before.entries[place]? ≠ some entry then
        IO.FS.writeBinFile ("/" ++ "/".intercalate place) ⟨content.toArray⟩
    | _ => pure ()

def run (argv : List String) : IO UInt32 := do
  let current ← IO.currentDir
  let directory := Place.ofPath current.toString
  let mut entries : List (Place × Entry) := []
  for entry in ← current.readDir do
    entries := entries ++ (← readEntry directory entry)
  let machine : Machine :=
    { files := Programs.filesWith ((directory, .directory) :: entries), directory
      environment := ← readEnvironment
      input := ⟨[], ← readAll (← IO.getStdin) []⟩ }
  let called := CommandLine.call Programs.launcher argv machine
  writeChanges directory machine.files called.machine.files
  let output ← IO.getStdout
  output.write ⟨called.output.toArray⟩
  output.flush
  let complaints ← IO.getStderr
  complaints.write ⟨called.complaints.toArray⟩
  complaints.flush
  return called.status.toUInt32

end SessionShell.Main

def main (argv : List String) : IO UInt32 :=
  SessionShell.Main.run argv
