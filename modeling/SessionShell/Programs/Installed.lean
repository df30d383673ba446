import SessionShell.Host.Machine

/-! A small machine with the programs that the shell is used with. -/

namespace SessionShell.Programs

def installed : List String :=
  ["cat", "env", "false", "printf", "sh", "sort", "tr", "true", "wc"]

def programDirectory : Place := ["usr", "bin"]

def hostEntries : List (Place × Entry) :=
  [(["bin"], .link "usr/bin"), (["dev"], .directory), (["dev", "null"], .null),
    (["usr"], .directory), (programDirectory, .directory)] ++
  installed.map fun name => (programDirectory ++ [name], .installed name)

def addEntry (fs : FileSystem) (place : Place) (entry : Entry) : FileSystem :=
  let above := (List.range place.length).filterMap fun n =>
    if n = 0 then none else some (place.take n)
  let dirs := above.foldl
    (fun fs p => if fs.entries.contains p then fs else fs.insert p .directory) fs
  dirs.insert place entry

def filesWith (entries : List (Place × Entry)) : FileSystem :=
  (hostEntries ++ entries).foldl (fun fs (place, entry) => addEntry fs place entry) { entries := ∅ }

end SessionShell.Programs
