import SessionShell.Programs.World

/-! Loading programs: which program a path stands for, and what it is called with. A file that begins
with `#!` names the program that reads it. -/

namespace SessionShell.Programs

structure Loaded where
  program : String
  name : Raw
  arguments : List Raw

namespace Loaded

def headSize : Nat := 256

def isBlank (c : Char) : Bool :=
  c = ' ' || c = '\t'

def isZero (c : Char) : Bool :=
  c.toNat = 0

/-- The line behind `#!`. Without a newline in sight the name has to end in sight. -/
def headLine? (head : List Char) : Option (List Char) :=
  let visible := head.takeWhile (!isZero ·)
  if visible.contains '\n' then
    some ((visible.takeWhile (· ≠ '\n')).reverse.dropWhile isBlank).reverse
  else
    let body := head.dropWhile isBlank
    if body.isEmpty || !body.any (fun c => isBlank c || isZero c) then none else some head

/-- The program that the head of a file names, and the one argument that may follow the name;
`none` if the file has another format. -/
def interpreter? (content : Bytes) : Option (Raw × Option Raw) :=
  match (content.take headSize ++ List.replicate (headSize - content.length) 0).map
      Raw.charOfByte with
  | '#' :: '!' :: rest =>
    match headLine? (rest.take (headSize - 2)) with
    | none => none
    | some line =>
      match line.dropWhile isBlank with
      | [] => none
      | body =>
        let name := body.takeWhile fun c => !isBlank c && !isZero c
        let argument := match body.drop name.length with
          | c :: rest =>
            if isZero c then none
            else
              let rest := (c :: rest).dropWhile isBlank
              if rest.isEmpty then none else some (String.ofList (rest.takeWhile (!isZero ·)))
          | [] => none
        some (String.ofList name, argument)
  | _ => none

def nesting : Nat := 5

/-- Loads the program at a path. The number tells how many files in front of it named another. -/
def find (files : FileSystem) (directory : Place) :
    Nat → Raw → Raw → List Raw → Except IoError Loaded
  | 0, path, _, _ => do
    match ← files.find directory (Raw.text path) with
    | .file _ true | .installed _ => throw .linkLoop
    | _ => throw .permission
  | more + 1, path, name, arguments => do
    match ← files.find directory (Raw.text path) with
    | .installed program => return { program, name, arguments }
    | .file content true =>
      match interpreter? content with
      | none => throw .execFormat
      | some (interpreter, argument) =>
        find files directory more interpreter interpreter (argument.toList ++ path :: arguments)
    | _ => throw .permission

def argumentLimit : Nat := 131072

def totalLimit : Nat := 2097152

def isTooLarge (path : Raw) (arguments environment : List Raw) : Bool :=
  let texts := arguments ++ environment
  texts.any (argumentLimit ≤ ·.length) ||
    totalLimit < path.length + 1 + texts.foldl (fun room text => room + text.length + 9) 0

def load (files : FileSystem) (path : Raw) (p : Process) : Except IoError Loaded := do
  match ← files.find p.directory (Raw.text path) with
  | .installed _ | .file _ true =>
    if isTooLarge path (p.name :: p.arguments) p.environment then throw .argumentsTooLong
    else find files p.directory (nesting + 1) path p.name p.arguments
  | _ => throw .permission

def fallback : Raw := "/bin/sh"

/-- Loads the program at a path. With `asScript` a file of no known format is read by the shell. -/
def loadAs (files : FileSystem) (asScript : Bool) (p : Process) (path : Raw) :
    Except IoError Loaded :=
  match load files path p, asScript with
  | .error .execFormat, true =>
    load files fallback { p with name := fallback, arguments := path :: p.arguments }
  | result, _ => result

def candidates (searchPath name : Raw) : List Raw :=
  (searchPath.toList.splitOn ':').map fun d => Path.join (String.ofList d) name

/-- Loads the program of a name for a process: a path if it has a slash, else the first program of
that name on the search path of the environment. -/
def search (files : FileSystem) (asScript : Bool) (name : Raw) (p : Process) :
    Except IoError Loaded :=
  if name.toList.contains '/' then loadAs files asScript p name
  else if name = "" then .error .noEntry
  else if FileSystem.nameLimit < name.length then .error .nameTooLong
  else
    (candidates ((p.value? "PATH").getD "/bin:/usr/bin") name).foldr
      (fun path more (refused : Bool) =>
        match loadAs files asScript p path with
        | .ok loaded => .ok loaded
        | .error .permission => more true
        | .error .noEntry | .error .notDirectory => more refused
        | .error e => .error e)
      (fun refused => .error (if refused then .permission else .noEntry)) false

example : (["#!/bin/sh\n", "#! /bin/sh -e x \n", "#!\n", "#!/bin/sh\x0d\n", "#! \t\n"].map fun s =>
    interpreter? (Raw.bytes s)) =
      [some ("/bin/sh", none), some ("/bin/sh", some "-e x"), none, some ("/bin/sh\x0d", none),
        none] := by
  decide +kernel

end Loaded

end SessionShell.Programs
