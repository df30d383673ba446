import SessionShell.Report
import SessionShell.Failure

/-! Compiling files and module directories. Every problem is reported, and the rest goes on. -/

namespace SessionShell

structure Backend (σ : Type) where
  translate : String → Mode → σ → Except TranslateError String × σ
  header : σ → Except TranslateError String × σ
  execute : String → σ → σ
  report : Report → σ → σ
  directory : Place
  files : σ → FileSystem
  setFiles : FileSystem → σ → σ

namespace Compile

def sourceExtension : String := "hsk"

def compiledExtension : String := "sh"

def bootstrapFile : String := "__bootstrap__"

def destination (source : String) : String :=
  Path.withExtension source compiledExtension

def isSource (path : String) : Bool :=
  Path.extension? path = some sourceExtension

structure Settings where
  write : Bool
  run : Bool
  deriving DecidableEq, Repr

structure ModuleDirectory where
  path : String
  sources : List String
  deriving DecidableEq, Repr

abbrev Listing := String → Except IoError (List (String × Bool))

def sourcesOf (path : String) (entries : List (String × Bool)) : List String :=
  entries.filterMap fun (name, isDirectory) =>
    if isDirectory then none
    else if isSource (Path.join path name) then some (Path.join path name) else none

def directoriesOf (path : String) (entries : List (String × Bool)) : List String :=
  entries.filterMap fun (name, isDirectory) =>
    if isDirectory then some (Path.join path name) else none

/-- The pending directories and all below them, each in front of those in it. A directory that
cannot be listed leaves a failure in its place. The bound is the number of directories. -/
def walk (list : Listing) : Nat → List String → List (Except Failure ModuleDirectory)
  | 0, _ => []
  | _, [] => []
  | bound + 1, path :: pending =>
    match list path with
    | .error e =>
      .error ⟨["failed to read directory " ++ path], .io e⟩ :: walk list bound pending
    | .ok entries =>
      .ok ⟨path, sourcesOf path entries⟩ ::
        walk list bound (directoriesOf path entries ++ pending)

def moduleTree (fs : FileSystem) (directory : Place) (root : String) :
    List (Except Failure ModuleDirectory) :=
  walk (fs.list directory) (fs.entries.size + 1) [root]

variable {σ : Type} (b : Backend σ)

def writeFile (path text : String) (s : σ) : Except Failure Unit × σ :=
  match (b.files s).write b.directory path (Text.Utf8.encode text) with
  | .ok files => (.ok (), b.setFiles files s)
  | .error e => (.error ⟨["failed to write " ++ path], .io e⟩, s)

def writeCode (source code : String) (s : σ) : Except Failure Unit × σ :=
  match writeFile b (destination source) code s with
  | (.ok _, s) => (.ok (), b.report (.info ("Compiled '" ++ destination source ++ "'.")) s)
  | (.error e, s) => (.error e, s)

def compile (settings : Settings) (mode : Mode) (source : String) (s : σ) :
    Except Failure Unit × σ :=
  let s := b.report (.info ("Compiling '" ++ source ++ "'...")) s
  match (b.files s).readText b.directory source with
  | .error e => (.error ⟨["failed to read " ++ source], .io e⟩, s)
  | .ok text =>
    match b.translate text mode s with
    | (.error e, s) => (.error ⟨["failed to compile " ++ source], .untranslated e⟩, s)
    | (.ok code, s) =>
      match if settings.write then writeCode b source code s else (.ok (), s) with
      | (.error e, s) => (.error e, s)
      | (.ok _, s) => (.ok (), if settings.run then b.execute code s else s)

def bootstrap (path : String) (s : σ) : Except Failure Unit × σ :=
  match b.header s with
  | (.error e, s) => (.error { cause := .untranslated e }, s)
  | (.ok header, s) => writeFile b (Path.join path bootstrapFile) header s

def reporting (result : Except Failure Unit × σ) : σ :=
  match result with
  | (.ok _, s) => s
  | (.error e, s) => b.report (.error e.message) s

def compileFile (settings : Settings) (mode : Mode) (source : String) (s : σ) : σ :=
  reporting b (compile b settings mode source s)

def compileDirectory (settings : Settings) (s : σ) : Except Failure ModuleDirectory → σ
  | .error e => b.report (.error e.message) s
  | .ok d =>
    d.sources.foldl (fun s source => compileFile b settings .module source s)
      (reporting b (bootstrap b d.path s))

def compileTree (settings : Settings) (tree : List (Except Failure ModuleDirectory)) (s : σ) :
    σ :=
  tree.foldl (compileDirectory b settings) s

def compileModule (settings : Settings) (root : String) (s : σ) : σ :=
  compileTree b settings (moduleTree (b.files s) b.directory root) s

def compilePath (settings : Settings) (path : String) (s : σ) : σ :=
  if (b.files s).isFile b.directory path then compileFile b settings .file path s
  else if (b.files s).isDirectory b.directory path then compileModule b settings path s
  else b.report (.error ("Could not find path '" ++ path ++ "'")) s

end Compile

end SessionShell
