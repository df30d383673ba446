import SessionShell.CommandLine
import SessionShell.Proofs.Host.Writing

/-! The files that compiling leaves. Where the rest of the program leaves the files alone, they are
those of before after the writes of the codes and of the headers, in the order of the walk. -/

namespace SessionShell

/-- Translating and reporting leave the files as they are; code that runs may change them. -/
structure Backend.Detached {σ : Type} (b : Backend σ) : Prop where
  translate : ∀ text mode s, b.files (b.translate text mode s).2 = b.files s
  header : ∀ s, b.files (b.header s).2 = b.files s
  report : ∀ r s, b.files (b.report r s) = b.files s
  setFiles : ∀ files s, b.files (b.setFiles files s) = files

abbrev FileWrite := String × Bytes

namespace Compile

variable {σ : Type} (b : Backend σ)

def writesOf {α : Type} (step : σ → α → σ) (writes : α → σ → List FileWrite) :
    List α → σ → List FileWrite
  | [], _ => []
  | a :: rest, s => writes a s ++ writesOf step writes rest (step s a)

def codeOf (mode : Mode) (source : String) (s : σ) : Option String :=
  let s := b.report (.info ("Compiling '" ++ source ++ "'...")) s
  match (b.files s).readText b.directory source with
  | .error _ => none
  | .ok text => (b.translate text mode s).1.toOption

def codeWrites (settings : Settings) (mode : Mode) (source : String) (s : σ) : List FileWrite :=
  match codeOf b mode source s with
  | some code => if settings.write then [(destination source, Text.Utf8.encode code)] else []
  | none => []

def headerWrites (path : String) (s : σ) : List FileWrite :=
  match (b.header s).1 with
  | .ok header => [(Path.join path bootstrapFile, Text.Utf8.encode header)]
  | .error _ => []

def directoryWrites (settings : Settings) : Except Failure ModuleDirectory → σ → List FileWrite
  | .error _, _ => []
  | .ok d, s =>
    headerWrites b d.path s ++
      writesOf (fun s source => compileFile b settings .module source s)
        (codeWrites b settings .module) d.sources (reporting b (bootstrap b d.path s))

def pathWrites (settings : Settings) (path : String) (s : σ) : List FileWrite :=
  if (b.files s).isFile b.directory path then codeWrites b settings .file path s
  else if (b.files s).isDirectory b.directory path then
    writesOf (compileDirectory b settings) (directoryWrites b settings)
      (moduleTree (b.files s) b.directory path) s
  else []

theorem mem_writesOf {α : Type} {step : σ → α → σ} {writes : α → σ → List FileWrite} {l : List α}
    {s : σ} {write : FileWrite} (member : write ∈ writesOf step writes l s) :
    ∃ a ∈ l, ∃ t, write ∈ writes a t := by
  induction l generalizing s with
  | nil => cases member
  | cons a rest ih =>
    rcases List.mem_append.mp member with first | later
    · exact ⟨a, List.mem_cons_self, s, first⟩
    · obtain ⟨c, among, t, written⟩ := ih later
      exact ⟨c, List.mem_cons_of_mem a among, t, written⟩

section NoWrite

variable {settings : Settings} (off : settings.write = false)
include off

theorem codeWrites_nowrite (mode : Mode) (source : String) (s : σ) :
    codeWrites b settings mode source s = [] := by
  unfold codeWrites
  rw [off]
  split <;> rfl

theorem mem_pathWrites_nowrite {path : String} {s : σ} {write : FileWrite}
    (member : write ∈ pathWrites b settings path s) :
    (b.files s).isDirectory b.directory path ∧
      ∃ d, .ok d ∈ moduleTree (b.files s) b.directory path ∧
        write.1 = Path.join d.path bootstrapFile := by
  unfold pathWrites at member
  split at member
  · rw [codeWrites_nowrite b off] at member
    cases member
  split at member
  · rename_i noFile directory
    obtain ⟨_ | d, among, t, written⟩ := mem_writesOf member
    · cases written
    · refine ⟨directory, d, among, ?_⟩
      rcases List.mem_append.mp written with header | code
      · unfold headerWrites at header
        split at header
        · cases List.mem_singleton.mp header
          rfl
        · cases header
      · obtain ⟨source, -, u, code⟩ := mem_writesOf code
        rw [codeWrites_nowrite b off] at code
        cases code
  · cases member

end NoWrite

variable {b} (detached : b.Detached)
include detached

theorem files_writeFile (path text : String) (s : σ) :
    b.files (writeFile b path text s).2 =
      (b.files s).attempt b.directory path (Text.Utf8.encode text) := by
  unfold writeFile FileSystem.attempt
  cases (b.files s).write b.directory path (Text.Utf8.encode text) with
  | error e => rfl
  | ok files => exact detached.setFiles files s

theorem files_reporting (result : Except Failure Unit × σ) :
    b.files (reporting b result) = b.files result.2 := by
  obtain ⟨_ | _, s⟩ := result
  · exact detached.report _ _
  · rfl

theorem files_bootstrap (path : String) (s : σ) :
    b.files (bootstrap b path s).2 = (b.files s).attempts b.directory (headerWrites b path s) := by
  have kept := detached.header s
  unfold bootstrap headerWrites
  split
  · rename_i e s' fails
    rw [fails] at kept ⊢
    exact kept
  · rename_i header s' ends
    rw [ends] at kept ⊢
    rw [files_writeFile detached, kept, FileSystem.attempts_singleton]

theorem files_writeCode (source code : String) (s : σ) :
    b.files (writeCode b source code s).2 =
      (b.files s).attempt b.directory (destination source) (Text.Utf8.encode code) := by
  rw [← files_writeFile detached]
  unfold writeCode
  split
  · rename_i s' written
    rw [detached.report, written]
  · rename_i e s' fails
    rw [fails]

theorem files_compile {settings : Settings} (off : settings.run = false) (mode : Mode)
    (source : String) (s : σ) :
    b.files (compile b settings mode source s).2 =
      (b.files s).attempts b.directory (codeWrites b settings mode source s) := by
  have begun := detached.report (.info ("Compiling '" ++ source ++ "'...")) s
  unfold compile codeWrites codeOf
  generalize b.report (.info ("Compiling '" ++ source ++ "'...")) s = t at begun ⊢
  dsimp only
  rcases read : (b.files t).readText b.directory source with e | text
  · exact begun
  · have kept := (detached.translate text mode t).trans begun
    dsimp only
    generalize b.translate text mode t = translated at kept ⊢
    -- only the write of the code is left to do, and nothing is run
    obtain ⟨e | code, u⟩ := translated <;> dsimp only [Except.toOption] at kept ⊢
    · exact kept
    · rw [off]
      by_cases write : settings.write
      · have written := files_writeCode detached source code u
        rw [kept] at written
        rw [if_pos write, if_pos write, FileSystem.attempts_singleton]
        generalize writeCode b source code u = ends at written ⊢
        obtain ⟨e | _, v⟩ := ends
        · exact written
        · exact written
      · rw [if_neg write, if_neg write]
        exact kept

theorem files_compileFile {settings : Settings} (off : settings.run = false) (mode : Mode)
    (source : String) (s : σ) :
    b.files (compileFile b settings mode source s) =
      (b.files s).attempts b.directory (codeWrites b settings mode source s) := by
  rw [compileFile, files_reporting detached, files_compile detached off]

omit detached in
theorem files_foldl {α : Type} {step : σ → α → σ} {writes : α → σ → List FileWrite}
    (steps : ∀ a s, b.files (step s a) = (b.files s).attempts b.directory (writes a s))
    (l : List α) (s : σ) :
    b.files (l.foldl step s) = (b.files s).attempts b.directory (writesOf step writes l s) := by
  induction l generalizing s with
  | nil => rfl
  | cons a rest ih =>
    rw [List.foldl_cons, ih, steps, writesOf, FileSystem.attempts_append]

theorem files_compileDirectory {settings : Settings} (off : settings.run = false)
    (d : Except Failure ModuleDirectory) (s : σ) :
    b.files (compileDirectory b settings s d) =
      (b.files s).attempts b.directory (directoryWrites b settings d s) := by
  cases d with
  | error e => exact detached.report _ _
  | ok d =>
    rw [compileDirectory, files_foldl (files_compileFile detached off .module),
      files_reporting detached, files_bootstrap detached, directoryWrites,
      FileSystem.attempts_append]

theorem files_compilePath {settings : Settings} (off : settings.run = false) (path : String)
    (s : σ) :
    b.files (compilePath b settings path s) =
      (b.files s).attempts b.directory (pathWrites b settings path s) := by
  unfold compilePath pathWrites
  split
  · exact files_compileFile detached off .file path s
  split
  · exact files_foldl (files_compileDirectory detached off) _ s
  · exact detached.report _ _

end Compile

/-- Translating leaves the files of the machine as they are. -/
structure Translator.Detached (t : Translator) : Prop where
  translate : ∀ text mode m, (t.translate text mode m).2.files = m.files
  header : ∀ m, (t.header m).2.files = m.files

theorem Translator.detached_pure (translate : String → Mode → Except TranslateError String)
    (header : Except TranslateError String) : (Translator.pure translate header).Detached :=
  ⟨fun _ _ _ => rfl, fun _ => rfl⟩

namespace Frontend

variable {α κ : Type}

theorem detached {c : Setup α κ} (apart : c.translator.Detached) (directory : Place) :
    (backend c directory).Detached where
  translate text mode f := apart.translate text mode f.host.machine
  header f := apart.header f.host.machine
  report _ _ := rfl
  setFiles _ _ := rfl

/-- The front end over the built-in translator. No program can be started on its machine. -/
def builtin (m : Machine) : Backend (Frontend Value ShellContext) :=
  backend (CommandLine.setup (fun _ m => (.error .noEntry, m)) (Checked.translator false) {} m)
    m.directory

theorem builtin_detached (m : Machine) : (builtin m).Detached :=
  detached (Translator.detached_pure _ _) m.directory

end Frontend

def Machine.holding (entries : List (Place × Entry)) : Machine :=
  { files := { entries := .ofList entries }, directory := [], environment := ∅, input := ⟨[], []⟩ }

end SessionShell
