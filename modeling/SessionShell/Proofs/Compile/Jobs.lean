import SessionShell.Proofs.Compile.Preorder
import SessionShell.Proofs.Compile.Writes

/-! Compiling a module as a row of jobs: a directory that cannot be listed, the header of a directory,
and each of its sources. What a job comes to can be said from the files it finds and from what the
backend answers; it is what the backend is asked for, and either a failure or what is written. -/

namespace SessionShell

/-- The answers of a backend that looks at nothing but what it is asked. -/
structure Answers where
  translate : String → Mode → Except TranslateError String
  header : Except TranslateError String

/-- The backend gives these answers always, and leaves the files alone. -/
structure Backend.Gives {σ : Type} (b : Backend σ) (a : Answers) : Prop extends b.Detached where
  translates : ∀ text mode s, (b.translate text mode s).1 = a.translate text mode
  heads : ∀ s, (b.header s).1 = a.header

inductive Request
  | translate (text : String) (mode : Mode)
  | header
  | execute (code : String)
  | report (r : Report)
  deriving DecidableEq, Repr

def Request.complaint? : Request → Option String
  | .report (.error message) => some message
  | _ => none

def Backend.recording {σ : Type} (b : Backend σ) : Backend (σ × List Request) where
  translate text mode s :=
    let (code, t) := b.translate text mode s.1
    (code, t, s.2 ++ [.translate text mode])
  header s :=
    let (code, t) := b.header s.1
    (code, t, s.2 ++ [.header])
  execute code s := (b.execute code s.1, s.2 ++ [.execute code])
  report r s := (b.report r s.1, s.2 ++ [.report r])
  directory := b.directory
  files s := b.files s.1
  setFiles files s := (b.setFiles files s.1, s.2)

section Recording

variable {σ : Type} (b : Backend σ) (s : σ) (log : List Request)

theorem Backend.recording_translate (text : String) (mode : Mode) :
    b.recording.translate text mode (s, log) =
      ((b.translate text mode s).1, (b.translate text mode s).2, log ++ [.translate text mode]) :=
  rfl

theorem Backend.recording_header :
    b.recording.header (s, log) = ((b.header s).1, (b.header s).2, log ++ [.header]) :=
  rfl

theorem Backend.recording_report (r : Report) :
    b.recording.report r (s, log) = (b.report r s, log ++ [.report r]) :=
  rfl

end Recording

theorem Frontend.builtin_gives (m : Machine) :
    (Frontend.builtin m).Gives ⟨Checked.translate false, .ok Checked.header⟩ where
  toDetached := Frontend.builtin_detached m
  translates _ _ _ := rfl
  heads _ := rfl

namespace Compile

inductive Job
  | unlisted (failure : Failure)
  | bootstrap (directory : String)
  | source (path : String)
  deriving DecidableEq, Repr

def jobsOf : Except Failure ModuleDirectory → List Job
  | .error f => [.unlisted f]
  | .ok d => .bootstrap d.path :: d.sources.map .source

section Performing

variable {σ : Type} (b : Backend σ) (settings : Settings)

def Job.perform (s : σ) : Job → σ
  | .unlisted f => b.report (.error f.message) s
  | .bootstrap path => reporting b (Compile.bootstrap b path s)
  | .source path => compileFile b settings .module path s

theorem compileTree_eq (tree : List (Except Failure ModuleDirectory)) (s : σ) :
    compileTree b settings tree s = (tree.flatMap jobsOf).foldl (Job.perform b settings) s := by
  induction tree generalizing s with
  | nil => rfl
  | cons d tree ih =>
    have first : compileDirectory b settings s d =
        (jobsOf d).foldl (Job.perform b settings) s := by
      cases d with
      | error f => rfl
      | ok d =>
        rw [jobsOf, List.foldl_cons, List.foldl_map]
        rfl
    rw [List.flatMap_cons, List.foldl_append, ← first, ← ih]
    rfl

end Performing

/-- A module that is compiled without running it: the files, where its root is looked up, which
directories cannot be listed besides, what the backend answers, and whether codes are written. -/
structure Build where
  files : FileSystem
  directory : Place
  root : String
  locked : String → Option IoError
  answers : Answers
  write : Bool

namespace Build

variable (w : Build)

def settings : Settings :=
  ⟨w.write, false⟩

def tree : List (Except Failure ModuleDirectory) :=
  walk (barred w.locked (w.files.list w.directory)) (w.files.entries.size + 1) [w.root]

def jobs : List Job :=
  w.tree.flatMap jobsOf

def writing (path text : String) : Except Failure (List FileWrite) :=
  match w.files.write w.directory path (Text.Utf8.encode text) with
  | .ok _ => .ok [(path, Text.Utf8.encode text)]
  | .error e => .error ⟨["failed to write " ++ path], .io e⟩

def result : Job → Except Failure (List FileWrite)
  | .unlisted f => .error f
  | .bootstrap path =>
    match w.answers.header with
    | .error e => .error { cause := .untranslated e }
    | .ok header => w.writing (Path.join path bootstrapFile) header
  | .source path =>
    match w.files.readText w.directory path with
    | .error e => .error ⟨["failed to read " ++ path], .io e⟩
    | .ok text =>
      match w.answers.translate text .module with
      | .error e => .error ⟨["failed to compile " ++ path], .untranslated e⟩
      | .ok code => if w.write then w.writing (destination path) code else .ok []

def failure? (job : Job) : Option Failure :=
  match w.result job with
  | .error f => some f
  | .ok _ => none

def writes (job : Job) : List FileWrite :=
  match w.result job with
  | .error _ => []
  | .ok writes => writes

def inquiries : Job → List Request
  | .unlisted _ => []
  | .bootstrap _ => [.header]
  | .source path =>
    .report (.info ("Compiling '" ++ path ++ "'...")) ::
      match w.files.readText w.directory path with
      | .error _ => []
      | .ok text => [.translate text .module]

def praise : Job → List Request
  | .source path =>
    if w.write then [.report (.info ("Compiled '" ++ destination path ++ "'."))] else []
  | _ => []

/-- What a job asks for. A failure is reported last. -/
def requests (job : Job) : List Request :=
  w.inquiries job ++
    match w.result job with
    | .error f => [.report (.error f.message)]
    | .ok _ => w.praise job

end Build

section Performing

variable {σ : Type} {b : Backend σ} {w : Build}

theorem writeFile_recording (path text : String) (s : σ) (log : List Request) :
    writeFile b.recording path text (s, log) =
      ((writeFile b path text s).1, (writeFile b path text s).2, log) := by
  unfold writeFile
  simp only [Backend.recording]
  cases (b.files s).write b.directory path (Text.Utf8.encode text) <;> rfl

variable (place : b.directory = w.directory) {s : σ} (found : b.files s = w.files)

include place found in
theorem writeFile_eq (path text : String) :
    (writeFile b path text s).1 = (w.writing path text).map fun _ => () := by
  unfold writeFile Build.writing
  rw [place, found]
  cases w.files.write w.directory path (Text.Utf8.encode text) <;> rfl

include place found in
theorem writeCode_recording (source code : String) (log : List Request) :
    (writeCode b source code s).1 = (w.writing (destination source) code).map (fun _ => ()) ∧
      writeCode b.recording source code (s, log) =
        ((writeCode b source code s).1, (writeCode b source code s).2,
          log ++
            match w.writing (destination source) code with
            | .error _ => []
            | .ok _ => [.report (.info ("Compiled '" ++ destination source ++ "'."))]) := by
  have answer := writeFile_eq place found (destination source) code
  unfold writeCode
  rw [writeFile_recording]
  generalize writeFile b (destination source) code s = written at answer
  obtain ⟨e | _, t⟩ := written <;> cases written' : w.writing (destination source) code <;>
    simp_all [Except.map, Backend.recording_report]

variable (gives : b.Gives w.answers)
include gives place found

theorem bootstrap_recording (path : String) (log : List Request) :
    (bootstrap b path s).1 = (w.result (.bootstrap path)).map (fun _ => ()) ∧
      bootstrap b.recording path (s, log) =
        ((bootstrap b path s).1, (bootstrap b path s).2, log ++ w.inquiries (.bootstrap path)) := by
  have kept := (gives.header s).trans found
  have answer := gives.heads s
  unfold bootstrap Build.result Build.inquiries
  rw [Backend.recording_header, ← answer]
  generalize b.header s = headed at kept
  obtain ⟨e | header, t⟩ := headed
  · exact ⟨rfl, rfl⟩
  · exact ⟨writeFile_eq place kept _ header, writeFile_recording _ header t _⟩

theorem compile_recording (path : String) (log : List Request) :
    (compile b w.settings .module path s).1 = (w.result (.source path)).map (fun _ => ()) ∧
      compile b.recording w.settings .module path (s, log) =
        ((compile b w.settings .module path s).1, (compile b w.settings .module path s).2,
          log ++ (w.inquiries (.source path) ++
            match w.result (.source path) with
            | .error _ => []
            | .ok _ => w.praise (.source path))) := by
  have begun := (gives.report (.info ("Compiling '" ++ path ++ "'...")) s).trans found
  unfold compile Build.result Build.inquiries
  rw [Backend.recording_report]
  generalize b.report (.info ("Compiling '" ++ path ++ "'...")) s = t at begun ⊢
  have sameFiles (log : List Request) : b.recording.files (t, log) = w.files := begun
  have samePlace : b.recording.directory = w.directory := place
  dsimp only
  rw [sameFiles, samePlace, begun, place]
  rcases w.files.readText w.directory path with e | text
  · simp [Except.map]
  · have kept := (gives.translate text .module t).trans begun
    have answer := gives.translates text .module t
    dsimp only
    rw [Backend.recording_translate, ← answer]
    generalize b.translate text .module t = translated at kept ⊢
    obtain ⟨e | code, u⟩ := translated
    · simp [Except.map]
    · cases write : w.write with
      | false => simp [Except.map, Build.settings, Build.praise, write]
      | true =>
        obtain ⟨result, recorded⟩ := writeCode_recording place kept path code
          (log ++ [.report (.info ("Compiling '" ++ path ++ "'..."))] ++ [.translate text .module])
        simp only [Build.settings, write, if_true, Bool.false_eq_true, if_false, Build.praise]
        rw [recorded]
        generalize writeCode b path code u = written at result
        obtain ⟨_ | _, v⟩ := written <;> cases written' : w.writing (destination path) code <;>
          simp_all [Except.map]

omit place found gives in
theorem reporting_recording (ends : Except Failure Unit × σ) (log : List Request) :
    reporting b.recording (ends.1, ends.2, log) =
      (reporting b ends, log ++
        match ends.1 with
        | .error f => [.report (.error f.message)]
        | .ok _ => []) := by
  obtain ⟨_ | _, t⟩ := ends
  · rfl
  · simp [reporting]

theorem perform_recording (job : Job) (log : List Request) :
    job.perform b.recording w.settings (s, log) =
      (job.perform b w.settings s, log ++ w.requests job) := by
  cases job with
  | unlisted f => rfl
  | bootstrap path =>
    obtain ⟨answer, recorded⟩ := bootstrap_recording place found gives path log
    rw [Job.perform, recorded, reporting_recording, answer]
    cases result : w.result (.bootstrap path) <;>
      simp [Build.requests, Build.praise, Job.perform, result, Except.map]
  | source path =>
    obtain ⟨answer, recorded⟩ := compile_recording place found gives path log
    rw [Job.perform, compileFile, recorded, reporting_recording, answer]
    cases result : w.result (.source path) <;>
      simp [Build.requests, Job.perform, compileFile, result, Except.map]

omit place found gives in
theorem attempts_writing (path text : String) :
    (w.files.attempts w.directory <| match w.writing path text with
      | .error _ => []
      | .ok writes => writes) = w.files.attempt w.directory path (Text.Utf8.encode text) := by
  unfold Build.writing FileSystem.attempt
  cases written : w.files.write w.directory path (Text.Utf8.encode text) with
  | error e => rfl
  | ok files => simp [FileSystem.attempts, FileSystem.attempt, written]

theorem files_perform (job : Job) :
    b.files (job.perform b w.settings s) = w.files.attempts w.directory (w.writes job) := by
  cases job with
  | unlisted f => exact (gives.report _ s).trans found
  | bootstrap path =>
    rw [Job.perform, files_reporting gives.toDetached, files_bootstrap gives.toDetached, found,
      place, headerWrites, gives.heads, Build.writes, Build.result]
    cases w.answers.header with
    | error e => rfl
    | ok header => exact (attempts_writing _ header).symm
  | source path =>
    have begun := (gives.report (.info ("Compiling '" ++ path ++ "'...")) s).trans found
    rw [Job.perform, files_compileFile gives.toDetached rfl, found, place, codeWrites, codeOf,
      begun, place, Build.writes, Build.result]
    rcases w.files.readText w.directory path with e | text
    · rfl
    · dsimp only
      rw [gives.translates]
      rcases w.answers.translate text .module with e | code
      · rfl
      · have write : w.settings.write = w.write := rfl
        dsimp only [Except.toOption]
        rw [write]
        split
        · rw [attempts_writing, FileSystem.attempts_singleton]
        · rfl

end Performing

end Compile

end SessionShell
