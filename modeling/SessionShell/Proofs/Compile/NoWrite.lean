import SessionShell.Proofs.Compile.Writes

/-! Compiling without writing. No code is written, but every directory of a module gets its header
all the same. So a file system stays as it is just where the headers stand already. -/

namespace SessionShell.Compile

/-- Without writing and running, a place stays as it is just if it held already the header that is
last written to it, and the files as a whole stay as they are just if that goes for every place.
Headers are written to nothing but the header files in the directories of a module. -/
theorem untouched_iff {σ : Type} {b : Backend σ} (detached : b.Detached) (path : String) (s : σ) :
    let writes := pathWrites b ⟨false, false⟩ path s
    let before := b.files s
    let after := b.files (compilePath b ⟨false, false⟩ path s)
    let held (place : Place) := ∀ content,
      before.lastTo? b.directory writes place = some content → before.content? place = some content
    (after = before ↔ ∀ place, held place) ∧
      (∀ place, after.entry? place = before.entry? place ↔ held place) ∧
      ∀ write ∈ writes, before.isDirectory b.directory path ∧
        ∃ d, .ok d ∈ moduleTree before b.directory path ∧
          write.1 = Path.join d.path bootstrapFile := by
  intro writes before after held
  have ends : after = before.attempts b.directory writes :=
    files_compilePath detached rfl path s
  refine ⟨?_, fun place => ?_, fun write member => mem_pathWrites_nowrite b rfl member⟩
  · rw [ends]
    exact FileSystem.attempts_eq_self_iff writes
  · rw [ends]
    exact FileSystem.entry?_attempts_eq_iff writes place

theorem untouched_bootstrapped :
    let m := Machine.holding [(["m"], .directory),
      (["m", "__bootstrap__"], .file (Text.Utf8.encode Checked.header) false)]
    let s : Frontend Value ShellContext := { host := ⟨m, false⟩ }
    (Frontend.builtin m).files (compilePath (Frontend.builtin m) ⟨false, false⟩ "m" s) =
      m.files := by
  intro m s
  have headers : pathWrites (Frontend.builtin m) ⟨false, false⟩ "m" s =
      [("m/__bootstrap__", Text.Utf8.encode Checked.header)] := by decide +kernel
  have lands : m.files.landing? [] "m/__bootstrap__" = some ["m", "__bootstrap__"] := by
    decide +kernel
  refine (untouched_iff (Frontend.builtin_detached m) "m" s).1.mpr fun place content last => ?_
  change m.files.lastTo? [] _ place = some content at last
  rw [headers, FileSystem.lastTo?_cons, lands] at last
  by_cases same : ["m", "__bootstrap__"] = place
  · subst same
    cases last
    decide +kernel
  · have others : some ["m", "__bootstrap__"] ≠ some place := mt Option.some.inj same
    rw [if_neg others] at last
    cases last

/-- A directory without sources gets a header. -/
theorem header_written_unasked :
    let m := Machine.holding [(["m"], .directory)]
    let s : Frontend Value ShellContext := { host := ⟨m, false⟩ }
    let after := (Frontend.builtin m).files
      (compilePath (Frontend.builtin m) ⟨false, false⟩ "m" s)
    after ≠ m.files ∧
      after.entry? ["m", "__bootstrap__"] =
        some (.file (Text.Utf8.encode Checked.header) false) := by
  intro m s after
  have absent : m.files.entry? ["m", "__bootstrap__"] = none := by decide +kernel
  have written : after.entry? ["m", "__bootstrap__"] =
      some (.file (Text.Utf8.encode Checked.header) false) := by decide +kernel
  refine ⟨fun same => ?_, written⟩
  rw [same, absent] at written
  cases written

end SessionShell.Compile
