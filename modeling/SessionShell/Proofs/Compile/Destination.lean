import SessionShell.Proofs.Compile.Writes
import SessionShell.Proofs.Host.Plain

/-! Where the code of a source goes. The extension of a path decides whether its destination is the
path itself; then the source is lost, unless it is its own code. -/

namespace SessionShell.Compile

section Divided

variable {path : String} {before name : List Char} (divided : Path.Divided path before name)
  (proper : name ≠ ['.'] ∧ name ≠ ['.', '.'])
include divided proper

theorem destination_divided :
    ∃ other, Path.Divided (destination path) before other ∧
      (other = name → destination path = path) ∧
      (destination path = path ↔
        Path.extension? path = some compiledExtension ∧
          (Path.fileName? path).map (·.2) ≠ some ('.' :: '.' :: compiledExtension.toList)) := by
  obtain ⟨other, apart, same⟩ :=
    divided.exists_renamed proper (by decide : '/' ∉ compiledExtension.toList)
  have kept : destination path = path ↔ other = name := by
    constructor
    · intro same
      have text := apart.text
      rw [← destination, same, divided.text] at text
      exact (List.append_cancel_left text).symm
    · rintro rfl
      exact apart.eq_ofList.trans divided.eq_ofList.symm
  refine ⟨other, apart, kept.mpr, kept.trans ?_⟩
  simp only [same, divided.fileName?_eq proper, Option.map_some, ne_eq, Option.some.injEq]

end Divided

theorem landing?_destination {fs : FileSystem} (plain : fs.Plain) {directory found : Place}
    {path : String} (leads : fs.place directory path .find = .ok found)
    (other : fs.entry? found ≠ some .directory) (apart : destination path ≠ path) :
    fs.landing? directory (destination path) ≠ some found := by
  intro lands
  obtain ⟨before, name, divided, proper⟩ := FileSystem.divided_of_place plain leads other
  obtain ⟨last, renamed, same, -⟩ := destination_divided divided proper
  have leads' : fs.place directory (destination path) .find = .ok found :=
    FileSystem.place_repurposed plain (FileSystem.landing?_eq_some.mp lands).1 (by simp) nofun
  exact apart (same (FileSystem.name_eq_of_place plain leads other divided renamed leads'))

theorem read_attempt_destination {fs : FileSystem} (plain : fs.Plain) {directory found : Place}
    {path : String} (leads : fs.place directory path .find = .ok found) {content : Bytes}
    {executable : Bool} (stands : fs.entry? found = some (.file content executable))
    (code : Bytes) :
    (fs.attempt directory (destination path) code).read directory path =
      if destination path = path then .ok code else fs.read directory path := by
  have other : fs.entry? found ≠ some .directory := by simp [stands]
  split
  · rename_i same
    have free : fs.terrain found = none :=
      FileSystem.terrain_eq_none.mpr (.inr ⟨content, executable, stands⟩)
    have lands : fs.landing? directory path = some found :=
      FileSystem.landing?_eq_some.mpr ⟨FileSystem.place_create plain leads other, free⟩
    rw [same]
    exact FileSystem.read_attempt fs directory path code lands leads
  · rename_i apart
    have elsewhere := landing?_destination plain leads other apart
    refine FileSystem.read_congr (FileSystem.terrain_attempt ..) leads ?_
    rw [FileSystem.entry?_attempt, if_neg elsewhere]

section Source

variable {σ : Type} {b : Backend σ} (detached : b.Detached)
include detached

theorem files_compilePath_of_file {path : String} {s : σ}
    (file : (b.files s).isFile b.directory path = true) :
    b.files (compilePath b ⟨true, false⟩ path s) =
      match codeOf b .file path s with
      | some code =>
        (b.files s).attempt b.directory (destination path) (Text.Utf8.encode code)
      | none => b.files s := by
  rw [files_compilePath detached rfl, pathWrites, if_pos file, codeWrites]
  cases codeOf b .file path s with
  | none => rfl
  | some code =>
    dsimp only
    rw [if_pos rfl, FileSystem.attempts_singleton]

theorem codeOf_of_unread {mode : Mode} {source : String} {s : σ} {e : IoError}
    (unread : (b.files s).readText b.directory source = .error e) :
    codeOf b mode source s = none := by
  unfold codeOf
  dsimp only
  rw [detached.report, unread]

/-- Without links, the content of a file that is compiled is what it was just if its code goes to
another path, or there is none, or it is the content. The code goes to the path itself just if that
has the extension of compiled files already, with more than a dot in front of it. -/
theorem source_kept_iff {path : String} {s : σ} (plain : (b.files s).Plain)
    (file : (b.files s).isFile b.directory path = true) :
    let before := b.files s
    let after := b.files (compilePath b ⟨true, false⟩ path s)
    (after.read b.directory path = before.read b.directory path ↔
        destination path ≠ path ∨ ∀ code, codeOf b .file path s = some code →
          before.read b.directory path = .ok (Text.Utf8.encode code)) ∧
      (destination path = path ↔
        Path.extension? path = some compiledExtension ∧
          (Path.fileName? path).map (·.2) ≠ some ('.' :: '.' :: compiledExtension.toList)) := by
  intro before after
  obtain ⟨found, leads, stands⟩ := FileSystem.exists_of_isFile file
  have other : before.entry? found ≠ some .directory := by
    rcases stands with ⟨content, executable, stands⟩ | ⟨name, stands⟩ <;> simp [before, stands]
  obtain ⟨front, name, divided, proper⟩ := FileSystem.divided_of_place plain leads other
  obtain ⟨-, -, -, chosen⟩ := destination_divided divided proper
  refine ⟨?_, chosen⟩
  have ends : after = _ := files_compilePath_of_file detached file
  cases translated : codeOf b .file path s with
  | none =>
    rw [translated] at ends
    refine iff_of_true (by rw [ends]) (.inr fun code some => ?_)
    cases some
  | some code =>
    -- a program that is part of the host is no text and would have no code
    obtain ⟨content, executable, stands⟩ := stands.resolve_right fun ⟨_, installed⟩ => by
      rw [codeOf_of_unread detached (FileSystem.readText_of_installed leads installed)]
        at translated
      cases translated
    rw [translated] at ends
    rw [ends, read_attempt_destination plain leads stands]
    by_cases same : destination path = path
    · rw [if_pos same]
      constructor
      · intro kept
        refine .inr fun other again => ?_
        cases again
        exact kept.symm
      · rintro (moved | held)
        · exact absurd same moved
        · exact (held code rfl).symm
    · rw [if_neg same]
      exact iff_of_true rfl (.inl same)

end Source

theorem source_kept_iff_hsk :
    let m := Machine.holding [(["x.hsk"], .file (Text.Utf8.encode "echo a\n") false)]
    let s : Frontend Value ShellContext := { host := ⟨m, false⟩ }
    let after := (Frontend.builtin m).files
      (compilePath (Frontend.builtin m) ⟨true, false⟩ "x.hsk" s)
    after.read [] "x.hsk" = m.files.read [] "x.hsk" := by
  intro m s after
  have plain : m.files.Plain := FileSystem.plain_of_entries (by decide +kernel)
  have kept := source_kept_iff (Frontend.builtin_detached m) (s := s) plain
    (by decide +kernel : m.files.isFile [] "x.hsk" = true)
  exact kept.1.mpr (.inl (by decide +kernel))

/-- A file with the extension of compiled files is overwritten by its code. -/
theorem compiled_source_lost :
    let m := Machine.holding [(["x.sh"], .file (Text.Utf8.encode "echo a") false)]
    let s : Frontend Value ShellContext := { host := ⟨m, false⟩ }
    let after := (Frontend.builtin m).files
      (compilePath (Frontend.builtin m) ⟨true, false⟩ "x.sh" s)
    m.files.Plain ∧ m.files.isFile [] "x.sh" = true ∧ destination "x.sh" = "x.sh" ∧
      after.read [] "x.sh" ≠ m.files.read [] "x.sh" := by
  intro m s after
  exact ⟨FileSystem.plain_of_entries (by decide +kernel), by decide +kernel, by decide +kernel,
    by decide +kernel⟩

end SessionShell.Compile
