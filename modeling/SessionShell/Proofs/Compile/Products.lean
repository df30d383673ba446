import SessionShell.Proofs.Compile.Destination
import SessionShell.Proofs.Host.Children

/-! What compiling a module adds to its directories. The code of a source and the header of a
directory go to names that no source has, so that the sources are found as they were. -/

namespace SessionShell

namespace Path

theorem IsName.divided {name : String} (isName : IsName name) : Divided name [] name.toList where
  text := rfl
  slash := .inl rfl
  segment := isName.segment
  named := mt String.toList_eq_nil_iff.mp isName.nonempty

theorem IsName.proper {name : String} (isName : IsName name) :
    name.toList ≠ ['.'] ∧ name.toList ≠ ['.', '.'] :=
  ⟨fun dot => isName.noDot (String.toList_inj.mp dot),
    fun dots => isName.noDots (String.toList_inj.mp dots)⟩

theorem extension?_join {path name : String} (written : path ≠ "") (isName : IsName name) :
    extension? (join path name) = extension? name := by
  rw [(divided_join written isName.segment isName.nonempty).extension?_eq isName.proper,
    isName.divided.extension?_eq isName.proper]

theorem exists_withExtension {name : List Char} (proper : name ≠ ['.'] ∧ name ≠ ['.', '.'])
    (extension : String) :
    ∃ other, ∀ {path : String} {before : List Char}, Divided path before name →
      withExtension path extension = String.ofList (before ++ other) := by
  by_cases dotted : '.' ∈ name.tail
  · obtain ⟨stem, old, split, begun, last⟩ := exists_extension dotted
    by_cases dot : stem = ['.']
    · exact ⟨_, fun divided => divided.withExtension_dots split begun last proper dot extension⟩
    · exact ⟨_, fun divided => divided.withExtension_dotted split begun last proper dot extension⟩
  · exact ⟨_, fun divided => divided.withExtension_undotted proper dotted extension⟩

theorem withExtension_join {path name extension : String} (written : path ≠ "")
    (isName : IsName name) (plain : '/' ∉ extension.toList) :
    withExtension (join path name) extension = join path (withExtension name extension) := by
  obtain ⟨other, renamed⟩ := exists_withExtension isName.proper extension
  obtain ⟨last, divided, -⟩ := isName.divided.exists_renamed isName.proper plain
  have alone : withExtension name extension = String.ofList other := renamed isName.divided
  have same : last = other := by
    have text := divided.text
    rw [alone, String.toList_ofList] at text
    exact text.symm
  apply String.toList_inj.mp
  rw [renamed (divided_join written isName.segment isName.nonempty), alone,
    toList_join written (by simpa [← same] using divided.segment), String.toList_ofList,
    String.toList_ofList]

end Path

namespace Compile

section Names

variable {name : String} (isName : Path.IsName name)
include isName

theorem isSource_join {path : String} (written : path ≠ "") :
    isSource (Path.join path name) = isSource name := by
  rw [isSource, isSource, Path.extension?_join written isName]

theorem destination_join {path : String} (written : path ≠ "") :
    destination (Path.join path name) = Path.join path (destination name) :=
  Path.withExtension_join written isName (by decide)

theorem exists_stem (source : isSource name = true) :
    ∃ stem, stem ≠ [] ∧ name.toList = stem ++ '.' :: sourceExtension.toList := by
  rw [isSource, decide_eq_true_iff, isName.divided.extension?_eq isName.proper] at source
  by_cases dotted : '.' ∈ name.toList.tail
  · obtain ⟨stem, old, split, begun, last⟩ := Path.exists_extension dotted
    rw [split, Path.splitExtension_dotted begun last, Option.map_some, Option.some.injEq] at source
    refine ⟨stem, begun, ?_⟩
    rw [split, ← source, String.toList_ofList]
  · rw [Path.splitExtension_undotted dotted] at source
    cases source

/-- The code of a source keeps the stem of the source, but goes to the directory above if the stem is
a dot. -/
theorem toList_destination {stem : List Char} (begun : stem ≠ [])
    (split : name.toList = stem ++ '.' :: sourceExtension.toList) :
    (destination name).toList =
      if stem = ['.'] then ['.', '.'] else stem ++ '.' :: compiledExtension.toList := by
  have last : '.' ∉ sourceExtension.toList := by decide
  unfold destination
  split
  · rename_i dot
    rw [isName.divided.withExtension_dots split begun last isName.proper dot, String.toList_ofList]
    rfl
  · rename_i named
    rw [isName.divided.withExtension_dotted split begun last isName.proper named,
      String.toList_ofList]
    rfl

theorem destination_name (source : isSource name = true) :
    destination name = ".." ∨
      Path.IsName (destination name) ∧
        Path.extension? (destination name) = some compiledExtension := by
  obtain ⟨stem, begun, split⟩ := exists_stem isName source
  have text := toList_destination isName begun split
  split at text
  · exact .inl (String.toList_inj.mp text)
  have segment := isName.segment
  rw [split] at segment
  have noSlash : '/' ∉ stem := fun member => segment (List.mem_append_left _ member)
  have isName' : Path.IsName (destination name) := by
    refine ⟨fun empty => ?_, fun dot => ?_, fun dots => ?_, ?_⟩
    · simp [empty] at text
    · have length := congrArg List.length text
      simp [dot, compiledExtension] at length
    · have length := congrArg List.length text
      simp [dots, compiledExtension] at length
    · rw [text]
      simp [noSlash, compiledExtension]
  refine .inr ⟨isName', ?_⟩
  rw [isName'.divided.extension?_eq isName'.proper, text,
    Path.splitExtension_dotted begun (by decide)]
  rfl

end Names

theorem destination_injective {one other : String} (isName : Path.IsName one)
    (isName' : Path.IsName other) (source : isSource one = true) (source' : isSource other = true)
    (same : destination one = destination other) : one = other := by
  obtain ⟨stem, begun, split⟩ := exists_stem isName source
  obtain ⟨stem', begun', split'⟩ := exists_stem isName' source'
  have text := congrArg String.toList same
  rw [toList_destination isName begun split, toList_destination isName' begun' split'] at text
  have longer (stem : List Char) : ['.', '.'] ≠ stem ++ '.' :: compiledExtension.toList := by
    intro equal
    have length := congrArg List.length equal
    simp [compiledExtension] at length
  have stems : stem = stem' := by
    split at text <;> split at text
    · rename_i dot dot'
      rw [dot, dot']
    · exact absurd text (longer stem')
    · exact absurd text.symm (longer stem)
    · exact List.append_cancel_right text
  rw [← String.toList_inj, split, split', stems]

theorem bootstrap_isName : Path.IsName bootstrapFile :=
  ⟨by decide, by decide, by decide, by decide⟩

theorem destination_ne_bootstrap {name : String} (isName : Path.IsName name)
    (source : isSource name = true) : destination name ≠ bootstrapFile := by
  intro same
  rcases destination_name isName source with up | ⟨-, extension⟩
  · rw [up] at same
    exact absurd same (by decide)
  · rw [same] at extension
    exact absurd extension (by decide +kernel)

end Compile

end SessionShell
