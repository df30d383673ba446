import Mathlib.Data.List.Induction
import Mathlib.Data.String.Basic
import SessionShell.Proofs.Host.FileName

/-! Paths that names are joined to, one after the other. The path of a trail of names tells the
trail. -/

namespace SessionShell.Path

/-- A name that leads from a directory to something in it. -/
structure IsName (name : String) : Prop where
  nonempty : name ≠ ""
  noDot : name ≠ "."
  noDots : name ≠ ".."
  segment : '/' ∉ name.toList

def front (path : String) : List Char :=
  if path.toList.getLast? = some '/' then path.toList else path.toList ++ ['/']

theorem IsName.not_absolute {name : String} (segment : '/' ∉ name.toList) :
    isAbsolute name = false := by
  cases text : name.toList with
  | nil => simp [isAbsolute, text]
  | cons c rest =>
    have other : c ≠ '/' := fun same => segment (by simp [text, same])
    simpa [isAbsolute, text] using other

section Join

variable {path name : String} (written : path ≠ "") (segment : '/' ∉ name.toList)
include written segment

theorem toList_join : (join path name).toList = front path ++ name.toList := by
  have relative := IsName.not_absolute segment
  unfold join front
  rw [relative, if_neg (by simpa using written)]
  split
  · rw [String.toList_append]
  · simp

theorem divided_join (nonempty : name ≠ "") : Divided (join path name) (front path) name.toList where
  text := toList_join written segment
  slash := by
    refine .inr ?_
    unfold front
    split
    · rename_i slash
      obtain ⟨before, text⟩ := List.getLast?_eq_some_iff.mp slash
      exact ⟨before, text⟩
    · exact ⟨path.toList, rfl⟩
  segment := segment
  named := mt String.toList_eq_nil_iff.mp nonempty

theorem join_ne_empty (nonempty : name ≠ "") : join path name ≠ "" := by
  intro empty
  have text := toList_join written segment
  rw [empty] at text
  exact nonempty (String.toList_eq_nil_iff.mp (List.append_eq_nil_iff.mp text.symm).2)

theorem contains_join {c : Char} (other : c ≠ '/') (absent : path.toList.contains c = false) :
    (join path name).toList.contains c = name.toList.contains c := by
  rw [toList_join written segment, front]
  split <;> simp_all

theorem isAbsolute_join : isAbsolute (join path name) = isAbsolute path := by
  have nonempty : path.toList ≠ [] := fun empty => written (String.toList_eq_nil_iff.mp empty)
  rw [isAbsolute, isAbsolute, toList_join written segment, front]
  split
  · rw [List.head?_append_of_ne_nil _ nonempty]
  · rw [List.append_assoc, List.head?_append_of_ne_nil _ nonempty]

end Join

def component? (segment : String) : Option Component :=
  if segment = "" || segment = "." then none
  else if segment = ".." then some .parent
  else some (.name segment)

theorem IsName.component?_eq {name : String} (isName : IsName name) :
    component? name = some (.name name) := by
  simp [component?, isName.nonempty, isName.noDot, isName.noDots]

theorem components_eq {path first : String} {rest : List String}
    (parts : segments path = first :: rest) :
    components path =
      (if first = "" then if rest.isEmpty then [] else [.root]
        else if first = "." then [.current]
        else (component? first).toList) ++ rest.filterMap component? := by
  unfold components
  rw [parts]
  rfl

section Join

variable {path name : String} (written : path ≠ "") (segment : '/' ∉ name.toList)
include written segment

theorem segments_join :
    ∃ first rest, segments (join path name) = first :: (rest ++ [name]) ∧
      (segments path = first :: (rest ++ [""]) ∨
        segments path = first :: rest ∧ (first = "" → rest ≠ [])) := by
  have alone : name.toList.splitOn '/' = [name.toList] := List.splitOn_eq_singleton segment
  have apart (before : List Char) : ((before ++ '/' :: name.toList).splitOn '/').map String.ofList =
      (before.splitOn '/').map String.ofList ++ [name] := by
    rw [List.splitOn_append_cons_self, alone, List.map_append, List.map_singleton,
      String.ofList_toList]
  have begun (before : List Char) :
      ∃ first rest, (before.splitOn '/').map String.ofList = first :: rest := by
    apply List.exists_cons_of_ne_nil
    simp [List.splitOn_ne_nil]
  have text := toList_join written segment
  unfold front at text
  split at text
  · rename_i slash
    obtain ⟨before, ends⟩ := List.getLast?_eq_some_iff.mp slash
    obtain ⟨first, rest, parts⟩ := begun before
    refine ⟨first, rest, ?_, .inl ?_⟩
    · rw [segments, text, ends, List.append_assoc, List.singleton_append, apart, parts]
      rfl
    · rw [segments, ends, List.splitOn_append_cons_self, List.map_append, parts]
      rfl
  · obtain ⟨first, rest, parts⟩ := begun path.toList
    refine ⟨first, rest, ?_, .inr ⟨parts, ?_⟩⟩
    · rw [segments, text, List.append_assoc, List.singleton_append, apart, parts]
      rfl
    · rintro rfl rfl
      obtain ⟨chars, split, empty⟩ := List.map_eq_singleton_iff.mp parts
      have whole := @List.intercalate_splitOn _ path.toList _ _ '/'
      rw [split, String.ofList_eq_empty_iff.mp empty] at whole
      exact written (String.toList_eq_nil_iff.mp whole.symm)

theorem components_join {added : Component} (counts : component? name = some added) :
    components (join path name) = components path ++ [added] := by
  obtain ⟨first, rest, joined, ends | ⟨ends, more⟩⟩ := segments_join written segment
  · have blank : component? "" = none := rfl
    rw [components_eq joined, components_eq ends]
    simp [counts, blank]
  · rw [components_eq joined, components_eq ends]
    by_cases slash : first = ""
    · simp [slash, more slash, counts]
    · simp [slash, counts]

end Join

def along (root : String) (trail : List String) : String :=
  trail.foldl join root

theorem along_concat (root : String) (trail : List String) (name : String) :
    along root (trail ++ [name]) = join (along root trail) name := by
  simp [along]

section Along

variable {root : String} (written : root ≠ "")
include written

theorem along_ne_empty {trail : List String} (names : ∀ name ∈ trail, IsName name) :
    along root trail ≠ "" := by
  induction trail using List.reverseRecOn with
  | nil => exact written
  | append_singleton trail name ih =>
    obtain ⟨above, last⟩ := List.forall_mem_append.mp names
    have isName := last name (List.mem_singleton_self name)
    rw [along_concat]
    exact join_ne_empty (ih above) isName.segment isName.nonempty

theorem components_along {trail : List String} (names : ∀ name ∈ trail, IsName name) :
    components (along root trail) = components root ++ trail.map .name := by
  induction trail using List.reverseRecOn with
  | nil => simp [along]
  | append_singleton trail name ih =>
    obtain ⟨above, last⟩ := List.forall_mem_append.mp names
    have isName := last name (List.mem_singleton_self name)
    rw [along_concat, components_join (along_ne_empty written above) isName.segment
      isName.component?_eq, ih above, List.map_append, List.append_assoc]
    rfl

theorem along_injective {trail other : List String} (names : ∀ name ∈ trail, IsName name)
    (names' : ∀ name ∈ other, IsName name) (same : along root trail = along root other) :
    trail = other := by
  have texts := congrArg components same
  rw [components_along written names, components_along written names'] at texts
  have injective : Function.Injective Component.name := fun one other same => by cases same; rfl
  exact List.map_injective_iff.mpr injective (List.append_cancel_left texts)

end Along

end SessionShell.Path
