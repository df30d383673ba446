import SessionShell.Host.Lookup
import SessionShell.Proofs.Host.Plain
import SessionShell.Proofs.Host.Trail

/-! What the text of a command name says about the program it stands for, and when that program is
the one that is found. The lookup goes by the components of the name, in which slashes at the end
and dots leave no trace; so a single name with such an end is looked up as if it had none. -/

namespace SessionShell

/-- What a command name stands for by its text: with a slash in it, the path itself if something is
there; without one, the first file of this name in the directories of the search path. -/
inductive Resolves (m : Machine) (search name : String) : Option String → Prop
  | there (slash : '/' ∈ name.toList) (here : m.exists? name = true) :
      Resolves m search name (some name)
  | missing (slash : '/' ∈ name.toList) (absent : m.exists? name = false) :
      Resolves m search name none
  | first {directory : String} {front back : List String} (plain : '/' ∉ name.toList)
      (directories : searchDirectories search = front ++ directory :: back)
      (skipped : ∀ d ∈ front, m.isFile (Path.join d name) = false)
      (file : m.isFile (Path.join directory name) = true) :
      Resolves m search name (some (Path.join directory name))
  | nowhere (plain : '/' ∉ name.toList)
      (skipped : ∀ d ∈ searchDirectories search, m.isFile (Path.join d name) = false) :
      Resolves m search name none

section Search

variable {m : Machine} {search name : String}

theorem findInSearchPath_eq : findInSearchPath m search name =
    ((searchDirectories search).find? fun d => m.isFile (Path.join d name)).map
      (Path.join · name) := by
  rw [findInSearchPath, List.find?_map]
  rfl

theorem findInSearchPath_eq_none_iff : findInSearchPath m search name = none ↔
    ∀ d ∈ searchDirectories search, m.isFile (Path.join d name) = false := by
  simp [findInSearchPath_eq]

theorem resolves_iff {found : Option String} : Resolves m search name found ↔
    found = if '/' ∈ name.toList then findByPath m name else findInSearchPath m search name := by
  constructor
  · intro resolves
    cases resolves with
    | there slash here => simp [slash, findByPath, here]
    | missing slash absent => simp [slash, findByPath, absent]
    | @first directory front back plain directories skipped file =>
      have found : (searchDirectories search).find? (fun d => m.isFile (Path.join d name)) =
          some directory := by
        refine List.find?_eq_some_iff_append.mpr ⟨file, front, back, directories, ?_⟩
        intro d member
        simp [skipped d member]
      rw [if_neg plain, findInSearchPath_eq, found, Option.map_some]
    | nowhere plain skipped => rw [if_neg plain, findInSearchPath_eq_none_iff.mpr skipped]
  · rintro rfl
    split
    case isTrue slash =>
      unfold findByPath
      split
      case isTrue here => exact .there slash here
      case isFalse absent => exact .missing slash (by simpa using absent)
    case isFalse plain =>
      rw [findInSearchPath_eq]
      cases found : (searchDirectories search).find? fun d => m.isFile (Path.join d name) with
      | none => exact .nowhere plain (by simpa using found)
      | some directory =>
        obtain ⟨file, front, back, directories, skipped⟩ := List.find?_eq_some_iff_append.mp found
        exact .first plain directories (by simpa using skipped) file

end Search

namespace FileSystem

variable {fs : FileSystem} {purpose : Purpose} {place : Place} {steps : List Step}

/-- A stretch that ends in a directory, or at a link with steps behind it that end with a dot. -/
def Stretch.Inside (fs : FileSystem) : Stretch → Prop
  | .reached found => fs.entry? found = some .directory
  | .link _ _ rest => rest.getLast? = some (.name ".")

theorem Leads.inside_of_dot {stretch : Stretch} (leads : fs.Leads purpose place steps stretch)
    (dot : steps.getLast? = some (.name ".")) : stretch.Inside fs := by
  induction leads with
  | done place => cases dot
  | @stay place step rest stretch directory still onward ih =>
    cases rest with
    | nil =>
      cases onward
      exact directory
    | cons next rest => exact ih (by simpa using dot)
  | @up place rest stretch directory onward ih =>
    cases rest with
    | nil => simp at dot
    | cons next rest => exact ih (by simpa using dot)
  | @down place text rest stretch directory proper enters short noLink onward ih =>
    cases rest with
    | nil => exact absurd (by simpa using dot) proper.1
    | cons next rest => exact ih (by simpa using dot)
  | keep directory proper short link kept =>
    obtain ⟨-, rfl⟩ := kept
    exact absurd (by simpa using dot) proper.1
  | @link place text target rest directory proper enters short link followed =>
    cases rest with
    | nil => exact absurd (by simpa using dot) proper.1
    | cons next rest => simpa [Stretch.Inside] using dot

theorem directory_of_dot {links : Nat} {found : Place} (dot : steps.getLast? = some (.name "."))
    (follows : fs.follow purpose links place steps = .ok found) :
    fs.entry? found = some .directory := by
  fun_induction fs.follow purpose links place steps with
  | case1 links place steps e stops => cases follows
  | case2 links place steps reached here =>
    cases follows
    exact (leads_of_advance here).inside_of_dot dot
  | case3 place steps directory target rest here => cases follows
  | case4 place steps directory target rest here links ih =>
    have onward : rest.getLast? = some (.name ".") :=
      (leads_of_advance here).inside_of_dot dot
    exact ih (by simp [List.getLast?_append, onward]) follows

theorem isFile_of_dot {directory : Place} {path : String} {front : List String}
    (segments : Path.segments path = front ++ ["."]) : fs.isFile directory path = false := by
  by_contra file
  obtain ⟨found, leads, stands⟩ := exists_of_isFile (eq_true_of_ne_false file)
  have dot : (FileSystem.steps path).getLast? = some (.name ".") := by
    simp [steps_of_segments segments]
  have reached : fs.entry? found = some .directory := by
    unfold FileSystem.place at leads
    split at leads
    · cases leads
    split at leads
    · cases leads
    split at leads
    · cases leads
    exact directory_of_dot dot leads
  rw [reached] at stands
  simp at stands

end FileSystem

namespace Path

/-- The path is a name with slashes behind it, and perhaps dots, that lead nowhere else. -/
structure Trailed (path name : String) : Prop where
  named : name ≠ "" ∧ name ≠ "."
  trail : ∃ tail, tail ≠ [] ∧ segments path = name :: tail ∧ ∀ s ∈ tail, s = "" ∨ s = "."

theorem segments_plain {path : String} (plain : '/' ∉ path.toList) : segments path = [path] := by
  rw [segments, List.splitOn_eq_singleton plain, List.map_singleton, String.ofList_toList]

theorem exists_segments {path : String} (slash : '/' ∈ path.toList) :
    ∃ first tail, segments path = first :: tail ∧ tail ≠ [] ∧ '/' ∉ first.toList := by
  obtain ⟨front, back, text, plain⟩ := List.eq_append_cons_of_mem slash
  refine ⟨String.ofList front, (back.splitOn '/').map String.ofList, ?_, ?_, ?_⟩
  · rw [segments, text, List.splitOn_append_cons_self, List.splitOn_eq_singleton plain]
    rfl
  · simp
  · simpa using plain

theorem component?_eq_none_iff {segment : String} :
    component? segment = none ↔ segment = "" ∨ segment = "." := by
  unfold component?
  split
  · simp_all
  · split <;> simp_all

theorem component?_eq_some {segment : String} {component : Component}
    (counts : component? segment = some component) :
    component.text = segment ∧ component ≠ .root ∧ component ≠ .current := by
  unfold component? at counts
  split at counts
  · cases counts
  split at counts
  · rename_i parent
    cases counts
    exact ⟨parent.symm, by simp, by simp⟩
  · cases counts
    exact ⟨rfl, by simp, by simp⟩

theorem segments_join_name (directory : String) {name : String} (plain : '/' ∉ name.toList) :
    ∃ front, segments (join directory name) = front ++ [name] := by
  by_cases written : directory = ""
  · refine ⟨[], ?_⟩
    have alone : join directory name = name := by simp [join, written]
    rw [alone, segments_plain plain]
    rfl
  · obtain ⟨first, rest, joined, -⟩ := segments_join written plain
    exact ⟨first :: rest, joined⟩

namespace Trailed

variable {path name : String} (trailed : Trailed path name)
include trailed

theorem slash : '/' ∈ path.toList := by
  obtain ⟨tail, nonempty, segments, -⟩ := trailed.trail
  by_contra plain
  rw [segments_plain plain] at segments
  exact nonempty (List.cons.inj segments).2.symm

theorem plain : '/' ∉ name.toList := by
  obtain ⟨tail, -, segments, -⟩ := trailed.trail
  obtain ⟨first, others, parts, -, plain⟩ := exists_segments trailed.slash
  rw [segments] at parts
  exact (List.cons.inj parts).1 ▸ plain

theorem join_ne (directory : String) : join directory name ≠ path := by
  intro same
  obtain ⟨tail, nonempty, segments, blank⟩ := trailed.trail
  obtain ⟨front, joined⟩ := segments_join_name directory trailed.plain
  have last : tail.getLast? = some name := by
    have ends := congrArg List.getLast? (joined.symm.trans (same ▸ segments))
    rw [List.getLast?_concat, List.getLast?_cons_of_ne_nil nonempty] at ends
    exact ends.symm
  rcases blank name (List.mem_of_getLast? last) with empty | dot
  · exact trailed.named.1 empty
  · exact trailed.named.2 dot

end Trailed

theorem components_of_segments {path first : String} {tail : List String}
    (segments : segments path = first :: tail) (named : first ≠ "" ∧ first ≠ ".") :
    ∃ component, components path = component :: tail.filterMap component? ∧
      component.text = first ∧ component ≠ .root ∧ component ≠ .current := by
  rw [components_eq segments, if_neg named.1, if_neg named.2]
  cases counts : component? first with
  | none =>
    rcases component?_eq_none_iff.mp counts with empty | dot
    · exact absurd empty named.1
    · exact absurd dot named.2
  | some component => exact ⟨component, rfl, component?_eq_some counts⟩

end Path

section Command

variable {m : Machine} {search name : String}

theorem findInSearchPath_dot : findInSearchPath m search "." = none := by
  rw [findInSearchPath_eq_none_iff]
  intro directory _
  have plain : '/' ∉ ".".toList := by decide
  obtain ⟨front, joined⟩ := Path.segments_join_name directory plain
  exact FileSystem.isFile_of_dot joined

theorem findCommand_of_components {first second : Path.Component} {more : List Path.Component}
    (components : Path.components name = first :: second :: more) :
    findCommand m search name = findByPath m name := by
  rw [findCommand, components]
  cases first <;> rfl

theorem findCommand_of_component {only : Path.Component}
    (components : Path.components name = [only]) (noRoot : only ≠ .root)
    (noDot : only ≠ .current) :
    findCommand m search name = findInSearchPath m search only.text := by
  rw [findCommand, components]
  cases only with
  | root => exact absurd rfl noRoot
  | current => exact absurd rfl noDot
  | parent => rfl
  | name text => rfl

theorem findCommand_of_dot {more : List Path.Component}
    (components : Path.components name = .current :: more) :
    findCommand m search name = findByPath m name := by
  cases more with
  | nil => rw [findCommand, components, findInSearchPath_dot, Option.or_none]
  | cons second more => exact findCommand_of_components components

/-- A name with a slash in it is found as its text says, unless it is a single name that only
slashes and dots follow. -/
theorem findCommand_of_slash (slash : '/' ∈ name.toList)
    (untrailed : ∀ only, ¬ Path.Trailed name only) :
    findCommand m search name = findByPath m name := by
  obtain ⟨first, tail, segments, nonempty, -⟩ := Path.exists_segments slash
  by_cases empty : first = ""
  · have more : tail.isEmpty = false := by simpa using nonempty
    rw [findCommand, Path.components_eq segments, if_pos empty, more]
    rfl
  by_cases dot : first = "."
  · apply findCommand_of_dot
    rw [Path.components_eq segments, if_neg empty, if_pos dot]
    rfl
  obtain ⟨component, components, -⟩ := Path.components_of_segments segments ⟨empty, dot⟩
  cases more : tail.filterMap Path.component? with
  | nil =>
    refine absurd ⟨⟨empty, dot⟩, tail, nonempty, segments, ?_⟩ (untrailed first)
    intro s member
    exact Path.component?_eq_none_iff.mp (List.filterMap_eq_nil_iff.mp more s member)
  | cons second rest => exact findCommand_of_components (components.trans (by rw [more]))

theorem findCommand_of_trailed {only : String} (trailed : Path.Trailed name only) :
    findCommand m search name = findInSearchPath m search only := by
  obtain ⟨tail, -, segments, blank⟩ := trailed.trail
  obtain ⟨component, components, text, noRoot, noDot⟩ :=
    Path.components_of_segments segments trailed.named
  have nothing : tail.filterMap Path.component? = [] := by
    rw [List.filterMap_eq_nil_iff]
    intro s member
    exact Path.component?_eq_none_iff.mpr (blank s member)
  rw [nothing] at components
  rw [findCommand_of_component components noRoot noDot, text]

theorem findCommand_of_plain (written : name ≠ "") (plain : '/' ∉ name.toList)
    (noDot : name ≠ ".") :
    findCommand m search name = findInSearchPath m search name := by
  obtain ⟨component, components, text, noRoot, noCurrent⟩ :=
    Path.components_of_segments (Path.segments_plain plain) ⟨written, noDot⟩
  rw [findCommand_of_component components noRoot noCurrent, text]

theorem findInSearchPath_eq_findByPath_iff {only : String} (trailed : Path.Trailed name only) :
    findInSearchPath m search only = findByPath m name ↔
      m.exists? name = false ∧
        ∀ d ∈ searchDirectories search, m.isFile (Path.join d only) = false := by
  rw [← findInSearchPath_eq_none_iff]
  unfold findByPath
  constructor
  · intro same
    split at same
    case isTrue here =>
      rw [findInSearchPath_eq, Option.map_eq_some_iff] at same
      obtain ⟨directory, -, joined⟩ := same
      exact absurd joined (trailed.join_ne directory)
    case isFalse absent => exact ⟨by simpa using absent, same⟩
  · rintro ⟨absent, nowhere⟩
    simp [absent, nowhere]

/-- The program that is found is the one that the text of the name stands for, with two exceptions.
A dot stands for what is there, though it has no slash. A single name that only slashes and dots
follow is looked up without them; so it is right only if neither way leads anywhere. -/
theorem findCommand_resolves_iff (m : Machine) (search : String) (written : name ≠ "") :
    Resolves m search name (findCommand m search name) ↔
      (name = "." → m.exists? name = false) ∧
      ∀ only, Path.Trailed name only → m.exists? name = false ∧
        ∀ d ∈ searchDirectories search, m.isFile (Path.join d only) = false := by
  rw [resolves_iff]
  by_cases slash : '/' ∈ name.toList
  · have noDot : name ≠ "." := by
      rintro rfl
      revert slash
      decide
    rw [if_pos slash]
    constructor
    · intro same
      refine ⟨fun dot => absurd dot noDot, ?_⟩
      intro only trailed
      rw [findCommand_of_trailed trailed] at same
      exact (findInSearchPath_eq_findByPath_iff trailed).mp same
    · rintro ⟨-, nowhere⟩
      by_cases untrailed : ∀ only, ¬ Path.Trailed name only
      · exact findCommand_of_slash slash untrailed
      · obtain ⟨only, trailed⟩ := not_forall_not.mp untrailed
        rw [findCommand_of_trailed trailed]
        exact (findInSearchPath_eq_findByPath_iff trailed).mpr (nowhere only trailed)
  · have untrailed (only : String) : ¬ Path.Trailed name only := fun trailed => slash trailed.slash
    rw [if_neg slash]
    by_cases dot : name = "."
    · subst dot
      have components : Path.components "." = .current :: [] := by decide +kernel
      rw [findCommand_of_dot components, findInSearchPath_dot]
      simp [findByPath, untrailed]
    · simp [findCommand_of_plain written slash dot, dot, untrailed]

end Command

def Machine.equipped : Machine :=
  { files.entries := .ofList [(["bin"], Entry.directory), (["bin", "prog"], .file [] true)]
    directory := []
    environment := ∅
    input := ⟨[], []⟩ }

theorem findCommand_resolves_second :
    "prog" ≠ "" ∧ Resolves .equipped "lib::bin" "prog" (findCommand .equipped "lib::bin" "prog") ∧
      findCommand .equipped "lib::bin" "prog" = some "bin/prog" := by
  have written : "prog" ≠ "" := by decide
  refine ⟨written, (findCommand_resolves_iff .equipped "lib::bin" written).mpr ⟨?_, ?_⟩, ?_⟩
  · intro dot
    exact absurd dot (by decide)
  · intro only trailed
    exact absurd trailed.slash (by decide)
  · decide +kernel

/-- A slash at the end is dropped for the search, and the program found is not the one meant. -/
theorem trailing_slash_searched :
    let m := Machine.equipped
    m.exists? "prog/" = false ∧ Resolves m "bin" "prog/" none ∧
      findCommand m "bin" "prog/" = some "bin/prog" ∧
      ¬ Resolves m "bin" "prog/" (findCommand m "bin" "prog/") := by
  intro m
  have absent : m.exists? "prog/" = false := by decide +kernel
  have found : findCommand m "bin" "prog/" = some "bin/prog" := by decide +kernel
  refine ⟨absent, .missing (by decide) absent, found, ?_⟩
  rw [resolves_iff, found]
  simp [findByPath, absent]

end SessionShell
