import SessionShell.Proofs.Host.FileName
import SessionShell.Proofs.Host.Ways

/-! File systems without links. A path that leads to something other than a directory there leads
into one and then to what its file name is called in it, so that two paths which differ in nothing
but the file name lead to two places. -/

namespace SessionShell

theorem Path.Divided.isAbsolute_eq {path : String} {before name : List Char}
    (divided : Path.Divided path before name) :
    Path.isAbsolute path = (before.head? == some '/') := by
  rw [Path.isAbsolute, divided.text]
  rcases divided.slash with rfl | ⟨front, rfl⟩
  · have segment := divided.segment
    obtain ⟨c, more, rfl⟩ := List.exists_cons_of_ne_nil divided.named
    have noSlash : c ≠ '/' := fun same => segment (same ▸ List.mem_cons_self)
    simpa using noSlash
  · cases front <;> rfl

def Entry.isLink : Entry → Bool
  | .link _ => true
  | _ => false

namespace FileSystem

/-- No links, and what stands anywhere stands in a directory. -/
structure Plain (fs : FileSystem) : Prop where
  inside : ∀ place, fs.entry? place ≠ none → fs.entry? place.dropLast = some .directory
  unlinked : ∀ place target, fs.entry? place ≠ some (.link target)

theorem plain_of_entries {fs : FileSystem}
    (entries : fs.entries.toList.all fun (place, entry) =>
      fs.entry? place.dropLast = some .directory && !entry.isLink) : fs.Plain := by
  have each {place : Place} {entry : Entry} (below : place ≠ [])
      (stands : fs.entry? place = some entry) :
      fs.entry? place.dropLast = some .directory ∧ entry.isLink = false := by
    rw [entry?_of_ne_root below] at stands
    have checked := List.all_eq_true.mp entries (place, entry)
      (Std.ExtTreeMap.mem_toList_iff_getElem?_eq_some.mpr stands)
    simpa only [Bool.and_eq_true, decide_eq_true_eq, Bool.not_eq_true'] using checked
  constructor
  · intro place stands
    by_cases root : place = []
    · subst root
      rfl
    · obtain ⟨entry, stands⟩ := Option.ne_none_iff_exists'.mp stands
      exact (each root stands).1
  · intro place target link
    by_cases root : place = []
    · subst root
      cases link
    · cases (each root link).2

theorem steps_of_segments {path : String} {front : List String} {last : String}
    (segments : Path.segments path = front ++ [last]) :
    steps path =
      (front.filter (· ≠ "")).map .name ++ [if last = "" then .inside else .name last] := by
  by_cases empty : last = "" <;> simp [steps, segments, empty]

theorem steps_of_slash {path : String} {front : List Char} (text : path.toList = front ++ ['/']) :
    ∃ names, steps path = names ++ [.inside] := by
  have segments : Path.segments path = (front.splitOn '/').map String.ofList ++ [""] := by
    rw [Path.segments, text, List.splitOn_append_cons_self]
    simp
  exact ⟨_, steps_of_segments segments⟩

/-- The steps that lead to the directory of the file, from what is in front of its name. -/
def stepsBefore (before : List Char) : List Step :=
  (((before.dropLast.splitOn '/').map String.ofList).filter (· ≠ "")).map .name

theorem steps_of_divided {path : String} {before name : List Char}
    (divided : Path.Divided path before name) :
    steps path = stepsBefore before ++ [.name (String.ofList name)] := by
  have named : String.ofList name ≠ "" := fun empty =>
    divided.named (String.ofList_eq_empty_iff.mp empty)
  have alone : name.splitOn '/' = [name] := List.splitOn_eq_singleton divided.segment
  rcases divided.slash with rfl | ⟨front, rfl⟩
  · have segments : Path.segments path = [] ++ [String.ofList name] := by
      rw [Path.segments, divided.text, List.nil_append, alone]
      rfl
    rw [steps_of_segments segments, if_neg named]
    rfl
  · have segments : Path.segments path =
        (front.splitOn '/').map String.ofList ++ [String.ofList name] := by
      rw [Path.segments, divided.text, List.append_assoc, List.singleton_append,
        List.splitOn_append_cons_self, alone, List.map_append]
      rfl
    rw [steps_of_segments segments, if_neg named, stepsBefore, List.dropLast_concat]

namespace Leads

variable {fs : FileSystem} {purpose : Purpose} {place found : Place} {steps : List Step}

theorem reached_of_plain (plain : fs.Plain) {stretch : Stretch}
    (leads : fs.Leads purpose place steps stretch) : ∃ found, stretch = .reached found := by
  induction leads with
  | done place => exact ⟨place, rfl⟩
  | stay directory still onward ih => exact ih
  | up directory onward ih => exact ih
  | down directory proper enters short noLink onward ih => exact ih
  | keep directory proper short link kept => exact ⟨_, rfl⟩
  | link directory proper enters short link followed => exact absurd link (plain.unlinked _ _)

theorem repurposed {purpose' : Purpose} (leads : fs.Leads purpose place steps (.reached found))
    (follows : purpose ≠ .keepLink) (names : purpose' = .create → Step.inside ∉ steps) :
    fs.Leads purpose' place steps (.reached found) := by
  generalize reached : Stretch.reached found = stretch at leads
  induction leads with
  | done place => exact .done place
  | stay directory still onward ih =>
    exact .stay directory still (ih (fun create => mt (List.mem_cons_of_mem _) (names create)) reached)
  | up directory onward ih =>
    exact .up directory (ih (fun create => mt (List.mem_cons_of_mem _) (names create)) reached)
  | down directory proper enters short noLink onward ih =>
    refine .down directory proper (fun ⟨create, last⟩ => names create ?_) short noLink
      (ih (fun create => mt (List.mem_cons_of_mem _) (names create)) reached)
    rw [last]
    exact List.mem_cons_of_mem _ List.mem_cons_self
  | keep directory proper short link kept => exact absurd kept.1 follows
  | link directory proper enters short link followed => cases reached

theorem unique {found' : Place} (leads : fs.Leads purpose place steps (.reached found))
    (leads' : fs.Leads purpose place steps (.reached found')) : found = found' := by
  have same := (advance_of_leads leads).symm.trans (advance_of_leads leads')
  injection same with same
  injection same

theorem split {front back : List Step}
    (leads : fs.Leads .find place (front ++ back) (.reached found)) :
    ∃ middle, fs.Leads .find place front (.reached middle) ∧
      fs.Leads .find middle back (.reached found) := by
  induction front generalizing place with
  | nil => exact ⟨place, .done place, leads⟩
  | cons step front ih =>
    cases leads with
    | stay directory still onward =>
      obtain ⟨middle, first, last⟩ := ih onward
      exact ⟨middle, .stay directory still first, last⟩
    | up directory onward =>
      obtain ⟨middle, first, last⟩ := ih onward
      exact ⟨middle, .up directory first, last⟩
    | down directory proper enters short noLink onward =>
      obtain ⟨middle, first, last⟩ := ih onward
      exact ⟨middle, .down directory proper (fun h => nomatch h.1) short noLink first, last⟩
    | keep directory proper short link kept => cases kept.1

theorem directory_of_inside (leads : fs.Leads .find place [.inside] (.reached found)) :
    fs.entry? found = some .directory := by
  cases leads with
  | stay directory still onward => cases onward; exact directory

/-- What a name leads to lies in the directory in which it is looked up, if it is no directory. -/
theorem eq_append_of_name (plain : fs.Plain) {text : String}
    (leads : fs.Leads .find place [.name text] (.reached found))
    (other : fs.entry? found ≠ some .directory) :
    (text ≠ "." ∧ text ≠ "..") ∧ found = place ++ [text] := by
  cases leads with
  | stay directory still onward => cases onward; exact absurd directory other
  | up directory onward =>
    cases onward
    have stands : fs.entry? place ≠ none := by simp [directory]
    exact absurd (plain.inside place stands) other
  | down directory proper enters short noLink onward => cases onward; exact ⟨proper, rfl⟩
  | keep directory proper short link kept => cases kept.1

end Leads

section Plain

variable {fs : FileSystem} (plain : fs.Plain) {directory found : Place} {path : String}
include plain

theorem place_eq_ok_iff_leads {purpose : Purpose} :
    fs.place directory path purpose = .ok found ↔
      (path.toList.contains (Char.ofNat 0) = false ∧ path ≠ "" ∧
        path.utf8ByteSize ≤ pathLimit) ∧
        fs.Leads purpose (if Path.isAbsolute path then [] else directory) (steps path)
          (.reached found) := by
  rw [← advance_eq_ok]
  unfold place
  split
  · rename_i zero
    simp only [zero, reduceCtorEq, Bool.true_eq_false, false_and]
  split
  · rename_i zero empty
    simp [empty]
  split
  · rename_i zero empty long
    simp [Nat.not_le.mpr long]
  rename_i zero empty long
  simp only [Bool.not_eq_true] at zero
  rw [follow.eq_def]
  simp only [zero, empty, Nat.le_of_not_lt long, ne_eq, not_false_eq_true, and_self, true_and]
  split
  · rename_i e stops
    simp [stops]
  · rename_i place leads
    simp [leads]
  · rename_i above target rest leads
    obtain ⟨_, reached⟩ := (leads_of_advance leads).reached_of_plain plain
    cases reached

theorem place_repurposed {purpose purpose' : Purpose}
    (leads : fs.place directory path purpose = .ok found) (follows : purpose ≠ .keepLink)
    (names : purpose' = .create → Step.inside ∉ steps path) :
    fs.place directory path purpose' = .ok found := by
  rw [place_eq_ok_iff_leads plain] at leads ⊢
  exact ⟨leads.1, leads.2.repurposed follows names⟩

section File

variable (leads : fs.place directory path .find = .ok found)
  (other : fs.entry? found ≠ some .directory)
include leads other

theorem Leads.of_divided {before name : List Char} (divided : Path.Divided path before name) :
    ∃ middle, fs.Leads .find (if before.head? == some '/' then [] else directory)
        (stepsBefore before) (.reached middle) ∧
      (String.ofList name ≠ "." ∧ String.ofList name ≠ "..") ∧
      found = middle ++ [String.ofList name] := by
  obtain ⟨-, leads⟩ := (place_eq_ok_iff_leads plain).mp leads
  rw [divided.isAbsolute_eq, steps_of_divided divided] at leads
  obtain ⟨middle, first, last⟩ := leads.split
  exact ⟨middle, first, last.eq_append_of_name plain other⟩

theorem divided_of_place :
    ∃ before name, Path.Divided path before name ∧ (name ≠ ['.'] ∧ name ≠ ['.', '.']) := by
  obtain ⟨⟨-, written, -⟩, onward⟩ := (place_eq_ok_iff_leads plain).mp leads
  have ends : path.toList.getLast? ≠ some '/' := by
    intro slash
    obtain ⟨front, text⟩ := List.getLast?_eq_some_iff.mp slash
    obtain ⟨names, split⟩ := steps_of_slash text
    rw [split] at onward
    obtain ⟨middle, -, last⟩ := onward.split
    exact other last.directory_of_inside
  obtain ⟨before, name, divided⟩ := Path.exists_divided written ends
  obtain ⟨-, -, ⟨noDot, noDots⟩, -⟩ := Leads.of_divided plain leads other divided
  exact ⟨before, name, divided, fun dot => noDot (dot ▸ rfl), fun dots => noDots (dots ▸ rfl)⟩

theorem place_create : fs.place directory path .create = .ok found := by
  obtain ⟨before, name, divided, -⟩ := divided_of_place plain leads other
  refine place_repurposed plain leads (by simp) fun _ => ?_
  simp [steps_of_divided divided, stepsBefore]

theorem name_eq_of_place {before name last : List Char} {path' : String}
    (divided : Path.Divided path before name) (divided' : Path.Divided path' before last)
    (leads' : fs.place directory path' .find = .ok found) : last = name := by
  obtain ⟨middle, front, -, place⟩ := Leads.of_divided plain leads other divided
  obtain ⟨middle', front', -, place'⟩ := Leads.of_divided plain leads' other divided'
  -- in front of the names both paths are the same, and so is where they lead
  rw [place, front.unique front'] at place'
  have names := List.cons.inj (List.append_cancel_left place')
  exact (String.ofList_injective names.1).symm

end File

end Plain

end FileSystem

end SessionShell
