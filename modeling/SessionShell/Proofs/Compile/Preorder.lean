import Mathlib.Data.List.Perm.Subperm
import SessionShell.Proofs.Compile.Walk

/-! The walk through a directory of a file system. A trail leads to a place of its own, so that there
are no more trails than directories and the walk comes to its end. -/

namespace SessionShell.Compile

variable {fs : FileSystem} {directory : Place} {root : String} {locked : String → Option IoError}

theorem inside_increasing (path : String) :
    (inside (barred locked (fs.list directory)) path).Pairwise (· < ·) := by
  unfold inside
  cases listed : barred locked (fs.list directory) path with
  | error e => exact .nil
  | ok entries =>
    obtain ⟨place, -, -, rfl⟩ := FileSystem.list_eq_ok.mp (barred_eq_ok.mp listed).2
    refine FileSystem.children_increasing.filterMap _ ?_
    rintro ⟨one, isDirectory⟩ ⟨other, isDirectory'⟩ smaller name chosen name' chosen'
    dsimp only at smaller chosen chosen'
    split at chosen
    · split at chosen'
      · cases chosen
        cases chosen'
        exact smaller
      · cases chosen'
    · cases chosen

section Named

variable (named : fs.Named)
include named

theorem names_of_reaches {trail : List String}
    (reaches : Reaches (barred locked (fs.list directory)) root trail) :
    ∀ name ∈ trail, Path.IsName name := by
  induction reaches with
  | root => nofun
  | inside above listed member ih =>
    obtain ⟨place, -, -, rfl⟩ := FileSystem.list_eq_ok.mp (barred_eq_ok.mp listed).2
    obtain ⟨entry, stands, -⟩ := FileSystem.mem_children.mp member
    exact List.forall_mem_append.mpr ⟨ih, List.forall_mem_singleton.mpr (named.isName stands)⟩

theorem place_of_reaches {trail : List String} (reaches : Reaches (fs.list directory) root trail) :
    (∀ place, fs.place directory (Path.along root trail) .find = .ok place →
        ∃ start, fs.place directory root .find = .ok start ∧ place = start ++ trail) ∧
      (trail ≠ [] → ∃ start, fs.place directory root .find = .ok start ∧
        fs.entry? (start ++ trail) = some .directory) := by
  induction reaches with
  | root => exact ⟨fun place leads => ⟨place, leads, (List.append_nil place).symm⟩, nofun⟩
  | @inside trail name entries above listed member ih =>
    obtain ⟨place, leads, isDirectory, rfl⟩ := FileSystem.list_eq_ok.mp listed
    obtain ⟨start, begun, rfl⟩ := ih.1 place leads
    obtain ⟨entry, stands, kind⟩ := FileSystem.mem_children.mp member
    rw [beq_iff_eq.mp kind] at stands
    have isName := named.isName stands
    have noLink (target : String) : fs.entry? (start ++ trail ++ [name]) ≠ some (.link target) := by
      rw [stands]
      nofun
    refine ⟨fun other leads' => ?_, fun _ => ⟨start, begun, by rwa [← List.append_assoc]⟩⟩
    rw [Path.along_concat, FileSystem.place_join leads isDirectory isName.segment isName.nonempty
      isName.noDot noLink, FileSystem.reachName] at leads'
    refine ⟨start, begun, ?_⟩
    split at leads'
    · cases leads'
    split at leads'
    · cases leads'
    rw [if_neg isName.noDots] at leads'
    split at leads'
    · cases leads'
    · cases leads'
      exact List.append_assoc ..

theorem along_injective_of_reaches {trail other : List String}
    (reaches : Reaches (barred locked (fs.list directory)) root trail)
    (reaches' : Reaches (barred locked (fs.list directory)) root other)
    (same : Path.along root trail = Path.along root other) : trail = other := by
  by_cases top : trail = [] ∧ other = []
  · rw [top.1, top.2]
  · -- something is below the root, so that its path leads somewhere
    have begun : ∃ start, fs.place directory root .find = .ok start := by
      by_cases here : trail = []
      · obtain ⟨start, begun, -⟩ := (place_of_reaches named (reaches_barred_iff.mp reaches').1).2
          fun there => top ⟨here, there⟩
        exact ⟨start, begun⟩
      · obtain ⟨start, begun, -⟩ :=
          (place_of_reaches named (reaches_barred_iff.mp reaches).1).2 here
        exact ⟨start, begun⟩
    obtain ⟨start, begun⟩ := begun
    exact Path.along_injective (FileSystem.ne_empty_of_place begun) (names_of_reaches named reaches)
      (names_of_reaches named reaches') same

theorem length_le_of_reaches {trails : List (List String)} (distinct : trails.Nodup)
    (reached : ∀ trail ∈ trails, Reaches (fs.list directory) root trail) :
    trails.length ≤ fs.entries.size + 1 := by
  obtain ⟨start, stands⟩ : ∃ start, ∀ trail ∈ trails,
      trail = [] ∨ fs.entry? (start ++ trail) = some .directory := by
    cases begun : fs.place directory root .find with
    | error e =>
      refine ⟨[], fun trail member => .inl (by_contra fun below => ?_)⟩
      obtain ⟨start, begun', -⟩ := (place_of_reaches named (reached trail member)).2 below
      rw [begun] at begun'
      cases begun'
    | ok start =>
      refine ⟨start, fun trail member => or_iff_not_imp_left.mpr fun below => ?_⟩
      obtain ⟨start', begun', stands⟩ := (place_of_reaches named (reached trail member)).2 below
      rw [begun] at begun'
      cases begun'
      exact stands
  -- each trail but that of the root leads to an entry of its own
  have places : trails.map (start ++ ·) ⊆ start :: fs.entries.keys := by
    intro place member
    obtain ⟨trail, isReached, rfl⟩ := List.mem_map.mp member
    rcases stands trail isReached with rfl | stands
    · simp
    · by_cases top : start ++ trail = []
      · simp [List.append_eq_nil_iff.mp top]
      · rw [FileSystem.entry?_of_ne_root top] at stands
        refine List.mem_cons_of_mem _ (Std.ExtTreeMap.mem_keys.mpr ?_)
        exact Std.ExtTreeMap.mem_iff_isSome_getElem?.mpr (by simp [stands])
  have apart : (trails.map (start ++ ·)).Nodup :=
    distinct.map fun one other same => List.append_cancel_left same
  have few := (List.subperm_of_subset apart places).length_le
  rwa [List.length_map, List.length_cons, Std.ExtTreeMap.length_keys] at few

/-- The walk meets all the directories that can be reached, in increasing order, and its bound is
none. -/
theorem walk_barred :
    ∃ trails, Itinerary (barred locked (fs.list directory)) root trails ∧
      ∀ bound, fs.entries.size < bound →
        walk (barred locked (fs.list directory)) bound [root] =
          trails.map fun trail =>
            item (barred locked (fs.list directory)) (Path.along root trail) := by
  refine walk_eq inside_increasing fun trails distinct reached => ?_
  exact length_le_of_reaches named distinct fun trail member =>
    (reaches_barred_iff.mp (reached trail member)).1

end Named

def sourceNames (path : String) (entries : List (String × Bool)) : List String :=
  entries.filterMap fun (name, isDirectory) =>
    if !isDirectory && isSource (Path.join path name) then some name else none

theorem sourcesOf_eq (path : String) (entries : List (String × Bool)) :
    sourcesOf path entries = (sourceNames path entries).map (Path.join path) := by
  rw [sourcesOf, sourceNames, List.map_filterMap]
  congr 1
  funext ⟨name, isDirectory⟩
  by_cases source : isSource (Path.join path name) <;> cases isDirectory <;> simp [source]

theorem sourceNames_increasing (path : String) {place : Place} :
    (sourceNames path (fs.children place)).Pairwise (· < ·) := by
  refine FileSystem.children_increasing.filterMap _ ?_
  rintro ⟨one, isDirectory⟩ ⟨other, isDirectory'⟩ smaller name chosen name' chosen'
  dsimp only at smaller chosen chosen'
  split at chosen
  · split at chosen'
    · cases chosen
      cases chosen'
      exact smaller
    · cases chosen'
  · cases chosen

theorem mem_sourceNames {path name : String} {place : Place} :
    name ∈ sourceNames path (fs.children place) ↔
      (∃ entry, fs.entry? (place ++ [name]) = some entry ∧ entry ≠ .directory) ∧
        isSource (Path.join path name) := by
  rw [sourceNames, List.mem_filterMap]
  constructor
  · rintro ⟨⟨child, isDirectory⟩, member, chosen⟩
    dsimp only at chosen
    split at chosen
    · rename_i kind
      cases chosen
      obtain ⟨entry, stands, rfl⟩ := FileSystem.mem_children.mp member
      simp only [Bool.and_eq_true, Bool.not_eq_true', beq_eq_false_iff_ne] at kind
      exact ⟨⟨entry, stands, kind.1⟩, kind.2⟩
    · cases chosen
  · rintro ⟨⟨entry, stands, other⟩, source⟩
    refine ⟨(name, false), FileSystem.mem_children.mpr ⟨entry, stands, ?_⟩, by simp [source]⟩
    exact beq_eq_false_iff_ne.mpr other

/-- The walk through a directory of which any directories may be locked comes to its end. It has one
item for each directory that is reached from the root through directories that can be listed, in
the order of the trails, and none for a path twice. The item of a directory that can be listed holds
the paths of the sources in it, in the order of their names, and that of another one the reason.
Locking directories takes out what lies below them and nothing else. -/
theorem module_walk {fs : FileSystem} (named : fs.Named) (directory : Place) (root : String)
    (locked : String → Option IoError) :
    let list := barred locked (fs.list directory)
    ∃ trails, Itinerary list root trails ∧ (trails.map (Path.along root)).Nodup ∧
      (∀ bound, fs.entries.size < bound →
        walk list bound [root] = trails.map fun trail => item list (Path.along root trail)) ∧
      (∀ path, match list path with
        | .error e => item list path = .error ⟨["failed to read directory " ++ path], .io e⟩
        | .ok _ => ∃ (place : Place) (names : List String),
            fs.place directory path .find = .ok place ∧
            item list path = .ok ⟨path, names.map (Path.join path)⟩ ∧ names.Pairwise (· < ·) ∧
            ∀ name, name ∈ names ↔
              (∃ entry, fs.entry? (place ++ [name]) = some entry ∧ entry ≠ .directory) ∧
                Path.extension? (Path.join path name) = some sourceExtension) ∧
      ∀ all, Itinerary (fs.list directory) root all → trails = all.filter (unbarred locked root) := by
  intro list
  obtain ⟨trails, itinerary, walked⟩ : ∃ trails, Itinerary list root trails ∧ _ :=
    walk_barred named
  have distinct : (trails.map (Path.along root)).Nodup := by
    refine List.Nodup.map_on (fun trail isTrail other isOther same => ?_)
      (itinerary.increasing.imp fun before => ne_of_lt before)
    exact along_injective_of_reaches named ((itinerary.complete trail).mp isTrail)
      ((itinerary.complete other).mp isOther) same
  refine ⟨trails, itinerary, distinct, walked, fun path => ?_,
    fun all whole => itinerary.barred_eq whole⟩
  cases listed : list path with
  | error e => simp only [item, listed]
  | ok entries =>
    obtain ⟨place, leads, -, rfl⟩ := FileSystem.list_eq_ok.mp (barred_eq_ok.mp listed).2
    refine ⟨place, sourceNames path (fs.children place), leads, ?_, sourceNames_increasing path,
      fun name => ?_⟩
    · simp only [item, listed, sourcesOf_eq]
    · rw [mem_sourceNames, isSource, decide_eq_true_iff]

theorem module_walk_locked :
    let entries : List (Place × Entry) := [(["m"], .directory), (["m", "a"], .directory),
      (["m", "a", "x.hsk"], .file [] false), (["m", "b"], .directory),
      (["m", "b", "y.hsk"], .file [] false), (["m", "c"], .directory),
      (["m", "z.hsk"], .file [] false)]
    let fs : FileSystem := { entries := .ofList entries }
    let list := barred (fun path => if path = "m/b" then some .permission else none) (fs.list [])
    fs.Named ∧ ∃ trails, Itinerary list "m" trails ∧
      trails.map (fun trail => item list (Path.along "m" trail)) =
        [.ok ⟨"m", ["m/z.hsk"]⟩, .ok ⟨"m/a", ["m/a/x.hsk"]⟩,
          .error ⟨["failed to read directory m/b"], .io .permission⟩, .ok ⟨"m/c", []⟩] := by
  intro entries fs list
  have named : fs.Named := FileSystem.named_of_entries (by decide +kernel)
  obtain ⟨trails, itinerary, -, walked, -⟩ := module_walk named [] "m"
    fun path => if path = "m/b" then some .permission else none
  refine ⟨named, trails, itinerary, ?_⟩
  rw [← walked (fs.entries.size + 1) (Nat.lt_succ_self _)]
  decide +kernel

end SessionShell.Compile
