import SessionShell.Proofs.Compile.Products
import SessionShell.Proofs.Host.Writing

/-! A module whose directories have been written to by compiling. Paths lead where they led before,
and what is no product of compiling is as it was. -/

namespace SessionShell

namespace FileSystem

/-- What stands anywhere has a name and is in a directory, and there are no links from the root of a
module on. -/
structure Unlinked (fs : FileSystem) (directory : Place) (root : String) : Prop where
  named : fs.Named
  inside : ∀ place, fs.entry? place ≠ none → fs.entry? place.dropLast = some .directory
  noLink : ∀ start, fs.place directory root .find = .ok start →
    ∀ below target, fs.entry? (start ++ below) ≠ some (.link target)

theorem unlinked_of_plain {fs : FileSystem} (plain : fs.Plain) (named : fs.Named) (directory : Place)
    (root : String) : fs.Unlinked directory root where
  named := named
  inside := plain.inside
  noLink _ _ _ _ := plain.unlinked _ _

structure Opens (fs : FileSystem) (directory : Place) (path : String) (place : Place) : Prop where
  leads : fs.place directory path .find = .ok place
  isDirectory : fs.entry? place = some .directory
  noLink : ∀ name target, fs.entry? (place ++ [name]) ≠ some (.link target)

section Opens

variable {fs gs : FileSystem} {directory place : Place} {path : String}

theorem Opens.written (opens : fs.Opens directory path place) : path ≠ "" :=
  ne_empty_of_place opens.leads

theorem Opens.of_terrain (opens : fs.Opens directory path place) (same : gs.terrain = fs.terrain) :
    gs.Opens directory path place where
  leads := place_of_terrain same opens.leads
  isDirectory := directory_of_terrain same opens.isDirectory
  noLink name target link := opens.noLink name target ((link_iff_of_terrain same).mp link)

theorem Opens.place_join (opens : fs.Opens directory path place) {name : String}
    (goes : name = ".." ∨ Path.IsName name) (purpose : Purpose) :
    fs.place directory (Path.join path name) purpose = reachName place path name := by
  have plain : name ≠ "" ∧ name ≠ "." ∧ '/' ∉ name.toList := by
    rcases goes with rfl | isName
    · decide
    · exact ⟨isName.nonempty, isName.noDot, isName.segment⟩
  exact FileSystem.place_join opens.leads opens.isDirectory plain.2.2 plain.1 plain.2.1
    (opens.noLink name)

theorem reachName_eq_ok {name : String} (isName : Path.IsName name) {found : Place}
    (leads : reachName place path name = .ok found) : found = place ++ [name] := by
  unfold reachName at leads
  split at leads
  · cases leads
  split at leads
  · cases leads
  rw [if_neg isName.noDots] at leads
  split at leads
  · cases leads
  · cases leads
    rfl

theorem Opens.landing?_join (opens : fs.Opens directory path place)
    (inside : ∀ place, fs.entry? place ≠ none → fs.entry? place.dropLast = some .directory)
    {name : String} (goes : name = ".." ∨ Path.IsName name) {found : Place}
    (lands : fs.landing? directory (Path.join path name) = some found) :
    found = place ++ [name] ∧ Path.IsName name := by
  obtain ⟨leads, free⟩ := landing?_eq_some.mp lands
  rw [opens.place_join goes] at leads
  rcases goes with rfl | isName
  · have up : found = place.dropLast := by
      unfold reachName at leads
      split at leads
      · cases leads
      split at leads
      · cases leads
      rw [if_pos rfl] at leads
      cases leads
      rfl
    have above := inside place (by simp [opens.isDirectory])
    rw [up, terrain_eq_directory.mpr above] at free
    cases free
  · exact ⟨reachName_eq_ok isName leads, isName⟩

end Opens

/-- Something in a directory that is not called as a source is. -/
inductive IsProduct (fs : FileSystem) : Place → Prop
  | intro {above : Place} {name : String} (isDirectory : fs.entry? above = some .directory)
      (isName : Path.IsName name) (product : Compile.isSource name = false) :
      IsProduct fs (above ++ [name])

/-- The files of another time, when compiling has put more products into the same directories. -/
structure Recompiled (fs gs : FileSystem) : Prop where
  terrain : gs.terrain = fs.terrain
  grown : fs.entries.size ≤ gs.entries.size
  changed : ∀ place, gs.entry? place ≠ fs.entry? place → fs.IsProduct place

def Yields (fs : FileSystem) (directory : Place) (path : String) : Prop :=
  ∀ found, fs.landing? directory path = some found → fs.IsProduct found

section Recompiled

variable {fs gs : FileSystem} {directory place : Place} {path name : String}

theorem Recompiled.refl (fs : FileSystem) : Recompiled fs fs where
  terrain := rfl
  grown := le_rfl
  changed _ other := absurd rfl other

theorem Recompiled.attempt (recompiled : Recompiled fs gs) (yields : fs.Yields directory path)
    (content : Bytes) : Recompiled fs (gs.attempt directory path content) where
  terrain := (terrain_attempt gs directory path content).trans recompiled.terrain
  grown := by
    refine recompiled.grown.trans ?_
    rw [attempt_eq]
    split
    · exact Std.ExtTreeMap.size_le_size_insert
    · exact le_rfl
  changed found other := by
    rw [entry?_attempt] at other
    split at other
    · rename_i lands
      rw [landing?_of_terrain recompiled.terrain] at lands
      exact yields found lands
    · exact recompiled.changed found other

theorem Recompiled.attempts (recompiled : Recompiled fs gs) {writes : List (String × Bytes)}
    (yields : ∀ write ∈ writes, fs.Yields directory write.1) :
    Recompiled fs (gs.attempts directory writes) := by
  induction writes generalizing gs with
  | nil => exact recompiled
  | cons write writes ih =>
    obtain ⟨first, rest⟩ := List.forall_mem_cons.mp yields
    exact ih (recompiled.attempt first write.2) rest

theorem Recompiled.entry?_eq (recompiled : Recompiled fs gs)
    (source : Compile.isSource name = true) : gs.entry? (place ++ [name]) = fs.entry? (place ++ [name]) := by
  by_contra other
  generalize there : place ++ [name] = found at other
  cases recompiled.changed found other with
  | @intro above last isDirectory isName product =>
    have names := List.append_inj_right' there rfl
    rw [List.singleton_inj.mp names, product] at source
    cases source

theorem Recompiled.named (recompiled : Recompiled fs gs) (named : fs.Named) : gs.Named := by
  intro place stands
  by_cases same : gs.entry? place = fs.entry? place
  · exact named place (same ▸ stands)
  · cases recompiled.changed place same with
    | intro isDirectory isName product =>
      refine List.forall_mem_append.mpr ⟨named _ ?_, List.forall_mem_singleton.mpr isName⟩
      rw [isDirectory]
      exact Option.some_ne_none _

theorem Opens.place_eq (opens : fs.Opens directory path place) (same : gs.terrain = fs.terrain)
    (goes : name = ".." ∨ Path.IsName name) (purpose : Purpose) :
    gs.place directory (Path.join path name) purpose =
      fs.place directory (Path.join path name) purpose := by
  rw [opens.place_join goes, (opens.of_terrain same).place_join goes]

theorem Recompiled.find_eq (recompiled : Recompiled fs gs) (opens : fs.Opens directory path place)
    (isName : Path.IsName name) (source : Compile.isSource name = true) :
    gs.find directory (Path.join path name) = fs.find directory (Path.join path name) := by
  have leads := opens.place_eq recompiled.terrain (.inr isName) .find
  cases found : fs.place directory (Path.join path name) .find with
  | error e =>
    rw [found] at leads
    simp [find, found, leads, bind, Except.bind]
  | ok there =>
    rw [found] at leads
    have reached := found
    rw [opens.place_join (.inr isName)] at reached
    rw [find_of_place found, find_of_place leads, reachName_eq_ok isName reached,
      recompiled.entry?_eq source]

theorem Recompiled.readText_eq (recompiled : Recompiled fs gs) (opens : fs.Opens directory path place)
    (isName : Path.IsName name) (source : Compile.isSource name = true) :
    gs.readText directory (Path.join path name) = fs.readText directory (Path.join path name) := by
  rw [readText, readText, read, read, recompiled.find_eq opens isName source]

theorem write_congr (same : gs.terrain = fs.terrain)
    (leads : gs.place directory path .create = fs.place directory path .create) (content : Bytes) :
    (gs.write directory path content).map (fun _ => ()) =
      (fs.write directory path content).map fun _ => () := by
  unfold write update
  rw [leads]
  cases found : fs.place directory path .create with
  | error e => rfl
  | ok place =>
    have there := congrFun same place
    unfold terrain at there
    dsimp only [bind, Except.bind]
    rcases stands : fs.entry? place with _ | _ | _ | _ | _ | _ <;>
      rcases stands' : gs.entry? place with _ | _ | _ | _ | _ | _ <;>
      rw [stands, stands'] at there <;> first | rfl | cases there

end Recompiled

end FileSystem

end SessionShell
