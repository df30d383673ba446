import SessionShell.Proofs.Host.Ways

/-! What writes to files change. A write that succeeds puts its content where its path leads, and
touches no directory and no link. So after any number of writes a place holds what the last write to
it put there, and a place that none led to is as it was. -/

namespace SessionShell.FileSystem

def executable (fs : FileSystem) (place : Place) : Bool :=
  match fs.entry? place with
  | some (.file _ executable) => executable
  | _ => false

def content? (fs : FileSystem) (place : Place) : Option Bytes :=
  match fs.entry? place with
  | some (.file content _) => some content
  | _ => none

/-- The place where a write to a path puts its content: that of a file, or one where nothing
stands. -/
def landing? (fs : FileSystem) (directory : Place) (path : String) : Option Place :=
  match fs.place directory path .create with
  | .ok place => if fs.terrain place = none then some place else none
  | .error _ => none

def attempt (fs : FileSystem) (directory : Place) (path : String) (content : Bytes) : FileSystem :=
  match fs.write directory path content with
  | .ok gs => gs
  | .error _ => fs

/-- The file system after writes of contents to paths, one after the other. -/
def attempts (fs : FileSystem) (directory : Place) (writes : List (String × Bytes)) : FileSystem :=
  writes.foldl (fun fs (path, content) => fs.attempt directory path content) fs

/-- The content that the last of the writes to a place puts there. -/
def lastTo? (fs : FileSystem) (directory : Place) (writes : List (String × Bytes))
    (place : Place) : Option Bytes :=
  (writes.reverse.find? fun write => fs.landing? directory write.1 = some place).map (·.2)

theorem attempts_append (fs : FileSystem) (directory : Place)
    (writes more : List (String × Bytes)) :
    fs.attempts directory (writes ++ more) =
      (fs.attempts directory writes).attempts directory more :=
  List.foldl_append

theorem attempts_singleton (fs : FileSystem) (directory : Place) (path : String)
    (content : Bytes) :
    fs.attempts directory [(path, content)] = fs.attempt directory path content :=
  rfl

theorem landing?_eq_some {fs : FileSystem} {directory place : Place} {path : String} :
    fs.landing? directory path = some place ↔
      fs.place directory path .create = .ok place ∧ fs.terrain place = none := by
  unfold landing?
  split
  · rename_i found led
    split
    · rename_i free
      simp only [led, Option.some.injEq, Except.ok.injEq]
      exact ⟨fun same => ⟨same, same ▸ free⟩, And.left⟩
    · rename_i taken
      simp only [led, Except.ok.injEq, reduceCtorEq, false_iff, not_and]
      exact fun same free => taken (same ▸ free)
  · rename_i e fails
    simp [fails]

theorem landing?_of_terrain {fs gs : FileSystem} (same : gs.terrain = fs.terrain)
    (directory : Place) (path : String) : gs.landing? directory path = fs.landing? directory path := by
  ext place
  rw [landing?_eq_some, landing?_eq_some, same,
    place_eq_ok_iff same]

section Attempt

variable (fs : FileSystem) (directory : Place) (path : String) (content : Bytes)

theorem attempt_eq :
    fs.attempt directory path content =
      match fs.landing? directory path with
      | some place => fs.insert place (.file content (fs.executable place))
      | none => fs := by
  cases led : fs.place directory path .create with
  | error e => simp [attempt, write, update, landing?, led, bind, Except.bind]
  | ok place =>
    cases stands : fs.entry? place with
    | none =>
      simp [attempt, write, update, landing?, led, terrain, executable, stands, bind, Except.bind]
    | some entry =>
      cases entry <;>
        simp [attempt, write, update, landing?, led, terrain, executable, stands, bind, Except.bind]

theorem entries_attempt (place : Place) :
    (fs.attempt directory path content).entries[place]? =
      if fs.landing? directory path = some place then some (.file content (fs.executable place))
      else fs.entries[place]? := by
  rw [attempt_eq]
  cases fs.landing? directory path with
  | none => simp
  | some landing =>
    simp only [entries_insert, Std.ExtTreeMap.getElem?_insert,
      Std.LawfulEqOrd.compare_eq_iff_eq, Option.some.injEq]
    by_cases same : landing = place
    · rw [if_pos same, if_pos same, same]
    · rw [if_neg same, if_neg same]

theorem order_attempt : (fs.attempt directory path content).order = fs.order := by
  rw [attempt_eq]
  cases fs.landing? directory path with
  | none => rfl
  | some place => exact order_insert place _ fs

theorem landing?_ne_root : fs.landing? directory path ≠ some [] := fun lands => by
  have free := (landing?_eq_some.mp lands).2
  simp [terrain, entry?] at free

theorem entry?_attempt (place : Place) :
    entry? (fs.attempt directory path content) place =
      if fs.landing? directory path = some place then some (.file content (fs.executable place))
      else fs.entry? place := by
  unfold entry?
  by_cases root : place = []
  · subst root
    simp [landing?_ne_root]
  · simp only [if_neg root, entries_attempt]

theorem terrain_attempt : (fs.attempt directory path content).terrain = fs.terrain := by
  funext place
  by_cases lands : fs.landing? directory path = some place
  · have free := (landing?_eq_some.mp lands).2
    rw [free, terrain, entry?_attempt, if_pos lands]
  · rw [terrain, entry?_attempt, if_neg lands, terrain]

theorem executable_attempt : (fs.attempt directory path content).executable = fs.executable := by
  funext place
  by_cases lands : fs.landing? directory path = some place
  · rw [executable, entry?_attempt, if_pos lands]
  · rw [executable, entry?_attempt, if_neg lands, executable]

theorem read_attempt {found : Place} (lands : fs.landing? directory path = some found)
    (leads : fs.place directory path .find = .ok found) :
    (fs.attempt directory path content).read directory path = .ok content := by
  have stands := entry?_attempt fs directory path content found
  rw [if_pos lands] at stands
  exact read_of_file (place_of_terrain (terrain_attempt fs directory path content) leads) stands

end Attempt

variable {fs : FileSystem} {directory : Place}

theorem lastTo?_of_terrain {gs : FileSystem} (same : gs.terrain = fs.terrain)
    (writes : List (String × Bytes)) : gs.lastTo? directory writes = fs.lastTo? directory writes := by
  funext place
  simp only [lastTo?, landing?_of_terrain same]

theorem lastTo?_cons (path : String) (content : Bytes) (writes : List (String × Bytes))
    (place : Place) :
    fs.lastTo? directory ((path, content) :: writes) place =
      (fs.lastTo? directory writes place).or
        (if fs.landing? directory path = some place then some content else none) := by
  simp only [lastTo?, List.reverse_cons, List.find?_append, List.find?_singleton, Option.map_or]
  by_cases lands : fs.landing? directory path = some place <;> simp [lands]

theorem entries_attempts (writes : List (String × Bytes)) (place : Place) :
    (fs.attempts directory writes).entries[place]? =
      match fs.lastTo? directory writes place with
      | some content => some (.file content (fs.executable place))
      | none => fs.entries[place]? := by
  induction writes generalizing fs with
  | nil => rfl
  | cons write writes ih =>
    obtain ⟨path, content⟩ := write
    -- no write changes where the later ones land
    have later := @ih (fs.attempt directory path content)
    rw [lastTo?_of_terrain (terrain_attempt fs directory path content), executable_attempt,
      entries_attempt] at later
    rw [lastTo?_cons]
    refine later.trans ?_
    cases fs.lastTo? directory writes place with
    | some last => rfl
    | none =>
      by_cases lands : fs.landing? directory path = some place
      · simp only [if_pos lands, Option.none_or]
      · simp only [if_neg lands, Option.none_or]

theorem content?_eq_some {place : Place} {content : Bytes} :
    fs.content? place = some content ↔
      fs.entry? place = some (.file content (fs.executable place)) := by
  unfold content? executable
  split
  · rename_i stands
    simp [stands]
  · rename_i other
    simp only [reduceCtorEq, false_iff]
    exact fun stands => other _ _ stands

theorem lastTo?_root (writes : List (String × Bytes)) : fs.lastTo? directory writes [] = none := by
  simp [lastTo?, landing?_ne_root]

theorem entry?_attempts_eq_iff (writes : List (String × Bytes)) (place : Place) :
    entry? (fs.attempts directory writes) place = fs.entry? place ↔
      ∀ content, fs.lastTo? directory writes place = some content →
        fs.content? place = some content := by
  by_cases root : place = []
  · subst root
    simp [lastTo?_root, entry?]
  · rw [entry?_of_ne_root root, entries_attempts]
    cases last : fs.lastTo? directory writes place with
    | none => simp [entry?_of_ne_root root]
    | some content =>
      dsimp only
      rw [eq_comm, ← content?_eq_some]
      exact ⟨fun held _ same => Option.some.inj same ▸ held, fun held => held content rfl⟩

theorem order_attempts (writes : List (String × Bytes)) :
    (fs.attempts directory writes).order = fs.order := by
  induction writes generalizing fs with
  | nil => rfl
  | cons write writes ih => exact ih.trans (order_attempt fs directory write.1 write.2)

theorem attempts_eq_self_iff (writes : List (String × Bytes)) :
    fs.attempts directory writes = fs ↔
      ∀ place content, fs.lastTo? directory writes place = some content →
        fs.content? place = some content := by
  constructor
  · intro unchanged place
    rw [← entry?_attempts_eq_iff, unchanged]
  · intro held
    have entries : (fs.attempts directory writes).entries = fs.entries := by
      apply Std.ExtTreeMap.ext_getElem?
      intro place
      by_cases root : place = []
      · rw [entries_attempts, root, lastTo?_root]
      · have same := (entry?_attempts_eq_iff writes place).mpr (held place)
        rwa [entry?_of_ne_root root, entry?_of_ne_root root] at same
    exact FileSystem.ext entries (order_attempts writes)

theorem terrain_attempts (writes : List (String × Bytes)) :
    (fs.attempts directory writes).terrain = fs.terrain := by
  induction writes generalizing fs with
  | nil => rfl
  | cons write writes ih => exact ih.trans (terrain_attempt fs directory write.1 write.2)

theorem attempts_again (writes : List (String × Bytes)) :
    (fs.attempts directory writes).attempts directory writes = fs.attempts directory writes := by
  rw [attempts_eq_self_iff, lastTo?_of_terrain (terrain_attempts writes)]
  intro place content last
  have below : place ≠ [] := by
    rintro rfl
    rw [lastTo?_root] at last
    cases last
  have written : (fs.attempts directory writes).entries[place]? = _ :=
    entries_attempts writes place
  rw [last, ← entry?_of_ne_root below] at written
  rw [content?, written]

end SessionShell.FileSystem
