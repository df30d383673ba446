import SessionShell.Host.Files

/-! Where paths lead. The steps of a path lead through directories; only directories and links decide
where, so that a file system with the same directories and links leads every path to the same place. -/

namespace SessionShell.FileSystem

theorem entry?_of_ne_root {fs : FileSystem} {place : Place} (below : place ≠ []) :
    fs.entry? place = fs.entries[place]? :=
  if_neg below

/-- The steps lead from a place as far as they can be taken before a link. -/
inductive Leads (fs : FileSystem) (purpose : Purpose) : Place → List Step → Stretch → Prop
  | done (place : Place) : Leads fs purpose place [] (.reached place)
  | stay {place : Place} {step : Step} {rest : List Step} {stretch : Stretch}
      (directory : fs.entry? place = some .directory) (still : step = .inside ∨ step = .name ".")
      (onward : Leads fs purpose place rest stretch) : Leads fs purpose place (step :: rest) stretch
  | up {place : Place} {rest : List Step} {stretch : Stretch}
      (directory : fs.entry? place = some .directory)
      (onward : Leads fs purpose place.dropLast rest stretch) :
      Leads fs purpose place (.name ".." :: rest) stretch
  | down {place : Place} {text : String} {rest : List Step} {stretch : Stretch}
      (directory : fs.entry? place = some .directory) (proper : text ≠ "." ∧ text ≠ "..")
      (enters : ¬(purpose = .create ∧ rest = [.inside])) (short : text.utf8ByteSize ≤ nameLimit)
      (noLink : ∀ target, fs.entry? (place ++ [text]) ≠ some (.link target))
      (onward : Leads fs purpose (place ++ [text]) rest stretch) :
      Leads fs purpose place (.name text :: rest) stretch
  | keep {place : Place} {text target : String} {rest : List Step}
      (directory : fs.entry? place = some .directory) (proper : text ≠ "." ∧ text ≠ "..")
      (short : text.utf8ByteSize ≤ nameLimit)
      (link : fs.entry? (place ++ [text]) = some (.link target))
      (kept : purpose = .keepLink ∧ rest = []) :
      Leads fs purpose place (.name text :: rest) (.reached (place ++ [text]))
  | link {place : Place} {text target : String} {rest : List Step}
      (directory : fs.entry? place = some .directory) (proper : text ≠ "." ∧ text ≠ "..")
      (enters : ¬(purpose = .create ∧ rest = [.inside])) (short : text.utf8ByteSize ≤ nameLimit)
      (link : fs.entry? (place ++ [text]) = some (.link target))
      (followed : ¬(purpose = .keepLink ∧ rest = [])) :
      Leads fs purpose place (.name text :: rest) (.link place target rest)

theorem leads_of_advance {fs : FileSystem} {purpose : Purpose} {place : Place} {steps : List Step}
    {stretch : Stretch} (h : fs.advance purpose place steps = .ok stretch) :
    fs.Leads purpose place steps stretch := by
  induction steps generalizing place with
  | nil => cases h; exact .done place
  | cons step rest ih =>
    rw [advance.eq_def] at h
    dsimp only at h
    split at h
    · cases h
    · rename_i directory
      split at h
      · exact .stay directory (.inl rfl) (ih h)
      · exact .stay directory (.inr rfl) (ih h)
      · exact .up directory (ih h)
      · rename_i text noDot noDots
        split at h
        · cases h
        split at h
        · cases h
        rename_i enters long
        simp only [Bool.and_eq_true, decide_eq_true_eq] at enters
        have short := Nat.le_of_not_lt long
        split at h
        · rename_i target link
          split at h
          · rename_i kept
            simp only [Bool.and_eq_true, decide_eq_true_eq, List.isEmpty_iff] at kept
            cases h
            exact .keep directory ⟨noDot, noDots⟩ short link kept
          · rename_i followed
            simp only [Bool.and_eq_true, decide_eq_true_eq, List.isEmpty_iff] at followed
            cases h
            exact .link directory ⟨noDot, noDots⟩ enters short link followed
        · rename_i noLink
          exact .down directory ⟨noDot, noDots⟩ enters short noLink (ih h)
    · cases h

theorem advance_name {fs : FileSystem} {purpose : Purpose} {place : Place} {text : String}
    {rest : List Step} (directory : fs.entry? place = some .directory)
    (proper : text ≠ "." ∧ text ≠ "..") (enters : ¬(purpose = .create ∧ rest = [.inside]))
    (short : text.utf8ByteSize ≤ nameLimit) :
    fs.advance purpose place (.name text :: rest) =
      match fs.entry? (place ++ [text]) with
      | some (.link target) =>
        if purpose = .keepLink && rest.isEmpty then .ok (.reached (place ++ [text]))
        else .ok (.link place target rest)
      | _ => fs.advance purpose (place ++ [text]) rest := by
  rw [advance.eq_def]
  simp only [directory]
  split
  · rename_i same
    cases same
  · rename_i same
    exact absurd (Step.name.inj same) proper.1
  · rename_i same
    exact absurd (Step.name.inj same) proper.2
  · rename_i same
    cases same
    have stays : ¬(purpose = .create && rest = [.inside]) := by simpa using enters
    exact (if_neg stays).trans (if_neg (Nat.not_lt.mpr short))

theorem advance_of_leads {fs : FileSystem} {purpose : Purpose} {place : Place} {steps : List Step}
    {stretch : Stretch} (leads : fs.Leads purpose place steps stretch) :
    fs.advance purpose place steps = .ok stretch := by
  induction leads with
  | done place => rfl
  | stay directory still onward ih =>
    rcases still with rfl | rfl <;> simpa [advance, directory] using ih
  | up directory onward ih => simpa [advance, directory] using ih
  | down directory proper enters short noLink onward ih =>
    rw [advance_name directory proper enters short]
    split
    · rename_i target link
      exact absurd link (noLink target)
    · exact ih
  | keep directory proper short link kept =>
    obtain ⟨rfl, rfl⟩ := kept
    have enters : ¬(Purpose.keepLink = .create ∧ ([] : List Step) = [.inside]) := by simp
    rw [advance_name directory proper enters short, link]
    rfl
  | link directory proper enters short link followed =>
    rw [advance_name directory proper enters short, link]
    exact if_neg (by simpa using followed)

theorem advance_eq_ok {fs : FileSystem} {purpose : Purpose} {place : Place} {steps : List Step}
    {stretch : Stretch} :
    fs.advance purpose place steps = .ok stretch ↔ fs.Leads purpose place steps stretch :=
  ⟨leads_of_advance, advance_of_leads⟩

/-- What stands at a place, files left out. -/
def terrain (fs : FileSystem) (place : Place) : Option Entry :=
  match fs.entry? place with
  | some (.file _ _) => none
  | entry => entry

theorem terrain_eq_none {fs : FileSystem} {place : Place} :
    fs.terrain place = none ↔
      fs.entry? place = none ∨
        ∃ content executable, fs.entry? place = some (.file content executable) := by
  unfold terrain
  cases fs.entry? place with
  | none => simp
  | some entry => cases entry <;> simp

theorem terrain_eq_directory {fs : FileSystem} {place : Place} :
    fs.terrain place = some .directory ↔ fs.entry? place = some .directory := by
  unfold terrain
  cases fs.entry? place with
  | none => simp
  | some entry => cases entry <;> simp

theorem terrain_eq_link {fs : FileSystem} {place : Place} {target : String} :
    fs.terrain place = some (.link target) ↔ fs.entry? place = some (.link target) := by
  unfold terrain
  cases fs.entry? place with
  | none => simp
  | some entry => cases entry <;> simp

section SameTerrain

variable {fs gs : FileSystem} (same : gs.terrain = fs.terrain)
include same

theorem directory_of_terrain {place : Place} (h : fs.entry? place = some .directory) :
    gs.entry? place = some .directory := by
  rw [← terrain_eq_directory] at h ⊢
  rw [same, h]

theorem link_iff_of_terrain {place : Place} {target : String} :
    gs.entry? place = some (.link target) ↔ fs.entry? place = some (.link target) := by
  rw [← terrain_eq_link, same, terrain_eq_link]

theorem Leads.of_terrain {purpose : Purpose} {place : Place} {steps : List Step}
    {stretch : Stretch} (leads : fs.Leads purpose place steps stretch) :
    gs.Leads purpose place steps stretch := by
  induction leads with
  | done place => exact .done place
  | stay directory still onward ih => exact .stay (directory_of_terrain same directory) still ih
  | up directory onward ih => exact .up (directory_of_terrain same directory) ih
  | down directory proper enters short noLink onward ih =>
    exact .down (directory_of_terrain same directory) proper enters short
      (fun target link => noLink target ((link_iff_of_terrain same).mp link)) ih
  | keep directory proper short link kept =>
    exact .keep (directory_of_terrain same directory) proper short
      ((link_iff_of_terrain same).mpr link) kept
  | link directory proper enters short link followed =>
    exact .link (directory_of_terrain same directory) proper enters short
      ((link_iff_of_terrain same).mpr link) followed

theorem follow_of_terrain {purpose : Purpose} {links : Nat} {place found : Place}
    {steps : List Step} (h : fs.follow purpose links place steps = .ok found) :
    gs.follow purpose links place steps = .ok found := by
  -- `follow` recurses on the links that are left, between which it advances
  have onward {place : Place} {steps : List Step} {stretch : Stretch}
      (h : fs.advance purpose place steps = .ok stretch) :
      gs.advance purpose place steps = .ok stretch :=
    advance_of_leads ((leads_of_advance h).of_terrain same)
  fun_induction fs.follow purpose links place steps with
  | case1 links place steps e stops => cases h
  | case2 links place steps end_ reached =>
    cases h
    rw [follow.eq_def]
    dsimp only
    rw [onward reached]
  | case3 place steps directory target rest reached => cases h
  | case4 place steps directory target rest reached links ih =>
    rw [follow.eq_def]
    dsimp only
    rw [onward reached]
    exact ih h

theorem place_of_terrain {directory found : Place} {path : String} {purpose : Purpose}
    (h : fs.place directory path purpose = .ok found) :
    gs.place directory path purpose = .ok found := by
  unfold place at h ⊢
  split at h
  · cases h
  split at h
  · cases h
  split at h
  · cases h
  rename_i zero empty long
  rw [if_neg zero, if_neg empty, if_neg long]
  exact follow_of_terrain same h

end SameTerrain

theorem place_eq_ok_iff {fs gs : FileSystem} (same : gs.terrain = fs.terrain) {directory found : Place}
    {path : String} {purpose : Purpose} :
    gs.place directory path purpose = .ok found ↔ fs.place directory path purpose = .ok found :=
  ⟨place_of_terrain same.symm, place_of_terrain same⟩

section Reading

variable {fs : FileSystem} {directory found : Place} {path : String}

theorem find_of_place (leads : fs.place directory path .find = .ok found) :
    fs.find directory path =
      match fs.entry? found with
      | some entry => .ok entry
      | none => .error .noEntry := by
  cases stands : fs.entry? found <;> simp [find, leads, stands, bind, Except.bind]

theorem read_of_file (leads : fs.place directory path .find = .ok found) {content : Bytes}
    {executable : Bool} (stands : fs.entry? found = some (.file content executable)) :
    fs.read directory path = .ok content := by
  simp [read, find_of_place leads, stands, bind, Except.bind]

theorem readText_of_installed (leads : fs.place directory path .find = .ok found) {name : String}
    (stands : fs.entry? found = some (.installed name)) :
    fs.readText directory path = .error .notText := by
  rw [readText, read, find_of_place leads, stands]
  rfl

theorem read_congr {gs : FileSystem} (same : gs.terrain = fs.terrain)
    (leads : fs.place directory path .find = .ok found)
    (stands : gs.entry? found = fs.entry? found) :
    gs.read directory path = fs.read directory path := by
  rw [read, read, find_of_place leads, find_of_place (place_of_terrain same leads), stands]

theorem exists_of_isFile (file : fs.isFile directory path = true) :
    ∃ found, fs.place directory path .find = .ok found ∧
      ((∃ content executable, fs.entry? found = some (.file content executable)) ∨
        ∃ name, fs.entry? found = some (.installed name)) := by
  cases leads : fs.place directory path .find with
  | error e => simp [isFile, find, leads, bind, Except.bind] at file
  | ok found =>
    refine ⟨found, rfl, ?_⟩
    rw [isFile, find_of_place leads] at file
    rcases stands : fs.entry? found with _ | _ | _ | _ | _ | _ <;> simp_all

end Reading
end SessionShell.FileSystem
