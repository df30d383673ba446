import Mathlib.Data.List.Sort
import SessionShell.Proofs.Host.Plain
import SessionShell.Proofs.Host.Trail

/-! What stands in a directory, and where a name joined to the path of a directory leads. The second
can be said without a look at the files, as long as the name is not that of a link. -/

namespace SessionShell

namespace FileSystem

def Named (fs : FileSystem) : Prop :=
  ∀ place, fs.entry? place ≠ none → ∀ name ∈ place, Path.IsName name

theorem Named.isName {fs : FileSystem} (named : fs.Named) {place : Place} {name : String}
    {entry : Entry} (stands : fs.entry? (place ++ [name]) = some entry) : Path.IsName name := by
  have there : fs.entry? (place ++ [name]) ≠ none := by
    rw [stands]
    exact Option.some_ne_none entry
  exact named _ there name (List.mem_append_right _ (List.mem_singleton_self name))

theorem named_of_entries {fs : FileSystem}
    (entries : fs.entries.toList.all fun (place, _) => place.all fun name =>
      name ≠ "" && name ≠ "." && name ≠ ".." && !name.toList.contains '/') : fs.Named := by
  intro place stands name member
  have below : place ≠ [] := List.ne_nil_of_mem member
  rw [entry?_of_ne_root below] at stands
  obtain ⟨entry, stands⟩ := Option.ne_none_iff_exists'.mp stands
  have checked := List.all_eq_true.mp entries (place, entry)
    (Std.ExtTreeMap.mem_toList_iff_getElem?_eq_some.mpr stands)
  have proper := List.all_eq_true.mp checked name member
  simp only [Bool.and_eq_true, decide_eq_true_eq, Bool.not_eq_true', List.contains_eq_mem,
    decide_eq_false_iff_not] at proper
  exact ⟨proper.1.1.1, proper.1.1.2, proper.1.2, proper.2⟩

section Order

theorem precedes_iff {a b : String × Bool} :
    precedes a b ↔ a.1 < b.1 ∨ a.1 = b.1 ∧ (a.2 = true → b.2 = true) := by
  obtain ⟨name, _ | _⟩ := a <;> obtain ⟨other, _ | _⟩ := b <;> simp [precedes]

instance : Std.Total fun a b : String × Bool => precedes a b := by
  constructor
  intro a b
  rw [precedes_iff, precedes_iff]
  rcases Std.lt_trichotomy a.1 b.1 with before | same | behind <;> grind

instance : IsTrans (String × Bool) fun a b => precedes a b := by
  constructor
  intro a b c
  rw [precedes_iff, precedes_iff, precedes_iff]
  grind [String.lt_trans]

theorem precedes_antisymm {a b : String × Bool} (first : precedes a b) (second : precedes b a) :
    a = b := by
  rw [precedes_iff] at first second
  obtain ⟨name, _ | _⟩ := a <;> obtain ⟨other, _ | _⟩ := b <;> grind [String.lt_asymm]

theorem inOrder_eq_insertionSort (entries : List (String × Bool)) :
    inOrder entries = entries.insertionSort fun a b => precedes a b := by
  have inserts : insertInOrder = List.orderedInsert fun a b => precedes a b := by
    funext entry entries
    fun_induction insertInOrder entry entries <;> simp [*]
  unfold inOrder
  rw [inserts]
  rfl

theorem inOrder_of_perm {given entries : List (String × Bool)} (same : given.Perm entries)
    (ordered : entries.Pairwise fun a b => a.1 < b.1) : inOrder given = entries := by
  rw [inOrder_eq_insertionSort]
  have perm := (List.perm_insertionSort (fun a b => precedes a b) given).trans same
  refine perm.eq_of_pairwise (fun a b _ _ => precedes_antisymm) (List.pairwise_insertionSort _ _) ?_
  exact ordered.imp fun before => precedes_iff.mpr (.inl before)

end Order

theorem lt_of_compare_concat {place : Place} {name other : String}
    (before : compare (place ++ [name]) (place ++ [other]) = .lt) : name < other := by
  induction place with
  | nil =>
    simp only [List.nil_append, List.compare_cons_cons, Std.ReflCmp.compare_self,
      Ordering.then_eq] at before
    exact compareOfLessAndEq_eq_lt.mp before
  | cons first place ih =>
    simp only [List.cons_append, List.compare_cons_cons, Std.ReflCmp.compare_self,
      Ordering.eq_then] at before
    exact ih before

section Children

variable {fs : FileSystem} {place : Place}

theorem mem_children {name : String} {isDirectory : Bool} :
    (name, isDirectory) ∈ fs.children place ↔
      ∃ entry, fs.entry? (place ++ [name]) = some entry ∧ (entry == .directory) = isDirectory := by
  have below : place ++ [name] ≠ [] := by simp
  rw [entry?_of_ne_root below, children, List.mem_filterMap]
  constructor
  · rintro ⟨⟨other, entry⟩, member, chosen⟩
    dsimp only at chosen
    split at chosen
    · rename_i parent
      obtain ⟨last, isLast, same⟩ := Option.map_eq_some_iff.mp chosen
      cases same
      obtain ⟨front, rfl⟩ := List.getLast?_eq_some_iff.mp isLast
      rw [List.dropLast_concat] at parent
      subst parent
      exact ⟨entry, Std.ExtTreeMap.mem_toList_iff_getElem?_eq_some.mp member, rfl⟩
    · cases chosen
  · rintro ⟨entry, stands, rfl⟩
    exact ⟨(place ++ [name], entry), Std.ExtTreeMap.mem_toList_iff_getElem?_eq_some.mpr stands,
      by simp⟩

theorem children_increasing : (fs.children place).Pairwise fun a b => a.1 < b.1 := by
  refine Std.ExtTreeMap.ordered_keys_toList.filterMap _ ?_
  rintro ⟨one, entry⟩ ⟨other, entry'⟩ before child chosen child' chosen'
  dsimp only at before chosen chosen'
  split at chosen
  · split at chosen'
    · rename_i parent parent'
      obtain ⟨name, isLast, rfl⟩ := Option.map_eq_some_iff.mp chosen
      obtain ⟨name', isLast', rfl⟩ := Option.map_eq_some_iff.mp chosen'
      obtain ⟨front, rfl⟩ := List.getLast?_eq_some_iff.mp isLast
      obtain ⟨front', rfl⟩ := List.getLast?_eq_some_iff.mp isLast'
      rw [List.dropLast_concat] at parent parent'
      subst parent parent'
      exact lt_of_compare_concat before
    · cases chosen'
  · cases chosen

theorem list_of_error {directory : Place} {path : String} {e : IoError}
    (failed : fs.place directory path .find = .error e) : fs.list directory path = .error e := by
  simp [list, readDirectory, failed, bind, Except.bind]

theorem list_eq_ok {directory : Place} {path : String} {entries : List (String × Bool)} :
    fs.list directory path = .ok entries ↔
      ∃ place, fs.place directory path .find = .ok place ∧
        fs.entry? place = some .directory ∧ entries = fs.children place := by
  cases leads : fs.place directory path .find with
  | error e => simp [list_of_error leads]
  | ok place =>
    have ordered := inOrder_of_perm (fs.order.perm place (fs.children place)) children_increasing
    rcases stands : fs.entry? place with _ | _ | _ | _ | _ | _ <;>
      simp [list, readDirectory, leads, stands, ordered, bind, Except.bind, pure, Except.pure,
        eq_comm]

end Children

section Append

variable {fs : FileSystem} {purpose : Purpose}

theorem advance_append {front back : List Step} (place : Place) (further : back ≠ [])
    (enters : ¬(purpose = .create ∧ back = [.inside])) :
    fs.advance purpose place (front ++ back) =
      match fs.advance .find place front with
      | .error e => .error e
      | .ok (.reached middle) => fs.advance purpose middle back
      | .ok (.link above target rest) => .ok (.link above target (rest ++ back)) := by
  induction front generalizing place with
  | nil => rfl
  | cons step front ih =>
    rw [List.cons_append, advance.eq_def, advance.eq_def fs .find]
    dsimp only
    cases fs.entry? place with
    | none => rfl
    | some entry =>
      cases entry with
      | directory =>
        dsimp only
        split
        · exact ih place
        · exact ih place
        · exact ih place.dropLast
        · rename_i text noDot noDots
          have goes : ¬(purpose = .create ∧ front ++ back = [.inside]) := by
            rintro ⟨create, last⟩
            rcases List.append_eq_singleton_iff.mp last with ⟨-, last⟩ | ⟨-, last⟩
            · exact enters ⟨create, last⟩
            · exact further last
          have stays : ¬(purpose = .create && front ++ back = [.inside]) := by simpa using goes
          have finds : ¬(Purpose.find = .create && front = [.inside]) := by simp
          have more : (front ++ back).isEmpty = false := by simp [further]
          rw [if_neg stays, if_neg finds]
          by_cases long : nameLimit < text.utf8ByteSize
          · rw [if_pos long, if_pos long]
          · rw [if_neg long, if_neg long]
            have onward := ih (place ++ [text])
            rcases fs.entry? (place ++ [text]) with _ | _ | _ | target | _ | _
            case some.link =>
              dsimp only
              rw [more, Bool.and_false, if_neg Bool.false_ne_true, if_neg (by simp)]
            all_goals exact onward
      | file content executable => rfl
      | link target => rfl
      | null => rfl
      | installed name => rfl

theorem follow_append (purpose : Purpose) (links : Nat) (place : Place) (front : List Step)
    {back : List Step} (further : back ≠ []) (enters : ¬(purpose = .create ∧ back = [.inside])) :
    ∃ left, fs.follow purpose links place (front ++ back) =
      match fs.follow .find links place front with
      | .error e => .error e
      | .ok middle => fs.follow purpose left middle back := by
  generalize find : Purpose.find = found
  fun_induction fs.follow found links place front with
  | case1 links place front e stops =>
    subst find
    refine ⟨links, ?_⟩
    rw [follow.eq_def]
    dsimp only
    rw [advance_append place further enters, stops]
  | case2 links place front middle reached =>
    subst find
    refine ⟨links, ?_⟩
    rw [follow.eq_def]
    dsimp only
    rw [advance_append place further enters, reached]
    exact (follow.eq_def fs purpose links middle back).symm
  | case3 place front above target rest reached =>
    subst find
    refine ⟨0, ?_⟩
    rw [follow.eq_def]
    dsimp only
    rw [advance_append place further enters, reached]
  | case4 place front above target rest reached links ih =>
    subst find
    obtain ⟨left, onward⟩ := ih
    refine ⟨left, ?_⟩
    rw [follow.eq_def]
    dsimp only
    rw [advance_append place further enters, reached, ← onward]
    dsimp only
    rw [List.append_assoc]

end Append

section Join

theorem stepsBefore_front (path : String) :
    stepsBefore (Path.front path) = ((Path.segments path).filter (· ≠ "")).map .name := by
  unfold stepsBefore Path.front
  split
  · rename_i slash
    obtain ⟨before, text⟩ := List.getLast?_eq_some_iff.mp slash
    have segments : Path.segments path = (before.splitOn '/').map String.ofList ++ [""] := by
      rw [Path.segments, text, List.splitOn_append_cons_self]
      simp
    rw [segments, text, List.dropLast_concat, List.filter_append]
    simp
  · rw [List.dropLast_concat]
    rfl

variable {fs : FileSystem} {directory place : Place} {path name : String} {purpose : Purpose}

/-- Where a name in the directory at a place is, or why it cannot be reached from there. -/
def reachName (place : Place) (path name : String) : Except IoError Place :=
  if name.toList.contains (Char.ofNat 0) then .error .zeroInPath
  else if pathLimit < (Path.join path name).utf8ByteSize then .error .nameTooLong
  else if name = ".." then .ok place.dropLast
  else if nameLimit < name.utf8ByteSize then .error .nameTooLong
  else .ok (place ++ [name])

theorem follow_name (links : Nat) (inside : fs.entry? place = some .directory) (noDot : name ≠ ".")
    (noLink : ∀ target, fs.entry? (place ++ [name]) ≠ some (.link target)) :
    fs.follow purpose links place [.name name] =
      if name = ".." then .ok place.dropLast
      else if nameLimit < name.utf8ByteSize then .error .nameTooLong
      else .ok (place ++ [name]) := by
  rw [follow.eq_def]
  dsimp only
  by_cases up : name = ".."
  · subst up
    rw [advance_of_leads (.up inside (.done _)), if_pos rfl]
  by_cases long : nameLimit < name.utf8ByteSize
  · have stops : fs.advance purpose place [.name name] = .error .nameTooLong := by
      simp [advance, inside, long]
    rw [stops, if_neg up, if_pos long]
  · have onward : fs.Leads purpose place [.name name] (.reached (place ++ [name])) :=
      .down inside ⟨noDot, up⟩ (by simp) (Nat.le_of_not_lt long) noLink (.done _)
    rw [advance_of_leads onward, if_neg up, if_neg long]

theorem follow_front {links : Nat} (leads : fs.follow .find links directory (steps path) = .ok place) :
    fs.follow .find links directory (stepsBefore (Path.front path)) = .ok place := by
  have split : steps path = stepsBefore (Path.front path) ++
      if (Path.segments path).getLast? = some "" then [.inside] else [] := by
    rw [stepsBefore_front]
    rfl
  rw [split] at leads
  by_cases slash : (Path.segments path).getLast? = some ""
  · rw [if_pos slash] at leads
    obtain ⟨left, onward⟩ := fs.follow_append .find links directory
      (stepsBefore (Path.front path)) (List.cons_ne_nil .inside []) (by simp)
    rw [leads] at onward
    cases reached : fs.follow .find links directory (stepsBefore (Path.front path)) with
    | error e =>
      rw [reached] at onward
      cases onward
    | ok middle =>
      rw [reached] at onward
      dsimp only at onward
      rw [follow.eq_def] at onward
      dsimp only at onward
      cases stays : fs.advance .find middle [.inside] with
      | error e =>
        rw [stays] at onward
        cases onward
      | ok stretch =>
        rw [stays] at onward
        cases leads_of_advance stays with
        | stay directory still last =>
          cases last
          exact onward.symm
  · rwa [if_neg slash, List.append_nil] at leads

theorem ne_empty_of_place (leads : fs.place directory path purpose = .ok place) :
    path ≠ "" := by
  rintro rfl
  simp [FileSystem.place] at leads

theorem place_join (leads : fs.place directory path .find = .ok place)
    (inside : fs.entry? place = some .directory) (segment : '/' ∉ name.toList)
    (nonempty : name ≠ "") (noDot : name ≠ ".")
    (noLink : ∀ target, fs.entry? (place ++ [name]) ≠ some (.link target)) :
    fs.place directory (Path.join path name) purpose = reachName place path name := by
  unfold FileSystem.place at leads ⊢
  split at leads
  · cases leads
  split at leads
  · cases leads
  split at leads
  · cases leads
  rename_i zero written long
  have zero' := Path.contains_join written segment (by decide : Char.ofNat 0 ≠ '/') (by simpa using zero)
  have written' := Path.join_ne_empty written segment nonempty
  obtain ⟨left, onward⟩ := fs.follow_append purpose linkLimit
    (if Path.isAbsolute path then [] else directory) (stepsBefore (Path.front path))
    (List.cons_ne_nil (.name name) []) (by simp)
  rw [follow_front leads] at onward
  dsimp only at onward
  rw [zero', if_neg written', Path.isAbsolute_join written segment,
    steps_of_divided (Path.divided_join written segment nonempty), String.ofList_toList, onward,
    follow_name left inside noDot noLink]
  rfl

end Join
end FileSystem
end SessionShell
