import Mathlib.Data.List.Infix
import Mathlib.Data.List.Lex
import Mathlib.Data.List.Sort
import SessionShell.Compile
import SessionShell.Proofs.Host.Children

/-! The walk through a module, over any listing of directories. A directory below the root is told by
its trail, the names that lead to it. In the order of trails a directory stands in front of all below
it, and siblings stand in the order of their names. The walk takes the trails that can be reached in
this order, each of them once. -/

namespace SessionShell

theorem append_lt_of_lt {α : Type} [LinearOrder α] {front other : List α} (before : front < other)
    (apart : ¬front <+: other) (back : List α) : front ++ back < other := by
  induction before with
  | nil => exact absurd List.nil_prefix apart
  | rel smaller => exact List.Lex.rel smaller
  | cons _ ih =>
    refine List.Lex.cons (ih fun within => apart ?_)
    exact (List.prefix_cons_inj _).mpr within

namespace Compile

/-- The trails to the directories that are met, the root and those in directories that can be
listed. -/
inductive Reaches (list : Listing) (root : String) : List String → Prop
  | root : Reaches list root []
  | inside {trail : List String} {name : String} {entries : List (String × Bool)}
      (above : Reaches list root trail) (listed : list (Path.along root trail) = .ok entries)
      (member : (name, true) ∈ entries) : Reaches list root (trail ++ [name])

/-- What there is to say about a directory: its sources, or why it cannot be listed. -/
def item (list : Listing) (path : String) : Except Failure ModuleDirectory :=
  match list path with
  | .error e => .error ⟨["failed to read directory " ++ path], .io e⟩
  | .ok entries => .ok ⟨path, sourcesOf path entries⟩

def inside (list : Listing) (path : String) : List String :=
  match list path with
  | .error _ => []
  | .ok entries => entries.filterMap fun (name, isDirectory) => if isDirectory then some name else none

/-- All the trails that can be reached, in increasing order. -/
structure Itinerary (list : Listing) (root : String) (trails : List (List String)) : Prop where
  increasing : trails.Pairwise (· < ·)
  complete : ∀ trail, trail ∈ trails ↔ Reaches list root trail

theorem Itinerary.unique {list : Listing} {root : String} {trails others : List (List String)}
    (one : Itinerary list root trails) (other : Itinerary list root others) : trails = others := by
  refine one.increasing.eq_of_mem_iff other.increasing fun trail => ?_
  rw [one.complete, other.complete]

section Listing

variable {list : Listing} {root : String}

theorem mem_inside {path name : String} :
    name ∈ inside list path ↔ ∃ entries, list path = .ok entries ∧ (name, true) ∈ entries := by
  unfold inside
  cases listed : list path with
  | error e => simp
  | ok entries => simp [List.mem_filterMap]

theorem walk_cons (bound : Nat) (path : String) (pending : List String) :
    walk list (bound + 1) (path :: pending) =
      item list path :: walk list bound ((inside list path).map (Path.join path) ++ pending) := by
  rw [walk, item, inside]
  cases list path with
  | error e => rfl
  | ok entries =>
    have joined : directoriesOf path entries =
        (entries.filterMap fun (name, isDirectory) => if isDirectory then some name else none).map
          (Path.join path) := by
      rw [directoriesOf, List.map_filterMap]
      congr 1
      funext ⟨name, isDirectory⟩
      cases isDirectory <;> rfl
    dsimp only
    rw [joined]

theorem walk_nil (bound : Nat) : walk list bound [] = [] := by
  cases bound <;> rfl

/-- The state of a walk. The pending trails follow all that are done, in increasing order, and no
pending directory lies below another one. -/
structure Underway (list : Listing) (root : String) (done pending : List (List String)) : Prop where
  increasing : (done ++ pending).Pairwise (· < ·)
  apart : pending.Pairwise fun trail later => ¬trail <+: later
  reached : ∀ trail ∈ done ++ pending, Reaches list root trail
  start : [] ∈ done ++ pending
  entered : ∀ trail ∈ done, ∀ name ∈ inside list (Path.along root trail),
    trail ++ [name] ∈ done ++ pending

namespace Underway

theorem begin : Underway list root [] [[]] where
  increasing := List.pairwise_singleton _ _
  apart := List.pairwise_singleton _ _
  reached := by
    intro trail member
    rw [List.mem_singleton.mp member]
    exact .root
  start := List.mem_singleton_self _
  entered := nofun

theorem nodup {done pending : List (List String)} (underway : Underway list root done pending) :
    (done ++ pending).Nodup :=
  underway.increasing.imp fun before => ne_of_lt before

theorem finished {done : List (List String)} (underway : Underway list root done []) :
    Itinerary list root done := by
  have all : done ++ [] = done := List.append_nil done
  refine ⟨all ▸ underway.increasing, fun trail => ⟨fun member => ?_, fun reaches => ?_⟩⟩
  · exact underway.reached trail (all.symm ▸ member)
  · induction reaches with
    | root => exact all ▸ underway.start
    | inside above listed member ih =>
      exact all ▸ underway.entered _ ih _ (mem_inside.mpr ⟨_, listed, member⟩)

variable (sorted : ∀ path, (inside list path).Pairwise (· < ·))
include sorted

theorem next {done pending : List (List String)} {trail : List String}
    (underway : Underway list root done (trail :: pending)) :
    Underway list root (done ++ [trail])
      ((inside list (Path.along root trail)).map (fun name => trail ++ [name]) ++ pending) := by
  obtain ⟨increasing, apart, reached, start, entered⟩ := underway
  obtain ⟨doneIncreasing, restIncreasing, across⟩ := List.pairwise_append.mp increasing
  obtain ⟨first, pendingIncreasing⟩ := List.pairwise_cons.mp restIncreasing
  obtain ⟨notBelow, pendingApart⟩ := List.pairwise_cons.mp apart
  have below (name : String) : trail < trail ++ [name] := by
    have further := List.Lex.append_left (· < ·) (.nil : List.Lex (· < ·) [] [name]) trail
    rwa [List.append_nil] at further
  have siblings : ((inside list (Path.along root trail)).map fun name => trail ++ [name]).Pairwise
      (· < ·) := by
    refine List.pairwise_map.mpr ((sorted _).imp fun smaller => ?_)
    exact List.Lex.append_left _ (.rel smaller) trail
  have inFront : ∀ child ∈ (inside list (Path.along root trail)).map fun name => trail ++ [name],
      ∀ later ∈ pending, child < later := by
    intro child isChild later isLater
    obtain ⟨name, -, rfl⟩ := List.mem_map.mp isChild
    exact append_lt_of_lt (first later isLater) (notBelow later isLater) [name]
  refine ⟨?_, ?_, ?_, ?_, ?_⟩
  · -- what is done comes first, then what is taken, what lies in it, and the rest
    rw [List.append_assoc, List.singleton_append]
    refine List.pairwise_append.mpr ⟨doneIncreasing, List.pairwise_cons.mpr ⟨?_, ?_⟩, ?_⟩
    · intro later member
      rcases List.mem_append.mp member with isChild | isLater
      · obtain ⟨name, -, rfl⟩ := List.mem_map.mp isChild
        exact below name
      · exact first later isLater
    · exact List.pairwise_append.mpr ⟨siblings, pendingIncreasing, inFront⟩
    · intro earlier isDone later member
      have front := across earlier isDone trail List.mem_cons_self
      rcases List.mem_cons.mp member with rfl | member
      · exact front
      rcases List.mem_append.mp member with isChild | isLater
      · obtain ⟨name, -, rfl⟩ := List.mem_map.mp isChild
        exact front.trans (below name)
      · exact across earlier isDone later (List.mem_cons_of_mem _ isLater)
  · -- siblings do not lie below each other, nor anything else below what lies in the one taken
    refine List.pairwise_append.mpr ⟨?_, pendingApart, ?_⟩
    · refine List.pairwise_map.mpr ((sorted _).imp fun {one other} smaller within => ?_)
      have same : [one] = [other] :=
        ((List.prefix_append_right_inj trail).mp within).eq_of_length rfl
      exact smaller.ne (List.singleton_inj.mp same)
    · intro child isChild later isLater within
      obtain ⟨name, -, rfl⟩ := List.mem_map.mp isChild
      exact notBelow later isLater ((List.prefix_append trail [name]).trans within)
  · intro other member
    simp only [List.append_assoc, List.singleton_append, List.mem_append, List.mem_cons] at member
    rcases member with isDone | rfl | isChild | isLater
    · exact reached other (List.mem_append_left _ isDone)
    · exact reached other (List.mem_append_right _ List.mem_cons_self)
    · obtain ⟨name, isInside, rfl⟩ := List.mem_map.mp isChild
      obtain ⟨entries, listed, member⟩ := mem_inside.mp isInside
      exact .inside (reached trail (List.mem_append_right _ List.mem_cons_self)) listed member
    · exact reached other (List.mem_append_right _ (List.mem_cons_of_mem _ isLater))
  · simp only [List.mem_append, List.mem_cons] at start ⊢
    tauto
  · intro earlier isDone name isInside
    rcases List.mem_append.mp isDone with isDone | isTrail
    · have member := entered earlier isDone name isInside
      simp only [List.mem_append, List.mem_cons] at member ⊢
      tauto
    · rw [List.mem_singleton.mp isTrail] at isInside ⊢
      exact List.mem_append_right _ (List.mem_append_left _ (List.mem_map.mpr ⟨name, isInside, rfl⟩))

end Underway

variable (sorted : ∀ path, (inside list path).Pairwise (· < ·))
include sorted

/-- From any state the walk goes on to the end if the bound is not below the number of trails that
are left. -/
theorem walk_underway {limit : Nat}
    (finite : ∀ trails : List (List String), trails.Nodup →
      (∀ trail ∈ trails, Reaches list root trail) → trails.length ≤ limit)
    {bound : Nat} {done pending : List (List String)} (enough : limit ≤ done.length + bound)
    (underway : Underway list root done pending) :
    ∃ rest, Itinerary list root (done ++ rest) ∧
      walk list bound (pending.map (Path.along root)) =
        rest.map fun trail => item list (Path.along root trail) := by
  -- a turn adds a trail to those that are done, and takes one from the bound
  induction bound generalizing done pending with
  | zero =>
    have few := finite _ underway.nodup underway.reached
    rw [List.length_append] at few
    obtain rfl : pending = [] := List.length_eq_zero_iff.mp (by omega)
    exact ⟨[], by rw [List.append_nil]; exact underway.finished, rfl⟩
  | succ bound ih =>
    cases pending with
    | nil => exact ⟨[], by rw [List.append_nil]; exact underway.finished, walk_nil _⟩
    | cons trail pending =>
      have later : limit ≤ (done ++ [trail]).length + bound := by
        rw [List.length_append, List.length_singleton]
        omega
      obtain ⟨rest, itinerary, walked⟩ := ih later (underway.next sorted)
      refine ⟨trail :: rest, by simpa using itinerary, ?_⟩
      have paths : (inside list (Path.along root trail)).map (Path.join (Path.along root trail)) =
          ((inside list (Path.along root trail)).map fun name => trail ++ [name]).map
            (Path.along root) := by
        rw [List.map_map]
        exact List.map_congr_left fun name _ => (Path.along_concat root trail name).symm
      rw [List.map_cons, walk_cons, paths, ← List.map_append, walked, List.map_cons]

/-- The walk says of every directory what there is to say about it, in the order of the trails. -/
theorem walk_eq {limit : Nat}
    (finite : ∀ trails : List (List String), trails.Nodup →
      (∀ trail ∈ trails, Reaches list root trail) → trails.length ≤ limit) :
    ∃ trails, Itinerary list root trails ∧ ∀ bound, limit ≤ bound →
      walk list bound [root] = trails.map fun trail => item list (Path.along root trail) := by
  have each (bound : Nat) (enough : limit ≤ bound) :
      ∃ trails, Itinerary list root trails ∧
        walk list bound [root] = trails.map fun trail => item list (Path.along root trail) :=
    walk_underway sorted finite (by simpa using enough) .begin
  obtain ⟨trails, itinerary, -⟩ := each limit le_rfl
  refine ⟨trails, itinerary, fun bound enough => ?_⟩
  obtain ⟨others, same, walked⟩ := each bound enough
  rwa [itinerary.unique same]

end Listing

section Barred

def barred (locked : String → Option IoError) (list : Listing) : Listing := fun path =>
  match locked path with
  | some e => .error e
  | none => list path

/-- No directory above the one that the trail leads to is locked. -/
def unbarred (locked : String → Option IoError) (root : String) (trail : List String) : Bool :=
  trail.inits.dropLast.all fun above => (locked (Path.along root above)).isNone

variable {list : Listing} {root : String} {locked : String → Option IoError}

theorem unbarred_concat (trail : List String) (name : String) :
    unbarred locked root (trail ++ [name]) =
      (unbarred locked root trail && (locked (Path.along root trail)).isNone) := by
  have own : trail.inits = trail.inits.dropLast ++ [trail] := by
    rcases trail.eq_nil_or_concat with rfl | ⟨front, last, rfl⟩
    · rfl
    · simp [List.inits_append]
  have above : (trail ++ [name]).inits.dropLast = trail.inits := by simp [List.inits_append]
  rw [unbarred, above, own, List.all_append, ← unbarred]
  simp

theorem barred_eq_ok {path : String} {entries : List (String × Bool)} :
    barred locked list path = .ok entries ↔ locked path = none ∧ list path = .ok entries := by
  unfold barred
  cases locked path <;> simp

theorem reaches_barred_iff {trail : List String} :
    Reaches (barred locked list) root trail ↔
      Reaches list root trail ∧ unbarred locked root trail = true := by
  constructor
  · intro reaches
    induction reaches with
    | root => exact ⟨.root, rfl⟩
    | inside above listed member ih =>
      obtain ⟨free, listed⟩ := barred_eq_ok.mp listed
      refine ⟨.inside ih.1 listed member, ?_⟩
      rw [unbarred_concat, ih.2, free]
      rfl
  · rintro ⟨reaches, free⟩
    induction reaches with
    | root => exact .root
    | inside above listed member ih =>
      rw [unbarred_concat, Bool.and_eq_true, Option.isNone_iff_eq_none] at free
      exact .inside (ih free.1) (barred_eq_ok.mpr ⟨free.2, listed⟩) member

theorem Itinerary.barred_eq {trails all : List (List String)}
    (itinerary : Itinerary (barred locked list) root trails) (whole : Itinerary list root all) :
    trails = all.filter (unbarred locked root) := by
  refine itinerary.increasing.eq_of_mem_iff (whole.increasing.filter _) fun trail => ?_
  rw [itinerary.complete, List.mem_filter, whole.complete, reaches_barred_iff]

end Barred

end Compile

end SessionShell
