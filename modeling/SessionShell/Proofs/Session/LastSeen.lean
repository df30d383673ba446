import SessionShell.Proofs.Session.Reconciliation
import SessionShell.Shell.Interpreter

/-! When the next fragment sees what the one before saw last. A fragment looks a name up among its
locals first, and so does the reconciliation for a tracked name. For a new name it takes the global,
so a local that lies in front of a new global is lost. -/

namespace SessionShell.Session

variable {α κ : Type}

/-- The sessions that fragments lead to from a first one. Each fragment runs in orders of its own,
and the host may change in between. -/
inductive Reached (i : Interpreter α κ) (first : Session α κ) : Session α κ → Prop
  | first : Reached i first first
  | run {s : Session α κ} {o : Orders α} (earlier : Reached i first s) (faithful : o.Faithful)
      (code : String) (h : Host) : Reached i first (run i o code s h).1

/-- Sessions over a context whose first frame held the status and nothing else. -/
def Grown (i : Interpreter α κ) (s : Session α κ) : Prop :=
  ∃ first, (∀ name ∈ first.names.locals, name = Names.status) ∧ Reached i first s

/-- The snapshot of the locals is the frame of the fragment before, whose names are all tracked. -/
theorem Grown.tracked {i : Interpreter α κ} {s : Session α κ} (grown : Grown i s) :
    ∀ name ∈ s.names.locals, name ≠ Names.status → name ∈ s.store := by
  obtain ⟨first, fresh, reached⟩ := grown
  induction reached with
  | first => exact fun name member ordinary => absurd (fresh name member) ordinary
  | @run s o earlier faithful code h ih =>
    intro name member ordinary
    rw [run_locals i faithful] at member
    refine (mem_store_run_iff i faithful code s h name).mpr ?_
    by_cases before : name ∈ s.names.locals
    · exact .inl (ih name before ordinary)
    · exact .inr (.inr ⟨member, before⟩)

theorem settled_eq_lookup_iff {store : Scope α} {before after : Names α} {name : String} {v : α}
    (own : name ∈ store ∨ name ∉ before.globals) (seen : after.lookup name = some v) :
    settled store before after name = some v ↔
      name ∈ store ∨ after.globals[name]? = some v ∨
        name ∉ after.globals ∧ name ∉ before.locals := by
  simp only [Names.lookup] at seen
  simp only [settled, Std.ExtTreeMap.mem_iff_isSome_getElem?] at own ⊢
  cases tracked : store[name]? with
  | some w =>
    cases hl : after.locals[name]? <;> cases hg : after.globals[name]? <;> simp_all
  | none =>
    cases hl : after.locals[name]? <;> cases hg : after.globals[name]? <;>
      cases hb : before.locals[name]? <;> simp_all

theorem lookup_resetFrame (names : Names Value) {name : String} (ordinary : name ≠ Names.status) :
    names.resetFrame.lookup name = names.globals[name]? := by
  simp [Names.resetFrame, Names.setStatus, Names.setLocal, Names.lookup, Ne.symm ordinary]

theorem mem_resetFrame (names : Names Value) (name : String) :
    name ∈ names.resetFrame.locals ↔ name = Names.status := by
  rw [eq_comm]
  simp [Names.resetFrame, Names.setStatus, Names.setLocal]

theorem lookup_next (i : Interpreter Value κ) {o : Orders Value} (faithful : o.Faithful)
    (code : String) (s : Session Value κ) (h : Host) {name : String}
    (ordinary : name ≠ Names.status) (own : name ∈ s.store ∨ name ∉ s.names.globals) :
    (run i o code s h).1.visible.resetFrame.lookup name = (run i o code s h).1.store[name]? := by
  rw [lookup_resetFrame _ ordinary, visible, Scope.getElem?_overlay, run_globals i faithful]
  rcases own with tracked | new
  · have kept := mem_store_run i faithful code s h tracked
    rw [Std.ExtTreeMap.mem_iff_isSome_getElem?] at kept
    obtain ⟨value, found⟩ := Option.isSome_iff_exists.mp kept
    rw [found, Option.some_or]
  · rw [Std.ExtTreeMap.getElem?_eq_none new, Option.or_none]

/-- The store keeps what a fragment saw last, and the next fragment starts with it, unless the name
is new and the fragment left another value among the globals, or no global at all and the frame
before had a local of that name. The frame before has no such local if the first one held the
status alone. -/
theorem last_seen_kept_iff (start : Launcher) {o : Orders Value} (faithful : o.Faithful)
    (code : String) (s : Session Value ShellContext) (h : Host) {name : String}
    (ordinary : name ≠ Names.status) (own : name ∈ s.store ∨ name ∉ s.names.globals) {v : Value}
    (seen : (evaluated (shellInterpreter start) code s h).names.lookup name = some v) :
    let after := (evaluated (shellInterpreter start) code s h).names
    let next := (run (shellInterpreter start) o code s h).1
    (next.store[name]? = some v ↔
      name ∈ s.store ∨ after.globals[name]? = some v ∨
        name ∉ after.globals ∧ name ∉ s.names.locals) ∧
    next.visible.resetFrame.lookup name = next.store[name]? ∧
    (Grown (shellInterpreter start) s →
      (next.store[name]? = some v ↔
        name ∈ s.store ∨ name ∉ after.globals ∨ after.globals[name]? = some v)) := by
  intro after next
  have kept : next.store[name]? = some v ↔ name ∈ s.store ∨ after.globals[name]? = some v ∨
      name ∉ after.globals ∧ name ∉ s.names.locals := by
    rw [run_store _ faithful]
    exact settled_eq_lookup_iff own seen
  refine ⟨kept, lookup_next _ faithful code s h ordinary own, fun grown => kept.trans ?_⟩
  have untracked : name ∉ s.store → name ∉ s.names.locals :=
    fun new member => new (grown.tracked name member ordinary)
  constructor
  · rintro (tracked | same | ⟨absent, -⟩)
    · exact .inl tracked
    · exact .inr (.inr same)
    · exact .inr (.inl absent)
  · rintro (tracked | absent | same)
    · exact .inl tracked
    · by_cases tracked : name ∈ s.store
      · exact .inl tracked
      · exact .inr (.inr ⟨absent, untracked tracked⟩)
    · exact .inr (.inl same)

def noProgram : Launcher :=
  fun _ m => (.error .noEntry, m)

theorem lookup_of_text {names : Names Value} {name text : String}
    (h : names.text? name = some text) : names.lookup name = some (.text text) := by
  obtain ⟨value, found, is⟩ := Option.bind_eq_some_iff.mp h
  cases value with
  | text t => rw [found, Option.some.inj is]
  | native n => cases is

theorem last_seen_kept_tracked :
    let s : Session Value ShellContext :=
      { store := .ofEntries [("x", .text "0")], names := .ofGlobals ∅, context := {} }
    (Orders.increasing : Orders Value).Faithful ∧ "x" ≠ Names.status ∧ "x" ∈ s.store ∧
      (evaluated (shellInterpreter noProgram) "x=1; local x=2" s .idle).names.lookup "x" =
        some (.text "2") ∧
      (run (shellInterpreter noProgram) .increasing "x=1; local x=2" s .idle).1.store["x"]? =
        some (.text "2") := by
  intro s
  have ordinary : "x" ≠ Names.status := by decide
  have tracked : "x" ∈ s.store := by decide +kernel
  have seen : (evaluated (shellInterpreter noProgram) "x=1; local x=2" s .idle).names.lookup "x" =
      some (.text "2") := lookup_of_text (by decide +kernel)
  have kept := last_seen_kept_iff noProgram Orders.increasing_faithful "x=1; local x=2" s .idle
    ordinary (.inl tracked) seen
  exact ⟨Orders.increasing_faithful, ordinary, tracked, seen, kept.1.mpr (.inl tracked)⟩

/-- A new name that is assigned and declared local: the fragment sees the local last, and the store
gets the global. -/
theorem new_local_lost :
    let s : Session Value ShellContext := { store := ∅, names := .ofGlobals ∅, context := {} }
    Grown (shellInterpreter noProgram) s ∧ Names.status ∉ s.store ∧ "x" ∉ s.names.globals ∧
      (evaluated (shellInterpreter noProgram) "x=1; local x=2" s .idle).names.text? "x" =
        some "2" ∧
      ((run (shellInterpreter noProgram) .increasing "x=1; local x=2" s .idle).1.store["x"]?.bind
        Value.text?) = some "1" := by
  intro s
  refine ⟨⟨s, fun name => (mem_resetFrame _ name).mp, .first⟩, ?_, ?_, ?_, ?_⟩
  all_goals decide +kernel

end SessionShell.Session
