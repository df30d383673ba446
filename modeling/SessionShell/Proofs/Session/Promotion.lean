import SessionShell.Proofs.Session.LastSeen
import SessionShell.Proofs.Shell.Lasting

/-! Which names a run adds to the store. A fragment makes globals and locals of proper names only, and
the status, which is in every frame, is never new. The locals that a run compares with are those of
the fragment before; a local that is not new is tracked, so that no local is lost. -/

namespace SessionShell

/-- The frame holds the status and else proper names; so do the globals, but for those that were
there before. -/
structure Names.Proper (before : Scope Value) (names : Names Value) : Prop where
  status : Names.status ∈ names.locals
  locals : ∀ name ∈ names.locals, name = Names.status ∨ isName name
  globals : ∀ name ∈ names.globals, name ∈ before ∨ isName name

namespace Names

theorem lasting_proper (before : Scope Value) : Lasting (Proper before) where
  setStatus code names h := by
    refine ⟨?_, fun name member => ?_, h.globals⟩
    · simp [setStatus, setLocal]
    · rcases Std.ExtTreeMap.mem_insert.mp member with same | old
      · exact .inl (Std.LawfulEqCmp.eq_of_compare same).symm
      · exact h.locals name old
  setGlobal name text names proper h := by
    refine ⟨h.status, h.locals, fun other member => ?_⟩
    rcases Std.ExtTreeMap.mem_insert.mp member with same | old
    · exact .inr (Std.LawfulEqCmp.eq_of_compare same ▸ proper)
    · exact h.globals other old
  setLocal name text names proper h := by
    refine ⟨Std.ExtTreeMap.mem_insert.mpr (.inr h.status), fun other member => ?_, h.globals⟩
    rcases Std.ExtTreeMap.mem_insert.mp member with same | old
    · exact .inr (Std.LawfulEqCmp.eq_of_compare same ▸ proper)
    · exact h.locals other old
  unset name names h := by
    refine ⟨?_, fun other member => ?_, fun other member => ?_⟩
    · simp only [unset]
      split
      · exact h.status
      · rename_i ordinary
        simp [ordinary, h.status]
    · simp only [unset] at member
      split at member
      · exact h.locals other member
      · exact h.locals other (Std.ExtTreeMap.mem_of_mem_erase member)
    · exact h.globals other (Std.ExtTreeMap.mem_of_mem_erase member)

theorem proper_resetFrame (names : Names Value) : names.resetFrame.Proper names.globals where
  status := (Session.mem_resetFrame names status).mpr rfl
  locals name member := .inl ((Session.mem_resetFrame names name).mp member)
  globals _ member := .inl member

end Names

namespace Session

theorem mem_visible {α κ : Type} (s : Session α κ) (name : String) :
    name ∈ s.visible.globals ↔ name ∈ s.names.globals ∨ name ∈ s.store :=
  Std.ExtTreeMap.mem_union_iff

theorem names_proper (start : Launcher) (code : String) (s : Session Value ShellContext)
    (h : Host) : (evaluated (shellInterpreter start) code s h).names.Proper s.visible.globals := by
  have proper := Shell.evaluate_names (Names.lasting_proper s.visible.globals) start code
    (s.context.enter s.visible h) (Names.proper_resetFrame s.visible)
  simp only [evaluated, shellInterpreter]
  split
  · rename_i ended
    rw [ended] at proper
    exact proper
  · rename_i ended
    rw [ended] at proper
    exact proper

theorem mem_store_reached {start : Launcher} {first s : Session Value ShellContext}
    (frame : Names.status ∈ first.names.locals) (reached : Reached (shellInterpreter start) first s) :
    Names.status ∈ s.names.locals ∧ ∀ name ∈ s.store, name ∈ first.store ∨ isName name := by
  induction reached with
  | first => exact ⟨frame, fun name member => .inl member⟩
  | @run s o earlier faithful code h ih =>
    have proper := names_proper start code s h
    refine ⟨run_locals (shellInterpreter start) faithful code s h ▸ proper.status, ?_⟩
    intro name member
    rcases (mem_store_run_iff _ faithful code s h name).mp member with old | new | new
    · exact ih.2 name old
    · obtain ⟨present, notAmbient⟩ := new
      rcases proper.globals name present with before | isName
      · exact ih.2 name (((mem_visible s name).mp before).resolve_left notAmbient)
      · exact .inr isName
    · obtain ⟨present, notBefore⟩ := new
      rcases proper.locals name present with rfl | isName
      · exact absurd ih.1 notBefore
      · exact .inr isName

/-- Over a context whose frame holds the status, whatever its globals are, the fragments of a session
add only proper names to the store; the status is not added. -/
theorem only_names_added {start : Launcher} {first s : Session Value ShellContext}
    (frame : Names.status ∈ first.names.locals) (untracked : Names.status ∉ first.store)
    (reached : Reached (shellInterpreter start) first s) :
    (∀ name ∈ s.store, name ∉ first.store → isName name) ∧ Names.status ∉ s.store := by
  have added : ∀ name ∈ s.store, name ∉ first.store → isName name := fun name member new =>
    ((mem_store_reached frame reached).2 name member).resolve_left new
  refine ⟨added, fun member => ?_⟩
  have improper : isName Names.status = false := by decide +kernel
  exact Bool.false_ne_true (improper.symm.trans (added _ member untracked))

theorem only_names_added_odd :
    let first : Session Value ShellContext :=
      { store := .ofEntries [("a-b", .text "1")]
        names := .ofGlobals (.ofEntries [("?", .text "7"), ("1x", .text "2")]), context := {} }
    let i := shellInterpreter noProgram
    let one := (run i .increasing "x=1; local y=2; unset ?" first .idle).1
    let two := (run i .increasing "echo $(z=3; local 1bad) |" one .idle).1
    let three := (run i .increasing "local y=$(w=4)5; nothing; v=6" two .idle).1
    Names.status ∈ first.names.locals ∧ Names.status ∉ first.store ∧
      (three.store.toList.map fun e => (e.1, e.2.text?)) =
        [("a-b", some "1"), ("w", some "4"), ("x", some "1"), ("y", some "5")] ∧
      (∀ name ∈ three.store, name ∉ first.store → isName name) ∧
      Names.status ∉ three.store := by
  intro first i one two three
  have frame : Names.status ∈ first.names.locals := (mem_resetFrame _ _).mpr rfl
  have untracked : Names.status ∉ first.store := by decide +kernel
  have reached : Reached i first three :=
    .run (.run (.run .first Orders.increasing_faithful _ _) Orders.increasing_faithful _ _)
      Orders.increasing_faithful _ _
  exact ⟨frame, untracked, by decide +kernel, only_names_added frame untracked reached⟩

/-- No local that a fragment leaves is lost, whatever evaluates the fragments, if the frame before the
first one held the status alone. Its value is stored, unless the fragment left a new global of the
same name. -/
theorem locals_kept {κ : Type} {i : Interpreter Value κ} {s : Session Value κ} (grown : Grown i s)
    {o : Orders Value} (faithful : o.Faithful) (code : String) (h : Host) :
    let after := (evaluated i code s h).names
    let next := (run i o code s h).1
    ∀ name ∈ next.names.locals, name ≠ Names.status →
      name ∈ next.store ∧
      next.store[name]? =
        if name ∈ after.globals ∧ name ∉ s.store ∧ name ∉ s.names.globals then
          after.globals[name]?
        else next.names.locals[name]? := by
  intro after next name present ordinary
  have later : Grown i next := by
    obtain ⟨first, fresh, reached⟩ := grown
    exact ⟨first, fresh, reached.run faithful code h⟩
  refine ⟨later.tracked name present ordinary, ?_⟩
  have frame : next.names.locals = after.locals := run_locals i faithful code s h
  rw [frame] at present ⊢
  have stored : next.store[name]? = settled s.store s.names after name :=
    run_store i faithful code s h name
  rw [stored, settled]
  by_cases tracked : name ∈ s.store
  · have value : (after.locals[name]?).isSome := Std.ExtTreeMap.mem_iff_isSome_getElem?.mp present
    rw [if_pos tracked, if_neg fun fresh => fresh.2.1 tracked, Option.or_of_isSome value]
  · -- the snapshot of the locals is the frame of the fragment before, and that is tracked
    have new : name ∉ s.names.locals := fun before => tracked (grown.tracked name before ordinary)
    have added : name ∈ after.locals ∧ name ∉ s.names.locals := ⟨present, new⟩
    rw [if_neg tracked, if_pos added]
    simp only [tracked, not_false_eq_true, true_and]

/-- A local that two fragments declare, and one that is also a new global. -/
theorem locals_kept_again :
    let first : Session Value ShellContext := { store := ∅, names := .ofGlobals ∅, context := {} }
    let i := shellInterpreter noProgram
    let one := (run i .increasing "local y=1" first .idle).1
    let two := (run i .increasing "local y=2 z=3; z=4; nothing" one .idle).1
    Grown i one ∧ (Orders.increasing : Orders Value).Faithful ∧
      ("y" ∈ two.names.locals ∧ "y" ∈ two.store ∧
        (two.store["y"]?.bind Value.text?) = some "2") ∧
      ("z" ∈ two.names.locals ∧ "z" ∈ two.store ∧
        (two.store["z"]?.bind Value.text?) = some "4") := by
  intro first i one two
  have grown : Grown i one :=
    ⟨first, fun name => (mem_resetFrame _ name).mp,
      .run .first Orders.increasing_faithful "local y=1" .idle⟩
  have kept := locals_kept grown Orders.increasing_faithful "local y=2 z=3; z=4; nothing" .idle
  have yLocal : "y" ∈ two.names.locals := by decide +kernel
  have zLocal : "z" ∈ two.names.locals := by decide +kernel
  obtain ⟨yStored, yValue⟩ := kept "y" yLocal (by decide)
  obtain ⟨zStored, zValue⟩ := kept "z" zLocal (by decide)
  refine ⟨grown, Orders.increasing_faithful, ⟨yLocal, yStored, ?_⟩, ⟨zLocal, zStored, ?_⟩⟩
  · rw [yValue]
    decide +kernel
  · rw [zValue]
    decide +kernel

end Session

end SessionShell
