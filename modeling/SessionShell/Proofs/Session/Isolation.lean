import SessionShell.Proofs.Session.Reconciliation

/-! Whole sessions leave the ambient globals alone. Whatever the fragments do to them, each fragment
starts with the globals from before the first one, overlaid by the store, and they are back when it
has run. What a fragment starts with is recorded by its interpreter, which is what sees it. -/

namespace SessionShell

variable {α κ : Type}

def Interpreter.recording (i : Interpreter α κ) : Interpreter α (κ × List (Names α)) :=
  { evaluate := fun code names context host =>
      let e := i.evaluate code names context.1 host
      { e with context := (e.context, context.2 ++ [names]) } }

/-- A fragment, with the orders in which its run goes through the scopes and the host that it finds.
-/
structure Fragment (α : Type) where
  code : String
  orders : Orders α
  faithful : orders.Faithful
  host : Host

namespace Session

def runFragment (i : Interpreter α κ) (s : Session α κ) (f : Fragment α) : Session α κ :=
  (run i f.orders f.code s f.host).1

def sessions (i : Interpreter α κ) (first : Session α κ) (fragments : List (Fragment α)) :
    List (Session α κ) :=
  fragments.scanl (runFragment i) first

def withRecord (record : List (Names α)) (s : Session α κ) : Session α (κ × List (Names α)) :=
  { s with context := (s.context, record) }

/-- The names that the fragments started with, one after the other. -/
def starts (i : Interpreter α κ) (first : Session α κ) (fragments : List (Fragment α)) :
    List (Names α) :=
  (fragments.foldl (runFragment i.recording) (first.withRecord [])).context.2

theorem runFragment_recording (i : Interpreter α κ) (record : List (Names α)) (s : Session α κ)
    (f : Fragment α) :
    runFragment i.recording (s.withRecord record) f =
      (runFragment i s f).withRecord (record ++ [s.visible]) := by
  simp only [runFragment, run, inject_eq_overlay f.faithful, withRecord, Interpreter.recording,
    visible]

theorem foldl_recording (i : Interpreter α κ) (record : List (Names α)) (s : Session α κ)
    (fragments : List (Fragment α)) :
    fragments.foldl (runFragment i.recording) (s.withRecord record) =
      (fragments.foldl (runFragment i) s).withRecord
        (record ++ (sessions i s fragments).dropLast.map visible) := by
  induction fragments generalizing s record with
  | nil => simp [sessions]
  | cons f fragments ih =>
    have later : (sessions i s (f :: fragments)).dropLast =
        s :: (sessions i (runFragment i s f) fragments).dropLast := by
      rw [sessions, List.scanl_cons, List.dropLast_cons_of_ne_nil List.scanl_ne_nil]
      rfl
    rw [List.foldl_cons, List.foldl_cons, runFragment_recording, ih, later, List.map_cons,
      List.append_assoc, List.singleton_append]

theorem starts_eq (i : Interpreter α κ) (first : Session α κ) (fragments : List (Fragment α)) :
    starts i first fragments = (sessions i first fragments).dropLast.map visible := by
  rw [starts, foldl_recording]
  rfl

theorem sessions_globals (i : Interpreter α κ) (first : Session α κ)
    (fragments : List (Fragment α)) :
    ∀ s ∈ sessions i first fragments, s.names.globals = first.names.globals := by
  induction fragments generalizing first with
  | nil =>
    intro s member
    rw [List.mem_singleton.mp member]
  | cons f fragments ih =>
    intro s member
    rw [sessions, List.scanl_cons] at member
    rcases List.mem_cons.mp member with rfl | later
    · rfl
    · have back : (runFragment i first f).names.globals = first.names.globals :=
        run_globals i f.faithful f.code first f.host
      rw [ih _ s later, back]

/-- Behind every fragment of a session the globals are those from before the first, and each
fragment started with these, overlaid by what the store was then. -/
theorem ambient_isolated (i : Interpreter α κ) (first : Session α κ)
    (fragments : List (Fragment α)) :
    (∀ s ∈ sessions i first fragments, s.names.globals = first.names.globals) ∧
      (starts i first fragments).map Names.globals =
        (sessions i first fragments).dropLast.map fun s =>
          first.names.globals.overlay s.store := by
  have ambient := sessions_globals i first fragments
  refine ⟨ambient, ?_⟩
  rw [starts_eq, List.map_map]
  refine List.map_congr_left fun s earlier => ?_
  rw [← ambient s (List.dropLast_subset _ earlier)]
  rfl

end Session

end SessionShell
