import SessionShell.Proofs.Shell.Commands

/-! Relations between states that shell code keeps. Related states differ in the flag of the prompt
at most, which code does not look at. So a step gives the same value in both of them, and the states
behind it are related again. -/

namespace SessionShell

namespace ShellState

def renamed (f : Names Value → Names Value) (s : ShellState) : ShellState :=
  { s with names := f s.names }

/-- What is done to both of two related states leaves them related, be it a change of the names or
one that has to do neither with them nor with the flag. -/
structure Kept (R : ShellState → ShellState → Prop) : Prop where
  lowered_eq : ∀ {s t}, R s t → s.lowered = t.lowered
  changed : ∀ {f s t}, Names.Change f → R s t → R (s.renamed f) (t.renamed f)
  framed : ∀ {f : ShellState → ShellState} {s t}, (∀ s, (f s).names = s.names) →
    (∀ s, (f s).lowered = f s.lowered) → R s t → R (f s) (f t)

namespace Kept

variable {R : ShellState → ShellState → Prop} (kept : Kept R) {s t : ShellState}
include kept

theorem out_eq (related : R s t) : s.out = t.out := by
  have same := congrArg ShellState.out (kept.lowered_eq related)
  exact same

theorem withOut (out : Sink) (related : R s t) : R { s with out } { t with out } :=
  kept.framed (f := fun s => { s with out }) (fun _ => rfl) (fun _ => rfl) related

theorem foldl {β : Type} {change : β → Names Value → Names Value} {l : List β}
    (changes : ∀ b ∈ l, Names.Change (change b)) (related : R s t) :
    R (s.renamed fun names => l.foldl (fun names b => change b names) names)
      (t.renamed fun names => l.foldl (fun names b => change b names) names) := by
  induction l generalizing s t with
  | nil => exact related
  | cons b rest ih =>
    obtain ⟨first, later⟩ := List.forall_mem_cons.mp changes
    exact ih later (kept.changed first related)

end Kept

end ShellState

open ShellState (Kept)

namespace Shell

variable {α β : Type} {R : ShellState → ShellState → Prop}

theorem bind_eq_ok {step : Shell α} {next : α → Shell β} {s t : ShellState} {b : β}
    (h : (step >>= next) s = (.ok b, t)) :
    ∃ a m, step s = (.ok a, m) ∧ next a m = (.ok b, t) := by
  rw [bind_apply] at h
  split at h
  · rename_i a m ran
    exact ⟨a, m, ran, h⟩
  · cases h

/-- Whether the step succeeds or fails, it does the same in related states, and leaves them
related. -/
def Respects (R : ShellState → ShellState → Prop) (step : Shell α) : Prop :=
  ∀ s t, R s t → (step s).1 = (step t).1 ∧ R (step s).2 (step t).2

namespace Respects

theorem pure (a : α) : Respects R (Pure.pure a : Shell α) :=
  fun _ _ related => ⟨rfl, related⟩

theorem throw (e : Failure) : Respects R (MonadExcept.throw e : Shell α) :=
  fun _ _ related => ⟨rfl, related⟩

theorem fail (cause : Cause) : Respects R (Shell.fail cause : Shell α) :=
  throw _

theorem bindValue {step : Shell α} {next : α → Shell β} (first : Respects R step)
    (rest : ∀ s a t, step s = (.ok a, t) → Respects R (next a)) : Respects R (step >>= next) := by
  intro s t related
  obtain ⟨same, middle⟩ := first s t related
  rw [bind_apply, bind_apply]
  cases here : step s with
  | mk result s' =>
    cases there : step t with
    | mk result' t' =>
      rw [here, there] at same middle
      obtain rfl : result = result' := same
      cases result with
      | ok a => exact rest s a s' here s' t' middle
      | error e => exact ⟨rfl, middle⟩

theorem bind {step : Shell α} {next : α → Shell β} (first : Respects R step)
    (rest : ∀ a, Respects R (next a)) : Respects R (step >>= next) :=
  first.bindValue fun _ a _ _ => rest a

theorem changing {f : Names Value → Names Value}
    (changed : ∀ s t, R s t → R (s.renamed f) (t.renamed f)) : Respects R (changeNames f) :=
  fun s t related => ⟨rfl, changed s t related⟩

theorem orElseWith {step : Shell α} {handle : Failure → Shell α} (respects : Respects R step)
    (handled : ∀ e, Respects R (handle e)) : Respects R (step.orElseWith handle) := by
  intro s t related
  obtain ⟨same, after⟩ := respects s t related
  unfold Shell.orElseWith
  cases here : step s with
  | mk result s' =>
    cases there : step t with
    | mk result' t' =>
      rw [here, there] at same after
      obtain rfl : result = result' := same
      cases result with
      | ok a => exact ⟨rfl, after⟩
      | error e => exact handled e s' t' after

section Kept

variable (kept : Kept R)
include kept

theorem inspect {next : ShellState → Shell β} (blind : ∀ s, next s.lowered = next s)
    (rest : ∀ s, Respects R (next s)) : Respects R (get >>= next) := by
  intro s t related
  have same : next t = next s := by rw [← blind t, ← kept.lowered_eq related, blind s]
  change (next s s).1 = (next t t).1 ∧ R (next s s).2 (next t t).2
  rw [same]
  exact rest s s t related

theorem modifying {f : ShellState → ShellState} (names : ∀ s, (f s).names = s.names)
    (blind : ∀ s, (f s).lowered = f s.lowered) : Respects R (modify f : Shell Unit) := by
  intro s t related
  rw [modify_apply, modify_apply]
  exact ⟨rfl, kept.framed names blind related⟩

theorem collecting {step : Shell α} (respects : Respects R step) :
    Respects R (Shell.collecting step) := by
  intro s t related
  obtain ⟨same, after⟩ := respects _ _ (kept.withOut .memory related)
  -- both states have the same stream, so that the same one comes back
  have out := kept.out_eq related
  unfold Shell.collecting
  cases here : step { s with out := .memory } with
  | mk result s' =>
    cases there : step { t with out := .memory } with
    | mk result' t' =>
      rw [here, there] at same after
      obtain rfl : result = result' := same
      have written := kept.out_eq after
      dsimp only at written
      cases result with
      | ok a =>
        dsimp only
        rw [written, out]
        exact ⟨rfl, kept.withOut t.out after⟩
      | error e =>
        dsimp only
        rw [out]
        exact ⟨rfl, kept.withOut t.out after⟩

theorem flushing {step : Shell α} (respects : Respects R step) :
    Respects R (Shell.flushing step) := by
  intro s t related
  obtain ⟨same, after⟩ := respects s t related
  rw [Shell.flushing_apply, Shell.flushing_apply]
  cases here : step s with
  | mk result s' =>
    cases there : step t with
    | mk result' t' =>
      rw [here, there] at same after
      obtain rfl : result = result' := same
      have out := kept.out_eq after
      dsimp only at out
      cases result with
      | error e => exact ⟨rfl, after⟩
      | ok a =>
        dsimp only
        rw [out]
        cases t'.out.flush <;> exact ⟨rfl, after⟩

theorem write (bytes : Bytes) : Respects R (Shell.write bytes) := by
  refine inspect kept (fun _ => rfl) fun s => .bind ?_ fun _ =>
    modifying kept (fun _ => rfl) fun _ => rfl
  cases s.out.write bytes with
  | ok out => exact .pure _
  | error e => exact .fail _

theorem closed : Closed fun _ step => Respects R step where
  pure := pure
  throw _ := throw _
  bind := bind
  orElseWith := orElseWith
  inspect := inspect kept
  modifying names _ blind := modifying kept names blind
  changing _ changes := .changing fun _ _ => kept.foldl fun b _ => changes b
  write := write kept

end Kept

end Respects

theorem respects_invoke (kept : Kept R) (start : Launcher) (c : Call) :
    Respects R (invoke start c) :=
  closed_invoke (Respects.closed kept) start c

end Shell

end SessionShell
