import SessionShell.Proofs.Shell.Relations

/-! What steps of the shell do to the output stream. A step that writes puts bytes behind what is there
already, whether it succeeds or fails, and a sealed one has nothing to do with the stream at all. What
collects its output is sealed, and so is the expansion of words, however deep substitutions lie in
them. -/

namespace SessionShell

namespace Sink

def extended (bytes : Bytes) (o : Sink) : Sink :=
  { o with written := o.written ++ bytes }

@[simp] theorem extended_nil (o : Sink) : o.extended [] = o := by
  simp [extended]

@[simp] theorem extended_extended (first second : Bytes) (o : Sink) :
    (o.extended first).extended second = o.extended (first ++ second) := by
  simp [extended]

end Sink

namespace Shell

variable {α β : Type}

/-- Whatever becomes of the step, the stream has all that it had before, and bytes behind it. -/
def Appends (step : Shell α) : Prop :=
  ∀ s, ∃ bytes, (step s).2.out = s.out.extended bytes

namespace Appends

theorem pure (a : α) : Appends (Pure.pure a : Shell α) :=
  fun s => ⟨[], s.out.extended_nil.symm⟩

theorem throw (e : Failure) : Appends (MonadExcept.throw e : Shell α) :=
  fun s => ⟨[], s.out.extended_nil.symm⟩

theorem bind {step : Shell α} {next : α → Shell β} (first : Appends step)
    (rest : ∀ a, Appends (next a)) : Appends (step >>= next) := by
  intro s
  obtain ⟨bytes, grew⟩ := first s
  rw [bind_apply]
  cases here : step s with
  | mk result t =>
    rw [here] at grew
    cases result with
    | error e => exact ⟨bytes, grew⟩
    | ok a =>
      obtain ⟨more, grewMore⟩ := rest a t
      refine ⟨bytes ++ more, grewMore.trans ?_⟩
      rw [grew, Sink.extended_extended]

theorem inspect {next : ShellState → Shell β} (rest : ∀ s, Appends (next s)) :
    Appends (get >>= next) :=
  fun s => rest s s

theorem modifying {f : ShellState → ShellState} (same : ∀ s, (f s).out = s.out) :
    Appends (modify f : Shell Unit) :=
  fun s => ⟨[], (same s).trans s.out.extended_nil.symm⟩

theorem orElseWith {step : Shell α} {handle : Failure → Shell α} (appends : Appends step)
    (handled : ∀ e, Appends (handle e)) : Appends (step.orElseWith handle) := by
  intro s
  obtain ⟨bytes, grew⟩ := appends s
  unfold Shell.orElseWith
  cases here : step s with
  | mk result t =>
    rw [here] at grew
    cases result with
    | ok a => exact ⟨bytes, grew⟩
    | error e =>
      obtain ⟨more, grewMore⟩ := handled e t
      refine ⟨bytes ++ more, grewMore.trans ?_⟩
      rw [grew, Sink.extended_extended]

theorem flushing {step : Shell α} (appends : Appends step) : Appends (Shell.flushing step) := by
  intro s
  obtain ⟨bytes, grew⟩ := appends s
  refine ⟨bytes, ?_⟩
  rw [Shell.flushing_apply]
  cases here : step s with
  | mk result t =>
    rw [here] at grew
    cases result with
    | error e => exact grew
    | ok a => cases flushed : t.out.flush <;> simpa only [flushed] using grew

theorem write (bytes : Bytes) : Appends (Shell.write bytes) := by
  intro s
  unfold Shell.write
  by_cases nothing : bytes = []
  · exact ⟨[], by simp [Sink.write, nothing, ofIo]⟩
  · by_cases refused : s.out.temper = .refusing
    · exact ⟨[], by simp [Sink.write, nothing, refused, ofIo, Shell.fail]⟩
    · exact ⟨bytes, by simp [Sink.write, nothing, refused, ofIo, Sink.extended]⟩

theorem closed : Closed fun _ step => Appends step where
  pure := pure
  throw _ := throw _
  bind := bind
  orElseWith := orElseWith
  inspect _ := inspect
  modifying _ same _ := modifying same
  changing _ _ := modifying fun _ => rfl
  write := write

end Appends

theorem collecting_eq (step : Shell α) (s : ShellState) :
    collecting step s =
      let ran := step { s with out := .memory }
      (ran.1.map (·, ran.2.out.written), { ran.2 with out := s.out }) := by
  unfold collecting
  cases step { s with out := .memory } with
  | mk result t => cases result <;> rfl

/-- The step neither looks at the stream nor changes it. -/
def Sealed (step : Shell α) : Prop :=
  ∀ s out, step { s with out } = ((step s).1, { (step s).2 with out })

namespace Sealed

theorem out_eq {step : Shell α} (isSealed : Sealed step) (s : ShellState) :
    (step s).2.out = s.out := by
  have same := isSealed s s.out
  exact congrArg (fun r => r.2.out) same

theorem pure (a : α) : Sealed (Pure.pure a : Shell α) :=
  fun _ _ => rfl

theorem throw (e : Failure) : Sealed (MonadExcept.throw e : Shell α) :=
  fun _ _ => rfl

theorem bind {step : Shell α} {next : α → Shell β} (first : Sealed step)
    (rest : ∀ a, Sealed (next a)) : Sealed (step >>= next) := by
  intro s out
  rw [bind_apply, bind_apply, first s out]
  cases step s with
  | mk result t =>
    cases result with
    | error e => rfl
    | ok a => exact rest a t out

theorem collecting (step : Shell α) : Sealed (Shell.collecting step) := by
  intro s out
  rw [collecting_eq, collecting_eq]

end Sealed

section Words

variable {capture : String → Shell String} (captured : ∀ code, Sealed (capture code))
include captured

theorem sealed_expand (w : Word) : Sealed (expand capture w) := by
  have one (part : WordPart) : Sealed (expandPart capture part) := by
    cases part with
    | literal text => exact .pure _
    | parameter name => exact fun _ _ => rfl
    | command code => exact (captured code).bind fun _ => .pure _
  induction w with
  | nil => exact .pure _
  | cons part rest ih => exact (one part).bind fun _ => ih.bind fun _ => .pure _

theorem sealed_expandAll (ws : List Word) : Sealed (expandAll capture ws) := by
  induction ws with
  | nil => exact .pure _
  | cons w rest ih => exact (sealed_expand captured w).bind fun _ => ih.bind fun _ => .pure _

theorem sealed_expandAssignments (as : List Assignment) :
    Sealed (expandAssignments capture as) := by
  induction as with
  | nil => exact .pure _
  | cons a rest ih =>
    obtain ⟨name, value⟩ := a
    cases value with
    | none => exact .bind (.pure _) fun _ => ih.bind fun _ => .pure _
    | some w => exact (sealed_expand captured w).bind fun _ => ih.bind fun _ => .pure _

end Words

theorem sealed_captureWithin (perform : Call → Shell Int32) (depth : Nat) (code : String) :
    Sealed (captureWithin perform depth code) := by
  cases depth with
  | zero => exact .throw _
  | succ depth =>
    unfold captureWithin
    split
    · exact .throw _
    · exact (Sealed.collecting _).bind fun _ => .pure _

/-- Every command writes behind what is in the stream, be it a native, a builtin or a program. -/
theorem appends_invoke (start : Launcher) (c : Call) : Appends (invoke start c) :=
  closed_invoke Appends.closed start c

end Shell

end SessionShell
