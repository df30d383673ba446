import SessionShell.Proofs.Prompt.Evaluations
import SessionShell.Proofs.Shell.Evaluation
import SessionShell.Shell.Interpreter

/-! The flag of the prompt, as shell code sees it. Natives may let it down, and nothing else has to
do with it, so that code behind a call that ends the session runs as if there had been no such
call. -/

namespace SessionShell

namespace ShellState

theorem kept_lowered : Kept fun s t => t = s.lowered where
  lowered_eq := by rintro s _ rfl; rfl
  changed := by rintro f s _ - rfl; rfl
  framed := by
    rintro f s _ - blind rfl
    exact (blind s).symm

theorem lowered_of_down {s : ShellState} (down : s.host.running = false) : s.lowered = s := by
  unfold lowered
  rw [← down]

end ShellState

namespace Shell

theorem evaluate_lowered (start : Launcher) (code : String) (s : ShellState) :
    evaluate start code s.lowered =
      ((evaluate start code s).1, (evaluate start code s).2.lowered) := by
  have related : s.lowered.renamed Names.resetFrame = (s.renamed Names.resetFrame).lowered := rfl
  obtain ⟨same, lowered⟩ := evaluate_respects ShellState.kept_lowered start code related
  exact Prod.ext same.symm lowered

end Shell

theorem shellInterpreter_lowers (start : Launcher) : (shellInterpreter start).Lowers := by
  intro code names context host up
  cases flag : host.running with
  | true => rfl
  | false =>
    have down := Shell.evaluate_lowered start code (context.enter names host)
    rw [ShellState.lowered_of_down flag] at down
    have ends : ((shellInterpreter start).evaluate code names context host).host =
        (Shell.evaluate start code (context.enter names host)).2.host := by
      unfold shellInterpreter
      dsimp only
      split <;> rename_i ran <;> rw [ran] <;> rfl
    rw [ends, down] at up
    cases up

end SessionShell
