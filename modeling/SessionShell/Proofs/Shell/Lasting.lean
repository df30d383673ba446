import SessionShell.Proofs.Shell.Evaluation

/-! What evaluation does to the names. A property of the names that outlasts the four changes which
shell code makes to them outlasts every fragment, whether it fails or not, however deep its
substitutions lie. -/

namespace SessionShell

/-- A property of names that outlasts whatever shell code does to them. -/
structure Names.Lasting (I : Names Value → Prop) : Prop where
  setStatus : ∀ code names, I names → I (names.setStatus code)
  setGlobal : ∀ name text names, isName name → I names → I (names.setGlobal name (.text text))
  setLocal : ∀ name text names, isName name → I names → I (names.setLocal name (.text text))
  unset : ∀ name names, I names → I (names.unset name)

variable {I : Names Value → Prop} (lasting : Names.Lasting I)
include lasting

theorem Names.Lasting.kept : ShellState.Kept fun s t => s = t ∧ I s.names where
  lowered_eq related := congrArg _ related.1
  changed := by
    rintro f s _ change ⟨rfl, h⟩
    refine ⟨rfl, ?_⟩
    cases change with
    | setStatus code => exact lasting.setStatus code _ h
    | setGlobal text proper => exact lasting.setGlobal _ text _ proper h
    | setLocal text proper => exact lasting.setLocal _ text _ proper h
    | unset name => exact lasting.unset name _ h
  framed := by
    rintro f s _ names - ⟨rfl, h⟩
    exact ⟨rfl, (names s).symm ▸ h⟩

theorem Shell.evaluate_names (start : Launcher) (code : String) (s : ShellState)
    (h : I s.names.resetFrame) : I (evaluate start code s).2.names :=
  (evaluate_respects lasting.kept start code ⟨rfl, h⟩).2.2

end SessionShell
