import SessionShell.Proofs.Language.Nesting
import SessionShell.Proofs.Shell.Relations
import SessionShell.Shell.Evaluate

/-! The bound on how deep substitutions lie inside each other. Code is captured in the same way within
any bound that is large enough for it, and the bound of a fragment is. So a fragment does what its
program does, whatever its length, and a part of it does what it does alone. -/

namespace SessionShell.Shell

section Congruence

variable {capture capture' : String → Shell String}

theorem expand_congr {w : Word} (same : ∀ code ∈ w.substitutions, capture code = capture' code) :
    expand capture w = expand capture' w := by
  induction w with
  | nil => rfl
  | cons part rest ih =>
    have later : expand capture rest = expand capture' rest := by
      apply ih
      intro code member
      apply same
      cases part with
      | command other => exact List.mem_cons_of_mem other member
      | literal | parameter => exact member
    have here : expandPart capture part = expandPart capture' part := by
      cases part with
      | command code => simp only [expandPart, same code List.mem_cons_self]
      | literal | parameter => rfl
    simp only [expand, here, later]

theorem expandAll_congr {ws : List Word}
    (same : ∀ w ∈ ws, ∀ code ∈ w.substitutions, capture code = capture' code) :
    expandAll capture ws = expandAll capture' ws := by
  induction ws with
  | nil => rfl
  | cons w rest ih =>
    obtain ⟨first, later⟩ := List.forall_mem_cons.mp same
    simp only [expandAll, expand_congr first, ih later]

theorem expandAssignments_congr {as : List Assignment}
    (same : ∀ w ∈ as.filterMap (·.value), ∀ code ∈ w.substitutions, capture code = capture' code) :
    expandAssignments capture as = expandAssignments capture' as := by
  induction as with
  | nil => rfl
  | cons a rest ih =>
    obtain ⟨name, value⟩ := a
    cases value with
    | none => simp only [expandAssignments, ih same]
    | some w =>
      obtain ⟨first, later⟩ := List.forall_mem_cons.mp same
      simp only [expandAssignments, expand_congr first, ih later]

theorem runStages_congr (perform : Call → Shell Int32) (whole : Bool) {stages : List Command}
    (same : ∀ c ∈ stages, ∀ w ∈ c.allWords, ∀ code ∈ w.substitutions,
      capture code = capture' code) (input : Option Bytes) (status : Int32) :
    runStages perform capture whole stages input status =
      runStages perform capture' whole stages input status := by
  induction stages generalizing input status with
  | nil => rfl
  | cons stage rest ih =>
    obtain ⟨here, later⟩ := List.forall_mem_cons.mp same
    obtain ⟨values, arguments⟩ := List.forall_mem_append.mp here
    have assigned := expandAssignments_congr values
    unfold runStages
    cases words : stage.words with
    | nil => simp only [assigned, ih later]
    | cons first more =>
      rw [words] at arguments
      obtain ⟨name, others⟩ := List.forall_mem_cons.mp arguments
      simp only [assigned, expand_congr name, expandAll_congr others, ih later]

theorem runProgram_congr (perform : Call → Shell Int32) {p : Program}
    (same : ∀ code ∈ p.substitutions, capture code = capture' code) :
    runProgram perform capture p = runProgram perform capture' p := by
  induction p with
  | nil => rfl
  | cons s rest ih =>
    obtain ⟨here, later⟩ := List.forall_mem_append.mp same
    have words : ∀ c ∈ s.stages, ∀ w ∈ c.allWords, ∀ code ∈ w.substitutions,
        capture code = capture' code := fun c stage w word code member =>
      here code (List.mem_flatMap.mpr ⟨c, stage, List.mem_flatMap.mpr ⟨w, word, member⟩⟩)
    simp only [runProgram, runStatement, runStages_congr perform _ words, ih later]

end Congruence

theorem depthBound_lt {text : String} {p : Program} (parsed : parse text = .ok p) {code : String}
    (member : code ∈ p.substitutions) : depthBound code < depthBound text := by
  have shorter := length_of_mem_substitutions parsed member
  unfold depthBound
  omega

theorem captureWithin_eq (perform : Call → Shell Int32) {code : String} {n m : Nat}
    (first : depthBound code < n) (second : depthBound code < m) :
    captureWithin perform n code = captureWithin perform m code := by
  induction n generalizing code m with
  | zero => cases first
  | succ n ih =>
    cases m with
    | zero => cases second
    | succ m =>
      unfold captureWithin
      cases parsed : parse code with
      | error e => rfl
      | ok p =>
        have inside : ∀ inner ∈ p.substitutions,
            captureWithin perform n inner = captureWithin perform m inner := by
          intro inner member
          have lower := depthBound_lt parsed member
          exact ih (by omega) (by omega)
        simp only [runProgram_congr perform inside]

theorem runProgram_bound (perform : Call → Shell Int32) {code : String} {p : Program}
    (parsed : parse code = .ok p) {n : Nat} (enough : depthBound code ≤ n) :
    runProgram perform (captureWithin perform n) p =
      runProgram perform (captureWithin perform (depthBound code)) p := by
  apply runProgram_congr
  intro inner member
  have lower := depthBound_lt parsed member
  exact captureWithin_eq perform (by omega) lower

theorem runProgram_append (perform : Call → Shell Int32) (capture : String → Shell String)
    (p q : Program) (s : ShellState) :
    runProgram perform capture (p ++ q) s =
      (runProgram perform capture p >>= fun _ => runProgram perform capture q) s := by
  induction p generalizing s with
  | nil => rfl
  | cons first rest ih =>
    simp only [List.cons_append, runProgram, bind_apply]
    cases runStatement perform capture first s with
    | mk result t =>
      cases result with
      | error e => rfl
      | ok status =>
        dsimp only
        cases changeNames (·.setStatus status) t with
        | mk result u =>
          cases result with
          | error e => rfl
          | ok done => exact (ih u).trans (bind_apply _ _ _)

theorem evaluate_congr (start : Launcher) {text text' : String} (same : parse text = parse text') :
    evaluate start text = evaluate start text' := by
  unfold evaluate evaluateWith
  cases parsed : parse text with
  | error e => rw [← same, parsed]
  | ok program =>
    have parsed' : parse text' = .ok program := same ▸ parsed
    have inside : ∀ code ∈ program.substitutions,
        captureWithin (invoke start) (depthBound text) code =
          captureWithin (invoke start) (depthBound text') code := fun code member =>
      captureWithin_eq _ (depthBound_lt parsed member) (depthBound_lt parsed' member)
    simp only [parsed', runProgram_congr (invoke start) inside]

theorem evaluate_behind {start : Launcher} {front back : String} {done program : Program}
    {s t : ShellState} (leads : Leads front done) (ran : evaluate start front s = (.ok (), t))
    (parsed : parse back = .ok program) :
    evaluate start (front ++ back) s =
      runProgram (invoke start) (captureWithin (invoke start) (depthBound back)) program t := by
  have reset : changeNames Names.resetFrame s = (.ok (), s.renamed Names.resetFrame) := rfl
  have first : parse front = .ok done := leads.parse_eq
  have whole : parse (front ++ back) = .ok (done ++ program) := by
    rw [leads.parse_append, parsed]
    rfl
  have size := String.length_append front back
  have frontBound : depthBound front ≤ depthBound (front ++ back) := by
    unfold depthBound
    omega
  have backBound : depthBound back ≤ depthBound (front ++ back) := by
    unfold depthBound
    omega
  simp only [evaluate, evaluateWith, bind_apply, reset, first] at ran
  simp only [evaluate, evaluateWith, bind_apply, reset, whole, runProgram_append,
    runProgram_bound _ first frontBound, runProgram_bound _ parsed backBound, ran]

end SessionShell.Shell
