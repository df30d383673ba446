import SessionShell.Proofs.Language.Assignments
import SessionShell.Proofs.Shell.Relations

/-! Evaluation keeps relations between states. Programs and substitutions are taken together from
steps that keep them, the names in front of assignments are proper, and code is nested to a depth on
which the induction is. -/

namespace SessionShell

namespace Shell

theorem names_expandAssignments {capture : String → Shell String} {as : List Assignment}
    {s t : ShellState} {assigned : List (String × String)}
    (ran : expandAssignments capture as s = (.ok assigned, t)) :
    assigned.map Prod.fst = as.map Assignment.name := by
  induction as generalizing s t assigned with
  | nil => cases ran; rfl
  | cons a rest ih =>
    have behind {value : String} {m : ShellState} (ran : (do
        return (a.name, value) :: (← expandAssignments capture rest)) m = (.ok assigned, t)) :
        assigned.map Prod.fst = (a :: rest).map Assignment.name := by
      obtain ⟨later, m, ranLater, done⟩ := bind_eq_ok ran
      cases done
      rw [List.map_cons, List.map_cons, ih ranLater]
    unfold expandAssignments at ran
    split at ran
    · obtain ⟨value, m, -, rest⟩ := bind_eq_ok ran
      exact behind rest
    · obtain ⟨value, m, -, rest⟩ := bind_eq_ok ran
      exact behind rest

section Kept

open ShellState (Kept)

variable {R : ShellState → ShellState → Prop} (kept : Kept R)
include kept

theorem respects_assignGlobals {assigned : List (String × String)}
    (proper : ∀ e ∈ assigned, isName e.1) : Respects R (assignGlobals assigned) := by
  refine .changing fun s t related => ?_
  exact kept.foldl (fun e member => .setGlobal e.2 (proper e member)) related

section Words

variable {capture : String → Shell String} (captured : ∀ code, Respects R (capture code))
include captured

theorem respects_expand (w : Word) : Respects R (expand capture w) := by
  have one (part : WordPart) : Respects R (expandPart capture part) := by
    cases part with
    | literal text => exact .pure _
    | parameter name => exact .inspect kept (fun _ => rfl) fun _ => .pure _
    | command code => exact (captured code).bind fun _ => .pure _
  induction w with
  | nil => exact .pure _
  | cons part rest ih => exact (one part).bind fun _ => ih.bind fun _ => .pure _

theorem respects_expandAll (ws : List Word) : Respects R (expandAll capture ws) := by
  induction ws with
  | nil => exact .pure _
  | cons w rest ih => exact (respects_expand kept captured w).bind fun _ => ih.bind fun _ => .pure _

theorem respects_expandAssignments (as : List Assignment) :
    Respects R (expandAssignments capture as) := by
  induction as with
  | nil => exact .pure _
  | cons a rest ih =>
    cases a with
    | mk name value =>
      cases value with
      | none => exact .bind (.pure _) fun _ => ih.bind fun _ => .pure _
      | some w => exact (respects_expand kept captured w).bind fun _ => ih.bind fun _ => .pure _

variable {perform : Call → Shell Int32} (performed : ∀ c, Respects R (perform c))
include performed

theorem respects_runStages (whole : Bool) {stages : List Command} (named : ∀ c ∈ stages, c.Named)
    (input : Option Bytes) (status : Int32) :
    Respects R (runStages perform capture whole stages input status) := by
  induction stages generalizing input status with
  | nil => exact .pure _
  | cons stage rest ih =>
    obtain ⟨here, later⟩ := List.forall_mem_cons.mp named
    unfold runStages
    refine (respects_expandAssignments kept captured _).bindValue fun s assigned t ran => ?_
    have proper : ∀ e ∈ assigned, isName e.1 := by
      intro e member
      have name : e.1 ∈ stage.assignments.map Assignment.name := by
        rw [← names_expandAssignments ran]
        exact List.mem_map_of_mem member
      obtain ⟨a, assignment, same⟩ := List.mem_map.mp name
      exact same ▸ here a assignment
    split
    · dsimp only
      split
      · exact (respects_assignGlobals kept proper).bind fun _ => ih later _ _
      · exact ih later _ _
    · refine (respects_expand kept captured _).bind fun name =>
        (respects_expandAll kept captured _).bind fun _ => ?_
      dsimp only
      split
      · exact .flushing kept (performed _)
      · exact (Respects.collecting kept (performed _)).bind fun _ => ih later _ _

theorem respects_runProgram {program : Program} (named : Program.Named program) :
    Respects R (runProgram perform capture program) := by
  induction program with
  | nil => exact .pure _
  | cons s rest ih =>
    obtain ⟨here, later⟩ := List.forall_mem_cons.mp named
    exact (respects_runStages kept captured performed _ here _ _).bind fun status =>
      .bind (.changing fun _ _ => kept.changed (.setStatus status)) fun _ => ih later

end Words

theorem respects_captureWithin {perform : Call → Shell Int32}
    (performed : ∀ c, Respects R (perform c)) (depth : Nat) (code : String) :
    Respects R (captureWithin perform depth code) := by
  -- what is captured inside the code is captured within a smaller bound
  induction depth generalizing code with
  | zero => exact .fail _
  | succ depth ih =>
    unfold captureWithin
    split
    · exact .throw _
    · rename_i program parsed
      have ran := respects_runProgram kept ih performed (named_parse parsed)
      exact (Respects.collecting kept ran).bind fun _ => .pure _

theorem evaluate_respects (start : Launcher) (code : String) {s t : ShellState}
    (related : R (s.renamed Names.resetFrame) (t.renamed Names.resetFrame)) :
    (evaluate start code s).1 = (evaluate start code t).1 ∧
      R (evaluate start code s).2 (evaluate start code t).2 := by
  have performed := respects_invoke kept start
  unfold evaluate evaluateWith
  rcases parsed : parse code with e | program
  · exact ⟨rfl, related⟩
  · exact respects_runProgram kept (respects_captureWithin kept performed _) performed
      (named_parse parsed) _ _ related

end Kept

end Shell

end SessionShell
