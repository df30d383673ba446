import SessionShell.Proofs.Shell.Arguments
import SessionShell.Proofs.Shell.Lasting

/-! The status of the last command. It is a local that code can look at like any other and try to
define or remove, but it changes only where a command has run. Behind a fragment it is the exit code
of the last statement, whatever ran inside of that. -/

namespace SessionShell

namespace Names

def Reports (code : Int32) (names : Names Value) : Prop :=
  names.locals[status]? = some (.text (Text.decimal code.toInt))

theorem reports_setStatus (code : Int32) (names : Names Value) :
    (names.setStatus code).Reports code := by
  simp [Reports, setStatus, setLocal]

/-- A local that code defines has another name, and the status is not removed with a global of its
name. -/
theorem lasting_reports : Lasting fun names => ∃ code, names.Reports code where
  setStatus code names _ := ⟨code, reports_setStatus code names⟩
  setGlobal _ _ _ _ reports := reports
  setLocal name text names proper := by
    rintro ⟨code, reports⟩
    have other : name ≠ status := Shell.ne_status_of_isName proper
    refine ⟨code, ?_⟩
    simpa [Reports, setLocal, Std.ExtTreeMap.getElem?_insert, other] using reports
  unset name names := by
    rintro ⟨code, reports⟩
    refine ⟨code, ?_⟩
    by_cases same : name = status
    · simpa [Reports, unset, same] using reports
    · simpa [Reports, unset, same, Std.ExtTreeMap.getElem?_erase] using reports

theorem text?_status {names : Names Value} {code : Int32} (reports : names.Reports code) :
    names.text? status = some (Text.decimal code.toInt) := by
  unfold Reports at reports
  simp [text?, lookup, reports, Value.text?]

end Names

namespace Shell

/-- The states that evaluation goes through, from a new frame on. What is around the frame may
change at any time. -/
inductive Attained (start : Launcher) : ShellState → Prop
  | begun (s : ShellState) : Attained start (s.renamed Names.resetFrame)
  | around {s t : ShellState} (earlier : Attained start s)
      (frame : t.names.locals = s.names.locals) : Attained start t
  | called {s : ShellState} (earlier : Attained start s) (c : Call) :
      Attained start (invoke start c s).2
  | captured {s : ShellState} (earlier : Attained start s) (depth : Nat) (code : String) :
      Attained start (captureWithin (invoke start) depth code s).2
  | ran {s : ShellState} (earlier : Attained start s) (depth : Nat) {code : String}
      {front back : Program} (parsed : parse code = .ok (front ++ back)) :
      Attained start (runProgram (invoke start) (captureWithin (invoke start) depth) front s).2
  | evaluated {s : ShellState} (earlier : Attained start s) (code : String) :
      Attained start (evaluate start code s).2

theorem reports_attained {start : Launcher} {s : ShellState} (attained : Attained start s) :
    ∃ code, s.names.Reports code := by
  have kept := Names.lasting_reports.kept
  have performed := respects_invoke kept start
  have captured (depth : Nat) := respects_captureWithin kept performed depth
  induction attained with
  | begun s => exact ⟨0, Names.reports_setStatus 0 _⟩
  | around earlier frame ih =>
    obtain ⟨code, reports⟩ := ih
    refine ⟨code, ?_⟩
    rwa [Names.Reports, frame]
  | called earlier c ih => exact (performed c _ _ ⟨rfl, ih⟩).2.2
  | captured earlier depth code ih => exact (captured depth code _ _ ⟨rfl, ih⟩).2.2
  | @ran s earlier depth code front back parsed ih =>
    have named : Program.Named front := fun statement member =>
      named_parse parsed statement (List.mem_append_left back member)
    exact (respects_runProgram kept (captured depth) performed named _ _ ⟨rfl, ih⟩).2.2
  | evaluated earlier code ih =>
    exact evaluate_names Names.lasting_reports start code _ ⟨0, Names.reports_setStatus 0 _⟩

theorem runProgram_concat {perform : Call → Shell Int32} {capture : String → Shell String}
    {front : Program} {last : Statement} {s t : ShellState}
    (ran : runProgram perform capture (front ++ [last]) s = (.ok (), t)) :
    ∃ m u status, runProgram perform capture front s = (.ok (), m) ∧
      runStatement perform capture last m = (.ok status, u) ∧
      t = u.renamed (·.setStatus status) := by
  rw [runProgram_append] at ran
  obtain ⟨_, m, before, ran⟩ := bind_eq_ok ran
  obtain ⟨status, u, last, ran⟩ := bind_eq_ok ran
  obtain ⟨_, v, set, ran⟩ := bind_eq_ok ran
  cases set
  cases ran
  exact ⟨m, u, status, before, last, rfl⟩

theorem evaluate_eq_ok {start : Launcher} {code : String} {s t : ShellState}
    (ran : evaluate start code s = (.ok (), t)) :
    ∃ program, parse code = .ok program ∧
      runProgram (invoke start) (captureWithin (invoke start) (depthBound code)) program
        (s.renamed Names.resetFrame) = (.ok (), t) := by
  obtain ⟨_, m, reset, ran⟩ := bind_eq_ok ran
  cases reset
  cases parsed : parse code with
  | error e =>
    rw [parsed] at ran
    cases ran
  | ok program =>
    rw [parsed] at ran
    exact ⟨program, rfl, ran⟩

/-- Wherever code looks at the status, the frame has it, and it is the text of an exit code. Behind
a fragment that succeeds it is the exit code of the last statement, which the others led up to; if
there is none, it is 0. -/
theorem status_right (start : Launcher) :
    (∀ s, Attained start s → ∃ code : Int32, s.names.Reports code ∧
      ∀ written ∈ ["$?", "$\x7b?\x7d"], ∃ w, tokenize written = .ok [.word w] ∧
        ∀ capture, expand capture w s = (.ok (Text.decimal code.toInt), s)) ∧
    ∀ code s t, evaluate start code s = (.ok (), t) →
      let capture := captureWithin (invoke start) (depthBound code)
      ∃ program status, parse code = .ok program ∧ t.names.Reports status ∧
        (program = [] → status = 0) ∧
        ∀ front last, program = front ++ [last] → ∃ m u,
          runProgram (invoke start) capture front (s.renamed Names.resetFrame) = (.ok (), m) ∧
          runStatement (invoke start) capture last m = (.ok status, u) ∧
          t = u.renamed (·.setStatus status) := by
  constructor
  · intro s attained
    obtain ⟨code, reports⟩ := reports_attained attained
    refine ⟨code, reports, fun written member => ⟨[.parameter Names.status], ?_, fun capture => ?_⟩⟩
    · simp only [List.mem_cons, List.not_mem_nil, or_false] at member
      rcases member with rfl | rfl <;> rfl
    · exact expand_parameter capture s (Names.text?_status reports)
  · intro code s t ran capture
    obtain ⟨program, parsed, ran⟩ := evaluate_eq_ok ran
    rcases List.eq_nil_or_concat program with rfl | ⟨front, last, rfl⟩
    · cases ran
      exact ⟨[], 0, parsed, Names.reports_setStatus 0 _, fun _ => rfl, by simp⟩
    · rw [List.concat_eq_append] at parsed ran
      obtain ⟨m, u, status, before, ended, rfl⟩ := runProgram_concat ran
      refine ⟨_, status, parsed, Names.reports_setStatus status _, by simp, ?_⟩
      intro front' last' same
      obtain ⟨rfl, ends⟩ := List.append_inj' same rfl
      cases ends
      exact ⟨m, u, before, ended, rfl⟩

end Shell

end SessionShell
