import SessionShell.Proofs.Shell.Pipelines

/-! What reaches the output stream of the shell. However a fragment ends, its stream is the one that
it began with, and behind what was there stands what the last stages of its statements wrote. What is
captured, or written in front of a pipe, gets there only if one of them writes it. -/

namespace SessionShell.Shell

section Running

variable (perform : Call → Shell Int32) (capture : String → Shell String)

/-- What may become of statements: each passes its stages, up to the first one that fails, and leaves
its status. -/
inductive Proceeds : Program → ShellState → List Leg → ShellState → Prop
  | done (s : ShellState) : Proceeds [] s [] s
  | stops {statement : Statement} {rest : Program} {s t : ShellState} {legs : List Leg} {e : Failure}
      (passage : Passage perform capture (statement.stages.length = 1) statement.stages s legs t)
      (failed : Leg.lastOutcome (.ok 0) legs = .error e) : Proceeds (statement :: rest) s legs t
  | goes {statement : Statement} {rest : Program} {s t u : ShellState} {legs more : List Leg}
      {status : Int32}
      (passage : Passage perform capture (statement.stages.length = 1) statement.stages s legs t)
      (succeeded : Leg.lastOutcome (.ok 0) legs = .ok status)
      (later : Proceeds rest (t.renamed (·.setStatus status)) more u) :
      Proceeds (statement :: rest) s (legs ++ more) u

variable {perform}

theorem proceeds_runProgram (performed : ∀ c, Appends (perform c)) (program : Program)
    (s : ShellState) :
    ∃ legs, Proceeds perform capture program s legs (runProgram perform capture program s).2 := by
  induction program generalizing s with
  | nil => exact ⟨[], .done s⟩
  | cons statement rest ih =>
    obtain ⟨legs, passage, last, -⟩ := passage_runStages capture performed
      (statement.stages.length = 1) statement.stages none 0 s
    rw [runProgram, bind_apply, runStatement]
    cases ran : runStages perform capture (statement.stages.length = 1) statement.stages none 0 s with
    | mk result t =>
      rw [ran] at passage last
      cases result with
      | error e => exact ⟨legs, .stops passage last.symm⟩
      | ok status =>
        obtain ⟨more, proceeds⟩ := ih (t.renamed (·.setStatus status))
        exact ⟨legs ++ more, .goes passage last.symm proceeds⟩

variable {capture}

theorem out_proceeds (captured : ∀ code, Sealed (capture code)) {program : Program}
    {s t : ShellState} {legs : List Leg} (proceeds : Proceeds perform capture program s legs t) :
    t.out = s.out.extended (legs.flatMap Leg.shown) := by
  induction proceeds with
  | done s => exact s.out.extended_nil.symm
  | stops passage failed => exact out_passage captured passage
  | @goes _ _ _ t _ _ _ status passage succeeded later ih =>
    have renamed : (t.renamed (·.setStatus status)).out = t.out := rfl
    rw [ih, renamed, out_passage captured passage, Sink.extended_extended, List.flatMap_append]

theorem captureWithin_eq_ok (performed : ∀ c, Appends (perform c)) {depth : Nat} {code text : String}
    {s t : ShellState} (ran : captureWithin perform (depth + 1) code s = (.ok text, t)) :
    ∃ program legs u, parse code = .ok program ∧
      Proceeds perform (captureWithin perform depth) program { s with out := .memory } legs u ∧
      text = Text.Utf8.decodeLossy (legs.flatMap Leg.shown) := by
  unfold captureWithin at ran
  cases parsed : parse code with
  | error e =>
    rw [parsed] at ran
    cases ran
  | ok program =>
    rw [parsed] at ran
    obtain ⟨legs, proceeds⟩ := proceeds_runProgram (captureWithin perform depth) performed program
      { s with out := .memory }
    have grew := out_proceeds (sealed_captureWithin perform depth) proceeds
    refine ⟨program, legs, _, rfl, proceeds, ?_⟩
    dsimp only at ran
    rw [bind_apply, collecting_eq] at ran
    cases result : runProgram perform (captureWithin perform depth) program
        { s with out := .memory } with
    | mk outcome u =>
      rw [result] at ran grew
      cases outcome with
      | error e => cases ran
      | ok done =>
        cases ran
        rw [grew]
        rfl

end Running

/-- What may become of a fragment: it is no program, or its statements run in a new frame. -/
inductive Evaluates (start : Launcher) (code : String) (s : ShellState) :
    List Leg → ShellState → Prop
  | rejected {e : SyntaxError} (malformed : parse code = .error e) :
      Evaluates start code s [] (s.renamed Names.resetFrame)
  | run {program : Program} {legs : List Leg} {t : ShellState} (parsed : parse code = .ok program)
      (proceeds : Proceeds (invoke start) (captureWithin (invoke start) (depthBound code)) program
        (s.renamed Names.resetFrame) legs t) : Evaluates start code s legs t

/-- What may become of fragments. Each begins where the one before it ends, also if that failed. -/
inductive Continues (start : Launcher) : List String → ShellState → List Leg → ShellState → Prop
  | done (s : ShellState) : Continues start [] s [] s
  | next {code : String} {codes : List String} {s t u : ShellState} {legs more : List Leg}
      (evaluates : Evaluates start code s legs t) (later : Continues start codes t more u) :
      Continues start (code :: codes) s (legs ++ more) u

section Fragments

variable {start : Launcher}

theorem evaluates_evaluate (start : Launcher) (code : String) (s : ShellState) :
    ∃ legs, Evaluates start code s legs (evaluate start code s).2 := by
  have reset : changeNames Names.resetFrame s = (.ok (), s.renamed Names.resetFrame) := rfl
  cases parsed : parse code with
  | error e =>
    refine ⟨[], ?_⟩
    simp only [evaluate, evaluateWith, bind_apply, reset, parsed]
    exact .rejected parsed
  | ok program =>
    obtain ⟨legs, proceeds⟩ := proceeds_runProgram
      (captureWithin (invoke start) (depthBound code)) (appends_invoke start) program
      (s.renamed Names.resetFrame)
    refine ⟨legs, .run parsed ?_⟩
    simpa only [evaluate, evaluateWith, bind_apply, reset, parsed] using proceeds

theorem out_evaluates {code : String} {s t : ShellState} {legs : List Leg}
    (evaluates : Evaluates start code s legs t) : t.out = s.out.extended (legs.flatMap Leg.shown) := by
  cases evaluates with
  | rejected malformed => exact s.out.extended_nil.symm
  | run parsed proceeds =>
    have grew := out_proceeds (sealed_captureWithin (invoke start) _) proceeds
    exact grew

theorem out_continues {codes : List String} {s t : ShellState} {legs : List Leg}
    (continues : Continues start codes s legs t) :
    t.out = s.out.extended (legs.flatMap Leg.shown) := by
  induction continues with
  | done s => exact s.out.extended_nil.symm
  | next evaluates later ih =>
    rw [ih, out_evaluates evaluates, Sink.extended_extended, List.flatMap_append]

theorem continues_foldl (start : Launcher) (codes : List String) (s : ShellState) :
    ∃ legs, Continues start codes s legs
      (codes.foldl (fun s code => (evaluate start code s).2) s) := by
  induction codes generalizing s with
  | nil => exact ⟨[], .done s⟩
  | cons code codes ih =>
    obtain ⟨legs, evaluates⟩ := evaluates_evaluate start code s
    obtain ⟨more, later⟩ := ih (evaluate start code s).2
    exact ⟨legs ++ more, .next evaluates later⟩

end Fragments

theorem temper_evaluate (start : Launcher) (code : String) (names : Names Value) (c : ShellContext)
    (host : Host) : ((shellInterpreter start).evaluate code names c host).context.temper = c.temper := by
  obtain ⟨legs, evaluates⟩ := evaluates_evaluate start code (c.enter names host)
  have grew := out_evaluates evaluates
  have temper : (evaluate start code (c.enter names host)).2.out.temper = c.temper := by rw [grew]; rfl
  simp only [shellInterpreter]
  cases ran : evaluate start code (c.enter names host) with
  | mk result t =>
    rw [ran] at temper
    cases result <;> exact temper

/-- Behind a fragment, and behind any number of them, the stream is the one from before with what the
last stages of the statements wrote behind it, whether they failed or not. A capture has nothing to
do with the stream, at any depth, and what the last stages in it wrote is its value. -/
theorem stream_survives (start : Launcher) :
    (∀ code s, ∃ legs, Evaluates start code s legs (evaluate start code s).2 ∧
      (evaluate start code s).2.out = s.out.extended (legs.flatMap Leg.shown)) ∧
    (∀ (codes : List String) (s : ShellState),
      let t := codes.foldl (fun s code => (evaluate start code s).2) s
      ∃ legs, Continues start codes s legs t ∧ t.out = s.out.extended (legs.flatMap Leg.shown)) ∧
    (∀ code names c host,
      ((shellInterpreter start).evaluate code names c host).context.temper = c.temper) ∧
    ∀ depth code, Sealed (captureWithin (invoke start) depth code) ∧
      ∀ s text t, captureWithin (invoke start) (depth + 1) code s = (.ok text, t) →
        ∃ program legs u, parse code = .ok program ∧
          Proceeds (invoke start) (captureWithin (invoke start) depth) program
            { s with out := .memory } legs u ∧
          text = Text.Utf8.decodeLossy (legs.flatMap Leg.shown) := by
  refine ⟨fun code s => ?_, fun codes s => ?_, temper_evaluate start,
    fun depth code => ⟨?_, fun s text t ran => ?_⟩⟩
  · obtain ⟨legs, evaluates⟩ := evaluates_evaluate start code s
    exact ⟨legs, evaluates, out_evaluates evaluates⟩
  · obtain ⟨legs, continues⟩ := continues_foldl start codes s
    exact ⟨legs, continues, out_continues continues⟩
  · exact sealed_captureWithin (invoke start) depth code
  · exact captureWithin_eq_ok (appends_invoke start) ran

/-- A refused flush ends the first fragment, and a command that is not found the second. -/
example :
    let s := ShellContext.enter { temper := .unflushable } (.ofGlobals ∅) .idle
    let first := evaluate Session.noProgram "echo $(echo a | cat)" s
    let second := evaluate Session.noProgram "echo $(echo lost; nowhere)" first.2
    let third := evaluate Session.noProgram "echo b" second.2
    first.1.isOk = false ∧ second.1.isOk = false ∧
      third.2.out = ⟨.unflushable, Text.Utf8.encode "a\nb\n"⟩ := by
  decide +kernel

end SessionShell.Shell
