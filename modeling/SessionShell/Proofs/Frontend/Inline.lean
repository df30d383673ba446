import SessionShell.Proofs.Frontend.Course
import SessionShell.Proofs.Frontend.InStep
import SessionShell.Proofs.Prompt.Loop
import SessionShell.Proofs.Session.LastSeen

/-! Lines at the prompt and code from the command line. A line that is a statement of its own is
translated and executed as it is on the command line. So as long as no fragment ends the prompt, its
lines run as the same texts do there, and only what is asked for comes between. -/

namespace SessionShell

variable {α κ : Type}

instance (e : Evaluation) : Decidable e.Clears :=
  inferInstanceAs (Decidable (e.before = true ∧ e.after = false))

namespace Frontend

section Definitions

variable (c : Setup α κ)

def asked (line : String) (f : Frontend α κ) : Frontend α κ :=
  f.see [.prompted c.prompts.first (some line)]

def answered (f : Frontend α κ) (line : String) : Frontend α κ :=
  (f.asked c line).runInline c line

def inlineEvaluations (f : Frontend α κ) (text : String) : List Evaluation :=
  match f.translate c text .single with
  | (.ok code, f) => f.evaluations c code
  | (.error _, _) => []

def answeredEvaluations (f : Frontend α κ) (line : String) : List Evaluation :=
  (f.asked c line).inlineEvaluations c line

def isWhole (f : Frontend α κ) (text : String) : Bool :=
  match (c.translator.translate text .single f.host.machine).1 with
  | .error e => !e.isIncomplete
  | .ok _ => true

/-- No text is incomplete when its turn comes. -/
def AllWhole : List String → Frontend α κ → Prop
  | [], _ => True
  | text :: rest, f => f.isWhole c text ∧ AllWhole rest (f.runInline c text)

instance AllWhole.decidable : ∀ texts (f : Frontend α κ), Decidable (AllWhole c texts f)
  | [], _ => inferInstanceAs (Decidable True)
  | text :: rest, f =>
    have := AllWhole.decidable rest (f.runInline c text)
    inferInstanceAs (Decidable (f.isWhole c text = true ∧ AllWhole c rest (f.runInline c text)))

end Definitions

section Lines

variable {c : Setup α κ} {f g u : Frontend α κ} {ending : ReadFailure}

theorem allWhole_append {front back : List String} (whole : AllWhole c (front ++ back) u) :
    AllWhole c back (front.foldl (runInline c) u) := by
  induction front generalizing u with
  | nil => exact whole
  | cons text rest ih => exact ih whole.2

theorem Alike.isWhole_eq (alike : Alike f u) (text : String) :
    f.isWhole c text = u.isWhole c text := by
  unfold isWhole
  rw [alike.machine]

theorem Alike.asked (alike : Alike f u) (line : String) : Alike (f.asked c line) u :=
  ⟨alike.session, alike.machine⟩

theorem handle_line {line : String} {rest : List String} (whole : f.isWhole c line) :
    f.handle c (.lines (line :: rest) ending) =
      match (f.asked c line).translate c line .single with
      | (.ok code, g) => (.ok (some code), .lines rest ending, g)
      | (.error e, g) => (.ok none, .lines rest ending, g.report (.error e.message)) := by
  unfold handle
  rw [Desk.handle_cons, Desk.complete]
  unfold isWhole at whole
  cases offered : c.translator.translate line .single f.host.machine with
  | mk result machine =>
    rw [offered] at whole
    cases result with
    | ok code => simp [Desk.translate, Desk.see, Frontend.translate, asked, see, offered]
    | error e =>
      have final : e.isIncomplete = false := by simpa using whole
      simp [Desk.translate, Desk.see, Frontend.translate, asked, see, report, offered, final,
        Event.error]

theorem running_of_unclear {code : String} (up : f.host.running = true)
    (unclear : ∀ e ∈ f.evaluations c code, ¬ e.Clears) :
    (f.execute c code).host.running = true := by
  rcases f.evaluations_cases with ⟨alone, -⟩ | ⟨header, opened, -, -, both⟩
  · rw [alone] at unclear
    have last := unclear _ (List.mem_singleton_self _)
    simpa [Evaluation.Clears, up] using last
  · rw [both] at unclear
    obtain ⟨first, last, -⟩ := List.forall_mem_cons.mp unclear |>.imp id List.forall_mem_cons.mp
    have raised : opened = true := by simpa [Evaluation.Clears, up] using first
    simpa [Evaluation.Clears, raised] using last

/-- A statement at the prompt is one line. It is refused, and nothing is evaluated, or its code is
what there is to execute. -/
theorem handle_whole {r : Reader} {lines : List String} {answer : Option String}
    (here : f.handle c (.lines lines ending) = (.ok answer, r, g)) (alike : Alike f u)
    (whole : AllWhole c lines u) :
    ∃ line rest, lines = line :: rest ∧ r = .lines rest ending ∧
      match answer with
      | none => f.answered c line = g ∧ f.answeredEvaluations c line = []
      | some code =>
        f.answered c line = g.execute c code ∧
          f.answeredEvaluations c line = g.evaluations c code := by
  obtain ⟨line, further, left, rfl, -⟩ := handle_ok here
  have single : f.isWhole c line := (alike.isWhole_eq line).trans whole.1
  rw [handle_line single] at here
  refine ⟨line, _, rfl, ?_⟩
  unfold answered answeredEvaluations runInline inlineEvaluations
  generalize (f.asked c line).translate c line .single = offered at here ⊢
  obtain ⟨e | code, m⟩ := offered
  · cases here
    exact ⟨rfl, rfl, rfl⟩
  · cases here
    exact ⟨rfl, rfl, rfl⟩

theorem rounds_answered (blind : c.interpreter.Blind) {r last : Reader} {lines : List String}
    {answers : List (Option String)} {made : List Evaluation}
    (rounds : Rounds c r f answers made last g) (reads : r = .lines lines ending)
    (alike : Alike f u) (whole : AllWhole c lines u) (up : f.host.running = true)
    (unclear : ∀ e ∈ made, ¬ e.Clears) :
    ∃ front back, lines = front ++ back ∧ last = .lines back ending ∧
      g = front.foldl (answered c) f ∧
      made = gathered (answered c) (answeredEvaluations c) front f ∧ g.host.running = true := by
  induction rounds generalizing lines u with
  | done r f => exact ⟨[], lines, rfl, reads, rfl, rfl, up⟩
  | @refused r r' last f m ends answers made _ here later ih =>
    subst reads
    obtain ⟨line, rest, rfl, reads, runs, evaluates⟩ := handle_whole here alike whole
    obtain ⟨-, kept⟩ := handle_frame here
    have next : Alike m (u.runInline c line) :=
      runs ▸ (Alike.runInline (alike.asked line) blind line).toAlike
    obtain ⟨front, back, rfl, left, reached, gave, still⟩ :=
      ih reads next whole.2 (kept.trans up) unclear
    refine ⟨line :: front, back, rfl, left, ?_, ?_, still⟩
    · rw [List.foldl_cons, runs, reached]
    · rw [gathered, evaluates, runs, gave, List.nil_append]
  | @executed r r' last f m ends code answers made _ here later ih =>
    subst reads
    obtain ⟨line, rest, rfl, reads, runs, evaluates⟩ := handle_whole here alike whole
    obtain ⟨-, kept⟩ := handle_frame here
    obtain ⟨first, others⟩ := List.forall_mem_append.mp unclear
    have next : Alike (m.execute c code) (u.runInline c line) :=
      runs ▸ (Alike.runInline (alike.asked line) blind line).toAlike
    obtain ⟨front, back, rfl, left, reached, gave, still⟩ :=
      ih reads next whole.2 (running_of_unclear (kept.trans up) first) others
    refine ⟨line :: front, back, rfl, left, ?_, ?_, still⟩
    · rw [List.foldl_cons, runs, reached]
    · rw [gathered, evaluates, runs, gave]

theorem codes_evaluations (c : Setup α κ) (code : String) (f : Frontend α κ) :
    (f.evaluations c code).map Evaluation.code =
      (match f.session with
        | none => (c.translator.header f.host.machine).1.toOption.toList
        | some _ => []) ++ [code] := by
  unfold evaluations
  cases f.session with
  | some s => rfl
  | none => cases (c.translator.header f.host.machine).1 <;> rfl

theorem Alike.inlineEvaluations (alike : Alike f u) (text : String) :
    (f.inlineEvaluations c text).map Evaluation.code =
      (u.inlineEvaluations c text).map Evaluation.code := by
  obtain ⟨answer, g, v, left, right, offered⟩ := alike.translate c text .single
  unfold Frontend.inlineEvaluations
  rw [left, right]
  cases answer with
  | error e => rfl
  | ok code =>
    dsimp only
    rw [codes_evaluations, codes_evaluations, offered.session, offered.machine]

theorem runInline_tracing (text : String) (trace : List Evaluation)
    (unstarted : f.session = none → trace = []) :
    (f.traced trace).runInline c.tracing text =
      (f.runInline c text).traced (trace ++ f.inlineEvaluations c text) := by
  have offered : (f.traced trace).translate c.tracing text .single =
      ((f.translate c text .single).1, (f.translate c text .single).2.traced trace) := rfl
  have session : (f.translate c text .single).2.session = f.session := rfl
  unfold runInline inlineEvaluations
  rw [offered]
  generalize f.translate c text .single = translated at session ⊢
  obtain ⟨e | code, g⟩ := translated
  · rw [List.append_nil]
    rfl
  · exact execute_tracing c code trace g fun none => unstarted (session ▸ none)

theorem inlineEvaluations_eq_nil {text : String} (unstarted : (f.runInline c text).session = none) :
    f.session = none ∧ f.inlineEvaluations c text = [] := by
  have session : (f.translate c text .single).2.session = f.session := rfl
  unfold runInline at unstarted
  unfold inlineEvaluations
  generalize f.translate c text .single = translated at session unstarted ⊢
  obtain ⟨e | code, g⟩ := translated
  · exact ⟨session ▸ unstarted, rfl⟩
  · exact absurd unstarted (session_execute c code g)

theorem trace_foldl_runInline (texts : List String) (trace : List Evaluation)
    (unstarted : f.session = none → trace = []) :
    (texts.foldl (runInline c.tracing) (f.traced trace)).trace =
      trace ++ gathered (runInline c) (inlineEvaluations c) texts f := by
  induction texts generalizing f trace with
  | nil =>
    rw [gathered, List.append_nil]
    cases session : f.session with
    | none => simp [Frontend.trace, traced, session, unstarted session]
    | some s => simp [Frontend.trace, traced, session, Session.traced]
  | cons text rest ih =>
    have later : (f.runInline c text).session = none →
        trace ++ f.inlineEvaluations c text = [] := by
      intro none
      obtain ⟨before, nothing⟩ := inlineEvaluations_eq_nil none
      rw [unstarted before, nothing]
      rfl
    rw [List.foldl_cons, runInline_tracing text trace unstarted, ih _ later, gathered,
      List.append_assoc]

theorem foldl_answered (blind : c.interpreter.Blind) (lines : List String) (alike : Alike f u) :
    Alike (lines.foldl (answered c) f) (lines.foldl (runInline c) u) ∧
      (gathered (answered c) (answeredEvaluations c) lines f).map Evaluation.code =
        (gathered (runInline c) (inlineEvaluations c) lines u).map Evaluation.code ∧
      ∃ chunks : List (List Event), chunks.length = lines.length ∧
        (lines.foldl (runInline c) u).seen = u.seen ++ chunks.flatten ∧
        (lines.foldl (answered c) f).seen = f.seen ++
          (List.zipWith (fun line chunk => .prompted c.prompts.first (some line) :: chunk)
            lines chunks).flatten := by
  induction lines generalizing f u with
  | nil => exact ⟨alike, rfl, [], rfl, by simp, by simp⟩
  | cons line rest ih =>
    have step := Alike.runInline (alike.asked (c := c) line) blind line
    obtain ⟨chunk, left, right⟩ := step.seen
    obtain ⟨ends, codes, chunks, length, seen, prompted⟩ := ih step.toAlike
    refine ⟨ends, ?_, chunk :: chunks, by simp [length], ?_, ?_⟩
    · have here := Alike.inlineEvaluations (c := c) (alike.asked (c := c) line) line
      simp only [gathered, List.map_append]
      rw [← codes, ← here]
      rfl
    · rw [List.foldl_cons, seen, right]
      simp
    · have first : (f.answered c line).seen =
          f.seen ++ .prompted c.prompts.first (some line) :: chunk := by
        rw [answered, left]
        simp [asked, see]
      rw [List.foldl_cons]
      refine prompted.trans ?_
      rw [← answered, first]
      simp

end Lines

section Prompt

variable {c : Setup α κ} {lines : List String} (ending : ReadFailure) {f : Frontend α κ}

/-- Lines that nothing ends the prompt in front of are all answered, and then the reader fails. -/
theorem prompt_eq (blind : c.interpreter.Blind) (whole : AllWhole c lines f)
    (unclear : ∀ e ∈ ((f.traced []).prompt c.tracing (.lines lines ending)).2.2.trace, ¬ e.Clears) :
    f.prompt c (.lines lines ending) =
        (.error ending, .lines [] ending,
          (lines.foldl (answered c) f.greeted).see [.prompted c.prompts.first none]) ∧
      ((f.traced []).prompt c.tracing (.lines lines ending)).2.2.trace =
        gathered (answered c) (answeredEvaluations c) lines f.greeted := by
  have alike : Alike f.greeted f := ⟨rfl, rfl⟩
  obtain ⟨answers, made, left, g, rounds, -, ends, -, trace⟩ := prompt_made c lines ending f
  rw [trace] at unclear ⊢
  obtain ⟨front, back, rfl, last, reached, gave, up⟩ :=
    rounds_answered blind rounds rfl alike whole rfl unclear
  obtain ⟨rfl, -⟩ := Reader.lines.inj last
  have next : Alike g (front.foldl (runInline c) f) := by
    rw [reached]
    exact (foldl_answered blind front alike).1
  have further := allWhole_append whole
  generalize f.prompt c (.lines (front ++ left) ending) = ended at ends ⊢
  cases ends with
  | stopped down =>
    rw [up] at down
    cases down
  | @starved g' _ here _ =>
    cases left with
    | cons line rest =>
      -- the line would be answered
      have single : g.isWhole c line := (next.isWhole_eq line).trans further.1
      rw [handle_line single] at here
      generalize (g.asked c line).translate c line .single = offered at here
      obtain ⟨e | code, m⟩ := offered <;> cases here
    | nil =>
      have asks : g.handle c (.lines [] ending) =
          (.error ending, .lines [] ending, g.see [.prompted c.prompts.first none]) := by
        unfold handle
        rw [Desk.handle_nil]
        rfl
      rw [asks] at here
      cases here
      rw [List.append_nil, ← reached]
      exact ⟨rfl, gave⟩

end Prompt

/-- Lines at the prompt go as the same texts do on the command line. The prompt fails as its reader
does, and what it shows besides is a greeting and the lines that it asks for. -/
structure GoesAsInline (c : Setup α κ) (inline : Arguments) (lines : List String)
    (ending : ReadFailure) (f : Frontend α κ) : Prop where
  failed : (f.prompt c (.lines lines ending)).1 = .error ending
  consumed : (f.prompt c (.lines lines ending)).2.1 = .lines [] ending
  session : (f.prompt c (.lines lines ending)).2.2.session = (f.work c inline).session
  machine : (f.prompt c (.lines lines ending)).2.2.host.machine = (f.work c inline).host.machine
  codes : ((f.traced []).prompt c.tracing (.lines lines ending)).2.2.trace.map Evaluation.code =
    ((f.traced []).work c.tracing inline).trace.map Evaluation.code
  seen : ∃ chunks : List (List Event), chunks.length = lines.length ∧
    (f.work c inline).seen = f.seen ++ chunks.flatten ∧
    (f.prompt c (.lines lines ending)).2.2.seen = f.seen ++ .info "Interpreter:" ::
      ((List.zipWith (fun line chunk => .prompted c.prompts.first (some line) :: chunk)
        lines chunks).flatten ++ [.prompted c.prompts.first none])

/-- The shell does not look at the flag of the prompt. Where a context does not, and no fragment lets
the flag down, lines that are statements of their own run at the prompt as the same texts do on the
command line: the same fragments are evaluated, in the same order, and leave the same session on the
same machine, and for each line the same can be seen. -/
theorem prompt_agrees_with_inline :
    (∀ start, (shellInterpreter start).Blind) ∧
    ∀ {α κ : Type} (c : Setup α κ), c.interpreter.Blind →
      ∀ (a : Arguments) (lines : List String) (ending : ReadFailure) (f : Frontend α κ),
        AllWhole c lines f →
        (∀ e ∈ ((f.traced []).prompt c.tracing (.lines lines ending)).2.2.trace, ¬ e.Clears) →
        GoesAsInline c { a with code := lines, paths := [], version := false } lines ending f := by
  refine ⟨shellInterpreter_blind, ?_⟩
  intro α κ c blind a lines ending f whole unclear
  have alike : Alike f.greeted f := ⟨rfl, rfl⟩
  obtain ⟨ended, trace⟩ := prompt_eq ending blind whole unclear
  let inline : Arguments := { a with code := lines, paths := [], version := false }
  have inlined : ((f.traced []).work c.tracing inline).trace =
      gathered (runInline c) (inlineEvaluations c) lines f :=
    trace_foldl_runInline lines [] fun _ => rfl
  obtain ⟨same, codes, chunks, length, seen, asked⟩ := foldl_answered blind lines alike
  constructor
  case failed => rw [ended]
  case consumed => rw [ended]
  case session =>
    rw [ended]
    exact same.session
  case machine =>
    rw [ended]
    exact same.machine
  case codes =>
    rw [trace, inlined]
    exact codes
  case seen =>
    refine ⟨chunks, length, seen, ?_⟩
    have greeting : f.greeted.seen = f.seen ++ [.info "Interpreter:"] := rfl
    rw [ended, see, asked, greeting]
    simp

/-- One line is refused, one fails, and the last one sees what the first has bound. -/
theorem prompt_agrees_with_inline_failures :
    let c : Setup Value ShellContext :=
      { translator := Checked.translator false, interpreter := shellInterpreter Session.noProgram
        exit := .native .exit, names := .ofGlobals ∅, context := {}, debug := true }
    let f : Frontend Value ShellContext := { host := .idle }
    let lines := ["x=1; local y=2", "|", "echo $x; nowhere", "echo \"$x $y\"; unset exit"]
    let prompted := f.prompt c (.lines lines .endOfFile)
    let worked := f.work c { code := lines }
    c.interpreter.Blind ∧ AllWhole c lines f ∧
      (∀ e ∈ ((f.traced []).prompt c.tracing (.lines lines .endOfFile)).2.2.trace, ¬ e.Clears) ∧
      prompted.1 = .error .endOfFile ∧ prompted.2.2.session = worked.session ∧
      ((f.traced []).prompt c.tracing (.lines lines .endOfFile)).2.2.trace.map Evaluation.code =
        ((f.traced []).work c.tracing { code := lines }).trace.map Evaluation.code ∧
      (worked.seen.filterMap fun
        | .shell bytes => some (Text.Utf8.decodeLossy bytes)
        | .report (.error message) => some message
        | _ => none) =
        ["invalid input: empty command", "1\n", "command not found: nowhere", "1 2\n"] := by
  intro c f lines prompted worked
  have blind : c.interpreter.Blind := shellInterpreter_blind Session.noProgram
  have whole : AllWhole c lines f := by decide +kernel
  have unclear : ∀ e ∈ ((f.traced []).prompt c.tracing (.lines lines .endOfFile)).2.2.trace,
      ¬ e.Clears := by
    decide +kernel
  have goes := prompt_agrees_with_inline.2 c blind {} lines .endOfFile f whole unclear
  exact ⟨blind, whole, unclear, goes.failed, goes.session, goes.codes, by decide +kernel⟩

/-- A context that shows its fragments whether the prompt goes on: where it does, they find a name. -/
def watching : Interpreter Unit Unit where
  evaluate _ names context host :=
    { failure := none, output := [], complaints := [], context, host
      names :=
        if host.running then { names with globals := names.globals.insert "seen" () } else names }

/-- The prompt can be told from the command line in two ways. A context may look at the flag, which
only the prompt raises. And the lines may stand in the input that fragments read: `cat` takes what the
editor left of it, but on the command line all of it. -/
theorem prompt_differs_from_inline :
    (let c : Setup Unit Unit :=
      { translator := Checked.translator false, interpreter := watching
        exit := (), names := ⟨∅, ∅⟩, context := () }
    let f : Frontend Unit Unit := { host := { Host.idle with running := false } }
    let prompted := f.prompt c (.lines ["x"] .endOfFile)
    let worked := f.work c { code := ["x"] }
    AllWhole c ["x"] f ∧
      (∀ e ∈ ((f.traced []).prompt c.tracing (.lines ["x"] .endOfFile)).2.2.trace, ¬ e.Clears) ∧
      prompted.1 = .error .endOfFile ∧
      prompted.2.2.session.map (·.store.toList.map Prod.fst) = some ["exit", "seen"] ∧
      worked.session.map (·.store.toList.map Prod.fst) = some ["exit"]) ∧
    (let c : Setup Value ShellContext :=
      { translator := Checked.translator false, interpreter := shellInterpreter Session.noProgram
        exit := .native .exit, names := .ofGlobals ∅, context := {} }
    let input := Text.Utf8.encode "cat\nhello\n"
    let f : Frontend Value ShellContext :=
      { host := { Host.idle with machine.input := ⟨[], input⟩, running := false } }
    let prompted := f.prompt c .editor
    let worked := f.work c { code := ["cat"] }
    AllWhole c ["cat"] f ∧
      (∀ e ∈ ((f.traced []).prompt c.tracing .editor).2.2.trace, ¬ e.Clears) ∧
      prompted.1 = .error .endOfFile ∧
      prompted.2.2.seen = [.info "Interpreter:", .translating .single "cat", .started, .header,
        .shell (Text.Utf8.encode "hello\n")] ∧
      worked.seen = [.translating .single "cat", .started, .header, .shell input]) := by
  decide +kernel

end Frontend

end SessionShell
