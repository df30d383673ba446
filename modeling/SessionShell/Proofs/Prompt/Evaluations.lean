import SessionShell.Frontend

/-! The fragments that the front end evaluates. They are recorded by the interpreter, which is what
sees them, each with whether the prompt was to go on before it and behind it. -/

namespace SessionShell

structure Evaluation where
  code : String
  before : Bool
  after : Bool
  deriving DecidableEq, Repr

variable {α κ : Type}

def Interpreter.tracing (i : Interpreter α κ) : Interpreter α (κ × List Evaluation) :=
  { evaluate := fun code names context host =>
      let e := i.evaluate code names context.1 host
      { e with context := (e.context, context.2 ++ [⟨code, host.running, e.host.running⟩]) } }

def Setup.tracing (c : Setup α κ) : Setup α (κ × List Evaluation) :=
  { c with interpreter := c.interpreter.tracing, context := (c.context, []) }

def Session.traced (trace : List Evaluation) (s : Session α κ) :
    Session α (κ × List Evaluation) :=
  { s with context := (s.context, trace) }

namespace Frontend

def traced (trace : List Evaluation) (f : Frontend α κ) : Frontend α (κ × List Evaluation) :=
  { host := f.host, seen := f.seen, session := f.session.map (·.traced trace) }

def trace (f : Frontend α (κ × List Evaluation)) : List Evaluation :=
  match f.session with
  | none => []
  | some s => s.context.2

variable (c : Setup α κ)

/-- The evaluations that the execution of a code makes: that of the code, and in front of it that of
the header if the session is started by it. -/
def evaluations (code : String) (f : Frontend α κ) : List Evaluation :=
  let last (before : Bool) : Evaluation := ⟨code, before, (f.execute c code).host.running⟩
  match f.session, (c.translator.header f.host.machine).1 with
  | none, .ok header =>
    let opened := (f.start c).2.host.running
    [⟨header, f.host.running, opened⟩, last opened]
  | _, _ => [last f.host.running]

theorem runFragment_tracing (code : String) (trace trace' : List Evaluation) (s : Session α κ)
    (f : Frontend α κ) :
    runFragment c.tracing code (s.traced trace) (f.traced trace') =
      ((runFragment c code s f).1.traced
          (trace ++ [⟨code, f.host.running, (runFragment c code s f).2.host.running⟩]),
        (runFragment c code s f).2.traced trace') :=
  rfl

theorem start_tracing (trace : List Evaluation) (f : Frontend α κ) :
    (f.traced trace).start c.tracing =
      ((f.start c).1.traced
          (match (c.translator.header f.host.machine).1 with
          | .ok header => [⟨header, f.host.running, (f.start c).2.host.running⟩]
          | .error _ => []),
        (f.start c).2.traced trace) := by
  have headed : header c.tracing ((f.traced trace).see [.started]) =
      ((header c (f.see [.started])).1, (header c (f.see [.started])).2.traced trace) := rfl
  have answer : (header c (f.see [.started])).1 = (c.translator.header f.host.machine).1 := rfl
  have kept : (header c (f.see [.started])).2.host.running = f.host.running := rfl
  unfold start
  rw [headed, ← answer, ← kept]
  generalize header c (f.see [.started]) = here
  obtain ⟨e | code, g⟩ := here
  · rfl
  · let s : Session α κ :=
      { store := (∅ : Scope α).insert exitName c.exit, names := c.names, context := c.context }
    have recorded := runFragment_tracing c code [] trace s g
    rw [List.nil_append] at recorded
    exact recorded

theorem host_start_report (r : Report) (f : Frontend α κ) :
    ((f.report r).start c).2.host = (f.start c).2.host := by
  have answer : (header c ((f.report r).see [.started])).1 = (header c (f.see [.started])).1 := rfl
  have host : (header c ((f.report r).see [.started])).2.host =
      (header c (f.see [.started])).2.host := rfl
  unfold start
  generalize header c ((f.report r).see [.started]) = one at answer host ⊢
  generalize header c (f.see [.started]) = other at answer host ⊢
  obtain ⟨answer₁, g⟩ := one
  obtain ⟨answer₂, h⟩ := other
  dsimp only at answer host
  subst answer
  cases answer₁ with
  | error e => exact host
  | ok code =>
    dsimp only [runFragment, see]
    rw [host]

theorem running_start_of_error {f : Frontend α κ} {e : TranslateError}
    (fails : (c.translator.header f.host.machine).1 = .error e) :
    (f.start c).2.host.running = f.host.running := by
  have answer : (header c (f.see [.started])).1 = (c.translator.header f.host.machine).1 := rfl
  have kept : (header c (f.see [.started])).2.host.running = f.host.running := rfl
  rw [fails] at answer
  unfold start
  generalize header c (f.see [.started]) = here at answer kept ⊢
  obtain ⟨_, g⟩ := here
  subst answer
  exact kept

/-- The state in which a code is executed, when it has been shown if it is to be shown. -/
def shown (code : String) (f : Frontend α κ) : Frontend α κ :=
  if c.debug then f.report (.info ("Executing " ++ Text.quoted code)) else f

theorem shown_frame (code : String) (f : Frontend α κ) :
    (f.shown c code).session = f.session ∧ (f.shown c code).host = f.host ∧
      ((f.shown c code).start c).2.host = (f.start c).2.host := by
  unfold shown
  split
  · exact ⟨rfl, rfl, host_start_report c _ f⟩
  · exact ⟨rfl, rfl, rfl⟩

theorem shown_tracing (code : String) (trace : List Evaluation) (f : Frontend α κ) :
    (f.traced trace).shown c.tracing code = (f.shown c code).traced trace := by
  have same : c.tracing.debug = c.debug := rfl
  unfold shown
  rw [same]
  split
  · rfl
  · rfl

def opened (f : Frontend α κ) : Session α κ × Frontend α κ :=
  match f.session with
  | some s => (s, f)
  | none => f.start c

def runIn (code : String) (s : Session α κ) (f : Frontend α κ) : Frontend α κ :=
  { (runFragment c code s f).2 with session := some (runFragment c code s f).1 }

theorem execute_eq (code : String) (f : Frontend α κ) :
    f.execute c code =
      match (f.shown c code).session with
      | some s => runIn c code s (f.shown c code)
      | none => runIn c code ((f.shown c code).start c).1 ((f.shown c code).start c).2 := by
  have ran : f.execute c code =
      runIn c code ((f.shown c code).opened c).1 ((f.shown c code).opened c).2 := rfl
  rw [ran]
  unfold opened
  cases (f.shown c code).session with
  | some s => rfl
  | none => rfl

theorem runIn_tracing (code : String) (trace trace' : List Evaluation) (s : Session α κ)
    (f : Frontend α κ) :
    runIn c.tracing code (s.traced trace) (f.traced trace') =
      (runIn c code s f).traced
        (trace ++ [⟨code, f.host.running, (runIn c code s f).host.running⟩]) :=
  rfl

theorem execute_tracing (code : String) (trace : List Evaluation) (f : Frontend α κ)
    (unstarted : f.session = none → trace = []) :
    (f.traced trace).execute c.tracing code =
      (f.execute c code).traced (trace ++ f.evaluations c code) := by
  obtain ⟨same, host, opened⟩ := shown_frame c code f
  have shape := execute_eq c code f
  have shape' := execute_eq c.tracing code (f.traced trace)
  rw [shown_tracing] at shape'
  unfold evaluations
  rw [same] at shape
  cases session : f.session with
  | some s =>
    rw [session] at shape
    have there : ((f.shown c code).traced trace).session = some (s.traced trace) := by
      rw [traced, same, session]
      rfl
    rw [there] at shape'
    dsimp only at shape shape' ⊢
    rw [shape', shape, runIn_tracing, host]
  | none =>
    rw [session] at shape
    have there : ((f.shown c code).traced trace).session = none := by
      rw [traced, same, session]
      rfl
    rw [there, start_tracing, host] at shape'
    dsimp only at shape shape' ⊢
    rw [shape', shape, runIn_tracing, unstarted session, List.nil_append, opened]
    cases headed : (c.translator.header f.host.machine).1 with
    | ok header => rfl
    | error e =>
      rw [running_start_of_error c headed]
      rfl

theorem session_execute (code : String) (f : Frontend α κ) : (f.execute c code).session ≠ none := by
  rw [execute_eq]
  split <;> exact Option.some_ne_none _

theorem handle_tracing (trace : List Evaluation) (r : Reader) (f : Frontend α κ) :
    (f.traced trace).handle c.tracing r =
      ((f.handle c r).1, (f.handle c r).2.1, (f.handle c r).2.2.traced trace) :=
  rfl

section Evaluations

variable {c} {code : String} {f : Frontend α κ}

theorem evaluations_cases :
    f.evaluations c code = [⟨code, f.host.running, (f.execute c code).host.running⟩] ∧
        (f.session = none → ∃ e, (c.translator.header f.host.machine).1 = .error e) ∨
      ∃ header opened, f.session = none ∧ (c.translator.header f.host.machine).1 = .ok header ∧
        f.evaluations c code =
          [⟨header, f.host.running, opened⟩, ⟨code, opened, (f.execute c code).host.running⟩] := by
  unfold evaluations
  cases session : f.session with
  | some s => exact .inl ⟨rfl, nofun⟩
  | none =>
    cases headed : (c.translator.header f.host.machine).1 with
    | ok header => exact .inr ⟨header, _, rfl, rfl, rfl⟩
    | error e => exact .inl ⟨rfl, fun _ => ⟨e, rfl⟩⟩

end Evaluations

end Frontend

/-- No fragment lets the prompt go on again. -/
def Interpreter.Lowers (i : Interpreter α κ) : Prop :=
  ∀ code names context host,
    (i.evaluate code names context host).host.running = true → host.running = true

namespace Frontend

variable {c : Setup α κ} (lowers : c.interpreter.Lowers) {code : String} {f : Frontend α κ}
include lowers

theorem running_start_lowers (up : (f.start c).2.host.running = true) : f.host.running = true := by
  have kept : (header c (f.see [.started])).2.host.running = f.host.running := rfl
  unfold start at up
  generalize header c (f.see [.started]) = here at kept up
  obtain ⟨answer, g⟩ := here
  rw [← kept]
  cases answer with
  | error e => exact up
  | ok code => exact lowers _ _ _ _ up

theorem before_of_after {e : Evaluation} (member : e ∈ f.evaluations c code)
    (up : e.after = true) : e.before = true := by
  have fragment (s : Session α κ) (g : Frontend α κ)
      (up : (runIn c code s g).host.running = true) : g.host.running = true :=
    lowers _ _ _ _ up
  obtain ⟨same, host, opened⟩ := shown_frame c code f
  have shape := execute_eq c code f
  rw [same] at shape
  unfold evaluations at member
  cases session : f.session with
  | some s =>
    rw [session] at shape member
    obtain rfl := List.mem_singleton.mp member
    dsimp only at shape up ⊢
    rw [shape] at up
    rw [← host]
    exact fragment _ _ up
  | none =>
    rw [session] at shape member
    dsimp only at shape
    have last (up : (f.execute c code).host.running = true) :
        (f.start c).2.host.running = true := by
      rw [shape] at up
      rw [← opened]
      exact fragment _ _ up
    cases headed : (c.translator.header f.host.machine).1 with
    | ok header =>
      rw [headed] at member
      rcases List.mem_cons.mp member with rfl | member
      · exact running_start_lowers lowers up
      · obtain rfl := List.mem_singleton.mp member
        exact last up
    | error e =>
      rw [headed] at member
      obtain rfl := List.mem_singleton.mp member
      rw [← running_start_of_error c headed]
      exact last up

end Frontend

end SessionShell
