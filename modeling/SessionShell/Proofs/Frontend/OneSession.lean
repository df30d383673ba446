import SessionShell.Proofs.Frontend.Course
import SessionShell.Proofs.Session.Isolation
import SessionShell.Proofs.Session.LastSeen
import SessionShell.Shell.Interpreter

/-! The session is started once, in front of the first code that is executed. The header of the
translator is its first fragment, and every code of an operation, be it from the command line, from a
source or from the prompt, is a fragment behind it. -/

namespace SessionShell

variable {α κ : Type}

/-- The session before its first fragment. Only the value that ends it is bound. -/
def Setup.opening (c : Setup α κ) : Session α κ :=
  { store := (∅ : Scope α).insert exitName c.exit, names := c.names, context := c.context }

namespace Session

theorem started_notMem_events (e : Evaluated α κ) : Event.started ∉ events e := by
  intro member
  unfold events at member
  rcases List.mem_append.mp member with written | failed
  · rcases List.mem_append.mp written with output | complaints
    · split at output <;> simp at output
    · split at complaints <;> simp at complaints
  · cases failure : e.failure with
    | none => simp [failure] at failed
    | some message => simp [failure, Event.error] at failed

theorem mem_store_sessions (i : Interpreter α κ) {first : Session α κ} {name : String}
    (tracked : name ∈ first.store) (fragments : List (Fragment α)) :
    ∀ s ∈ sessions i first fragments, name ∈ s.store := by
  induction fragments generalizing first with
  | nil =>
    intro s member
    rwa [List.mem_singleton.mp member]
  | cons f fragments ih =>
    intro s member
    rw [sessions, List.scanl_cons] at member
    rcases List.mem_cons.mp member with rfl | later
    · exact tracked
    · exact ih (mem_store_run i f.faithful f.code first f.host tracked) s later

end Session

namespace Frontend

def fragmentOf (code : String) (host : Host) : Fragment α :=
  ⟨code, .increasing, Orders.increasing_faithful, host⟩

variable {c : Setup α κ} {f g : Frontend α κ} {s : Session α κ}

theorem runFragment_fragment (c : Setup α κ) (code : String) (s : Session α κ)
    (f : Frontend α κ) :
    (runFragment c code s f).1 = Session.runFragment c.interpreter s (fragmentOf code f.host) ∧
      Quiet f.seen (runFragment c code s f).2.seen :=
  ⟨rfl, _, rfl, Session.started_notMem_events _⟩

theorem execute_started (code : String) (started : f.session = some s) :
    (f.execute c code).session =
        some (Session.runFragment c.interpreter s (fragmentOf code f.host)) ∧
      Quiet f.seen (f.execute c code).seen := by
  obtain ⟨session, host, -⟩ := shown_frame c code f
  have ran := execute_eq c code f
  rw [session, started] at ran
  obtain ⟨same, quiet⟩ := runFragment_fragment c code s (f.shown c code)
  rw [host] at same
  have shown := (Aside.shown c code f).seen
  rw [ran]
  exact ⟨congrArg some same, shown.trans quiet⟩

theorem Course.fragments {codes : List String} (course : Course c f codes g)
    (started : f.session = some s) :
    ∃ fragments : List (Fragment α), fragments.map Fragment.code = codes ∧
      g.session = some (fragments.foldl (Session.runFragment c.interpreter) s) ∧
      Quiet f.seen g.seen := by
  induction course generalizing s with
  | rest aside => exact ⟨[], rfl, aside.session.trans started, aside.seen⟩
  | @executes f m g code codes aside later ih =>
    obtain ⟨session, quiet⟩ := execute_started (c := c) code (aside.session.trans started)
    obtain ⟨fragments, same, ends, further⟩ := ih session
    refine ⟨fragmentOf code m.host :: fragments, ?_, ends, ?_⟩
    · rw [List.map_cons, same]
      rfl
    · exact (aside.seen.trans quiet).trans further

theorem start_header (c : Setup α κ) (f : Frontend α κ) :
    ∃ (fragments : List (Fragment α)) (after : List Event),
      fragments.map Fragment.code = (c.translator.header f.host.machine).1.toOption.toList ∧
      (f.start c).1 = fragments.foldl (Session.runFragment c.interpreter) c.opening ∧
      (f.start c).2.seen = f.seen ++ .started :: .header :: after ∧ .started ∉ after ∧
      ∀ e, (c.translator.header f.host.machine).1 = .error e → after = [.error e.message] := by
  have answer : (header c (f.see [.started])).1 = (c.translator.header f.host.machine).1 := rfl
  have seen : (header c (f.see [.started])).2.seen = f.seen ++ [.started, .header] := by
    simp [header, see]
  unfold start
  rw [← answer]
  generalize header c (f.see [.started]) = headed at seen ⊢
  obtain ⟨e | code, g⟩ := headed
  · refine ⟨[], [.error e.message], rfl, rfl, ?_, ?_, ?_⟩
    · simp_all [report, see, Event.error]
    · simp [Event.error]
    · rintro _ ⟨⟩
      rfl
  · obtain ⟨same, events, grew, silent⟩ := runFragment_fragment c code c.opening g
    refine ⟨[fragmentOf code g.host], events, rfl, same, ?_, silent, nofun⟩
    have grew' : (runFragment c code c.opening g).2.seen = _ := grew
    simp_all [Setup.opening]

/-- What the first code that is executed leaves: a session with the header and the code in it. -/
theorem execute_unstarted (code : String) (unstarted : f.session = none) :
    ∃ (fragments : List (Fragment α)) (opening later : List Event),
      fragments.map Fragment.code =
        (c.translator.header f.host.machine).1.toOption.toList ++ [code] ∧
      (f.execute c code).session =
        some (fragments.foldl (Session.runFragment c.interpreter) c.opening) ∧
      ((f.shown c code).start c).2.seen =
        (f.shown c code).seen ++ .started :: .header :: opening ∧
      (f.execute c code).seen = ((f.shown c code).start c).2.seen ++ later ∧
      .started ∉ opening ++ later ∧
      ∀ e, (c.translator.header f.host.machine).1 = .error e → opening = [.error e.message] := by
  obtain ⟨session, host, -⟩ := shown_frame c code f
  have ran := execute_eq c code f
  rw [session, unstarted] at ran
  obtain ⟨headers, opening, codes, opened, seen, silent, fails⟩ := start_header c (f.shown c code)
  rw [host] at codes fails
  have quiet := (runFragment_fragment c code ((f.shown c code).start c).1
    ((f.shown c code).start c).2)
  obtain ⟨same, later, grew, silentLater⟩ := quiet
  refine ⟨headers ++ [fragmentOf code ((f.shown c code).start c).2.host], opening, later, ?_, ?_,
    seen, ?_, ?_, fails⟩
  · rw [List.map_append, codes]
    rfl
  · rw [ran, List.foldl_append, ← opened]
    exact congrArg some same
  · rw [ran]
    exact grew
  · intro member
    exact (List.mem_append.mp member).elim silent silentLater

/-- How a front end came to its session: it went on without one up to the first code, which started
one, and then executed the others in it. -/
structure Starts (c : Setup α κ) (begun : Frontend α κ) (first : String) (rest : List String)
    (f g : Frontend α κ) (fragments : List (Fragment α)) (opening later : List Event) : Prop where
  before : Course c begun [] g
  unstarted : g.session = none
  silent : .started ∉ (g.shown c first).seen
  /-- What can be seen of the start, in front of all that the code itself does. -/
  start : ((g.shown c first).start c).2.seen =
    (g.shown c first).seen ++ .started :: .header :: opening
  failed : ∀ e, (c.translator.header g.host.machine).1 = .error e → opening = [.error e.message]
  after : Course c (g.execute c first) rest f
  seen : f.seen = (g.shown c first).seen ++ .started :: .header :: (opening ++ later)
  once : .started ∉ opening ++ later
  codes : fragments.map Fragment.code =
    (c.translator.header g.host.machine).1.toOption.toList ++ first :: rest
  session : f.session = some (fragments.foldl (Session.runFragment c.interpreter) c.opening)
  exitable : ∀ s ∈ Session.sessions c.interpreter c.opening fragments, exitName ∈ s.store

/-- Whatever a front end is asked to do, it starts one session at most, and does so in front of the
first code that is executed. The header is evaluated there, where nothing but the value that ends the
session is bound, or it is reported once that there is none. The codes that the operations come to are
the fragments behind it, in their order, and that value stays bound. -/
theorem session_started_once (c : Setup α κ) (host : Host) (operations : List Operation) :
    let begun : Frontend α κ := { host }
    let f := operations.foldl (perform c) begun
    match gathered (perform c) (codes c) operations begun with
    | [] => f.session = none ∧ .started ∉ f.seen
    | first :: rest =>
      ∃ g fragments opening later, Starts c begun first rest f g fragments opening later := by
  intro begun f
  have course : Course c begun (gathered (perform c) (codes c) operations begun) f :=
    Course.foldl (Course.perform c) operations begun
  -- nothing can be seen at first
  have silent {g : Frontend α κ} (aside : Aside begun g) : .started ∉ g.seen := by
    obtain ⟨events, grew, silent⟩ := aside.seen
    rw [grew]
    exact silent
  generalize gathered (perform c) (codes c) operations begun = codes at course ⊢
  cases course with
  | rest aside => exact ⟨aside.session, silent aside⟩
  | @executes _ g _ first rest aside later =>
    have unstarted : g.session = none := aside.session
    obtain ⟨front, opening, events, headed, session, start, seen, quiet, failed⟩ :=
      execute_unstarted (c := c) first unstarted
    obtain ⟨back, behind, ends, more, grew, quietMore⟩ := later.fragments session
    refine ⟨g, front ++ back, opening, events ++ more, {
      before := .rest aside
      silent := silent (aside.trans (.shown c first g))
      after := later
      unstarted, start, failed
      seen := ?seen
      once := ?once
      codes := ?codes
      session := ?session
      exitable := ?exitable }⟩
    case seen =>
      rw [grew, seen, start]
      simp
    case once =>
      intro member
      rw [← List.append_assoc] at member
      exact (List.mem_append.mp member).elim quiet quietMore
    case codes =>
      rw [List.map_append, headed, behind]
      simp
    case session => rw [ends, List.foldl_append]
    case exitable =>
      have bound : exitName ∈ c.opening.store := by simp [Setup.opening]
      exact Session.mem_store_sessions c.interpreter bound (front ++ back)

/-- Neither the open quote nor the pipe starts the session, and what ends it cannot be removed. -/
example :
    let c : Setup Value ShellContext :=
      { translator := Checked.translator false, interpreter := shellInterpreter Session.noProgram
        exit := .native .exit, names := .ofGlobals ∅, context := {} }
    let begun : Frontend Value ShellContext := { host := .idle }
    let operations : List Operation :=
      [.work { code := ["echo 'a"] }, .prompt (.lines ["|", "unset exit; y=1"] .endOfFile),
        .execute "echo $y"]
    let f := operations.foldl (perform c) begun
    gathered (perform c) (codes c) operations begun = ["unset exit; y=1", "echo $y"] ∧
      f.session.map (fun s => s.store.toList.map Prod.fst) = some ["HUSK_VERSION", "exit", "y"] ∧
      f.seen.getLast? = some (.shell (Text.Utf8.encode "1\n")) := by
  decide +kernel

end Frontend

end SessionShell
