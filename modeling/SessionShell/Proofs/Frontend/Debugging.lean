import SessionShell.Proofs.Frontend.Course

/-! Showing codes before they run. A run that shows them goes side by side with one that does not:
both are asked to execute the same codes in the same states, and what can be seen of them differs by
the messages alone. -/

namespace SessionShell

variable {α κ : Type}

namespace Event

def executing (code : String) : Event :=
  .info ("Executing " ++ Text.quoted code)

def isInfo : Event → Bool
  | .report (.info _) => true
  | _ => false

end Event

namespace Setup

def quiet (c : Setup α κ) : Setup α κ :=
  { c with debug := false }

def debugging (c : Setup α κ) : Setup α κ :=
  { c with debug := true }

end Setup

namespace Frontend

def behind (past : List Event) (f : Frontend α κ) : Frontend α κ :=
  { f with seen := past ++ f.seen }

section Behind

variable (c : Setup α κ) (past : List Event) (f : Frontend α κ)

theorem see_behind (events : List Event) : (f.behind past).see events = (f.see events).behind past := by
  simp [behind, see]

theorem translate_behind (text : String) (mode : Mode) :
    (f.behind past).translate c text mode =
      ((f.translate c text mode).1, (f.translate c text mode).2.behind past) := by
  simp [Frontend.translate, behind, see]

theorem header_behind : (f.behind past).header c = ((f.header c).1, (f.header c).2.behind past) := by
  simp [Frontend.header, behind, see]

theorem handle_behind (r : Reader) :
    (f.behind past).handle c r =
      ((f.handle c r).1, (f.handle c r).2.1, (f.handle c r).2.2.behind past) := by
  simp [Frontend.handle, behind, see]

theorem runFragment_behind (code : String) (s : Session α κ) :
    runFragment c code s (f.behind past) =
      ((runFragment c code s f).1, (runFragment c code s f).2.behind past) := by
  simp [runFragment, behind, see]

theorem start_behind : (f.behind past).start c = ((f.start c).1, (f.start c).2.behind past) := by
  unfold start
  rw [see_behind, header_behind]
  cases header c (f.see [.started]) with
  | mk answer g =>
    cases answer with
    | error e => exact Prod.ext rfl (see_behind past g _)
    | ok code => exact runFragment_behind c past g code _

theorem shown_behind (code : String) :
    (f.behind past).shown c code = (f.shown c code).behind past := by
  unfold shown
  split
  · exact see_behind past f _
  · rfl

theorem runIn_behind (code : String) (s : Session α κ) :
    runIn c code s (f.behind past) = (runIn c code s f).behind past := by
  rw [runIn, runFragment_behind]
  rfl

theorem execute_behind (code : String) :
    (f.behind past).execute c code = (f.execute c code).behind past := by
  rw [execute_eq, execute_eq, shown_behind]
  generalize f.shown c code = g
  have session : (g.behind past).session = g.session := rfl
  rw [session]
  cases g.session with
  | some s => exact runIn_behind c past g code s
  | none =>
    dsimp only
    rw [start_behind]
    exact runIn_behind c past _ code _

end Behind

def unseen (f : Frontend α κ) : Frontend α κ :=
  { f with seen := [] }

theorem behind_unseen (f : Frontend α κ) : f.unseen.behind f.seen = f := by
  simp [behind, unseen]

variable {c : Setup α κ} {f g h v w : Frontend α κ} {codes : List String}

theorem unseen_inj : g.unseen = v.unseen ↔ g.session = v.session ∧ g.host = v.host := by
  simp [unseen, and_comm]

/-- If what has been seen makes no difference to a step, then states that differ in that alone are
answered alike, and the same is seen next. -/
theorem behind_congr {ε : Type} (step : Frontend α κ → ε × Frontend α κ)
    (behind : ∀ past f, step (f.behind past) = ((step f).1, (step f).2.behind past))
    (same : g.unseen = v.unseen) :
    (step g).1 = (step v).1 ∧ (step g).2.unseen = (step v).2.unseen ∧
      ∃ events, (step g).2.seen = g.seen ++ events ∧ (step v).2.seen = v.seen ++ events := by
  have left := behind g.seen g.unseen
  have right := behind v.seen v.unseen
  rw [behind_unseen] at left right
  rw [← same] at right
  rw [left, right]
  exact ⟨rfl, rfl, _, rfl, rfl⟩

/-- A step that leaves the session alone, and to which it makes no difference what has been seen. -/
structure Framed {ε : Type} (step : Frontend α κ → ε × Frontend α κ) : Prop where
  behind : ∀ past f, step (f.behind past) = ((step f).1, (step f).2.behind past)
  session : ∀ f, (step f).2.session = f.session

theorem framed_see (raise : Host → Host) (events : List Event) :
    Framed fun f : Frontend α κ => ((), { f with host := raise f.host }.see events) where
  behind past f := by simp [Frontend.behind, see]
  session _ := rfl

theorem framed_setFiles (files : FileSystem) :
    Framed fun f : Frontend α κ => ((), { f with host.machine.files := files }) :=
  ⟨fun _ _ => rfl, fun _ => rfl⟩

/-- Two runs go on alike: the session is left alone, and the same can be seen of both. -/
structure Alongside (g v h w : Frontend α κ) : Prop where
  session : h.session = g.session
  unseen : h.unseen = w.unseen
  seen : ∃ events, h.seen = g.seen ++ events ∧ w.seen = v.seen ++ events

theorem Framed.alongside {ε : Type} {step : Frontend α κ → ε × Frontend α κ}
    (framed : Framed step) (same : g.unseen = v.unseen) :
    Agree (Alongside g v) (step g) (step v) := by
  obtain ⟨answer, unseen, seen⟩ := behind_congr step framed.behind same
  exact ⟨answer, framed.session g, unseen, seen⟩

theorem execute_congr (c : Setup α κ) (same : g.unseen = v.unseen) (code : String) :
    (g.execute c code).unseen = (v.execute c code).unseen ∧
      ∃ events, (g.execute c code).seen = g.seen ++ events ∧
        (v.execute c code).seen = v.seen ++ events := by
  have behind (past : List Event) (f : Frontend α κ) :
      ((), (f.behind past).execute c code) = ((), (f.execute c code).behind past) := by
    rw [execute_behind]
  exact (behind_congr (fun f => ((), f.execute c code)) behind same).2

/-- Two runs from the same state that execute the same codes. The second one shows each of them, and
then does with it what the first one does. -/
inductive Echo (c : Setup α κ) (f : Frontend α κ) :
    List String → Frontend α κ → Frontend α κ → Prop
  | start : Echo c f [] f f
  | aside {codes : List String} {g v h w : Frontend α κ} (echo : Echo c f codes g v)
      (along : Alongside g v h w) : Echo c f codes h w
  | executes {codes : List String} {g v : Frontend α κ} (echo : Echo c f codes g v)
      (code : String) :
      Echo c f (codes ++ [code]) (g.execute c.quiet code)
        ((v.see [.executing code]).execute c.quiet code)

namespace Echo

theorem same (echo : Echo c f codes g v) : g.unseen = v.unseen := by
  induction echo with
  | start => rfl
  | aside echo along ih => exact along.unseen
  | @executes codes g v echo code ih =>
    have shown : g.unseen = (v.see [.executing code]).unseen := ih
    exact (execute_congr c.quiet shown code).1

/-- What can be seen of the two runs differs by the messages. Each part goes to where its code is
executed. -/
theorem seen (echo : Echo c f codes g v) :
    ∃ (parts : List (List Event × String)) (rest : List Event), parts.map Prod.snd = codes ∧
      g.seen = f.seen ++ parts.flatMap Prod.fst ++ rest ∧
      v.seen = f.seen ++ parts.flatMap (fun part => part.1 ++ [.executing part.2]) ++ rest := by
  induction echo with
  | start => exact ⟨[], [], rfl, by simp, by simp⟩
  | aside echo along ih =>
    obtain ⟨parts, rest, same, left, right⟩ := ih
    obtain ⟨events, grew, grew'⟩ := along.seen
    refine ⟨parts, rest ++ events, same, ?_, ?_⟩
    · rw [grew, left, List.append_assoc]
    · rw [grew', right, List.append_assoc]
  | @executes codes g v echo code ih =>
    obtain ⟨parts, rest, same, left, right⟩ := ih
    have shown : g.unseen = (v.see [.executing code]).unseen := echo.same
    obtain ⟨-, events, grew, grew'⟩ := execute_congr c.quiet shown code
    refine ⟨parts ++ [(rest, code)], events, ?_, ?_, ?_⟩
    · rw [List.map_append, same]
      rfl
    · rw [grew, left]
      simp
    · rw [grew', see, right]
      simp

theorem filter_seen (echo : Echo c f codes g v) :
    g.seen.filter (!·.isInfo) = v.seen.filter (!·.isInfo) := by
  have silent (code : String) : (Event.executing code).isInfo = true := rfl
  obtain ⟨parts, rest, -, left, right⟩ := echo.seen
  rw [left, right]
  simp [List.filter_flatMap, silent]

theorem step {ε : Type} {step : Frontend α κ → ε × Frontend α κ} (framed : Framed step)
    (echo : Echo c f codes g v) : Agree (Echo c f codes) (step g) (step v) :=
  have along := framed.alongside echo.same
  ⟨along.1, echo.aside along.2⟩

theorem see (echo : Echo c f codes g v) (raise : Host → Host) (events : List Event) :
    Echo c f codes ({ g with host := raise g.host }.see events)
      ({ v with host := raise v.host }.see events) :=
  (echo.step (framed_see raise events)).2

theorem translate (echo : Echo c f codes g v) (text : String) (mode : Mode) :
    Agree (Echo c f codes) (g.translate c text mode) (v.translate c text mode) :=
  echo.step ⟨fun past f => translate_behind c past f text mode, fun _ => rfl⟩

theorem header (echo : Echo c f codes g v) :
    Agree (Echo c f codes) (g.header c) (v.header c) :=
  echo.step ⟨header_behind c, fun _ => rfl⟩

theorem simulates (c : Setup α κ) (directory : Place) (f : Frontend α κ) :
    (backend c.quiet directory).Simulates (backend c.debugging directory) (Echo c f) where
  directory := rfl
  files echo := congrArg (fun host : Host => host.machine.files) (unseen_inj.mp echo.same).2.symm
  setFiles echo files := (echo.step (framed_setFiles files)).2
  report echo r := echo.see id [.report r]
  translate echo text mode := echo.translate text mode
  header echo := echo.header
  execute echo code := echo.executes code

theorem runInline (echo : Echo c f codes g v) (text : String) :
    Echo c f (codes ++ inlineCodes c.quiet g text) (g.runInline c.quiet text)
      (v.runInline c.debugging text) := by
  have offered : Agree (Echo c f codes) (g.translate c.quiet text .single)
      (v.translate c.debugging text .single) := echo.translate text .single
  unfold Frontend.runInline inlineCodes
  generalize g.translate c.quiet text .single = x at offered ⊢
  generalize v.translate c.debugging text .single = y at offered ⊢
  obtain ⟨answer, g⟩ := x
  obtain ⟨_, v⟩ := y
  obtain ⟨rfl, offered⟩ := offered
  cases answer with
  | error e =>
    have reported := offered.see id [.error e.message]
    rwa [← List.append_nil codes] at reported
  | ok code => exact offered.executes code

theorem paths (echo : Echo c f codes g v) (directory : Place) (settings : Compile.Settings)
    (paths : List String) :
    let compile (c : Setup α κ) (f : Frontend α κ) (path : String) :=
      Compile.compilePath (backend c directory) settings path f
    Echo c f
      (codes ++ gathered (compile c.quiet) (Compile.pathCodes (backend c.quiet directory) settings)
        paths g)
      (paths.foldl (compile c.quiet) g) (paths.foldl (compile c.debugging) v) :=
  related_foldl (R := Echo c f)
    (fun echo path => (simulates c directory f).compilePath settings echo path) echo paths

theorem work (echo : Echo c f codes g v) (a : Arguments) :
    Echo c f (codes ++ workCodes c.quiet a g) (g.work c.quiet a) (v.work c.debugging a) := by
  have begun : Echo c f codes
      (if a.version then g.report (.info ("Version " ++ version)) else g)
      (if a.version then v.report (.info ("Version " ++ version)) else v) := by
    split
    · exact echo.see id _
    · exact echo
  have inline := related_foldl (R := Echo c f) (fun echo => echo.runInline) begun a.code
  -- the inline code may have changed the directory, but to the same one
  have directory := congrArg (fun host : Host => host.machine.directory)
    (unseen_inj.mp inline.same).2
  unfold Frontend.work workCodes
  rw [← List.append_assoc]
  dsimp only at directory ⊢
  rw [← directory]
  exact inline.paths _ ⟨!a.nowrite, a.run⟩ a.paths

theorem handle (echo : Echo c f codes g v) (r : Reader) :
    ∃ answer r' h w, g.handle c r = (answer, r', h) ∧ v.handle c r = (answer, r', w) ∧
      Echo c f codes h w := by
  have framed : Framed fun f : Frontend α κ =>
      (((f.handle c r).1, (f.handle c r).2.1), (f.handle c r).2.2) := by
    refine ⟨fun past f => ?_, fun _ => rfl⟩
    dsimp only
    rw [handle_behind]
  obtain ⟨answers, further⟩ := echo.step framed
  generalize g.handle c r = x at answers further ⊢
  generalize v.handle c r = y at answers further ⊢
  obtain ⟨answer, r', h⟩ := x
  obtain ⟨_, _, w⟩ := y
  obtain ⟨rfl, rfl⟩ := Prod.mk.inj answers
  exact ⟨answer, r', h, w, rfl, rfl, further⟩

theorem promptLoop (echo : Echo c f codes g v) (bound : Nat) (r : Reader) :
    ∃ ended r' h w, g.promptLoop c.quiet bound r = (ended, r', h) ∧
      v.promptLoop c.debugging bound r = (ended, r', w) ∧
      Echo c f (codes ++ loopCodes c.quiet bound r g) h w := by
  induction bound generalizing r g v codes with
  | zero => exact ⟨_, r, g, v, rfl, rfl, by rwa [loopCodes, List.append_nil]⟩
  | succ bound ih =>
    -- the flags are the same, so that both loops go on or neither does
    have running := congrArg Host.running (unseen_inj.mp echo.same).2
    obtain ⟨answer, r', h, w, left, right, further⟩ := echo.handle (c := c) r
    have left : g.handle c.quiet r = (answer, r', h) := left
    have right : v.handle c.debugging r = (answer, r', w) := right
    unfold Frontend.promptLoop loopCodes
    rw [← running, left, right]
    split
    · exact ⟨_, r, g, v, rfl, rfl, by rwa [List.append_nil]⟩
    · cases answer with
      | error e => exact ⟨_, r', h, w, rfl, rfl, by rwa [List.append_nil]⟩
      | ok answer =>
        cases answer with
        | none => exact ih further r'
        | some code =>
          have ends := ih (further.executes code) r'
          rwa [List.append_assoc] at ends

theorem prompt (echo : Echo c f codes g v) (r : Reader) :
    ∃ ended r' h w, g.prompt c.quiet r = (ended, r', h) ∧ v.prompt c.debugging r = (ended, r', w) ∧
      Echo c f (codes ++ promptCodes c.quiet r g) h w := by
  have greeted := echo.see (fun host => { host with running := true }) [.info "Interpreter:"]
  have left : r.left (g.report (.info "Interpreter:")).host.machine =
      r.left (v.report (.info "Interpreter:")).host.machine :=
    congrArg (fun host : Host => r.left host.machine) (unseen_inj.mp echo.same).2
  unfold Frontend.prompt promptCodes
  dsimp only
  rw [← left]
  exact greeted.promptLoop _ r

theorem run (c : Setup α κ) (a : Arguments) (r : Reader) (f : Frontend α κ) :
    ∃ ended r' g v, (f.work c.quiet a).prompt c.quiet r = (ended, r', g) ∧
      (f.work c.debugging a).prompt c.debugging r = (ended, r', v) ∧
      Echo c f (workCodes c.quiet a f ++ promptCodes c.quiet r (f.work c.quiet a)) g v :=
  (start.work a).prompt r

end Echo

/-- What is evaluated in all the work that the arguments ask for, and at the prompt behind it. -/
def evaluated (c : Setup α κ) (a : Arguments) (r : Reader) (f : Frontend α κ) : List Evaluation :=
  (((f.traced []).work c.tracing a).prompt c.tracing r).2.2.trace

theorem evaluated_debugging (c : Setup α κ) (a : Arguments) (r : Reader) (f : Frontend α κ) :
    evaluated c.debugging a r f = evaluated c.quiet a r f := by
  obtain ⟨ended, r', g, v, quiet, loud, echo⟩ := Echo.run c.tracing a r (f.traced [])
  have left : evaluated c.quiet a r f = g.trace := congrArg (fun run => run.2.2.trace) quiet
  have right : evaluated c.debugging a r f = v.trace := congrArg (fun run => run.2.2.trace) loud
  rw [left, right, trace, trace, (unseen_inj.mp echo.same).1]

/-- Whether codes are shown before they run makes no difference to anything else. The prompt ends in
the same way with the same lines left, the session and the host are the same, and so are the
evaluations. Both runs execute the same codes. What can be seen of them is the same to where a code
is executed, shown there by the one run, and the same from there on. -/
theorem debugging_only_shows (c : Setup α κ) (a : Arguments) (r : Reader) (f : Frontend α κ) :
    let quiet := (f.work c.quiet a).prompt c.quiet r
    let loud := (f.work c.debugging a).prompt c.debugging r
    let codes := workCodes c.quiet a f ++ promptCodes c.quiet r (f.work c.quiet a)
    loud.1 = quiet.1 ∧ loud.2.1 = quiet.2.1 ∧ loud.2.2.session = quiet.2.2.session ∧
      loud.2.2.host = quiet.2.2.host ∧ evaluated c.debugging a r f = evaluated c.quiet a r f ∧
      loud.2.2.seen.filter (!·.isInfo) = quiet.2.2.seen.filter (!·.isInfo) ∧
      Echo c f codes quiet.2.2 loud.2.2 ∧
      ∃ (parts : List (List Event × String)) (rest : List Event), parts.map Prod.snd = codes ∧
        quiet.2.2.seen = f.seen ++ parts.flatMap Prod.fst ++ rest ∧
        loud.2.2.seen =
          f.seen ++ parts.flatMap (fun part => part.1 ++ [.executing part.2]) ++ rest := by
  obtain ⟨ended, r', g, v, quiet, loud, echo⟩ := Echo.run c a r f
  have same := unseen_inj.mp echo.same
  rw [quiet, loud]
  exact ⟨rfl, rfl, same.1.symm, same.2.symm, evaluated_debugging c a r f, echo.filter_seen.symm,
    echo, echo.seen⟩

end Frontend

end SessionShell
