import SessionShell.Proofs.Compile.Simulation
import SessionShell.Proofs.Prompt.Evaluations

/-! What a front end is asked to do, and the codes that come of it. Inline code, sources that are run
and statements of the prompt are translated where their turn comes, and each code is executed before
the next text is looked at. Whatever else is done leaves the session alone. -/

namespace SessionShell

variable {α κ : Type}

inductive Operation
  | work (a : Arguments)
  | execute (code : String)
  | prompt (r : Reader)

namespace Frontend

def perform (c : Setup α κ) (f : Frontend α κ) : Operation → Frontend α κ
  | .work a => f.work c a
  | .execute code => f.execute c code
  | .prompt r => (f.prompt c r).2.2

end Frontend

namespace Frontend

section Codes

variable (c : Setup α κ)

def inlineCodes (f : Frontend α κ) (text : String) : List String :=
  (f.translate c text .single).1.toOption.toList

def workCodes (a : Arguments) (f : Frontend α κ) : List String :=
  let f := if a.version then f.report (.info ("Version " ++ version)) else f
  let g := a.code.foldl (runInline c) f
  let b := backend c g.host.machine.directory
  gathered (runInline c) (inlineCodes c) a.code f ++
    gathered (fun f path => Compile.compilePath b ⟨!a.nowrite, a.run⟩ path f)
      (Compile.pathCodes b ⟨!a.nowrite, a.run⟩) a.paths g

/-- The codes of the statements that the loop of the prompt comes to. -/
def loopCodes : Nat → Reader → Frontend α κ → List String
  | 0, _, _ => []
  | bound + 1, r, f =>
    if !f.host.running then []
    else match f.handle c r with
      | (.error _, _, _) => []
      | (.ok none, r, f) => loopCodes bound r f
      | (.ok (some code), r, f) => code :: loopCodes bound r (f.execute c code)

def promptCodes (r : Reader) (f : Frontend α κ) : List String :=
  let f := f.report (.info "Interpreter:")
  loopCodes c (r.left f.host.machine + 1) r { f with host.running := true }

def codes (f : Frontend α κ) : Operation → List String
  | .work a => workCodes c a f
  | .execute code => [code]
  | .prompt r => promptCodes c r f

end Codes

end Frontend

namespace Desk

def Unstarted (d : Desk) : Prop :=
  .started ∉ d.seen

theorem Unstarted.see {d : Desk} (unstarted : d.Unstarted) {e : Event} (other : e ≠ .started) :
    (d.see e).Unstarted := by
  intro member
  rcases List.mem_append.mp member with before | here
  · exact unstarted before
  · exact other (List.mem_singleton.mp here).symm

theorem Unstarted.ask {d : Desk} (unstarted : d.Unstarted) (prompt : String) :
    (d.ask prompt).2.Unstarted := by
  unfold Desk.ask
  dsimp only
  split
  · exact unstarted
  · exact Unstarted.see unstarted nofun

theorem Unstarted.translate {d : Desk} (unstarted : d.Unstarted) (t : Translator) (text : String) :
    (d.translate t text).2.Unstarted :=
  Unstarted.see unstarted nofun

theorem Unstarted.lastAttempt {d : Desk} (unstarted : d.Unstarted) (t : Translator)
    (text : String) : (d.lastAttempt t text).2.Unstarted := by
  have offered := unstarted.translate t text
  unfold Desk.lastAttempt
  split
  · rename_i code d' here
    rw [here] at offered
    exact offered
  · rename_i e d' here
    rw [here] at offered
    exact offered.see nofun

theorem Unstarted.complete {d : Desk} (unstarted : d.Unstarted) (t : Translator) (more : String)
    (bound : Nat) (text : String) : (Desk.complete t more bound text d).2.Unstarted := by
  induction bound generalizing text d with
  | zero => exact unstarted
  | succ bound ih =>
    have offered := unstarted.translate t text
    rw [Desk.complete]
    split
    · rename_i code d' here
      rw [here] at offered
      exact offered
    · rename_i e d' here
      rw [here] at offered
      have asked := offered.ask more
      split
      · split
        · rename_i f d'' read
          rw [read] at asked
          exact asked
        · rename_i line d'' read
          rw [read] at asked
          split
          · exact asked.lastAttempt t text
          · exact ih asked _
      · exact offered.see nofun

theorem Unstarted.handle {d : Desk} (unstarted : d.Unstarted) (p : Prompts) (t : Translator) :
    (Desk.handle p t d).2.Unstarted := by
  have asked := unstarted.ask p.first
  unfold Desk.handle
  split
  · rename_i f d' read
    rw [read] at asked
    exact asked
  · rename_i line d' read
    rw [read] at asked
    exact asked.complete t p.more _ line

end Desk

namespace Frontend

/-- More can be seen, but not that a session is started. -/
def Quiet (before after : List Event) : Prop :=
  ∃ events, after = before ++ events ∧ .started ∉ events

theorem Quiet.refl (seen : List Event) : Quiet seen seen :=
  ⟨[], (List.append_nil seen).symm, List.not_mem_nil⟩

theorem Quiet.trans {first second third : List Event} (quiet : Quiet first second)
    (further : Quiet second third) : Quiet first third := by
  obtain ⟨events, rfl, silent⟩ := quiet
  obtain ⟨more, rfl, silentMore⟩ := further
  refine ⟨events ++ more, List.append_assoc first events more, fun member => ?_⟩
  exact (List.mem_append.mp member).elim silent silentMore

/-- The session is left alone, and none is started. -/
structure Aside (f g : Frontend α κ) : Prop where
  session : g.session = f.session
  seen : Quiet f.seen g.seen

namespace Aside

variable {f g h : Frontend α κ}

theorem refl (f : Frontend α κ) : Aside f f :=
  ⟨rfl, .refl f.seen⟩

theorem trans (first : Aside f g) (second : Aside g h) : Aside f h :=
  ⟨second.session.trans first.session, first.seen.trans second.seen⟩

theorem see (f : Frontend α κ) (host : Host) {events : List Event} (silent : .started ∉ events) :
    Aside f ({ f with host }.see events) :=
  ⟨rfl, events, rfl, silent⟩

theorem report (r : Report) (f : Frontend α κ) : Aside f (f.report r) :=
  .see f f.host (by simp)

theorem translate (c : Setup α κ) (text : String) (mode : Mode) (f : Frontend α κ) :
    Aside f (f.translate c text mode).2 :=
  .see f _ (by simp)

theorem header (c : Setup α κ) (f : Frontend α κ) : Aside f (f.header c).2 :=
  .see f _ (by simp)

theorem handle (c : Setup α κ) (r : Reader) (f : Frontend α κ) : Aside f (f.handle c r).2.2 := by
  have asked : Desk.Unstarted { reader := r, machine := f.host.machine } := List.not_mem_nil
  exact .see f _ (asked.handle c.prompts c.translator)

theorem shown (c : Setup α κ) (code : String) (f : Frontend α κ) : Aside f (f.shown c code) := by
  unfold Frontend.shown
  split
  · exact report _ f
  · exact refl f

end Aside

/-- A front end that executes codes, and does nothing else to the session. -/
inductive Course (c : Setup α κ) : Frontend α κ → List String → Frontend α κ → Prop
  | rest {f g : Frontend α κ} (aside : Aside f g) : Course c f [] g
  | executes {f g h : Frontend α κ} {code : String} {codes : List String} (aside : Aside f g)
      (later : Course c (g.execute c code) codes h) : Course c f (code :: codes) h

namespace Course

variable {c : Setup α κ} {f g h : Frontend α κ} {codes more : List String}

theorem refl (f : Frontend α κ) : Course c f [] f :=
  .rest (.refl f)

theorem behind (aside : Aside f g) (course : Course c g codes h) : Course c f codes h := by
  cases course with
  | rest next => exact .rest (aside.trans next)
  | executes next later => exact .executes (aside.trans next) later

theorem trans (first : Course c f codes g) (second : Course c g more h) :
    Course c f (codes ++ more) h := by
  induction first with
  | rest aside => exact second.behind aside
  | executes aside later ih => exact .executes aside (ih second)

theorem execute (code : String) (f : Frontend α κ) : Course c f [code] (f.execute c code) :=
  .executes (.refl f) (.refl _)

theorem before (course : Course c f codes g) (aside : Aside g h) : Course c f codes h := by
  have whole := course.trans (.rest aside)
  rwa [List.append_nil] at whole

theorem foldl {β : Type} {step : Frontend α κ → β → Frontend α κ}
    {codes : Frontend α κ → β → List String} (steps : ∀ f b, Course c f (codes f b) (step f b))
    (l : List β) (f : Frontend α κ) : Course c f (gathered step codes l f) (l.foldl step f) := by
  induction l generalizing f with
  | nil => exact .refl f
  | cons b rest ih => exact (steps f b).trans (ih (step f b))

theorem runInline (c : Setup α κ) (f : Frontend α κ) (text : String) :
    Course c f (inlineCodes c f text) (f.runInline c text) := by
  have aside := Aside.translate c text .single f
  unfold Frontend.runInline inlineCodes
  split
  · rename_i code g here
    rw [here] at aside ⊢
    exact (Course.execute code g).behind aside
  · rename_i e g here
    rw [here] at aside ⊢
    exact .rest (aside.trans (.report _ g))

theorem simulates (c : Setup α κ) (directory : Place) (f : Frontend α κ) :
    (backend c directory).Simulates (backend c directory)
      fun codes g h => g = h ∧ Course c f codes g where
  directory := rfl
  files := by
    rintro codes g _ ⟨rfl, -⟩
    rfl
  setFiles := by
    rintro codes g _ ⟨rfl, course⟩ files
    exact ⟨rfl, course.before ⟨rfl, .refl g.seen⟩⟩
  report := by
    rintro codes g _ ⟨rfl, course⟩ r
    exact ⟨rfl, course.before (.report r g)⟩
  translate := by
    rintro codes g _ ⟨rfl, course⟩ text mode
    exact ⟨rfl, rfl, course.before (.translate c text mode g)⟩
  header := by
    rintro codes g _ ⟨rfl, course⟩
    exact ⟨rfl, rfl, course.before (.header c g)⟩
  execute := by
    rintro codes g _ ⟨rfl, course⟩ code
    exact ⟨rfl, course.trans (.execute code g)⟩

theorem compilePath (c : Setup α κ) (directory : Place) (settings : Compile.Settings)
    (f : Frontend α κ) (path : String) :
    Course c f (Compile.pathCodes (backend c directory) settings f path)
      (Compile.compilePath (backend c directory) settings path f) :=
  ((simulates c directory f).compilePath settings ⟨rfl, .refl f⟩ path).2

theorem work (c : Setup α κ) (a : Arguments) (f : Frontend α κ) :
    Course c f (workCodes c a f) (f.work c a) := by
  have begun : Aside f (if a.version then f.report (.info ("Version " ++ version)) else f) := by
    split
    · exact .report _ f
    · exact .refl f
  have inline := Course.foldl (Course.runInline c) a.code
    (if a.version then f.report (.info ("Version " ++ version)) else f)
  have paths (g : Frontend α κ) :=
    Course.foldl (compilePath c g.host.machine.directory ⟨!a.nowrite, a.run⟩) a.paths g
  exact (inline.trans (paths _)).behind begun

theorem promptLoop (c : Setup α κ) (bound : Nat) (r : Reader) (f : Frontend α κ) :
    Course c f (loopCodes c bound r f) (promptLoop c bound r f).2.2 := by
  induction bound generalizing r f with
  | zero => exact .refl f
  | succ bound ih =>
    have aside := Aside.handle c r f
    unfold Frontend.promptLoop loopCodes
    split
    · exact .refl f
    · cases here : f.handle c r with
      | mk answer rest =>
        obtain ⟨r', g⟩ := rest
        rw [here] at aside
        cases answer with
        | error e => exact .rest aside
        | ok answer =>
          cases answer with
          | none => exact (ih r' g).behind aside
          | some code => exact .executes aside (ih r' (g.execute c code))

theorem perform (c : Setup α κ) (f : Frontend α κ) (o : Operation) :
    Course c f (f.codes c o) (f.perform c o) := by
  cases o with
  | work a => exact work c a f
  | execute code => exact execute code f
  | prompt r =>
    have greeted : Aside f { f.report (.info "Interpreter:") with host.running := true } :=
      .see f { f.host with running := true } (by simp)
    exact (promptLoop c _ r _).behind greeted

end Course

end Frontend

end SessionShell
