import SessionShell.Proofs.Prompt.Evaluations
import SessionShell.Proofs.Shell.Flag

/-! Front ends in step. Two of them that have the same session and the same machine, though one may be
at the prompt and the other not, do the same with a code: what can be seen of it is the same, and the
sessions and machines behind it are. -/

namespace SessionShell

variable {α κ : Type}

def Host.lowered (h : Host) : Host :=
  { h with running := false }

def Evaluated.lowered (e : Evaluated α κ) : Evaluated α κ :=
  { e with host := e.host.lowered }

/-- Whether the prompt goes on makes no difference to a fragment, except to whether it goes on. -/
def Interpreter.Blind (i : Interpreter α κ) : Prop :=
  ∀ code names context host,
    (i.evaluate code names context host.lowered).lowered =
      (i.evaluate code names context host).lowered

theorem shellInterpreter_blind (start : Launcher) : (shellInterpreter start).Blind := by
  intro code names context host
  have lowered := Shell.evaluate_lowered start code (context.enter names host)
  have entered : context.enter names host.lowered = (context.enter names host).lowered := rfl
  simp only [shellInterpreter, entered, lowered]
  cases Shell.evaluate start code (context.enter names host) with
  | mk result s => cases result <;> rfl

namespace Session

theorem run_blind {i : Interpreter α κ} (blind : i.Blind) (o : Orders α) (code : String)
    (s : Session α κ) {h k : Host} (machine : h.machine = k.machine) :
    (run i o code s h).1 = (run i o code s k).1 ∧
      (run i o code s h).2.1.machine = (run i o code s k).2.1.machine ∧
      (run i o code s h).2.2 = (run i o code s k).2.2 := by
  have same : h.lowered = k.lowered := by
    simp [Host.lowered, machine]
  let injected := { s.names with globals := inject o s.store s.names.globals }
  have ends : (i.evaluate code injected s.context h).lowered =
      (i.evaluate code injected s.context k).lowered := by
    rw [← blind code injected s.context h, same, blind code injected s.context k]
  unfold run
  change _ ∧ _ ∧ events (i.evaluate code injected s.context h) = _
  dsimp only
  generalize i.evaluate code injected s.context h = e at ends ⊢
  generalize i.evaluate code injected s.context k = e' at ends ⊢
  obtain ⟨failure, output, complaints, names, context, machine, running⟩ := e
  obtain ⟨failure', output', complaints', names', context', machine', running'⟩ := e'
  simp only [Evaluated.lowered, Host.lowered, Evaluated.mk.injEq, Host.mk.injEq, and_true] at ends
  obtain ⟨rfl, rfl, rfl, rfl, rfl, rfl⟩ := ends
  exact ⟨rfl, rfl, rfl⟩

end Session

namespace Frontend

/-- The same session on the same machine. -/
structure Alike (f u : Frontend α κ) : Prop where
  session : f.session = u.session
  machine : f.host.machine = u.host.machine

/-- Two front ends have gone on alike, and the same could be seen of them. -/
structure InStep (f u f' u' : Frontend α κ) : Prop extends Alike f' u' where
  seen : ∃ events, f'.seen = f.seen ++ events ∧ u'.seen = u.seen ++ events

variable {f u f' u' f'' u'' : Frontend α κ}

theorem InStep.trans (first : InStep f u f' u') (second : InStep f' u' f'' u'') :
    InStep f u f'' u'' := by
  obtain ⟨events, left, right⟩ := first.seen
  obtain ⟨more, leftMore, rightMore⟩ := second.seen
  refine ⟨second.toAlike, events ++ more, ?_, ?_⟩
  · rw [leftMore, left, List.append_assoc]
  · rw [rightMore, right, List.append_assoc]

namespace Alike

variable {c : Setup α κ} (alike : Alike f u)
include alike

theorem report (r : Report) : InStep f u (f.report r) (u.report r) :=
  ⟨⟨alike.session, alike.machine⟩, [.report r], rfl, rfl⟩

theorem translate (c : Setup α κ) (text : String) (mode : Mode) :
    ∃ answer g v, f.translate c text mode = (answer, g) ∧ u.translate c text mode = (answer, v) ∧
      InStep f u g v := by
  have offered : c.translator.translate text mode f.host.machine =
      c.translator.translate text mode u.host.machine := by
    rw [alike.machine]
  unfold Frontend.translate
  rw [offered]
  exact ⟨_, _, _, rfl, rfl, ⟨alike.session, rfl⟩, [.translating mode text], rfl, rfl⟩

theorem header (c : Setup α κ) :
    ∃ answer g v, f.header c = (answer, g) ∧ u.header c = (answer, v) ∧ InStep f u g v := by
  have headed : c.translator.header f.host.machine = c.translator.header u.host.machine := by
    rw [alike.machine]
  unfold Frontend.header
  rw [headed]
  exact ⟨_, _, _, rfl, rfl, ⟨alike.session, rfl⟩, [.header], rfl, rfl⟩

theorem shown (c : Setup α κ) (code : String) : InStep f u (f.shown c code) (u.shown c code) := by
  unfold Frontend.shown
  split
  · exact alike.report _
  · exact ⟨alike, [], (List.append_nil _).symm, (List.append_nil _).symm⟩

variable (blind : c.interpreter.Blind)
include blind

theorem runFragment (code : String) (s : Session α κ) :
    (runFragment c code s f).1 = (runFragment c code s u).1 ∧
      InStep f u (runFragment c code s f).2 (runFragment c code s u).2 := by
  obtain ⟨session, machine, events⟩ :=
    Session.run_blind blind .increasing code s alike.machine
  have right : (Frontend.runFragment c code s u).2.seen = u.seen ++
      (Session.run c.interpreter .increasing code s f.host).2.2 := by
    rw [events]
    rfl
  exact ⟨session, ⟨alike.session, machine⟩, _, rfl, right⟩

theorem start : (f.start c).1 = (u.start c).1 ∧ InStep f u (f.start c).2 (u.start c).2 := by
  have begun : InStep f u (f.see [.started]) (u.see [.started]) :=
    ⟨⟨alike.session, alike.machine⟩, [.started], rfl, rfl⟩
  obtain ⟨answer, g, v, left, right, headed⟩ := begun.toAlike.header c
  unfold Frontend.start
  rw [left, right]
  cases answer with
  | error e => exact ⟨rfl, (begun.trans headed).trans (headed.toAlike.report _)⟩
  | ok code =>
    obtain ⟨session, ran⟩ := headed.toAlike.runFragment blind code
      { store := (∅ : Scope α).insert exitName c.exit, names := c.names, context := c.context }
    exact ⟨session, (begun.trans headed).trans ran⟩

theorem runIn (code : String) (s : Session α κ) : InStep f u (runIn c code s f) (runIn c code s u) := by
  obtain ⟨session, ran⟩ := alike.runFragment blind code s
  exact ⟨⟨congrArg some session, ran.machine⟩, ran.seen⟩

theorem execute (code : String) : InStep f u (f.execute c code) (u.execute c code) := by
  have shown := alike.shown c code
  rw [execute_eq, execute_eq, ← shown.session]
  cases (f.shown c code).session with
  | some s => exact shown.trans (shown.toAlike.runIn blind code s)
  | none =>
    obtain ⟨session, started⟩ := shown.toAlike.start blind
    dsimp only
    rw [session]
    exact (shown.trans started).trans (started.toAlike.runIn blind code _)

theorem runInline (text : String) : InStep f u (f.runInline c text) (u.runInline c text) := by
  obtain ⟨answer, g, v, left, right, offered⟩ := alike.translate c text .single
  unfold Frontend.runInline
  rw [left, right]
  cases answer with
  | error e => exact offered.trans (offered.toAlike.report _)
  | ok code => exact offered.trans (offered.toAlike.execute blind code)

end Alike

end Frontend

end SessionShell
