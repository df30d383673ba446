import SessionShell.Proofs.Session.Promotion

/-! Fragments that are no programs. The store is put into the globals and a new frame begun before the
text is parsed, so that a run which finds an error in it has something to undo. The reconciliation
takes the names of the store out again, and the frame before, which holds the status, keeps the
status of the new one out of the store. -/

namespace SessionShell.Session

variable {start : Launcher} {text : String} {e : SyntaxError}

theorem evaluate_malformed (malformed : parse text = .error e) (s : ShellState) :
    Shell.evaluate start text s =
      (.error { cause := .malformed e }, s.renamed Names.resetFrame) := by
  have reset : Shell.changeNames Names.resetFrame s = (.ok (), s.renamed Names.resetFrame) := rfl
  simp only [Shell.evaluate, Shell.evaluateWith, Shell.bind_apply, reset, malformed]
  rfl

theorem evaluated_malformed (start : Launcher) (malformed : parse text = .error e)
    (s : Session Value ShellContext) (h : Host) :
    evaluated (shellInterpreter start) text s h =
      { failure := some e.message, output := [], complaints := [], names := s.visible.resetFrame
        context := s.context, host := h } := by
  have message : ({ cause := .malformed e } : Failure).message = e.message :=
    String.intercalate_singleton
  simp only [evaluated, shellInterpreter, evaluate_malformed malformed, ShellContext.leave, message]
  rfl

theorem settled_resetFrame {κ : Type} {s : Session Value κ} (untracked : Names.status ∉ s.store)
    (frame : Names.status ∈ s.names.locals) (name : String) :
    settled s.store s.names s.visible.resetFrame name = s.store[name]? := by
  have globals : s.visible.resetFrame.globals = s.names.globals.overlay s.store := rfl
  unfold settled
  by_cases tracked : name ∈ s.store
  · have ordinary : name ≠ Names.status := fun same => untracked (same ▸ tracked)
    have absent : s.visible.resetFrame.locals[name]? = none :=
      Std.ExtTreeMap.getElem?_eq_none fun member =>
        ordinary ((mem_resetFrame s.visible name).mp member)
    have stored : (s.store[name]?).isSome := Std.ExtTreeMap.mem_iff_isSome_getElem?.mp tracked
    rw [if_pos tracked, absent, Option.none_or, globals, Scope.getElem?_overlay,
      Option.or_of_isSome stored, Option.or_of_isSome stored]
  · have oldGlobal : ¬(name ∈ s.visible.resetFrame.globals ∧ name ∉ s.names.globals) := by
      rintro ⟨member, new⟩
      rcases (mem_visible s name).mp member with old | stored
      · exact new old
      · exact tracked stored
    have oldLocal : ¬(name ∈ s.visible.resetFrame.locals ∧ name ∉ s.names.locals) := by
      rintro ⟨member, new⟩
      obtain rfl := (mem_resetFrame s.visible name).mp member
      exact new frame
    rw [if_neg tracked, if_neg oldGlobal, if_neg oldLocal, Std.ExtTreeMap.getElem?_eq_none tracked]

theorem status_reached {first s : Session Value ShellContext}
    (frame : Names.status ∈ first.names.locals)
    (reached : Reached (shellInterpreter start) first s) : Names.status ∈ s.names.locals :=
  (mem_store_reached frame reached).1

/-- A fragment that is no program leaves the store, the globals, the context with its deeds and the
host as they are; it writes nothing, and its error is reported once. The frame is a new one. -/
theorem malformed_changes_nothing {first s : Session Value ShellContext}
    (frame : Names.status ∈ first.names.locals)
    (reached : Reached (shellInterpreter start) first s) (untracked : Names.status ∉ s.store)
    {o : Orders Value} (faithful : o.Faithful) (malformed : parse text = .error e) (h : Host) :
    run (shellInterpreter start) o text s h =
      ({ store := s.store
         names := { globals := s.names.globals
                    locals := (∅ : Scope Value).insert Names.status (.text "0") }
         context := s.context },
        h, [.error e.message]) := by
  have ends := evaluated_malformed start malformed s h
  have store : (run (shellInterpreter start) o text s h).1.store = s.store := by
    apply Std.ExtTreeMap.ext_getElem?
    intro name
    rw [run_store _ faithful, ends]
    exact settled_resetFrame untracked (status_reached frame reached) name
  have globals := run_globals (shellInterpreter start) faithful text s h
  have locals := run_locals (shellInterpreter start) faithful text s h
  rw [ends] at locals
  have rest : (run (shellInterpreter start) o text s h).1.context = s.context ∧
      (run (shellInterpreter start) o text s h).2 = (h, [.error e.message]) := by
    have ran : (run (shellInterpreter start) o text s h).1.context =
          (evaluated (shellInterpreter start) text s h).context ∧
        (run (shellInterpreter start) o text s h).2 =
          ((evaluated (shellInterpreter start) text s h).host,
            events (evaluated (shellInterpreter start) text s h)) := by
      simp only [run, inject_eq_overlay faithful, evaluated, visible, and_self]
    rw [ran.1, ran.2, ends]
    exact ⟨rfl, rfl⟩
  generalize run (shellInterpreter start) o text s h = r at store globals locals rest
  obtain ⟨⟨store', ⟨globals', locals'⟩, context'⟩, host', events'⟩ := r
  dsimp only at store globals locals rest
  obtain ⟨rfl, out⟩ := rest
  rw [store, globals, locals, out]
  rfl

/-- The quote that is open at the end of a text keeps what stands in front of it from running. -/
theorem malformed_changes_nothing_quote :
    let first : Session Value ShellContext :=
      { store := .ofEntries [("exit", .native .exit), ("n", .text "0")]
        names := .ofGlobals (.ofEntries [("HOME", .text "/"), ("n", .text "7")]), context := {} }
    let i := shellInterpreter noProgram
    let s := (run i .increasing "x=1; local y=2" first .idle).1
    let text := "x=3; local y=4; exit; echo 'open"
    Names.status ∈ first.names.locals ∧ Reached i first s ∧ Names.status ∉ s.store ∧
      (Orders.increasing : Orders Value).Faithful ∧ parse text = .error (.lex .quote) ∧
      (s.store.toList.map fun entry => (entry.1, entry.2.text?)) =
        [("exit", none), ("n", some "0"), ("x", some "1"), ("y", some "2")] ∧
      (s.names.locals.toList.map Prod.fst) = ["?", "y"] ∧
      run i .increasing text s .idle =
        ({ store := s.store
           names := { globals := s.names.globals
                      locals := (∅ : Scope Value).insert Names.status (.text "0") }
           context := s.context },
          .idle, [.error "unterminated quote"]) := by
  intro first i s text
  have frame : Names.status ∈ first.names.locals := (mem_resetFrame _ _).mpr rfl
  have reached : Reached i first s := .run .first Orders.increasing_faithful "x=1; local y=2" .idle
  have untracked : Names.status ∉ s.store := by decide +kernel
  have unclosed : tokenize "x=3; local y=4; exit; echo 'open" = .error .quote := by rfl
  have malformed : parse text = .error (.lex .quote) := parse_of_lexError unclosed
  refine ⟨frame, reached, untracked, Orders.increasing_faithful, malformed, by decide +kernel,
    by decide +kernel, ?_⟩
  exact malformed_changes_nothing frame reached untracked Orders.increasing_faithful malformed .idle

end SessionShell.Session
