import SessionShell.Proofs.Shell.Arguments
import SessionShell.Proofs.Shell.Pipelines
import SessionShell.Proofs.Shell.Substitutions

/-! What a command may touch. The assignments in front of it reach the environment of a program and
nothing else; what it can do to the names is left to two of the builtins, which have to name them.
So it is for a stage of a pipeline, too, whatever becomes of it. -/

namespace SessionShell

namespace Usage

theorem mem_of_scanFrom {u : Usage} {options helpSeen : Bool} {before found : Scanned}
    {args : List String} (scanned : u.scanFrom options helpSeen before args = .ok found) :
    ∀ arg ∈ found.positionals, arg ∈ before.positionals ∨ arg ∈ args := by
  fun_induction scanFrom u options helpSeen before args <;> grind

theorem mem_of_scan {u : Usage} {args : List String} {found : Scanned}
    (scanned : u.scan args = .ok found) : ∀ arg ∈ found.positionals, arg ∈ args := by
  intro arg member
  simpa using mem_of_scanFrom scanned arg member

end Usage

namespace Shell

section Values

def partValue (names : Names Value) : WordPart → String
  | .literal text => text
  | .parameter name => (names.text? name).getD ""
  | .command _ => ""

def wordValue (names : Names Value) : Word → String
  | [] => ""
  | part :: rest => partValue names part ++ wordValue names rest

def assignedValues (names : Names Value) (as : List Assignment) : List (String × String) :=
  as.map fun a => (a.name, (a.value.map (wordValue names)).getD "")

variable (capture : String → Shell String) (s : ShellState)

theorem expand_plain {w : Word} (plain : w.substitutions = []) :
    expand capture w s = (.ok (wordValue s.names w), s) := by
  induction w with
  | nil => rfl
  | cons part rest ih =>
    cases part with
    | literal text =>
      simp only [expand, expandPart, bind_apply, pure_apply, ih plain, wordValue, partValue]
    | parameter name =>
      simp only [expand, expandPart, bind_apply, pure_apply, get_apply, ih plain, wordValue,
        partValue]
    | command code => cases plain

theorem expandAll_plain {ws : List Word} (plain : ws.flatMap Word.substitutions = []) :
    expandAll capture ws s = (.ok (ws.map (wordValue s.names)), s) := by
  induction ws with
  | nil => rfl
  | cons w rest ih =>
    obtain ⟨here, behind⟩ := List.append_eq_nil_iff.mp plain
    simp only [expandAll, bind_apply, pure_apply, expand_plain capture s here, ih behind,
      List.map_cons]

theorem expandAssignments_plain {as : List Assignment}
    (plain : (as.filterMap (·.value)).flatMap Word.substitutions = []) :
    expandAssignments capture as s = (.ok (assignedValues s.names as), s) := by
  induction as with
  | nil => rfl
  | cons a rest ih =>
    obtain ⟨name, value⟩ := a
    cases value with
    | none =>
      simp only [expandAssignments, bind_apply, pure_apply, ih plain, assignedValues, List.map_cons,
        Option.map_none, Option.getD_none]
    | some w =>
      obtain ⟨here, behind⟩ := List.append_eq_nil_iff.mp plain
      simp only [expandAssignments, bind_apply, pure_apply, expand_plain capture s here, ih behind,
        assignedValues, List.map_cons, Option.map_some, Option.getD_some]

theorem prepare_plain {stage : Command} (plain : stage.substitutions = []) :
    ∃ command, prepare capture stage s =
        (.ok (assignedValues s.names stage.assignments, command), s) ∧
      (command.map fun (name, arguments) => name :: arguments).getD [] =
        stage.words.map (wordValue s.names) := by
  obtain ⟨values, words⟩ := stage.forall_substitutions.mp (List.eq_nil_iff_forall_not_mem.mp plain)
  rw [← List.eq_nil_iff_forall_not_mem] at values words
  simp only [prepare, bind_apply, expandAssignments_plain capture s values]
  cases given : stage.words with
  | nil => exact ⟨none, rfl, rfl⟩
  | cons first more =>
    rw [given] at words
    obtain ⟨here, behind⟩ := List.append_eq_nil_iff.mp words
    simp only [bind_apply, pure_apply, expand_plain capture s here,
      expandAll_plain capture s behind]
    exact ⟨_, rfl, rfl⟩

end Values

end Shell

inductive Meaning
  | native (native : Native)
  | builtin (builtin : Builtin)
  | program (path : String)
  | nothing

namespace Shell

/-- What a name stands for: natives come first, then builtins, then programs. -/
def meaning (s : ShellState) (name : String) : Meaning :=
  match s.names.lookup name with
  | some (.native native) => .native native
  | _ =>
    match Builtin.ofName? name with
    | some builtin => .builtin builtin
    | none =>
      match findCommand s.host.machine ((s.names.text? "PATH").getD "") name with
      | some path => .program path
      | none => .nothing

end Shell

/-- How a command leaves the names: `unset` removes names among its arguments, though not the
status, and `local` defines locals that its arguments name. -/
structure Names.Touched (meaning : Meaning) (arguments : List String) (before after : Names Value) :
    Prop where
  globals : ∀ name, after.globals[name]? = before.globals[name]? ∨
    meaning = .builtin .unset ∧ name ∈ arguments ∧ after.globals[name]? = none
  locals : ∀ name, after.locals[name]? = before.locals[name]? ∨
    name ≠ status ∧
      (meaning = .builtin .unset ∧ name ∈ arguments ∧ after.locals[name]? = none ∨
        meaning = .builtin .assignLocals ∧ ∃ text,
          (∃ arg ∈ arguments, Builtin.splitAssignment arg = (name, text)) ∧
            after.locals[name]? = some (.text text))

namespace Names.Touched

variable {meaning : Meaning} {arguments : List String} {a b c : Names Value}

theorem refl (meaning : Meaning) (arguments : List String) (names : Names Value) :
    Touched meaning arguments names names :=
  ⟨fun _ => .inl rfl, fun _ => .inl rfl⟩

theorem trans (first : Touched meaning arguments a b) (second : Touched meaning arguments b c) :
    Touched meaning arguments a c where
  globals name := by
    rcases second.globals name with same | removed
    · rw [same]
      exact first.globals name
    · exact .inr removed
  locals name := by
    rcases second.locals name with same | changed
    · rw [same]
      exact first.locals name
    · exact .inr changed

theorem unset {name : String} (member : name ∈ arguments) (names : Names Value) :
    Touched (.builtin .unset) arguments names (names.unset name) where
  globals other := by
    by_cases same : name = other
    · subst same
      exact .inr ⟨rfl, member, by simp [Names.unset]⟩
    · exact .inl (by simp [Names.unset, Std.ExtTreeMap.getElem?_erase, same])
  locals other := by
    by_cases status : name = Names.status
    · exact .inl (by simp [Names.unset, status])
    by_cases same : name = other
    · subst same
      exact .inr ⟨status, .inl ⟨rfl, member, by simp [Names.unset, status]⟩⟩
    · exact .inl (by simp [Names.unset, Std.ExtTreeMap.getElem?_erase, same, status])

theorem setLocal {arg name text : String} (member : arg ∈ arguments)
    (split : Builtin.splitAssignment arg = (name, text)) (proper : isName name)
    (names : Names Value) :
    Touched (.builtin .assignLocals) arguments names (names.setLocal name (.text text)) where
  globals _ := .inl rfl
  locals other := by
    by_cases same : name = other
    · subst same
      exact .inr ⟨Shell.ne_status_of_isName proper,
        .inr ⟨rfl, text, ⟨arg, member, split⟩, by simp [Names.setLocal]⟩⟩
    · exact .inl (by simp [Names.setLocal, Std.ExtTreeMap.getElem?_insert, same])

end Names.Touched

namespace Shell

variable {α β : Type} {builtin : Builtin} {arguments : List String}

/-- Whatever becomes of the step, the names are left as the builtin may leave them, and nothing is
done with natives or programs. -/
def Modest (builtin : Builtin) (arguments : List String) (step : Shell α) : Prop :=
  ∀ s, Names.Touched (.builtin builtin) arguments s.names (step s).2.names ∧
    (step s).2.deeds = s.deeds

namespace Modest

theorem pure (a : α) : Modest builtin arguments (Pure.pure a : Shell α) :=
  fun _ => ⟨.refl _ _ _, rfl⟩

theorem throw (e : Failure) : Modest builtin arguments (MonadExcept.throw e : Shell α) :=
  fun _ => ⟨.refl _ _ _, rfl⟩

theorem bind {step : Shell α} {next : α → Shell β} (first : Modest builtin arguments step)
    (rest : ∀ a, Modest builtin arguments (next a)) : Modest builtin arguments (step >>= next) := by
  intro s
  obtain ⟨names, deeds⟩ := first s
  rw [bind_apply]
  cases here : step s with
  | mk result t =>
    rw [here] at names deeds
    cases result with
    | error e => exact ⟨names, deeds⟩
    | ok a =>
      obtain ⟨later, done⟩ := rest a t
      exact ⟨names.trans later, done.trans deeds⟩

theorem inspect {next : ShellState → Shell β} (rest : ∀ s, Modest builtin arguments (next s)) :
    Modest builtin arguments (get >>= next) :=
  fun s => rest s s

theorem modifying {f : ShellState → ShellState} (names : ∀ s, (f s).names = s.names)
    (deeds : ∀ s, (f s).deeds = s.deeds) : Modest builtin arguments (modify f : Shell Unit) :=
  fun s => ⟨(names s).symm ▸ .refl _ _ _, deeds s⟩

theorem changing {f : Names Value → Names Value}
    (touched : ∀ names, Names.Touched (.builtin builtin) arguments names (f names)) :
    Modest builtin arguments (changeNames f) :=
  fun s => ⟨touched s.names, rfl⟩

theorem orElseWith {step : Shell α} {handle : Failure → Shell α}
    (modest : Modest builtin arguments step) (handled : ∀ e, Modest builtin arguments (handle e)) :
    Modest builtin arguments (step.orElseWith handle) := by
  intro s
  obtain ⟨names, deeds⟩ := modest s
  unfold Shell.orElseWith
  cases here : step s with
  | mk result t =>
    rw [here] at names deeds
    cases result with
    | ok a => exact ⟨names, deeds⟩
    | error e =>
      obtain ⟨later, done⟩ := handled e t
      exact ⟨names.trans later, done.trans deeds⟩

theorem write (bytes : Bytes) : Modest builtin arguments (Shell.write bytes) := by
  intro s
  obtain ⟨names, deeds, -⟩ := write_frame bytes s
  exact ⟨names.symm ▸ .refl _ _ _, deeds⟩

end Modest

end Shell

namespace Builtin

open Shell

variable {builtin : Builtin} {arguments : List String}

theorem modest_readFiles (files : List String) : Modest builtin arguments (readFiles files) := by
  have one (file : String) : Modest builtin arguments (readFile file) := by
    refine .inspect fun s => ?_
    dsimp only
    split
    · exact .pure _
    · exact .throw _
  induction files with
  | nil => exact .pure _
  | cons file rest ih => exact (one file).bind fun _ => ih.bind fun _ => .pure _

theorem modest_readText (input : Option Bytes) : Modest builtin arguments (readText input) := by
  have given (bytes : Bytes) : Modest builtin arguments (readText (some bytes)) := by
    refine .bind (.pure bytes) fun bytes => ?_
    dsimp only
    split
    · exact .pure _
    · exact .throw _
  cases input with
  | some bytes => exact given bytes
  | none =>
    refine .bind (.inspect fun s => ?_) given
    exact .bind (.modifying (fun _ => rfl) fun _ => rfl) fun _ => .pure _

theorem modest_inputs (files : List String) (input : Option Bytes) :
    Modest builtin arguments (inputs files input) := by
  cases files with
  | nil => exact (modest_readText input).bind fun _ => .pure _
  | cons file rest => exact modest_readFiles _

theorem modest_writeAll (texts : List String) : Modest builtin arguments (writeAll texts) := by
  induction texts with
  | nil => exact .pure _
  | cons text rest ih => exact .bind (.write _) fun _ => ih

theorem modest_defineLocals {args : List String} (given : ∀ arg ∈ args, arg ∈ arguments) :
    Modest .assignLocals arguments (defineLocals args) := by
  induction args with
  | nil => exact .pure _
  | cons arg rest ih =>
    obtain ⟨here, behind⟩ := List.forall_mem_cons.mp given
    unfold defineLocals
    dsimp only
    split
    · rename_i proper
      exact .bind (.changing (.setLocal here rfl proper)) fun _ => ih behind
    · exact .throw _

theorem touched_unset {args : List String} (given : ∀ arg ∈ args, arg ∈ arguments)
    (names : Names Value) : Names.Touched (.builtin .unset) arguments names
      (args.foldl (fun names name => names.unset name) names) := by
  induction args generalizing names with
  | nil => exact .refl _ _ _
  | cons arg rest ih =>
    obtain ⟨here, behind⟩ := List.forall_mem_cons.mp given
    exact (Names.Touched.unset here names).trans (ih behind _)

theorem modest_body (b : Builtin) {args : Scanned}
    (given : ∀ arg ∈ args.positionals, arg ∈ arguments) (input : Option Bytes) :
    Modest b arguments (b.body args input) := by
  have written (texts : List String) :
      Modest b arguments (writeAll texts >>= fun _ => pure (0 : Int32)) :=
    (modest_writeAll texts).bind fun _ => .pure _
  cases b with
  | echo => exact .bind (.write _) fun _ => .pure _
  | cat => exact (modest_inputs _ _).bind fun _ => written _
  | wc => exact (modest_inputs _ _).bind fun _ => written _
  | assignLocals => exact (modest_defineLocals given).bind fun _ => .pure _
  | unset => exact .bind (.changing (touched_unset given)) fun _ => .pure _

theorem modest_run (b : Builtin) (args : List String) (input : Option Bytes) :
    Modest b args (b.run args input) := by
  unfold run
  split
  · exact .bind (.write _) fun _ => .pure _
  · rename_i scanned
    exact (modest_body b (Usage.mem_of_scan scanned) input).orElseWith fun _ =>
      .bind (.write _) fun _ => .pure _

end Builtin

namespace Shell

/-- The environment of a program: the assignments, of which the last one of a name counts, and
behind them the text globals. -/
def IsEnvironment (names : Names Value) (assigned : List (String × String))
    (environment : Scope String) : Prop :=
  ∀ name, environment[name]? =
    (assigned.reverse.lookup name).or (names.globals[name]?.bind Value.text?)

theorem isEnvironment_exported (names : Names Value) (assigned : List (String × String)) :
    IsEnvironment names assigned (names.exported.insertMany assigned) := by
  intro name
  have exported : names.exported[name]? = names.globals[name]?.bind Value.text? :=
    Std.ExtTreeMap.getElem?_filterMap'
  rw [Std.ExtTreeMap.getElem?_insertMany_list, exported, List.findSomeRev?_eq_findSome?_reverse,
    List.lookup_eq_findSome?]
  congr 2
  funext entry
  by_cases same : name = entry.1
  · simp [same]
  · simp [same, Ne.symm same]

/-- What a command does that touches no more than it may. A program is started once, with the
environment that the names make, and what it finds is what it leaves the machine with. -/
structure Confined (start : Launcher) (c : Call) (s t : ShellState) : Prop where
  names : Names.Touched (meaning s c.name) c.arguments s.names t.names
  deeds :
    match meaning s c.name with
    | .native _ => t.deeds = s.deeds ++ [.called c.name c.arguments]
    | .program path => ∃ environment, IsEnvironment s.names c.assigned environment ∧
        let launch : Launch := { program := path, arguments := c.arguments
                                 environment := some environment, input := c.input }
        t.deeds = s.deeds ++ [.started launch] ∧
          t.host.machine = (start.run launch s.host.machine).2
    | _ => t.deeds = s.deeds

theorem invoke_eq (start : Launcher) (c : Call) (s : ShellState) :
    invoke start c s =
      match meaning s c.name with
      | .native native => callNative native c s
      | .builtin builtin => builtin.run c.arguments c.input s
      | _ => runExternal start c s := by
  unfold invoke meaning
  simp only [bind_apply, get_apply]
  rcases s.names.lookup c.name with _ | text | native
  case some.native => rfl
  all_goals
    cases Builtin.ofName? c.name with
    | some builtin => rfl
    | none => cases findCommand s.host.machine ((s.names.text? "PATH").getD "") c.name <;> rfl

theorem findCommand_of_meaning {s : ShellState} {name : String} :
    (∀ path, meaning s name = .program path →
      findCommand s.host.machine ((s.names.text? "PATH").getD "") name = some path) ∧
    (meaning s name = .nothing →
      findCommand s.host.machine ((s.names.text? "PATH").getD "") name = none) := by
  unfold meaning
  grind

theorem runExternal_frame (start : Launcher) (c : Call) {s : ShellState} {path : String}
    (found : findCommand s.host.machine ((s.names.text? "PATH").getD "") c.name = some path) :
    let launch : Launch :=
      { program := path, arguments := c.arguments, input := c.input
        environment := some (s.names.exported.insertMany c.assigned) }
    (runExternal start c s).2.names = s.names ∧
      (runExternal start c s).2.deeds = s.deeds ++ [.started launch] ∧
      (runExternal start c s).2.host.machine = (start.run launch s.host.machine).2 := by
  intro launch
  let m : ShellState :=
    { s with deeds := s.deeds ++ [.started launch]
             host.machine := (start.run launch s.host.machine).2 }
  change _ = m.names ∧ _ = m.deeds ∧ _ = m.host.machine
  rw [runExternal_eq]
  simp only [bind_apply, get_apply, found, modify_apply]
  cases (start.run launch s.host.machine).1 with
  | error e => exact ⟨rfl, rfl, rfl⟩
  | ok finished =>
    obtain ⟨names, deeds, host⟩ := write_frame finished.output m
    simp only [bind_apply, modify_apply, pure_apply]
    cases here : write finished.output m with
    | mk result t =>
      rw [here] at names deeds host
      cases result <;> exact ⟨names, deeds, congrArg Host.machine host⟩

theorem confined_invoke (start : Launcher) (c : Call) (s : ShellState) :
    Confined start c s (invoke start c s).2 := by
  have unchanged {t : ShellState} (same : t.names = s.names) :
      Names.Touched (meaning s c.name) c.arguments s.names t.names := same.symm ▸ .refl _ _ _
  rw [invoke_eq]
  cases meant : meaning s c.name with
  | native native =>
    obtain ⟨names, deeds⟩ := callNative_frame native c s
    exact ⟨unchanged names, by simpa only [meant] using deeds⟩
  | builtin builtin =>
    obtain ⟨names, deeds⟩ := Builtin.modest_run builtin c.arguments c.input s
    exact ⟨by simpa only [meant] using names, by simpa only [meant] using deeds⟩
  | program path =>
    obtain ⟨names, deeds⟩ := runExternal_frame start c (findCommand_of_meaning.1 path meant)
    exact ⟨unchanged names, by simpa only [meant] using ⟨_, isEnvironment_exported _ _, deeds⟩⟩
  | nothing =>
    have stays : (runExternal start c s).2 = s := by
      rw [runExternal_eq]
      simp only [bind_apply, get_apply, findCommand_of_meaning.2 meant]
      rfl
    exact ⟨unchanged (by simp only [stays]), by simp only [meant, stays]⟩

/-- The words of a command have the values that the call is made with. -/
structure Calls (command : Command) (names : Names Value) (c : Call) : Prop where
  words : c.name :: c.arguments = command.words.map (wordValue names)
  assigned : c.assigned = assignedValues names command.assignments

theorem flushing_state (step : Shell α) (s : ShellState) : (flushing step s).2 = (step s).2 := by
  rw [flushing_apply]
  cases step s with
  | mk result t =>
    cases result with
    | error e => rfl
    | ok a => cases flushed : t.out.flush <;> simp only [flushed]

section Stages

variable {start : Launcher} {capture : String → Shell String} {whole final : Bool}
  {s t : ShellState} {leg : Leg}

/-- A stage that calls a command touches what the call may touch. One of assignments alone sets
variables if it is the whole statement, and otherwise changes nothing. -/
theorem confined_runs {stage : Command}
    (runs : Runs (invoke start) capture whole final stage s leg t)
    (plain : stage.substitutions = []) :
    (stage.words ≠ [] → ∃ c, leg.call = some c ∧ Calls stage s.names c ∧
        Confined start c s t) ∧
      (stage.words = [] → whole = false → t = s) := by
  obtain ⟨command, expanded, words⟩ := prepare_plain capture s plain
  have come {assigned : List (String × String)} {other : Option (String × List String)}
      {m : ShellState} (prepared : prepare capture stage s = (.ok (assigned, other), m)) :
      m = s ∧ assigned = assignedValues s.names stage.assignments ∧
        (other.map fun (name, arguments) => name :: arguments).getD [] =
          stage.words.map (wordValue s.names) := by
    rw [expanded] at prepared
    cases prepared
    exact ⟨rfl, rfl, words⟩
  cases runs with
  | unprepared failed =>
    rw [expanded] at failed
    cases failed
  | assigned prepared =>
    obtain ⟨rfl, rfl, words⟩ := come prepared
    refine ⟨fun worded => ?_, fun _ inner => by simp [inner]⟩
    exact absurd (List.map_eq_nil_iff.mp words.symm) worded
  | @collected c result m u inner prepared ran =>
    obtain ⟨rfl, assigned, words⟩ := come prepared
    refine ⟨fun _ => ⟨c, rfl, ⟨words, assigned⟩, ?_⟩, fun empty => by simp [empty] at words⟩
    have confined := confined_invoke start c { m with out := .memory }
    rw [ran] at confined
    exact ⟨confined.names, confined.deeds⟩
  | @streamed c result bytes m _ last prepared ran grew =>
    obtain ⟨rfl, assigned, words⟩ := come prepared
    refine ⟨fun _ => ⟨c, rfl, ⟨words, assigned⟩, ?_⟩, fun empty => by simp [empty] at words⟩
    have left : (invoke start c m).2 = t := by rw [← flushing_state, ran]
    exact left ▸ confined_invoke start c m

theorem Passage.states {perform : Call → Shell Int32} {stages : List Command} {legs : List Leg}
    (passage : Passage perform capture whole stages s legs t) :
    ∃ states : List ShellState, states.head? = some s ∧ states.getLast? = some t ∧
      states.length = legs.length + 1 ∧
      ∀ i leg, legs[i]? = some leg → ∃ stage before after, stages[i]? = some stage ∧
        states[i]? = some before ∧ states[i + 1]? = some after ∧
        Runs perform capture whole leg.final stage before leg after := by
  induction passage with
  | done s => exact ⟨[s], rfl, rfl, rfl, by simp⟩
  | @stops stage rest s t leg e runs failed =>
    refine ⟨[s, t], rfl, rfl, rfl, fun i other ran => ?_⟩
    obtain ⟨rfl, rfl⟩ : i = 0 ∧ leg = other := by
      cases i with
      | zero => exact ⟨rfl, Option.some.inj ran⟩
      | succ i => cases ran
    exact ⟨stage, s, t, rfl, rfl, rfl, runs.final_eq.symm ▸ runs⟩
  | @goes stage rest s t u leg legs status runs succeeded later ih =>
    obtain ⟨states, first, last, long, steps⟩ := ih
    obtain ⟨more, rfl⟩ := List.head?_eq_some_iff.mp first
    refine ⟨s :: t :: more, rfl, last, by simpa using long, fun i other ran => ?_⟩
    cases i with
    | zero =>
      cases ran
      exact ⟨stage, s, t, rfl, rfl, rfl, runs.final_eq.symm ▸ runs⟩
    | succ i => exact steps i other ran

end Stages

/-- A command without substitutions that is a statement touches what its call may touch, and then
the status is set unless it failed. A run of a pipeline goes from state to state: so does each
command without substitutions in it, and assignments without substitutions change nothing there. -/
theorem commands_scoped (start : Launcher) (capture : String → Shell String) :
    (∀ (command : Command) s, command.words ≠ [] → command.substitutions = [] →
      let r := runProgram (invoke start) capture [.single command] s
      ∃ c t, Calls command s.names c ∧ c.input = none ∧ Confined start c s t ∧
        ((∃ code, r = (.ok (), t.renamed (·.setStatus code))) ∨ ∃ e, r = (.error e, t))) ∧
    ∀ (statement : Statement) s,
      let stages := statement.stages
      let r := runStatement (invoke start) capture statement s
      ∃ (legs : List Leg) (states : List ShellState), states.head? = some s ∧
        states.getLast? = some r.2 ∧ states.length = legs.length + 1 ∧
        r.1 = Leg.lastOutcome (.ok 0) legs ∧
        ∀ i leg, legs[i]? = some leg → ∃ stage before after, stages[i]? = some stage ∧
          states[i]? = some before ∧ states[i + 1]? = some after ∧
          Runs (invoke start) capture (stages.length = 1) leg.final stage before leg after ∧
          (stage.substitutions = [] →
            (stage.words ≠ [] → ∃ c, leg.call = some c ∧ Calls stage before.names c ∧
              Confined start c before after) ∧
            (stage.words = [] → 2 ≤ stages.length → after = before)) := by
  constructor
  · intro command s worded plain r
    obtain ⟨leg, t, runs, reads, ran⟩ :=
      @runs_stage _ capture (appends_invoke start) true command [] none 0 s
    obtain ⟨c, called, calls, confined⟩ := (confined_runs runs plain).1 worded
    refine ⟨c, t, calls, reads c called, confined, ?_⟩
    change runStatement (invoke start) capture (.single command) s = _ at ran
    simp only [r, runProgram, bind_apply, ran]
    cases leg.outcome with
    | ok code => exact .inl ⟨code, rfl⟩
    | error e => exact .inr ⟨e, rfl⟩
  · intro statement s stages r
    obtain ⟨legs, passage, outcome, -, -⟩ := passage_runStages capture (appends_invoke start)
      (stages.length = 1) stages none 0 s
    obtain ⟨states, first, last, long, steps⟩ := passage.states
    refine ⟨legs, states, first, last, long, outcome, fun i leg ran => ?_⟩
    obtain ⟨stage, before, after, here, left, right, runs⟩ := steps i leg ran
    refine ⟨stage, before, after, here, left, right, runs, fun plain => ?_⟩
    obtain ⟨words, bare⟩ := confined_runs runs plain
    exact ⟨words, fun empty several => bare empty (by simp; omega)⟩

/-- The assignment in front of `local` is not seen by its argument, and the one in the pipeline sets
nothing. -/
example :
    let s := ShellContext.enter {} (.ofGlobals (.ofEntries [("y", .text "a")])) .idle
    let t := (evaluate Session.noProgram "y=b local x=$y | z=c" s).2
    ["x", "y", "z"].map t.names.text? = [some "a", some "a", none] := by
  decide +kernel

end Shell

end SessionShell
