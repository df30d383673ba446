import Mathlib.Data.List.Chain
import SessionShell.Proofs.Session.LastSeen
import SessionShell.Proofs.Shell.Stream
import SessionShell.Shell.Interpreter

/-! What passes along a pipeline. Its stages run one after the other; a command in it reads what the
command in front of it wrote, and the last one writes to the output stream. Behind a stage of
assignments there is nothing to read, and so a command there reads the input of the machine. -/

namespace SessionShell

namespace Shell

/-- What a stage comes to when its words are expanded: its assignments, and the name and the arguments
of its command if it has one. -/
def prepare (capture : String → Shell String) (stage : Command) :
    Shell (List (String × String) × Option (String × List String)) := do
  let assigned ← expandAssignments capture stage.assignments
  match stage.words with
  | [] => return (assigned, none)
  | first :: more =>
    let name ← expand capture first
    let arguments ← expandAll capture more
    return (assigned, some (name, arguments))

/-- What a stage did: the call that it made if it came to one, what this wrote, and the outcome. -/
structure Leg where
  final : Bool
  call : Option Call := none
  written : Bytes := []
  outcome : Except Failure Int32

namespace Leg

def shown (leg : Leg) : Bytes :=
  if leg.final then leg.written else []

def passed (leg : Leg) : Option Bytes :=
  leg.call.map fun _ => leg.written

def lastOutcome (before : Except Failure Int32) (legs : List Leg) : Except Failure Int32 :=
  legs.foldl (fun _ leg => leg.outcome) before

/-- The second reads what the first passes on. -/
def Feeds (a b : Leg) : Prop :=
  ∀ c ∈ b.call, c.input = a.passed

end Leg

section Running

variable (perform : Call → Shell Int32) (capture : String → Shell String)

inductive Runs (whole final : Bool) (stage : Command) (s : ShellState) : Leg → ShellState → Prop
  | unprepared {e : Failure} {m : ShellState} (failed : prepare capture stage s = (.error e, m)) :
      Runs whole final stage s { final, outcome := .error e } m
  | assigned {assigned : List (String × String)} {m : ShellState}
      (prepared : prepare capture stage s = (.ok (assigned, none), m)) :
      Runs whole final stage s { final, outcome := .ok 0 }
        (if whole then (assignGlobals assigned m).2 else m)
  | collected {c : Call} {result : Except Failure Int32} {m t : ShellState} (inner : final = false)
      (prepared : prepare capture stage s = (.ok (c.assigned, some (c.name, c.arguments)), m))
      (ran : perform c { m with out := .memory } = (result, t)) :
      Runs whole final stage s { final, call := some c, written := t.out.written, outcome := result }
        { t with out := m.out }
  | streamed {c : Call} {result : Except Failure Int32} {bytes : Bytes} {m t : ShellState}
      (last : final = true)
      (prepared : prepare capture stage s = (.ok (c.assigned, some (c.name, c.arguments)), m))
      (ran : flushing (perform c) m = (result, t)) (grew : t.out = m.out.extended bytes) :
      Runs whole final stage s { final, call := some c, written := bytes, outcome := result } t

/-- What may become of stages: they run in order, up to the first one that fails. -/
inductive Passage (whole : Bool) : List Command → ShellState → List Leg → ShellState → Prop
  | done (s : ShellState) : Passage whole [] s [] s
  | stops {stage : Command} {rest : List Command} {s t : ShellState} {leg : Leg} {e : Failure}
      (runs : Runs perform capture whole rest.isEmpty stage s leg t)
      (failed : leg.outcome = .error e) : Passage whole (stage :: rest) s [leg] t
  | goes {stage : Command} {rest : List Command} {s t u : ShellState} {leg : Leg} {legs : List Leg}
      {status : Int32} (runs : Runs perform capture whole rest.isEmpty stage s leg t)
      (succeeded : leg.outcome = .ok status) (later : Passage whole rest t legs u) :
      Passage whole (stage :: rest) s (leg :: legs) u

variable {perform capture}

theorem runStages_cons (whole : Bool) (stage : Command) (rest : List Command) (input : Option Bytes)
    (status : Int32) : runStages perform capture whole (stage :: rest) input status = (do
      let (assigned, command) ← prepare capture stage
      match command with
      | none =>
        if whole then assignGlobals assigned
        runStages perform capture whole rest none 0
      | some (name, arguments) =>
        let call : Call := { name, arguments, assigned, input }
        if rest.isEmpty then flushing (perform call)
        else
          let (status, bytes) ← collecting (perform call)
          runStages perform capture whole rest (some bytes) status) := by
  unfold prepare
  rw [runStages]
  cases stage.words with
  | nil => simp only [bind_assoc, pure_bind]
  | cons first more => simp only [bind_assoc, pure_bind]

theorem runs_stage (performed : ∀ c, Appends (perform c)) (whole : Bool) (stage : Command)
    (rest : List Command) (input : Option Bytes) (status : Int32) (s : ShellState) :
    ∃ leg t, Runs perform capture whole rest.isEmpty stage s leg t ∧
      (∀ c ∈ leg.call, c.input = input) ∧
      runStages perform capture whole (stage :: rest) input status s =
        match leg.outcome with
        | .ok status => runStages perform capture whole rest leg.passed status t
        | .error e => (.error e, t) := by
  rw [runStages_cons, bind_apply]
  cases prepared : prepare capture stage s with
  | mk result m =>
    rcases result with e | ⟨assigned, _ | ⟨name, arguments⟩⟩
    · exact ⟨_, m, .unprepared prepared, by simp, rfl⟩
    · refine ⟨_, _, .assigned prepared, by simp, ?_⟩
      cases whole <;> rfl
    · cases last : rest.isEmpty with
      | true =>
        obtain rfl := List.isEmpty_iff.mp last
        obtain ⟨bytes, grew⟩ := (performed { name, arguments, assigned, input }).flushing m
        cases ran : flushing (perform { name, arguments, assigned, input }) m with
        | mk result t =>
          rw [ran] at grew
          refine ⟨_, t, .streamed rfl prepared ran grew, by simp, ran.trans ?_⟩
          cases result <;> rfl
      | false =>
        cases ran : perform { name, arguments, assigned, input } { m with out := .memory } with
        | mk result t =>
          have collected := collecting_eq (perform { name, arguments, assigned, input }) m
          rw [ran] at collected
          refine ⟨_, _, .collected rfl prepared ran, by simp, ?_⟩
          simp only [Bool.false_eq_true, if_false, bind_apply, collected]
          cases result <;> rfl

variable (capture) in
theorem passage_runStages (performed : ∀ c, Appends (perform c)) (whole : Bool)
    (stages : List Command) (input : Option Bytes) (status : Int32) (s : ShellState) :
    ∃ legs, Passage perform capture whole stages s legs
        (runStages perform capture whole stages input status s).2 ∧
      (runStages perform capture whole stages input status s).1 =
        Leg.lastOutcome (.ok status) legs ∧
      (∀ leg ∈ legs.head?, ∀ c ∈ leg.call, c.input = input) ∧ legs.IsChain Leg.Feeds := by
  induction stages generalizing input status s with
  | nil => exact ⟨[], .done s, rfl, by simp, .nil⟩
  | cons stage rest ih =>
    obtain ⟨leg, t, runs, reads, behind⟩ := runs_stage performed whole stage rest input status s
    rw [behind]
    cases outcome : leg.outcome with
    | error e =>
      exact ⟨[leg], .stops runs outcome, outcome.symm, by simpa using reads, .singleton leg⟩
    | ok status =>
      obtain ⟨legs, passage, last, first, feeds⟩ := ih leg.passed status t
      refine ⟨leg :: legs, .goes runs outcome passage, ?_, by simpa using reads, ?_⟩
      · rw [Leg.lastOutcome, List.foldl_cons, outcome]
        exact last
      · exact List.isChain_cons.mpr ⟨first, feeds⟩

theorem sealed_prepare (captured : ∀ code, Sealed (capture code)) (stage : Command) :
    Sealed (prepare capture stage) := by
  refine (sealed_expandAssignments captured _).bind fun assigned => ?_
  split
  · exact .pure _
  · exact (sealed_expand captured _).bind fun _ => (sealed_expandAll captured _).bind fun _ => .pure _

section Output

variable (captured : ∀ code, Sealed (capture code)) {whole : Bool} {s t : ShellState}
include captured

theorem out_runs {final : Bool} {stage : Command} {leg : Leg}
    (runs : Runs perform capture whole final stage s leg t) : t.out = s.out.extended leg.shown := by
  have same := (sealed_prepare captured stage).out_eq s
  cases runs with
  | unprepared failed =>
    rw [failed] at same
    simpa [Leg.shown] using same
  | @assigned assigned m prepared =>
    rw [prepared] at same
    have kept : (if whole then (assignGlobals assigned m).2 else m).out = m.out := by
      cases whole <;> rfl
    simpa [Leg.shown] using kept.trans same
  | collected inner prepared ran =>
    rw [prepared] at same
    simpa [Leg.shown, inner] using same
  | streamed last prepared ran grew =>
    rw [prepared] at same
    rw [grew, Leg.shown, if_pos last]
    exact congrArg _ same

theorem out_passage {stages : List Command} {legs : List Leg}
    (passage : Passage perform capture whole stages s legs t) :
    t.out = s.out.extended (legs.flatMap Leg.shown) := by
  induction passage with
  | done s => exact s.out.extended_nil.symm
  | stops runs failed => simpa using out_runs captured runs
  | goes runs succeeded later ih =>
    rw [ih, out_runs captured runs, Sink.extended_extended, List.flatMap_cons]

end Output

theorem prepared_eq_none_iff {stage : Command} {s m : ShellState} {assigned : List (String × String)}
    {command : Option (String × List String)}
    (prepared : prepare capture stage s = (.ok (assigned, command), m)) :
    command = none ↔ stage.words = [] := by
  obtain ⟨values, u, -, rest⟩ := bind_eq_ok prepared
  cases words : stage.words with
  | nil =>
    rw [words] at rest
    cases rest
    simp
  | cons first more =>
    rw [words] at rest
    obtain ⟨name, v, -, rest⟩ := bind_eq_ok rest
    obtain ⟨arguments, w, -, rest⟩ := bind_eq_ok rest
    cases rest
    simp

theorem Runs.call_eq_none_iff {whole final : Bool} {stage : Command} {s t : ShellState} {leg : Leg}
    (runs : Runs perform capture whole final stage s leg t) {status : Int32}
    (succeeded : leg.outcome = .ok status) : leg.call = none ↔ stage.words = [] := by
  cases runs with
  | unprepared failed => cases succeeded
  | assigned prepared => simpa using prepared_eq_none_iff prepared
  | collected inner prepared ran => simpa using prepared_eq_none_iff prepared
  | streamed last prepared ran grew => simpa using prepared_eq_none_iff prepared

theorem Passage.call_eq_none_iff {whole : Bool} {stages : List Command} {s t : ShellState}
    {legs : List Leg} (passage : Passage perform capture whole stages s legs t) {i : Nat}
    {stage : Command} {leg : Leg} (here : stages[i]? = some stage) (ran : legs[i]? = some leg)
    (further : i + 1 < legs.length) : leg.call = none ↔ stage.words = [] := by
  induction passage generalizing i with
  | done s => cases ran
  | stops runs failed => simp at further
  | goes runs succeeded later ih =>
    cases i with
    | zero =>
      cases here
      cases ran
      exact runs.call_eq_none_iff succeeded
    | succ i => exact ih here ran (by simpa using further)

theorem Runs.final_eq {whole final : Bool} {stage : Command} {s t : ShellState} {leg : Leg}
    (runs : Runs perform capture whole final stage s leg t) : leg.final = final := by
  cases runs <;> rfl

theorem Passage.final_iff {whole : Bool} {stages : List Command} {s t : ShellState}
    {legs : List Leg} (passage : Passage perform capture whole stages s legs t) {i : Nat} {leg : Leg}
    (ran : legs[i]? = some leg) : leg.final ↔ i + 1 = stages.length := by
  induction passage generalizing i with
  | done s => cases ran
  | stops runs failed =>
    cases i with
    | zero =>
      cases ran
      rw [runs.final_eq]
      simp [List.isEmpty_iff]
    | succ i => cases ran
  | goes runs succeeded later ih =>
    cases i with
    | zero =>
      cases ran
      rw [runs.final_eq]
      simp [List.isEmpty_iff]
    | succ i => simpa using ih ran

end Running

/-- A call in a pipeline reads what the stage in front of it wrote if that stage has words, and the
input of the machine if it consists of assignments. The last stage gives the outcome, and only what
it wrote is shown. -/
theorem pipeline_plumbed (start : Launcher) (depth : Nat) (statement : Statement) (s : ShellState) :
    let capture := captureWithin (invoke start) depth
    let r := runStatement (invoke start) capture statement s
    ∃ legs, Passage (invoke start) capture (statement.stages.length = 1) statement.stages s legs r.2 ∧
      (∀ i stage leg next c, statement.stages[i]? = some stage → legs[i]? = some leg →
        legs[i + 1]? = some next → next.call = some c →
          (c.input = some leg.written ↔ stage.words ≠ []) ∧
          (c.input = none ↔ stage.words = [])) ∧
      r.1 = Leg.lastOutcome (.ok 0) legs ∧
      r.2.out = s.out.extended (legs.flatMap Leg.shown) ∧
      ∀ i leg, legs[i]? = some leg → (leg.final ↔ i + 1 = statement.stages.length) := by
  intro capture r
  obtain ⟨legs, passage, outcome, -, feeds⟩ := passage_runStages capture (appends_invoke start)
    (statement.stages.length = 1) statement.stages none 0 s
  have shown := out_passage (sealed_captureWithin (invoke start) depth) passage
  refine ⟨legs, passage, ?_, outcome, shown, fun i leg ran => passage.final_iff ran⟩
  intro i stage leg next c here ran behind called
  have bound : i + 1 < legs.length := (List.getElem?_eq_some_iff.mp behind).1
  have words := passage.call_eq_none_iff here ran bound
  have input : c.input = leg.passed := by
    obtain ⟨further, rfl⟩ := List.getElem?_eq_some_iff.mp ran
    obtain ⟨_, rfl⟩ := List.getElem?_eq_some_iff.mp behind
    exact List.isChain_iff_getElem.mp feeds i bound c called
  rw [input, Leg.passed]
  cases call : leg.call with
  | none => simpa using words.mp call
  | some d =>
    have worded : stage.words ≠ [] := fun empty => by simp [call, empty] at words
    simpa using worded

/-- Behind an assignment, `cat` writes what waits on the input of the machine. -/
theorem assignment_pipes_nothing :
    let pending := Text.Utf8.encode "secret\n"
    let host : Host := { Host.idle with machine.input := ⟨[], pending⟩ }
    let s := ShellContext.enter {} (.ofGlobals ∅) host
    let r := evaluate Session.noProgram "x=1 | cat" s
    parse "x=1 | cat" = .ok [.pipeline
        [{ assignments := [⟨"x", some [.literal "1"]⟩] }, { words := [[.literal "cat"]] }]] ∧
      r.1.isOk ∧ pending ≠ [] ∧ r.2.out.written = pending ∧
      r.2.host.machine.input = ⟨[], []⟩ := by
  decide +kernel

end Shell

end SessionShell
