import Mathlib.Data.List.Chain
import SessionShell.Proofs.Language.Progress
import SessionShell.Proofs.Session.LastSeen
import SessionShell.Proofs.Shell.Relations

/-! Code in substitutions that does not parse. The parser takes such code as it stands, and it is
parsed when the substitution is reached. Commands parse nothing, so that an error of syntax in a
fragment that parses is one of code inside it, at some depth, and its failure names the code. -/

namespace SessionShell

/-- The code is that of a substitution in the program of the text. -/
def Contains (text code : String) : Prop :=
  ∃ p, parse text = .ok p ∧ code ∈ p.substitutions

/-- The code is that of a substitution in the text, or in the code of one, and so on. -/
abbrev Encloses : String → String → Prop :=
  Relation.TransGen Contains

def Parses (text : String) : Prop :=
  ∃ p, parse text = .ok p

/-- The code of the substitutions in the assignments of a command, and of those in its words. -/
def Command.substitutions (c : Command) : List String :=
  c.allWords.flatMap Word.substitutions

theorem Command.forall_substitutions (c : Command) {P : String → Prop} :
    (∀ code ∈ c.substitutions, P code) ↔
      (∀ code ∈ (c.assignments.filterMap (·.value)).flatMap Word.substitutions, P code) ∧
        ∀ code ∈ c.words.flatMap Word.substitutions, P code := by
  rw [substitutions, allWords, List.flatMap_append, List.forall_mem_append]

namespace Failure

def unparsed (code : String) (e : SyntaxError) : Failure :=
  ⟨["in $(" ++ code ++ ")"], .malformed e⟩

/-- If the failure is about syntax, it is that of code which the text encloses. -/
def Enclosed (text : String) (f : Failure) : Prop :=
  ∀ e, f.cause = .malformed e →
    ∃ code, Encloses text code ∧ parse code = .error e ∧ f = unparsed code e

theorem Ordinary.enclosed {f : Failure} (ordinary : f.Ordinary) (text : String) :
    f.Enclosed text :=
  fun e cause => (ordinary e cause).elim

end Failure

namespace Shell

variable {α β : Type} {good good' : Prop} {bad bad' : Failure → Prop}

/-- A step that ends well shows what is good, and one that fails does so with a bad failure. -/
def Ends (good : Prop) (bad : Failure → Prop) (step : Shell α) : Prop :=
  ∀ s, match (step s).1 with
    | .ok _ => good
    | .error e => bad e

namespace Ends

theorem pure (a : α) (holds : good) : Ends good bad (Pure.pure a : Shell α) :=
  fun _ => holds

theorem throw {e : Failure} (holds : bad e) : Ends good bad (MonadExcept.throw e : Shell α) :=
  fun _ => holds

theorem mono {step : Shell α} (ends : Ends good bad step) (better : good → good')
    (worse : ∀ e, bad e → bad' e) : Ends good' bad' step := by
  intro s
  have here := ends s
  cases result : (step s).1 with
  | ok a =>
    rw [result] at here
    exact better here
  | error e =>
    rw [result] at here
    exact worse e here

theorem bind {step : Shell α} {next : α → Shell β} (first : Ends good bad step)
    (rest : good → ∀ a, Ends good' bad (next a)) : Ends good' bad (step >>= next) := by
  intro s
  have here := first s
  rw [bind_apply]
  cases ran : step s with
  | mk result t =>
    rw [ran] at here
    cases result with
    | ok a => exact rest here a t
    | error e => exact here

theorem inspect {next : ShellState → Shell β} (rest : ∀ s, Ends good bad (next s)) :
    Ends good bad (get >>= next) :=
  fun s => rest s s

theorem modifying (f : ShellState → ShellState) : Ends True bad (modify f : Shell Unit) :=
  fun _ => trivial

theorem collecting {step : Shell α} (ends : Ends good bad step) :
    Ends good bad (Shell.collecting step) := by
  intro s
  have here := ends { s with out := .memory }
  unfold Shell.collecting
  cases ran : step { s with out := .memory } with
  | mk result t =>
    rw [ran] at here
    cases result <;> exact here

theorem flushing {step : Shell α} (ends : Ends good bad step)
    (io : ∀ e, bad { cause := .io e }) : Ends good bad (Shell.flushing step) := by
  intro s
  have here := ends s
  rw [Shell.flushing_apply]
  cases ran : step s with
  | mk result t =>
    rw [ran] at here
    cases result with
    | error e => exact here
    | ok a =>
      cases flushed : t.out.flush with
      | ok done => simpa only [flushed] using here
      | error e => simpa only [flushed] using io e

theorem orElseWith {step : Shell α} {handle : Failure → Shell α}
    (handled : ∀ e, Ends True bad (handle e)) : Ends True bad (step.orElseWith handle) := by
  intro s
  unfold Shell.orElseWith
  cases step s with
  | mk result t =>
    cases result with
    | ok a => trivial
    | error e => exact handled e t

theorem write (bytes : Bytes) : Ends True Failure.OfCommand (Shell.write bytes) := by
  refine inspect fun s => ?_
  have written : Ends True Failure.OfCommand (ofIo (s.out.write bytes)) := by
    cases s.out.write bytes with
    | ok out => exact pure out trivial
    | error e => exact throw trivial
  exact written.bind fun _ _ => modifying _

theorem closed : Closed fun _ step => Ends True Failure.OfCommand step where
  pure a := pure a trivial
  throw := throw
  bind first rest := first.bind fun _ => rest
  orElseWith _ := orElseWith
  inspect _ := inspect
  modifying _ _ _ := modifying _
  changing _ _ := modifying _
  write := write

end Ends

theorem ends_invoke (start : Launcher) (c : Call) :
    Ends True Failure.OfCommand (invoke start c) :=
  closed_invoke Ends.closed start c

section Words

variable {capture : String → Shell String} {Good : String → Prop}

theorem ends_expand {w : Word}
    (captured : ∀ code ∈ w.substitutions, Ends (Good code) bad (capture code)) :
    Ends (∀ code ∈ w.substitutions, Good code) bad (expand capture w) := by
  induction w with
  | nil => exact .pure _ (List.forall_mem_nil _)
  | cons part rest ih =>
    cases part with
    | literal text => exact .bind (.pure text trivial) fun _ _ =>
        (ih captured).bind fun later _ => .pure _ later
    | parameter name => exact .bind (.inspect fun _ => .pure _ trivial) fun _ _ =>
        (ih captured).bind fun later _ => .pure _ later
    | command code =>
      obtain ⟨here, behind⟩ := List.forall_mem_cons.mp captured
      refine .bind (here.bind fun first _ => .pure _ first) fun first _ =>
        (ih behind).bind fun later _ => .pure _ ?_
      exact List.forall_mem_cons.mpr ⟨first, later⟩

theorem ends_expandAll {ws : List Word}
    (captured : ∀ code ∈ ws.flatMap Word.substitutions, Ends (Good code) bad (capture code)) :
    Ends (∀ code ∈ ws.flatMap Word.substitutions, Good code) bad (expandAll capture ws) := by
  induction ws with
  | nil => exact .pure _ (List.forall_mem_nil _)
  | cons w rest ih =>
    obtain ⟨here, behind⟩ := List.forall_mem_append.mp captured
    refine (ends_expand here).bind fun first _ => (ih behind).bind fun later _ => .pure _ ?_
    exact List.forall_mem_append.mpr ⟨first, later⟩

theorem ends_expandAssignments {as : List Assignment}
    (captured : ∀ code ∈ (as.filterMap (·.value)).flatMap Word.substitutions,
      Ends (Good code) bad (capture code)) :
    Ends (∀ code ∈ (as.filterMap (·.value)).flatMap Word.substitutions, Good code) bad
      (expandAssignments capture as) := by
  induction as with
  | nil => exact .pure _ (List.forall_mem_nil _)
  | cons a rest ih =>
    obtain ⟨name, value⟩ := a
    cases value with
    | none => exact .bind (.pure _ trivial) fun _ _ =>
        (ih captured).bind fun later _ => .pure _ later
    | some w =>
      obtain ⟨here, behind⟩ := List.forall_mem_append.mp captured
      refine (ends_expand here).bind fun first _ => (ih behind).bind fun later _ => .pure _ ?_
      exact List.forall_mem_append.mpr ⟨first, later⟩

variable {perform : Call → Shell Int32} (performed : ∀ c, Ends True bad (perform c))
  (io : ∀ e, bad { cause := .io e })
include performed io

theorem ends_runStages (whole : Bool) {stages : List Command}
    (captured : ∀ code ∈ stages.flatMap Command.substitutions, Ends (Good code) bad (capture code))
    (input : Option Bytes) (status : Int32) :
    Ends (∀ code ∈ stages.flatMap Command.substitutions, Good code) bad
      (runStages perform capture whole stages input status) := by
  induction stages generalizing input status with
  | nil => exact .pure _ (List.forall_mem_nil _)
  | cons stage rest ih =>
    obtain ⟨here, behind⟩ := List.forall_mem_append.mp captured
    obtain ⟨values, words⟩ := stage.forall_substitutions.mp here
    unfold runStages
    refine (ends_expandAssignments values).bind fun assigned _ => ?_
    have joined (named : ∀ code ∈ stage.words.flatMap Word.substitutions, Good code)
        (later : ∀ code ∈ rest.flatMap Command.substitutions, Good code) :
        ∀ code ∈ (stage :: rest).flatMap Command.substitutions, Good code :=
      List.forall_mem_append.mpr ⟨stage.forall_substitutions.mpr ⟨assigned, named⟩, later⟩
    cases parts : stage.words with
    | nil =>
      rw [parts] at joined
      have bare := (ih behind none 0).mono (joined (List.forall_mem_nil _)) fun _ => id
      dsimp only
      split
      · exact .bind (.modifying _) fun _ _ => bare
      · exact bare
    | cons first more =>
      rw [parts] at words joined
      obtain ⟨name, arguments⟩ := List.forall_mem_append.mp words
      refine (ends_expand name).bind fun named _ => (ends_expandAll arguments).bind fun given _ => ?_
      have expanded := joined (List.forall_mem_append.mpr ⟨named, given⟩)
      dsimp only
      split
      · rename_i last
        obtain rfl : rest = [] := List.isEmpty_iff.mp last
        exact ((performed _).flushing io).mono (fun _ => expanded (List.forall_mem_nil _)) fun _ => id
      · exact (performed _).collecting.bind fun _ _ => (ih behind _ _).mono expanded fun _ => id

theorem ends_runProgram {program : Program}
    (captured : ∀ code ∈ program.substitutions, Ends (Good code) bad (capture code)) :
    Ends (∀ code ∈ program.substitutions, Good code) bad (runProgram perform capture program) := by
  induction program with
  | nil => exact .pure _ (List.forall_mem_nil _)
  | cons s rest ih =>
    obtain ⟨here, behind⟩ := List.forall_mem_append.mp captured
    refine (ends_runStages performed io _ here _ _).bind fun first _ => .bind (.modifying _) fun _ _ => ?_
    exact (ih behind).mono (fun later => List.forall_mem_append.mpr ⟨first, later⟩) fun _ => id

end Words

section Fragments

variable {perform : Call → Shell Int32} {text : String}

/-- Code that ends well parses, and so does what it encloses. -/
def Sound (code : String) : Prop :=
  Parses code ∧ ∀ inner, Encloses code inner → Parses inner

theorem sound_of_substitutions {code : String} {p : Program} (parsed : parse code = .ok p)
    (inside : ∀ inner ∈ p.substitutions, Sound inner) : Sound code := by
  refine ⟨⟨p, parsed⟩, fun inner encloses => ?_⟩
  obtain ⟨outer, ⟨q, parsed', member⟩, later⟩ := Relation.TransGen.head'_iff.mp encloses
  rw [parsed] at parsed'
  cases parsed'
  have sound := inside outer member
  rcases Relation.reflTransGen_iff_eq_or_transGen.mp later with rfl | deeper
  · exact sound.1
  · exact sound.2 inner deeper

section Enclosed

variable (performed : ∀ c, Ends True Failure.Ordinary (perform c))
include performed

theorem ends_inside {p : Program} {capture : String → Shell String}
    (captured : ∀ code ∈ p.substitutions,
      Ends (Sound code) (Failure.Enclosed text) (capture code)) :
    Ends (∀ code ∈ p.substitutions, Sound code) (Failure.Enclosed text)
      (runProgram perform capture p) := by
  refine ends_runProgram (fun c => ?_) (fun e => ?_) captured
  · exact (performed c).mono id fun e ordinary => ordinary.enclosed text
  · exact (Failure.ordinary_io [] e).enclosed text

theorem ends_captureWithin (depth : Nat) {code : String} (enclosed : Encloses text code) :
    Ends (Sound code) (Failure.Enclosed text) (captureWithin perform depth code) := by
  induction depth generalizing code with
  | zero => exact .throw fun e same => by cases same
  | succ depth ih =>
    unfold captureWithin
    cases parsed : parse code with
    | error e =>
      refine .throw fun e' same => ?_
      cases same
      exact ⟨code, enclosed, parsed, rfl⟩
    | ok program =>
      have ran := ends_inside performed fun inner member =>
        ih (enclosed.tail ⟨program, parsed, member⟩)
      exact ran.collecting.bind fun inside _ => .pure _ (sound_of_substitutions parsed inside)

end Enclosed

theorem ends_evaluate (start : Launcher) (parses : Parses text) :
    Ends (Sound text) (Failure.Enclosed text) (evaluate start text) := by
  obtain ⟨p, parsed⟩ := parses
  -- commands do not fail by an error of syntax
  have performed (c : Call) : Ends True Failure.Ordinary (invoke start c) :=
    (ends_invoke start c).mono id fun _ command => command.ordinary
  have ran := ends_inside performed fun code member =>
    ends_captureWithin performed (depthBound text) (.single ⟨p, parsed, member⟩)
  unfold evaluate evaluateWith
  refine .bind (.modifying _) fun _ _ => ?_
  rw [parsed]
  exact ran.mono (sound_of_substitutions parsed) fun _ => id

end Fragments

/-- Code in substitutions is parsed when it is reached. A fragment that parses fails with an error of
syntax only where code that it encloses does not parse, and its failure names this code. There is no
such failure if all of the code parses, and if the fragment ends well, all of it does. -/
theorem enclosed_code_parsed_late (start : Launcher) {text : String} (parses : Parses text)
    (s : ShellState) :
    (∀ f e, (evaluate start text s).1 = .error f → f.cause = .malformed e →
      ∃ code, Encloses text code ∧ parse code = .error e ∧ f = .unparsed code e) ∧
    ((∀ code, Encloses text code → Parses code) →
      ∀ f, (evaluate start text s).1 = .error f → f.Ordinary) ∧
    ((evaluate start text s).1 = .ok () → ∀ code, Encloses text code → Parses code) := by
  have ends := ends_evaluate start parses s
  have blamed : ∀ f, (evaluate start text s).1 = .error f → f.Enclosed text := by
    intro f failed
    rw [failed] at ends
    exact ends
  refine ⟨fun f e failed cause => blamed f failed e cause, ?_, ?_⟩
  · intro sound f failed e cause
    obtain ⟨code, encloses, malformed, -⟩ := blamed f failed e cause
    obtain ⟨p, parsed⟩ := sound code encloses
    rw [malformed] at parsed
    cases parsed
  · intro succeeded
    rw [succeeded] at ends
    exact ends.2

/-- Two substitutions deep stands a pipe without commands. What is in front of it has run. -/
theorem enclosed_code_parsed_late_nested :
    let text := "echo a; x=\"$(echo b; y=$(|))\"; echo c"
    let s := ShellContext.enter {} (.ofGlobals ∅) .idle
    let ran := evaluate Session.noProgram text s
    Parses text ∧ ran.1 = .error (.unparsed "|" (.parse .emptyCommand)) ∧
      ran.2.out = ⟨.healthy, Text.Utf8.encode "a\n"⟩ ∧
      ∃ code, Encloses text code ∧ parse code = .error (.parse .emptyCommand) := by
  intro text s ran
  have parses : Parses text :=
    ⟨[.single { words := [[.literal "echo"], [.literal "a"]] },
      .single { assignments := [⟨"x", some [.command "echo b; y=$(|)"]⟩] },
      .single { words := [[.literal "echo"], [.literal "c"]] }], by decide +kernel⟩
  have failed : ran.1 = .error (.unparsed "|" (.parse .emptyCommand)) := by decide +kernel
  obtain ⟨code, encloses, refused, -⟩ :=
    (enclosed_code_parsed_late Session.noProgram parses s).1 _ _ failed rfl
  exact ⟨parses, failed, by decide +kernel, code, encloses, refused⟩

/-- The parser takes a substitution with only a pipe in it, and evaluation refuses it. -/
theorem enclosed_code_unchecked :
    let text := "echo $(|)"
    let s := ShellContext.enter {} (.ofGlobals ∅) .idle
    Parses text ∧ Encloses text "|" ∧ ¬ Parses "|" ∧
      (evaluate Session.noProgram text s).1 = .error (.unparsed "|" (.parse .emptyCommand)) := by
  intro text s
  have parsed : parse text = .ok [.single { words := [[.literal "echo"], [.command "|"]] }] := by
    decide +kernel
  have refused : parse "|" = .error (.parse .emptyCommand) := by decide +kernel
  refine ⟨⟨_, parsed⟩, .single ⟨_, parsed, List.mem_singleton_self _⟩, ?_, by decide +kernel⟩
  rintro ⟨p, accepted⟩
  rw [refused] at accepted
  cases accepted

end Shell

end SessionShell
