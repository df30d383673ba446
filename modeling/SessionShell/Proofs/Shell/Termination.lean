import SessionShell.Proofs.Shell.Depth
import SessionShell.Proofs.Shell.Pipelines
import SessionShell.Proofs.Shell.Substitutions

/-! Evaluation as a relation without a bound: the evaluation of a fragment is put together from that of
its statements, words and substitutions, and code is parsed where its substitution is reached. Every
fragment has exactly one outcome, whatever the names stand for, and no more substitutions lie inside
each other than a third of its length. So the bound of the evaluator never matters. -/

namespace SessionShell.Shell

/-- What is evaluated. -/
inductive Task
  | word (w : Word)
  | words (ws : List Word)
  | values (as : List Assignment)
  | stage (c : Command)
  /-- The stages that are left of a statement, which may be of one stage as a whole. -/
  | stages (whole : Bool) (left : List Command) (input : Option Bytes) (status : Int32)
  | program (p : Program)
  | substitution (code : String)
  | fragment (text : String)

abbrev Task.Result : Task → Type
  | .word _ => String
  | .words _ => List String
  | .values _ => List (String × String)
  | .stage _ => List (String × String) × Option (String × List String)
  | .stages _ _ _ _ => Int32
  | .program _ => Unit
  | .substitution _ => String
  | .fragment _ => Unit

abbrev Outcome (α : Type) : Type :=
  Except Failure α × ShellState

/-- The output of a substitution is put into its word without the newlines at its end. -/
def trimmed (output : String) : String :=
  String.ofList (Text.dropEndWhile (· == '\n') output.toList)

section Terminates

variable (perform : Call → Shell Int32)

/-- The evaluation of a task that begins in the state comes to an end with the outcome. Commands
return, and no more substitutions than the number lie inside each other. -/
inductive Terminates : Nat → (t : Task) → ShellState → Outcome t.Result → Prop
  | emptyWord {n s} : Terminates n (.word []) s (.ok "", s)
  | literal {n text rest s r t} (later : Terminates n (.word rest) s (r, t)) :
    Terminates n (.word (.literal text :: rest)) s (r.map (text ++ ·), t)
  | parameter {n name rest s r t} (later : Terminates n (.word rest) s (r, t)) :
    Terminates n (.word (.parameter name :: rest)) s (r.map ((s.names.text? name).getD "" ++ ·), t)
  | command {n code rest s output m r t}
    (here : Terminates n (.substitution code) s (.ok output, m))
    (later : Terminates n (.word rest) m (r, t)) :
    Terminates n (.word (.command code :: rest)) s (r.map (trimmed output ++ ·), t)
  | commandFails {n code rest s e t} (here : Terminates n (.substitution code) s (.error e, t)) :
    Terminates n (.word (.command code :: rest)) s (.error e, t)
  | noWords {n s} : Terminates n (.words []) s (.ok [], s)
  | moreWords {n w rest s value m r t} (here : Terminates n (.word w) s (.ok value, m))
    (later : Terminates n (.words rest) m (r, t)) :
    Terminates n (.words (w :: rest)) s (r.map (value :: ·), t)
  | wordFails {n w rest s e t} (here : Terminates n (.word w) s (.error e, t)) :
    Terminates n (.words (w :: rest)) s (.error e, t)
  | noValues {n s} : Terminates n (.values []) s (.ok [], s)
  | noValue {n name rest s r t} (later : Terminates n (.values rest) s (r, t)) :
    Terminates n (.values (⟨name, none⟩ :: rest)) s (r.map ((name, "") :: ·), t)
  | moreValues {n name w rest s value m r t} (here : Terminates n (.word w) s (.ok value, m))
    (later : Terminates n (.values rest) m (r, t)) :
    Terminates n (.values (⟨name, some w⟩ :: rest)) s (r.map ((name, value) :: ·), t)
  | valueFails {n name w rest s e t} (here : Terminates n (.word w) s (.error e, t)) :
    Terminates n (.values (⟨name, some w⟩ :: rest)) s (.error e, t)
  | valuesFail {n c s e t} (values : Terminates n (.values c.assignments) s (.error e, t)) :
    Terminates n (.stage c) s (.error e, t)
  | wordless {n c s assigned t} (empty : c.words = [])
    (values : Terminates n (.values c.assignments) s (.ok assigned, t)) :
    Terminates n (.stage c) s (.ok (assigned, none), t)
  | nameFails {n c s assigned m first more e t} (words : c.words = first :: more)
    (values : Terminates n (.values c.assignments) s (.ok assigned, m))
    (name : Terminates n (.word first) m (.error e, t)) :
    Terminates n (.stage c) s (.error e, t)
  | named {n c s assigned m first more name u r t} (words : c.words = first :: more)
    (values : Terminates n (.values c.assignments) s (.ok assigned, m))
    (named : Terminates n (.word first) m (.ok name, u))
    (arguments : Terminates n (.words more) u (r, t)) :
    Terminates n (.stage c) s (r.map fun arguments => (assigned, some (name, arguments)), t)
  | noStages {n whole input status s} :
    Terminates n (.stages whole [] input status) s (.ok status, s)
  | stageFails {n whole c rest input status s e t}
    (stage : Terminates n (.stage c) s (.error e, t)) :
    Terminates n (.stages whole (c :: rest) input status) s (.error e, t)
  | bare {n whole c rest input status s assigned m o}
    (stage : Terminates n (.stage c) s (.ok (assigned, none), m))
    (later : Terminates n (.stages whole rest none 0)
      (if whole then (assignGlobals assigned m).2 else m) o) :
    Terminates n (.stages whole (c :: rest) input status) s o
  | last {n whole c input status s assigned name arguments m}
    (stage : Terminates n (.stage c) s (.ok (assigned, some (name, arguments)), m)) :
    Terminates n (.stages whole [c] input status) s
      (flushing (perform { name, arguments, assigned, input }) m)
  | callFails {n whole c next rest input status s assigned name arguments m e t}
    (stage : Terminates n (.stage c) s (.ok (assigned, some (name, arguments)), m))
    (ran : collecting (perform { name, arguments, assigned, input }) m = (.error e, t)) :
    Terminates n (.stages whole (c :: next :: rest) input status) s (.error e, t)
  /-- The command of a stage returns, and the next stage reads what it wrote. -/
  | piped {n whole c next rest input status s assigned name arguments m given bytes u o}
    (stage : Terminates n (.stage c) s (.ok (assigned, some (name, arguments)), m))
    (ran : collecting (perform { name, arguments, assigned, input }) m = (.ok (given, bytes), u))
    (later : Terminates n (.stages whole (next :: rest) (some bytes) given) u o) :
    Terminates n (.stages whole (c :: next :: rest) input status) s o
  | noStatements {n s} : Terminates n (.program []) s (.ok (), s)
  | moreStatements {n first rest s status m o}
    (here : Terminates n (.stages (first.stages.length = 1) first.stages none 0) s (.ok status, m))
    (later : Terminates n (.program rest) (m.renamed (·.setStatus status)) o) :
    Terminates n (.program (first :: rest)) s o
  | statementFails {n first rest s e t}
    (here : Terminates n (.stages (first.stages.length = 1) first.stages none 0) s (.error e, t)) :
    Terminates n (.program (first :: rest)) s (.error e, t)
  /-- The code of a substitution is parsed when the substitution is reached. -/
  | malformedCode {n code e s} (rejected : parse code = .error e) :
    Terminates (n + 1) (.substitution code) s (.error (.unparsed code e), s)
  | captured {n code p s r t} (parsed : parse code = .ok p)
    (ran : Terminates n (.program p) { s with out := .memory } (r, t)) :
    Terminates (n + 1) (.substitution code) s
      (r.map fun _ => Text.Utf8.decodeLossy t.out.written, { t with out := s.out })
  | malformed {n text e s} (rejected : parse text = .error e) :
    Terminates n (.fragment text) s (.error { cause := .malformed e }, s.renamed Names.resetFrame)
  | ran {n text p s o} (parsed : parse text = .ok p)
    (ran : Terminates n (.program p) (s.renamed Names.resetFrame) o) :
    Terminates n (.fragment text) s o

/-- What the evaluator does, with a bound on how deep substitutions lie inside each other. -/
def Task.run (bound : Nat) : (t : Task) → Shell t.Result
  | .word w => expand (captureWithin perform bound) w
  | .words ws => expandAll (captureWithin perform bound) ws
  | .values as => expandAssignments (captureWithin perform bound) as
  | .stage c => prepare (captureWithin perform bound) c
  | .stages whole left input status =>
    runStages perform (captureWithin perform bound) whole left input status
  | .program p => runProgram perform (captureWithin perform bound) p
  | .substitution code => captureWithin perform bound code
  | .fragment text => do
    changeNames Names.resetFrame
    match parse text with
    | .error e => fail (.malformed e)
    | .ok p => runProgram perform (captureWithin perform bound) p

end Terminates

section Steps

variable {α β : Type} {step : Shell α} {s t : ShellState}

theorem bind_of_ok {next : α → Shell β} {a : α} (ran : step s = (.ok a, t)) :
    (step >>= next) s = next a t := by
  rw [bind_apply, ran]

theorem bind_of_error {next : α → Shell β} {e : Failure} (ran : step s = (.error e, t)) :
    (step >>= next) s = (.error e, t) := by
  rw [bind_apply, ran]

theorem map_of_run {r : Except Failure α} (ran : step s = (r, t)) (f : α → β) :
    (step >>= fun a => pure (f a)) s = (r.map f, t) := by
  rw [bind_apply, ran]
  cases r <;> rfl

end Steps

variable {perform : Call → Shell Int32}

theorem captureWithin_of_run {bound : Nat} {code : String} {p : Program} {s t : ShellState}
    {r : Except Failure Unit} (parsed : parse code = .ok p)
    (ran : runProgram perform (captureWithin perform bound) p { s with out := .memory } = (r, t)) :
    captureWithin perform (bound + 1) code s =
      (r.map fun _ => Text.Utf8.decodeLossy t.out.written, { t with out := s.out }) := by
  rw [captureWithin, parsed]
  refine (map_of_run (collecting_eq _ s) _).trans ?_
  rw [ran]
  cases r <;> rfl

theorem Terminates.run_eq {n : Nat} {t : Task} {s : ShellState} {o : Outcome t.Result}
    (ends : Terminates perform n t s o) {bound : Nat} (enough : n ≤ bound) :
    t.run perform bound s = o := by
  -- the bound gets smaller with each substitution, as the depth does
  induction ends generalizing bound with
  | emptyWord | noWords | noValues | noStages | noStatements => rfl
  | @literal _ text _ _ _ _ _ rest => exact map_of_run (rest enough) (text ++ ·)
  | @parameter _ name _ s _ _ _ rest =>
    exact map_of_run (rest enough) ((s.names.text? name).getD "" ++ ·)
  | command _ _ code rest =>
    have part := map_of_run (code enough) trimmed
    exact (bind_of_ok part).trans (map_of_run (rest enough) _)
  | commandFails _ code =>
    have part := map_of_run (code enough) trimmed
    exact bind_of_error part
  | moreWords _ _ word rest | moreValues _ _ word rest =>
    exact (bind_of_ok (word enough)).trans (map_of_run (rest enough) _)
  | @noValue _ name _ _ _ _ _ rest => exact map_of_run (rest enough) ((name, "") :: ·)
  | wordFails _ word | valueFails _ word => exact bind_of_error (word enough)
  | valuesFail _ values => exact bind_of_error (values enough)
  | wordless empty _ values =>
    refine (bind_of_ok (values enough)).trans ?_
    rw [empty]
    rfl
  | nameFails words _ _ values name =>
    refine (bind_of_ok (values enough)).trans ?_
    rw [words]
    exact bind_of_error (name enough)
  | named words _ _ _ values name arguments =>
    refine (bind_of_ok (values enough)).trans ?_
    rw [words]
    exact (bind_of_ok (name enough)).trans (map_of_run (arguments enough) _)
  | stageFails _ stage =>
    rw [Task.run, runStages_cons]
    exact bind_of_error (stage enough)
  | @bare _ whole _ _ _ _ _ _ _ _ _ _ stage rest =>
    rw [Task.run, runStages_cons]
    refine (bind_of_ok (stage enough)).trans ?_
    cases whole with
    | true => exact (bind_of_ok rfl).trans (rest enough)
    | false => exact rest enough
  | last _ stage =>
    rw [Task.run, runStages_cons]
    exact bind_of_ok (stage enough)
  | callFails _ ran stage =>
    rw [Task.run, runStages_cons]
    exact (bind_of_ok (stage enough)).trans (bind_of_error ran)
  | piped _ ran _ stage rest =>
    rw [Task.run, runStages_cons]
    exact (bind_of_ok (stage enough)).trans ((bind_of_ok ran).trans (rest enough))
  | moreStatements _ _ here rest =>
    refine (bind_of_ok (here enough)).trans ?_
    exact (bind_of_ok rfl).trans (rest enough)
  | statementFails _ here => exact bind_of_error (here enough)
  | malformedCode rejected =>
    obtain ⟨more, rfl⟩ := Nat.exists_eq_add_of_lt enough
    rw [Task.run, captureWithin, rejected]
    rfl
  | captured parsed _ program =>
    obtain ⟨more, rfl⟩ := Nat.exists_eq_add_of_lt enough
    exact captureWithin_of_run parsed (program (Nat.le_add_right _ more))
  | malformed rejected =>
    refine (bind_of_ok rfl).trans ?_
    rw [rejected]
    rfl
  | ran parsed _ program =>
    refine (bind_of_ok rfl).trans ?_
    rw [parsed]
    exact program enough

theorem Terminates.unique {n m : Nat} {t : Task} {s : ShellState} {o o' : Outcome t.Result}
    (first : Terminates perform n t s o) (second : Terminates perform m t s o') : o = o' :=
  (first.run_eq (Nat.le_max_left n m)).symm.trans (second.run_eq (Nat.le_max_right n m))

section Halts

/-- Whatever the state, the evaluation comes to an end. -/
def Halts (perform : Call → Shell Int32) (n : Nat) (t : Task) : Prop :=
  ∀ s, ∃ o, Terminates perform n t s o

variable {n : Nat}

theorem halts_word {w : Word}
    (inside : ∀ code ∈ w.substitutions, Halts perform n (.substitution code)) :
    Halts perform n (.word w) := by
  induction w with
  | nil => exact fun s => ⟨_, .emptyWord⟩
  | cons part rest ih =>
    intro s
    cases part with
    | literal text =>
      obtain ⟨⟨r, t⟩, later⟩ := ih inside s
      exact ⟨_, .literal later⟩
    | parameter name =>
      obtain ⟨⟨r, t⟩, later⟩ := ih inside s
      exact ⟨_, .parameter later⟩
    | command code =>
      obtain ⟨here, behind⟩ := List.forall_mem_cons.mp inside
      obtain ⟨⟨e | output, m⟩, first⟩ := here s
      · exact ⟨_, .commandFails first⟩
      · obtain ⟨⟨r, t⟩, later⟩ := ih behind m
        exact ⟨_, .command first later⟩

theorem halts_words {ws : List Word}
    (inside : ∀ code ∈ ws.flatMap Word.substitutions, Halts perform n (.substitution code)) :
    Halts perform n (.words ws) := by
  induction ws with
  | nil => exact fun s => ⟨_, .noWords⟩
  | cons w rest ih =>
    intro s
    obtain ⟨here, behind⟩ := List.forall_mem_append.mp inside
    obtain ⟨⟨e | value, m⟩, first⟩ := halts_word here s
    · exact ⟨_, .wordFails first⟩
    · obtain ⟨⟨r, t⟩, later⟩ := ih behind m
      exact ⟨_, .moreWords first later⟩

theorem halts_values {as : List Assignment}
    (inside : ∀ code ∈ (as.filterMap (·.value)).flatMap Word.substitutions,
      Halts perform n (.substitution code)) :
    Halts perform n (.values as) := by
  induction as with
  | nil => exact fun s => ⟨_, .noValues⟩
  | cons a rest ih =>
    intro s
    obtain ⟨name, value⟩ := a
    cases value with
    | none =>
      obtain ⟨⟨r, t⟩, later⟩ := ih inside s
      exact ⟨_, .noValue later⟩
    | some w =>
      obtain ⟨here, behind⟩ := List.forall_mem_append.mp inside
      obtain ⟨⟨e | value, m⟩, first⟩ := halts_word here s
      · exact ⟨_, .valueFails first⟩
      · obtain ⟨⟨r, t⟩, later⟩ := ih behind m
        exact ⟨_, .moreValues first later⟩

theorem halts_stage {c : Command}
    (inside : ∀ code ∈ c.substitutions, Halts perform n (.substitution code)) :
    Halts perform n (.stage c) := by
  intro s
  obtain ⟨values, arguments⟩ := c.forall_substitutions.mp inside
  obtain ⟨⟨e | assigned, m⟩, first⟩ := halts_values values s
  · exact ⟨_, .valuesFail first⟩
  cases words : c.words with
  | nil => exact ⟨_, .wordless words first⟩
  | cons name more =>
    rw [words] at arguments
    obtain ⟨here, behind⟩ := List.forall_mem_append.mp arguments
    obtain ⟨⟨e | value, u⟩, second⟩ := halts_word here m
    · exact ⟨_, .nameFails words first second⟩
    · obtain ⟨⟨r, t⟩, third⟩ := halts_words behind u
      exact ⟨_, .named words first second third⟩

theorem halts_stages {whole : Bool} {left : List Command}
    (inside : ∀ code ∈ left.flatMap Command.substitutions, Halts perform n (.substitution code))
    (input : Option Bytes) (status : Int32) :
    Halts perform n (.stages whole left input status) := by
  induction left generalizing input status with
  | nil => exact fun s => ⟨_, .noStages⟩
  | cons c rest ih =>
    intro s
    obtain ⟨here, behind⟩ := List.forall_mem_append.mp inside
    obtain ⟨⟨e | ⟨assigned, _ | ⟨name, arguments⟩⟩, m⟩, stage⟩ := halts_stage here s
    · exact ⟨_, .stageFails stage⟩
    · obtain ⟨o, later⟩ := ih behind none 0 (if whole then (assignGlobals assigned m).2 else m)
      exact ⟨o, .bare stage later⟩
    · cases rest with
      | nil => exact ⟨_, .last stage⟩
      | cons next rest =>
        -- the command returns, whatever it does
        cases ran : collecting (perform { name, arguments, assigned, input }) m with
        | mk r u =>
          rcases r with e | ⟨given, bytes⟩
          · exact ⟨_, .callFails stage ran⟩
          · obtain ⟨o, later⟩ := ih behind (some bytes) given u
            exact ⟨o, .piped stage ran later⟩

theorem halts_program {p : Program}
    (inside : ∀ code ∈ p.substitutions, Halts perform n (.substitution code)) :
    Halts perform n (.program p) := by
  induction p with
  | nil => exact fun s => ⟨_, .noStatements⟩
  | cons first rest ih =>
    intro s
    obtain ⟨here, behind⟩ := List.forall_mem_append.mp inside
    obtain ⟨⟨e | status, m⟩, stages⟩ := halts_stages here none 0 s
    · exact ⟨_, .statementFails stages⟩
    · obtain ⟨o, later⟩ := ih behind (m.renamed (·.setStatus status))
      exact ⟨o, .moreStatements stages later⟩

theorem halts_substitution {code : String} (enough : depthBound code < n) :
    Halts perform n (.substitution code) := by
  induction n generalizing code with
  | zero => cases enough
  | succ n ih =>
    intro s
    cases parsed : parse code with
    | error e => exact ⟨_, .malformedCode parsed⟩
    | ok p =>
      have inside : ∀ inner ∈ p.substitutions, Halts perform n (.substitution inner) := by
        intro inner member
        have lower := depthBound_lt parsed member
        exact ih (by omega)
      obtain ⟨⟨r, t⟩, ran⟩ := halts_program inside { s with out := .memory }
      exact ⟨_, .captured parsed ran⟩

theorem halts_fragment (text : String) : Halts perform (depthBound text) (.fragment text) := by
  intro s
  cases parsed : parse text with
  | error e => exact ⟨_, .malformed parsed⟩
  | ok p =>
    obtain ⟨o, ran⟩ := halts_program (fun _ member =>
      halts_substitution (depthBound_lt parsed member)) (s.renamed Names.resetFrame)
    exact ⟨o, .ran parsed ran⟩

end Halts

/-- The code of a substitution is at least three characters shorter than the text that it stands in, and
values of variables are never parsed. So if commands return, the evaluation of a fragment comes to an
end in every state, with substitutions no deeper inside each other than a third of its length, and it
has one outcome only. -/
theorem evaluation_well_founded (start : Launcher) (text : String) :
    (∀ ts, tokenize text = .ok ts → ∀ w, .word w ∈ ts → ∀ code, .command code ∈ w →
      code.length + 3 ≤ text.length) ∧
    (∀ s, Terminates (invoke start) (text.length / 3) (.fragment text) s (evaluate start text s)) ∧
    ∀ n s o, Terminates (invoke start) n (.fragment text) s o → o = evaluate start text s := by
  have ends (s : ShellState) :
      Terminates (invoke start) (text.length / 3) (.fragment text) s (evaluate start text s) := by
    obtain ⟨o, halts⟩ := halts_fragment text s
    obtain rfl : evaluate start text s = o := halts.run_eq (Nat.le_refl _)
    exact halts
  refine ⟨fun ts lexed w word code command => ?_, ends, fun n s o other => other.unique (ends s)⟩
  have atom : .command code ∈ w.atoms :=
    List.mem_flatMap.mpr ⟨.command code, command, List.mem_singleton_self _⟩
  exact Lexer.nested_tokenize lexed code (List.mem_flatMap.mpr ⟨.word w, word, atom⟩)

/-- A value that looks like a substitution, under two of them. -/
theorem evaluation_well_founded_nested :
    let text := "x='$(a)'; echo $(echo $(echo $x))"
    let s := ShellContext.enter {} (.ofGlobals ∅) .idle
    let ends := evaluate Session.noProgram text s
    (tokenize text = .ok [.assign "x", .word [.literal "$(a)"], .semicolon, .word [.literal "echo"],
        .word [.command "echo $(echo $x)"]] ∧ "echo $(echo $x)".length + 3 ≤ text.length) ∧
      Terminates (invoke Session.noProgram) (text.length / 3) (.fragment text) s ends ∧
      ends.2.out = ⟨.healthy, Text.Utf8.encode "$(a)\n"⟩ := by
  have lexed : tokenize "x='$(a)'; echo $(echo $(echo $x))" = .ok [.assign "x",
      .word [.literal "$(a)"], .semicolon, .word [.literal "echo"],
      .word [.command "echo $(echo $x)"]] := by rfl
  have written : (evaluate Session.noProgram "x='$(a)'; echo $(echo $(echo $x))"
      (ShellContext.enter {} (.ofGlobals ∅) .idle)).2.out = ⟨.healthy, Text.Utf8.encode "$(a)\n"⟩ := by
    decide +kernel
  intro text s ends
  obtain ⟨shorter, halts, -⟩ := evaluation_well_founded Session.noProgram text
  exact ⟨⟨lexed, shorter _ lexed [.command "echo $(echo $x)"] (by simp) _ (by simp)⟩, halts s, written⟩

end SessionShell.Shell
