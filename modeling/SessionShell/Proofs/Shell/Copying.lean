import SessionShell.Proofs.Shell.Builtins
import SessionShell.Proofs.Shell.Scoping
import SessionShell.Proofs.Text.Utf8

/-! What `cat` copies. A pipeline that goes on into another command does what it did before, with
its output collected, and then runs the command; and no command looks at the stream that it writes
to. So behind a pipeline, as behind the input and behind files, `cat` writes the bytes that it is
given, if they are text. -/

namespace SessionShell

open Text.Utf8

def Statement.into (p : Statement) (stage : Command) : Statement :=
  .ofStages (p.stages ++ [stage])

def Command.cat : Command := { words := [[.literal "cat"]] }

def ShellState.drained (s : ShellState) : Option Bytes → ShellState
  | some _ => s
  | none => { s with host.machine.input := s.host.machine.input.readAll.2 }

@[simp] theorem Sink.extended_inj {o : Sink} {first second : Bytes} :
    o.extended first = o.extended second ↔ first = second := by
  simp [extended]

namespace Shell

variable {α β : Type}

/-- The step does the same on every stream that takes what is written. -/
def Oblivious (step : Shell α) : Prop :=
  ∀ s : ShellState, ∃ (result : Except Failure α) (bytes : Bytes) (t : ShellState),
    ∀ out : Sink, out.temper ≠ .refusing →
      step { s with out } = (result, { t with out := out.extended bytes })

namespace Oblivious

theorem pure (a : α) : Oblivious (Pure.pure a : Shell α) :=
  fun s => ⟨.ok a, [], s, fun out _ => by simp⟩

theorem throw (e : Failure) : Oblivious (MonadExcept.throw e : Shell α) :=
  fun s => ⟨.error e, [], s, fun out _ => by simp⟩

theorem bind {step : Shell α} {next : α → Shell β} (first : Oblivious step)
    (rest : ∀ a, Oblivious (next a)) : Oblivious (step >>= next) := by
  intro s
  obtain ⟨result, bytes, t, ran⟩ := first s
  cases result with
  | error e =>
    refine ⟨.error e, bytes, t, ?_⟩
    intro out accepts
    rw [bind_apply, ran out accepts]
  | ok a =>
    obtain ⟨result, more, u, later⟩ := rest a t
    refine ⟨result, bytes ++ more, u, ?_⟩
    intro out accepts
    rw [bind_apply, ran out accepts]
    exact (later _ (by exact accepts)).trans (by simp)

theorem inspect {next : ShellState → Shell β} (blind : ∀ s out, next { s with out } = next s)
    (rest : ∀ s, Oblivious (next s)) : Oblivious (get >>= next) := by
  intro s
  obtain ⟨result, bytes, t, ran⟩ := rest s s
  refine ⟨result, bytes, t, ?_⟩
  intro out accepts
  rw [bind_apply, get_apply]
  dsimp only
  rw [blind]
  exact ran out accepts

theorem modifying {f : ShellState → ShellState}
    (blind : ∀ s out, f { s with out } = { f s with out }) :
    Oblivious (modify f : Shell Unit) := by
  intro s
  refine ⟨.ok (), [], f s, ?_⟩
  intro out _
  rw [modify_apply, blind, Sink.extended_nil]

theorem write (bytes : Bytes) : Oblivious (Shell.write bytes) :=
  fun s => ⟨.ok (), bytes, s, fun _ accepts => write_accepted (by exact accepts) bytes⟩

end Oblivious

theorem oblivious_callNative (native : Native) (c : Call) : Oblivious (callNative native c) := by
  rw [callNative_eq]
  refine .inspect (fun _ _ => rfl) ?_
  intro s
  refine .bind (.modifying fun _ _ => rfl) fun _ => .bind (.write _) fun _ =>
    .bind (.modifying fun _ _ => rfl) fun _ => ?_
  cases (native.reply s.deeds c.arguments).outcome with
  | ok status => exact .pure status
  | error message => exact .throw _

theorem oblivious_runExternal (start : Launcher) (c : Call) : Oblivious (runExternal start c) := by
  rw [runExternal_eq]
  refine .inspect (fun _ _ => rfl) ?_
  intro s
  split
  · exact .throw _
  · refine .bind (.modifying fun _ _ => rfl) fun _ => ?_
    split
    · exact .throw _
    · exact .bind (.write _) fun _ => .bind (.modifying fun _ _ => rfl) fun _ => .pure _

theorem oblivious_builtin (b : Builtin) (args : List String) (input : Option Bytes) :
    Oblivious (b.run args input) := by
  intro s
  obtain ⟨status, bytes, names, left, -, -, -, ran⟩ := b.run_eq_answer args input s
  refine ⟨.ok status, bytes, { s with names, host.machine.input := left }, ?_⟩
  intro out accepts
  rw [ran out]
  exact answer_accepted status bytes accepts

theorem oblivious_invoke (start : Launcher) (c : Call) : Oblivious (invoke start c) := by
  intro s
  obtain ⟨step, oblivious, same⟩ : ∃ step : Shell Int32, Oblivious step ∧
      ∀ out, invoke start c { s with out } = step { s with out } := by
    have ran (out : Sink) := invoke_eq start c { s with out }
    have meant (out : Sink) : meaning { s with out } c.name = meaning s c.name := rfl
    cases here : meaning s c.name with
    | native native =>
      exact ⟨_, oblivious_callNative native c, fun out => by rw [ran, meant, here]⟩
    | builtin b => exact ⟨_, oblivious_builtin b _ _, fun out => by rw [ran, meant, here]⟩
    | program path => exact ⟨_, oblivious_runExternal start c, fun out => by rw [ran, meant, here]⟩
    | nothing => exact ⟨_, oblivious_runExternal start c, fun out => by rw [ran, meant, here]⟩
  obtain ⟨result, bytes, t, ran⟩ := oblivious s
  refine ⟨result, bytes, t, ?_⟩
  intro out accepts
  rw [same, ran out accepts]

/-- What the step leaves is the same on every stream, but for what it shows there. A stream that
refuses stays as it is. -/
def Shows (step : Shell α) : Prop :=
  ∀ s : ShellState, ∃ (bytes : Bytes) (t : ShellState),
    (∀ out : Sink, out.temper ≠ .refusing →
      (step { s with out }).2 = { t with out := out.extended bytes }) ∧
    ∀ out : Sink, out.temper = .refusing → (step { s with out }).2.out = out

theorem Sealed.shows {step : Shell α} (isSealed : Sealed step) : Shows step := by
  intro s
  refine ⟨[], (step s).2, ?_, ?_⟩
  · intro out _
    rw [isSealed s out, Sink.extended_nil]
  · intro out _
    rw [isSealed s out]

theorem Sealed.bind_shows {step : Shell α} {next : α → Shell β} (isSealed : Sealed step)
    (rest : ∀ a, Shows (next a)) : Shows (step >>= next) := by
  intro s
  cases here : step s with
  | mk result t =>
    have ran (out : Sink) : step { s with out } = (result, { t with out }) := by
      rw [isSealed s out, here]
    cases result with
    | error e =>
      refine ⟨[], t, ?_, ?_⟩
      · intro out _
        rw [bind_apply, ran, Sink.extended_nil]
      · intro out _
        rw [bind_apply, ran]
    | ok a =>
      obtain ⟨bytes, u, accepted, refused⟩ := rest a t
      refine ⟨bytes, u, ?_, ?_⟩
      · intro out accepts
        rw [bind_apply, ran]
        exact accepted out accepts
      · intro out refuses
        rw [bind_apply, ran]
        exact refused out refuses

theorem closed_refused : Closed fun _ step => ∀ s : ShellState, s.out.temper = .refusing →
    (step s).2.out = s.out where
  pure _ _ _ := rfl
  throw _ _ _ := rfl
  bind first rest := by
    intro s refuses
    have same := first s refuses
    rw [bind_apply]
    split
    · rename_i a t ran
      rw [ran] at same
      exact (rest a t (by rw [same]; exact refuses)).trans same
    · rename_i e t ran
      rw [ran] at same
      exact same
  orElseWith first handled := by
    intro s refuses
    have same := first s refuses
    unfold orElseWith
    split
    · rename_i a t ran
      rw [ran] at same
      exact same
    · rename_i e t ran
      rw [ran] at same
      exact (handled e t (by rw [same]; exact refuses)).trans same
  inspect _ rest s refuses := rest s s refuses
  modifying _ same _ s _ := same s
  changing _ _ _ _ := rfl
  write bytes s refuses := by rw [write_refused refuses]

theorem shows_flushing_invoke (start : Launcher) (c : Call) :
    Shows (flushing (invoke start c)) := by
  intro s
  obtain ⟨result, bytes, t, ran⟩ := oblivious_invoke start c s
  refine ⟨bytes, t, ?_, ?_⟩
  · intro out accepts
    rw [flushing_state, ran out accepts]
  · intro out refuses
    rw [flushing_state]
    exact closed_invoke closed_refused start c _ refuses

section Collecting

variable {step : Shell α}

theorem collecting_flushing (appends : Appends step) :
    collecting (flushing step) = collecting step := by
  funext s
  obtain ⟨bytes, grew⟩ := appends { s with out := .memory }
  unfold collecting
  rw [flushing_apply]
  cases here : step { s with out := .memory } with
  | mk result t =>
    rw [here] at grew
    cases result with
    | error e => rfl
    | ok a =>
      have flushed : t.out.flush = .ok () := by
        rw [grew]
        rfl
      simp only [flushed]

theorem collecting_bind (isSealed : Sealed step) (next : α → Shell β) :
    collecting (step >>= next) = step >>= fun a => collecting (next a) := by
  funext s
  have same := isSealed.out_eq s
  unfold collecting
  simp only [bind_apply, isSealed s .memory]
  cases here : step s with
  | mk result t =>
    rw [here] at same
    dsimp only at same
    cases result with
    | error e => simp only [← same]
    | ok a => simp only [← same]

end Collecting

/-- What assignments do that are no command. -/
def settle (whole : Bool) (assigned : List (String × String)) : Shell Unit :=
  if whole then assignGlobals assigned else pure ()

theorem sealed_settle (whole : Bool) (assigned : List (String × String)) :
    Sealed (settle whole assigned) := by
  cases whole <;> exact fun _ _ => rfl

section Stages

variable {perform : Call → Shell Int32} {capture : String → Shell String}

theorem runStages_settle (whole : Bool) (stage : Command) (rest : List Command)
    (input : Option Bytes) (status : Int32) :
    runStages perform capture whole (stage :: rest) input status =
      prepare capture stage >>= fun prepared =>
        match prepared.2 with
        | none => settle whole prepared.1 >>= fun _ =>
            runStages perform capture whole rest none 0
        | some (name, arguments) =>
          let call : Call := { name, arguments, assigned := prepared.1, input }
          if rest.isEmpty then flushing (perform call)
          else collecting (perform call) >>= fun collected =>
            runStages perform capture whole rest (some collected.2) collected.1 := by
  rw [runStages_cons]
  congr 1
  funext prepared
  obtain ⟨assigned, _ | ⟨name, arguments⟩⟩ := prepared
  · cases whole <;> rfl
  · rfl

theorem bind_prepare_congr {last : Command} (worded : last.words ≠ [])
    {f g : List (String × String) × Option (String × List String) → Shell β}
    (same : ∀ assigned command, f (assigned, some command) = g (assigned, some command)) :
    prepare capture last >>= f = prepare capture last >>= g := by
  funext s
  rw [bind_apply, bind_apply]
  cases prepared : prepare capture last s with
  | mk result m =>
    rcases result with e | ⟨assigned, _ | command⟩
    · rfl
    · exact absurd ((prepared_eq_none_iff prepared).mp rfl) worded
    · exact congrFun (same assigned command) m

theorem runStages_whole {last : Command} (worded : last.words ≠ []) (whole : Bool)
    (input : Option Bytes) (status : Int32) :
    runStages perform capture whole [last] input status =
      runStages perform capture false [last] input status := by
  rw [runStages_settle, runStages_settle]
  exact bind_prepare_congr worded fun _ _ => rfl

variable (captured : ∀ code, Sealed (capture code)) {whole : Bool}
include captured

theorem shows_runStages (shown : ∀ c, Shows (flushing (perform c))) (stages : List Command) :
    ∀ input status, Shows (runStages perform capture whole stages input status) := by
  induction stages with
  | nil =>
    intro input status
    exact Sealed.shows (.pure status)
  | cons stage rest ih =>
    intro input status
    rw [runStages_settle]
    refine (sealed_prepare captured stage).bind_shows ?_
    rintro ⟨assigned, _ | ⟨name, arguments⟩⟩
    · exact (sealed_settle whole assigned).bind_shows fun _ => ih none 0
    · dsimp only
      split
      · exact shown _
      · exact (Sealed.collecting _).bind_shows fun _ => ih _ _

/-- The stages of a pipeline that goes on do what they did before, with their output collected for
the next one. -/
theorem runStages_concat (performed : ∀ c, Appends (perform c)) {last : Command}
    (worded : last.words ≠ []) (next : Command) (front : List Command) :
    ∀ input status, runStages perform capture whole (front ++ [last, next]) input status =
      collecting (runStages perform capture whole (front ++ [last]) input status) >>=
        fun collected => runStages perform capture whole [next] (some collected.2) collected.1 := by
  induction front with
  | nil =>
    intro input status
    rw [List.nil_append, List.nil_append, runStages_settle, runStages_settle whole last [],
      collecting_bind (sealed_prepare captured last), bind_assoc]
    apply bind_prepare_congr worded
    intro assigned command
    simp only [List.isEmpty_nil, List.isEmpty_cons, if_true, Bool.false_eq_true, if_false,
      collecting_flushing (performed _)]
  | cons stage rest ih =>
    intro input status
    have more (stage : Command) (back : List Command) :
        (rest ++ stage :: back).isEmpty = false := by
      simp
    rw [List.cons_append, List.cons_append, runStages_settle, runStages_settle,
      collecting_bind (sealed_prepare captured stage), bind_assoc]
    congr 1
    funext ⟨assigned, command⟩
    cases command with
    | none =>
      dsimp only
      rw [collecting_bind (sealed_settle whole assigned), bind_assoc]
      congr 1
      funext _
      exact ih none 0
    | some command =>
      simp only [more, Bool.false_eq_true, if_false]
      rw [collecting_bind (Sealed.collecting _), bind_assoc]
      congr 1
      funext collected
      exact ih (some collected.2) collected.1

/-- A pipeline that goes on does what it did before, with its output collected for the next one. -/
theorem runStatement_into (performed : ∀ c, Appends (perform c)) {p : Statement}
    (worded : ∃ last ∈ p.stages.getLast?, last.words ≠ []) (next : Command) :
    runStatement perform capture (p.into next) =
      collecting (runStatement perform capture p) >>= fun collected =>
        runStages perform capture false [next] (some collected.2) collected.1 := by
  obtain ⟨last, isLast, worded⟩ := worded
  obtain ⟨front, stages⟩ := List.getLast?_eq_some_iff.mp isLast
  have joined : (p.into next).stages = front ++ [last, next] := by
    simp [Statement.into, stages]
  have before : runStatement perform capture p =
      runStages perform capture false (front ++ [last]) none 0 := by
    rw [runStatement, stages]
    cases front with
    | nil => exact runStages_whole worded _ none 0
    | cons stage rest =>
      have several : decide ((stage :: rest ++ [last]).length = 1) = false := by simp
      rw [several]
  have several : decide ((front ++ [last, next]).length = 1) = false := by simp
  rw [before, runStatement, joined, several]
  exact runStages_concat captured performed worded next front none 0

end Stages

theorem prepare_cat (capture : String → Shell String) (s : ShellState) :
    prepare capture .cat s = (.ok ([], some ("cat", [])), s) := rfl

theorem runStages_cat {start : Launcher} {capture : String → Shell String} {s : ShellState}
    (meant : meaning s "cat" = .builtin .cat) (input : Option Bytes) (status : Int32) :
    runStages (invoke start) capture false [.cat] input status s =
      flushing (Builtin.cat.run [] input) s := by
  have ran : invoke start { name := "cat", arguments := [], input } s =
      Builtin.cat.run [] input s := by
    rw [invoke_eq, meant]
  rw [runStages_settle, bind_apply, prepare_cat]
  simp only [List.isEmpty_nil, if_true, flushing_apply, ran]

end Shell

namespace Builtin

open Shell

variable {s : ShellState}

theorem inputs_given (input : Option Bytes) (s : ShellState) :
    inputs [] input s =
      match decode? (input.getD s.host.machine.input.readAll.1) with
      | some text => (.ok [(none, text)], s.drained input)
      | none => (.error { cause := .io .notText }, s.drained input) := by
  have given (bytes : Bytes) (t : ShellState) : inputs [] (some bytes) t =
      match decode? bytes with
      | some text => (.ok [(none, text)], t)
      | none => (.error { cause := .io .notText }, t) := by
    simp only [inputs, readText, bind_apply, pure_apply]
    cases decode? bytes <;> rfl
  cases input with
  | some bytes => exact given bytes s
  | none => exact given _ (s.drained none)

theorem cat_given (input : Option Bytes) (s : ShellState) :
    let bytes := input.getD s.host.machine.input.readAll.1
    (IsText bytes → Builtin.cat.run [] input s = answer 0 bytes (s.drained input)) ∧
      (¬ IsText bytes → ∃ message,
        Builtin.cat.run [] input s = answer 1 (encode message) (s.drained input)) := by
  intro bytes
  have scanned : Builtin.cat.usage.scan [] = .ok {} := rfl
  have read := inputs_given input s
  constructor
  · rintro ⟨text, encoded⟩
    rw [decode?_eq_some_iff.mpr encoded] at read
    have comes : Builtin.cat.texts {} input s = (.ok [text], s.drained input) := by
      simp [texts, read]
    rw [run_of_texts scanned comes]
    simp [encoded]
  · intro ill
    rw [decode?_eq_none_iff.mpr ill] at read
    have fails : Builtin.cat.texts {} input s =
        (.error { cause := .io .notText }, s.drained input) := by
      simp [texts, read]
    exact ⟨_, run_of_failure scanned fails⟩

theorem readFile_of_read {m : Machine} (here : s.host.machine = m) {file : String} {bytes : Bytes}
    (read : m.files.read m.directory (Path.join m.directoryPath file) = .ok bytes) :
    readFile file s =
      match decode? bytes with
      | some text => (.ok text, s)
      | none => (.error ⟨[file], .io .notText⟩, s) := by
  have text : m.readText (Path.join m.directoryPath file) =
      match decode? bytes with
      | some text => .ok text
      | none => .error .notText := by
    rw [Machine.readText, FileSystem.readText, read]
    rfl
  simp only [readFile, bind_apply, get_apply, here, text]
  cases decode? bytes <;> rfl

theorem cat_text {input : Option Bytes} (accepts : s.out.temper ≠ .refusing) :
    let bytes := input.getD s.host.machine.input.readAll.1
    (IsText bytes → Builtin.cat.run [] input s =
      (.ok 0, { s.drained input with out := s.out.extended bytes })) ∧
    ((Builtin.cat.run [] input s).2.out = s.out.extended bytes → IsText bytes) := by
  intro bytes
  obtain ⟨copies, complains⟩ := cat_given input s
  have same : (s.drained input).out = s.out := by cases input <;> rfl
  constructor
  · intro isText
    rw [copies isText, answer_accepted 0 bytes (by rw [same]; exact accepts), same]
  · intro shown
    by_contra ill
    obtain ⟨message, complained⟩ := complains ill
    rw [complained, answer_accepted 1 _ (by rw [same]; exact accepts), same] at shown
    exact ill (Sink.extended_inj.mp shown ▸ isText_encode message)

theorem readFiles_of_read {m : Machine} (here : s.host.machine = m) {files : List String}
    {contents : List Bytes} (read : List.Forall₂ (fun file bytes =>
      m.files.read m.directory (Path.join m.directoryPath file) = .ok bytes) files contents) :
    (∃ found, readFiles files s = (.ok found, s) ∧ (found.map (·.2)).map encode = contents) ∨
      (∃ bytes ∈ contents, ¬ IsText bytes) ∧ ∃ e, readFiles files s = (.error e, s) := by
  induction read with
  | nil => exact .inl ⟨[], rfl, rfl⟩
  | @cons file bytes files contents one rest ih =>
    have first := readFile_of_read here one
    cases decoded : decode? bytes with
    | none =>
      right
      refine ⟨⟨bytes, by simp, decode?_eq_none_iff.mp decoded⟩, ⟨[file], .io .notText⟩, ?_⟩
      simp only [readFiles, bind_apply, first, decoded]
    | some text =>
      rw [decoded] at first
      rcases ih with ⟨found, ran, texts⟩ | ⟨⟨other, member, ill⟩, e, ran⟩
      · left
        refine ⟨(some file, text) :: found, ?_, ?_⟩
        · simp only [readFiles, bind_apply, first, ran, pure_apply]
        · simp only [List.map_cons, texts, decode?_eq_some_iff.mp decoded]
      · right
        refine ⟨⟨other, List.mem_cons_of_mem _ member, ill⟩, e, ?_⟩
        simp only [readFiles, bind_apply, first, ran]

theorem cat_files {args : List String} {found : Scanned}
    (scanned : Builtin.cat.usage.scan args = .ok found) (named : found.positionals ≠ [])
    {m : Machine} (here : s.host.machine = m) {contents : List Bytes}
    (read : List.Forall₂ (fun file bytes =>
      m.files.read m.directory (Path.join m.directoryPath file) = .ok bytes)
      found.positionals contents) (input : Option Bytes) :
    ((∀ bytes ∈ contents, IsText bytes) →
      Builtin.cat.run args input s = answer 0 contents.flatten s) ∧
    (¬ (∀ bytes ∈ contents, IsText bytes) → ∃ message,
      Builtin.cat.run args input s = answer 1 (encode message) s) := by
  obtain ⟨file, more, files⟩ := List.exists_cons_of_ne_nil named
  have reads : inputs found.positionals input = readFiles found.positionals := by
    rw [files]
    rfl
  rcases readFiles_of_read here read with ⟨texts, ran, written⟩ | ⟨⟨other, member, ill⟩, e, ran⟩
  · have comes : Builtin.cat.texts found input s = (.ok (texts.map (·.2)), s) := by
      simp only [Builtin.texts, reads, bind_apply, ran, pure_apply]
    constructor
    · intro _
      rw [run_of_texts scanned comes, ← written, List.flatMap_def]
    · intro ill
      refine absurd ?_ ill
      rw [← written]
      intro bytes member
      obtain ⟨text, _, rfl⟩ := List.mem_map.mp member
      exact isText_encode text
  · constructor
    · intro all
      exact absurd (all other member) ill
    · intro _
      have fails : Builtin.cat.texts found input s = (.error e, s) := by
        simp only [Builtin.texts, reads, bind_apply, ran]
      exact ⟨_, run_of_failure scanned fails⟩

end Builtin

namespace Shell

section Pipelines

variable {start : Launcher} {capture : String → Shell String}
  (captured : ∀ code, Sealed (capture code)) {p : Statement} {s t : ShellState}
  {result : Except Failure Int32}
  (ran : runStatement (invoke start) capture p { s with out := .memory } = (result, t))
include captured ran

theorem shown_runStatement :
    (s.out.temper ≠ .refusing → (runStatement (invoke start) capture p s).2 =
      { t with out := s.out.extended t.out.written }) ∧
    (s.out.temper = .refusing → (runStatement (invoke start) capture p s).2.out = s.out) := by
  have shows : Shows (runStatement (invoke start) capture p) :=
    shows_runStages captured (shows_flushing_invoke start) p.stages none 0
  obtain ⟨bytes, u, accepted, refused⟩ := shows s
  have collected : t = { u with out := Sink.memory.extended bytes } := by
    rw [← accepted .memory (by decide)]
    exact (congrArg Prod.snd ran).symm
  have written : t.out.written = bytes := by
    rw [collected]
    rfl
  constructor
  · intro accepts
    rw [written, collected]
    exact accepted s.out accepts
  · intro refuses
    exact refused s.out refuses

variable (worded : ∃ last ∈ p.stages.getLast?, last.words ≠ [])
  (meant : meaning t "cat" = .builtin .cat)
include worded meant

theorem run_into_cat :
    (runStatement (invoke start) capture (p.into .cat) s).2 =
      if result.isOk then (Builtin.cat.run [] (some t.out.written) { t with out := s.out }).2
      else { t with out := s.out } := by
  have same : meaning { t with out := s.out } "cat" = .builtin .cat := meant
  rw [runStatement_into captured (appends_invoke start) worded, bind_apply, collecting_eq, ran]
  cases result with
  | error e => rfl
  | ok status =>
    simp only [Except.map, runStages_cat same, flushing_state]
    rfl

/-- Behind a pipeline that ends in a command, and does not fail, `cat` writes what the command wrote
if that is text, and not otherwise. Behind one that fails it does not run. -/
theorem into_cat_iff :
    ((runStatement (invoke start) capture (p.into .cat) s).2.out =
        (runStatement (invoke start) capture p s).2.out ↔
      s.out.temper = .refusing ∨
        if result.isOk then IsText t.out.written else t.out.written = []) ∧
    (s.out.temper ≠ .refusing → result.isOk → IsText t.out.written →
      (runStatement (invoke start) capture (p.into .cat) s).2 =
        (runStatement (invoke start) capture p s).2) := by
  obtain ⟨accepted, refused⟩ := shown_runStatement captured ran
  have behind := run_into_cat captured ran worded meant
  by_cases refuses : s.out.temper = .refusing
  · have silent : (runStatement (invoke start) capture (p.into .cat) s).2.out = s.out := by
      rw [behind]
      split
      · exact Builtin.closed_run closed_refused .cat _ _ _ refuses
      · rfl
    rw [silent, refused refuses]
    exact ⟨by simp [refuses], fun accepts => absurd refuses accepts⟩
  · rw [behind, accepted refuses]
    cases result with
    | error e =>
      have nothing : s.out = s.out.extended t.out.written ↔ t.out.written = [] := by
        rw [← s.out.extended_nil, Sink.extended_extended, Sink.extended_inj, eq_comm]
        rfl
      simpa [Except.isOk, Except.toBool, refuses] using nothing
    | ok status =>
      obtain ⟨copies, onlyText⟩ :=
        @Builtin.cat_text { t with out := s.out } (some t.out.written) refuses
      constructor
      · simp only [refuses, false_or, Except.isOk, Except.toBool, if_true]
        refine ⟨onlyText, ?_⟩
        intro isText
        rw [copies isText]
        rfl
      · intro _ _ isText
        rw [copies isText]
        rfl

end Pipelines

/-- The builtin `cat` copies text. Behind a pipeline that ends in a command it writes the same bytes
exactly if the pipeline does not fail and they are text, or if there is nothing to be written.
Without files it copies what it reads exactly if that is text. And it comes to status 0, with all
files written in order, exactly if all of them are text. -/
theorem cat_copies (start : Launcher) (depth : Nat) :
    (∀ (p : Statement) (s : ShellState),
      let run := runStatement (invoke start) (captureWithin (invoke start) depth)
      let ran := run p { s with out := .memory }
      let bytes := ran.2.out.written
      (∃ last ∈ p.stages.getLast?, last.words ≠ []) → meaning ran.2 "cat" = .builtin .cat →
        (s.out.temper ≠ .refusing → (run p s).2.out = s.out.extended bytes) ∧
        ((run (p.into .cat) s).2.out = (run p s).2.out ↔
          s.out.temper = .refusing ∨ if ran.1.isOk then IsText bytes else bytes = []) ∧
        (s.out.temper ≠ .refusing → ran.1.isOk → IsText bytes →
          (run (p.into .cat) s).2 = (run p s).2)) ∧
    (∀ (input : Option Bytes) (s : ShellState), s.out.temper ≠ .refusing →
      let bytes := input.getD s.host.machine.input.readAll.1
      let r := Builtin.cat.run [] input s
      (IsText bytes → r = (.ok 0, { s.drained input with out := s.out.extended bytes })) ∧
        (r.2.out = s.out.extended bytes → IsText bytes)) ∧
    ∀ (args : List String) (found : Scanned) (contents : List Bytes) (input : Option Bytes)
      (s : ShellState), s.out.temper ≠ .refusing →
      let m := s.host.machine
      let r := Builtin.cat.run args input s
      Builtin.cat.usage.scan args = .ok found → found.positionals ≠ [] →
      List.Forall₂ (fun file bytes =>
        m.files.read m.directory (Path.join m.directoryPath file) = .ok bytes)
        found.positionals contents →
        ((∀ bytes ∈ contents, IsText bytes) →
          r = (.ok 0, { s with out := s.out.extended contents.flatten })) ∧
        (r.1 = .ok 0 → ∀ bytes ∈ contents, IsText bytes) := by
  refine ⟨?_, ?_, ?_⟩
  · intro p s run ran bytes worded meant
    have captured := sealed_captureWithin (invoke start) depth
    obtain ⟨shown, -⟩ := @shown_runStatement start _ captured p s _ _ rfl
    refine ⟨?_, into_cat_iff captured rfl worded meant⟩
    intro accepts
    exact congrArg ShellState.out (shown accepts)
  · intro input s accepts bytes r
    exact Builtin.cat_text accepts
  · intro args found contents input s accepts m r scanned named read
    obtain ⟨copies, complains⟩ := Builtin.cat_files scanned named rfl read input
    constructor
    · intro all
      exact (copies all).trans (answer_accepted 0 _ accepts)
    · intro succeeded
      by_contra ill
      obtain ⟨message, complained⟩ := complains ill
      have failed : r.1 = .ok 1 := by
        rw [show r = _ from complained, answer_accepted 1 _ accepts]
      rw [failed] at succeeded
      cases succeeded

/-- The state of a shell whose natives give these replies, with bytes waiting on its input. -/
def replying (replies : List (String × Reply)) (pending : Bytes) : ShellState :=
  let natives := replies.map fun (name, reply) => (name, Value.native ⟨fun _ _ => reply⟩)
  let host : Host := { Host.idle with machine.input := ⟨[], pending⟩ }
  ShellContext.enter {} (.ofGlobals (.ofEntries natives)) host

theorem cat_copies_reply :
    let s := replying [("emit", { output := [0xC3, 0xA9] })] [0x61]
    let p : Statement := .single { words := [[.literal "emit"]] }
    let run := runStatement (invoke Session.noProgram) (captureWithin (invoke Session.noProgram) 0)
    let ran := run p { s with out := .memory }
    (∃ last ∈ p.stages.getLast?, last.words ≠ []) ∧ meaning ran.2 "cat" = .builtin .cat ∧
      s.out.temper ≠ .refusing ∧ ran.1.isOk ∧ ran.2.out.written = [0xC3, 0xA9] ∧
      IsText [0xC3, 0xA9] ∧ (run (p.into .cat) s).2 = (run p s).2 := by
  intro s p run ran
  have worded : ∃ last ∈ p.stages.getLast?, last.words ≠ [] := ⟨_, rfl, by simp⟩
  have free : (ran.2.names.lookup "cat").isNone := by decide +kernel
  have meant : meaning ran.2 "cat" = .builtin .cat := by
    rw [meaning, Option.isNone_iff_eq_none.mp free]
    rfl
  have accepts : s.out.temper ≠ .refusing := by decide
  have succeeds : ran.1.isOk := by decide +kernel
  have wrote : ran.2.out.written = [0xC3, 0xA9] := by decide +kernel
  have isText : IsText [0xC3, 0xA9] := ⟨"é", by decide +kernel⟩
  obtain ⟨-, -, same⟩ := (cat_copies Session.noProgram 0).1 p s worded meant
  exact ⟨worded, meant, accepts, succeeds, wrote, isText, same accepts succeeds (wrote ▸ isText)⟩

/-- Bytes that are no text are not copied, neither from a pipeline nor from the input; neither is
what a failing command wrote, nor anything if a native goes by the name of `cat`. -/
theorem cat_rewrites_bytes :
    let written (replies : List (String × Reply)) (pending : Bytes) (code : String) : Bytes :=
      (evaluate Session.noProgram code (replying replies pending)).2.out.written
    parse "emit | cat" = .ok [.into (.single { words := [[.literal "emit"]] }) .cat] ∧
      (let replies := [("emit", { output := [0xFF] })]
       written replies [] "emit" = [0xFF] ∧ written replies [] "emit | cat" ≠ [0xFF]) ∧
      written [] [0xFF] "cat" ≠ [0xFF] ∧
      (let replies := [("emit", { output := [0x61], outcome := .error "broken" })]
       written replies [] "emit" = [0x61] ∧ written replies [] "emit | cat" = []) ∧
      let replies := [("emit", { output := [0x61] }), ("cat", {})]
      written replies [] "emit" = [0x61] ∧ written replies [] "emit | cat" = [] := by
  decide +kernel

end Shell

end SessionShell
