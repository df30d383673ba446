import SessionShell.Proofs.Prompt.Dialogue

/-! How a statement is put together at the prompt. Each line is offered together with those before
it, and a further one is taken only where the text was incomplete. An empty line is not put behind
the text, which is then offered once more and for the last time. -/

namespace SessionShell

theorem StandardInput.size_readLine {input : StandardInput} (found : input.readLine.1 ≠ []) :
    input.readLine.2.size < input.size := by
  unfold readLine at found ⊢
  by_cases inside : input.buffered.contains 10
  · have ahead := List.length_pos_of_mem (List.contains_iff_mem.mp inside)
    simp only [inside, if_true, size, List.length_drop]
    omega
  · by_cases outside : input.pending.contains 10
    · have ahead := List.length_pos_of_mem (List.contains_iff_mem.mp outside)
      simp only [inside, outside, if_true, if_false, Bool.false_eq_true, size, List.length_drop,
        List.length_take, chunk]
      omega
    · simp only [inside, outside, if_false, Bool.false_eq_true, readAll] at found ⊢
      simpa [size] using List.length_pos_iff.mpr found

/-- The translator answers by the text alone, and leaves the input to the prompt. -/
def Translator.AnswersBy (offer : String → Except TranslateError String) (t : Translator) : Prop :=
  ∀ text m, (t.translate text .single m).1 = offer text ∧
    (t.translate text .single m).2.input = m.input

namespace Reader

/-- The reader gives these lines, one after the other, and then a failure if there is one. This is
all that is taken from it and from the input. -/
inductive Gives :
    Reader → StandardInput → List String → Option ReadFailure → Reader → StandardInput → Prop
  | stops (r : Reader) (input : StandardInput) : Gives r input [] none r input
  | fails {r r' : Reader} {m m' : Machine} {f : ReadFailure}
      (read : r.read m = (.error f, r', m')) : Gives r m.input [] (some f) r' m'.input
  | goes {r r' r'' : Reader} {m m' : Machine} {input : StandardInput} {line : String}
      {lines : List String} {failure : Option ReadFailure} (read : r.read m = (.ok line, r', m'))
      (later : Gives r' m'.input lines failure r'' input) :
      Gives r m.input (line :: lines) failure r'' input

/-- What can be seen of these events. The editor shows its prompts itself. -/
def shown (r : Reader) (events : List Event) : List Event :=
  if r = .editor then events.filter (·.answered?.isNone) else events

theorem shown_append (r : Reader) (first second : List Event) :
    r.shown (first ++ second) = r.shown first ++ r.shown second := by
  unfold shown
  split
  · exact List.filter_append ..
  · rfl

@[simp] theorem shown_nil (r : Reader) : r.shown [] = [] := by
  simp [shown]

theorem shown_cons (r : Reader) {e : Event} (silent : e.answered? = none) (events : List Event) :
    r.shown (e :: events) = e :: r.shown events := by
  unfold shown
  split
  · exact List.filter_cons_of_pos (by simp [silent])
  · rfl

@[simp] theorem shown_translating (r : Reader) (mode : Mode) (text : String) (events : List Event) :
    r.shown (.translating mode text :: events) = .translating mode text :: r.shown events :=
  r.shown_cons rfl events

@[simp] theorem shown_error (r : Reader) (message : String) (events : List Event) :
    r.shown (.error message :: events) = .error message :: r.shown events :=
  r.shown_cons rfl events

theorem read_frame {r r' : Reader} {m m' : Machine} {line : Except ReadFailure String}
    (read : r.read m = (line, r', m')) : r' = .editor ↔ r = .editor := by
  unfold Reader.read at read
  split at read <;> cases read <;> simp

theorem left_read {r r' : Reader} {m m' : Machine} {line : String}
    (read : r.read m = (.ok line, r', m')) : r'.left m' < r.left m := by
  unfold Reader.read at read
  split at read
  · cases read
    simp [left]
  · cases read
  · simp only [Prod.mk.injEq] at read
    obtain ⟨edited, rfl, rfl⟩ := read
    refine StandardInput.size_readLine fun empty => ?_
    rw [editedLine, if_pos empty] at edited
    cases edited

end Reader

/-- How a call ends after it offered a text: with the lines that it still takes, why there is none
if there is none, what can be seen of it, and the answer. -/
inductive Closing (offer : String → Except TranslateError String) (more text : String) :
    List String → Option ReadFailure → List Event → Except ReadFailure (Option String) → Prop
  | accepted {code : String} (answer : offer text = .ok code) :
      Closing offer more text [] none [] (.ok (some code))
  | refused {e : TranslateError} (answer : offer text = .error e) (final : ¬ e.isIncomplete) :
      Closing offer more text [] none [.error e.message] (.ok none)
  | cut {e : TranslateError} (answer : offer text = .error e) (incomplete : e.isIncomplete) :
      Closing offer more text [""] none
        [.prompted more (some ""), .translating .single text, .error e.message] (.ok none)
  | starved {e : TranslateError} (answer : offer text = .error e) (incomplete : e.isIncomplete)
      (f : ReadFailure) : Closing offer more text [] (some f) [.prompted more none] (.error f)

/-- What is done with the lines behind a text, from one desk to another: all but the last of the
texts that they make with it were incomplete. -/
structure Continued (offer : String → Except TranslateError String) (more text : String)
    (further taken : List String) (failure : Option ReadFailure) (back : List Event) (d : Desk)
    (result : Except ReadFailure (Option String) × Desk) : Prop where
  full : ∀ line ∈ further, line ≠ ""
  incomplete : ∀ lines, lines <+: further → lines ≠ further →
    ∃ e, offer ("\n".intercalate (text :: lines)) = .error e ∧ e.isIncomplete
  closing : Closing offer more ("\n".intercalate (text :: further)) taken failure back result.1
  gives : d.reader.Gives d.machine.input (further ++ taken) failure result.2.reader
    result.2.machine.input
  seen : result.2.seen = d.seen ++ d.reader.shown (offering more text further ++ back)

namespace Continued

variable {offer : String → Except TranslateError String} {more text : String}
  {taken : List String} {failure : Option ReadFailure} {back : List Event} {d : Desk}
  {result : Except ReadFailure (Option String) × Desk}

theorem ended (closing : Closing offer more text taken failure back result.1)
    (gives : d.reader.Gives d.machine.input taken failure result.2.reader result.2.machine.input)
    (seen : result.2.seen = d.seen ++ .translating .single text :: d.reader.shown back) :
    Continued offer more text [] taken failure back d result where
  full := List.forall_mem_nil _
  incomplete _ front whole := absurd (List.prefix_nil.mp front) whole
  closing := by rwa [String.intercalate_singleton]
  gives := gives
  seen := by simpa [offering] using seen

theorem behind {line : String} {further : List String} {e : TranslateError} {r : Reader}
    {m m' : Machine} (worded : line ≠ "") (answer : offer text = .error e)
    (incomplete : e.isIncomplete) (input : m.input = d.machine.input)
    (read : d.reader.read m = (.ok line, r, m'))
    (continued : Continued offer more (text ++ "\n" ++ line) further taken failure back
      ⟨r, m', d.seen ++ [.translating .single text] ++
        d.reader.shown [.prompted more (some line)]⟩ result) :
    Continued offer more text (line :: further) taken failure back d result where
  full := List.forall_mem_cons.mpr ⟨worded, continued.full⟩
  incomplete lines front whole := by
    cases lines with
    | nil => exact ⟨e, by simpa using answer, incomplete⟩
    | cons first lines =>
      obtain ⟨rfl, ahead⟩ := List.cons_prefix_cons.mp front
      rw [intercalate_cons₂]
      exact continued.incomplete lines ahead fun same => whole (by rw [same])
  closing := by
    rw [intercalate_cons₂]
    exact continued.closing
  gives := input ▸ .goes read continued.gives
  seen := by
    have same : r.shown = d.reader.shown := by
      funext events
      simp only [Reader.shown, Reader.read_frame read]
    have asked := d.reader.shown_append [.prompted more (some line)]
      (offering more (text ++ "\n" ++ line) further ++ back)
    rw [List.singleton_append] at asked
    simpa [offering, same, asked] using continued.seen

end Continued

namespace Desk

theorem ask_eq (prompt : String) (d : Desk) {line : Except ReadFailure String} {r : Reader}
    {m : Machine} (read : d.reader.read d.machine = (line, r, m)) :
    d.ask prompt =
      (line, ⟨r, m, d.seen ++ d.reader.shown [.prompted prompt line.toOption]⟩) := by
  have kind := Reader.read_frame read
  rw [ask, read]
  by_cases edits : r = .editor
  · simp [edits, kind.mp edits, Reader.shown, Event.answered?]
  · have others : d.reader ≠ .editor := fun same => edits (kind.mpr same)
    simp [edits, others, Reader.shown, see]

variable {t : Translator} {offer : String → Except TranslateError String}
  (answers : t.AnswersBy offer)
include answers

theorem translate_eq (text : String) (d : Desk) :
    ∃ m, m.input = d.machine.input ∧
      d.translate t text = (offer text, ⟨d.reader, m, d.seen ++ [.translating .single text]⟩) := by
  obtain ⟨answer, input⟩ := answers text d.machine
  refine ⟨_, input, ?_⟩
  rw [translate, ← answer]
  rfl

theorem lastAttempt_eq {text : String} {e : TranslateError} (answer : offer text = .error e)
    (d : Desk) : ∃ m, m.input = d.machine.input ∧
      lastAttempt t text d =
        (none, ⟨d.reader, m, d.seen ++ [.translating .single text, .error e.message]⟩) := by
  obtain ⟨m, input, offered⟩ := translate_eq answers text d
  refine ⟨m, input, ?_⟩
  rw [lastAttempt, offered, answer]
  simp [see]

theorem continued_complete (more : String) {bound : Nat} {text : String} {d : Desk}
    (enough : d.reader.left d.machine < bound) :
    ∃ further taken failure back,
      Continued offer more text further taken failure back d (complete t more bound text d) := by
  -- each further line is one less that is left
  induction bound generalizing text d with
  | zero => exact absurd enough (Nat.not_lt_zero _)
  | succ bound ih =>
    obtain ⟨m, input, offered⟩ := translate_eq answers text d
    rw [complete, offered]
    cases answer : offer text with
    | ok code =>
      refine ⟨[], [], none, [], .ended (.accepted answer) (input ▸ .stops _ _) ?_⟩
      simp
    | error e =>
      by_cases incomplete : e.isIncomplete
      · cases read : d.reader.read m with
        | mk line rest =>
          obtain ⟨r, m'⟩ := rest
          simp only [incomplete, if_true, ask_eq more ⟨d.reader, m, _⟩ read]
          cases line with
          | error f =>
            refine ⟨[], [], some f, _, .ended (.starved answer incomplete f) ?_ ?_⟩
            · exact input ▸ .fails read
            · simp [Except.toOption]
          | ok line =>
            by_cases empty : line = ""
            · subst empty
              obtain ⟨m'', input', last⟩ := lastAttempt_eq answers answer
                ⟨r, m', d.seen ++ [.translating .single text] ++
                  d.reader.shown [.prompted more (some "")]⟩
              simp only [Except.toOption, if_true, last]
              refine ⟨[], [""], none, _, .ended (.cut answer incomplete) ?_ ?_⟩
              · exact input ▸ .goes read (input' ▸ .stops _ _)
              · have asked := d.reader.shown_append [.prompted more (some "")]
                  [.translating .single text, .error e.message]
                rw [List.singleton_append] at asked
                simp [asked]
            · simp only [if_neg empty]
              have same : d.reader.left m = d.reader.left d.machine := by
                cases d.reader <;> simp [Reader.left, input]
              have fewer : r.left m' < bound := by
                have := Reader.left_read read
                omega
              obtain ⟨further, taken, failure, back, continued⟩ := ih fewer (d := ⟨r, m', _⟩)
              exact ⟨line :: further, taken, failure, back,
                continued.behind empty answer incomplete input read⟩
      · simp only [incomplete]
        refine ⟨[], [], none, _, .ended (.refused answer incomplete) (input ▸ .stops _ _) ?_⟩
        simp [see]

end Desk

def Event.reported? : Event → Option Report
  | .report r => some r
  | _ => none

/-- What is reported with an answer: the error of the text that was offered, unless the reader
failed. -/
def reportsOf : Except ReadFailure (Option String) → Except TranslateError String → List Report
  | .ok none, .error e => [.error e.message]
  | _, _ => []

theorem offers_offering (more text : String) (lines : List String) :
    (offering more text lines).filterMap Event.offered? =
      lines.inits.map fun front => "\n".intercalate (text :: front) := by
  induction lines generalizing text with
  | nil => simp [offering, Event.offered?]
  | cons line lines ih =>
    simp only [offering, List.filterMap_cons, Event.offered?, ih, List.inits, List.map_cons,
      List.map_map, Function.comp_def, intercalate_cons₂, String.intercalate_singleton]

theorem reports_offering (more text : String) (lines : List String) :
    (offering more text lines).filterMap Event.reported? = [] := by
  induction lines generalizing text with
  | nil => simp [offering, Event.reported?]
  | cons line lines ih => simp only [offering, List.filterMap_cons, Event.reported?, ih]

theorem Reader.filterMap_shown {β : Type} {f : Event → Option β}
    (prompts : ∀ prompt line, f (.prompted prompt line) = none) (r : Reader) (events : List Event) :
    (r.shown events).filterMap f = events.filterMap f := by
  unfold shown
  split
  · rw [List.filterMap_filter]
    congr 1
    funext e
    cases e <;> simp [Event.answered?, prompts]
  · rfl

theorem Reader.Gives.of_lines {lines taken : List String} {ending : ReadFailure} {r : Reader}
    {input input' : StandardInput} {failure : Option ReadFailure}
    (gives : Gives (.lines lines ending) input taken failure r input') :
    ∃ left, lines = taken ++ left ∧ r = .lines left ending ∧ input' = input ∧
      ∀ f ∈ failure, left = [] ∧ f = ending := by
  generalize start : Reader.lines lines ending = r₀ at gives
  induction gives generalizing lines with
  | stops r input => exact ⟨lines, rfl, start.symm, rfl, by simp⟩
  | fails read =>
    subst start
    cases lines with
    | nil =>
      cases read
      exact ⟨[], rfl, rfl, rfl, by simp⟩
    | cons line lines => cases read
  | goes read later ih =>
    subst start
    cases lines with
    | nil => cases read
    | cons line lines =>
      cases read
      obtain ⟨left, rfl, ends⟩ := ih rfl
      exact ⟨left, rfl, ends⟩

namespace Closing

variable {offer : String → Except TranslateError String} {more text : String}
  {taken : List String} {failure : Option ReadFailure} {back : List Event}
  {answer : Except ReadFailure (Option String)}
  (closing : Closing offer more text taken failure back answer)
include closing

theorem offers : back.filterMap Event.offered? = taken.map fun _ => text := by
  cases closing <;> rfl

theorem reports : back.filterMap Event.reported? = reportsOf answer (offer text) := by
  cases closing with
  | accepted answer => rfl
  | refused answer => rw [answer]; rfl
  | cut answer => rw [answer]; rfl
  | starved => rfl

theorem some_iff (code : String) : answer = .ok (some code) ↔ offer text = .ok code := by
  cases closing <;> simp [*]

theorem none_iff : answer = .ok none ↔ failure = none ∧ ∃ e, offer text = .error e := by
  cases closing <;> simp [*]

theorem error_iff (f : ReadFailure) : answer = .error f ↔ failure = some f := by
  cases closing <;> simp [eq_comm]

end Closing

/-- How a statement was put together at a desk: from a first line and further ones, with the lines
taken behind them, and from what the reader failed with if it did. -/
structure PutTogether (offer : String → Except TranslateError String) (p : Prompts) (d : Desk)
    (first : String) (further taken : List String) (failure : Option ReadFailure)
    (back : List Event) (r : Except ReadFailure (Option String) × Desk) : Prop where
  begins : ∃ reader m, d.reader.read d.machine = (.ok first, reader, m) ∧
    Continued offer p.more first further taken failure back
      ⟨reader, m, d.seen ++ d.reader.shown [.prompted p.first (some first)]⟩ r
  offers : r.2.seen.filterMap Event.offered? = d.seen.filterMap Event.offered? ++
    (further.inits.map fun front => "\n".intercalate (first :: front)) ++
      taken.map fun _ => "\n".intercalate (first :: further)
  some_iff : ∀ code,
    r.1 = .ok (some code) ↔ offer ("\n".intercalate (first :: further)) = .ok code
  none_iff : r.1 = .ok none ↔
    failure = none ∧ ∃ e, offer ("\n".intercalate (first :: further)) = .error e
  error_iff : ∀ f, r.1 = .error f ↔ failure = some f
  reports : r.2.seen.filterMap Event.reported? = d.seen.filterMap Event.reported? ++
    reportsOf r.1 (offer ("\n".intercalate (first :: further)))
  consumed : d.reader.Gives d.machine.input (first :: (further ++ taken)) failure r.2.reader
    r.2.machine.input
  left : ∀ lines ending, d.reader = .lines lines ending → ∃ left,
    lines = first :: (further ++ taken) ++ left ∧ r.2.reader = .lines left ending

/-- A statement is put together from lines, as long as the text that they make is incomplete. The
texts are offered in order, and only the last one once more if an empty line comes behind it. What
was answered to it then is the answer, with a report if it is an error, unless the reader fails. No
other lines are taken from the reader. -/
theorem statement_put_together {t : Translator} {offer : String → Except TranslateError String}
    (answers : t.AnswersBy offer) (p : Prompts) (d : Desk) :
    let r := d.handle p t
    (∃ f reader m, d.reader.read d.machine = (.error f, reader, m) ∧
      r = (.error f, ⟨reader, m, d.seen ++ d.reader.shown [.prompted p.first none]⟩)) ∨
    ∃ first further taken failure back,
      PutTogether offer p d first further taken failure back r := by
  intro r
  cases read : d.reader.read d.machine with
  | mk line rest =>
    obtain ⟨reader, m⟩ := rest
    have asked := Desk.ask_eq p.first d read
    cases line with
    | error f =>
      refine .inl ⟨f, reader, m, rfl, ?_⟩
      simp only [r, Desk.handle, asked, Except.toOption]
    | ok first =>
      let d' : Desk := ⟨reader, m, d.seen ++ d.reader.shown [.prompted p.first (some first)]⟩
      have begun : r = Desk.complete t p.more (reader.left m + 1) first d' := by
        simp only [r, Desk.handle, asked, Except.toOption, d']
      obtain ⟨further, taken, failure, back, continued⟩ : ∃ further taken failure back,
          Continued offer p.more first further taken failure back d' r :=
        begun ▸ Desk.continued_complete answers p.more (Nat.lt_succ_self _)
      have seen {β : Type} {f : Event → Option β}
          (prompts : ∀ prompt line, f (.prompted prompt line) = none) :
          r.2.seen.filterMap f = d.seen.filterMap f ++
            (offering p.more first further).filterMap f ++ back.filterMap f := by
        rw [continued.seen]
        simp [d', Reader.filterMap_shown prompts, prompts]
      have consumed : d.reader.Gives d.machine.input (first :: (further ++ taken)) failure
          r.2.reader r.2.machine.input := .goes read continued.gives
      refine .inr ⟨first, further, taken, failure, back, {
        begins := ⟨reader, m, read, continued⟩
        some_iff := continued.closing.some_iff
        none_iff := continued.closing.none_iff
        error_iff := continued.closing.error_iff
        consumed
        offers := ?offers
        reports := ?reports
        left := ?left }⟩
      case offers => rw [seen fun _ _ => rfl, offers_offering, continued.closing.offers]
      case reports =>
        rw [seen fun _ _ => rfl, reports_offering, continued.closing.reports, List.append_nil]
      case left =>
        intro lines ending listed
        obtain ⟨left, same, rest, -⟩ := (listed ▸ consumed).of_lines
        exact ⟨left, same, rest⟩

/-- Behind an open quote stands an empty line, so that the text is offered twice, and reported. -/
theorem statement_put_together_cut :
    let m : Machine :=
      { files := { entries := ∅ }, directory := [], environment := ∅, input := ⟨[], []⟩ }
    let t := Checked.translator false
    let offer := fun text => Checked.translate false text .single
    let d : Desk := ⟨.lines ["echo 'a", "", "echo b"] .endOfInput, m, []⟩
    let r := d.handle {} t
    t.AnswersBy offer ∧ r.1 = .ok none ∧ r.2.reader = .lines ["echo b"] .endOfInput ∧
      ∃ (further taken : List String) (e : TranslateError),
        offer ("\n".intercalate ("echo 'a" :: further)) = .error e ∧
        r.2.seen.filterMap Event.reported? = [.error e.message] ∧
        r.2.seen.filterMap Event.offered? =
          (further.inits.map fun front => "\n".intercalate ("echo 'a" :: front)) ++
            taken.map fun _ => "\n".intercalate ("echo 'a" :: further) := by
  intro m t offer d r
  have answers : t.AnswersBy offer := fun _ _ => ⟨rfl, rfl⟩
  have answered : r.1 = .ok none := by rfl
  refine ⟨answers, answered, by rfl, ?_⟩
  rcases statement_put_together answers {} d with
    ⟨f, reader, m', failed, -⟩ | ⟨first, further, taken, failure, back, together⟩
  · cases failed
  · obtain ⟨reader, m', read, -⟩ := together.begins
    cases read
    obtain ⟨-, e, refused⟩ := together.none_iff.mp answered
    refine ⟨further, taken, e, refused, ?_, together.offers⟩
    rw [together.reports, answered, refused]
    rfl

end SessionShell
