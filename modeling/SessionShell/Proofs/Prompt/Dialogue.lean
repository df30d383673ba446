import Mathlib.Data.List.Forall2
import SessionShell.Prompt
import SessionShell.Proofs.Language.Finality
import SessionShell.Proofs.Translation.Preservation

/-! Dialogues at the prompt. Lines are put together until they make a program, and no longer. So the
texts that are accepted one after the other make up the program that all the lines make together,
unless an empty line breaks one of them off. -/

namespace SessionShell

def Event.answered? : Event → Option (Option String)
  | .prompted _ line => some line
  | _ => none

def Event.offered? : Event → Option String
  | .translating _ text => some text
  | _ => none

/-- A call at the prompt: its answer, and what could be seen of it. The first thing to be seen is
that it asked for a line. -/
structure Call where
  answer : Except ReadFailure (Option String)
  seen : List Event

namespace Call

def furtherLines (c : Call) : List (Option String) :=
  c.seen.tail.filterMap Event.answered?

/-- The texts that were offered to the translator. -/
def offers (c : Call) : List String :=
  c.seen.filterMap Event.offered?

/-- The last text offered was accepted, and is the program with these statements. Nothing was
reported. -/
structure Accepts (c : Call) (statements : Program) : Prop where
  accepted : ∃ text code, c.offers.getLast? = some text ∧ parse text = .ok statements ∧
    Checked.translate false text .single = .ok code ∧ c.answer = .ok (some code)
  silent : ∀ r, .report r ∉ c.seen

theorem mem_furtherLines {c : Call} {first : Event} {back : List Event} {prompt : String}
    {line : Option String} (seen : c.seen = [first] ++ back)
    (asked : .prompted prompt line ∈ back) : line ∈ c.furtherLines := by
  rw [furtherLines, seen]
  exact List.mem_filterMap.mpr ⟨_, asked, rfl⟩

end Call

/-- The calls that follow each other from a reader on, up to the first one that fails. -/
inductive Dialogue (p : Prompts) (t : Translator) : Reader → Machine → List Call → Prop
  | failed {r : Reader} {m : Machine} {f : ReadFailure} {d : Desk}
      (last : Desk.handle p t { reader := r, machine := m } = (.error f, d)) :
      Dialogue p t r m [⟨.error f, d.seen⟩]
  | answered {r : Reader} {m : Machine} {answer : Option String} {d : Desk} {calls : List Call}
      (here : Desk.handle p t { reader := r, machine := m } = (.ok answer, d))
      (later : Dialogue p t d.reader d.machine calls) :
      Dialogue p t r m (⟨.ok answer, d.seen⟩ :: calls)

/-- What can be seen while further lines are read, as long as the text is offered and refused. The
text with all the lines is offered last. -/
def offering (more : String) : String → List String → List Event
  | text, [] => [.translating .single text]
  | text, line :: lines =>
    .translating .single text :: .prompted more (some line) ::
      offering more (text ++ "\n" ++ line) lines

theorem intercalate_cons₂ (text line : String) (lines : List String) :
    "\n".intercalate (text :: line :: lines) =
      "\n".intercalate ((text ++ "\n" ++ line) :: lines) := by
  simp

theorem getLast?_offering (more text : String) (lines : List String) :
    ((offering more text lines).filterMap Event.offered?).getLast? =
      some ("\n".intercalate (text :: lines)) := by
  induction lines generalizing text with
  | nil => simp [offering, Event.offered?]
  | cons line lines ih =>
    simp only [offering, List.filterMap_cons, Event.offered?, List.getLast?_cons, ih,
      Option.getD_some, intercalate_cons₂]

theorem report_notMem_offering (more text : String) (lines : List String) (r : Report) :
    .report r ∉ offering more text lines := by
  induction lines generalizing text with
  | nil => simp [offering]
  | cons line lines ih => simp [offering, ih]

namespace Desk

variable (m : Machine) (seen : List Event) (ending : ReadFailure)

theorem ask_lines (prompt line : String) (left : List String) :
    ask prompt ⟨.lines (line :: left) ending, m, seen⟩ =
      (.ok line, ⟨.lines left ending, m, seen ++ [.prompted prompt (some line)]⟩) := by
  simp [ask, Reader.read, see, Except.toOption]

theorem ask_nil (prompt : String) :
    ask prompt ⟨.lines [] ending, m, seen⟩ =
      (.error ending, ⟨.lines [] ending, m, seen ++ [.prompted prompt none]⟩) := by
  simp [ask, Reader.read, see, Except.toOption]

theorem handle_cons (p : Prompts) (t : Translator) (line : String) (lines : List String) :
    handle p t ⟨.lines (line :: lines) ending, m, seen⟩ =
      complete t p.more (lines.length + 1) line
        ⟨.lines lines ending, m, seen ++ [.prompted p.first (some line)]⟩ := by
  rw [handle, ask_lines]
  rfl

theorem handle_nil (p : Prompts) (t : Translator) :
    handle p t ⟨.lines [] ending, m, seen⟩ =
      (.error ending, ⟨.lines [] ending, m, seen ++ [.prompted p.first none]⟩) := by
  rw [handle, ask_nil]

theorem lastAttempt_frame (t : Translator) (text : String) (d : Desk) :
    ∃ machine back, (lastAttempt t text d).2 = ⟨d.reader, machine, d.seen ++ back⟩ := by
  cases offered : t.translate text .single d.machine with
  | mk code machine =>
    cases code with
    | ok code =>
      exact ⟨machine, [.translating .single text], by simp [lastAttempt, translate, offered, see]⟩
    | error e =>
      exact ⟨machine, [.translating .single text, .error e.message],
        by simp [lastAttempt, translate, offered, see]⟩

theorem reader_complete (t : Translator) (more : String) (bound : Nat) (text : String)
    (lines : List String) :
    ∃ left, left <:+ lines ∧
      (complete t more bound text ⟨.lines lines ending, m, seen⟩).2.reader = .lines left ending := by
  induction bound generalizing m seen text lines with
  | zero => exact ⟨lines, List.suffix_rfl, rfl⟩
  | succ bound ih =>
    cases offered : t.translate text .single m with
    | mk code machine =>
      rw [complete]
      simp only [translate, see, offered]
      cases code with
      | ok code => exact ⟨lines, List.suffix_rfl, rfl⟩
      | error e =>
        by_cases incomplete : e.isIncomplete
        · cases lines with
          | nil => exact ⟨[], List.suffix_rfl, by simp [incomplete, ask_nil]⟩
          | cons line lines =>
            simp only [incomplete, if_true, ask_lines]
            by_cases empty : line = ""
            · obtain ⟨machine', back, frame⟩ := lastAttempt_frame t text
                ⟨.lines lines ending, machine,
                  seen ++ [.translating .single text] ++ [.prompted more (some line)]⟩
              refine ⟨lines, List.suffix_cons _ _, ?_⟩
              simp only [if_pos empty, frame]
            · obtain ⟨left, suffix, reader⟩ := ih machine _ (text ++ "\n" ++ line) lines
              refine ⟨left, suffix.trans (List.suffix_cons _ _), ?_⟩
              simp only [if_neg empty]
              exact reader
        · exact ⟨lines, List.suffix_rfl, by simp [incomplete]⟩

section Checked

variable {m seen ending} {more text line : String} {lines : List String} {bound : Nat}
  {done program : Program}

theorem complete_program (whole : parse text = .ok done) (d : Desk) :
    complete (Checked.translator false) more (bound + 1) text d =
      (.ok (some (Checked.wrap .single text)), d.see (.translating .single text)) := by
  have offered : d.translate (Checked.translator false) text =
      (Checked.translate false text .single, d.see (.translating .single text)) := rfl
  rw [complete, offered, Checked.translate_of_parse whole]

section Incomplete

variable {e : SyntaxError} (rejected : parse text = .error e) (incomplete : e.isIncomplete)
include rejected incomplete

theorem complete_incomplete :
    complete (Checked.translator false) more (bound + 1) text
        ⟨.lines (line :: lines) ending, m, seen⟩ =
      let d : Desk := ⟨.lines lines ending, m,
        seen ++ [.translating .single text, .prompted more (some line)]⟩
      if line = "" then
        let (code, d) := d.lastAttempt (Checked.translator false) text
        (.ok code, d)
      else complete (Checked.translator false) more bound (text ++ "\n" ++ line) d := by
  have offered (d : Desk) : d.translate (Checked.translator false) text =
      (Checked.translate false text .single, d.see (.translating .single text)) := rfl
  rw [complete, offered, Checked.translate_of_incomplete rejected incomplete]
  simp only [TranslateError.isIncomplete, if_true, see, ask_lines, List.append_assoc,
    List.singleton_append]

theorem complete_further (further : line ≠ "") :
    complete (Checked.translator false) more (bound + 1) text
        ⟨.lines (line :: lines) ending, m, seen⟩ =
      complete (Checked.translator false) more bound (text ++ "\n" ++ line)
        ⟨.lines lines ending, m,
          seen ++ [.translating .single text, .prompted more (some line)]⟩ := by
  rw [complete_incomplete rejected incomplete]
  simp only [if_neg further]

theorem complete_empty :
    ∃ back, .prompted more (some "") ∈ back ∧
      (complete (Checked.translator false) more (bound + 1) text
        ⟨.lines ("" :: lines) ending, m, seen⟩).2.seen = seen ++ back := by
  obtain ⟨machine, back, frame⟩ := lastAttempt_frame (Checked.translator false) text
    ⟨.lines lines ending, m, seen ++ [.translating .single text, .prompted more (some "")]⟩
  refine ⟨[.translating .single text, .prompted more (some "")] ++ back, by simp, ?_⟩
  rw [complete_incomplete rejected incomplete]
  simp only [if_true, frame, List.append_assoc]

end Incomplete

/-- What comes of a text that makes a program with the lines behind it. -/
inductive Outcome (more : String) (ending : ReadFailure) (m : Machine) (seen : List Event)
    (text : String) (program : Program) : Except ReadFailure (Option String) × Desk → Prop
  /-- Lines are taken until the text is a program with them, and those left make the rest. -/
  | divided (taken left : List String) {done others : Program}
      (front : parse ("\n".intercalate (text :: taken)) = .ok done)
      (back : parse ("\n".intercalate left) = .ok others) (whole : done ++ others = program) :
      Outcome more ending m seen text program
        (.ok (some (Checked.wrap .single ("\n".intercalate (text :: taken)))),
          ⟨.lines left ending, m, seen ++ offering more text taken⟩)
  | broken {result : Except ReadFailure (Option String) × Desk} {back : List Event}
      (empty : .prompted more (some "") ∈ back) (later : result.2.seen = seen ++ back) :
      Outcome more ending m seen text program result

theorem Outcome.here (whole : parse ("\n".intercalate (text :: lines)) = .ok program)
    (first : parse text = .ok done) :
    Outcome more ending m seen text program
      (complete (Checked.translator false) more (bound + 1) text
        ⟨.lines lines ending, m, seen⟩) := by
  obtain ⟨others, back, split⟩ := parse_further_lines whole first
  have front : parse ("\n".intercalate [text]) = .ok done := by rwa [String.intercalate_singleton]
  have accepted : Outcome more ending m seen text program _ := .divided [] lines front back split
  rw [String.intercalate_singleton] at accepted
  rw [complete_program first]
  exact accepted

theorem Outcome.cons {result : Except ReadFailure (Option String) × Desk}
    (later : Outcome more ending m
      (seen ++ [.translating .single text, .prompted more (some line)])
      (text ++ "\n" ++ line) program result) :
    Outcome more ending m seen text program result := by
  cases later with
  | divided taken left front back whole =>
    rw [← intercalate_cons₂] at front ⊢
    rw [List.append_assoc]
    exact .divided (line :: taken) left front back whole
  | broken empty later =>
    rw [List.append_assoc] at later
    exact .broken (List.mem_append_right _ empty) later

theorem complete_lines (whole : parse ("\n".intercalate (text :: lines)) = .ok program)
    (enough : lines.length < bound) :
    Outcome more ending m seen text program
      (complete (Checked.translator false) more bound text ⟨.lines lines ending, m, seen⟩) := by
  induction lines generalizing bound text seen with
  | nil =>
    obtain ⟨bound, rfl⟩ := Nat.exists_eq_add_one.mpr enough
    have first : parse text = .ok program := by rwa [String.intercalate_singleton] at whole
    exact .here whole first
  | cons line lines ih =>
    obtain ⟨bound, rfl⟩ := Nat.exists_eq_add_one.mpr (Nat.zero_lt_of_lt enough)
    cases first : parse text with
    | ok done => exact .here whole first
    | error e =>
      -- no beginning of a program is invalid, so that the text is incomplete
      have incomplete : e.isIncomplete := by
        rw [String.intercalate_cons_cons, String.append_assoc] at whole
        exact isIncomplete_of_parse_append whole first
      by_cases further : line = ""
      · subst further
        obtain ⟨back, empty, later⟩ := complete_empty first incomplete
        exact .broken empty later
      · rw [complete_further first incomplete further]
        rw [intercalate_cons₂] at whole
        exact .cons (ih whole (Nat.lt_of_succ_lt_succ enough))

variable (m ending)

theorem handle_lines (p : Prompts)
    (whole : parse ("\n".intercalate (line :: lines)) = .ok program) :
    Outcome p.more ending m [.prompted p.first (some line)] line program
      (handle p (Checked.translator false) ⟨.lines (line :: lines) ending, m, []⟩) := by
  rw [handle_cons]
  exact complete_lines whole (Nat.lt_succ_self _)

end Checked

end Desk

theorem Call.accepts_offering (p : Prompts) (line : String) {taken : List String} {done : Program}
    (front : parse ("\n".intercalate (line :: taken)) = .ok done) :
    Call.Accepts ⟨.ok (some (Checked.wrap .single ("\n".intercalate (line :: taken)))),
      .prompted p.first (some line) :: offering p.more line taken⟩ done where
  accepted := ⟨_, _, getLast?_offering p.more line taken, front,
    Checked.translate_of_parse front .single, rfl⟩
  silent r := by
    simp [report_notMem_offering]

namespace Dialogue

variable {p : Prompts} {ending : ReadFailure}

theorem exists_of_lines (t : Translator) (lines : List String) (m : Machine) :
    ∃ calls, Dialogue p t (.lines lines ending) m calls := by
  -- every call takes a line, so that there is one that finds none
  induction h : lines.length using Nat.strong_induction_on generalizing lines m with
  | h n ih =>
    cases lines with
    | nil => exact ⟨_, .failed (Desk.handle_nil m [] ending p t)⟩
    | cons line lines =>
      cases here : Desk.handle p t { reader := .lines (line :: lines) ending, machine := m } with
      | mk answer d =>
        cases answer with
        | error f => exact ⟨_, .failed here⟩
        | ok answer =>
          rw [Desk.handle_cons] at here
          obtain ⟨left, suffix, reader⟩ := Desk.reader_complete m
            ([] ++ [.prompted p.first (some line)]) ending t p.more (lines.length + 1) line lines
          rw [here] at reader
          obtain ⟨calls, later⟩ := ih left.length
            (by rw [← h]; exact Nat.lt_succ_of_le suffix.length_le) left d.machine rfl
          rw [← reader] at later
          exact ⟨_, .answered (by rw [Desk.handle_cons, here]) later⟩

theorem groups {lines : List String} {m : Machine} {calls : List Call} {program : Program}
    (dialogue : Dialogue p (Checked.translator false) (.lines lines ending) m calls)
    (whole : parse ("\n".intercalate lines) = .ok program)
    (full : ∀ call ∈ calls, some "" ∉ call.furtherLines) :
    ∃ accepted programs, calls = accepted ++ [⟨.error ending, [.prompted p.first none]⟩] ∧
      List.Forall₂ Call.Accepts accepted programs ∧ programs.flatten = program := by
  generalize start : Reader.lines lines ending = r at dialogue
  induction dialogue generalizing lines program with
  | @failed r m f d last =>
    subst start
    cases lines with
    | nil =>
      rw [Desk.handle_nil] at last
      cases last
      rw [String.intercalate_nil, parse_empty] at whole
      cases whole
      exact ⟨[], [], rfl, .nil, rfl⟩
    | cons line lines =>
      have outcome := Desk.handle_lines m ending p whole
      rw [last] at outcome
      -- where lines are divided, the call has answered
      cases outcome with
      | broken empty later =>
        exact (full _ List.mem_cons_self (Call.mem_furtherLines later empty)).elim
  | @answered r m answer d calls here later ih =>
    subst start
    cases lines with
    | nil =>
      rw [Desk.handle_nil] at here
      cases here
    | cons line lines =>
      have outcome := Desk.handle_lines m ending p whole
      rw [here] at outcome
      cases outcome with
      | @divided taken left done others front back split =>
        obtain ⟨further, programs, rfl, accepts, rfl⟩ := ih back
          (fun call member => full call (List.mem_cons_of_mem _ member)) rfl
        refine ⟨_ :: further, done :: programs, rfl, .cons ?_ accepts, split⟩
        exact Call.accepts_offering p line front
      | broken empty later =>
        exact (full _ List.mem_cons_self (Call.mem_furtherLines later empty)).elim

end Dialogue

/-- Lines that make a program together are read as that program: there are calls up to one that
fails, and if none of them reads an empty line where it asks for a further one, each of them but the
last one accepts a program, these make up the whole, and the last one asked for a first line. -/
theorem lines_read_as_program (p : Prompts) (ending : ReadFailure) (m : Machine)
    {lines : List String} {program : Program}
    (whole : parse ("\n".intercalate lines) = .ok program) :
    (∃ calls, Dialogue p (Checked.translator false) (.lines lines ending) m calls) ∧
      ∀ calls, Dialogue p (Checked.translator false) (.lines lines ending) m calls →
        (∀ call ∈ calls, some "" ∉ call.furtherLines) →
        ∃ accepted programs, calls = accepted ++ [⟨.error ending, [.prompted p.first none]⟩] ∧
          List.Forall₂ Call.Accepts accepted programs ∧ programs.flatten = program := by
  constructor
  · exact Dialogue.exists_of_lines _ lines m
  · intro calls dialogue full
    exact dialogue.groups whole full

theorem lines_read_as_program_quote :
    let m : Machine :=
      { files := { entries := ∅ }, directory := [], environment := ∅, input := ⟨[], []⟩ }
    let program : Program := [.single { words := [[.literal "echo"], [.literal "a\nb"]] }]
    parse ("\n".intercalate ["echo 'a", "b'"]) = .ok program ∧
      ∃ calls,
        Dialogue {} (Checked.translator false) (.lines ["echo 'a", "b'"] .endOfInput) m calls ∧
        (∀ call ∈ calls, some "" ∉ call.furtherLines) ∧
        ∃ accepted programs, calls = accepted ++ [⟨.error .endOfInput, [.prompted ">>> " none]⟩] ∧
          List.Forall₂ Call.Accepts accepted programs ∧ programs.flatten = program := by
  intro m program
  have quote : tokenize "echo 'a" = .error .quote := by rfl
  have lexed : tokenize "echo 'a\nb'" = .ok [.word [.literal "echo"], .word [.literal "a\nb"]] := by
    rfl
  have closed : parse "echo 'a\nb'" = .ok program := parse_of_tokens lexed
  have whole : parse ("\n".intercalate ["echo 'a", "b'"]) = .ok program := by simpa using closed
  have here : Desk.handle {} (Checked.translator false)
      { reader := .lines ["echo 'a", "b'"] .endOfInput, machine := m } =
      (.ok (some (Checked.wrap .single "echo 'a\nb'")), ⟨.lines [] .endOfInput, m,
        [.prompted ">>> " (some "echo 'a"), .translating .single "echo 'a",
          .prompted "    " (some "b'"), .translating .single "echo 'a\nb'"]⟩) := by
    rw [Desk.handle_cons, Desk.complete_further (parse_of_lexError quote) rfl (by decide)]
    simp [Desk.complete_program closed, Desk.see]
  have dialogue := Dialogue.answered here (.failed (Desk.handle_nil m [] .endOfInput {} _))
  refine ⟨whole, _, dialogue, ?full,
    (lines_read_as_program {} .endOfInput m whole).2 _ dialogue ?full⟩
  simp [Call.furtherLines, Event.answered?]

end SessionShell
