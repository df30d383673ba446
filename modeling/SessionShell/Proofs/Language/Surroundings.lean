import SessionShell.Proofs.Language.Blanks
import SessionShell.Proofs.Language.Reading

/-! What may stand around a program: newlines behind it, and complete statements in front. So programs
are put together line by line, and a text behind a program and a newline is read as if it stood
alone. -/

namespace SessionShell

namespace Lexer

namespace State

theorem endWord_eq_behind (s : State) : s.endWord = behind s.endWord.tokens {} := by
  simp [endWord, tokens, behind]

@[simp] theorem finish_behind_init (ts : List Token) : (behind ts {}).finish = .ok ts := by
  rw [finish_behind]
  simp [finish, Except.map, tokens]

/-- Behind a newline that ends a complete text the machine starts anew: nothing of the text is left
but its tokens. -/
theorem step_newline {s : State} (tidy : s.Tidy) {ts : List Token} (h : s.finish = .ok ts) :
    s.step '\n' = behind (ts ++ [.newline]) {} := by
  unfold Tidy at tidy
  rcases Mode.final_cases (final_of_finish h) with mode | mode | word
  · simp only [finish, mode] at h tidy
    cases h
    simp [step, stepGap, emit, mode, tidy, behind, tokens]
  · simp only [finish, mode] at h tidy
    cases h
    simp [step, mode, tidy, behind, tokens]
  · obtain ⟨w, ends, finish⟩ := endsWord_word word
    rw [finish] at h
    cases h
    rw [ends '\n' (by decide), ← w.endWord_mode .word]
    calc ({ w with mode := .word } : State).endWord.emit .newline
      _ = (behind ({ w with mode := .word } : State).endWord.tokens {}).emit .newline := by
        rw [← endWord_eq_behind]
      _ = _ := by simp [emit, behind]

end State

section Newlines

variable {ends : List Char} (newlines : ∀ c ∈ ends, c = '\n')
include newlines

theorem finish_read_newlines {s : State} (tidy : s.Tidy) {ts : List Token} (h : s.finish = .ok ts) :
    (read s ends).finish = .ok (ts ++ List.replicate ends.length .newline) := by
  induction ends generalizing s ts with
  | nil => simpa using h
  | cons c ends ih =>
    obtain rfl := newlines c List.mem_cons_self
    have later := fun d hd => newlines d (List.mem_cons_of_mem _ hd)
    rw [read_cons, ih later (s.tidy_step tidy _) (by rw [s.step_newline tidy h, State.finish_behind_init])]
    simp [List.replicate_succ]

theorem not_final_read_newlines {s : State} (tidy : s.Tidy) (stops : s.mode.final = false)
    (complete : s.mode.escapes = false) : (read s ends).mode.final = false := by
  induction ends generalizing s with
  | nil => exact stops
  | cons c ends ih =>
    obtain rfl := newlines c List.mem_cons_self
    obtain ⟨stops', complete'⟩ := s.unfinished_newline tidy stops complete
    exact ih (fun d hd => newlines d (List.mem_cons_of_mem _ hd)) (s.tidy_step tidy _) stops'
      complete'

end Newlines

theorem tokenize_ofList (cs : List Char) :
    tokenize (String.ofList cs) = (read {} cs).finish := by
  rw [tokenize, String.toList_ofList]

end Lexer

namespace Parser.Progress

theorem step_newline {p : Progress} {program : Program} (h : p.finish = .ok program) :
    p.step .newline = .ready program := by
  cases p <;> cases h <;> rfl

theorem finish_steps_newlines (p : Progress) (n : Nat) :
    (p.steps (List.replicate n .newline)).finish = p.finish := by
  induction n generalizing p with
  | zero => rfl
  | succ n ih =>
    rw [List.replicate_succ, steps_cons, ih]
    cases p <;> rfl

end Parser.Progress

open SessionShell.Parser Lexer

theorem parse_eq_ok {text : String} {program : Program} :
    parse text = .ok program ↔
      ∃ ts, tokenize text = .ok ts ∧ parseTokens ts = .ok program := by
  cases lexed : tokenize text with
  | error e => simp [parse_of_lexError lexed]
  | ok ts =>
    simp only [parse, lexed, Except.ok.injEq, exists_eq_left']
    cases parseTokens ts <;> simp

theorem parse_append_newlines {cs ends : List Char} (newlines : ∀ c ∈ ends, c = '\n')
    {ts : List Token} (lexed : (read {} cs).finish = .ok ts) :
    parse (String.ofList (cs ++ ends)) = parse (String.ofList cs) := by
  have longer := finish_read_newlines newlines (State.tidy_read State.tidy_init _) lexed
  rw [← read_append, ← tokenize_ofList] at longer
  rw [← tokenize_ofList] at lexed
  rw [parse_of_tokens lexed, parse_of_tokens longer, Progress.steps_append,
    Progress.finish_steps_newlines]

/-- A text behind which a statement may begin, and the statements in it: the lexer has nothing open
there, and the parser needs nothing more. -/
def Leads (front : String) (done : Program) : Prop :=
  ∃ ts, read {} front.toList = State.behind ts {} ∧ (Progress.ready []).steps ts = .ready done

theorem parse_behind {front : String} {ts : List Token} {done : Program}
    (lexed : read {} front.toList = State.behind ts {})
    (leads : (Progress.ready []).steps ts = .ready done) (text : String) :
    parse (front ++ text) = (parse text).map (done ++ ·) := by
  have longer : tokenize (front ++ text) = (tokenize text).map (ts ++ ·) := by
    rw [tokenize, String.toList_append, read_append, lexed, read_behind, State.finish_behind]
    rfl
  cases rest : tokenize text with
  | error e =>
    rw [rest] at longer
    rw [parse_of_lexError longer, parse_of_lexError rest]
    rfl
  | ok us =>
    rw [rest] at longer
    rw [parse_of_tokens longer, parse_of_tokens rest, Progress.steps_append, leads,
      finish_steps, finish_steps]
    cases program us <;> rfl

/-- A program with a newline behind it leads to where a text begins: the lexer starts anew, and the
parser has the statements of the program and no more. -/
theorem line_read {text : String} {program : Program} (whole : parse text = .ok program) :
    Leads (text ++ "\n") program := by
  obtain ⟨ts, lexed, parsed⟩ := parse_eq_ok.mp whole
  refine ⟨ts ++ [.newline], ?_, ?_⟩
  · rw [String.toList_append, read_append]
    exact State.step_newline (State.tidy_read State.tidy_init _) lexed
  · rw [parseTokens_eq] at parsed
    rw [Progress.steps_append, Progress.steps_cons, Progress.step_newline parsed,
      Progress.steps_nil]

/-- What follows a program and a newline adds its statements, or fails with the error that it has
alone. -/
theorem parse_append_line {front : String} {done : Program} (whole : parse front = .ok done)
    (back : String) :
    (∀ program, parse back = .ok program →
      parse (front ++ "\n" ++ back) = .ok (done ++ program)) ∧
    ∀ e, parse back = .error e → parse (front ++ "\n" ++ back) = .error e := by
  obtain ⟨ts, lexed, leads⟩ := line_read whole
  have split := parse_behind lexed leads back
  constructor
  · intro program parsed
    rw [split, parsed]
    rfl
  · intro e rejected
    rw [split, rejected]
    rfl

theorem parse_append_line_assignment :
    parse "y= # no value" = .ok [.single { assignments := [⟨"y", some []⟩] }] ∧
      parse ("y= # no value" ++ "\n" ++ "wc") =
        .ok [.single { assignments := [⟨"y", some []⟩] }, .single { words := [[.literal "wc"]] }] ∧
      parse ("y= # no value" ++ "\n" ++ "echo 'open") = .error (.lex .quote) := by
  have lexed : tokenize "y= # no value" = .ok [.assign "y", .word []] := by rfl
  have whole : parse "y= # no value" = .ok [.single { assignments := [⟨"y", some []⟩] }] :=
    parse_of_tokens lexed
  have word : tokenize "wc" = .ok [.word [.literal "wc"]] := by rfl
  have quote : tokenize "echo 'open" = .error .quote := by rfl
  refine ⟨whole, ?_, ?_⟩
  · exact (parse_append_line whole "wc").1 _ (parse_of_tokens word)
  · exact (parse_append_line whole "echo 'open").2 _ (parse_of_lexError quote)

theorem parse_empty : parse "" = .ok [] := by
  have lexed : tokenize "" = .ok [] := by rfl
  exact parse_of_tokens lexed

theorem Leads.parse_append {front : String} {done : Program} (leads : Leads front done)
    (text : String) : parse (front ++ text) = (parse text).map (done ++ ·) := by
  obtain ⟨ts, lexed, parts⟩ := leads
  exact parse_behind lexed parts text

theorem Leads.parse_eq {front : String} {done : Program} (leads : Leads front done) :
    parse front = .ok done := by
  have split := leads.parse_append ""
  rwa [String.append_empty, parse_empty, Except.map, List.append_nil] at split

/-- Lines that make a program, the first of which is a program of its own: the others make the
rest. -/
theorem parse_further_lines {text : String} {lines : List String} {program done : Program}
    (whole : parse ("\n".intercalate (text :: lines)) = .ok program)
    (first : parse text = .ok done) :
    ∃ others, parse ("\n".intercalate lines) = .ok others ∧ done ++ others = program := by
  cases lines with
  | nil =>
    rw [String.intercalate_singleton, first] at whole
    cases whole
    exact ⟨[], parse_empty, List.append_nil _⟩
  | cons line lines =>
    obtain ⟨ts, lexed, leads⟩ := line_read first
    rw [String.intercalate_cons_cons, parse_behind lexed leads] at whole
    cases rest : parse ("\n".intercalate (line :: lines)) with
    | error e =>
      rw [rest] at whole
      cases whole
    | ok others =>
      rw [rest] at whole
      cases whole
      exact ⟨others, rfl, rfl⟩

end SessionShell
