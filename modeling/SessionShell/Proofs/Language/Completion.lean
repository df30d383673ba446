import SessionShell.Proofs.Language.Finality
import SessionShell.Proofs.Language.Surroundings

/-! Which texts can be completed. Whatever construct is open at the end of a text, some characters
close it and emit nothing but the word that it stands in. So a text can be completed unless a
separator in front of its end already stands where a command is needed. Such a text is called
incomplete all the same if it also stops inside a construct. -/

namespace SessionShell

namespace Lexer

def Around.closing : Around → List Char
  | .bare => []
  | .quotes => ['"']

/-- Characters that close the construct which is open in this mode. -/
def Mode.closing : Mode → List Char
  | .gap | .comment | .word => []
  -- any character can be escaped, but an escaped newline would be dropped
  | .gapEscape | .wordEscape => ['x']
  | .single => ['\'']
  | .double => ['"']
  -- the first of the two is escaped
  | .doubleEscape => ['"', '"']
  | .dollar around | .name around _ => around.closing
  | .inside around bracket depth _ => List.replicate (depth + 1) bracket.closing ++ around.closing

theorem Bracket.closing_ne_opening (b : Bracket) : b.closing ≠ b.opening := by
  cases b <;> decide

namespace State

/-- A state that differs in the open word only: an input may end there, and no token has come. -/
def Closes (s after : State) : Prop :=
  after.mode.final ∧ after.tokens = s.tokens

theorem read_brackets (s : State) (around : Around) (b : Bracket) (depth : Nat)
    (chars : List Char) :
    ∃ part, read { s with mode := .inside around b depth chars }
        (List.replicate (depth + 1) b.closing) =
      { s.addPart part with mode := around.mode } := by
  have other := b.closing_ne_opening
  -- each of them closes one level, and the last one the substitution
  induction depth generalizing chars with
  | zero =>
    refine ⟨b.part chars.reverse, ?_⟩
    simp [step, stepInside, other, addPart]
  | succ depth ih =>
    obtain ⟨part, closed⟩ := ih (b.closing :: chars)
    refine ⟨part, ?_⟩
    rw [List.replicate_succ, read_cons, ← closed]
    simp [step, stepInside, other]

theorem read_inside_closing (s : State) (around : Around) (b : Bracket) (depth : Nat)
    (chars : List Char) :
    ∃ part, read { s with mode := .inside around b depth chars }
        (Mode.inside around b depth chars).closing = { s.addPart part with mode := .word } := by
  obtain ⟨part, closed⟩ := read_brackets s around b depth chars
  refine ⟨part, ?_⟩
  rw [Mode.closing, read_append, closed]
  cases around with
  | bare => rfl
  | quotes => rfl

theorem closes_closing (s : State) : s.Closes (read s s.mode.closing) := by
  obtain ⟨mode, emitted, parts, buffer, quoted, assigned⟩ := s
  cases mode with
  | gap | comment | word => exact ⟨rfl, rfl⟩
  | gapEscape | wordEscape | single | double | doubleEscape => exact ⟨rfl, rfl⟩
  | dollar around | name around chars => cases around <;> exact ⟨rfl, rfl⟩
  | inside around b depth chars =>
    obtain ⟨part, closed⟩ :=
      read_inside_closing ⟨.word, emitted, parts, buffer, quoted, assigned⟩ around b depth chars
    rw [closed]
    exact ⟨rfl, rfl⟩

/-- Where the input must not end, the construct stands in a word, and only that word is open once
the construct is closed. -/
theorem mode_closing {s : State} (stops : s.mode.final = false) :
    (read s s.mode.closing).mode = .word := by
  obtain ⟨mode, emitted, parts, buffer, quoted, assigned⟩ := s
  cases mode with
  | gap | comment | word => cases stops
  | gapEscape | wordEscape | single | double | doubleEscape => rfl
  | dollar around | name around chars =>
    cases around with
    | bare => cases stops
    | quotes => rfl
  | inside around b depth chars =>
    obtain ⟨part, closed⟩ :=
      read_inside_closing ⟨.word, emitted, parts, buffer, quoted, assigned⟩ around b depth chars
    rw [closed]

theorem finish_of_word {s : State} (word : s.mode = .word) :
    ∃ w, s.finish = .ok (s.tokens ++ [.word w]) :=
  ⟨s.flush.parts.reverse, by simp [finish, word, endWord, tokens]⟩

theorem finish_of_final {s : State} (final : s.mode.final) : ∃ ts, s.finish = .ok ts := by
  rcases Mode.final_cases final with mode | mode | word
  · exact ⟨_, by simp [finish, mode]; rfl⟩
  · exact ⟨_, by simp [finish, mode]; rfl⟩
  · obtain ⟨w, -, finish⟩ := endsWord_word word
    exact ⟨_, finish⟩

end State

end Lexer

open SessionShell.Parser Lexer

/-- Characters that close what is open at the end of a text, and a word behind them in case that a
command is still needed there. -/
def completion (text : String) : String :=
  String.ofList ((read {} text.toList).mode.closing ++ ['\n', 'x'])

/-- The lexer fails only where a text stops inside a construct, which some characters close; they
complete the word that the construct stands in, and no other token. Whatever comes behind a text,
what was emitted for it stays. -/
theorem open_text_continues (text : String) :
    (∀ e, tokenize text = .error e →
      ∃ more w, tokenize (text ++ more) = .ok (tokensBefore text ++ [.word w])) ∧
    (∀ ts, tokenize text = .ok ts →
      ts = tokensBefore text ∨ ∃ w, ts = tokensBefore text ++ [.word w]) ∧
    ∀ more ts, tokenize (text ++ more) = .ok ts → tokensBefore text <+: ts := by
  refine ⟨fun e stops => ?_, fun ts lexed => finish_eq_ok lexed, fun more ts whole => ?_⟩
  · obtain ⟨w, finish⟩ := State.finish_of_word (State.mode_closing (State.not_final_of_finish stops))
    rw [(State.closes_closing (read {} text.toList)).2, ← read_append] at finish
    refine ⟨.ofList (read {} text.toList).mode.closing, w, ?_⟩
    rw [tokenize, String.toList_append, String.toList_ofList]
    exact finish
  · obtain ⟨rest, rfl⟩ := tokenize_append whole
    exact List.prefix_append _ _

/-- Two substitutions in quotes, the inner one without its quotes, and a text whose last word is still
open. -/
theorem open_text_continues_nested :
    (tokenize "a | \"$(b (c" = .error .commandSubstitution ∧
      ∃ more w, tokenize ("a | \"$(b (c" ++ more) =
        .ok (tokensBefore "a | \"$(b (c" ++ [.word w])) ∧
    (tokenize "a;n=b" = .ok [.word [.literal "a"], .semicolon, .assign "n", .word [.literal "b"]] ∧
      tokensBefore "a;n=b" <+: [.word [.literal "a"], .semicolon, .assign "n",
        .word [.literal "bc"], .newline]) := by
  have stops : tokenize "a | \"$(b (c" = .error .commandSubstitution := by rfl
  exact ⟨⟨stops, (open_text_continues "a | \"$(b (c").1 _ stops⟩,
    by rfl, (open_text_continues "a;n=b").2.2 "c\n" _ (by rfl)⟩

theorem tokenize_completion (text : String) :
    ∃ front w, tokenize (text ++ completion text) =
        .ok (tokensBefore text ++ front ++ [.word w]) ∧
      ∀ t ∈ front, t = .newline ∨ ∃ v, t = .word v := by
  obtain ⟨final, kept⟩ := State.closes_closing (read {} text.toList)
  obtain ⟨ts, finish⟩ := State.finish_of_final final
  have tidy := State.tidy_read (State.tidy_read State.tidy_init text.toList)
    (read {} text.toList).mode.closing
  have completed : tokenize (text ++ completion text) =
      .ok (ts ++ [.newline] ++ [.word [.literal "x"]]) := by
    rw [tokenize, completion, String.toList_append, String.toList_ofList, read_append, read_append,
      read_cons, State.step_newline tidy finish, read_behind, State.finish_behind]
    rfl
  rcases finish_eq_ok finish with same | ⟨w, same⟩
  · rw [kept] at same
    refine ⟨[.newline], [.literal "x"], ?_, by simp⟩
    rw [completed, same]
    rfl
  · rw [kept] at same
    refine ⟨[.word w, .newline], [.literal "x"], ?_, by simp⟩
    rw [completed, same]
    simp [tokensBefore]

namespace Parser

theorem Progress.goes_steps {p : Progress} (goes : p ≠ .failed) {ts : List Token}
    (plain : ∀ t ∈ ts, t = .newline ∨ ∃ w, t = .word w) : p.steps ts ≠ .failed := by
  induction ts generalizing p with
  | nil => exact goes
  | cons t ts ih =>
    refine ih (p := p.step t) ?_ fun u hu => plain u (List.mem_cons_of_mem _ hu)
    rcases plain t List.mem_cons_self with rfl | ⟨w, rfl⟩
    · cases p <;> first | exact goes | exact Progress.noConfusion
    · cases p <;> first | exact goes | exact Progress.noConfusion

theorem Progress.finish_step_word {p : Progress} (goes : p ≠ .failed) (w : Word) :
    ∃ program, (p.step (.word w)).finish = .ok program := by
  cases p with
  | ready | command | piped => exact ⟨_, rfl⟩
  | failed => exact absurd rfl goes

theorem parseTokens_eq_emptyCommand_iff {ts : List Token} :
    parseTokens ts = .error .emptyCommand ↔ (Progress.ready []).steps ts = .failed := by
  rw [parseTokens_eq]
  cases (Progress.ready []).steps ts <;> simp [Progress.finish]

end Parser

/-- A text can be completed exactly if the parser goes on with what was emitted in front of its
end. -/
theorem completable_iff_goes (text : String) :
    (∃ more program, parse (text ++ more) = .ok program) ↔
      (Progress.ready []).steps (tokensBefore text) ≠ .failed := by
  constructor
  · rintro ⟨more, program, whole⟩ stuck
    rcases parse_append_of_stuck stuck more with rejected | ⟨l, rejected⟩
    · rw [whole] at rejected
      cases rejected
    · rw [whole] at rejected
      cases rejected
  · intro goes
    obtain ⟨front, w, lexed, plain⟩ := tokenize_completion text
    obtain ⟨program, finish⟩ := Progress.finish_step_word (Progress.goes_steps goes plain) w
    refine ⟨completion text, program, ?_⟩
    rw [parse_of_tokens lexed, Progress.steps_append, Progress.steps_append, Progress.steps_cons,
      Progress.steps_nil, finish]
    rfl

theorem goes_of_unexpectedEnd {text : String}
    (rejected : parse text = .error (.parse .unexpectedEnd)) :
    (Progress.ready []).steps (tokensBefore text) ≠ .failed := by
  intro stuck
  have whole := parse_append_of_stuck stuck ""
  rw [String.append_empty, rejected] at whole
  rcases whole with same | ⟨l, same⟩
  · cases same
  · cases same

/-- An incomplete text can be completed if it is the parser that asks for more. If a construct is
open, it can be completed exactly if the tokens in front of the construct have no separator where a
command is needed. -/
theorem completable_iff {text : String} {e : SyntaxError} (rejected : parse text = .error e)
    (incomplete : e.isIncomplete = true) :
    (∃ more program, parse (text ++ more) = .ok program) ↔
      e = .parse .unexpectedEnd ∨ parseTokens (tokensBefore text) ≠ .error .emptyCommand := by
  rw [completable_iff_goes, Ne, Ne, parseTokens_eq_emptyCommand_iff]
  constructor
  · exact .inr
  · rintro (rfl | goes)
    · exact goes_of_unexpectedEnd rejected
    · exact goes

theorem completable_iff_brackets :
    let text := "echo a | \"$(b (c"
    parse text = .error (.lex .commandSubstitution) ∧
      ∃ more program, parse (text ++ more) = .ok program := by
  have rejected : parse "echo a | \"$(b (c" = .error (.lex .commandSubstitution) :=
    parse_of_lexError (by rfl)
  have goes : parseTokens (tokensBefore "echo a | \"$(b (c") ≠ .error .emptyCommand := by
    rw [Ne, parseTokens_eq_emptyCommand_iff]
    exact Progress.noConfusion
  exact ⟨rejected, (completable_iff rejected rfl).mpr (.inr goes)⟩

/-- A pipe without a command in front, and an open quote behind it: the text is called incomplete,
and nothing completes it. -/
theorem open_quote_stuck :
    parse "| 'open" = .error (.lex .quote) ∧
      SyntaxError.isIncomplete (.lex .quote) = true ∧
      ∀ more program, parse ("| 'open" ++ more) ≠ .ok program := by
  refine ⟨parse_of_lexError (by rfl), rfl, fun more program whole => ?_⟩
  have stuck : (Progress.ready []).steps (tokensBefore "| 'open") = .failed := by rfl
  exact (completable_iff_goes "| 'open").mp ⟨more, program, whole⟩ stuck

end SessionShell
