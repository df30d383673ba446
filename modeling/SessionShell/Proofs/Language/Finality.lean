import SessionShell.Proofs.Language.Progress
import SessionShell.Proofs.Language.Reading

/-! Text that is invalid stays so whatever follows. The separator at which the parser fails has been
emitted when the text ends, and nothing that follows takes a token back. -/

namespace SessionShell

namespace Parser.Progress

theorem eq_failed_of_step_word {p : Progress} {w : Word} (h : p.step (.word w) = .failed) :
    p = .failed := by
  cases p <;> first | rfl | cases h

end Parser.Progress

open SessionShell.Parser

theorem steps_tokensBefore {text : String} {e : SyntaxError} (rejected : parse text = .error e)
    (invalid : e.isIncomplete = false) :
    e = .parse .emptyCommand ∧ (Progress.ready []).steps (tokensBefore text) = .failed := by
  cases lexed : tokenize text with
  | error l =>
    rw [parse_of_lexError lexed] at rejected
    cases rejected
    cases invalid
  | ok ts =>
    rw [parse_of_tokens lexed] at rejected
    generalize left : (Progress.ready []).steps ts = p at rejected
    cases p with
    | ready | command => cases rejected
    | piped => cases rejected; cases invalid
    | failed =>
      cases rejected
      refine ⟨rfl, ?_⟩
      -- the end of the text may have ended a word, and no word makes the machine fail
      rcases Lexer.finish_eq_ok lexed with rfl | ⟨w, rfl⟩
      · exact left
      · rw [Progress.steps_append] at left
        exact Progress.eq_failed_of_step_word left

theorem parse_append_of_stuck {text : String}
    (stuck : (Progress.ready []).steps (tokensBefore text) = .failed) (more : String) :
    parse (text ++ more) = .error (.parse .emptyCommand) ∨
      ∃ l, parse (text ++ more) = .error (.lex l) := by
  cases lexed : tokenize (text ++ more) with
  | error l => exact .inr ⟨l, parse_of_lexError lexed⟩
  | ok ts =>
    obtain ⟨rest, rfl⟩ := tokenize_append lexed
    rw [parse_of_tokens lexed, Progress.steps_append, stuck, Progress.steps_failed]
    exact .inl rfl

theorem isIncomplete_of_parse_append {text more : String} {program : Program} {e : SyntaxError}
    (whole : parse (text ++ more) = .ok program) (rejected : parse text = .error e) :
    e.isIncomplete := by
  cases kind : e.isIncomplete with
  | true => rfl
  | false =>
    obtain ⟨-, stuck⟩ := steps_tokensBefore rejected kind
    rcases parse_append_of_stuck stuck more with failed | ⟨l, failed⟩
    · rw [failed] at whole
      cases whole
    · rw [failed] at whole
      cases whole

/-- Whatever follows an invalid text, the whole fails: in the same way, or because it stops inside a
construct. So no beginning of a program is ever found invalid. -/
theorem invalid_append {text : String} {e : SyntaxError} (rejected : parse text = .error e)
    (invalid : e.isIncomplete = false) (more : String) :
    parse (text ++ more) = .error e ∨ ∃ l, parse (text ++ more) = .error (.lex l) := by
  obtain ⟨rfl, stuck⟩ := steps_tokensBefore rejected invalid
  exact parse_append_of_stuck stuck more

theorem invalid_append_quote :
    parse "echo a ;; wc" = .error (.parse .emptyCommand) ∧
      (parse ("echo a ;; wc" ++ " 'open") = .error (.parse .emptyCommand) ∨
        ∃ l, parse ("echo a ;; wc" ++ " 'open") = .error (.lex l)) := by
  have lexed : tokenize "echo a ;; wc" =
      .ok [.word [.literal "echo"], .word [.literal "a"], .semicolon, .semicolon,
        .word [.literal "wc"]] := by rfl
  have rejected : parse "echo a ;; wc" = .error (.parse .emptyCommand) := parse_of_tokens lexed
  exact ⟨rejected, invalid_append rejected rfl " 'open"⟩

end SessionShell
