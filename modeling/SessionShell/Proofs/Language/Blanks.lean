import SessionShell.Proofs.Language.Modes

/-! How the lexer reads blanks, newlines among them. A blank is no part of a name and no bracket, so
it ends a substitution without brackets and stays inside the others. -/

namespace SessionShell.Lexer

open Text

namespace Bracket

theorem opening_ne {c : Char} (blank : isBlank c) (b : Bracket) : c ≠ b.opening :=
  ne_of_blank blank (by cases b <;> decide)

theorem closing_ne {c : Char} (blank : isBlank c) (b : Bracket) : c ≠ b.closing :=
  ne_of_blank blank (by cases b <;> decide)

end Bracket

section Blank

variable {c : Char} (blank : isBlank c)
include blank

theorem isNameChar_blank : isNameChar c = false := by
  have other : c ≠ '_' := ne_of_blank blank (by decide)
  rw [Bool.eq_false_iff]
  intro named
  unfold isNameChar Char.isAlphanum Char.isAlpha Char.isUpper Char.isLower Char.isDigit at named
  simp only [UInt32.le_iff_toNat_le, ge_iff_le, Bool.or_eq_true, Bool.and_eq_true,
    decide_eq_true_eq, beq_iff_eq, other, or_false, Char.reduceVal, UInt32.reduceToNat] at named
  simp only [isBlank, Char.toNat, Bool.or_eq_true, Bool.and_eq_true, decide_eq_true_eq,
    beq_iff_eq] at blank
  omega

theorem isNameStart_blank : isNameStart c = false := by
  have := isNameChar_blank blank
  simp only [isNameChar, Char.isAlphanum, Bool.or_eq_false_iff] at this
  simp only [isNameStart, this, Bool.or_false]

theorem take_bare_blank (inLine : c ≠ '\n') :
    (Around.bare.take c = (.gap, []) ∧ (c == ' ' || c == '\t' || c == '\r')) ∨
      Around.bare.take c = (.word, [.char c]) := by
  simp only [Around.take]
  split
  case h_1 | h_2 | h_3 => exact .inl ⟨rfl, rfl⟩
  case h_6 => exact absurd rfl inLine
  case h_11 => exact .inr rfl
  all_goals exact absurd rfl (ne_of_blank blank (by decide))

theorem take_quotes_blank : Around.quotes.take c = (.double, [.char c]) := by
  simp only [Around.take]
  split
  case h_4 => rfl
  all_goals exact absurd rfl (ne_of_blank blank (by decide))

theorem take_gap_blank : Mode.gap.take c = Around.bare.take c := by
  simp only [Mode.take]
  split
  case h_3 => rfl
  all_goals exact absurd rfl (ne_of_blank blank (by decide))

theorem take_doubleEscape_blank (inLine : c ≠ '\n') :
    Mode.doubleEscape.take c = (.double, [.char '\\', .char c]) := by
  simp only [Mode.take]
  split
  case h_1 => exact absurd rfl inLine
  case h_5 => rfl
  all_goals exact absurd rfl (ne_of_blank blank (by decide))

theorem take_dollar_blank (around : Around) :
    (Mode.dollar around).take c =
      ((around.take c).1, (Mode.dollar around).pending ++ (around.take c).2) := by
  simp only [Mode.take]
  rw [if_neg (Bracket.opening_ne blank _), if_neg (Bracket.opening_ne blank _),
    if_neg (ne_of_blank blank (by decide)), isNameStart_blank blank, if_neg (by simp)]
  rfl

theorem take_name_blank (around : Around) (chars : List Char) :
    (Mode.name around chars).take c =
      ((around.take c).1, (Mode.name around chars).pending ++ (around.take c).2) := by
  simp only [Mode.take]
  rw [isNameChar_blank blank, if_neg (by simp)]
  rfl

theorem take_inside_blank (around : Around) (b : Bracket)
    (depth : Nat) (chars : List Char) :
    (Mode.inside around b depth chars).take c = (.inside around b depth (c :: chars), []) := by
  simp only [Mode.take]
  rw [if_neg (Bracket.opening_ne blank b), if_neg (Bracket.closing_ne blank b)]

end Blank

theorem take_space {m : Mode} (word : m.endsWord) : m.take ' ' = (.gap, m.pending) := by
  rcases Mode.endsWord_cases word with rfl | rfl | ⟨chars, rfl⟩ <;> rfl

namespace State

theorem endWord_mode (s : State) (m : Mode) :
    ({ s with mode := m } : State).endWord = s.endWord := by
  simp only [endWord, flush]
  split <;> rfl

theorem endsWord_word {u : State} (word : u.mode.endsWord) :
    ∃ w : State, (∀ c, isBlank c → u.step c = w.stepWord c) ∧ u.finish = .ok w.endWord.tokens := by
  rcases Mode.endsWord_cases word with mode | mode | ⟨chars, mode⟩
  · exact ⟨u, fun c _ => by simp [step, mode], by simp [finish, mode]⟩
  · refine ⟨u.push '$', fun c blank => ?_, by simp [finish, mode]⟩
    simp only [step, mode, stepDollar]
    rw [if_neg (Bracket.opening_ne blank _), if_neg (Bracket.opening_ne blank _),
      if_neg (ne_of_blank blank (by decide)), isNameStart_blank blank, if_neg (by simp)]
    rfl
  · refine ⟨u.addPart (.parameter (String.ofList chars.reverse)), fun c blank => ?_,
      by simp [finish, mode]⟩
    simp only [step, mode, stepName]
    rw [isNameChar_blank blank, if_neg (by simp)]
    rfl

theorem step_space {u : State} (word : u.mode.endsWord) :
    (u.step ' ').mode = .gap ∧ (u.step ' ').step '\n' = u.step '\n' ∧
      (u.step ' ').finish = u.finish ∧
      ∀ c, (c == ' ' || c == '\t' || c == '\r') → u.step c = u.step ' ' := by
  obtain ⟨w, ends, finish⟩ := endsWord_word word
  have space : u.step ' ' = w.endWord := (ends ' ' (by decide)).trans (w.endWord_mode .word)
  have newline : u.step '\n' = w.endWord.emit .newline := by
    rw [ends '\n' (by decide), ← w.endWord_mode .word]
    rfl
  refine ⟨by rw [space]; rfl, by rw [space, newline]; rfl, by rw [space, finish]; rfl, ?_⟩
  intro c blank
  simp only [Bool.or_eq_true, beq_iff_eq] at blank
  rcases blank with (rfl | rfl) | rfl
  · rfl
  · exact (ends '\t' (by decide)).trans (ends ' ' (by decide)).symm
  · exact (ends '\r' (by decide)).trans (ends ' ' (by decide)).symm

theorem step_gap {s : State} (gap : s.mode = .gap) {c : Char}
    (blank : c == ' ' || c == '\t' || c == '\r') : s.step c = s := by
  simp only [Bool.or_eq_true, beq_iff_eq] at blank
  rcases blank with (rfl | rfl) | rfl <;> simp [step, gap, stepGap]

theorem step_inside_blank {c : Char} (blank : isBlank c) (r : State) (around : Around) (b : Bracket)
    (depth : Nat) (chars : List Char) :
    ({ r with mode := .inside around b depth chars } : State).step c =
      { r with mode := .inside around b depth (c :: chars) } := by
  simp only [step, stepInside]
  rw [if_neg (Bracket.opening_ne blank b), if_neg (Bracket.closing_ne blank b)]

theorem unfinished_newline {s : State} (tidy : s.Tidy) (stops : s.mode.final = false)
    (complete : s.mode.escapes = false) :
    (s.step '\n').mode.final = false ∧ (s.step '\n').mode.escapes = false := by
  rw [(takes_step tidy '\n').1]
  cases mode : s.mode with
  | gap | comment | word => rw [mode] at stops; cases stops
  | gapEscape | wordEscape => rw [mode] at complete; cases complete
  | single | double | doubleEscape => exact ⟨rfl, rfl⟩
  | dollar around | name around chars =>
    rw [mode] at stops
    cases around with
    | bare => cases stops
    | quotes => exact ⟨rfl, rfl⟩
  | inside around b depth chars =>
    rw [take_inside_blank (by decide)]
    exact ⟨rfl, rfl⟩

end State

end SessionShell.Lexer
