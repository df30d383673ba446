import SessionShell.Proofs.Translation.Idle

/-! How the lexer reads the blanks at the end of a line, and the newline behind them. Without the
blanks it waits in the mode in front of them, and with them it reads on to another. -/

namespace SessionShell.Lexer

open Text

section Blank

variable {c : Char} (blank : isBlank c)
include blank

/-- The mode that reads the text without a blank waits for the end of the line, where the other mode
reads on through the blanks in front of it. -/
def Waits (ahead : Mode) : Mode → Prop
  | .gap | .word | .dollar .bare | .name .bare _ | .gapEscape | .wordEscape =>
    ahead = .gap ∨ ahead = .word
  | .double | .doubleEscape | .dollar .quotes | .name .quotes _ => ahead = .double
  | .single => ahead = .single
  | .comment => ahead = .comment
  | .inside _ _ _ _ => False

theorem numberSign_notMem_blank : .char '#' ∉ [Atom.char c] := by
  have other := ne_of_blank blank (d := '#') (by decide)
  simpa using other.symm

/-- A blank at the end of a line leads to a mode that the old one waits for, and adds what is
pending, and more unless it is idle. -/
def Starts (m : Mode) (c : Char) : Prop :=
  Waits (m.take c).1 m ∧ ∃ v, (m.take c).2 = m.pending ++ v ∧ .char '#' ∉ v ∧
    ∀ back, m.idle c back = false → v ≠ []

omit blank in
theorem starts_of_take {m ahead : Mode} {v : List Atom} (taken : m.take c = (ahead, m.pending ++ v))
    (waits : Waits ahead m) (plain : .char '#' ∉ v) (some : v ≠ []) : Starts m c := by
  rw [Starts, taken]
  exact ⟨waits, v, rfl, plain, fun _ _ => some⟩

theorem starts_bare (inLine : c ≠ '\n') {m : Mode}
    (taken : m.take c = ((Around.bare.take c).1, m.pending ++ (Around.bare.take c).2))
    (idle : ∀ back, m.idle c back = (c == ' ' || c == '\t' || c == '\r'))
    (waits : ∀ ahead, ahead = .gap ∨ ahead = .word → Waits ahead m) : Starts m c := by
  rcases take_bare_blank blank inLine with ⟨ends, ending⟩ | adds
  · rw [Starts, taken, ends]
    refine ⟨waits _ (.inl rfl), [], rfl, by simp, fun back counts => ?_⟩
    rw [idle, ending] at counts
    cases counts
  · rw [adds] at taken
    exact starts_of_take taken (waits _ (.inr rfl)) (numberSign_notMem_blank blank) (by simp)

theorem starts {m : Mode} (outside : ∀ around b depth chars, m ≠ .inside around b depth chars)
    (inLine : c ≠ '\n') : Starts m c := by
  have plain := numberSign_notMem_blank blank
  have quoted := take_quotes_blank blank
  cases m with
  | gap => exact starts_bare blank inLine (take_gap_blank blank) (fun _ => rfl) fun _ mode => mode
  | word => exact starts_bare blank inLine rfl (fun _ => rfl) fun _ mode => mode
  | comment =>
    have taken : Mode.comment.take c = (.comment, []) := by simp only [Mode.take, if_neg inLine]
    rw [Starts, taken]
    exact ⟨rfl, [], rfl, by simp, fun back counts => by cases counts⟩
  | gapEscape | wordEscape =>
    exact starts_of_take (if_neg inLine) (.inr rfl) plain (by simp)
  | single =>
    exact starts_of_take (if_neg (ne_of_blank blank (by decide))) rfl plain (by simp)
  | double => exact starts_of_take quoted rfl plain (by simp)
  | doubleEscape =>
    exact starts_of_take (take_doubleEscape_blank blank inLine) rfl (by simpa using plain) (by simp)
  | dollar around =>
    have taken := take_dollar_blank blank around
    cases around with
    | bare => exact starts_bare blank inLine taken (fun _ => rfl) fun _ mode => mode
    | quotes =>
      rw [quoted] at taken
      exact starts_of_take taken rfl plain (by simp)
  | name around chars =>
    have taken := take_name_blank blank around chars
    cases around with
    | bare => exact starts_bare blank inLine taken (fun _ => rfl) fun _ mode => mode
    | quotes =>
      rw [quoted] at taken
      exact starts_of_take taken rfl plain (by simp)
  | inside around b depth chars => exact absurd rfl (outside around b depth chars)

theorem waits_blank {ahead m : Mode} (waits : Waits ahead m) (inLine : c ≠ '\n') :
    Waits (ahead.take c).1 m ∧ .char '#' ∉ (ahead.take c).2 := by
  have plain := numberSign_notMem_blank blank
  have bare : (ahead = .gap ∨ ahead = .word) →
      ((ahead.take c).1 = .gap ∨ (ahead.take c).1 = .word) ∧ .char '#' ∉ (ahead.take c).2 := by
    intro mode
    have taken : ahead.take c = Around.bare.take c := by
      rcases mode with rfl | rfl
      · exact take_gap_blank blank
      · rfl
    rw [taken]
    rcases take_bare_blank blank inLine with ⟨ends, -⟩ | adds
    · rw [ends]
      exact ⟨.inl rfl, by simp⟩
    · rw [adds]
      exact ⟨.inr rfl, plain⟩
  have quotes : ahead = .double →
      (ahead.take c).1 = .double ∧ .char '#' ∉ (ahead.take c).2 := by
    rintro rfl
    have taken : Mode.double.take c = (.double, [.char c]) := take_quotes_blank blank
    rw [taken]
    exact ⟨rfl, plain⟩
  cases m with
  | gap | word | gapEscape | wordEscape => exact bare waits
  | double | doubleEscape => exact quotes waits
  | dollar around | name around chars =>
    cases around with
    | bare => exact bare waits
    | quotes => exact quotes waits
  | single =>
    cases waits
    have other := ne_of_blank blank (d := '\'') (by decide)
    simpa [Waits, Mode.take, other] using plain
  | comment =>
    cases waits
    simp [Waits, Mode.take, inLine]
  | inside => cases waits

end Blank

/-- The modes in which the text with a blank and the text without it can go on. -/
inductive Skew : Mode → Mode → Prop
  | same (m : Mode) : Skew m m
  /-- The line ended for the one text and went on for the other, behind a backslash. -/
  | gap : Skew .gap .word
  | escape : Skew .gapEscape .wordEscape
  | inside (around : Around) (b : Bracket) (depth : Nat) (xs ys : List Char) :
    Skew (.inside around b depth xs) (.inside around b depth ys)

theorem waits_newline {ahead m : Mode} (waits : Waits ahead m) :
    Skew (ahead.take '\n').1 (m.take '\n').1 ∧
      ((m.take '\n').2 = m.pending ++ (ahead.take '\n').2 ∨
        (m.take '\n').2 = m.pending ∧ .char '#' ∉ (ahead.take '\n').2) := by
  cases m with
  | gap | word | gapEscape => rcases waits with rfl | rfl <;> exact ⟨.same .gap, .inl rfl⟩
  | wordEscape => rcases waits with rfl | rfl <;> exact ⟨.gap, .inl rfl⟩
  | double => cases waits; exact ⟨.same .double, .inl rfl⟩
  | doubleEscape => cases waits; exact ⟨.same .double, .inr ⟨rfl, by decide⟩⟩
  | dollar around | name around chars =>
    cases around with
    | bare => rcases waits with rfl | rfl <;> exact ⟨.same .gap, .inl rfl⟩
    | quotes => cases waits; exact ⟨.same .double, .inl rfl⟩
  | single => cases waits; exact ⟨.same .single, .inl rfl⟩
  | comment => cases waits; exact ⟨.same .gap, .inl rfl⟩
  | inside => cases waits

/-- The part that a substitution will be, when this much of it has been read and this follows. -/
def Bracket.whole (b : Bracket) (depth : Nat) (chars cs : List Char) : WordPart :=
  b.part (chars.reverse ++ b.upTo depth cs)

theorem take_inside (around : Around) (b : Bracket) (depth : Nat) (c : Char) :
    (∃ deeper, ∀ chars cs,
      (Mode.inside around b depth chars).take c = (.inside around b deeper (c :: chars), []) ∧
        b.whole depth chars (c :: cs) = b.whole deeper (c :: chars) cs) ∨
    ∀ chars cs,
      (Mode.inside around b depth chars).take c =
          (around.mode, (b.whole depth chars (c :: cs)).atoms) := by
  simp only [Mode.take, Bracket.whole, Bracket.upTo_cons]
  by_cases opens : c = b.opening
  · exact .inl ⟨depth + 1, fun chars cs => by simp [opens]⟩
  by_cases closes : c = b.closing
  · simp only [if_neg opens, if_pos closes]
    cases depth with
    | zero => exact .inr fun chars cs => by simp
    | succ depth => exact .inl ⟨depth, fun chars cs => by simp⟩
  · exact .inl ⟨depth, fun chars cs => by simp [opens, closes]⟩

theorem whole_blank {c : Char} (blank : isBlank c) (b : Bracket) (depth : Nat)
    (chars cs : List Char) : b.whole depth chars (c :: cs) = b.whole depth (c :: chars) cs := by
  simp [Bracket.whole, Bracket.upTo_blank blank]

end SessionShell.Lexer
