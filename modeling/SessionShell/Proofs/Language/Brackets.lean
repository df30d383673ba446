import SessionShell.Proofs.Language.Completion

/-! Where a substitution ends. The brackets in it are counted as they stand, in words, quotes,
escapes and comments alike, and it ends with the first one that closes more than was opened. So a
text can be put into a substitution as it is exactly if its brackets balance. -/

namespace SessionShell

namespace Lexer

namespace Bracket

/-- With this many levels open around it, no beginning of the text closes more than there are. -/
def Within (b : Bracket) (depth : Nat) (cs : List Char) : Prop :=
  ∀ front, front <+: cs → front.count b.closing ≤ front.count b.opening + depth

/-- No bracket is closed before it is opened, and none is left open. -/
structure Balanced (b : Bracket) (cs : List Char) : Prop where
  opened : b.Within 0 cs
  closed : cs.count b.closing = cs.count b.opening

variable {b : Bracket} {depth : Nat} {c : Char} {cs : List Char}

theorem within_nil (b : Bracket) (depth : Nat) : b.Within depth [] := by
  intro front start
  rw [List.prefix_nil.mp start]
  exact Nat.zero_le _

theorem within_cons : b.Within depth (c :: cs) ↔ ∀ front, front <+: cs →
    (c :: front).count b.closing ≤ (c :: front).count b.opening + depth := by
  constructor
  · intro within front start
    exact within (c :: front) (List.cons_prefix_cons.mpr ⟨rfl, start⟩)
  · intro within front start
    cases front with
    | nil => exact Nat.zero_le _
    | cons d front =>
      obtain ⟨rfl, later⟩ := List.cons_prefix_cons.mp start
      exact within front later

theorem within_opening : b.Within depth (b.opening :: cs) ↔ b.Within (depth + 1) cs := by
  rw [within_cons]
  refine forall₂_congr fun front _ => ?_
  rw [List.count_cons_self, List.count_cons_of_ne b.closing_ne_opening.symm]
  omega

theorem within_closing : b.Within (depth + 1) (b.closing :: cs) ↔ b.Within depth cs := by
  rw [within_cons]
  refine forall₂_congr fun front _ => ?_
  rw [List.count_cons_self, List.count_cons_of_ne b.closing_ne_opening]
  omega

theorem not_within_closing : ¬b.Within 0 (b.closing :: cs) := by
  intro within
  have bound := within_cons.mp within [] List.nil_prefix
  simp [b.closing_ne_opening] at bound

theorem within_plain (opens : c ≠ b.opening) (closes : c ≠ b.closing) :
    b.Within depth (c :: cs) ↔ b.Within depth cs := by
  rw [within_cons]
  refine forall₂_congr fun front _ => ?_
  rw [List.count_cons_of_ne opens, List.count_cons_of_ne closes]

theorem exists_of_not_within (excess : ¬b.Within depth cs) :
    ∃ front rest, cs = front ++ b.closing :: rest ∧ b.Within depth front ∧
      front.count b.closing = front.count b.opening + depth := by
  have other := b.closing_ne_opening
  induction cs generalizing depth with
  | nil => exact absurd (within_nil b depth) excess
  | cons c cs ih =>
    by_cases opens : c = b.opening
    · subst opens
      obtain ⟨front, rest, rfl, within, level⟩ := ih (mt within_opening.mpr excess)
      refine ⟨b.opening :: front, rest, rfl, within_opening.mpr within, ?_⟩
      rw [List.count_cons_self, List.count_cons_of_ne other.symm]
      omega
    by_cases closes : c = b.closing
    · subst closes
      cases depth with
      | zero => exact ⟨[], cs, rfl, within_nil b 0, rfl⟩
      | succ depth =>
        obtain ⟨front, rest, rfl, within, level⟩ := ih (mt within_closing.mpr excess)
        refine ⟨b.closing :: front, rest, rfl, within_closing.mpr within, ?_⟩
        rw [List.count_cons_self, List.count_cons_of_ne other]
        omega
    · obtain ⟨front, rest, rfl, within, level⟩ := ih (mt (within_plain opens closes).mpr excess)
      refine ⟨c :: front, rest, rfl, (within_plain opens closes).mpr within, ?_⟩
      rwa [List.count_cons_of_ne opens, List.count_cons_of_ne closes]

end Bracket

namespace State

variable (s : State) (around : Around) (b : Bracket)

theorem read_within {depth : Nat} {cs : List Char} (within : b.Within depth cs)
    (chars : List Char) :
    read { s with mode := .inside around b depth chars } cs =
      let level := cs.count b.opening + depth - cs.count b.closing
      { s with mode := .inside around b level (cs.reverse ++ chars) } := by
  have other := b.closing_ne_opening
  induction cs generalizing depth chars with
  | nil => simp
  | cons c cs ih =>
    by_cases opens : c = b.opening
    · subst opens
      have later := Bracket.within_opening.mp within
      have step : ({ s with mode := .inside around b depth chars } : State).step b.opening =
          { s with mode := .inside around b (depth + 1) (b.opening :: chars) } := by
        simp [State.step, stepInside]
      have level : cs.count b.opening + (depth + 1) = cs.count b.opening + 1 + depth := by omega
      rw [read_cons, step, ih later, List.count_cons_self, List.count_cons_of_ne other.symm, level,
        List.reverse_cons, List.append_assoc, List.singleton_append]
    by_cases closes : c = b.closing
    · subst closes
      cases depth with
      | zero => exact absurd within Bracket.not_within_closing
      | succ depth =>
        have later := Bracket.within_closing.mp within
        have step : ({ s with mode := .inside around b (depth + 1) chars } : State).step b.closing =
            { s with mode := .inside around b depth (b.closing :: chars) } := by
          simp [State.step, stepInside, other]
        have level : cs.count b.opening + (depth + 1) - (cs.count b.closing + 1) =
            cs.count b.opening + depth - cs.count b.closing := by omega
        rw [read_cons, step, ih later, List.count_cons_self, List.count_cons_of_ne other, level,
          List.reverse_cons, List.append_assoc, List.singleton_append]
    · have later := (Bracket.within_plain opens closes).mp within
      have step : ({ s with mode := .inside around b depth chars } : State).step c =
          { s with mode := .inside around b depth (c :: chars) } := by
        simp [State.step, stepInside, opens, closes]
      rw [read_cons, step, ih later, List.count_cons_of_ne opens, List.count_cons_of_ne closes,
        List.reverse_cons, List.append_assoc, List.singleton_append]

theorem read_closing {cs : List Char} (balanced : b.Balanced cs) :
    read { s with mode := .inside around b 0 [] } (cs ++ [b.closing]) =
      { s.addPart (b.part cs) with mode := around.mode } := by
  rw [read_append, read_within s around b balanced.opened, balanced.closed, Nat.add_zero,
    Nat.sub_self, List.append_nil]
  simp [step, stepInside, b.closing_ne_opening, addPart]

theorem atoms_read {s : State} (tidy : s.Tidy) (cs : List Char) :
    s.atoms <+: (read s cs).atoms := by
  induction cs generalizing s with
  | nil => exact List.prefix_rfl
  | cons c cs ih =>
    obtain ⟨-, adds⟩ := takes_step tidy c
    have first : s.atoms <+: (s.step c).atoms := ⟨_, adds.symm⟩
    exact first.trans (ih (tidy_step tidy c))

end State

namespace Mode

def level : Mode → Nat
  | .inside _ .command depth _ => depth + 1
  | _ => 0

/-- Whether a parenthesis that is read in this mode belongs to a command substitution. -/
def owns : Mode → Char → Bool
  | .dollar _, c => c = '('
  | .inside _ .command _ _, _ => true
  | _, _ => false

theorem level_mode (around : Around) : around.mode.level = 0 := by
  cases around <;> rfl

theorem level_take_around (around : Around) (c : Char) : (around.take c).1.level = 0 := by
  cases around <;> unfold Around.take <;> dsimp only <;> split <;> rfl

theorem level_take_plain {m : Mode} {c : Char} (opens : c ≠ '(') (closes : c ≠ ')') :
    (m.take c).1.level = m.level := by
  cases m with
  | gap => unfold take; dsimp only; split <;> first | rfl | exact level_take_around .bare c
  | comment | gapEscape | wordEscape | single => unfold take; dsimp only; split <;> rfl
  | word => exact level_take_around .bare c
  | double => exact level_take_around .quotes c
  | doubleEscape => unfold take; dsimp only; split <;> rfl
  | dollar around =>
    have other : c ≠ Bracket.opening .command := opens
    unfold take
    dsimp only
    rw [if_neg other]
    split
    · rfl
    split
    · exact level_mode around
    split
    · rfl
    · exact level_take_around around c
  | name around chars =>
    unfold take
    dsimp only
    split
    · rfl
    · exact level_take_around around c
  | inside around b depth chars =>
    cases b with
    | command => simp only [take, Bracket.opening, Bracket.closing, opens, closes, if_false, level]
    | parameter =>
      unfold take
      dsimp only
      split
      · rfl
      split
      · cases depth with
        | zero => exact level_mode around
        | succ depth => rfl
      · rfl

theorem level_take {m : Mode} {c : Char} (owned : c = '(' ∨ c = ')' → m.owns c) :
    (m.take c).1.level + [c].count ')' = m.level + [c].count '(' := by
  by_cases opens : c = '('
  · subst opens
    have owned := owned (.inl rfl)
    cases m with
    | dollar around => rfl
    | inside around b depth chars =>
      cases b with
      | command => rfl
      | parameter => cases owned
    | _ => cases owned
  by_cases closes : c = ')'
  · subst closes
    have owned := owned (.inr rfl)
    cases m with
    | dollar around => simp [owns] at owned
    | inside around b depth chars =>
      cases b with
      | command =>
        cases depth with
        | zero => exact congrArg (· + 1) (level_mode around)
        | succ depth => rfl
      | parameter => cases owned
    | _ => cases owned
  · rw [level_take_plain opens closes]
    simp [opens, closes]

end Mode

/-- Every parenthesis in a text that is read from here on belongs to a command substitution. -/
def Owned (s : State) (cs : List Char) : Prop :=
  ∀ front c back, cs = front ++ c :: back → c = '(' ∨ c = ')' → (read s front).mode.owns c

theorem Owned.tail {s : State} {c : Char} {cs : List Char} (owned : Owned s (c :: cs)) :
    Owned (s.step c) cs :=
  fun front d back parts => owned (c :: front) d back (congrArg (c :: ·) parts)

theorem level_read {s : State} (tidy : s.Tidy) {cs : List Char} (owned : Owned s cs) :
    (read s cs).mode.level + cs.count ')' = s.mode.level + cs.count '(' := by
  induction cs generalizing s with
  | nil => rfl
  | cons c cs ih =>
    obtain ⟨mode, -⟩ := State.takes_step tidy c
    have here := Mode.level_take (owned [] c cs rfl)
    have later := ih (State.tidy_step tidy c) owned.tail
    rw [mode] at later
    rw [read_cons, ← List.singleton_append, List.count_append, List.count_append]
    change (s.mode.take c).1.level + _ = s.mode.level + _ at here
    omega

theorem State.atoms_prefix {s : State} (tidy : s.Tidy) {rest : List Char} {ts : List Token}
    (lexed : (read s rest).finish = .ok ts) : s.atoms <+: ts.flatMap Token.atoms := by
  rw [State.atoms_finish (State.tidy_read tidy rest) lexed]
  exact (State.atoms_read tidy rest).trans (List.prefix_append _ _)

/-- A substitution that a word begins with ends in front of the first bracket that closes more than
was opened, and it is the first content of what is read. -/
theorem exists_balanced {b : Bracket} {rest : List Char} {ts : List Token}
    (lexed : (read { mode := .inside .bare b 0 [] } rest).finish = .ok ts) :
    ∃ front more, rest = front ++ b.closing :: more ∧ b.Balanced front ∧
      (b.part front).atoms <+: ts.flatMap Token.atoms := by
  by_cases within : b.Within 0 rest
  · rw [State.read_within {} .bare b within] at lexed
    cases lexed
  · obtain ⟨front, more, rfl, inside, closed⟩ := Bracket.exists_of_not_within within
    have ends : read { mode := .inside .bare b 0 [] } (front ++ [b.closing]) =
        { mode := .word, parts := [b.part front] } :=
      State.read_closing {} .bare b ⟨inside, closed⟩
    rw [← List.singleton_append, ← List.append_assoc, read_append, ends] at lexed
    have tidy : ({ mode := .word, parts := [b.part front] } : State).Tidy := trivial
    have first := State.atoms_prefix tidy lexed
    have content : ({ mode := .word, parts := [b.part front] } : State).atoms =
        (b.part front).atoms := State.atoms_addPart (s := {}) rfl (b.part front)
    rw [content] at first
    exact ⟨front, more, rfl, ⟨inside, closed⟩, first⟩

end Lexer

open Lexer

def substituting : State :=
  { mode := .inside .bare .command 0 [] }

def substituted (code : String) : State :=
  { mode := .word, parts := [.command code] }

theorem read_substituting {cs : List Char} (balanced : Bracket.command.Balanced cs) :
    read substituting (cs ++ [')']) = substituted (String.ofList cs) :=
  State.read_closing {} .bare .command balanced

theorem tokenize_substitution (text : String) :
    tokenize ("$(" ++ text ++ ")") = (read substituting (text.toList ++ [')'])).finish := by
  rw [tokenize, String.toList_append, String.toList_append, List.append_assoc, read_append]
  rfl

theorem tokenize_substitution_iff (text : String) :
    tokenize ("$(" ++ text ++ ")") = .ok [.word [.command text]] ↔
      Bracket.command.Balanced text.toList := by
  rw [tokenize_substitution]
  constructor
  · intro lexed
    obtain ⟨front, more, -, balanced, first⟩ := exists_balanced lexed
    obtain ⟨same, -⟩ := List.cons_prefix_cons.mp first
    obtain rfl : String.ofList front = text := by simpa using same
    rwa [String.toList_ofList]
  · intro balanced
    rw [read_substituting balanced, String.ofList_toList]
    rfl

theorem balanced_of_owned {text : String} {ts : List Token} (lexed : tokenize text = .ok ts)
    (owned : Owned {} text.toList) : Bracket.command.Balanced text.toList := by
  constructor
  · intro front start
    obtain ⟨back, parts⟩ := start
    have inFront : Owned {} front := fun first c rest split paren =>
      owned first c (rest ++ back) (by rw [← parts, split]; simp) paren
    have level : (read {} front).mode.level + front.count ')' = 0 + front.count '(' :=
      level_read State.tidy_init inFront
    change front.count ')' ≤ front.count '(' + 0
    omega
  · have level : (read {} text.toList).mode.level + text.toList.count ')' =
        0 + text.toList.count '(' := level_read State.tidy_init owned
    have closed : (read {} text.toList).mode.level = 0 := by
      rcases Mode.final_cases (State.final_of_finish lexed) with mode | mode | word
      · rw [mode]
        rfl
      · rw [mode]
        rfl
      · rcases Mode.endsWord_cases word with mode | mode | ⟨chars, mode⟩ <;> rw [mode] <;> rfl
    change text.toList.count ')' = text.toList.count '('
    omega

/-- A text stands in a substitution as it is exactly if its parentheses balance, counted as they
stand. Those of a program do if each of them belongs to a substitution in it. -/
theorem substituted_iff (text : String) :
    (tokenize ("$(" ++ text ++ ")") = .ok [.word [.command text]] ↔
      Bracket.command.Balanced text.toList) ∧
    ∀ program, parse text = .ok program → Owned {} text.toList →
      tokenize ("$(" ++ text ++ ")") = .ok [.word [.command text]] := by
  refine ⟨tokenize_substitution_iff text, fun program parsed owned => ?_⟩
  obtain ⟨ts, lexed, -⟩ := parse_eq_ok.mp parsed
  exact (tokenize_substitution_iff text).mpr (balanced_of_owned lexed owned)

/-- A closing parenthesis is a character like any other in a word of a program, and ends a
substitution that the program is put into. -/
theorem bare_parenthesis_closes :
    parse "echo )" = .ok [.single { words := [[.literal "echo"], [.literal ")"]] }] ∧
      tokenize ("$(" ++ "echo )" ++ ")") = .ok [.word [.command "echo ", .literal ")"]] ∧
      tokenize ("$(" ++ "echo )" ++ ")") ≠ .ok [.word [.command "echo )"]] := by
  have lexed : tokenize "echo )" = .ok [.word [.literal "echo"], .word [.literal ")"]] := by rfl
  have cut : tokenize ("$(" ++ "echo )" ++ ")") = .ok [.word [.command "echo ", .literal ")"]] := by
    rfl
  refine ⟨parse_of_tokens lexed, cut, ?_⟩
  rw [cut]
  simp

end SessionShell
