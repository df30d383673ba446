import SessionShell.Language.Lexer
import SessionShell.Proofs.Language.Content

/-! What the lexer does to the content of an input. The mode alone decides which mode comes next and
what a character adds to the content; the tokens and the open word are only where it is kept. -/

namespace SessionShell.Lexer

def Around.take : Around → Char → Mode × List Atom
  | .bare, c => match c with
    | ' ' | '\t' | '\r' | '|' | ';' | '\n' => (.gap, [])
    | '\'' => (.single, [])
    | '"' => (.double, [])
    | '\\' => (.wordEscape, [])
    | '$' => (.dollar .bare, [])
    | _ => (.word, [.char c])
  | .quotes, c => match c with
    | '"' => (.word, [])
    | '\\' => (.doubleEscape, [])
    | '$' => (.dollar .quotes, [])
    | _ => (.double, [.char c])

namespace Mode

/-- What has been read and is content if no substitution begins or goes on with it. -/
def pending : Mode → List Atom
  | .dollar _ => [.char '$']
  | .name _ chars => [.parameter (String.ofList chars.reverse)]
  | _ => []

def take : Mode → Char → Mode × List Atom
  | .gap, c => match c with
    | '#' => (.comment, [])
    | '\\' => (.gapEscape, [])
    | _ => Around.bare.take c
  | .comment, c => (if c = '\n' then .gap else .comment, [])
  | .gapEscape, c => if c = '\n' then (.gap, []) else (.word, [.char c])
  | .word, c => Around.bare.take c
  | .wordEscape, c => if c = '\n' then (.word, []) else (.word, [.char c])
  | .single, c => if c = '\'' then (.word, []) else (.single, [.char c])
  | .double, c => Around.quotes.take c
  | .doubleEscape, c => match c with
    | '\n' => (.double, [])
    | '"' | '\\' | '$' => (.double, [.char c])
    | _ => (.double, [.char '\\', .char c])
  | .dollar around, c =>
    if c = Bracket.opening .command then (.inside around .command 0 [], [])
    else if c = Bracket.opening .parameter then (.inside around .parameter 0 [], [])
    else if c = '?' then (around.mode, [.parameter "?"])
    else if isNameStart c then (.name around [c], [])
    else ((around.take c).1, .char '$' :: (around.take c).2)
  | .name around chars, c =>
    if isNameChar c then (.name around (c :: chars), [])
    else ((around.take c).1, .parameter (String.ofList chars.reverse) :: (around.take c).2)
  | .inside around bracket depth chars, c =>
    if c = bracket.opening then (.inside around bracket (depth + 1) (c :: chars), [])
    else if c = bracket.closing then
      match depth with
      | 0 => (around.mode, (bracket.part chars.reverse).atoms)
      | depth + 1 => (.inside around bracket depth (c :: chars), [])
    else (.inside around bracket depth (c :: chars), [])

/-- Whether an input may end in this mode. -/
def final : Mode → Bool
  | .gap | .comment | .word | .dollar .bare | .name .bare _ => true
  | _ => false

def endsWord : Mode → Bool
  | .word | .dollar .bare | .name .bare _ => true
  | _ => false

/-- Whether a backslash that escapes the next character has just been read. -/
def escapes : Mode → Bool
  | .gapEscape | .wordEscape => true
  | _ => false

theorem endsWord_cases {m : Mode} (word : m.endsWord) :
    m = .word ∨ m = .dollar .bare ∨ ∃ chars, m = .name .bare chars := by
  unfold Mode.endsWord at word
  split at word
  · exact .inl rfl
  · exact .inr (.inl rfl)
  · exact .inr (.inr ⟨_, rfl⟩)
  · cases word

theorem not_escapes_of_endsWord {m : Mode} (word : m.endsWord) : m.escapes = false := by
  rcases endsWord_cases word with rfl | rfl | ⟨chars, rfl⟩ <;> rfl

theorem final_cases {m : Mode} (final : m.final) : m = .gap ∨ m = .comment ∨ m.endsWord := by
  unfold Mode.final at final
  split at final <;> simp_all [endsWord]

end Mode

namespace State

def atoms (s : State) : List Atom :=
  s.tokens.flatMap Token.atoms ++ Word.atoms s.parts.reverse ++ s.buffer.reverse.map .char

/-- No word is open between words, and nothing is left of the one before. The buffer is empty while a
name or the inside of brackets is read. -/
def Tidy (s : State) : Prop :=
  match s.mode with
  | .gap | .comment | .gapEscape =>
    s.parts = [] ∧ s.buffer = [] ∧ s.quoted = false ∧ s.assigned = false
  | .name _ _ | .inside _ _ _ _ => s.buffer = []
  | _ => True

theorem atoms_emit (s : State) {t : Token} (none : t.atoms = []) :
    (s.emit t).atoms = s.atoms := by
  simp [emit, atoms, tokens, none]

theorem atoms_push (s : State) (c : Char) : (s.push c).atoms = s.atoms ++ [.char c] := by
  simp [push, atoms, tokens]

theorem atoms_flush (s : State) : s.flush.atoms = s.atoms := by
  by_cases empty : s.buffer.isEmpty
  · simp [flush, empty]
  · simp [flush, empty, atoms, tokens, Word.atoms, WordPart.atoms]

theorem buffer_flush (s : State) : s.flush.buffer = [] := by
  unfold flush
  split
  · rename_i empty
    exact List.isEmpty_iff.mp empty
  · rfl

theorem atoms_addPart {s : State} (flushed : s.buffer = []) (part : WordPart) :
    (s.addPart part).atoms = s.atoms ++ part.atoms := by
  simp [addPart, atoms, flushed, Word.atoms, tokens]

theorem emitted_flush (s : State) : s.flush.emitted = s.emitted := by
  unfold flush
  split <;> rfl

theorem atoms_endWord (s : State) : s.endWord.atoms = s.atoms := by
  rw [← atoms_flush s]
  simp [endWord, atoms, tokens, buffer_flush, emitted_flush, Token.atoms, Word.atoms]

theorem atoms_assign {s : State} (fits : s.canAssign) :
    s.assign.atoms = s.atoms ++ [.char '='] := by
  simp only [canAssign, Bool.and_eq_true, List.isEmpty_iff] at fits
  simp [assign, atoms, fits.1.2, tokens, Token.atoms, Word.atoms]

def Takes (s after : State) (taken : Mode × List Atom) : Prop :=
  after.mode = taken.1 ∧ after.atoms = s.atoms ++ taken.2

theorem Takes.nothing {s after : State} {m : Mode} (mode : after.mode = m)
    (same : after.atoms = s.atoms) : s.Takes after (m, []) :=
  ⟨mode, same.trans (List.append_nil _).symm⟩

theorem takes_stepWord (s : State) (c : Char) : s.Takes (s.stepWord c) (Around.bare.take c) := by
  unfold stepWord
  split
  case h_1 | h_2 | h_3 => exact .nothing rfl (atoms_endWord _)
  case h_4 | h_5 | h_6 => exact .nothing rfl ((atoms_emit _ rfl).trans (atoms_endWord _))
  case h_7 | h_8 | h_9 | h_10 => exact .nothing rfl rfl
  case h_11 =>
    by_cases fits : ({ s with mode := .word } : State).canAssign
    · simp only [fits, if_true]
      exact ⟨rfl, atoms_assign fits⟩
    · simp only [fits]
      exact ⟨rfl, atoms_push _ _⟩
  case h_12 =>
    simp only [Around.take]
    exact ⟨rfl, atoms_push _ _⟩

theorem takes_stepDouble (s : State) (c : Char) :
    s.Takes (s.stepDouble c) (Around.quotes.take c) := by
  unfold stepDouble
  split
  case h_1 | h_2 | h_3 => exact .nothing rfl rfl
  case h_4 =>
    simp only [Around.take]
    exact ⟨rfl, atoms_push _ _⟩

theorem takes_stepPlain (s : State) (around : Around) (c : Char) :
    s.Takes (s.stepPlain around c) (around.take c) := by
  cases around with
  | bare => exact takes_stepWord s c
  | quotes => exact takes_stepDouble s c

theorem takes_stepGap {s : State} (mode : s.mode = .gap) (c : Char) :
    s.Takes (s.stepGap c) (Mode.gap.take c) := by
  unfold stepGap
  split
  case h_1 | h_2 | h_3 => exact .nothing mode rfl
  case h_4 | h_5 | h_6 => exact .nothing mode (atoms_emit _ rfl)
  case h_7 | h_8 => exact .nothing rfl rfl
  case h_9 =>
    simp only [Mode.take]
    exact takes_stepWord s c

theorem takes_stepDollar (s : State) (around : Around) (c : Char) :
    s.Takes (s.stepDollar around c) ((Mode.dollar around).take c) := by
  simp only [stepDollar, Mode.take]
  split
  · exact .nothing rfl (atoms_flush s)
  split
  · exact .nothing rfl (atoms_flush s)
  split
  · exact ⟨rfl, (atoms_addPart (buffer_flush s) _).trans (by rw [atoms_flush]; rfl)⟩
  split
  · exact .nothing rfl (atoms_flush s)
  · obtain ⟨mode, adds⟩ := takes_stepPlain (s.push '$') around c
    refine ⟨mode, adds.trans ?_⟩
    rw [atoms_push, List.append_assoc]
    rfl

theorem takes_stepName {s : State} (flushed : s.buffer = []) (around : Around) (chars : List Char)
    (c : Char) : s.Takes (s.stepName around chars c) ((Mode.name around chars).take c) := by
  simp only [stepName, Mode.take]
  split
  · exact .nothing rfl rfl
  · obtain ⟨mode, adds⟩ :=
      takes_stepPlain (s.addPart (.parameter (String.ofList chars.reverse))) around c
    refine ⟨mode, adds.trans ?_⟩
    rw [atoms_addPart flushed, List.append_assoc]
    rfl

theorem takes_stepInside {s : State} (flushed : s.buffer = []) (around : Around)
    (bracket : Bracket) (depth : Nat) (chars : List Char) (c : Char) :
    s.Takes (s.stepInside around bracket depth chars c)
      ((Mode.inside around bracket depth chars).take c) := by
  simp only [stepInside, Mode.take]
  split
  · exact .nothing rfl rfl
  split
  · cases depth with
    | zero => exact ⟨rfl, atoms_addPart flushed _⟩
    | succ depth => exact .nothing rfl rfl
  · exact .nothing rfl rfl

theorem takes_step {s : State} (tidy : s.Tidy) (c : Char) : s.Takes (s.step c) (s.mode.take c) := by
  unfold step
  unfold Tidy at tidy
  cases mode : s.mode with
  | gap => exact takes_stepGap mode c
  | comment =>
    simp only [Mode.take]
    split
    · exact .nothing rfl (atoms_emit s rfl)
    · exact .nothing mode rfl
  | gapEscape | wordEscape =>
    simp only [Mode.take]
    split
    · exact .nothing rfl rfl
    · exact ⟨rfl, atoms_push s c⟩
  | word => exact takes_stepWord s c
  | single =>
    simp only [Mode.take]
    split
    · exact .nothing rfl rfl
    · exact ⟨mode, atoms_push s c⟩
  | double => exact takes_stepDouble s c
  | doubleEscape =>
    dsimp only
    split
    · exact .nothing rfl rfl
    · exact ⟨rfl, atoms_push s _⟩
    · exact ⟨rfl, atoms_push s _⟩
    · exact ⟨rfl, atoms_push s _⟩
    · simp only [Mode.take]
      refine ⟨rfl, (atoms_push (s.push '\\') c).trans ?_⟩
      rw [atoms_push, List.append_assoc]
      rfl
  | dollar around => exact takes_stepDollar s around c
  | name around chars => exact takes_stepName (by simpa [mode] using tidy) around chars c
  | inside around bracket depth chars =>
    exact takes_stepInside (by simpa [mode] using tidy) around bracket depth chars c

theorem tidy_stepWord (s : State) (c : Char) : (s.stepWord c).Tidy := by
  unfold stepWord
  split
  case h_11 => dsimp only; split <;> exact trivial
  all_goals first | exact trivial | exact ⟨rfl, rfl, rfl, rfl⟩

theorem tidy_stepPlain (s : State) (around : Around) (c : Char) : (s.stepPlain around c).Tidy := by
  cases around with
  | bare => exact tidy_stepWord s c
  | quotes =>
    simp only [stepPlain, stepDouble]
    split <;> exact trivial

theorem tidy_mode (s : State) (around : Around) :
    ({ s with mode := around.mode } : State).Tidy := by
  cases around <;> exact trivial

theorem tidy_step {s : State} (tidy : s.Tidy) (c : Char) : (s.step c).Tidy := by
  unfold step
  unfold Tidy at tidy
  cases mode : s.mode with
  | gap =>
    simp only [mode] at tidy
    dsimp only
    unfold stepGap
    split <;> first | exact tidy_stepWord s c | simpa [Tidy, emit, mode] using tidy
  | comment =>
    simp only [mode] at tidy
    dsimp only
    split <;> simpa [Tidy, mode] using tidy
  | gapEscape =>
    simp only [mode] at tidy
    dsimp only
    split
    · exact tidy
    · exact trivial
  | word => exact tidy_stepWord s c
  | wordEscape =>
    dsimp only
    split <;> exact trivial
  | single =>
    dsimp only
    split <;> simp [Tidy, push, mode]
  | double => exact tidy_stepPlain s .quotes c
  | doubleEscape =>
    dsimp only
    split <;> exact trivial
  | dollar around =>
    simp only [stepDollar]
    split
    · exact buffer_flush s
    split
    · exact buffer_flush s
    split
    · exact tidy_mode _ around
    split
    · exact buffer_flush s
    · exact tidy_stepPlain _ around c
  | name around chars =>
    simp only [mode] at tidy
    simp only [stepName]
    split
    · exact tidy
    · exact tidy_stepPlain _ around c
  | inside around bracket depth chars =>
    simp only [mode] at tidy
    simp only [stepInside]
    split
    · exact tidy
    split
    · cases depth with
      | zero => exact tidy_mode _ around
      | succ depth => exact tidy
    · exact tidy

theorem tidy_read {s : State} (tidy : s.Tidy) (cs : List Char) : (read s cs).Tidy := by
  induction cs generalizing s with
  | nil => exact tidy
  | cons c cs ih => exact ih (tidy_step tidy c)

theorem tidy_init : ({} : State).Tidy :=
  ⟨rfl, rfl, rfl, rfl⟩

theorem atoms_of_closed {s : State} (parts : s.parts = []) (buffer : s.buffer = []) :
    s.tokens.flatMap Token.atoms = s.atoms := by
  simp [atoms, parts, buffer, Word.atoms]

theorem atoms_tokens_endWord (s : State) : s.endWord.tokens.flatMap Token.atoms = s.atoms :=
  (atoms_of_closed rfl rfl).trans (atoms_endWord s)

theorem atoms_finish {s : State} (tidy : s.Tidy) {ts : List Token} (h : s.finish = .ok ts) :
    ts.flatMap Token.atoms = s.atoms ++ s.mode.pending := by
  unfold finish at h
  unfold Tidy at tidy
  cases mode : s.mode with
  | gap | comment =>
    simp only [mode] at h tidy
    cases h
    exact (atoms_of_closed tidy.1 tidy.2.1).trans (List.append_nil _).symm
  | word =>
    simp only [mode] at h
    cases h
    exact (atoms_tokens_endWord s).trans (List.append_nil _).symm
  | dollar around =>
    cases around <;> simp only [mode] at h <;> cases h
    exact (atoms_tokens_endWord _).trans (atoms_push s '$')
  | name around chars =>
    simp only [mode] at tidy
    cases around <;> simp only [mode] at h <;> cases h
    exact (atoms_tokens_endWord _).trans (atoms_addPart tidy _)
  | gapEscape | wordEscape | single | double | doubleEscape | inside =>
    simp only [mode] at h
    cases h

theorem final_of_finish {s : State} {ts : List Token} (h : s.finish = .ok ts) :
    s.mode.final := by
  unfold finish at h
  split at h <;> first | (cases h; done) | simp_all [Mode.final]

theorem not_escapes_of_finish {s : State} {ts : List Token} (h : s.finish = .ok ts) :
    s.mode.escapes = false := by
  rcases Mode.final_cases (final_of_finish h) with mode | mode | word
  · rw [mode]
    rfl
  · rw [mode]
    rfl
  · exact Mode.not_escapes_of_endsWord word

theorem not_final_of_finish {s : State} {e : LexError} (h : s.finish = .error e) :
    s.mode.final = false := by
  unfold finish at h
  split at h <;> first | (cases h; done) | simp_all [Mode.final]

end State

end SessionShell.Lexer
