import SessionShell.Proofs.Language.Modes
import SessionShell.Proofs.Language.Surroundings

/-! How long the code in a substitution is. Two characters are read in front of it and one behind it,
so that it is shorter by three than the text that it stands in. -/

namespace SessionShell

namespace Lexer

def Mode.ReadBy (n : Nat) : Mode → Prop
  | .dollar _ => 1 ≤ n
  | .inside _ _ _ chars => chars.length + 2 ≤ n
  | _ => True

/-- The code in a content is shorter by three than what has been read. -/
def Nested (n : Nat) (atoms : List Atom) : Prop :=
  ∀ code, .command code ∈ atoms → code.length + 3 ≤ n

theorem Nested.mono {n m : Nat} {atoms : List Atom} (nested : Nested n atoms) (le : n ≤ m) :
    Nested m atoms :=
  fun code member => Nat.le_trans (nested code member) le

theorem readBy_take_around (around : Around) (c : Char) (n : Nat) :
    (around.take c).1.ReadBy (n + 1) ∧ Nested (n + 1) (around.take c).2 := by
  cases around with
  | bare => unfold Around.take; dsimp only; split <;> simp [Mode.ReadBy, Nested]
  | quotes => unfold Around.take; dsimp only; split <;> simp [Mode.ReadBy, Nested]

theorem readBy_mode (around : Around) (n : Nat) : around.mode.ReadBy n := by
  cases around <;> trivial

theorem readBy_take {m : Mode} {n : Nat} (h : m.ReadBy n) (c : Char) :
    (m.take c).1.ReadBy (n + 1) ∧ Nested (n + 1) (m.take c).2 := by
  have plain (around : Around) := readBy_take_around around c n
  cases m with
  | gap =>
    unfold Mode.take
    dsimp only
    split
    · exact ⟨trivial, by simp [Nested]⟩
    · exact ⟨trivial, by simp [Nested]⟩
    · exact plain .bare
  | comment => unfold Mode.take; dsimp only; split <;> simp [Mode.ReadBy, Nested]
  | gapEscape | wordEscape | single =>
    unfold Mode.take
    dsimp only
    split <;> simp [Mode.ReadBy, Nested]
  | word => exact plain .bare
  | double => exact plain .quotes
  | doubleEscape => unfold Mode.take; dsimp only; split <;> simp [Mode.ReadBy, Nested]
  | dollar around =>
    unfold Mode.take
    dsimp only
    split
    · simp only [Mode.ReadBy] at h ⊢
      exact ⟨by simp; omega, by simp [Nested]⟩
    split
    · simp only [Mode.ReadBy] at h ⊢
      exact ⟨by simp; omega, by simp [Nested]⟩
    split
    · exact ⟨readBy_mode around _, by simp [Nested]⟩
    split
    · exact ⟨trivial, by simp [Nested]⟩
    · exact ⟨(plain around).1, by simpa [Nested] using (plain around).2⟩
  | name around chars =>
    unfold Mode.take
    dsimp only
    split
    · exact ⟨trivial, by simp [Nested]⟩
    · exact ⟨(plain around).1, by simpa [Nested] using (plain around).2⟩
  | inside around b depth chars =>
    simp only [Mode.ReadBy] at h
    have longer : (c :: chars).length + 2 ≤ n + 1 := by simp; omega
    unfold Mode.take
    dsimp only
    split
    · exact ⟨longer, by simp [Nested]⟩
    split
    · cases depth with
      | zero =>
        refine ⟨readBy_mode around _, ?_⟩
        cases b with
        | command => simp [Nested, Bracket.part, WordPart.atoms]; omega
        | parameter => simp [Nested, Bracket.part, WordPart.atoms]
      | succ depth => exact ⟨longer, by simp [Nested]⟩
    · exact ⟨longer, by simp [Nested]⟩

theorem nested_read {s : State} (tidy : s.Tidy) {n : Nat} (mode : s.mode.ReadBy n)
    (nested : Nested n s.atoms) (cs : List Char) :
    Nested (n + cs.length) (read s cs).atoms := by
  induction cs generalizing s n with
  | nil => exact nested
  | cons c cs ih =>
    obtain ⟨next, adds⟩ := State.takes_step tidy c
    obtain ⟨readBy, added⟩ := readBy_take mode c
    have all : Nested (n + 1) (s.step c).atoms := by
      intro code member
      rw [adds] at member
      rcases List.mem_append.mp member with old | new
      · exact nested.mono (Nat.le_succ n) code old
      · exact added code new
    have later := ih (State.tidy_step tidy c) (next ▸ readBy) all
    rw [read_cons, List.length_cons, Nat.add_comm cs.length 1, ← Nat.add_assoc]
    exact later

theorem nested_pending (m : Mode) (n : Nat) : Nested n m.pending := by
  cases m <;> simp [Mode.pending, Nested]

theorem nested_tokenize {text : String} {ts : List Token} (lexed : tokenize text = .ok ts) :
    Nested text.length (ts.flatMap Token.atoms) := by
  have tidy := State.tidy_read State.tidy_init text.toList
  have nested := nested_read State.tidy_init (n := 0) trivial (by simp [Nested, State.atoms,
    State.tokens, Word.atoms]) text.toList
  rw [State.atoms_finish tidy lexed]
  intro code member
  rcases List.mem_append.mp member with before | last
  · have shorter := nested code before
    rw [Nat.zero_add, String.length_toList] at shorter
    exact shorter
  · exact nested_pending _ _ code last

end Lexer

theorem mem_substitutions_word {w : Word} {code : String} (member : code ∈ w.substitutions) :
    .command code ∈ w.atoms := by
  obtain ⟨part, partMember, is⟩ := List.mem_filterMap.mp member
  cases part with
  | command other =>
    cases is
    exact List.mem_flatMap.mpr ⟨_, partMember, List.mem_singleton.mpr rfl⟩
  | literal | parameter => cases is

theorem mem_substitutions {p : Program} {code : String} (member : code ∈ p.substitutions) :
    .command code ∈ p.atoms := by
  obtain ⟨s, statement, member⟩ := List.mem_flatMap.mp member
  obtain ⟨c, stage, member⟩ := List.mem_flatMap.mp member
  obtain ⟨w, word, member⟩ := List.mem_flatMap.mp member
  have atom := mem_substitutions_word member
  refine List.mem_flatMap.mpr ⟨s, statement, List.mem_flatMap.mpr ⟨c, stage, ?_⟩⟩
  rcases List.mem_append.mp word with value | argument
  · obtain ⟨a, assignment, is⟩ := List.mem_filterMap.mp value
    refine List.mem_append_left _ (List.mem_flatMap.mpr ⟨a, assignment, ?_⟩)
    rw [Assignment.atoms, is]
    exact List.mem_append_right _ atom
  · exact List.mem_append_right _ (List.mem_flatMap.mpr ⟨w, argument, atom⟩)

theorem length_of_mem_substitutions {text : String} {p : Program} (parsed : parse text = .ok p)
    {code : String} (member : code ∈ p.substitutions) : code.length + 3 ≤ text.length := by
  obtain ⟨ts, lexed, read⟩ := parse_eq_ok.mp parsed
  have atom := mem_substitutions member
  rw [Parser.atoms_parseTokens read] at atom
  exact Lexer.nested_tokenize lexed code atom

end SessionShell
