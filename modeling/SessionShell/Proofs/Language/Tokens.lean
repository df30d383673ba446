import Mathlib.Data.List.Chain
import SessionShell.Proofs.Language.Emission
import SessionShell.Proofs.Language.Surroundings

/-! The tokens of a text are well formed. In their words no literal part is empty and no two of them
are neighbours, and each assignment has a proper name and its word directly behind it. So the parser
finds the value of every assignment. -/

namespace SessionShell

def WordPart.IsLiteral : WordPart → Prop
  | .literal _ => True
  | _ => False

/-- No literal part is empty, and no two of them are neighbours. -/
def Word.Merged (w : Word) : Prop :=
  (∀ text, .literal text ∈ w → text ≠ "") ∧
    w.IsChain fun one next => ¬(one.IsLiteral ∧ next.IsLiteral)

theorem Word.merged_nil : Word.Merged [] :=
  ⟨fun _ member => (List.not_mem_nil member).elim, .nil⟩

theorem Word.merged_reverse {w : Word} (merged : w.Merged) : Word.Merged w.reverse := by
  refine ⟨fun text member => merged.1 text (List.mem_reverse.mp member), ?_⟩
  rw [List.isChain_reverse]
  exact merged.2.imp fun one next apart both => apart both.symm

theorem Word.merged_cons {w : Word} (merged : w.Merged) {part : WordPart}
    (filled : ∀ text, part = .literal text → text ≠ "")
    (apart : ∀ next ∈ w.head?, ¬(part.IsLiteral ∧ next.IsLiteral)) : Word.Merged (part :: w) := by
  refine ⟨fun text member => ?_, List.isChain_cons.mpr ⟨apart, merged.2⟩⟩
  rcases List.mem_cons.mp member with same | later
  · exact filled text same.symm
  · exact merged.1 text later

def Token.Merged : Token → Prop
  | .word w => w.Merged
  | _ => True

namespace Lexer

/-- Whether a substitution has begun, so that a part that is no literal comes next. -/
def Mode.awaits : Mode → Bool
  | .name _ _ | .inside _ _ _ _ => true
  | _ => false

theorem Bracket.not_isLiteral_part (b : Bracket) (chars : List Char) :
    ¬(b.part chars).IsLiteral := by
  cases b <;> exact id

namespace State

def Merged (s : State) : Prop :=
  (∀ t ∈ s.emitted, t.Merged) ∧ Word.Merged s.parts

/-- The last part of the open word is no literal, so that one may come. -/
def Open (s : State) : Prop :=
  ∀ part ∈ s.parts.head?, ¬part.IsLiteral

structure Steady (s : State) : Prop where
  merged : s.Merged
  isOpen : s.mode.awaits = false → s.Open

variable {s : State}

theorem merged_emit (merged : s.Merged) {t : Token} (h : t.Merged) : (s.emit t).Merged :=
  ⟨List.forall_mem_cons.mpr ⟨h, merged.1⟩, merged.2⟩

theorem merged_flush (merged : s.Merged) (isOpen : s.Open) : s.flush.Merged := by
  unfold flush
  split
  · exact merged
  · rename_i filled
    refine ⟨merged.1, Word.merged_cons merged.2 ?_ fun next head both => ?_⟩
    · rintro text same rfl
      simp_all
    · exact isOpen next head both.2

theorem merged_addPart (merged : s.Merged) (part : WordPart) (other : ¬part.IsLiteral) :
    (s.addPart part).Merged ∧ (s.addPart part).Open := by
  refine ⟨⟨merged.1, Word.merged_cons merged.2 ?_ fun _ _ both => other both.1⟩, ?_⟩
  · rintro text rfl
    exact (other trivial).elim
  · intro first head
    cases Option.some.inj head
    exact other

theorem merged_endWord (merged : s.Merged) (isOpen : s.Open) :
    s.endWord.Merged ∧ s.endWord.Open := by
  have word := Word.merged_reverse (merged_flush merged isOpen).2
  exact ⟨⟨List.forall_mem_cons.mpr ⟨word, merged.1⟩, Word.merged_nil⟩, nofun⟩

theorem merged_stepWord (merged : s.Merged) (isOpen : s.Open) (c : Char) :
    (s.stepWord c).Merged ∧ (s.stepWord c).Open := by
  obtain ⟨ended, fresh⟩ := merged_endWord (s := { s with mode := .word }) merged isOpen
  unfold stepWord
  split
  case h_1 | h_2 | h_3 => exact ⟨ended, fresh⟩
  case h_4 | h_5 | h_6 => exact ⟨merged_emit ended trivial, fresh⟩
  case h_11 =>
    dsimp only
    split
    · exact ⟨⟨List.forall_mem_cons.mpr ⟨trivial, merged.1⟩, merged.2⟩, isOpen⟩
    · exact ⟨merged, isOpen⟩
  all_goals exact ⟨merged, isOpen⟩

theorem merged_stepPlain (merged : s.Merged) (isOpen : s.Open) (around : Around) (c : Char) :
    (s.stepPlain around c).Merged ∧ (s.stepPlain around c).Open := by
  cases around with
  | bare => exact merged_stepWord merged isOpen c
  | quotes =>
    unfold stepPlain stepDouble
    dsimp only
    split <;> exact ⟨merged, isOpen⟩

theorem steady_step (steady : s.Steady) (c : Char) : (s.step c).Steady := by
  have plain {u : State} (merged : u.Merged) (isOpen : u.Open) (around : Around) :
      (u.stepPlain around c).Steady :=
    have stepped := merged_stepPlain merged isOpen around c
    ⟨stepped.1, fun _ => stepped.2⟩
  obtain ⟨merged, isOpen⟩ := steady
  unfold step
  cases mode : s.mode with
  | gap =>
    have isOpen := isOpen (mode ▸ rfl)
    dsimp only
    unfold stepGap
    split
    case h_4 | h_5 | h_6 => exact ⟨merged_emit merged trivial, fun _ => isOpen⟩
    case h_9 => exact plain merged isOpen .bare
    all_goals exact ⟨merged, fun _ => isOpen⟩
  | comment =>
    have isOpen := isOpen (mode ▸ rfl)
    dsimp only
    split
    · exact ⟨merged_emit (t := .newline) merged trivial, fun _ => isOpen⟩
    · exact ⟨merged, fun _ => isOpen⟩
  | gapEscape | wordEscape | single | doubleEscape =>
    have isOpen := isOpen (mode ▸ rfl)
    dsimp only
    split <;> exact ⟨merged, fun _ => isOpen⟩
  | word => exact plain merged (isOpen (mode ▸ rfl)) .bare
  | double => exact plain merged (isOpen (mode ▸ rfl)) .quotes
  | dollar around =>
    have isOpen := isOpen (mode ▸ rfl)
    have flushed := merged_flush merged isOpen
    dsimp only
    unfold stepDollar
    split
    · exact ⟨flushed, nofun⟩
    split
    · exact ⟨flushed, nofun⟩
    split
    · obtain ⟨added, closed⟩ := merged_addPart flushed (.parameter "?") id
      exact ⟨added, fun _ => closed⟩
    split
    · exact ⟨flushed, nofun⟩
    · exact plain (u := s.push '$') merged isOpen around
  | name around chars =>
    dsimp only
    unfold stepName
    split
    · exact ⟨merged, nofun⟩
    · obtain ⟨added, closed⟩ := merged_addPart merged (.parameter (.ofList chars.reverse)) id
      exact plain added closed around
  | inside around bracket depth chars =>
    dsimp only
    unfold stepInside
    split
    · exact ⟨merged, nofun⟩
    split
    · cases depth with
      | zero =>
        obtain ⟨added, closed⟩ := merged_addPart merged _ (bracket.not_isLiteral_part chars.reverse)
        exact ⟨added, fun _ => closed⟩
      | succ depth => exact ⟨merged, nofun⟩
    · exact ⟨merged, nofun⟩

theorem steady_read (steady : s.Steady) (cs : List Char) : (read s cs).Steady := by
  induction cs generalizing s with
  | nil => exact steady
  | cons c cs ih => exact ih (steady_step steady c)

theorem merged_finish (steady : s.Steady) {ts : List Token} (finish : s.finish = .ok ts) :
    ∀ t ∈ ts, t.Merged := by
  obtain ⟨merged, isOpen⟩ := steady
  have emitted {u : State} (merged : u.Merged) : ∀ t ∈ u.tokens, t.Merged :=
    fun t member => merged.1 t (List.mem_reverse.mp member)
  rcases Mode.final_cases (final_of_finish finish) with mode | mode | word
  · simp only [State.finish, mode] at finish
    cases finish
    exact emitted merged
  · simp only [State.finish, mode] at finish
    cases finish
    exact emitted merged
  · rcases Mode.endsWord_cases word with mode | mode | ⟨chars, mode⟩
    · simp only [State.finish, mode] at finish
      cases finish
      exact emitted (merged_endWord merged (isOpen (mode ▸ rfl))).1
    · simp only [State.finish, mode] at finish
      cases finish
      exact emitted (merged_endWord (s := s.push '$') merged (isOpen (mode ▸ rfl))).1
    · simp only [State.finish, mode] at finish
      cases finish
      obtain ⟨added, closed⟩ := merged_addPart merged (.parameter (.ofList chars.reverse)) id
      exact emitted (merged_endWord added closed).1

end State

end Lexer

theorem merged_tokenize {text : String} {ts : List Token} (lexed : tokenize text = .ok ts) :
    ∀ t ∈ ts, t.Merged := by
  have start : ({} : Lexer.State).Steady := ⟨⟨List.forall_mem_nil _, Word.merged_nil⟩, nofun⟩
  exact Lexer.State.merged_finish (Lexer.State.steady_read start text.toList) lexed

/-- Each assignment has a word directly behind it. -/
def Valued (ts : List Token) : Prop :=
  ∀ front name rest, ts = front ++ .assign name :: rest → ∃ w more, rest = .word w :: more

theorem Valued.of_suffix {ts rest : List Token} (valued : Valued ts) (within : rest <:+ ts) :
    Valued rest := by
  obtain ⟨front, rfl⟩ := within
  exact fun before name later split => valued (front ++ before) name later (by simp [split])

def Command.Valued (c : Command) : Prop :=
  ∀ a ∈ c.assignments, ∃ w, a.value = some w

namespace Parser

theorem valued_takeWhile {ts : List Token} (valued : Valued ts) : Valued (ts.takeWhile isPart) := by
  intro front name rest split
  have whole : ts = front ++ .assign name :: (rest ++ ts.dropWhile isPart) := by
    rw [← List.cons_append, ← List.append_assoc, ← split, List.takeWhile_append_dropWhile]
  obtain ⟨w, more, behind⟩ := valued front name _ whole
  cases rest with
  | nil =>
    have border := List.head?_dropWhile_not isPart ts
    rw [List.nil_append] at behind
    rw [behind] at border
    cases border
  | cons t rest =>
    obtain ⟨rfl, -⟩ := List.cons.inj behind
    exact ⟨w, rest, rfl⟩

theorem valued_commandOf {ts : List Token} (valued : Valued ts) : (commandOf ts).Valued := by
  fun_induction commandOf ts with
  | case1 name value rest c ih =>
    have behind : rest <:+ .assign name :: .word value :: rest :=
      (List.suffix_cons _ rest).trans (List.suffix_cons _ _)
    have later := ih (valued.of_suffix behind)
    exact List.forall_mem_cons.mpr ⟨⟨value, rfl⟩, later⟩
  | case2 name rest apart c ih =>
    obtain ⟨w, more, same⟩ := valued [] name rest rfl
    exact absurd same (apart w more)
  | case3 ts => exact List.forall_mem_nil _

theorem valued_command {ts : List Token} {c : Command} {rest : List Token} (valued : Valued ts)
    (read : command ts = .ok (c, rest)) : c.Valued := by
  simp only [command] at read
  split at read <;> cases read
  exact valued_commandOf (valued_takeWhile valued)

theorem valued_program {ts : List Token} {p : Program} (valued : Valued ts)
    (read : program ts = .ok p) : ∀ s ∈ p, ∀ c ∈ s.stages, c.Valued := by
  intro s statement c stage
  obtain ⟨place, cs, rest, within, stages, rfl⟩ := pipeline_of_program read s statement
  rw [Statement.stages_ofStages] at stage
  obtain ⟨inner, left, inside, command⟩ := (command_of_pipeline stages).2 c stage
  exact valued_command (valued.of_suffix (inside.trans within)) command

end Parser

/-- In the tokens of a text each assignment has a proper name, and the word directly behind it is the
rest of the word that it stands in. No part of a word is an empty literal, and no two literals are
neighbours. So every assignment of a program has a value. -/
theorem tokens_well_formed (text : String) :
    (∀ ts, tokenize text = .ok ts →
      (∀ front name rest, ts = front ++ .assign name :: rest →
        isName name ∧ ∃ w more, rest = .word w :: more ∧ AssignedIn text front name w) ∧
      ∀ w, .word w ∈ ts → (∀ s, .literal s ∈ w → s ≠ "") ∧
        w.IsChain fun one next => ¬(one.IsLiteral ∧ next.IsLiteral)) ∧
    ∀ p, parse text = .ok p → ∀ s ∈ p, ∀ c ∈ s.stages, ∀ a ∈ c.assignments, ∃ w, a.value = some w := by
  refine ⟨fun ts lexed => ⟨fun front name rest => assignedIn_of_tokenize lexed, fun w member => ?_⟩,
    fun p parsed => ?_⟩
  · exact merged_tokenize lexed _ member
  · obtain ⟨ts, lexed, read⟩ := parse_eq_ok.mp parsed
    refine Parser.valued_program (fun front name rest split => ?_) read
    obtain ⟨-, w, more, behind, -⟩ := assignedIn_of_tokenize lexed split
    exact ⟨w, more, behind⟩

/-- A quote in a value, a continued line in a name, and a value that is empty. -/
theorem tokens_well_formed_values :
    let text := "a; n\\\n=$x'b 'c; m="
    let value : Word := [.parameter "x", .literal "b c"]
    let ts : List Token := [.word [.literal "a"], .semicolon, .assign "n", .word value, .semicolon,
      .assign "m", .word []]
    let last : Command := { assignments := [⟨"m", some []⟩] }
    let p : Program := [.single { words := [[.literal "a"]] },
      .single { assignments := [⟨"n", some value⟩] }, .single last]
    (tokenize text = .ok ts ∧
      (isName "n" ∧ ∃ w more, ts.drop 3 = .word w :: more ∧ AssignedIn text (ts.take 2) "n" w) ∧
      (∀ s, .literal s ∈ value → s ≠ "") ∧
      value.IsChain fun one next => ¬(one.IsLiteral ∧ next.IsLiteral)) ∧
    parse text = .ok p ∧ ∃ w, (⟨"m", some []⟩ : Assignment).value = some w := by
  have lexed : tokenize "a; n\\\n=$x'b 'c; m=" = .ok [.word [.literal "a"], .semicolon, .assign "n",
      .word [.parameter "x", .literal "b c"], .semicolon, .assign "m", .word []] := by rfl
  intro text value ts last p
  have parsed : parse text = .ok p := parse_of_tokens lexed
  obtain ⟨tokens, values⟩ := tokens_well_formed text
  obtain ⟨assignments, words⟩ := tokens ts lexed
  exact ⟨⟨lexed, assignments (ts.take 2) "n" (ts.drop 3) rfl, words value (by simp [ts])⟩,
    parsed, values p parsed (.single last) (by simp [p]) last (List.mem_singleton_self _) _
      (List.mem_singleton_self _)⟩

end SessionShell
