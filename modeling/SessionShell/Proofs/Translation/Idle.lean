import SessionShell.Proofs.Language.Blanks
import SessionShell.Proofs.Translation.Trimming

/-! The blanks that mean nothing to the lexer where they stand, at the ends of lines. Outside of
quotes and escapes they end words or stand between them, and in a parameter they are trimmed with
the blanks around its name. -/

namespace SessionShell

open Text

namespace Lexer

/-- The text up to the bracket that closes a substitution, inside this many brackets of its own. -/
def Bracket.upTo (b : Bracket) : Nat → List Char → List Char
  | _, [] => []
  | depth, c :: cs =>
    if c = b.opening then c :: b.upTo (depth + 1) cs
    else if c = b.closing then
      match depth with
      | 0 => []
      | depth + 1 => c :: b.upTo depth cs
    else c :: b.upTo depth cs

/-- Whether a blank at the end of a line means nothing where it is read in this mode, with this text
behind it. -/
def Mode.idle : Mode → Char → List Char → Bool
  | .comment, _, _ => true
  | .gap, c, _ | .word, c, _ | .dollar .bare, c, _ | .name .bare _, c, _ =>
    c == ' ' || c == '\t' || c == '\r'
  | .inside _ .parameter depth chars, _, back =>
    chars.all isBlank || (Bracket.parameter.upTo depth back).all isBlank
  | _, _, _ => false

theorem Mode.idle_outside {m : Mode} (outside : ∀ a b d chars, m ≠ .inside a b d chars) {c : Char}
    {back : List Char} (idle : m.idle c back) :
    m = .comment ∨ (m = .gap ∨ m.endsWord) ∧ (c == ' ' || c == '\t' || c == '\r') := by
  unfold Mode.idle at idle
  split at idle
  · exact .inl rfl
  · exact .inr ⟨.inl rfl, idle⟩
  · exact .inr ⟨.inr rfl, idle⟩
  · exact .inr ⟨.inr rfl, idle⟩
  · exact .inr ⟨.inr rfl, idle⟩
  · exact absurd rfl (outside _ _ _ _)
  · cases idle

/-- Every blank at the end of a line is idle, in a text that is read from this state on. -/
def Kept (s : State) (text : List Char) : Prop :=
  ∀ front c back, text = front ++ c :: back → trailing c back →
    (read s front).mode.idle c back

theorem kept_nil (s : State) : Kept s [] := by
  intro front c back split
  simp at split

theorem kept_cons {s : State} {c : Char} {cs : List Char} :
    Kept s (c :: cs) ↔ (trailing c cs → s.mode.idle c cs) ∧ Kept (s.step c) cs := by
  constructor
  · intro kept
    refine ⟨kept [] c cs rfl, fun front d back split => ?_⟩
    subst split
    exact kept (c :: front) d back rfl
  · rintro ⟨here, later⟩ front d back split
    cases front with
    | nil =>
      cases split
      exact here
    | cons e front =>
      cases split
      exact later front d back rfl

instance decidableKept : (s : State) → (text : List Char) → Decidable (Kept s text)
  | s, [] => .isTrue (kept_nil s)
  | s, c :: cs =>
    have := decidableKept (s.step c) cs
    decidable_of_iff _ kept_cons.symm

namespace Bracket

theorem upTo_cons (b : Bracket) (depth : Nat) (c : Char) (cs : List Char) :
    b.upTo depth (c :: cs) =
      if c = b.opening then c :: b.upTo (depth + 1) cs
      else if c = b.closing then
        match depth with
        | 0 => []
        | depth + 1 => c :: b.upTo depth cs
      else c :: b.upTo depth cs := by
  cases depth <;> rfl

theorem upTo_blank {c : Char} (blank : isBlank c) (b : Bracket) (depth : Nat) (cs : List Char) :
    b.upTo depth (c :: cs) = c :: b.upTo depth cs := by
  rw [upTo_cons, if_neg (opening_ne blank b), if_neg (closing_ne blank b)]

theorem upTo_trimLines (b : Bracket) (depth : Nat) (cs : List Char) :
    (b.upTo depth (trimLines cs)).Sublist (b.upTo depth cs) := by
  induction cs generalizing depth with
  | nil => exact .refl _
  | cons c cs ih =>
    by_cases drops : trailing c cs
    · rw [trimLines, if_pos drops, upTo_blank (isBlank_of_trailing drops)]
      exact (ih depth).cons c
    · rw [trimLines, if_neg drops, upTo_cons, upTo_cons]
      split
      · exact (ih _).cons_cons c
      split
      · cases depth with
        | zero => exact .slnil
        | succ depth => exact (ih _).cons_cons c
      · exact (ih _).cons_cons c

theorem all_upTo_append_blanks {w : List Char} (blank : ∀ c ∈ w, isBlank c) (b : Bracket)
    (depth : Nat) (cs : List Char) :
    (b.upTo depth (cs ++ w)).all isBlank = (b.upTo depth cs).all isBlank := by
  induction cs generalizing depth with
  | nil =>
    induction w with
    | nil => rfl
    | cons c w ih =>
      have here := blank c List.mem_cons_self
      rw [List.nil_append, upTo_blank here, List.all_cons, here, Bool.true_and]
      exact ih fun d hd => blank d (List.mem_cons_of_mem _ hd)
  | cons c cs ih =>
    rw [List.cons_append, upTo_cons, upTo_cons]
    split
    · simp only [List.all_cons, ih]
    split
    · cases depth with
      | zero => rfl
      | succ depth => simp only [List.all_cons, ih]
    · simp only [List.all_cons, ih]

/-- Two texts read inside a bracket that make the same part of a word, whatever the bracket goes on
with: they differ by blanks in front of a name, or by blanks behind it and nothing follows. -/
def Alike (b : Bracket) (rest xs ys : List Char) : Prop :=
  match b with
  | .command => xs = ys
  | .parameter => xs.dropWhile isBlank = ys.dropWhile isBlank ∨
      trim xs = trim ys ∧ rest.all isBlank

variable {b : Bracket} {rest xs ys : List Char}

theorem Alike.refl (b : Bracket) (rest xs : List Char) : b.Alike rest xs xs := by
  cases b with
  | command => exact Eq.refl xs
  | parameter => exact .inl rfl

theorem Alike.part (alike : b.Alike rest xs ys) : b.part xs = b.part ys := by
  cases b with
  | command => rw [show xs = ys from alike]
  | parameter =>
    have same : trim xs = trim ys := by
      rcases alike with front | ⟨same, -⟩
      · rw [trim, trim, front]
      · exact same
    rw [Bracket.part, Bracket.part, same]

theorem trim_append_blank {c : Char} (blank : isBlank c) (cs : List Char) :
    trim (cs ++ [c]) = trim cs := by
  rw [trim, trim, List.dropWhile_append]
  split
  · rename_i none
    rw [List.isEmpty_iff.mp none, List.dropWhile_cons_of_pos blank]
    rfl
  · rw [trimEnd_append, if_pos (by simpa using blank)]

theorem Alike.push {c : Char} (alike : b.Alike (c :: rest) xs ys) :
    b.Alike rest (xs ++ [c]) (ys ++ [c]) := by
  cases b with
  | command => exact congrArg (· ++ [c]) alike
  | parameter =>
    rcases alike with front | ⟨same, blank⟩
    · left
      rw [List.dropWhile_append, List.dropWhile_append, front]
    · simp only [List.all_cons, Bool.and_eq_true] at blank
      exact .inr ⟨by rw [trim_append_blank blank.1, trim_append_blank blank.1, same], blank.2⟩

theorem Alike.drop {c : Char} (blank : isBlank c)
    (alike : Bracket.parameter.Alike (c :: rest) xs ys)
    (idle : xs.all isBlank || rest.all isBlank) : Bracket.parameter.Alike rest (xs ++ [c]) ys := by
  rcases alike with front | ⟨same, last⟩
  · rcases (Bool.or_eq_true _ _).mp idle with first | last
    · have none : xs.dropWhile isBlank = [] := List.dropWhile_eq_nil_iff.mpr (by simpa using first)
      left
      rw [List.dropWhile_append, ← front, none, List.isEmpty_nil, if_pos rfl,
        List.dropWhile_cons_of_pos blank]
      rfl
    · exact .inr ⟨by rw [trim_append_blank blank, trim, trim, front], last⟩
  · simp only [List.all_cons, Bool.and_eq_true] at last
    exact .inr ⟨by rw [trim_append_blank blank, same], last.2⟩

theorem Alike.differ {c : Char} (alike : b.Alike (c :: rest) xs ys)
    (counts : b = .parameter → (xs.all isBlank || rest.all isBlank) = false)
    {less : List Char} (fewer : less.Sublist rest) :
    b.part (xs ++ c :: rest) ≠ b.part (ys ++ less) := by
  have shorter := fewer.length_le
  cases b with
  | command =>
    intro same
    have texts : xs ++ c :: rest = ys ++ less := String.ofList_inj.mp (WordPart.command.inj same)
    have lengths := congrArg List.length texts
    rw [show xs = ys from alike] at lengths
    simp at lengths
    omega
  | parameter =>
    have counts := Bool.or_eq_false_iff.mp (counts rfl)
    rcases alike with front | ⟨-, last⟩
    · have some : (xs.dropWhile isBlank).isEmpty = false := by
        rw [isEmpty_dropWhile, counts.1]
      have whole : trim (xs ++ c :: rest) = xs.dropWhile isBlank ++ c :: trimEnd rest := by
        rw [trim, List.dropWhile_append, some, if_neg (by simp), trimEnd_append, trimEnd_cons]
        simp [counts.2]
      have left : trim (ys ++ less) = trimEnd (xs.dropWhile isBlank ++ less) := by
        rw [trim, List.dropWhile_append, ← front, some, if_neg (by simp)]
      intro same
      have names : trim (xs ++ c :: rest) = trim (ys ++ less) :=
        String.ofList_inj.mp (WordPart.parameter.inj same)
      have lengths := congrArg List.length names
      -- the blank stands between the ends of the one name, so the other name is shorter
      have bound := length_trimEnd_append_le (xs.dropWhile isBlank) less
      have fewer := (trimEnd_sublist fewer).length_le
      rw [whole, left] at lengths
      simp at lengths
      omega
    · simp only [List.all_cons, Bool.and_eq_true] at last
      rw [last.2] at counts
      cases counts.2

end Bracket

theorem idle_append_blanks {w : List Char} (blank : ∀ c ∈ w, isBlank c) (m : Mode) (c : Char)
    (back : List Char) : m.idle c (back ++ w) = m.idle c back := by
  unfold Mode.idle
  split <;> first | rfl | rw [Bracket.all_upTo_append_blanks blank]

theorem kept_append_newline {s : State} {cs : List Char} : Kept s (cs ++ ['\n']) ↔ Kept s cs := by
  have blank : ∀ c ∈ ['\n'], isBlank c := by
    simp only [List.mem_singleton, forall_eq]
    decide
  induction cs generalizing s with
  | nil => simp [kept_cons, kept_nil, trailing]
  | cons c cs ih =>
    rw [List.cons_append, kept_cons, kept_cons, trailing_append_blanks blank,
      idle_append_blanks blank]
    exact and_congr_right' ih

end Lexer

end SessionShell
