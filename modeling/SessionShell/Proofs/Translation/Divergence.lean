import SessionShell.Proofs.Translation.Waiting

/-! Once a blank that counts is missing, the content of a text cannot be had back. The lexer reads
the text with the blank and the text without it side by side, and the first stays ahead of the
second until their contents differ for good. -/

namespace SessionShell

/-- Neither content goes on to the other. -/
def Apart (x y : List Atom) : Prop :=
  ¬ x <+: y ∧ ¬ y <+: x

theorem Apart.append {x y : List Atom} (apart : Apart x y) (v w : List Atom) :
    Apart (x ++ v) (y ++ w) := by
  constructor
  · intro within
    rcases List.prefix_or_prefix_of_prefix ((List.prefix_append x v).trans within)
      (List.prefix_append y w) with front | front
    · exact apart.1 front
    · exact apart.2 front
  · intro within
    rcases List.prefix_or_prefix_of_prefix ((List.prefix_append y w).trans within)
      (List.prefix_append x v) with front | front
    · exact apart.2 front
    · exact apart.1 front

theorem apart_of_ne {a b : Atom} (differ : a ≠ b) (x v w : List Atom) :
    Apart (x ++ a :: v) (x ++ b :: w) := by
  constructor <;> intro within <;>
    rw [List.prefix_append_right_inj, List.cons_prefix_cons] at within
  · exact differ within.1
  · exact differ within.1.symm

/-- Contents that differ: they are apart, or the first is ahead by something without a number sign.
The number sign is the one character that is content in one mode and not in another. -/
inductive Differ : List Atom → List Atom → Prop
  | apart {x y : List Atom} (apart : Apart x y) : Differ x y
  | ahead {y d : List Atom} (some : d ≠ []) (plain : .char '#' ∉ d) : Differ (y ++ d) y

namespace Differ

variable {x y : List Atom}

theorem ne (differ : Differ x y) : x ≠ y := by
  intro same
  cases differ with
  | apart apart => exact apart.1 (same ▸ List.prefix_refl x)
  | ahead some => exact some (List.append_right_eq_self.mp same)

theorem atoms (differ : Differ x y) {p q : Atom} (plain : p = q ∨ p ≠ .char '#') :
    Differ (x ++ [p]) (y ++ [q]) := by
  cases differ with
  | apart apart => exact .apart (apart.append _ _)
  | @ahead _ d some without =>
    cases d with
    | nil => exact absurd rfl some
    | cons a d =>
      -- `a` is in front of `p`, so the other text catches up with `a` or goes apart from it
      by_cases same : a = q
      · subst same
        obtain ⟨head, rest⟩ := not_or.mp (mt List.mem_cons.mpr without)
        have left : .char '#' ∉ d ++ [p] := by
          intro member
          rcases List.mem_append.mp member with old | new
          · exact rest old
          · have last := List.mem_singleton.mp new
            rcases plain with rfl | other
            · exact head last
            · exact other last.symm
        have h := Differ.ahead (y := y ++ [a]) (d := d ++ [p]) (by simp) left
        simpa using h
      · rw [List.append_assoc]
        exact .apart (apart_of_ne same y (d ++ [p]) [])

theorem append (differ : Differ x y) (v : List Atom) : Differ (x ++ v) (y ++ v) := by
  induction v generalizing x y with
  | nil => simpa using differ
  | cons a v ih => simpa using ih (differ.atoms (p := a) (q := a) (.inl rfl))

theorem more (differ : Differ x y) {v : List Atom} (plain : .char '#' ∉ v) :
    Differ (x ++ v) y := by
  cases differ with
  | apart apart => simpa using Differ.apart (apart.append v [])
  | ahead some without =>
    rw [List.append_assoc]
    exact .ahead (by simp [some]) (by simp [without, plain])

theorem numberSign (differ : Differ x y) : Apart x (y ++ [.char '#']) := by
  cases differ with
  | apart apart => simpa using apart.append [] [.char '#']
  | @ahead _ d some without =>
    cases d with
    | nil => exact absurd rfl some
    | cons a d => exact apart_of_ne (by rintro rfl; exact without List.mem_cons_self) y d []

end Differ

namespace Lexer

open Text

def State.view (s : State) : Mode × List Atom :=
  (s.mode, s.atoms)

def stepView (v : Mode × List Atom) (c : Char) : Mode × List Atom :=
  ((v.1.take c).1, v.2 ++ (v.1.take c).2)

theorem State.view_step {s : State} (tidy : s.Tidy) (c : Char) :
    (s.step c).view = stepView s.view c :=
  Prod.ext (takes_step tidy c).1 (takes_step tidy c).2

/-- The text with a blank that counts is read first, and the text without it second. What follows in
the one is this, and in the other the same without the blanks at the ends of its lines. -/
inductive Astray : Mode × List Atom → Mode × List Atom → List Char → Prop
  | apart {m n : Mode} {x y : List Atom} {cs : List Char} (apart : Apart x y) :
    Astray (m, x) (n, y) cs
  | skew {m n : Mode} {x y : List Atom} {cs : List Char} (differ : Differ x y) (skew : Skew m n) :
    Astray (m, x) (n, y) cs
  | waits {m n : Mode} {x y : List Atom} {cs : List Char} (fades : fades cs)
    (differ : Differ x (y ++ n.pending)) (waits : Waits m n) : Astray (m, x) (n, y) cs
  | inside {around : Around} {b : Bracket} {depth : Nat} {xs ys cs : List Char} {x : List Atom}
    (other : b.whole depth xs cs ≠ b.whole depth ys (trimLines cs)) :
    Astray (.inside around b depth xs, x) (.inside around b depth ys, x) cs

theorem atoms_part (b : Bracket) (chars : List Char) :
    ∃ p, (b.part chars).atoms = [p] ∧ p ≠ .char '#' := by
  cases b with
  | command => exact ⟨_, rfl, fun same => by cases same⟩
  | parameter => exact ⟨_, rfl, fun same => by cases same⟩

theorem atoms_part_injective {b : Bracket} {xs ys : List Char}
    (same : (b.part xs).atoms = (b.part ys).atoms) : b.part xs = b.part ys := by
  cases b <;> simpa [Bracket.part, WordPart.atoms] using same

namespace Astray

variable {v w : Mode × List Atom} {c : Char} {cs : List Char}

theorem drop (astray : Astray v w (c :: cs)) (drops : trailing c cs) :
    Astray (stepView v c) w cs := by
  have blank := isBlank_of_trailing drops
  have inLine := ne_newline_of_trailing drops
  have fades := fades_of_trailing drops
  cases astray with
  | apart apart => exact .apart (by simpa using apart.append _ [])
  | @skew m n x y _ differ skew =>
    cases skew with
    | same =>
      by_cases inside : ∃ around b depth chars, m = .inside around b depth chars
      · obtain ⟨around, b, depth, chars, rfl⟩ := inside
        rw [stepView, take_inside_blank blank, List.append_nil]
        exact .skew differ (.inside around b depth _ _)
      · obtain ⟨waits, v, adds, plain, -⟩ :=
          starts blank (fun a b d cs same => inside ⟨a, b, d, cs, same⟩) inLine
        refine .waits fades ?_ waits
        rw [adds, ← List.append_assoc]
        exact (differ.append _).more plain
    | gap =>
      obtain ⟨waits, plain⟩ := waits_blank blank (m := .word) (.inl rfl) inLine
      exact .waits fades (by simpa [Mode.pending] using differ.more plain) waits
    | escape =>
      have taken : Mode.gapEscape.take c = (.word, [.char c]) := if_neg inLine
      have plain := numberSign_notMem_blank blank
      rw [stepView, taken]
      exact .waits fades (by simpa [Mode.pending] using differ.more plain) (.inr rfl)
    | inside around b depth xs ys =>
      rw [stepView, take_inside_blank blank, List.append_nil]
      exact .skew differ (.inside around b depth _ _)
  | waits _ differ waits =>
    obtain ⟨waits, plain⟩ := waits_blank blank waits inLine
    exact .waits fades (differ.more plain) waits
  | @inside around b depth xs ys _ x other =>
    rw [stepView, take_inside_blank blank, List.append_nil]
    rw [whole_blank blank, trimLines, if_pos drops] at other
    exact .inside other

theorem keep (astray : Astray v w (c :: cs)) (stays : trailing c cs = false) :
    Astray (stepView v c) (stepView w c) cs := by
  cases astray with
  | apart apart => exact .apart (apart.append _ _)
  | @skew m n x y _ differ skew =>
    cases skew with
    | same => exact .skew (differ.append _) (.same _)
    | gap =>
      -- a number sign begins a comment between words, and is content inside of one
      by_cases mark : c = '#'
      · subst mark
        have apart : Apart (x ++ []) (y ++ [.char '#']) := by simpa using differ.numberSign
        exact .apart apart
      by_cases escape : c = '\\'
      · subst escape
        exact .skew (differ.append []) .escape
      · have taken : Mode.gap.take c = Mode.word.take c := by
          simp only [Mode.take]
        rw [stepView, stepView, taken]
        exact .skew (differ.append _) (.same _)
    | escape =>
      by_cases newline : c = '\n'
      · subst newline
        exact .skew (differ.append []) .gap
      · have taken : Mode.gapEscape.take c = Mode.wordEscape.take c := by
          simp only [Mode.take, if_neg newline]
        rw [stepView, stepView, taken]
        exact .skew (differ.append _) (.same _)
    | inside around b depth xs ys =>
      rcases take_inside around b depth c with ⟨deeper, goes⟩ | closes
      · rw [stepView, stepView, (goes xs []).1, (goes ys []).1]
        exact .skew (by simpa using differ) (.inside around b deeper _ _)
      · obtain ⟨p, hp, plain⟩ := atoms_part b (xs.reverse ++ b.upTo depth (c :: []))
        obtain ⟨q, hq, -⟩ := atoms_part b (ys.reverse ++ b.upTo depth (c :: []))
        rw [stepView, stepView, closes xs [], closes ys [], Bracket.whole, Bracket.whole, hp, hq]
        exact .skew (differ.atoms (.inr plain)) (.same _)
  | waits fades differ waits =>
    obtain rfl := newline_of_not_trailing fades stays
    obtain ⟨skew, same | ⟨none, plain⟩⟩ := waits_newline waits
    · refine .skew ?_ skew
      rw [same, ← List.append_assoc]
      exact differ.append _
    · refine .skew ?_ skew
      rw [none]
      exact differ.more plain
  | @inside around b depth xs ys _ x other =>
    rw [trimLines, if_neg (by simp [stays])] at other
    rcases take_inside around b depth c with ⟨deeper, goes⟩ | closes
    · rw [stepView, stepView, (goes xs cs).1, (goes ys cs).1]
      rw [(goes xs cs).2, (goes ys _).2] at other
      simpa using Astray.inside other
    · obtain ⟨p, hp, -⟩ := atoms_part b (xs.reverse ++ b.upTo depth (c :: cs))
      obtain ⟨q, hq, -⟩ := atoms_part b (ys.reverse ++ b.upTo depth (c :: trimLines cs))
      have differ : p ≠ q := fun same => other (atoms_part_injective (by rw [hp, hq, same]))
      rw [stepView, stepView, closes xs cs, closes ys (trimLines cs), Bracket.whole,
        Bracket.whole, hp, hq]
      exact .apart (apart_of_ne differ x [] [])

end Astray

theorem Waits.pending {m n : Mode} (waits : Waits m n) (final : m.final) : m.pending = [] := by
  cases m with
  | gap | comment | word => rfl
  | dollar | name =>
    cases n with
    | dollar around | name around => cases around <;> simp [Waits] at waits
    | _ => simp [Waits] at waits
  | gapEscape | wordEscape | single | double | doubleEscape | inside => cases final

theorem Astray.finish {m n : Mode} {x y : List Atom} (astray : Astray (m, x) (n, y) [])
    (final : m.final) : x ++ m.pending ≠ y ++ n.pending := by
  cases astray with
  | apart apart => exact (Differ.apart (apart.append _ _)).ne
  | skew differ skew =>
    cases skew with
    | same => exact (differ.append _).ne
    | gap => exact (differ.append []).ne
    | escape | inside => cases final
  | waits _ differ waits =>
    rw [waits.pending final, List.append_nil]
    exact differ.ne
  | inside => cases final

theorem Astray.read {s u : State} {cs : List Char} (tidy : s.Tidy) (tidy' : u.Tidy)
    (astray : Astray s.view u.view cs) {ts us : List Token} (ends : (read s cs).finish = .ok ts)
    (ends' : (read u (trimLines cs)).finish = .ok us) :
    ts.flatMap Token.atoms ≠ us.flatMap Token.atoms := by
  -- on what follows in the text that has the blank; the other follows it with `trimLines`
  induction cs generalizing s u with
  | nil =>
    rw [State.atoms_finish tidy ends, State.atoms_finish tidy' ends']
    exact astray.finish (State.final_of_finish ends)
  | cons c cs ih =>
    have tidyStep := State.tidy_step tidy c
    by_cases drops : trailing c cs
    · rw [trimLines, if_pos drops] at ends'
      refine ih tidyStep tidy' ?_ ends ends'
      rw [State.view_step tidy]
      exact astray.drop drops
    · rw [trimLines, if_neg drops] at ends'
      refine ih tidyStep (State.tidy_step tidy' c) ?_ ends ends'
      rw [State.view_step tidy, State.view_step tidy']
      exact astray.keep (by simpa using drops)

end Lexer

end SessionShell
