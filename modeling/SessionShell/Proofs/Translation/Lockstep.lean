import SessionShell.Proofs.Translation.Divergence

/-! As long as the blanks that are missing are idle, the lexer reads the text without them as it
reads the text with them. It is ahead by the end of a word at most, or inside brackets by blanks
around a name. -/

namespace SessionShell.Lexer

open Text

theorem waits_word {m : Mode} (word : m.endsWord) : Waits .word m := by
  rcases Mode.endsWord_cases word with rfl | rfl | ⟨chars, rfl⟩ <;> exact .inr rfl

/-- The state of the text with its blanks, that of the text without them, and what follows in the
first of the texts. -/
inductive Tied : State → State → List Char → Prop
  | same {s : State} {cs : List Char} (outside : ∀ a b d chars, s.mode ≠ .inside a b d chars) :
    Tied s s cs
  | ended {u : State} {cs : List Char} (word : u.mode.endsWord) (fades : fades cs) :
    Tied (u.step ' ') u cs
  | inside {r : State} {around : Around} {b : Bracket} {depth : Nat} {xs ys cs : List Char}
    (alike : b.Alike (b.upTo depth cs) xs.reverse ys.reverse) :
    Tied { r with mode := .inside around b depth xs }
      { r with mode := .inside around b depth ys } cs

namespace Tied

variable {s u : State} {c : Char} {cs : List Char}

theorem refl (s : State) (cs : List Char) : Tied s s cs := by
  by_cases inside : ∃ a b d chars, s.mode = .inside a b d chars
  · obtain ⟨a, b, d, chars, mode⟩ := inside
    have eta : s = { s with mode := .inside a b d chars } := by rw [← mode]
    rw [eta]
    exact .inside (.refl b _ _)
  · exact .same fun a b d chars mode => inside ⟨a, b, d, chars, mode⟩

theorem drop (tied : Tied s u (c :: cs)) (drops : trailing c cs) (idle : s.mode.idle c cs) :
    Tied (s.step c) u cs := by
  have blank := isBlank_of_trailing drops
  have inLine := ne_newline_of_trailing drops
  have fades := fades_of_trailing drops
  cases tied with
  | same outside =>
    rcases Mode.idle_outside outside idle with mode | ⟨mode | word, blank⟩
    · have stays : s.step c = s := by simp [State.step, mode, inLine]
      rw [stays]
      exact refl s cs
    · rw [State.step_gap mode blank]
      exact refl s cs
    · rw [(State.step_space word).2.2.2 c blank]
      exact .ended word fades
  | ended word =>
    obtain ⟨gap, -⟩ := State.step_space word
    rw [gap] at idle
    rw [State.step_gap gap idle]
    exact .ended word fades
  | @inside r around b depth xs ys _ alike =>
    rw [State.step_inside_blank blank]
    cases b with
    | command => cases idle
    | parameter =>
      rw [Bracket.upTo_blank blank] at alike
      refine .inside ?_
      rw [List.reverse_cons]
      refine alike.drop blank ?_
      simpa [Mode.idle] using idle

theorem keep (tied : Tied s u (c :: cs)) (stays : trailing c cs = false) :
    Tied (s.step c) (u.step c) cs := by
  cases tied with
  | same => exact refl _ cs
  | ended word fades =>
    obtain rfl := newline_of_not_trailing fades stays
    rw [(State.step_space word).2.1]
    exact refl _ cs
  | @inside r around b depth xs ys _ alike =>
    rw [Bracket.upTo_cons] at alike
    simp only [State.step, State.stepInside]
    by_cases opens : c = b.opening
    · rw [if_pos opens] at alike
      rw [if_pos opens, if_pos opens]
      exact .inside (by simpa using alike.push)
    by_cases closes : c = b.closing
    · rw [if_neg opens, if_pos closes] at alike
      rw [if_neg opens, if_pos closes, if_neg opens, if_pos closes]
      cases depth with
      | zero =>
        rw [alike.part]
        exact refl _ cs
      | succ depth => exact .inside (by simpa using alike.push)
    · rw [if_neg opens, if_neg closes] at alike
      rw [if_neg opens, if_neg closes, if_neg opens, if_neg closes]
      exact .inside (by simpa using alike.push)

theorem stray (tidy : u.Tidy) (tied : Tied s u (c :: cs)) (drops : trailing c cs)
    (counts : s.mode.idle c cs = false) : Astray (s.step c).view u.view cs := by
  have blank := isBlank_of_trailing drops
  have inLine := ne_newline_of_trailing drops
  have fades := fades_of_trailing drops
  cases tied with
  | same outside =>
    obtain ⟨waits, v, adds, plain, some⟩ := starts blank outside inLine
    rw [State.view_step tidy]
    refine .waits fades ?_ waits
    simp only [State.view]
    rw [adds, ← List.append_assoc]
    exact .ahead (some cs counts) plain
  | ended word =>
    rw [(State.step_space word).1] at counts
    have adds : Mode.gap.take c = (.word, [.char c]) := by
      rw [take_gap_blank blank]
      rcases take_bare_blank blank inLine with ⟨-, idle⟩ | adds
      · rw [Mode.idle, idle] at counts
        cases counts
      · exact adds
    rw [State.view_step (State.tidy_step tidy ' '), State.view_step tidy]
    simp only [stepView, State.view, take_space word, adds]
    have plain := numberSign_notMem_blank blank
    exact .waits fades (.ahead (by simp) plain) (waits_word word)
  | @inside r around b depth xs ys _ alike =>
    rw [State.step_inside_blank blank]
    rw [Bracket.upTo_blank blank] at alike
    refine .inside fun same => ?_
    refine alike.differ (fun name => ?_) (b.upTo_trimLines depth cs) ?_
    · subst name
      simpa [Mode.idle] using counts
    · simpa [Bracket.whole] using same

theorem read {front back : List Char} (blank : ∀ c ∈ back, isBlank c)
    (tied : Tied s u (front ++ back)) (kept : Kept s (front ++ back)) :
    Tied (Lexer.read s front) (Lexer.read u (trimLines front)) back := by
  induction front generalizing s u with
  | nil => exact tied
  | cons c front ih =>
    obtain ⟨here, later⟩ := kept_cons.mp kept
    by_cases drops : trailing c (front ++ back)
    · have drops' : trailing c front := by rwa [trailing_append_blanks blank] at drops
      rw [trimLines, if_pos drops']
      exact ih (tied.drop drops (here drops)) later
    · have stays : ¬ trailing c front := by rwa [trailing_append_blanks blank] at drops
      rw [trimLines, if_neg stays]
      exact ih (tied.keep (by simpa using drops)) later

theorem finish (tied : Tied s u []) {ts : List Token} (ends : s.finish = .ok ts) :
    u.finish = .ok ts := by
  cases tied with
  | same => exact ends
  | ended word => rw [← ends, (State.step_space word).2.2.1]
  | inside => cases ends

theorem escapes (tied : Tied s u cs) : u.mode.escapes = s.mode.escapes := by
  cases tied with
  | same => rfl
  | ended word =>
    rw [(State.step_space word).1]
    exact Mode.not_escapes_of_endsWord word
  | inside => rfl

theorem strays (tidy : s.Tidy) (tidy' : u.Tidy) (tied : Tied s u cs) (counts : ¬ Kept s cs)
    {ts us : List Token} (ends : (Lexer.read s cs).finish = .ok ts)
    (ends' : (Lexer.read u (trimLines cs)).finish = .ok us) :
    ts.flatMap Token.atoms ≠ us.flatMap Token.atoms := by
  -- the texts are tied up to the first blank that counts, and astray from there on
  induction cs generalizing s u with
  | nil => exact absurd (kept_nil s) counts
  | cons c cs ih =>
    have tidyStep := State.tidy_step tidy c
    rw [kept_cons] at counts
    by_cases drops : trailing c cs
    · rw [trimLines, if_pos drops] at ends'
      cases idle : s.mode.idle c cs with
      | true =>
        refine ih tidyStep tidy' (tied.drop drops idle) (fun later => ?_) ends ends'
        exact counts ⟨fun _ => idle, later⟩
      | false => exact (tied.stray tidy' drops idle).read tidyStep tidy' ends ends'
    · rw [trimLines, if_neg drops] at ends'
      refine ih tidyStep (State.tidy_step tidy' c) (tied.keep (by simpa using drops))
        (fun later => ?_) ends ends'
      exact counts ⟨fun here => absurd here drops, later⟩

end Tied

end SessionShell.Lexer
