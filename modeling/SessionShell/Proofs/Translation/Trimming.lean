import Mathlib.Data.List.TakeWhile
import SessionShell.Translation.Checked

/-! The body of a translation, character by character. It is the text, with a newline at its end,
less the blanks at the ends of its lines. -/

namespace SessionShell

namespace Text

theorem dropEndWhile_append (p : Char → Bool) (cs : List Char) :
    ∃ w, cs = dropEndWhile p cs ++ w ∧ (∀ c ∈ w, p c) ∧
      ∀ c ∈ (dropEndWhile p cs).getLast?, p c = false := by
  refine ⟨(cs.reverse.takeWhile p).reverse, ?_, fun c member => ?_, fun c last => ?_⟩
  · rw [dropEndWhile, ← List.reverse_append, List.takeWhile_append_dropWhile, List.reverse_reverse]
  · exact List.all_eq_true.mp List.all_takeWhile c (List.mem_reverse.mp member)
  · have stop := List.head?_dropWhile_not p cs.reverse
    rw [dropEndWhile, List.getLast?_reverse] at last
    rw [Option.mem_def.mp last] at stop
    exact stop

theorem dropEndWhile_eq {p : Char → Bool} {cs w : List Char} (removed : ∀ c ∈ w, p c)
    (stop : ∀ c ∈ cs.getLast?, p c = false) : dropEndWhile p (cs ++ w) = cs := by
  have none : w.reverse.dropWhile p = [] := List.dropWhile_eq_nil_iff.mpr (by simpa using removed)
  rw [dropEndWhile, List.reverse_append, List.dropWhile_append, none]
  cases h : cs.reverse with
  | nil => simpa using h.symm
  | cons c more =>
    have kept : p c = false := stop c (by simp [List.getLast?_eq_head?_reverse, h])
    rw [List.isEmpty_nil, if_pos rfl, List.dropWhile_cons_of_neg (by simp [kept]), ← h,
      List.reverse_reverse]

theorem isEmpty_dropWhile (p : Char → Bool) (cs : List Char) :
    (cs.dropWhile p).isEmpty = cs.all p := by
  rw [Bool.eq_iff_iff, List.isEmpty_iff, List.dropWhile_eq_nil_iff, List.all_eq_true]

theorem dropWhile_sublist_dropWhile (p : Char → Bool) {cs ds : List Char} (fewer : cs.Sublist ds) :
    (cs.dropWhile p).Sublist (ds.dropWhile p) := by
  induction fewer with
  | slnil => exact .slnil
  | @cons cs ds c fewer ih =>
    rw [List.dropWhile_cons]
    split
    · exact ih
    · exact ((List.dropWhile_sublist p).trans fewer).cons c
  | @cons_cons cs ds c fewer ih =>
    rw [List.dropWhile_cons, List.dropWhile_cons]
    split
    · exact ih
    · exact fewer.cons_cons c

theorem trimEnd_sublist {cs ds : List Char} (fewer : cs.Sublist ds) :
    (trimEnd cs).Sublist (trimEnd ds) :=
  (dropWhile_sublist_dropWhile isBlank fewer.reverse).reverse

theorem trimEnd_append (cs ds : List Char) :
    trimEnd (cs ++ ds) = if ds.all isBlank then trimEnd cs else cs ++ trimEnd ds := by
  rw [trimEnd, dropEndWhile, List.reverse_append, List.dropWhile_append, isEmpty_dropWhile,
    List.all_reverse]
  split
  · rfl
  · rw [List.reverse_append, List.reverse_reverse]
    rfl

theorem length_trimEnd_append_le (cs ds : List Char) :
    (trimEnd (cs ++ ds)).length ≤ cs.length + (trimEnd ds).length := by
  rw [trimEnd_append]
  split
  · have := (List.dropWhile_sublist isBlank (l := cs.reverse)).length_le
    simp [trimEnd, dropEndWhile] at *
    omega
  · simp

theorem trimEnd_blanks {w : List Char} (blank : w.all isBlank) : trimEnd w = [] := by
  rw [← List.nil_append w, trimEnd_append, if_pos blank]
  rfl

theorem trimEnd_cons (c : Char) (cs : List Char) :
    trimEnd (c :: cs) = if isBlank c && cs.all isBlank then [] else c :: trimEnd cs := by
  rw [← List.singleton_append, trimEnd_append]
  split
  · rename_i all
    rw [all, trimEnd_blanks all]
    cases blank : isBlank c <;> simp [trimEnd, dropEndWhile, blank]
  · rename_i some
    simp [some]

/-- Whether nothing but blanks comes before the next newline. -/
def fades : List Char → Bool
  | [] => true
  | c :: cs => c == '\n' || (isBlank c && fades cs)

/-- Whether a character with this text behind it is a blank at the end of its line. -/
def trailing (c : Char) (back : List Char) : Bool :=
  c != '\n' && isBlank c && fades back

def trimLines : List Char → List Char
  | [] => []
  | c :: cs => if trailing c cs then trimLines cs else c :: trimLines cs

/-- The newline that a text lacks at its end. -/
def ending (text : List Char) : List Char :=
  if text.getLast?.all (· == '\n') then [] else ['\n']

theorem newline_of_not_trailing {c : Char} {cs : List Char} (ends : fades (c :: cs))
    (kept : trailing c cs = false) : c = '\n' := by
  by_cases newline : c = '\n'
  · exact newline
  · simp_all [fades, trailing]

theorem fades_of_trailing {c : Char} {cs : List Char} (drops : trailing c cs) : fades cs := by
  simp only [trailing, Bool.and_eq_true] at drops
  exact drops.2

theorem isBlank_of_trailing {c : Char} {cs : List Char} (drops : trailing c cs) : isBlank c := by
  simp only [trailing, Bool.and_eq_true] at drops
  exact drops.1.2

theorem ne_newline_of_trailing {c : Char} {cs : List Char} (drops : trailing c cs) : c ≠ '\n' := by
  simp only [trailing, Bool.and_eq_true, bne_iff_ne] at drops
  exact drops.1.1

section Blanks

variable {w : List Char} (blank : ∀ c ∈ w, isBlank c)
include blank

theorem fades_blanks : fades w := by
  induction w with
  | nil => rfl
  | cons c w ih =>
    simp [fades, blank c List.mem_cons_self, ih fun d hd => blank d (List.mem_cons_of_mem _ hd)]

theorem fades_append_blanks (cs : List Char) : fades (cs ++ w) = fades cs := by
  induction cs with
  | nil => exact fades_blanks blank
  | cons c cs ih => simp only [List.cons_append, fades, ih]

theorem trailing_append_blanks (c : Char) (cs : List Char) :
    trailing c (cs ++ w) = trailing c cs := by
  simp only [trailing, fades_append_blanks blank]

theorem trimLines_append_blanks (cs : List Char) :
    trimLines (cs ++ w) = trimLines cs ++ trimLines w := by
  induction cs with
  | nil => rfl
  | cons c cs ih =>
    simp only [List.cons_append, trimLines, trailing_append_blanks blank, ih]
    split <;> rfl

theorem newline_of_mem_trimLines {c : Char} (kept : c ∈ trimLines w) : c = '\n' := by
  induction w with
  | nil => cases kept
  | cons d w ih =>
    have rest := fun e he => blank e (List.mem_cons_of_mem d he)
    simp only [trimLines] at kept
    split at kept
    · exact ih rest kept
    · rename_i stays
      rcases List.mem_cons.mp kept with rfl | later
      · exact newline_of_not_trailing (fades_blanks blank) (by simpa using stays)
      · exact ih rest later

end Blanks

theorem getLast?_trimLines (cs : List Char) {c : Char} (printed : isBlank c = false) :
    (trimLines (cs ++ [c])).getLast? = some c := by
  induction cs with
  | nil => simp [trimLines, trailing, printed]
  | cons d cs ih =>
    simp only [List.cons_append, trimLines]
    split
    · exact ih
    · simp [List.getLast?_cons, ih]

theorem trimEnd_dropReturn (line : List Char) : trimEnd (dropReturn line) = trimEnd line := by
  unfold dropReturn
  split
  · rename_i ends
    obtain ⟨front, rfl⟩ := List.getLast?_eq_some_iff.mp ends
    have blank : isBlank '\r' = true := by decide
    simp [trimEnd, dropEndWhile, blank]
  · rfl

theorem splitWhere_cons {c : Char} (other : c ≠ '\n') {cs piece : List Char}
    {more : List (List Char)} (h : splitWhere (· == '\n') cs = piece :: more) :
    splitWhere (· == '\n') (c :: cs) = (c :: piece) :: more := by
  unfold splitWhere at h ⊢
  rw [List.foldr_cons, h, if_neg (by simpa using other)]

theorem eq_newline_of_mem_ending {text : List Char} {c : Char} (member : c ∈ ending text) :
    c = '\n' := by
  unfold ending at member
  split at member
  · cases member
  · exact List.mem_singleton.mp member

theorem ending_line (line rest : List Char) : ending (line ++ '\n' :: rest) = ending rest := by
  cases rest <;> simp [ending, List.getLast?_append, List.getLast?_cons]

theorem ne_newline_of_last {cs : List Char} (printed : ∀ c ∈ cs.getLast?, isBlank c = false)
    {c : Char} (last : c ∈ (trimLines cs).getLast?) : c ≠ '\n' := by
  rcases List.eq_nil_or_concat cs with rfl | ⟨front, d, rfl⟩
  · cases last
  · have nonblank : isBlank d = false := printed d (by simp)
    rw [List.concat_eq_append, getLast?_trimLines front nonblank] at last
    cases last
    exact (ne_of_blank (by decide) nonblank).symm

section Line

variable {line : List Char} (one : '\n' ∉ line)
include one

theorem fades_line (rest : List Char) : fades (line ++ '\n' :: rest) = line.all isBlank := by
  induction line with
  | nil => rfl
  | cons c line ih =>
    have here : c ≠ '\n' := Ne.symm (List.ne_of_not_mem_cons one)
    simp [fades, here, ih (List.not_mem_of_not_mem_cons one)]

theorem trimLines_line (rest : List Char) :
    trimLines (line ++ '\n' :: rest) = trimEnd line ++ '\n' :: trimLines rest := by
  induction line with
  | nil => rfl
  | cons c line ih =>
    have here : c ≠ '\n' := Ne.symm (List.ne_of_not_mem_cons one)
    have later := List.not_mem_of_not_mem_cons one
    have drops : trailing c (line ++ '\n' :: rest) = (isBlank c && line.all isBlank) := by
      simp only [trailing, fades_line later, bne_iff_ne.mpr here, Bool.true_and]
    rw [List.cons_append, trimLines, drops, ih later, trimEnd_cons]
    split
    · rename_i blank
      rw [trimEnd_blanks ((Bool.and_eq_true _ _).mp blank).2]
    · rfl

theorem splitWhere_line (rest : List Char) :
    splitWhere (· == '\n') (line ++ '\n' :: rest) = line :: splitWhere (· == '\n') rest := by
  induction line with
  | nil => rfl
  | cons c line ih =>
    exact splitWhere_cons (Ne.symm (List.ne_of_not_mem_cons one))
      (ih (List.not_mem_of_not_mem_cons one))

theorem splitWhere_last : splitWhere (· == '\n') line = [line] := by
  induction line with
  | nil => rfl
  | cons c line ih =>
    exact splitWhere_cons (Ne.symm (List.ne_of_not_mem_cons one))
      (ih (List.not_mem_of_not_mem_cons one))

theorem lines_line (rest : List Char) :
    lines (line ++ '\n' :: rest) = dropReturn line :: lines rest := by
  have some := splitWhere_ne_nil (· == '\n') rest
  simp only [lines, splitWhere_line one]
  cases more : splitWhere (· == '\n') rest with
  | nil => exact absurd more some
  | cons piece pieces => rfl

end Line

theorem line_induction {α : Type} {P : List α → Prop} (newline : α)
    (last : ∀ line, newline ∉ line → P line)
    (line : ∀ line rest, newline ∉ line → P rest → P (line ++ newline :: rest)) (text : List α) :
    P text := by
  induction h : text.length using Nat.strongRecOn generalizing text with
  | ind n ih =>
    by_cases more : newline ∈ text
    · obtain ⟨front, rest, rfl, one⟩ := List.eq_append_cons_of_mem more
      refine line front rest one (ih rest.length ?_ rest rfl)
      simp at h
      omega
    · exact last text more

end Text

open Text

namespace Checked

theorem body_eq (text : List Char) : body text = trimLines (text ++ ending text) := by
  induction text using line_induction '\n' with
  | last line one =>
    cases line with
    | nil => rfl
    | cons c line =>
      have ends : ending (c :: line) = ['\n'] := by
        have other : (c :: line).getLast (by simp) ≠ '\n' :=
          fun same => one (same ▸ List.getLast_mem _)
        simp [ending, List.getLast?_eq_some_getLast, other]
      rw [ends, trimLines_line one]
      simp [body, lines, splitWhere_last one, trimLines]
  | line line rest one ih =>
    rw [ending_line, List.append_assoc, List.cons_append, trimLines_line one, ← ih, body,
      lines_line one, List.flatMap_cons, trimEnd_dropReturn]
    simp [body]

theorem dropEndWhile_body (text : List Char) :
    dropEndWhile (· == '\n') (body text) = trimLines (trimEnd text) := by
  obtain ⟨w, split, blank, printed⟩ := dropEndWhile_append isBlank text
  have blanks : ∀ c ∈ w ++ ending text, isBlank c := by
    intro c member
    rcases List.mem_append.mp member with old | new
    · exact blank c old
    · rw [eq_newline_of_mem_ending new]
      decide
  have parts : body text = trimLines (trimEnd text) ++ trimLines (w ++ ending text) := by
    rw [body_eq, ← trimLines_append_blanks blanks, trimEnd, ← List.append_assoc, ← split]
  rw [parts]
  refine dropEndWhile_eq (fun c kept => ?_) (fun c last => ?_)
  · simpa using newline_of_mem_trimLines blanks kept
  · simpa using ne_newline_of_last printed last

end Checked

end SessionShell
