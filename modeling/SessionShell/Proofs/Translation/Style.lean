import SessionShell.Proofs.Language.Progress
import SessionShell.Proofs.Translation.Trimming

/-! Strict style against the trimming of lines. Style forbids a space or a tab at the end of a line,
while a translation removes every blank there, so that a text in strict style keeps its lines
exactly if none of them ends in another blank. -/

namespace SessionShell

namespace Text

def unaltered (text : List Char) : List Char :=
  (lines text).flatMap (· ++ ['\n'])

theorem trimEnd_sublist_self (line : List Char) : (trimEnd line).Sublist line := by
  obtain ⟨w, split, -, -⟩ := dropEndWhile_append isBlank line
  exact List.IsPrefix.sublist ⟨w, split.symm⟩

theorem trimEnd_eq_self_iff {line : List Char} :
    trimEnd line = line ↔ ∀ c ∈ line.getLast?, isBlank c = false := by
  constructor
  · intro same
    obtain ⟨w, -, -, printed⟩ := dropEndWhile_append isBlank line
    rwa [← trimEnd, same] at printed
  · intro printed
    have same := dropEndWhile_eq (w := []) (by simp) printed
    rwa [List.append_nil] at same

end Text

open Text

namespace Checked

theorem trimmed_sublist (ls : List (List Char)) :
    (ls.flatMap fun line => trimEnd line ++ ['\n']).Sublist (ls.flatMap (· ++ ['\n'])) := by
  induction ls with
  | nil => exact .slnil
  | cons line ls ih => exact ((trimEnd_sublist_self line).append (.refl _)).append ih

theorem trimmed_eq_iff {ls : List (List Char)} :
    (ls.flatMap fun line => trimEnd line ++ ['\n']) = ls.flatMap (· ++ ['\n']) ↔
      ∀ line ∈ ls, trimEnd line = line := by
  induction ls with
  | nil => simp
  | cons line ls ih =>
    have here := trimEnd_sublist_self line
    have later := trimmed_sublist ls
    rw [List.forall_mem_cons, ← ih, List.flatMap_cons, List.flatMap_cons]
    constructor
    · intro same
      have lengths := congrArg List.length same
      simp only [List.length_append] at lengths
      have := here.length_le
      have := later.length_le
      exact ⟨here.eq_of_length (by omega), later.eq_of_length (by omega)⟩
    · rintro ⟨first, rest⟩
      rw [first, rest]

theorem body_eq_unaltered_iff {text : List Char} :
    body text = unaltered text ↔ ∀ line ∈ lines text, ∀ c ∈ line.getLast?, isBlank c = false := by
  simp only [body, unaltered, trimmed_eq_iff, trimEnd_eq_self_iff]

theorem styleFault_eq_none_iff {line : List Char} :
    styleFault line = none ↔
      line.head? ≠ some '\t' ∧ line.getLast? ≠ some ' ' ∧ line.getLast? ≠ some '\t' := by
  unfold styleFault
  split
  · rename_i indented
    simp [indented]
  · rename_i indented
    simp [indented]

theorem checkStyle_eq_ok_iff (number : Nat) {ls : List (List Char)} :
    checkStyle number ls = .ok () ↔ ∀ line ∈ ls, styleFault line = none := by
  induction ls generalizing number with
  | nil => simp [checkStyle]
  | cons line ls ih =>
    rw [checkStyle, List.forall_mem_cons]
    cases h : styleFault line with
    | some fault => simp
    | none => simpa using ih (number + 1)

theorem translate_strict_eq_ok_iff {text code : String} {mode : Mode} :
    translate true text mode = .ok code ↔
      (∃ program, parse text = .ok program) ∧
        (∀ line ∈ lines text.toList, styleFault line = none) ∧ code = wrap mode text := by
  rw [← checkStyle_eq_ok_iff 0]
  simp only [translate, check]
  cases parse text with
  | error e => simp
  | ok program =>
    cases checkStyle 0 (lines text.toList) with
    | error e => simp
    | ok _ => simp [eq_comm]

/-- A text that strict style accepts keeps its lines behind the comment exactly if no line ends in a
blank that style does not know. -/
theorem strict_keeps_lines_iff {text code : String}
    (accepted : translate true text .module = .ok code) :
    code = banner ++ String.ofList (unaltered text.toList) ↔
      ∀ line ∈ lines text.toList, ∀ c ∈ line.getLast?, isBlank c → c = ' ' ∨ c = '\t' := by
  obtain ⟨-, neat, rfl⟩ := translate_strict_eq_ok_iff.mp accepted
  rw [wrap, String.append_right_inj, String.ofList_inj, body_eq_unaltered_iff]
  refine forall₂_congr fun line member => forall₂_congr fun c last => ?_
  obtain ⟨-, noSpace, noTab⟩ := styleFault_eq_none_iff.mp (neat line member)
  have unknown : ¬(c = ' ' ∨ c = '\t') := by
    rintro (rfl | rfl)
    · exact noSpace last
    · exact noTab last
  simp [unknown]

theorem strict_keeps_lines_returns :
    translate true "echo a\r\nb" .module = .ok (banner ++ "echo a\nb\n") ∧
      banner ++ "echo a\nb\n" = banner ++ String.ofList (unaltered "echo a\r\nb".toList) := by
  have lexed : tokenize "echo a\r\nb" =
      .ok [.word [.literal "echo"], .word [.literal "a"], .newline, .word [.literal "b"]] := by rfl
  have wrapped : wrap .module "echo a\r\nb" = banner ++ "echo a\nb\n" := by decide +kernel
  have accepted : translate true "echo a\r\nb" .module = .ok (banner ++ "echo a\nb\n") :=
    translate_strict_eq_ok_iff.mpr ⟨⟨_, parse_of_tokens lexed⟩, by decide, wrapped.symm⟩
  have printed : ∀ line ∈ lines "echo a\r\nb".toList,
      line.getLast? = some 'a' ∨ line.getLast? = some 'b' := by decide
  refine ⟨accepted, (strict_keeps_lines_iff accepted).mpr fun line member c last blank => ?_⟩
  rcases printed line member with ends | ends
  · cases ends.symm.trans last
    cases blank
  · cases ends.symm.trans last
    cases blank

/-- A no-break space at the end of a line is a part of the word for the lexer and no blank for
style, and is lost. -/
theorem strict_blank_lost :
    translate true "echo a\u00a0" .module = .ok (banner ++ "echo a\n") ∧
      banner ++ "echo a\n" ≠ banner ++ String.ofList (unaltered "echo a\u00a0".toList) := by
  have lexed : tokenize "echo a\u00a0" =
      .ok [.word [.literal "echo"], .word [.literal "a\u00a0"]] := by rfl
  have wrapped : wrap .module "echo a\u00a0" = banner ++ "echo a\n" := by decide +kernel
  refine ⟨translate_strict_eq_ok_iff.mpr ⟨⟨_, parse_of_tokens lexed⟩, by decide, wrapped.symm⟩, ?_⟩
  decide +kernel

end Checked

end SessionShell
