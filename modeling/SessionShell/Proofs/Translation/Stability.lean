import Mathlib.Data.List.DropRight
import SessionShell.Proofs.Translation.Style

/-! Translating again what was translated. A translated statement consists of its lines with a
newline between each two of them; no line ends in a blank, and the last one is not empty. The lines
of such a text are these lines again, so that nothing is left to remove. -/

namespace SessionShell

namespace Text

/-- One line, without blanks at its end. -/
structure Trimmed (line : List Char) : Prop where
  one : '\n' ∉ line
  printed : ∀ c ∈ line.getLast?, isBlank c = false

/-- The lines of a translated statement. -/
structure Neat (ls : List (List Char)) : Prop where
  trimmed : ∀ line ∈ ls, Trimmed line
  filled : ls.getLast? ≠ some []

/-- The lines of a text without the blanks at their ends, up to the last one that is not empty
then. -/
def keptLines (text : List Char) : List (List Char) :=
  ((lines text).map trimEnd).rdropWhile List.isEmpty

theorem trimmed_trimEnd {line : List Char} (one : '\n' ∉ line) : Trimmed (trimEnd line) := by
  obtain ⟨w, -, -, printed⟩ := dropEndWhile_append isBlank line
  exact ⟨fun member => one ((trimEnd_sublist_self line).mem member), printed⟩

theorem Trimmed.trimEnd_eq {line : List Char} (trimmed : Trimmed line) : trimEnd line = line :=
  trimEnd_eq_self_iff.mpr trimmed.printed

theorem Trimmed.dropReturn_eq {line : List Char} (trimmed : Trimmed line) :
    dropReturn line = line := by
  refine if_neg fun ends => ?_
  cases trimmed.printed '\r' ends

theorem newline_notMem_lines (text : List Char) : ∀ line ∈ lines text, '\n' ∉ line := by
  induction text using line_induction '\n' with
  | last line one =>
    cases line with
    | nil => simp [lines]
    | cons c line => simpa [lines, splitWhere_last one] using one
  | line line rest one ih =>
    rw [lines_line one, List.forall_mem_cons]
    refine ⟨?_, ih⟩
    unfold dropReturn
    split
    · exact fun member => one ((List.dropLast_sublist line).mem member)
    · exact one

theorem neat_keptLines (text : List Char) : Neat (keptLines text) := by
  constructor
  · intro line member
    have kept := (List.rdropWhile_prefix _ _).subset member
    obtain ⟨source, listed, rfl⟩ := List.mem_map.mp kept
    exact trimmed_trimEnd (newline_notMem_lines text source listed)
  · intro ends
    obtain ⟨some, last⟩ := List.mem_getLast?_eq_getLast ends
    exact List.rdropWhile_last_not _ _ some (last ▸ rfl)

theorem joinLines_concat (ls : List (List Char)) (last : List Char) :
    joinLines (ls ++ [last]) = ls.flatMap (· ++ ['\n']) ++ last := by
  induction ls with
  | nil => simp [joinLines]
  | cons line ls ih =>
    rw [List.flatMap_cons, List.append_assoc, ← ih]
    cases ls <;> simp [joinLines]

theorem lines_append {ls : List (List Char)} (trimmed : ∀ line ∈ ls, Trimmed line)
    (rest : List Char) : lines (ls.flatMap (· ++ ['\n']) ++ rest) = ls ++ lines rest := by
  induction ls with
  | nil => rfl
  | cons line ls ih =>
    obtain ⟨here, later⟩ := List.forall_mem_cons.mp trimmed
    have front : (line :: ls).flatMap (· ++ ['\n']) ++ rest =
        line ++ '\n' :: (ls.flatMap (· ++ ['\n']) ++ rest) := by simp
    rw [front, lines_line here.one, ih later, here.dropReturn_eq]
    rfl

namespace Neat

variable {ls : List (List Char)} (neat : Neat ls)
include neat

theorem lines_joinLines : lines (joinLines ls) = ls := by
  obtain rfl | ⟨front, last, rfl⟩ := ls.eq_nil_or_concat'
  · rfl
  · obtain ⟨trimmed, here⟩ := List.forall_mem_append.mp neat.trimmed
    have one : '\n' ∉ last := (here last (List.mem_singleton_self last)).one
    have single : lines last = [last] := by
      have filled := neat.filled
      cases last with
      | nil => simp at filled
      | cons c last => simp [lines, splitWhere_last one]
    rw [joinLines_concat, lines_append trimmed, single]

theorem keptLines_joinLines : keptLines (joinLines ls) = ls := by
  have same : ls.map trimEnd = ls.map id :=
    List.map_congr_left fun line member => (neat.trimmed line member).trimEnd_eq
  rw [keptLines, neat.lines_joinLines, same, List.map_id, List.rdropWhile_eq_self_iff]
  intro some empty
  exact neat.filled (by rw [List.getLast?_eq_some_getLast some, List.isEmpty_iff.mp empty])

theorem last_printed : ∀ c ∈ (joinLines ls).getLast?, isBlank c = false := by
  obtain rfl | ⟨front, last, rfl⟩ := ls.eq_nil_or_concat'
  · nofun
  · have here := neat.trimmed last List.mem_concat_self
    have filled : last ≠ [] := by simpa using neat.filled
    rw [joinLines_concat, List.getLast?_append_of_ne_nil _ filled]
    exact here.printed

end Neat

theorem dropEndWhile_lines {ls : List (List Char)} (trimmed : ∀ line ∈ ls, Trimmed line) :
    dropEndWhile (· == '\n') (ls.flatMap (· ++ ['\n'])) =
      joinLines (ls.rdropWhile List.isEmpty) := by
  induction ls using List.reverseRecOn with
  | nil => rfl
  | append_singleton ls last ih =>
    obtain ⟨front, here⟩ := List.forall_mem_append.mp trimmed
    have behind : (ls ++ [last]).flatMap (· ++ ['\n']) =
        (ls.flatMap (· ++ ['\n']) ++ last) ++ ['\n'] := by simp
    rw [behind]
    by_cases empty : last = []
    · subst empty
      rw [List.rdropWhile_concat_pos _ _ _ rfl, ← ih front, List.append_nil]
      exact List.rdropWhile_concat_pos _ _ _ rfl
    · have filled : ¬ last.isEmpty := by simpa using empty
      rw [List.rdropWhile_concat_neg _ _ _ filled, joinLines_concat]
      refine dropEndWhile_eq (by simp) fun c ends => ?_
      rw [List.getLast?_append_of_ne_nil _ empty] at ends
      have printed := (here last (List.mem_singleton_self last)).printed c ends
      simpa using (ne_of_blank (by decide) printed).symm

end Text

open Text

namespace Checked

theorem toList_wrap (text : String) :
    (wrap .single text).toList = joinLines (keptLines text.toList) := by
  have trimmed : ∀ line ∈ (lines text.toList).map trimEnd, Trimmed line :=
    List.forall_mem_map.mpr fun line member => trimmed_trimEnd (newline_notMem_lines _ line member)
  rw [keptLines, ← dropEndWhile_lines trimmed, wrap, String.toList_ofList, body, List.flatMap_map]

theorem styleFault_trimEnd {line : List Char} (neat : styleFault line = none) :
    styleFault (trimEnd line) = none := by
  obtain ⟨w, split, -, printed⟩ := dropEndWhile_append isBlank line
  obtain ⟨plain, -⟩ := styleFault_eq_none_iff.mp neat
  refine styleFault_eq_none_iff.mpr ⟨fun tab => plain ?_, fun space => ?_, fun tab => ?_⟩
  · rw [split, List.head?_append, ← trimEnd, tab]
    rfl
  · cases printed ' ' space
  · cases printed '\t' tab

theorem wrap_of_translate {strict : Bool} {text code : String} {mode : Mode}
    (translated : translate strict text mode = .ok code) : code = wrap mode text := by
  unfold translate at translated
  split at translated
  · cases translated
  · exact (Except.ok.inj translated).symm

theorem translate_again {strict : Bool} {text code : String}
    (translated : translate strict text .single = .ok code)
    (whole : ∃ program, parse code = .ok program) :
    translate strict code .single = .ok (wrap .single code) := by
  cases strict with
  | false =>
    obtain ⟨program, parsed⟩ := whole
    simp [translate, check, parsed]
  | true =>
    obtain ⟨-, style, rfl⟩ := translate_strict_eq_ok_iff.mp translated
    refine translate_strict_eq_ok_iff.mpr ⟨whole, fun line member => ?_, rfl⟩
    rw [toList_wrap, (neat_keptLines _).lines_joinLines] at member
    obtain ⟨source, listed, rfl⟩ := List.mem_map.mp ((List.rdropWhile_prefix _ _).subset member)
    exact styleFault_trimEnd (style source listed)

/-- A translated statement is translated to itself, whenever it is a program, and under either style
to nothing else. Its lines are those of the source without the blanks at their ends, less the empty
ones at the end of the text, with a single newline between each two. -/
theorem translation_stable {strict : Bool} {text code : String}
    (translated : translate strict text .single = .ok code) :
    (∀ strict' again, translate strict' code .single = .ok again → again = code) ∧
      ((∃ program, parse code = .ok program) → translate strict code .single = .ok code) ∧
      lines code.toList = ((lines text.toList).map trimEnd).rdropWhile List.isEmpty ∧
      code.toList = joinLines (lines code.toList) ∧
      (∀ line ∈ lines code.toList, ∀ c ∈ line.getLast?, isBlank c = false) ∧
      code.toList.getLast? ≠ some '\n' := by
  have neat := neat_keptLines text.toList
  have made : code.toList = joinLines (keptLines text.toList) := by
    rw [wrap_of_translate translated, toList_wrap]
  have kept : lines code.toList = keptLines text.toList := by rw [made, neat.lines_joinLines]
  have same : wrap .single code = code := by
    rw [← String.toList_inj, toList_wrap, made, neat.keptLines_joinLines]
  refine ⟨fun strict' again retranslated => ?_, fun whole => ?_, kept, ?_, ?_, ?_⟩
  · rw [wrap_of_translate retranslated, same]
  · rw [translate_again translated whole, same]
  · rw [kept, made]
  · rw [kept]
    exact fun line member => (neat.trimmed line member).printed
  · rw [made]
    intro newline
    cases neat.last_printed '\n' newline

/-- Lines that end in carriage returns and in other blanks, with empty lines around them. -/
theorem translation_stable_returns :
    let text := "\r\necho a\u00a0\r\n\n b\rc\r\r\n\u3000\n\r\n"
    let code := "\necho a\n\n b\rc"
    translate true text .single = .ok code ∧ translate true code .single = .ok code ∧
      (∀ line ∈ lines code.toList, ∀ c ∈ line.getLast?, isBlank c = false) ∧
      lines code.toList = ["".toList, "echo a".toList, "".toList, " b\rc".toList] := by
  intro text code
  have lexed : tokenize text =
      .ok [.newline, .word [.literal "echo"], .word [.literal "a\u00a0"], .newline, .newline,
        .word [.literal "b"], .word [.literal "c"], .newline, .word [.literal "\u3000"], .newline,
        .newline] := by decide +kernel
  have lexed' : tokenize code =
      .ok [.newline, .word [.literal "echo"], .word [.literal "a"], .newline, .newline,
        .word [.literal "b"], .word [.literal "c"]] := by decide +kernel
  have wrapped : wrap .single text = code := by decide +kernel
  have style : ∀ line ∈ lines text.toList, styleFault line = none := by decide +kernel
  have translated : translate true text .single = .ok code :=
    translate_strict_eq_ok_iff.mpr ⟨⟨_, parse_of_tokens lexed⟩, style, wrapped.symm⟩
  obtain ⟨-, again, -, -, printed, -⟩ := translation_stable translated
  exact ⟨translated, again ⟨_, parse_of_tokens lexed'⟩, printed, by decide⟩

end Checked

end SessionShell
