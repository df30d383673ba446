import SessionShell.Proofs.Language.Surroundings
import SessionShell.Proofs.Translation.Lockstep

/-! When a translation is the program that was checked. The check reads the source, and what becomes
of it has lost the blanks at the ends of its lines. The two are one program exactly if all these
blanks are idle, and if a statement does not end in a backslash that escaped a newline. -/

namespace SessionShell

open Text

open SessionShell.Parser Lexer

/-- A program without the blanks at the ends of its lines is the same program exactly if all of them
are idle. -/
theorem parse_trimLines_iff {cs : List Char} {program : Program}
    (whole : parse (String.ofList cs) = .ok program) :
    parse (String.ofList (trimLines cs)) = .ok program ↔ Kept {} cs := by
  obtain ⟨ts, lexed, parsed⟩ := parse_eq_ok.mp whole
  rw [tokenize_ofList] at lexed
  constructor
  · intro trimmed
    obtain ⟨us, lexed', parsed'⟩ := parse_eq_ok.mp trimmed
    rw [tokenize_ofList] at lexed'
    by_contra counts
    refine (Tied.refl {} cs).strays State.tidy_init State.tidy_init counts lexed lexed' ?_
    rw [← atoms_parseTokens parsed, atoms_parseTokens parsed']
  · intro kept
    have tied : Tied (read {} cs) (read {} (trimLines cs)) [] :=
      (Tied.refl {} (cs ++ [])).read (by simp) (by simpa using kept)
    exact parse_eq_ok.mpr ⟨ts, (tokenize_ofList _).trans (tied.finish lexed), parsed⟩

namespace Checked

theorem parse_body_iff {text : List Char} {program : Program}
    (whole : parse (String.ofList text) = .ok program) :
    parse (String.ofList (body text)) = .ok program ↔ Kept {} text := by
  obtain ⟨ts, lexed, -⟩ := parse_eq_ok.mp whole
  rw [tokenize_ofList] at lexed
  have newline : ∀ c ∈ ending text, c = '\n' := fun _ => eq_newline_of_mem_ending
  rw [← parse_append_newlines newline lexed] at whole
  rw [body_eq, parse_trimLines_iff whole]
  unfold ending
  split
  · rw [List.append_nil]
  · exact kept_append_newline

theorem parse_single_iff {text : List Char} {program : Program}
    (whole : parse (String.ofList text) = .ok program) :
    parse (String.ofList (trimLines (trimEnd text))) = .ok program ↔
      Kept {} text ∧ (read {} (trimEnd text)).mode.escapes = false := by
  obtain ⟨ends, split, newlines, -⟩ := dropEndWhile_append (· == '\n') (body text)
  obtain ⟨w, split', blank, -⟩ := dropEndWhile_append isBlank text
  rw [dropEndWhile_body] at split
  have newline : ∀ c ∈ ends, c = '\n' := fun c member => by simpa using newlines c member
  have escapes (kept : Kept {} text) :
      (read {} (trimLines (trimEnd text))).mode.escapes =
        (read {} (trimEnd text)).mode.escapes := by
    rw [split'] at kept
    exact ((Tied.refl {} _).read blank kept).escapes
  constructor
  · intro trimmed
    obtain ⟨ts, lexed, -⟩ := parse_eq_ok.mp trimmed
    rw [tokenize_ofList] at lexed
    have kept : Kept {} text := by
      rw [← parse_body_iff whole, split, parse_append_newlines newline lexed]
      exact trimmed
    refine ⟨kept, ?_⟩
    rw [← escapes kept]
    exact State.not_escapes_of_finish lexed
  · rintro ⟨kept, complete⟩
    have parsed := (parse_body_iff whole).mpr kept
    rw [← escapes kept] at complete
    rw [split] at parsed
    cases lexed : (read {} (trimLines (trimEnd text))).finish with
    | ok ts => rwa [parse_append_newlines newline lexed] at parsed
    | error e =>
      obtain ⟨ts, lexed', -⟩ := parse_eq_ok.mp parsed
      rw [tokenize_ofList, read_append] at lexed'
      have final := State.final_of_finish lexed'
      rw [not_final_read_newlines newline (State.tidy_read State.tidy_init _)
        (State.not_final_of_finish lexed) complete] at final
      cases final

/-- The statements that the translation puts in front of a program. -/
def preamble : Mode → Program
  | .file => [.single { assignments := [⟨"HUSK_VERSION", some [.literal version]⟩] }]
  | .single | .module => []

/-- Whether the translation of a program is the same program: the blanks at the ends of its lines
are idle, and a statement does not end in a backslash that escapes a newline. -/
def Preserved (mode : Mode) (text : String) : Prop :=
  Kept {} text.toList ∧
    (mode = .single → (read {} (trimEnd text.toList)).mode.escapes = false)

instance (mode : Mode) (text : String) : Decidable (Preserved mode text) :=
  inferInstanceAs (Decidable (_ ∧ _))

theorem read_banner :
    read {} banner.toList = State.behind [.newline, .newline] {} := by
  decide +kernel

theorem read_front :
    read {} ("#!/bin/sh\n" ++ banner ++ header ++ "\n").toList =
      State.behind [.newline, .newline, .newline, .assign "HUSK_VERSION", .word [.literal version],
        .newline, .newline] {} := by
  decide +kernel

theorem map_append_eq_ok {front program : Program} {r : Except SyntaxError Program} :
    r.map (front ++ ·) = .ok (front ++ program) ↔ r = .ok program := by
  cases r <;> simp [Except.map]

/-- Whatever a text contains, what stands in front of its body adds the statements of the mode and
nothing else. -/
theorem parse_wrap (mode : Mode) (framed : mode ≠ .single) (text : String) :
    parse (wrap mode text) = (parse (String.ofList (body text.toList))).map (preamble mode ++ ·) := by
  cases mode with
  | single => exact absurd rfl framed
  | file => exact parse_behind read_front rfl _
  | module => exact parse_behind read_banner rfl _

theorem parse_wrap_iff {mode : Mode} {text : String} {program : Program}
    (whole : parse text = .ok program) :
    parse (wrap mode text) = .ok (preamble mode ++ program) ↔ Preserved mode text := by
  rw [← String.ofList_toList (s := text)] at whole
  by_cases single : mode = .single
  · subst single
    simp only [wrap, dropEndWhile_body, Preserved, forall_const]
    exact parse_single_iff whole
  · have same : Preserved mode text ↔ Kept {} text.toList := by simp [Preserved, single]
    rw [parse_wrap mode single, same, ← parse_body_iff whole]
    exact map_append_eq_ok

/-- What is translated is a program, and its translation is the same program, behind the statements
of its mode, exactly if it is preserved. -/
theorem program_preserved_iff {strict : Bool} {text code : String} {mode : Mode}
    (translated : translate strict text mode = .ok code) :
    ∃ program, parse text = .ok program ∧
      (parse code = .ok (preamble mode ++ program) ↔ Preserved mode text) := by
  simp only [translate, check] at translated
  cases whole : parse text with
  | error e => simp [whole] at translated
  | ok program =>
    rw [whole] at translated
    split at translated
    · cases translated
    · cases translated
      exact ⟨program, rfl, parse_wrap_iff whole⟩

theorem parse_file (text : String) :
    parse (wrap .file text) = (parse (wrap .module text)).map (preamble .file ++ ·) := by
  rw [parse_wrap .file nofun, parse_wrap .module nofun]
  cases parse (String.ofList (body text.toList)) <;> rfl

theorem translate_eq_map (strict : Bool) (text : String) (mode : Mode) :
    translate strict text mode = (check strict text).map fun _ => wrap mode text := by
  rw [translate]
  cases check strict text <;> rfl

/-- Whether a text is translated, and the error if it is not, does not depend on the mode, and the
code of a file is the code of a module with one assignment in front: it has the statements of the
module behind it, or fails to parse with the error of the module. -/
theorem header_prepended (strict : Bool) (text : String) :
    (∃ e, ∀ mode, translate strict text mode = .error e) ∨
      ∃ codes : Mode → String, (∀ mode, translate strict text mode = .ok (codes mode)) ∧
        (∀ program, parse (codes .module) = .ok program →
          parse (codes .file) =
            .ok (.single { assignments := [⟨"HUSK_VERSION", some [.literal version]⟩] } ::
              program)) ∧
        ∀ e, parse (codes .module) = .error e → parse (codes .file) = .error e := by
  simp only [translate_eq_map]
  cases check strict text with
  | error e => exact .inl ⟨e, fun _ => rfl⟩
  | ok _ =>
    refine .inr ⟨fun mode => wrap mode text, fun _ => rfl, fun program parsed => ?_,
      fun e rejected => ?_⟩
    · rw [parse_file, parsed]
      rfl
    · rw [parse_file, rejected]
      rfl

theorem translate_of_parse {text : String} {program : Program} (whole : parse text = .ok program)
    (mode : Mode) : translate false text mode = .ok (wrap mode text) := by
  simp [translate, check, whole]

theorem translate_of_incomplete {text : String} {e : SyntaxError} (rejected : parse text = .error e)
    (more : e.isIncomplete) (strict : Bool) (mode : Mode) :
    translate strict text mode = .error (.incomplete e.message) := by
  simp [translate, check, rejected, syntaxError, more]

theorem program_preserved_single :
    translate false "echo hi \t\n# note \n" .single = .ok "echo hi\n# note" ∧
      ∃ program, parse "echo hi \t\n# note \n" = .ok program ∧
        parse "echo hi\n# note" = .ok (preamble .single ++ program) := by
  have lexed : tokenize "echo hi \t\n# note \n" =
      .ok [.word [.literal "echo"], .word [.literal "hi"], .newline, .newline] := by rfl
  have wrapped : wrap .single "echo hi \t\n# note \n" = "echo hi\n# note" := by decide +kernel
  have translated := translate_of_parse (parse_of_tokens lexed) .single
  rw [wrapped] at translated
  obtain ⟨program, whole, preserved⟩ := program_preserved_iff translated
  exact ⟨translated, program, whole, preserved.mpr (by decide +kernel)⟩

/-- A blank at the end of a line inside quotes is a part of the word, and is lost. -/
theorem quoted_blank_lost :
    translate false "echo 'a \nb'" .single = .ok "echo 'a\nb'" ∧
      parse "echo 'a \nb'" = .ok [.single { words := [[.literal "echo"], [.literal "a \nb"]] }] ∧
      parse "echo 'a\nb'" = .ok [.single { words := [[.literal "echo"], [.literal "a\nb"]] }] := by
  have lexed : tokenize "echo 'a \nb'" =
      .ok [.word [.literal "echo"], .word [.literal "a \nb"]] := by rfl
  have lexed' : tokenize "echo 'a\nb'" =
      .ok [.word [.literal "echo"], .word [.literal "a\nb"]] := by rfl
  have wrapped : wrap .single "echo 'a \nb'" = "echo 'a\nb'" := by decide +kernel
  have whole := parse_of_tokens lexed
  have translated := translate_of_parse whole .single
  rw [wrapped] at translated
  exact ⟨translated, whole, parse_of_tokens lexed'⟩

end Checked

end SessionShell
