import Mathlib.Data.List.TakeWhile
import SessionShell.Proofs.Language.Assignments
import SessionShell.Proofs.Language.Brackets
import SessionShell.Proofs.Language.Spelling

/-! Where the lexer takes a text for the name of a variable: in front of an equals sign, and behind a
dollar sign. In both places it takes the whole of the text exactly if that is a proper name. -/

namespace SessionShell

open Lexer

theorem tokenize_equals_iff (text : String) :
    (∃ rest, tokenize (text ++ "=") = .ok (.assign text :: rest)) ↔ isName text := by
  constructor
  · rintro ⟨rest, lexed⟩
    exact named_tokenize lexed (.assign text) List.mem_cons_self
  · intro proper
    refine ⟨[.word []], ?_⟩
    rw [tokenize, read_assignment proper]
    rfl

namespace Text

theorem length_trim_le (cs : List Char) : (trim cs).length ≤ cs.length := by
  have front := (List.dropWhile_sublist isBlank (l := cs)).length_le
  have back := (List.dropWhile_sublist isBlank (l := (cs.dropWhile isBlank).reverse)).length_le
  rw [List.length_reverse] at back
  rw [trim, trimEnd, dropEndWhile, List.length_reverse]
  exact back.trans front

end Text

namespace Lexer

theorem State.taken_prefix {s : State} (tidy : s.Tidy) {c : Char} {rest : List Char}
    {ts : List Token} (lexed : (read s (c :: rest)).finish = .ok ts) :
    s.atoms ++ (s.mode.take c).2 <+: ts.flatMap Token.atoms := by
  rw [← (State.takes_step tidy c).2]
  exact State.atoms_prefix (State.tidy_step tidy c) lexed

def dollared : State :=
  { mode := .dollar .bare }

theorem tokenize_dollar (text : String) :
    tokenize ("$" ++ text) = (read dollared text.toList).finish := by
  rw [tokenize, String.toList_append, read_append]
  rfl

section Content

variable {cs : List Char} {c : Char} {ts : List Token} {name : String}
  (content : ts.flatMap Token.atoms = [.parameter name])
include content

theorem parameter_of_name (start : isNameStart c)
    (lexed : (read dollared (c :: cs)).finish = .ok ts) :
    isNameChars (c :: cs) ∨ name.toList.length < (c :: cs).length := by
  have stop := List.head?_dropWhile_not isNameChar cs
  have run : ∀ d ∈ cs.takeWhile isNameChar, isNameChar d := fun _ => List.mem_takeWhile_imp
  rw [← cs.takeWhile_append_dropWhile (p := isNameChar)] at lexed ⊢
  generalize cs.takeWhile isNameChar = front at run lexed ⊢
  have named : dollared.step c = { mode := .name .bare [c] } :=
    State.stepDollar_name start dollared .bare
  rw [read_cons, named, read_append, read_name run {} .bare] at lexed
  cases more : cs.dropWhile isNameChar with
  | nil =>
    refine .inl ?_
    rw [List.append_nil, isNameChars, start, List.all_eq_true.mpr run]
    rfl
  | cons d rest =>
    rw [more] at lexed stop
    have tidy : ({ mode := .name .bare (front.reverse ++ [c]) } : State).Tidy := rfl
    have first := State.taken_prefix tidy lexed
    rw [content, Mode.take, if_neg (by simpa using stop)] at first
    obtain ⟨same, -⟩ := List.cons_prefix_cons.mp first
    cases same
    refine .inr ?_
    rw [String.toList_ofList]
    simp

/-- If a variable is all that is read behind a dollar sign, it is the status, or its name is the whole
of the text, or its name is shorter than that. -/
theorem parameter_of_dollar (lexed : (read dollared cs).finish = .ok ts) :
    name = "?" ∨ isNameChars cs ∨ name.toList.length < cs.length := by
  cases cs with
  | nil =>
    cases lexed
    cases content
  | cons c rest =>
    have first := State.taken_prefix (s := dollared) trivial lexed
    rw [content] at first
    by_cases command : c = '('
    · subst command
      obtain ⟨front, more, rfl, -, first⟩ := exists_balanced (b := .command) lexed
      rw [content] at first
      cases (List.cons_prefix_cons.mp first).1
    by_cases parameter : c = '\x7b'
    · subst parameter
      obtain ⟨front, more, rfl, -, first⟩ := exists_balanced (b := .parameter) lexed
      rw [content] at first
      cases (List.cons_prefix_cons.mp first).1
      have shorter := Text.length_trim_le front
      refine .inr (.inr ?_)
      rw [String.toList_ofList, List.length_cons, List.length_append]
      omega
    by_cases status : c = '?'
    · subst status
      cases (List.cons_prefix_cons.mp first).1
      exact .inl rfl
    by_cases start : isNameStart c
    · exact .inr (parameter_of_name content start lexed)
    · -- the dollar sign is literal
      have literal : ((Mode.dollar .bare).take c).2 = .char '$' :: (Around.bare.take c).2 := by
        have opens : c ≠ Bracket.opening .command := command
        have names : c ≠ Bracket.opening .parameter := parameter
        simp [Mode.take, opens, names, status, start]
      have mode : dollared.mode = .dollar .bare := rfl
      rw [mode, literal] at first
      cases (List.cons_prefix_cons.mp first).1

end Content

end Lexer

/-- A dollar sign names all that stands behind it exactly if that is a name. The question mark, which
is none, names the status. -/
theorem tokenize_dollar_iff {text : String} (ordinary : text ≠ "?") :
    tokenize ("$" ++ text) = .ok [.word [.parameter text]] ↔ isName text := by
  constructor
  · intro lexed
    rw [tokenize_dollar] at lexed
    rcases parameter_of_dollar rfl lexed with status | proper | shorter
    · exact absurd status ordinary
    · exact proper
    · exact absurd shorter (Nat.lt_irrefl _)
  · intro proper
    exact (writes_variable proper .bare).tokens

end SessionShell
