import Mathlib.Tactic.TFAE
import SessionShell.Proofs.Language.Variables
import SessionShell.Proofs.Session.LastSeen
import SessionShell.Proofs.Shell.Relations

/-! Which names can be defined, and which can be read. An assignment, the command `local` and a dollar
sign each find out by themselves where a name ends, and all of them take the same texts for names. -/

namespace SessionShell

namespace Usage

theorem scanFrom_positionals (u : Usage) (found : Scanned) (args : List String) :
    u.scanFrom false false found args =
      .ok { found with positionals := found.positionals ++ args } := by
  induction args generalizing found with
  | nil => simp [scanFrom]
  | cons arg rest ih => simp [scanFrom, ih]

/-- The first positional of a greedy command line ends the options, so that all behind it are
positionals too. -/
theorem scan_greedy {u : Usage} (greedy : u.greedy) {first : String} (plain : isHelp first = false)
    (positional : isOption first = false) (rest : List String) :
    u.scan (first :: rest) = .ok { positionals := first :: rest } := by
  simp [scan, scanFrom, plain, positional, greedy, scanFrom_positionals]

end Usage

def ShellState.assigned (arg : String) (s : ShellState) : ShellState :=
  let (name, value) := Builtin.splitAssignment arg
  s.renamed (·.setLocal name (.text value))

namespace Builtin

open Lexer (chars_of_isName)

/-- An argument with which `local` defines a name. The word for help alone is none. -/
def IsAssignment (arg : String) : Prop :=
  isName (splitAssignment arg).1 ∧ Usage.isHelp arg = false

instance (arg : String) : Decidable (IsAssignment arg) :=
  inferInstanceAs (Decidable (_ ∧ _))

/-- Behind the first argument `local` takes `name=value`, and then the value is that of the local with
this name. -/
def Defines (first name value : String) (input : Option Bytes) (s : ShellState) : Prop :=
  ∃ t, Builtin.assignLocals.run [first, name ++ "=" ++ value] input s = (.ok 0, t) ∧
    t.names.locals[name]? = some (.text value)

theorem splitAssignment_name {name : String} (proper : isName name) (value : String) :
    splitAssignment (name ++ "=" ++ value) = (name, value) := by
  have inside : ∀ c ∈ name.toList, decide (c ≠ '=') = true := by
    obtain ⟨c, cs, chars, -, all⟩ := chars_of_isName proper
    intro d member
    rw [chars] at member
    have named := all d member
    exact decide_eq_true (by rintro rfl; revert named; decide)
  have whole : (name ++ "=" ++ value).toList = name.toList ++ '=' :: value.toList := by simp
  have front : (name.toList ++ '=' :: value.toList).takeWhile (· ≠ '=') = name.toList := by
    rw [List.takeWhile_append_of_pos inside, List.takeWhile_cons_of_neg (by simp),
      List.append_nil]
  have back : (name.toList ++ '=' :: value.toList).drop (name.toList.length + 1) =
      value.toList := by
    rw [List.drop_append]
    simp
  simp only [splitAssignment, whole, front, back, String.ofList_toList]

theorem IsAssignment.positional {arg : String} (assigns : IsAssignment arg) :
    Usage.isOption arg = false := by
  obtain ⟨c, cs, chars, start, -⟩ := chars_of_isName assigns.1
  rw [splitAssignment, String.toList_ofList] at chars
  have dash : c ≠ '-' := by rintro rfl; revert start; decide
  unfold Usage.isOption
  cases whole : arg.toList with
  | nil => rfl
  | cons d ds =>
    rw [whole, List.takeWhile_cons] at chars
    split at chars
    · cases chars
      simpa using dash
    · cases chars

section Locals

variable {arg : String} {rest : List String} {s : ShellState}

theorem defineLocals_cons :
    defineLocals (arg :: rest) s =
      if isName (splitAssignment arg).1 then defineLocals rest (s.assigned arg)
      else (.error { cause := .notAName (splitAssignment arg).1 }, s) := by
  rw [defineLocals]
  dsimp only
  split
  · rfl
  · rfl

theorem run_assignLocals (assigns : IsAssignment arg) (input : Option Bytes) :
    Builtin.assignLocals.run (arg :: rest) input s =
      match defineLocals (arg :: rest) s with
      | (.ok _, t) => (.ok 0, t)
      | (.error e, t) => (do
          Shell.writeText ("local: " ++ e.message ++ "\n")
          return 1 : Shell Int32) t := by
  have scanned := Usage.scan_greedy (u := Builtin.assignLocals.usage) rfl assigns.2
    assigns.positional rest
  rw [run, scanned]
  dsimp only
  rw [Shell.orElseWith, body]
  dsimp only
  rw [Shell.bind_apply]
  cases defineLocals (arg :: rest) s with
  | mk result t => cases result <;> rfl

theorem run_eq_zero_iff {first : String} (assigns : IsAssignment first) {input : Option Bytes}
    {t : ShellState} :
    Builtin.assignLocals.run [first, arg] input s = (.ok 0, t) ↔
      isName (splitAssignment arg).1 ∧ t = (s.assigned first).assigned arg := by
  rw [run_assignLocals assigns, defineLocals_cons, if_pos assigns.1, defineLocals_cons]
  by_cases proper : isName (splitAssignment arg).1
  · rw [if_pos proper]
    exact ⟨fun ran => ⟨proper, (Prod.mk.inj ran).2.symm⟩, fun ends => ends.2 ▸ rfl⟩
  · rw [if_neg proper]
    dsimp only
    rw [Shell.bind_apply]
    refine ⟨fun ran => ?_, fun ends => absurd ends.1 proper⟩
    split at ran <;> cases ran

end Locals

end Builtin

open Builtin

/-- All recognisers of names agree. A text is a name exactly if an equals sign behind it assigns to it,
if a dollar sign in front of it reads it, and if `local` defines it. -/
theorem names_recognised {s : String} (ordinary : s ≠ "?") {first : String}
    (assigns : IsAssignment first) (input : Option Bytes) (state : ShellState) :
    List.TFAE [
      isName s = true,
      ∃ rest, tokenize (s ++ "=") = .ok (.assign s :: rest),
      tokenize ("$" ++ s) = .ok [.word [.parameter s]],
      ∀ value, Defines first s value input state,
      ∃ value, state.names.locals[s]? ≠ some (.text value) ∧ Defines first s value input state] := by
  tfae_have 1 ↔ 2 := (tokenize_equals_iff s).symm
  tfae_have 1 ↔ 3 := (tokenize_dollar_iff ordinary).symm
  tfae_have 1 → 4 := by
    intro proper value
    have split := splitAssignment_name proper value
    refine ⟨_, (run_eq_zero_iff assigns).mpr ⟨by rwa [split], rfl⟩, ?_⟩
    simp [ShellState.assigned, ShellState.renamed, split, Names.setLocal]
  tfae_have 4 → 5 := by
    intro defines
    by_cases taken : state.names.locals[s]? = some (.text "")
    · refine ⟨"new", ?_, defines "new"⟩
      rw [taken]
      simp
    · exact ⟨"", taken, defines ""⟩
  tfae_have 5 → 1 := by
    rintro ⟨value, fresh, t, ran, bound⟩
    obtain ⟨proper, rfl⟩ := (run_eq_zero_iff assigns).mp ran
    by_contra other
    have apart {arg : String} (named : isName (splitAssignment arg).1) :
        (splitAssignment arg).1 ≠ s := by
      rintro rfl
      exact other named
    refine fresh ?_
    simpa [ShellState.assigned, ShellState.renamed, Names.setLocal,
      Std.ExtTreeMap.getElem?_insert, apart proper, apart assigns.1] using bound
  tfae_finish

/-- On a stream that refuses all output a name is defined, and a text with an equals sign in it is
not. -/
theorem names_recognised_underscore :
    let s := ShellContext.enter { temper := .refusing } (.ofGlobals ∅) .idle
    ("_1" ≠ "?" ∧ IsAssignment "a=b" ∧ isName "_1" ∧
      (∃ rest, tokenize ("_1" ++ "=") = .ok (.assign "_1" :: rest)) ∧
      tokenize ("$" ++ "_1") = .ok [.word [.parameter "_1"]] ∧
      ∀ value, Defines "a=b" "_1" value none s) ∧
    "x=y" ≠ "?" ∧ tokenize ("$" ++ "x=y") ≠ .ok [.word [.parameter "x=y"]] ∧
      ¬∃ value, s.names.locals["x=y"]? ≠ some (.text value) ∧ Defines "a=b" "x=y" value none s := by
  intro s
  have assigns : IsAssignment "a=b" := by decide
  have ordinary : "_1" ≠ "?" := by decide
  have other : "x=y" ≠ "?" := by decide
  have proper : isName "_1" = true := by decide
  have improper : ¬isName "x=y" = true := by decide
  have name := names_recognised ordinary assigns none s
  have text := names_recognised other assigns none s
  exact ⟨⟨ordinary, assigns, proper, (name.out 0 1).mp proper, (name.out 0 2).mp proper,
    (name.out 0 3).mp proper⟩, other, mt (text.out 0 2).mpr improper, mt (text.out 0 4).mpr improper⟩

end SessionShell
