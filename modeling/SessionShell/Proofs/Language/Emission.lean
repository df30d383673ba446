import Mathlib.Data.List.Induction
import SessionShell.Language.Parser
import SessionShell.Proofs.Language.Blanks
import SessionShell.Proofs.Language.Reading

/-! Which tokens the lexer emits, and where. A character completes nothing, or an assignment, or the
open word with a separator behind it, or a separator alone. So a word comes directly behind each
assignment, and in the text it is what stands between the equals sign and the end of the word. -/

namespace SessionShell

namespace Lexer

/-- The characters that end a word: blanks and separators. -/
def isBorder (c : Char) : Bool :=
  c ∈ [' ', '\t', '\r', '|', ';', '\n']

namespace State

open SessionShell.Parser (isPart)

inductive Emits (s : State) (c : Char) (after : State) : Prop
  | nothing (emitted : after.tokens = s.tokens) (assigned : after.assigned = s.assigned)
  | assignment {name : String} (proper : isName name) (equals : c = '=') (first : s.assigned = false)
      (emitted : after.tokens = s.tokens ++ [.assign name]) (assigned : after.assigned = true)
  /-- A word ends as it would at the end of the input, and a separator may end it. -/
  | word {w : Word} {separators : List Token} (apart : ∀ t ∈ separators, isPart t = false)
      (border : isBorder c) (finish : s.finish = .ok (s.tokens ++ [.word w]))
      (emitted : after.tokens = s.tokens ++ .word w :: separators) (assigned : after.assigned = false)
  | separator {t : Token} (apart : isPart t = false) (closed : s.assigned = false)
      (emitted : after.tokens = s.tokens ++ [t]) (assigned : after.assigned = false)

theorem tokens_emit (s : State) (t : Token) : (s.emit t).tokens = s.tokens ++ [t] := by
  simp [emit, tokens]

theorem tokens_flush (s : State) : s.flush.tokens = s.tokens := by
  rw [tokens, emitted_flush, tokens]

theorem assigned_flush (s : State) : s.flush.assigned = s.assigned := by
  unfold flush
  split <;> rfl

theorem tokens_endWord (s : State) :
    s.endWord.tokens = s.tokens ++ [.word s.flush.parts.reverse] := by
  simp [endWord, tokens]

section Word

/-! A character may be read as one of a word whose front has just been completed, so that there are
two states: the one in front of the character, and the one in which it is read. -/

variable {s u : State} (same : u.tokens = s.tokens) (flag : u.assigned = s.assigned)
include same

theorem emits_endWord {c : Char} (border : isBorder c) (ends : s.finish = .ok u.endWord.tokens) :
    s.Emits c u.endWord := by
  rw [tokens_endWord, same] at ends
  refine .word (List.forall_mem_nil _) border ends ?_ rfl
  rw [tokens_endWord, same]

theorem emits_separator {c : Char} {t : Token} (apart : isPart t = false) (border : isBorder c)
    (ends : s.finish = .ok u.endWord.tokens) : s.Emits c (u.endWord.emit t) := by
  rw [tokens_endWord, same] at ends
  have alone : ∀ u ∈ [t], isPart u = false := List.forall_mem_singleton.mpr apart
  refine .word alone border ends ?_ rfl
  rw [tokens_emit, tokens_endWord, same, List.append_assoc]
  rfl

include flag

theorem emits_equals : s.Emits '=' (if u.canAssign then u.assign else u.push '=') := by
  by_cases fits : u.canAssign
  · rw [if_pos fits]
    simp only [canAssign, Bool.and_eq_true, Bool.not_eq_true'] at fits
    have proper : isName (String.ofList u.buffer.reverse) := by
      simpa only [isName, String.toList_ofList] using fits.2
    refine .assignment proper rfl (flag ▸ fits.1.1.1) ?_ rfl
    rw [← same]
    simp [assign, tokens]
  · rw [if_neg fits]
    exact .nothing same flag

theorem emits_stepWord {c : Char} (ends : isBorder c → s.finish = .ok u.endWord.tokens) :
    s.Emits c (u.stepWord c) := by
  let v : State := { u with mode := .word }
  have ends (border : isBorder c) : s.finish = .ok v.endWord.tokens := by
    rw [u.endWord_mode]
    exact ends border
  unfold stepWord
  split
  case h_1 | h_2 | h_3 => exact emits_endWord (u := v) same (by decide) (ends (by decide))
  case h_4 => exact emits_separator (u := v) (t := .pipe) same rfl (by decide) (ends (by decide))
  case h_5 =>
    exact emits_separator (u := v) (t := .semicolon) same rfl (by decide) (ends (by decide))
  case h_6 =>
    exact emits_separator (u := v) (t := .newline) same rfl (by decide) (ends (by decide))
  case h_11 => exact emits_equals (u := v) same flag
  all_goals exact .nothing same flag

theorem emits_stepPlain {c : Char} (around : Around)
    (ends : around = .bare → isBorder c → s.finish = .ok u.endWord.tokens) :
    s.Emits c (u.stepPlain around c) := by
  cases around with
  | bare => exact emits_stepWord same flag (ends rfl)
  | quotes =>
    unfold stepPlain stepDouble
    dsimp only
    split <;> exact .nothing same flag

end Word

theorem emits_stepGap {s : State} (closed : s.assigned = false) (c : Char) :
    s.Emits c (s.stepGap c) := by
  unfold stepGap
  split
  case h_1 | h_2 | h_3 => exact .nothing rfl rfl
  case h_4 | h_5 | h_6 => exact .separator rfl closed (tokens_emit _ _) closed
  case h_7 | h_8 => exact .nothing rfl rfl
  case h_9 =>
    refine emits_stepWord rfl rfl fun border => ?_
    -- all borders have been dealt with
    simp_all [isBorder]

theorem emits_step {s : State} (tidy : s.Tidy) (c : Char) : s.Emits c (s.step c) := by
  unfold step
  unfold Tidy at tidy
  cases mode : s.mode with
  | gap =>
    simp only [mode] at tidy
    exact emits_stepGap tidy.2.2.2 c
  | comment =>
    simp only [mode] at tidy
    dsimp only
    split
    · exact .separator (t := .newline) rfl tidy.2.2.2 (tokens_emit s .newline) tidy.2.2.2
    · exact .nothing rfl rfl
  | gapEscape | wordEscape | single =>
    dsimp only
    split <;> exact .nothing rfl rfl
  | word => exact emits_stepWord rfl rfl fun _ => by simp [finish, mode]
  | double => exact emits_stepPlain rfl rfl .quotes fun same => by cases same
  | doubleEscape =>
    dsimp only
    split <;> exact .nothing rfl rfl
  | dollar around =>
    dsimp only
    unfold stepDollar
    split
    · exact .nothing (tokens_flush s) (assigned_flush s)
    split
    · exact .nothing (tokens_flush s) (assigned_flush s)
    split
    · exact .nothing (tokens_flush s) (assigned_flush s)
    split
    · exact .nothing (tokens_flush s) (assigned_flush s)
    · refine emits_stepPlain (s := s) (u := s.push '$') rfl rfl around ?_
      rintro rfl -
      simp [finish, mode]
  | name around chars =>
    dsimp only
    unfold stepName
    split
    · exact .nothing rfl rfl
    · refine emits_stepPlain (s := s) (u := s.addPart _) rfl rfl around ?_
      rintro rfl -
      simp [finish, mode]
  | inside around bracket depth chars =>
    dsimp only
    unfold stepInside
    split
    · exact .nothing rfl rfl
    split
    · cases depth <;> exact .nothing rfl rfl
    · exact .nothing rfl rfl

theorem finish_of_assigned {s : State} (tidy : s.Tidy) (assigned : s.assigned) {ts : List Token}
    (finish : s.finish = .ok ts) : ∃ w, ts = s.tokens ++ [.word w] := by
  unfold Tidy at tidy
  rcases Mode.final_cases (final_of_finish finish) with mode | mode | word
  · simp only [mode, assigned] at tidy
    cases tidy.2.2.2
  · simp only [mode, assigned] at tidy
    cases tidy.2.2.2
  · rcases Mode.endsWord_cases word with mode | mode | ⟨chars, mode⟩
    all_goals
      simp only [State.finish, mode] at finish
      cases finish
      exact ⟨_, tokens_endWord _⟩

end State

theorem read_concat (cs : List Char) (c : Char) : read {} (cs ++ [c]) = (read {} cs).step c := by
  rw [read_append]
  rfl

/-- An equals sign behind the characters assigns to the name, and no other token comes while the
value is read. -/
def Opens (front : List Token) (name : String) (before inside : List Char) : Prop :=
  (read {} before).tokens = front ∧
    ∀ part, part <+: inside → (read {} (before ++ '=' :: part)).tokens = front ++ [.assign name]

theorem Opens.tokens_eq {front : List Token} {name : String} {before inside : List Char}
    (opens : Opens front name before inside) :
    (read {} (before ++ '=' :: inside)).tokens = front ++ [.assign name] :=
  opens.2 inside (List.prefix_refl inside)

theorem opens_read {cs : List Char} (assigned : (read {} cs).assigned) :
    ∃ front name before inside, cs = before ++ '=' :: inside ∧ Opens front name before inside := by
  induction cs using List.reverseRecOn with
  | nil => cases assigned
  | append_singleton cs c ih =>
    rw [read_concat] at assigned
    cases State.emits_step (State.tidy_read State.tidy_init cs) c with
    | nothing emitted kept =>
      obtain ⟨front, name, before, inside, rfl, opens⟩ := ih (kept ▸ assigned)
      refine ⟨front, name, before, inside ++ [c], by simp, opens.1, fun part upTo => ?_⟩
      rcases List.prefix_concat_iff.mp upTo with rfl | shorter
      · rw [← List.cons_append, ← List.append_assoc, read_concat, emitted, opens.tokens_eq]
      · exact opens.2 part shorter
    | @assignment name proper equals first emitted _ =>
      refine ⟨(read {} cs).tokens, name, cs, [], by rw [equals], rfl, fun part upTo => ?_⟩
      rw [List.prefix_nil.mp upTo, ← equals, read_concat]
      exact emitted
    | word _ _ _ _ closed | separator _ _ _ closed =>
      rw [closed] at assigned
      cases assigned

/-- What comes behind an assignment in the tokens is a word, and it stands in the characters between
the equals sign and a border. -/
def Follows (front : List Token) (name : String) (cs : List Char) (rest : List Token) : Prop :=
  ∃ w more before inside c after, rest = .word w :: more ∧
    cs = before ++ '=' :: (inside ++ c :: after) ∧ isBorder c ∧ Opens front name before inside ∧
    (read {} (before ++ '=' :: inside)).finish = .ok (front ++ [.assign name, .word w])

section Follows

variable {front : List Token} {name : String} {cs : List Char}

theorem Follows.append {rest : List Token} (follows : Follows front name cs rest) (ds : List Char)
    (added : List Token) : Follows front name (cs ++ ds) (rest ++ added) := by
  obtain ⟨w, more, before, inside, c, after, rfl, rfl, stands⟩ := follows
  exact ⟨w, more ++ added, before, inside, c, after ++ ds, rfl, by simp, stands⟩

theorem exists_opens {w : Word} (last : (read {} cs).tokens = front ++ [.assign name])
    (assigned : (read {} cs).assigned)
    (finish : (read {} cs).finish = .ok ((read {} cs).tokens ++ [.word w])) :
    ∃ before inside, cs = before ++ '=' :: inside ∧ Opens front name before inside ∧
      (read {} (before ++ '=' :: inside)).finish = .ok (front ++ [.assign name, .word w]) := by
  obtain ⟨front', name', before, inside, rfl, opens⟩ := opens_read assigned
  obtain ⟨rfl, same⟩ := List.append_inj' (opens.tokens_eq.symm.trans last) rfl
  cases same
  rw [last, List.append_assoc] at finish
  exact ⟨before, inside, rfl, opens, finish⟩

theorem exists_of_split {rest old new : List Token} {t : Token}
    (split : front ++ t :: rest = old ++ new) (apart : t ∉ new) :
    ∃ middle, old = front ++ t :: middle ∧ rest = middle ++ new := by
  rcases List.append_eq_append_iff.mp split with ⟨more, rfl, same⟩ | ⟨more, rfl, same⟩
  · cases more with
    | nil =>
      rw [List.nil_append] at same
      exact absurd (same ▸ List.mem_cons_self) apart
    | cons first more =>
      obtain ⟨rfl, rfl⟩ := List.cons.inj same
      exact ⟨more, rfl, rfl⟩
  · exact absurd (same ▸ List.mem_append_right _ List.mem_cons_self) apart

theorem follows_read {rest : List Token}
    (split : (read {} cs).tokens = front ++ .assign name :: rest) :
    isName name ∧ ((rest = [] ∧ (read {} cs).assigned) ∨ Follows front name cs rest) := by
  induction cs using List.reverseRecOn generalizing rest with
  | nil => simp [State.tokens] at split
  | append_singleton cs c ih =>
    have tidy := State.tidy_read State.tidy_init cs
    rw [read_concat] at split ⊢
    cases State.emits_step tidy c with
    | nothing emitted kept =>
      obtain ⟨proper, ⟨rfl, assigned⟩ | follows⟩ := ih (emitted ▸ split)
      · exact ⟨proper, .inl ⟨rfl, kept ▸ assigned⟩⟩
      · exact ⟨proper, .inr (List.append_nil rest ▸ follows.append [c] [])⟩
    | assignment proper _ first emitted flag =>
      rw [emitted] at split
      rcases List.eq_nil_or_concat rest with rfl | ⟨middle, last, rfl⟩
      · obtain ⟨-, same⟩ := List.append_inj' split rfl
        cases same
        exact ⟨proper, .inl ⟨rfl, flag⟩⟩
      · -- this assignment was there before, and not the last token
        rw [List.concat_eq_append, ← List.cons_append, ← List.append_assoc] at split
        rw [List.concat_eq_append]
        obtain ⟨proper, ⟨-, assigned⟩ | follows⟩ := ih (List.append_inj' split rfl).1
        · rw [first] at assigned
          cases assigned
        · exact ⟨proper, .inr (follows.append [c] [last])⟩
    | @word w separators apart border finish emitted flag =>
      have new : .assign name ∉ .word w :: separators := by
        intro member
        rcases List.mem_cons.mp member with same | separator
        · cases same
        · cases apart _ separator
      obtain ⟨middle, before, rfl⟩ := exists_of_split (split.symm.trans emitted) new
      obtain ⟨proper, ⟨rfl, assigned⟩ | follows⟩ := ih before
      · obtain ⟨start, inside, rfl, stands⟩ := exists_opens before assigned finish
        exact ⟨proper, .inr ⟨w, separators, start, inside, c, [], rfl, by simp, border, stands⟩⟩
      · exact ⟨proper, .inr (follows.append [c] _)⟩
    | @separator t apart closed emitted flag =>
      have new : .assign name ∉ [t] := by
        intro member
        cases List.mem_singleton.mp member
        cases apart
      obtain ⟨middle, before, rfl⟩ := exists_of_split (split.symm.trans emitted) new
      obtain ⟨proper, ⟨-, assigned⟩ | follows⟩ := ih before
      · rw [closed] at assigned
        cases assigned
      · exact ⟨proper, .inr (follows.append [c] [t])⟩

end Follows

end Lexer

open Lexer

/-- Where an assignment to a name stands in a text: the tokens in front are those of the text before
it, no other token comes while its value is read, and the text up to the end of the value gives it
its word. There the text ends, or a border does the word. -/
def AssignedIn (text : String) (front : List Token) (name : String) (w : Word) : Prop :=
  ∃ before inside after : String, text = before ++ "=" ++ inside ++ after ∧
    tokensBefore before = front ∧
    (∀ part rest, inside = part ++ rest →
      tokensBefore (before ++ "=" ++ part) = front ++ [.assign name]) ∧
    tokenize (before ++ "=" ++ inside) = .ok (front ++ [.assign name, .word w]) ∧
    ∀ c ∈ after.toList.head?, isBorder c

theorem Lexer.Opens.assignedIn {front : List Token} {name : String} {before inside : List Char}
    (opens : Opens front name before inside) {w : Word}
    (finish : (read {} (before ++ '=' :: inside)).finish = .ok (front ++ [.assign name, .word w]))
    {after : List Char} (border : ∀ c ∈ after.head?, isBorder c) {text : String}
    (whole : text.toList = before ++ '=' :: (inside ++ after)) : AssignedIn text front name w := by
  refine ⟨.ofList before, .ofList inside, .ofList after, ?_, ?_, fun part rest split => ?_, ?_, ?_⟩
  · rw [← String.toList_inj, whole]
    simp
  · simpa [tokensBefore] using opens.1
  · have upTo : part.toList <+: inside := ⟨rest.toList, by
      rw [← String.toList_append, ← split, String.toList_ofList]⟩
    simpa [tokensBefore] using opens.2 part.toList upTo
  · simpa [tokenize] using finish
  · simpa using border

theorem Lexer.Follows.assignedIn {front rest : List Token} {name text : String}
    (follows : Follows front name text.toList rest) :
    ∃ w more, rest = .word w :: more ∧ AssignedIn text front name w := by
  obtain ⟨w, more, before, inside, c, after, rfl, whole, border, opens, finish⟩ := follows
  exact ⟨w, more, rfl, opens.assignedIn finish (by simpa using border) whole⟩

/-- Directly behind an assignment comes a word, which is the rest of the word of the text that the
name and the equals sign stand in. -/
theorem assignedIn_of_tokenize {text : String} {ts front rest : List Token} {name : String}
    (lexed : tokenize text = .ok ts) (split : ts = front ++ .assign name :: rest) :
    isName name ∧ ∃ w more, rest = .word w :: more ∧ AssignedIn text front name w := by
  have tidy := State.tidy_read State.tidy_init text.toList
  rcases finish_eq_ok lexed with before | ⟨w, before⟩
  · obtain ⟨proper, ⟨-, assigned⟩ | follows⟩ := follows_read (before.symm.trans split)
    · obtain ⟨w, longer⟩ := State.finish_of_assigned tidy assigned lexed
      simp [before] at longer
    · exact ⟨proper, follows.assignedIn⟩
  · have new : .assign name ∉ [Token.word w] := by simp
    obtain ⟨middle, emitted, rfl⟩ := exists_of_split (split.symm.trans before) new
    obtain ⟨proper, ⟨rfl, assigned⟩ | follows⟩ := follows_read emitted
    · obtain ⟨start, inside, whole, opens, finish⟩ :=
        exists_opens emitted assigned (lexed.trans (congrArg _ before))
      have ends : ∀ c ∈ ([] : List Char).head?, isBorder c := nofun
      exact ⟨proper, w, [], rfl, opens.assignedIn finish ends (by simpa using whole)⟩
    · have complete := (follows.append [] [.word w])
      rw [List.append_nil] at complete
      exact ⟨proper, complete.assignedIn⟩

end SessionShell
