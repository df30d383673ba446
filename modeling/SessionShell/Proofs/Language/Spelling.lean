import SessionShell.Proofs.Language.Grammar
import SessionShell.Proofs.Language.Surroundings

/-! How values are written down: in quotes, with what quotes and escapes need around them, or by the
name of a variable. Each way of writing is one word, whatever characters the value has, and a space
behind it ends the word. -/

namespace SessionShell

/-- A text in single quotes. A quote in it stands outside of them, behind a backslash. -/
def inSingleQuotes (text : String) : String :=
  String.ofList
    ('\'' :: text.toList.flatMap (fun c => if c = '\'' then ['\'', '\\', '\'', '\''] else [c]) ++
      ['\''])

/-- Whether a character means something inside double quotes. -/
def needsEscape (c : Char) : Bool :=
  c == '"' || c == '\\' || c == '$'

def inDoubleQuotes (text : String) : String :=
  String.ofList
    ('"' :: text.toList.flatMap (fun c => if needsEscape c then ['\\', c] else [c]) ++ ['"'])

/-- A text that is written in quotes of one kind or the other. -/
inductive Quoted : String → String → Prop
  | single (text : String) : Quoted (inSingleQuotes text) text
  | double (text : String) : Quoted (inDoubleQuotes text) text

/-- The ways to write the value of a variable. -/
inductive NamesVariable (name : String) : String → Prop
  | bare : NamesVariable name ("$" ++ name)
  | braces : NamesVariable name ("$\x7b" ++ name ++ "\x7d")
  | quotes : NamesVariable name ("\"$" ++ name ++ "\"")

def Word.ofText (text : String) : Word :=
  if text = "" then [] else [.literal text]

namespace Lexer

/-- Characters that make these tokens, the last of which is a word that may go on. -/
structure Writes (cs : List Char) (ts : List Token) : Prop where
  word : (read {} cs).mode.endsWord
  tokens : (read {} cs).finish = .ok ts

theorem Writes.of_read {cs : List Char} {s : State} {ts : List Token} (same : read {} cs = s)
    (word : s.mode.endsWord) (finish : s.finish = .ok ts) : Writes cs ts := by
  subst same
  exact ⟨word, finish⟩

namespace State

theorem step_space_eq {s : State} (word : s.mode.endsWord) {ts : List Token}
    (h : s.finish = .ok ts) : s.step ' ' = behind ts {} := by
  obtain ⟨w, ends, finish⟩ := endsWord_word word
  rw [finish] at h
  cases h
  rw [ends ' ' (by decide)]
  have ended : w.stepWord ' ' = w.endWord := w.endWord_mode .word
  rw [ended, ← endWord_eq_behind]

theorem step_semicolon_eq {s : State} (word : s.mode.endsWord) {ts : List Token}
    (h : s.finish = .ok ts) : s.step ';' = behind (ts ++ [.semicolon]) {} := by
  have ended (w : State) : w.stepWord ';' = behind (w.endWord.tokens ++ [.semicolon]) {} := by
    have emitted : w.stepWord ';' = w.endWord.emit .semicolon :=
      congrArg (State.emit · .semicolon) (w.endWord_mode .word)
    rw [emitted, endWord_eq_behind]
    simp [emit, behind, tokens]
  rcases Mode.endsWord_cases word with mode | mode | ⟨chars, mode⟩
  · simp only [finish, mode] at h
    cases h
    simp only [step, mode, ended]
  · simp only [finish, mode] at h
    cases h
    exact (by simp only [step, mode]; rfl : s.step ';' = (s.push '$').stepWord ';').trans (ended _)
  · simp only [finish, mode] at h
    cases h
    have plain : s.step ';' =
        (s.addPart (.parameter (String.ofList chars.reverse))).stepWord ';' := by
      simp only [step, mode]
      rfl
    exact plain.trans (ended _)

theorem stepWord_name {c : Char} (name : isNameChar c) (s : State) :
    s.stepWord c = { s with mode := .word, buffer := c :: s.buffer } := by
  unfold stepWord
  split <;> first | rfl | (exfalso; revert name; decide)

theorem stepGap_name {c : Char} (name : isNameChar c) (s : State) :
    s.stepGap c = { s with mode := .word, buffer := c :: s.buffer } := by
  unfold stepGap
  split <;> first | exact stepWord_name name s | (exfalso; revert name; decide)

theorem stepDollar_name {c : Char} (start : isNameStart c) (s : State) (around : Around) :
    s.stepDollar around c = { s.flush with mode := .name around [c] } := by
  have command : c ≠ Bracket.opening .command := by rintro rfl; revert start; decide
  have parameter : c ≠ Bracket.opening .parameter := by rintro rfl; revert start; decide
  have status : c ≠ '?' := by rintro rfl; revert start; decide
  simp [stepDollar, command, parameter, status, start]

end State

theorem isNameChar_of_isNameStart {c : Char} (start : isNameStart c) : isNameChar c := by
  simp only [isNameStart, Bool.or_eq_true, isNameChar, Char.isAlphanum] at start ⊢
  rcases start with letter | underscore
  · exact .inl (.inl letter)
  · exact .inr underscore

theorem chars_of_isName {name : String} (proper : isName name) :
    ∃ c cs, name.toList = c :: cs ∧ isNameStart c ∧ ∀ d ∈ c :: cs, isNameChar d := by
  unfold isName at proper
  cases chars : name.toList with
  | nil => rw [chars] at proper; cases proper
  | cons c cs =>
    rw [chars, isNameChars, Bool.and_eq_true, List.all_eq_true] at proper
    have first : isNameChar c := isNameChar_of_isNameStart proper.1
    exact ⟨c, cs, rfl, proper.1, List.forall_mem_cons.mpr ⟨first, proper.2⟩⟩

theorem read_name {cs : List Char} (name : ∀ c ∈ cs, isNameChar c) (s : State) (around : Around)
    (chars : List Char) :
    read { s with mode := .name around chars } cs =
      { s with mode := .name around (cs.reverse ++ chars) } := by
  induction cs generalizing chars with
  | nil => rfl
  | cons c cs ih =>
    obtain ⟨first, later⟩ := List.forall_mem_cons.mp name
    have step : ({ s with mode := .name around chars } : State).step c =
        { s with mode := .name around (c :: chars) } := by
      simp [State.step, State.stepName, first]
    rw [read_cons, step, ih later]
    simp

theorem read_inside {cs : List Char} {b : Bracket}
    (plain : ∀ c ∈ cs, c ≠ b.opening ∧ c ≠ b.closing) (s : State) (around : Around) (depth : Nat)
    (chars : List Char) :
    read { s with mode := .inside around b depth chars } cs =
      { s with mode := .inside around b depth (cs.reverse ++ chars) } := by
  induction cs generalizing chars with
  | nil => rfl
  | cons c cs ih =>
    obtain ⟨first, later⟩ := List.forall_mem_cons.mp plain
    have step : ({ s with mode := .inside around b depth chars } : State).step c =
        { s with mode := .inside around b depth (c :: chars) } := by
      simp [State.step, State.stepInside, first.1, first.2]
    rw [read_cons, step, ih later]
    simp

theorem read_word_name {cs : List Char} (name : ∀ c ∈ cs, isNameChar c) {s : State}
    (mode : s.mode = .word) : read s cs = { s with buffer := cs.reverse ++ s.buffer } := by
  induction cs generalizing s with
  | nil => rfl
  | cons c cs ih =>
    obtain ⟨first, later⟩ := List.forall_mem_cons.mp name
    have step : s.step c = { s with buffer := c :: s.buffer } := by
      simp [State.step, mode, State.stepWord_name first]
    rw [read_cons, step]
    exact (ih later (s := { s with buffer := c :: s.buffer }) mode).trans (by simp)

theorem read_singleQuotes (cs : List Char) {s : State} (mode : s.mode = .single)
    (quoted : s.quoted = true) :
    read s (cs.flatMap fun c => if c = '\'' then ['\'', '\\', '\'', '\''] else [c]) =
      { s with buffer := cs.reverse ++ s.buffer } := by
  induction cs generalizing s with
  | nil => rfl
  | cons c cs ih =>
    have taken : read s (if c = '\'' then ['\'', '\\', '\'', '\''] else [c]) =
        { s with buffer := c :: s.buffer } := by
      split
      · rename_i quote
        subst quote
        simp [State.step, mode, State.stepWord, State.push, quoted]
      · rename_i other
        simp [State.step, mode, other, State.push]
    rw [List.flatMap_cons, read_append, taken]
    exact (ih (s := { s with buffer := c :: s.buffer }) mode quoted).trans (by simp)

theorem read_doubleQuotes (cs : List Char) {s : State} (mode : s.mode = .double) :
    read s (cs.flatMap fun c => if needsEscape c then ['\\', c] else [c]) =
      { s with buffer := cs.reverse ++ s.buffer } := by
  induction cs generalizing s with
  | nil => rfl
  | cons c cs ih =>
    have taken : read s (if needsEscape c then ['\\', c] else [c]) =
        { s with buffer := c :: s.buffer } := by
      split
      · rename_i special
        simp only [needsEscape, Bool.or_eq_true, beq_iff_eq] at special
        rcases special with (rfl | rfl) | rfl <;>
          simp [State.step, mode, State.stepDouble, State.push]
      · rename_i plain
        simp only [needsEscape, Bool.or_eq_true, beq_iff_eq, not_or] at plain
        simp [State.step, mode, State.stepDouble, State.push, plain]
    rw [List.flatMap_cons, read_append, taken]
    exact (ih (s := { s with buffer := c :: s.buffer }) mode).trans (by simp)

theorem read_quoted {written text : String} (quoted : Quoted written text) {s : State}
    (mode : s.mode = .gap ∨ s.mode = .word) :
    read s written.toList =
      { s with mode := .word, buffer := text.toList.reverse ++ s.buffer, quoted := true } := by
  have single : s.step '\'' = { s with mode := .single, quoted := true } := by
    rcases mode with mode | mode <;> simp [State.step, mode, State.stepGap, State.stepWord]
  have double : s.step '"' = { s with mode := .double, quoted := true } := by
    rcases mode with mode | mode <;> simp [State.step, mode, State.stepGap, State.stepWord]
  cases quoted with
  | single =>
    rw [inSingleQuotes, String.toList_ofList, List.cons_append, read_cons, read_append, single,
      read_singleQuotes text.toList rfl rfl]
    rfl
  | double =>
    rw [inDoubleQuotes, String.toList_ofList, List.cons_append, read_cons, read_append, double,
      read_doubleQuotes text.toList rfl]
    rfl

theorem finish_ofText {s : State} (text : String) (mode : s.mode = .word) (parts : s.parts = [])
    (buffer : s.buffer = text.toList.reverse) :
    s.finish = .ok (s.tokens ++ [.word (.ofText text)]) := by
  by_cases empty : text = ""
  · subst empty
    simp [State.finish, mode, State.endWord, State.flush, State.tokens, Word.ofText, parts, buffer]
  · simp [State.finish, mode, State.endWord, State.flush, State.tokens, Word.ofText, parts, buffer,
      empty]

theorem read_isName {name : String} (proper : isName name) :
    read {} name.toList = { mode := .word, buffer := name.toList.reverse } := by
  obtain ⟨c, cs, chars, -, all⟩ := chars_of_isName proper
  obtain ⟨first, later⟩ := List.forall_mem_cons.mp all
  have step : ({} : State).step c = { mode := .word, buffer := [c] } :=
    State.stepGap_name first {}
  rw [chars, read_cons, step, read_word_name later rfl]
  simp

theorem writes_isName {name : String} (proper : isName name) :
    Writes name.toList [.word [.literal name]] := by
  have nonempty : name ≠ "" := by rintro rfl; cases proper
  have word : Word.ofText name = [.literal name] := if_neg nonempty
  have finish :=
    finish_ofText (s := ⟨.word, [], [], name.toList.reverse, false, false⟩) name rfl rfl rfl
  rw [word] at finish
  exact .of_read (read_isName proper) rfl finish

theorem writes_quoted {written text : String} (quoted : Quoted written text) :
    Writes written.toList [.word (.ofText text)] := by
  have read := read_quoted quoted (s := {}) (.inl rfl)
  rw [List.append_nil] at read
  exact .of_read read rfl (finish_ofText text rfl rfl rfl)

theorem read_assignment {name : String} (proper : isName name) :
    read {} (name ++ "=").toList =
      { mode := .word, emitted := [.assign name], assigned := true } := by
  have named : isNameChars name.toList := proper
  have equals : "=".toList = ['='] := rfl
  rw [String.toList_append, equals, read_append, read_isName proper]
  simp [State.step, State.stepWord, State.canAssign, State.assign, named]

theorem writes_assignment {name written text : String} (proper : isName name)
    (quoted : Quoted written text) :
    Writes (name ++ "=" ++ written).toList [.assign name, .word (.ofText text)] := by
  have read : read {} (name ++ "=" ++ written).toList =
      { mode := .word, emitted := [.assign name], buffer := text.toList.reverse, quoted := true,
        assigned := true } := by
    rw [String.toList_append, read_append, read_assignment proper, read_quoted quoted (.inr rfl),
      List.append_nil]
  exact .of_read read rfl (finish_ofText text rfl rfl rfl)

theorem trim_name {cs : List Char} (name : ∀ c ∈ cs, isNameChar c) : Text.trim cs = cs := by
  have printed : ∀ c ∈ cs, Text.isBlank c = false := by
    intro c member
    rw [Bool.eq_false_iff]
    intro blank
    have := isNameChar_blank blank
    rw [name c member] at this
    cases this
  have front (ds : List Char) (printed : ∀ c ∈ ds, Text.isBlank c = false) :
      ds.dropWhile Text.isBlank = ds := by
    cases ds with
    | nil => rfl
    | cons d ds => simp [printed d List.mem_cons_self]
  rw [Text.trim, front cs printed, Text.trimEnd, Text.dropEndWhile,
    front cs.reverse fun c member => printed c (List.mem_reverse.mp member), List.reverse_reverse]

theorem read_dollar_name {name : String} (proper : isName name) {s : State} {around : Around}
    (mode : s.mode = .dollar around) (flushed : s.buffer = []) :
    read s name.toList = { s with mode := .name around name.toList.reverse } := by
  obtain ⟨c, cs, chars, start, all⟩ := chars_of_isName proper
  have step : s.step c = { s with mode := .name around [c] } := by
    simp [State.step, mode, State.stepDollar_name start, State.flush, flushed]
  rw [chars, read_cons, step, read_name (List.forall_mem_cons.mp all).2, List.reverse_cons]

theorem read_dollar_braces {name : String} (proper : isName name) {s : State}
    (mode : s.mode = .inside .bare .parameter 0 []) :
    read s (name ++ "\x7d").toList =
      { s with mode := .word, parts := .parameter name :: s.parts } := by
  obtain ⟨c, cs, chars, start, all⟩ := chars_of_isName proper
  have plain : ∀ d ∈ name.toList,
      d ≠ Bracket.opening .parameter ∧ d ≠ Bracket.closing .parameter := by
    intro d member
    rw [chars] at member
    have named := all d member
    constructor <;> (rintro rfl; revert named; decide)
  have trimmed : Text.trim name.toList = name.toList := by
    rw [chars]
    exact trim_name all
  have brace : "\x7d".toList = ['\x7d'] := rfl
  have inside := read_inside plain s .bare 0 []
  rw [← mode, List.append_nil] at inside
  rw [String.toList_append, brace, read_append, inside]
  simp [State.step, State.stepInside, Bracket.opening, Bracket.closing, State.addPart, Bracket.part,
    trimmed, Around.mode]

theorem writes_variable {name written : String} (proper : isName name)
    (writes : NamesVariable name written) : Writes written.toList [.word [.parameter name]] := by
  cases writes with
  | bare =>
    have read := read_dollar_name proper (s := { mode := .dollar .bare }) rfl rfl
    have whole : Lexer.read {} ("$" ++ name).toList =
        { mode := .name .bare name.toList.reverse } := by
      rw [String.toList_append, read_append]
      exact read
    refine .of_read whole rfl ?_
    simp [State.finish, State.addPart, State.endWord, State.flush, State.tokens]
  | braces =>
    have read := read_dollar_braces proper (s := { mode := .inside .bare .parameter 0 [] }) rfl
    have whole : Lexer.read {} ("$\x7b" ++ name ++ "\x7d").toList =
        { mode := .word, parts := [.parameter name] } := by
      rw [String.append_assoc, String.toList_append, read_append]
      exact read
    exact .of_read whole rfl rfl
  | quotes =>
    have read := read_dollar_name proper (s := { mode := .dollar .quotes, quoted := true }) rfl rfl
    have whole : Lexer.read {} ("\"$" ++ name ++ "\"").toList =
        { mode := .word, parts := [.parameter name], quoted := true } := by
      have quote : "\"".toList = ['"'] := rfl
      rw [String.toList_append, String.toList_append, read_append, read_append, quote]
      change Lexer.read (Lexer.read { mode := .dollar .quotes, quoted := true } name.toList) ['"'] = _
      have other : isNameChar '"' = false := by decide
      rw [read]
      simp [State.step, State.stepName, other, State.stepPlain, State.stepDouble, State.addPart]
    exact .of_read whole rfl rfl

theorem Writes.spaced {cs ds : List Char} {ts us : List Token} (front : Writes cs ts)
    (back : Writes ds us) : Writes (cs ++ ' ' :: ds) (ts ++ us) := by
  have read : read {} (cs ++ ' ' :: ds) = (Lexer.read {} ds).behind ts := by
    rw [read_append, read_cons, State.step_space_eq front.word front.tokens, read_behind]
  refine .of_read read back.word ?_
  rw [State.finish_behind, back.tokens]
  rfl

theorem writes_words {first : String} {word : Word} {texts : List String} {words : List Word}
    (front : Writes first.toList [.word word])
    (later : List.Forall₂ (fun text w => Writes text.toList [.word w]) texts words) :
    Writes (" ".intercalate (first :: texts)).toList ((word :: words).map .word) := by
  induction later generalizing first word with
  | nil => simpa using front
  | cons second _ ih =>
    have spaced := front.spaced (ih second)
    have space : " ".toList = [' '] := rfl
    rw [String.intercalate_cons_cons, String.toList_append, String.toList_append, space]
    simpa using spaced

end Lexer

open Lexer SessionShell.Parser

theorem Parser.wordsOf_words (words : List Word) : wordsOf (words.map .word) = words := by
  induction words with
  | nil => rfl
  | cons w rest ih => rw [List.map_cons, wordsOf, ih]

section Commands

variable {front text : String} {done : Program} {ts : List Token}
  (writes : Writes text.toList ts) (run : Grammar.IsRun ts)
include writes run

theorem parse_command : parse text = .ok [.single (commandOf ts)] := by
  have read : (Progress.ready []).steps ts = .command [] [] ts := Grammar.steps_run run [] []
  rw [parse_of_tokens writes.tokens, read]
  rfl

theorem Leads.command (leads : Leads front done) :
    Leads (front ++ text ++ ";") (done ++ [.single (commandOf ts)]) := by
  obtain ⟨us, lexed, leads⟩ := leads
  have semicolon : ";".toList = [';'] := rfl
  have ends := State.step_semicolon_eq writes.word writes.tokens
  have read : (Progress.ready done).steps ts = .command done [] ts := Grammar.steps_run run done []
  refine ⟨us ++ ts ++ [.semicolon], ?_, ?_⟩
  · rw [String.toList_append, String.toList_append, semicolon, read_append, read_append, lexed,
      read_behind, read_cons, State.step_behind, ends, read_nil]
    simp [State.behind]
  · rw [Progress.steps_append, Progress.steps_append, leads, read]
    rfl

end Commands

theorem commandOf_words (words : List Word) :
    commandOf (words.map .word) = { words } := by
  have argv := Parser.wordsOf_words words
  cases words with
  | nil => rfl
  | cons first rest =>
    change ({ words := wordsOf ((first :: rest).map .word) } : Command) = _
    rw [argv]

end SessionShell
