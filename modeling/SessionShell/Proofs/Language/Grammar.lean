import Mathlib.Data.List.Chain
import Mathlib.Data.List.Forall2
import SessionShell.Proofs.Language.Completion

/-! The grammar of programs, without a parser. The parser accepts what it derives and nothing else,
puts each word and each assignment into the command that it is written in, and when it fails it says
whether further tokens could help. -/

namespace SessionShell

/-- What stands in a run of parts: a word, or a name with an equals sign and the word directly behind
it, if there is one. -/
inductive Piece
  | word (w : Word)
  | named (a : Assignment)

namespace Piece

def tokens : Piece → List Token
  | .word w => [.word w]
  | .named a => .assign a.name :: (a.value.map Token.word).toList

def argument : Piece → Word
  | .word w => w
  | .named a => .literal (a.name ++ "=") :: a.value.getD []

def IsWord : Piece → Prop
  | .word _ => True
  | .named _ => False

/-- A name without a value, which the next word would be. -/
def Bare : Piece → Prop
  | .word _ => False
  | .named a => a.value = none

end Piece

/-- The command of a run: names in front of the first word that is no value are assignments, and all
that follows is an argument. No token is left out, doubled or moved. -/
def Command.Keeps (run : List Token) (c : Command) : Prop :=
  ∃ arguments : List Piece,
    let pieces := c.assignments.map .named ++ arguments
    run = pieces.flatMap Piece.tokens ∧
      c.words = arguments.map Piece.argument ∧
      (∀ first ∈ arguments.head?, first.IsWord) ∧
      pieces.IsChain fun one next => one.Bare → ¬next.IsWord

namespace Grammar

open SessionShell.Parser (isPart)

/-- The runs of a program, command by command and statement by statement. -/
abbrev Runs := List (List (List Token))

def IsRun (run : List Token) : Prop :=
  run ≠ [] ∧ ∀ t ∈ run, isPart t

def newlines (n : Nat) : List Token :=
  List.replicate n .newline

/-- The tokens of a statement, and the runs in them. A run is as long as it can be, since a separator
or the end follows it. -/
inductive IsPipeline : List Token → List (List Token) → Prop
  | command {run : List Token} (parts : IsRun run) : IsPipeline run [run]
  | piped {run rest : List Token} {runs : List (List Token)} (parts : IsRun run) (n : Nat)
      (behind : IsPipeline rest runs) :
      IsPipeline (run ++ .pipe :: (newlines n ++ rest)) (run :: runs)

inductive IsProgram : List Token → Runs → Prop
  | blank (n : Nat) : IsProgram (newlines n) []
  | last (n : Nat) {ts : List Token} {runs : List (List Token)} (statement : IsPipeline ts runs) :
      IsProgram (newlines n ++ ts) [runs]
  | statement (n : Nat) {ts rest : List Token} {runs : List (List Token)} {more : Runs}
      {separator : Token} (statement : IsPipeline ts runs)
      (ends : separator = .semicolon ∨ separator = .newline) (behind : IsProgram rest more) :
      IsProgram (newlines n ++ ts ++ separator :: rest) (runs :: more)

def Built (runs : Runs) (program : Program) : Prop :=
  List.Forall₂ (fun rs s => ∃ cs, s = .ofStages cs ∧ List.Forall₂ Command.Keeps rs cs) runs program

end Grammar

namespace Parser

def pieces : List Token → List Piece
  | [] => []
  | .assign name :: .word value :: rest => .named ⟨name, some value⟩ :: pieces rest
  | .assign name :: rest => .named ⟨name, none⟩ :: pieces rest
  | .word w :: rest => .word w :: pieces rest
  | _ :: rest => pieces rest

theorem tokens_pieces {run : List Token} (parts : ∀ t ∈ run, isPart t) :
    (pieces run).flatMap Piece.tokens = run := by
  fun_induction pieces run with
  | case1 => rfl
  | case2 name value rest ih => simp_all [Piece.tokens]
  | case3 name rest _ ih => simp_all [Piece.tokens]
  | case4 w rest ih => simp_all [Piece.tokens]
  | case5 t rest _ _ _ ih =>
    have part := parts t List.mem_cons_self
    cases t <;> simp_all [isPart]

theorem head_of_isWord {run : List Token} (parts : ∀ t ∈ run, isPart t) {first : Piece}
    (head : first ∈ (pieces run).head?) (word : first.IsWord) : ∃ w, run.head? = some (.word w) := by
  fun_induction pieces run with
  | case1 => simp at head
  | case2 name value rest ih => simp at head; subst head; cases word
  | case3 name rest _ ih => simp at head; subst head; cases word
  | case4 w rest ih => exact ⟨w, rfl⟩
  | case5 t rest _ _ _ ih =>
    have part := parts t List.mem_cons_self
    cases t <;> simp_all [isPart]

theorem isChain_pieces {run : List Token} (parts : ∀ t ∈ run, isPart t) :
    (pieces run).IsChain fun one next => one.Bare → ¬next.IsWord := by
  fun_induction pieces run with
  | case1 => exact .nil
  | case2 name value rest ih =>
    have later := ih fun t member => parts t (by simp [member])
    refine List.isChain_cons.mpr ⟨fun next _ bare => ?_, later⟩
    cases bare
  | case3 name rest apart ih =>
    have rest' : ∀ t ∈ rest, isPart t := fun t member => parts t (List.mem_cons_of_mem _ member)
    refine List.isChain_cons.mpr ⟨fun next head _ word => ?_, ih rest'⟩
    obtain ⟨w, first⟩ := head_of_isWord rest' head word
    obtain ⟨others, rfl⟩ := List.head?_eq_some_iff.mp first
    exact apart w others rfl
  | case4 w rest ih =>
    have later := ih fun t member => parts t (List.mem_cons_of_mem _ member)
    refine List.isChain_cons.mpr ⟨fun next _ bare => ?_, later⟩
    cases bare
  | case5 t rest _ _ _ ih => exact ih fun t member => parts t (List.mem_cons_of_mem _ member)

theorem wordsOf_eq (ts : List Token) : wordsOf ts = (pieces ts).map Piece.argument := by
  fun_induction wordsOf ts <;> simp_all [pieces, Piece.argument]

theorem pieces_eq {ts : List Token} (parts : ∀ t ∈ ts, isPart t) :
    ∃ arguments, pieces ts = (commandOf ts).assignments.map .named ++ arguments ∧
      (commandOf ts).words = arguments.map Piece.argument ∧
      ∀ first ∈ arguments.head?, first.IsWord := by
  fun_induction commandOf ts with
  | case1 name value rest c ih =>
    obtain ⟨arguments, same, words, first⟩ := ih fun t member => parts t (by simp [member])
    exact ⟨arguments, by simp [pieces, same, c], words, first⟩
  | case2 name rest _ c ih =>
    obtain ⟨arguments, same, words, first⟩ := ih fun t member => parts t (List.mem_cons_of_mem _ member)
    exact ⟨arguments, by simp [pieces, same, c], words, first⟩
  | case3 ts noPair noName =>
    refine ⟨pieces ts, rfl, wordsOf_eq ts, fun first head => ?_⟩
    cases ts with
    | nil => simp [pieces] at head
    | cons t rest =>
      cases t with
      | word w => simp [pieces] at head; subst head; trivial
      | assign name => exact absurd rfl (noName name rest)
      | pipe | semicolon | newline => cases parts _ List.mem_cons_self

theorem keeps_commandOf {run : List Token} (parts : ∀ t ∈ run, isPart t) :
    (commandOf run).Keeps run := by
  obtain ⟨arguments, same, words, first⟩ := pieces_eq parts
  have tokens := tokens_pieces parts
  have chain := isChain_pieces parts
  rw [same] at tokens chain
  exact ⟨arguments, tokens.symm, words, first, chain⟩

end Parser

namespace Grammar

open SessionShell.Parser

theorem exists_newlines (ts : List Token) : ∃ n, ts = newlines n ++ dropNewlines ts := by
  refine ⟨(ts.takeWhile (· == .newline)).length, ?_⟩
  have all : ts.takeWhile (· == .newline) = newlines (ts.takeWhile (· == .newline)).length := by
    refine List.eq_replicate_iff.mpr ⟨rfl, fun t member => ?_⟩
    simpa using List.all_eq_true.mp List.all_takeWhile t member
  rw [← all]
  exact List.takeWhile_append_dropWhile.symm

/-! What the parser accepts is derived. -/

theorem isRun_of_command {ts : List Token} {c : Command} {rest : List Token}
    (accepted : command ts = .ok (c, rest)) :
    ∃ run, IsRun run ∧ ts = run ++ rest ∧ c = commandOf run := by
  cases ts with
  | nil => cases accepted
  | cons t ts =>
    by_cases part : isPart t
    · rw [command_of_part part] at accepted
      cases accepted
      have run : ∀ u ∈ ts.takeWhile isPart, isPart u := List.all_eq_true.mp List.all_takeWhile
      refine ⟨t :: ts.takeWhile isPart, ⟨by simp, List.forall_mem_cons.mpr ⟨part, run⟩⟩, ?_, rfl⟩
      rw [List.cons_append, List.takeWhile_append_dropWhile]
    · cases t <;> first | exact absurd rfl part | cases accepted

theorem isPipeline_of_pipeline {ts : List Token} {cs : List Command} {rest : List Token}
    (accepted : pipeline ts = .ok (cs, rest)) :
    ∃ front runs, ts = front ++ rest ∧ IsPipeline front runs ∧
      List.Forall₂ Command.Keeps runs cs := by
  fun_induction pipeline ts generalizing cs rest with
  | case1 ts e hc => cases accepted
  | case2 ts c more hc e hp ih => cases accepted
  | case3 ts c more hc ds left hp ih =>
    cases accepted
    obtain ⟨run, isRun, rfl, rfl⟩ := isRun_of_command hc
    obtain ⟨front, runs, same, derived, kept⟩ := ih hp
    obtain ⟨n, blank⟩ := exists_newlines more
    refine ⟨run ++ .pipe :: (newlines n ++ front), run :: runs, ?_, .piped isRun n derived,
      .cons (keeps_commandOf isRun.2) kept⟩
    rw [blank, same]
    simp
  | case4 ts c more _ hc =>
    cases accepted
    obtain ⟨run, isRun, rfl, rfl⟩ := isRun_of_command hc
    exact ⟨run, [run], rfl, .command isRun, .cons (keeps_commandOf isRun.2) .nil⟩

theorem isProgram_of_program {ts : List Token} {p : Program} (accepted : program ts = .ok p) :
    ∃ runs, IsProgram ts runs ∧ Built runs p := by
  obtain ⟨n, blank⟩ := exists_newlines ts
  fun_induction program ts generalizing p n with
  | case1 ts hd =>
    cases accepted
    rw [hd, List.append_nil] at blank
    rw [blank]
    exact ⟨[], .blank n, .nil⟩
  | case2 ts t more hd e hp => cases accepted
  | case3 ts t more hd cs hp =>
    cases accepted
    obtain ⟨front, runs, same, derived, kept⟩ := isPipeline_of_pipeline hp
    rw [List.append_nil] at same
    rw [blank, hd, same]
    exact ⟨[runs], .last n derived, .cons ⟨cs, rfl, kept⟩ .nil⟩
  | case4 ts t more hd cs rest hp e hr ih | case6 ts t more hd cs rest hp e hr ih => cases accepted
  | case5 ts t more hd cs rest hp sts hr ih | case7 ts t more hd cs rest hp sts hr ih =>
    cases accepted
    obtain ⟨front, runs, same, derived, kept⟩ := isPipeline_of_pipeline hp
    obtain ⟨m, restBlank⟩ := exists_newlines rest
    obtain ⟨others, behind, built⟩ := ih hr m restBlank
    rw [blank, hd, same, ← List.append_assoc]
    exact ⟨runs :: others, .statement n derived (by simp) behind, .cons ⟨cs, rfl, kept⟩ built⟩
  | case8 ts t more hd cs u rest _ _ hp => cases accepted

/-! What is derived is accepted: the machine goes through it and does not stop behind a pipe. -/

open Progress

theorem steps_newlines (done : Program) (stages : List Command) (n : Nat) :
    (needing done stages).steps (newlines n) = needing done stages := by
  induction n with
  | zero => rfl
  | succ n ih =>
    rw [newlines, List.replicate_succ, steps_cons, step_newline_needing]
    exact ih

theorem steps_run {run : List Token} (isRun : IsRun run) (done : Program) (stages : List Command) :
    (needing done stages).steps run = .command done stages run := by
  obtain ⟨nonempty, parts⟩ := isRun
  cases run with
  | nil => exact absurd rfl nonempty
  | cons t rest =>
    obtain ⟨part, later⟩ := List.forall_mem_cons.mp parts
    rw [steps_cons, step_needing part, steps_parts done stages [t] rest later]
    rfl

theorem steps_isPipeline {ts : List Token} {runs : List (List Token)} (derived : IsPipeline ts runs)
    (done : Program) (stages : List Command) :
    ∃ before parts, (needing done stages).steps ts = .command done before parts := by
  induction derived generalizing stages with
  | command isRun => exact ⟨stages, _, steps_run isRun done stages⟩
  | @piped run rest runs isRun n behind ih =>
    obtain ⟨before, parts, read⟩ := ih (stages ++ [commandOf run])
    refine ⟨before, parts, ?_⟩
    calc (needing done stages).steps (run ++ .pipe :: (newlines n ++ rest))
      _ = (Progress.command done stages run).steps (.pipe :: (newlines n ++ rest)) := by
        rw [steps_append, steps_run isRun]
      _ = (needing done (stages ++ [commandOf run])).steps (newlines n ++ rest) := by
        rw [needing_concat]
        rfl
      _ = .command done before parts := by rw [steps_append, steps_newlines, read]

theorem finish_isProgram {ts : List Token} {runs : Runs} (derived : IsProgram ts runs)
    (done : Program) : ∃ p, ((Progress.ready done).steps ts).finish = .ok p := by
  have blank (n : Nat) (done : Program) :
      (Progress.ready done).steps (newlines n) = .ready done := steps_newlines done [] n
  induction derived generalizing done with
  | blank n => exact ⟨done, by rw [blank, finish]⟩
  | last n statement =>
    obtain ⟨before, parts, read⟩ := steps_isPipeline statement done []
    exact ⟨_, by rw [steps_append, blank, ← needing, read, finish]⟩
  | statement n statement ends behind ih =>
    obtain ⟨before, parts, read⟩ := steps_isPipeline statement done []
    obtain ⟨p, accepted⟩ := ih (done ++ [.ofStages (before ++ [commandOf parts])])
    refine ⟨p, ?_⟩
    rw [steps_append, steps_append, blank, ← needing, read, steps_cons]
    rcases ends with rfl | rfl <;> exact accepted

theorem accepted_iff (ts : List Token) :
    (∃ p, parseTokens ts = .ok p) ↔ ∃ runs, IsProgram ts runs := by
  constructor
  · rintro ⟨p, accepted⟩
    obtain ⟨runs, derived, -⟩ := isProgram_of_program accepted
    exact ⟨runs, derived⟩
  · rintro ⟨runs, derived⟩
    rw [parseTokens_eq]
    exact finish_isProgram derived []

theorem filter_newlines (n : Nat) : (newlines n).filter isPart = [] := by
  simp [newlines, isPart]

theorem flatten_isPipeline {ts : List Token} {runs : List (List Token)}
    (derived : IsPipeline ts runs) : runs.flatten = ts.filter isPart := by
  induction derived with
  | command isRun => simpa using (List.filter_eq_self.mpr isRun.2).symm
  | piped isRun n behind ih =>
    have kept := List.filter_eq_self.mpr isRun.2
    simp [kept, ih, filter_newlines, isPart]

theorem flatten_isProgram {ts : List Token} {runs : Runs} (derived : IsProgram ts runs) :
    runs.flatten.flatten = ts.filter isPart := by
  induction derived with
  | blank n => simp [filter_newlines]
  | last n statement => simp [filter_newlines, flatten_isPipeline statement]
  | statement n statement ends behind ih =>
    rcases ends with rfl | rfl <;>
      simp [filter_newlines, flatten_isPipeline statement, ih, isPart]

theorem parseTokens_eq_error {ts : List Token} {e : ParseError}
    (rejected : parseTokens ts = .error e) :
    (e = .unexpectedEnd ↔ ∃ more runs, IsProgram (ts ++ more) runs) ∧
      (e ≠ .unexpectedEnd → e = .emptyCommand) := by
  have acceptable : (∃ more runs, IsProgram (ts ++ more) runs) ↔
      (Progress.ready []).steps ts ≠ .failed := by
    constructor
    · rintro ⟨more, runs, derived⟩ fails
      obtain ⟨p, accepted⟩ := finish_isProgram derived []
      rw [steps_append, fails, steps_failed] at accepted
      cases accepted
    · intro goes
      obtain ⟨p, accepted⟩ := Progress.finish_step_word goes []
      refine ⟨[.word []], (accepted_iff _).mp ⟨p, ?_⟩⟩
      rw [parseTokens_eq, steps_append, steps_cons, steps_nil, accepted]
  rw [acceptable]
  rw [parseTokens_eq] at rejected
  generalize (Progress.ready []).steps ts = stopped at rejected
  cases stopped with
  | ready | command => cases rejected
  | piped => cases rejected; simp
  | failed => cases rejected; simp

/-- The parser accepts the token lists that the grammar derives. The program has a command for each
run, which keeps all tokens of the run, and the runs are all words and assignments there are. If the
parser fails, then at the end of the input in case that further tokens could help, and with an empty
command otherwise. -/
theorem parser_exact (ts : List Token) :
    ((∃ p, parseTokens ts = .ok p) ↔ ∃ runs, IsProgram ts runs) ∧
      (∀ p, parseTokens ts = .ok p → ∃ runs, IsProgram ts runs ∧
        runs.flatten.flatten = ts.filter isPart ∧ Built runs p) ∧
      ∀ e, parseTokens ts = .error e →
        (e = .unexpectedEnd ↔ ∃ more runs, IsProgram (ts ++ more) runs) ∧
          (e ≠ .unexpectedEnd → e = .emptyCommand) := by
  refine ⟨accepted_iff ts, fun p accepted => ?_, fun e rejected => parseTokens_eq_error rejected⟩
  obtain ⟨runs, derived, built⟩ := isProgram_of_program accepted
  exact ⟨runs, derived, flatten_isProgram derived, built⟩

/-- Names without a value, newlines behind a pipe, and a separator that nothing follows. -/
theorem parser_exact_bare :
    let ts : List Token := [.newline, .assign "A", .assign "B", .word [.literal "1"],
      .word [.parameter "c"], .assign "D", .pipe, .newline, .word [], .semicolon]
    let p : Program := [.pipeline [⟨[⟨"A", none⟩, ⟨"B", some [.literal "1"]⟩],
      [[.parameter "c"], [.literal "D="]]⟩, ⟨[], [[]]⟩]]
    (parseTokens ts = .ok p ∧
      ∃ runs, IsProgram ts runs ∧ runs.flatten.flatten = ts.filter isPart ∧ Built runs p) ∧
    (parseTokens [.word [], .pipe, .newline] = .error .unexpectedEnd ∧
      ∃ more runs, IsProgram ([.word [], .pipe, .newline] ++ more) runs) ∧
    (parseTokens [.word [], .newline, .semicolon] = .error .emptyCommand ∧
      ¬∃ more runs, IsProgram ([.word [], .newline, .semicolon] ++ more) runs) := by
  intro ts p
  have accepted : parseTokens ts = .ok p := by
    rw [parseTokens_eq]
    rfl
  have ended : parseTokens [.word [], .pipe, .newline] = .error .unexpectedEnd := by
    rw [parseTokens_eq]
    rfl
  have empty : parseTokens [.word [], .newline, .semicolon] = .error .emptyCommand := by
    rw [parseTokens_eq]
    rfl
  have apart : ParseError.emptyCommand ≠ .unexpectedEnd := by decide
  exact ⟨⟨accepted, (parser_exact ts).2.1 p accepted⟩,
    ⟨ended, ((parser_exact _).2.2 _ ended).1.mp rfl⟩,
    ⟨empty, fun helped => apart (((parser_exact _).2.2 _ empty).1.mpr helped)⟩⟩

end Grammar

end SessionShell
