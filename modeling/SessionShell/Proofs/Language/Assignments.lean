import SessionShell.Proofs.Language.Surroundings

/-! Assignments have proper names. The lexer takes an equals sign for an assignment only behind a
name, and the parser makes assignments of such tokens alone. -/

namespace SessionShell

/-- A token that assigns does so to a proper name. -/
def Token.Named : Token → Prop
  | .assign name => isName name
  | _ => True

def Command.Named (c : Command) : Prop :=
  ∀ a ∈ c.assignments, isName a.name

def Program.Named (p : Program) : Prop :=
  ∀ s ∈ p, ∀ c ∈ s.stages, c.Named

namespace Lexer.State

def Named (s : State) : Prop :=
  ∀ t ∈ s.emitted, t.Named

theorem named_emit {s : State} (named : s.Named) {t : Token} (h : t.Named) : (s.emit t).Named :=
  List.forall_mem_cons.mpr ⟨h, named⟩

theorem named_flush {s : State} (named : s.Named) : s.flush.Named := by
  unfold flush
  split <;> exact named

theorem named_endWord {s : State} (named : s.Named) : s.endWord.Named :=
  List.forall_mem_cons.mpr ⟨trivial, named⟩

theorem named_assign {s : State} (named : s.Named) (fits : s.canAssign) : s.assign.Named := by
  simp only [canAssign, Bool.and_eq_true] at fits
  have proper : isName (String.ofList s.buffer.reverse) := by
    simpa only [isName, String.toList_ofList] using fits.2
  exact List.forall_mem_cons.mpr ⟨proper, named⟩

theorem named_stepWord {s : State} (named : s.Named) (c : Char) : (s.stepWord c).Named := by
  have ended : ({ s with mode := .word } : State).endWord.Named := named_endWord named
  unfold stepWord
  split
  case h_1 | h_2 | h_3 => exact ended
  case h_4 => exact named_emit (t := .pipe) ended trivial
  case h_5 => exact named_emit (t := .semicolon) ended trivial
  case h_6 => exact named_emit (t := .newline) ended trivial
  case h_11 =>
    by_cases fits : ({ s with mode := .word } : State).canAssign
    · simp only [fits, if_true]
      exact named_assign named fits
    · simp only [fits]
      exact named
  all_goals exact named

theorem named_stepDouble {s : State} (named : s.Named) (c : Char) : (s.stepDouble c).Named := by
  unfold stepDouble
  split <;> exact named

theorem named_stepPlain {s : State} (named : s.Named) (around : Around) (c : Char) :
    (s.stepPlain around c).Named := by
  cases around with
  | bare => exact named_stepWord named c
  | quotes => exact named_stepDouble named c

theorem named_stepGap {s : State} (named : s.Named) (c : Char) : (s.stepGap c).Named := by
  unfold stepGap
  split
  case h_4 | h_5 | h_6 => exact named_emit named trivial
  case h_9 => exact named_stepWord named c
  all_goals exact named

theorem named_stepDollar {s : State} (named : s.Named) (around : Around) (c : Char) :
    (s.stepDollar around c).Named := by
  have flushed := named_flush named
  unfold stepDollar
  split
  · exact flushed
  split
  · exact flushed
  split
  · exact flushed
  split
  · exact flushed
  · exact named_stepPlain (s := s.push '$') named around c

theorem named_stepName {s : State} (named : s.Named) (around : Around) (chars : List Char)
    (c : Char) : (s.stepName around chars c).Named := by
  unfold stepName
  split
  · exact named
  · exact named_stepPlain (s := s.addPart _) named around c

theorem named_stepInside {s : State} (named : s.Named) (around : Around) (bracket : Bracket)
    (depth : Nat) (chars : List Char) (c : Char) :
    (s.stepInside around bracket depth chars c).Named := by
  unfold stepInside
  split
  · exact named
  split
  · cases depth <;> exact named
  · exact named

theorem named_step {s : State} (named : s.Named) (c : Char) : (s.step c).Named := by
  unfold step
  split
  · exact named_stepGap named c
  · split
    · exact named_emit named trivial
    · exact named
  · split <;> exact named
  · exact named_stepWord named c
  · split <;> exact named
  · split <;> exact named
  · exact named_stepDouble named c
  · split <;> exact named
  · exact named_stepDollar named _ c
  · exact named_stepName named _ _ c
  · exact named_stepInside named _ _ _ _ c

end Lexer.State

theorem named_tokenize {text : String} {ts : List Token} (lexed : tokenize text = .ok ts) :
    ∀ t ∈ ts, t.Named := by
  have read (cs : List Char) {s : Lexer.State} (named : s.Named) : (Lexer.read s cs).Named := by
    induction cs generalizing s with
    | nil => exact named
    | cons c cs ih => exact ih (Lexer.State.named_step named c)
  have before : (Lexer.read {} text.toList).Named := read _ (by simp [Lexer.State.Named])
  intro t member
  rcases Lexer.finish_eq_ok lexed with rfl | ⟨w, rfl⟩
  · exact before t (List.mem_reverse.mp member)
  · rcases List.mem_append.mp member with earlier | last
    · exact before t (List.mem_reverse.mp earlier)
    · rw [List.mem_singleton.mp last]
      trivial

namespace Parser

theorem mem_of_mem_commandOf {ts : List Token} {a : Assignment}
    (member : a ∈ (commandOf ts).assignments) : .assign a.name ∈ ts := by
  fun_induction commandOf ts with
  | case1 name value rest c ih =>
    rcases List.mem_cons.mp member with rfl | later
    · exact List.mem_cons_self
    · exact List.mem_cons_of_mem _ (List.mem_cons_of_mem _ (ih later))
  | case2 name rest _ c ih =>
    rcases List.mem_cons.mp member with rfl | later
    · exact List.mem_cons_self
    · exact List.mem_cons_of_mem _ (ih later)
  | case3 ts => cases member

theorem named_commandOf {ts : List Token} (named : ∀ t ∈ ts, t.Named) : (commandOf ts).Named :=
  fun _ member => named _ (mem_of_mem_commandOf member)

namespace Progress

def Named : Progress → Prop
  | .ready done => Program.Named done
  | .command done stages parts =>
    Program.Named done ∧ (∀ c ∈ stages, c.Named) ∧ ∀ t ∈ parts, t.Named
  | .piped done stages => Program.Named done ∧ ∀ c ∈ stages, c.Named
  | .failed => True

theorem named_concat {stages : List Command} {parts : List Token}
    (stagesNamed : ∀ c ∈ stages, c.Named) (partsNamed : ∀ t ∈ parts, t.Named) :
    ∀ c ∈ stages ++ [commandOf parts], c.Named :=
  List.forall_mem_append.mpr
    ⟨stagesNamed, List.forall_mem_singleton.mpr (named_commandOf partsNamed)⟩

theorem named_statement {done : Program} {stages : List Command} (doneNamed : Program.Named done)
    (stagesNamed : ∀ c ∈ stages, c.Named) : Program.Named (done ++ [.ofStages stages]) := by
  refine List.forall_mem_append.mpr ⟨doneNamed, List.forall_mem_singleton.mpr ?_⟩
  rwa [Statement.stages_ofStages]

theorem named_step {p : Progress} {t : Token} (named : p.Named) (h : t.Named) :
    (p.step t).Named := by
  have part : ∀ u ∈ [t], u.Named := List.forall_mem_singleton.mpr h
  cases p with
  | ready done =>
    cases t with
    | newline => exact named
    | pipe | semicolon => trivial
    | word w => exact ⟨named, List.forall_mem_nil _, part⟩
    | assign name => exact ⟨named, List.forall_mem_nil _, part⟩
  | command done stages parts =>
    obtain ⟨doneNamed, stagesNamed, partsNamed⟩ := named
    have closed := named_concat stagesNamed partsNamed
    have longer : ∀ u ∈ parts ++ [t], u.Named := List.forall_mem_append.mpr ⟨partsNamed, part⟩
    cases t with
    | newline | semicolon => exact named_statement doneNamed closed
    | pipe => exact ⟨doneNamed, closed⟩
    | word w => exact ⟨doneNamed, stagesNamed, longer⟩
    | assign name => exact ⟨doneNamed, stagesNamed, longer⟩
  | piped done stages =>
    cases t with
    | newline => exact named
    | pipe | semicolon => trivial
    | word w => exact ⟨named.1, named.2, part⟩
    | assign name => exact ⟨named.1, named.2, part⟩
  | failed => trivial

theorem named_steps {p : Progress} {ts : List Token} (named : p.Named) (h : ∀ t ∈ ts, t.Named) :
    (p.steps ts).Named := by
  induction ts generalizing p with
  | nil => exact named
  | cons t ts ih =>
    obtain ⟨first, rest⟩ := List.forall_mem_cons.mp h
    exact ih (named_step named first) rest

theorem named_finish {p : Progress} {program : Program} (named : p.Named)
    (h : p.finish = .ok program) : Program.Named program := by
  cases p with
  | ready done => cases h; exact named
  | command done stages parts =>
    cases h
    exact named_statement named.1 (named_concat named.2.1 named.2.2)
  | piped done stages => cases h
  | failed => cases h

end Progress

end Parser

theorem named_parse {text : String} {program : Program} (parsed : parse text = .ok program) :
    Program.Named program := by
  obtain ⟨ts, lexed, read⟩ := parse_eq_ok.mp parsed
  rw [Parser.parseTokens_eq] at read
  have start : (Parser.Progress.ready []).Named := List.forall_mem_nil _
  exact Parser.Progress.named_finish (Parser.Progress.named_steps start (named_tokenize lexed)) read

end SessionShell
