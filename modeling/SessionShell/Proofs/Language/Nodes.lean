import SessionShell.Proofs.Language.Grammar

/-! Programs as nodes of one type, and a parser that builds them token by token. It has a branch for each
token that may not come next, also where none of these can come. None of these branches is ever taken:
the parser builds what the other one does, whatever the tokens. -/

namespace SessionShell

/-- A node may have any nodes below it, whatever its place. -/
inductive Node
  | pipeline (stages : List Node)
  | command (words : List Word) (assignments : List Node)
  | assignment (name : String) (value : Option Word)

def Assignment.node (a : Assignment) : Node :=
  .assignment a.name a.value

def Command.node (c : Command) : Node :=
  .command c.words (c.assignments.map Assignment.node)

def Statement.node : Statement → Node
  | .single command => command.node
  | .pipeline stages => .pipeline (stages.map Command.node)

def Program.nodes (p : Program) : List Node :=
  p.map Statement.node

namespace Node

def IsAssignment : Node → Prop
  | .assignment _ _ => True
  | _ => False

/-- A command has a word or an assignment, and nothing but assignments in front of its words. -/
def IsCommand : Node → Prop
  | .command words assignments =>
    (words ≠ [] ∨ assignments ≠ []) ∧ ∀ a ∈ assignments, a.IsAssignment
  | _ => False

/-- A statement is a command, or a pipeline of at least two. -/
def IsStatement : Node → Prop
  | .pipeline stages => 2 ≤ stages.length ∧ ∀ c ∈ stages, c.IsCommand
  | node => node.IsCommand

end Node

namespace Builder

open SessionShell.Parser (dropNewlines length_dropNewlines_le)

def word : List Token → Except ParseError (Word × List Token)
  | .word w :: rest => .ok (w, rest)
  | t :: _ => .error (.unexpectedToken t)
  | [] => .error .unexpectedEnd

def assignment : List Token → Except ParseError (Node × List Token)
  | .assign name :: .word w :: rest =>
    match word (.word w :: rest) with
    | .error e => .error e
    | .ok (value, rest) => .ok (.assignment name (some value), rest)
  | .assign name :: rest => .ok (.assignment name none, rest)
  | t :: _ => .error (.unexpectedToken t)
  | [] => .error .unexpectedEnd

def argument (ts : List Token) : Word × List Token :=
  let front : Word := match ts.head? with
    | some (.assign name) => [.literal (name ++ "=")]
    | _ => []
  match ts.tail with
  | .word value :: rest => (front ++ value, rest)
  | rest => (front, rest)

theorem length_word_lt {ts : List Token} {w : Word} {rest : List Token}
    (read : word ts = .ok (w, rest)) : rest.length < ts.length := by
  unfold word at read
  split at read <;> cases read
  exact Nat.lt_succ_self _

theorem length_assignment_lt {ts : List Token} {a : Node} {rest : List Token}
    (read : assignment ts = .ok (a, rest)) : rest.length < ts.length := by
  unfold assignment at read
  split at read
  · split at read
    · cases read
    · rename_i h
      cases read
      have := length_word_lt h
      simp at this ⊢
      omega
  · cases read
    exact Nat.lt_succ_self _
  · cases read
  · cases read

theorem length_argument_lt (t : Token) (ts : List Token) :
    (argument (t :: ts)).2.length < (t :: ts).length := by
  unfold argument
  dsimp only [List.tail_cons]
  split
  · exact Nat.lt_succ_of_lt (Nat.lt_succ_self _)
  · exact Nat.lt_succ_self _

/-- Reads assignments and words up to a token that is neither. An assignment behind the first word is
an argument. -/
def parts (assignments : List Node) (words : List Word) (ts : List Token) :
    Except ParseError ((List Node × List Word) × List Token) :=
  match ts with
  | .assign name :: more =>
    if words.isEmpty then
      match _h : assignment (.assign name :: more) with
      | .error e => .error e
      | .ok (a, rest) => parts (assignments ++ [a]) words rest
    else
      let read := argument (.assign name :: more)
      parts assignments (words ++ [read.1]) read.2
  | .word w :: more =>
    match _h : word (.word w :: more) with
    | .error e => .error e
    | .ok (value, rest) => parts assignments (words ++ [value]) rest
  | rest => .ok ((assignments, words), rest)
termination_by ts.length
decreasing_by
  · exact length_assignment_lt _h
  · exact length_argument_lt _ _
  · exact length_word_lt _h

theorem length_parts_le {assignments found : List Node} {words read : List Word}
    {ts rest : List Token} (done : parts assignments words ts = .ok ((found, read), rest)) :
    rest.length + found.length + read.length ≤ ts.length + assignments.length + words.length := by
  fun_induction parts assignments words ts with
  | case1 assignments words name more first e h => cases done
  | case2 assignments words name more first a rest' h ih =>
    have := length_assignment_lt h
    have := ih done
    simp at *
    omega
  | case3 assignments words name more later read' ih =>
    have := length_argument_lt (.assign name) more
    have := ih done
    simp [read'] at *
    omega
  | case4 assignments words w more e h => cases done
  | case5 assignments words w more value rest' h ih =>
    have := length_word_lt h
    have := ih done
    simp at *
    omega
  | case6 assignments words rest' _ _ =>
    cases done
    exact Nat.le_refl _

def command (ts : List Token) : Except ParseError (Node × List Token) :=
  match parts [] [] ts with
  | .error e => .error e
  | .ok ((assignments, words), rest) =>
    if assignments.isEmpty && words.isEmpty then
      match rest with
      | [] => .error .unexpectedEnd
      | .pipe :: _ | .semicolon :: _ => .error .emptyCommand
      | t :: _ => .error (.unexpectedToken t)
    else .ok (.command words assignments, rest)

theorem length_command_lt {ts : List Token} {c : Node} {rest : List Token}
    (read : command ts = .ok (c, rest)) : rest.length < ts.length := by
  unfold command at read
  split at read
  · cases read
  · rename_i assignments words rest' h
    have le := length_parts_le h
    split at read
    · split at read <;> cases read
    · rename_i some
      cases read
      simp only [Bool.and_eq_true, List.isEmpty_iff, not_and_or, ← List.length_pos_iff] at some
      simp at le
      omega

def further (commands : List Node) (ts : List Token) : Except ParseError (List Node × List Token) :=
  match ts with
  | .pipe :: more =>
    match _h : command (dropNewlines more) with
    | .error e => .error e
    | .ok (c, rest) => further (commands ++ [c]) rest
  | rest => .ok (commands, rest)
termination_by ts.length
decreasing_by
  have := length_command_lt _h
  have := length_dropNewlines_le more
  simp
  omega

theorem length_further_le {commands found : List Node} {ts rest : List Token}
    (read : further commands ts = .ok (found, rest)) : rest.length ≤ ts.length := by
  fun_induction further commands ts with
  | case1 commands more e h => cases read
  | case2 commands more c rest' h ih =>
    have := length_command_lt h
    have := length_dropNewlines_le more
    have := ih read
    simp
    omega
  | case3 commands rest' _ =>
    cases read
    exact Nat.le_refl _

/-- Reads a statement. A command that no pipe follows stands for itself. -/
def pipeline (ts : List Token) : Except ParseError (Node × List Token) :=
  match command ts with
  | .error e => .error e
  | .ok (c, rest) =>
    match further [c] rest with
    | .error e => .error e
    | .ok ([one], rest) => .ok (one, rest)
    | .ok (commands, rest) => .ok (.pipeline commands, rest)

theorem length_pipeline_lt {ts : List Token} {s : Node} {rest : List Token}
    (read : pipeline ts = .ok (s, rest)) : rest.length < ts.length := by
  unfold pipeline at read
  split at read
  · cases read
  · rename_i c rest' h
    have lt := length_command_lt h
    split at read
    · cases read
    · rename_i one rest' h
      cases read
      exact Nat.lt_of_le_of_lt (length_further_le h) lt
    · rename_i commands rest' _ h
      cases read
      exact Nat.lt_of_le_of_lt (length_further_le h) lt

def program (statements : List Node) (ts : List Token) : Except ParseError (List Node) :=
  match _hd : dropNewlines ts with
  | [] => .ok statements
  | t :: more =>
    match _h : pipeline (t :: more) with
    | .error e => .error e
    | .ok (s, []) => program (statements ++ [s]) []
    | .ok (s, .newline :: rest) => program (statements ++ [s]) (.newline :: rest)
    | .ok (s, .semicolon :: rest) => program (statements ++ [s]) rest
    | .ok (_, t :: _) => .error (.unexpectedToken t)
termination_by ts.length
decreasing_by
  all_goals
    have := length_pipeline_lt _h
    have := length_dropNewlines_le ts
    simp [_hd] at *
    omega

/-! What is built from a run of parts, up to a token that is none. -/

theorem parts_word (assignments : List Node) (words : List Word) (w : Word) (ts : List Token) :
    parts assignments words (.word w :: ts) = parts assignments (words ++ [w]) ts := by
  rw [parts]
  rfl

theorem parts_argument (assignments : List Node) {words : List Word} (some : words.isEmpty = false)
    {name : String} {ts rest : List Token} {w : Word}
    (read : argument (.assign name :: ts) = (w, rest)) :
    parts assignments words (.assign name :: ts) = parts assignments (words ++ [w]) rest := by
  rw [parts, if_neg (by simp [some]), read]

theorem parts_assignment (assignments : List Node) {name : String} {ts rest : List Token} {a : Node}
    (read : assignment (.assign name :: ts) = .ok (a, rest)) :
    parts assignments [] (.assign name :: ts) = parts (assignments ++ [a]) [] rest := by
  rw [parts, if_pos List.isEmpty_nil]
  split
  · rename_i h
    rw [read] at h
    cases h
  · rename_i h
    rw [read] at h
    cases h
    rfl

theorem argument_bare (name : String) {ts : List Token} (bare : ∀ w more, ts ≠ .word w :: more) :
    argument (.assign name :: ts) = ([.literal (name ++ "=")], ts) := by
  unfold argument
  dsimp only [List.tail_cons]
  split
  · rename_i w more
    exact absurd rfl (bare w more)
  · rfl

theorem assignment_bare (name : String) {ts : List Token} (bare : ∀ w more, ts ≠ .word w :: more) :
    assignment (.assign name :: ts) = .ok (.assignment name none, ts) := by
  unfold assignment
  split
  · rename_i same
    cases same
    exact absurd rfl (bare _ _)
  · rename_i same
    cases same
    rfl
  · rename_i other same
    cases same
    exact absurd rfl (other name)
  · rename_i same
    cases same

open SessionShell.Parser (isPart commandOf wordsOf)

section Runs

variable {rest : List Token} (apart : ∀ t ∈ rest.head?, isPart t = false)
include apart

theorem parts_behind (assignments : List Node) (words : List Word) :
    parts assignments words rest = .ok ((assignments, words), rest) := by
  cases rest with
  | nil => rw [parts]; nofun; nofun
  | cons t more =>
    have separator := apart t rfl
    cases t with
    | pipe | semicolon | newline => rw [parts]; nofun; nofun
    | word | assign => cases separator

theorem bare_append {run : List Token} (bare : ∀ w more, run ≠ .word w :: more) (w : Word)
    (more : List Token) : run ++ rest ≠ .word w :: more := by
  intro same
  cases run with
  | nil => cases apart (.word w) (by rw [← List.nil_append rest, same]; rfl)
  | cons t later =>
    obtain ⟨rfl, -⟩ := List.cons.inj same
    exact bare w later rfl

theorem parts_words (assignments : List Node) {words : List Word} (some : words.isEmpty = false)
    {run : List Token} (isRun : ∀ t ∈ run, isPart t) :
    parts assignments words (run ++ rest) = .ok ((assignments, words ++ wordsOf run), rest) := by
  have longer (words : List Word) (w : Word) : (words ++ [w]).isEmpty = false := by simp
  -- there is a word already, so that no name is assigned to
  fun_induction wordsOf run generalizing words with
  | case1 => simpa using parts_behind apart assignments words
  | case2 name value later ih =>
    have read : argument (.assign name :: .word value :: (later ++ rest)) =
      (.literal (name ++ "=") :: value, later ++ rest) := rfl
    have behind := ih (longer words (.literal (name ++ "=") :: value)) fun t member =>
      isRun t (by simp [member])
    rw [List.cons_append, List.cons_append, parts_argument assignments some read, behind]
    simp
  | case3 name later bare ih =>
    have read := argument_bare name (bare_append apart bare)
    have behind := ih (longer words [.literal (name ++ "=")]) fun t member =>
      isRun t (by simp [member])
    rw [List.cons_append, parts_argument assignments some read, behind]
    simp
  | case4 w later ih =>
    have behind := ih (longer words w) fun t member => isRun t (by simp [member])
    rw [List.cons_append, parts_word, behind]
    simp
  | case5 t later _ _ _ ih =>
    have part := isRun t List.mem_cons_self
    cases t <;> simp_all [isPart]

theorem parts_run (assignments : List Node) {run : List Token} (isRun : ∀ t ∈ run, isPart t) :
    parts assignments [] (run ++ rest) =
      .ok ((assignments ++ (commandOf run).assignments.map Assignment.node, (commandOf run).words),
        rest) := by
  fun_induction commandOf run generalizing assignments with
  | case1 name value later c ih =>
    have read : assignment (.assign name :: .word value :: (later ++ rest)) =
      .ok (.assignment name (some value), later ++ rest) := rfl
    have behind := ih (assignments ++ [.assignment name (some value)]) fun t member =>
      isRun t (by simp [member])
    rw [List.cons_append, List.cons_append, parts_assignment assignments read, behind]
    simp [c, Assignment.node]
  | case2 name later bare c ih =>
    have read := assignment_bare name (bare_append apart bare)
    have behind := ih (assignments ++ [.assignment name none]) fun t member =>
      isRun t (by simp [member])
    rw [List.cons_append, parts_assignment assignments read, behind]
    simp [c, Assignment.node]
  | case3 ts noPair noName =>
    cases ts with
    | nil => simpa [wordsOf] using parts_behind apart assignments []
    | cons t later =>
      cases t with
      | word w =>
        -- with the first word the assignments end
        have one : [w].isEmpty = false := rfl
        have behind := parts_words apart assignments one fun t member =>
          isRun t (List.mem_cons_of_mem _ member)
        rw [List.cons_append, parts_word, List.nil_append, behind]
        simp [wordsOf]
      | assign name => exact absurd rfl (noName name later)
      | pipe | semicolon | newline => cases isRun _ List.mem_cons_self

end Runs

theorem commandOf_some {t : Token} (part : isPart t) (ts : List Token) :
    (commandOf (t :: ts)).words ≠ [] ∨ (commandOf (t :: ts)).assignments ≠ [] := by
  cases t with
  | word w => exact .inl (by simp [commandOf, wordsOf])
  | assign name =>
    refine .inr ?_
    unfold commandOf
    split
    · exact List.cons_ne_nil _ _
    · exact List.cons_ne_nil _ _
    · rename_i other
      exact absurd rfl (other name ts)
  | pipe | semicolon | newline => cases part

theorem command_eq (ts : List Token) :
    command ts = (Parser.command ts).map fun (c, rest) => (c.node, rest) := by
  cases ts with
  | nil =>
    rw [command, parts_behind (by simp)]
    rfl
  | cons t later =>
    by_cases part : isPart t
    · have run : ∀ u ∈ t :: later.takeWhile isPart, isPart u :=
        List.forall_mem_cons.mpr ⟨part, List.all_eq_true.mp List.all_takeWhile⟩
      have apart : ∀ u ∈ (later.dropWhile isPart).head?, isPart u = false := by
        intro u head
        have behind := List.head?_dropWhile_not isPart later
        rw [head] at behind
        simpa using behind
      have read := parts_run apart [] run
      rw [List.cons_append, List.takeWhile_append_dropWhile] at read
      have some := commandOf_some part (later.takeWhile isPart)
      rw [command, read, Parser.command_of_part part]
      dsimp only
      rw [if_neg (by simpa [imp_iff_or_not] using some)]
      rfl
    · have apart : ∀ u ∈ (t :: later).head?, isPart u = false := by simpa using part
      rw [command, parts_behind apart]
      cases t <;> first | exact absurd rfl part | rfl

theorem further_pipe (commands : List Node) (more : List Token) :
    further commands (.pipe :: more) =
      match command (dropNewlines more) with
      | .error e => .error e
      | .ok (c, rest) => further (commands ++ [c]) rest := by
  rw [further]
  split <;> simp_all

theorem further_eq (commands : List Node) (ts : List Token) :
    (match command ts with
      | .error e => .error e
      | .ok (c, rest) => further (commands ++ [c]) rest) =
      (Parser.pipeline ts).map fun (cs, rest) => (commands ++ cs.map Command.node, rest) := by
  fun_induction Parser.pipeline ts generalizing commands with
  | case1 ts e read => rw [command_eq, read]; rfl
  | case2 ts c more read e fails ih =>
    have behind := ih (commands ++ [c.node])
    rw [command_eq, read]
    simp only [Except.map]
    rw [further_pipe, behind, fails]
    rfl
  | case3 ts c more read cs rest reads ih =>
    have behind := ih (commands ++ [c.node])
    rw [command_eq, read]
    simp only [Except.map]
    rw [further_pipe, behind, reads]
    simp [Except.map]
  | case4 ts c rest noPipe read =>
    rw [command_eq, read]
    simp only [Except.map]
    rw [further]
    · rfl
    · exact noPipe

theorem pipeline_eq (ts : List Token) :
    pipeline ts = (Parser.pipeline ts).map fun (cs, rest) => ((Statement.ofStages cs).node, rest) := by
  have behind := further_eq [] ts
  unfold pipeline
  cases read : command ts with
  | error e =>
    rw [read] at behind
    cases stages : Parser.pipeline ts with
    | error e' => rw [stages] at behind; cases behind; rfl
    | ok found => rw [stages] at behind; cases behind
  | ok found =>
    obtain ⟨c, rest⟩ := found
    rw [read] at behind
    simp only [List.nil_append] at behind
    simp only [behind]
    cases Parser.pipeline ts with
    | error e => rfl
    | ok found =>
      obtain ⟨cs, rest⟩ := found
      rcases cs with _ | ⟨first, _ | ⟨second, more⟩⟩ <;> rfl

theorem program_blank (statements : List Node) {ts : List Token} (blank : dropNewlines ts = []) :
    program statements ts = .ok statements := by
  rw [program]
  split <;> simp_all

theorem program_cons (statements : List Node) {ts : List Token} {t : Token} {more : List Token}
    (some : dropNewlines ts = t :: more) :
    program statements ts =
      match pipeline (t :: more) with
      | .error e => .error e
      | .ok (s, []) => program (statements ++ [s]) []
      | .ok (s, .newline :: rest) => program (statements ++ [s]) (.newline :: rest)
      | .ok (s, .semicolon :: rest) => program (statements ++ [s]) rest
      | .ok (_, u :: _) => .error (.unexpectedToken u) := by
  rw [program]
  split
  · simp_all
  · rename_i h
    obtain ⟨rfl, rfl⟩ := List.cons.inj (some.symm.trans h)
    split <;> simp_all

theorem program_newline (statements : List Node) (rest : List Token) :
    program statements (.newline :: rest) = program statements rest := by
  have same : dropNewlines (.newline :: rest) = dropNewlines rest := rfl
  cases h : dropNewlines rest with
  | nil => rw [program_blank _ h, program_blank _ (same.trans h)]
  | cons t more => rw [program_cons _ h, program_cons _ (same.trans h)]

theorem program_separated (statements : List Node) {ts : List Token} {t : Token} {more : List Token}
    (some : dropNewlines ts = t :: more) {cs : List Command} {separator : Token} {rest : List Token}
    (read : Parser.pipeline (t :: more) = .ok (cs, separator :: rest))
    (ends : separator = .newline ∨ separator = .semicolon) :
    program statements ts = program (statements ++ [(Statement.ofStages cs).node]) rest := by
  rw [program_cons statements some, pipeline_eq, read]
  rcases ends with rfl | rfl
  · exact program_newline _ rest
  · rfl

theorem program_eq (statements : List Node) (ts : List Token) :
    program statements ts = (Parser.program ts).map (statements ++ ·.nodes) := by
  fun_induction Parser.program ts generalizing statements with
  | case1 ts blank => simp [program_blank statements blank, Except.map, Program.nodes]
  | case2 ts t more some e fails =>
    rw [program_cons statements some, pipeline_eq, fails]
    rfl
  | case3 ts t more some cs read =>
    rw [program_cons statements some, pipeline_eq, read]
    exact program_blank _ rfl
  | case4 ts t more some cs rest read e fails ih | case6 ts t more some cs rest read e fails ih =>
    rw [program_separated statements some read (by simp), ih, fails]
    rfl
  | case5 ts t more some cs rest read p reads ih | case7 ts t more some cs rest read p reads ih =>
    rw [program_separated statements some read (by simp), ih, reads]
    simp [Except.map, Program.nodes]
  | case8 ts t more some cs u rest _ _ read =>
    rw [program_cons statements some, pipeline_eq, read]
    simp only [Except.map]

end Builder

def constructNodes (ts : List Token) : Except ParseError (List Node) :=
  Builder.program [] ts

theorem constructNodes_eq (ts : List Token) :
    constructNodes ts = (parseTokens ts).map Program.nodes :=
  Builder.program_eq [] ts

/-! What is built is well formed. -/

namespace Parser

theorem isCommand_node {c : Command} (some : c.words ≠ [] ∨ c.assignments ≠ []) :
    c.node.IsCommand := by
  refine ⟨some.imp_right fun assigned => ?_, fun a member => ?_⟩
  · simpa using assigned
  · obtain ⟨assignment, -, rfl⟩ := List.mem_map.mp member
    trivial

theorem isCommand_command {ts : List Token} {c : Command} {rest : List Token}
    (read : command ts = .ok (c, rest)) : c.node.IsCommand := by
  obtain ⟨run, ⟨some, parts⟩, -, rfl⟩ := Grammar.isRun_of_command read
  cases run with
  | nil => exact absurd rfl some
  | cons t more => exact isCommand_node (Builder.commandOf_some (parts t List.mem_cons_self) more)

theorem isStatement_ofStages {cs : List Command} (some : cs ≠ [])
    (commands : ∀ c ∈ cs, c.node.IsCommand) : (Statement.ofStages cs).node.IsStatement := by
  rcases cs with _ | ⟨first, _ | ⟨second, more⟩⟩
  · exact absurd rfl some
  · exact commands first List.mem_cons_self
  · refine ⟨?_, fun node member => ?_⟩
    · simp
    · obtain ⟨c, stage, rfl⟩ := List.mem_map.mp member
      exact commands c stage

theorem isStatement_program {ts : List Token} {p : Program} (read : program ts = .ok p) :
    ∀ s ∈ p, s.node.IsStatement := by
  intro s statement
  obtain ⟨place, cs, rest, -, stages, rfl⟩ := pipeline_of_program read s statement
  obtain ⟨some, commands⟩ := command_of_pipeline stages
  refine isStatement_ofStages some fun c stage => ?_
  obtain ⟨inner, left, -, here⟩ := commands c stage
  exact isCommand_command here

end Parser

theorem constructNodes_ne_unexpectedToken (ts : List Token) (t : Token) :
    constructNodes ts ≠ .error (.unexpectedToken t) := by
  rw [constructNodes_eq]
  cases read : parseTokens ts with
  | ok p => nofun
  | error e =>
    rintro ⟨⟩
    cases (Grammar.parseTokens_eq_error read).2 nofun

theorem isStatement_constructNodes {ts : List Token} {nodes : List Node}
    (read : constructNodes ts = .ok nodes) : ∀ node ∈ nodes, node.IsStatement := by
  rw [constructNodes_eq] at read
  cases parsed : parseTokens ts with
  | error e =>
    rw [parsed] at read
    cases read
  | ok p =>
    rw [parsed] at read
    cases read
    intro node member
    obtain ⟨s, statement, rfl⟩ := List.mem_map.mp member
    exact Parser.isStatement_program parsed s statement

end SessionShell
