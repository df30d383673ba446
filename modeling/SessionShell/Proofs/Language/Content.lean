import SessionShell.Proofs.Language.Progress

/-! The content of a program: its characters and substitutions, without the borders of the words and
commands that they stand in. The parser neither adds to the content of its tokens nor loses any. -/

namespace SessionShell

inductive Atom
  | char (c : Char)
  | command (code : String)
  | parameter (name : String)
  deriving DecidableEq, Repr

def WordPart.atoms : WordPart → List Atom
  | .literal text => text.toList.map .char
  | .command code => [.command code]
  | .parameter name => [.parameter name]

def Word.atoms (w : Word) : List Atom :=
  w.flatMap WordPart.atoms

def Token.atoms : Token → List Atom
  | .word w => w.atoms
  | .assign name => (name ++ "=").toList.map .char
  | .pipe | .semicolon | .newline => []

def Assignment.atoms (a : Assignment) : List Atom :=
  (a.name ++ "=").toList.map .char ++ a.value.elim [] Word.atoms

def Command.atoms (c : Command) : List Atom :=
  c.assignments.flatMap Assignment.atoms ++ c.words.flatMap Word.atoms

def Statement.atoms (s : Statement) : List Atom :=
  s.stages.flatMap Command.atoms

def Program.atoms (p : Program) : List Atom :=
  p.flatMap Statement.atoms

theorem Statement.atoms_ofStages (cs : List Command) :
    (ofStages cs).atoms = cs.flatMap Command.atoms := by
  rw [atoms, stages_ofStages]

namespace Parser

theorem atoms_wordsOf (ts : List Token) :
    (wordsOf ts).flatMap Word.atoms = ts.flatMap Token.atoms := by
  fun_induction wordsOf ts with
  | case1 => rfl
  | case2 name value rest ih =>
    simp [ih, Token.atoms, Word.atoms, WordPart.atoms]
  | case3 name rest _ ih => simp [ih, Token.atoms, Word.atoms, WordPart.atoms]
  | case4 w rest ih => simp [ih, Token.atoms]
  | case5 t rest noPair noAssign noWord ih =>
    have none : t.atoms = [] := by
      cases t with
      | word w => exact absurd rfl (noWord w)
      | assign name => exact absurd rfl (noAssign name)
      | pipe | semicolon | newline => rfl
    rw [ih, List.flatMap_cons, none, List.nil_append]

theorem atoms_commandOf (ts : List Token) : (commandOf ts).atoms = ts.flatMap Token.atoms := by
  fun_induction commandOf ts with
  | case1 name value rest c ih =>
    simp only [Command.atoms, List.flatMap_cons, Assignment.atoms, Token.atoms] at ih ⊢
    simp [← ih, c]
  | case2 name rest _ c ih =>
    simp only [Command.atoms, List.flatMap_cons, Assignment.atoms, Token.atoms] at ih ⊢
    simp [← ih, c]
  | case3 ts => simp [Command.atoms, atoms_wordsOf]

namespace Progress

def atoms : Progress → List Atom
  | .ready done => Program.atoms done
  | .command done stages parts =>
    Program.atoms done ++ stages.flatMap Command.atoms ++ parts.flatMap Token.atoms
  | .piped done stages => Program.atoms done ++ stages.flatMap Command.atoms
  | .failed => []

theorem atoms_step {p : Progress} {t : Token} (goes : p.step t ≠ .failed) :
    (p.step t).atoms = p.atoms ++ t.atoms := by
  cases p with
  | ready done =>
    cases t <;> simp_all [step, atoms, Token.atoms]
  | command done stages parts =>
    cases t <;> simp [step, atoms, Token.atoms, Program.atoms, Statement.atoms_ofStages,
      atoms_commandOf]
  | piped done stages =>
    cases t <;> simp_all [step, atoms, Token.atoms]
  | failed => exact absurd rfl goes

theorem atoms_steps {p : Progress} {ts : List Token} (goes : p.steps ts ≠ .failed) :
    (p.steps ts).atoms = p.atoms ++ ts.flatMap Token.atoms := by
  induction ts generalizing p with
  | nil => simp
  | cons t ts ih =>
    have here : p.step t ≠ .failed := fun fails => goes (by rw [steps_cons, fails, steps_failed])
    rw [steps_cons, ih goes, atoms_step here, List.flatMap_cons, List.append_assoc]

theorem atoms_finish {p : Progress} {program : Program} (h : p.finish = .ok program) :
    program.atoms = p.atoms := by
  cases p <;> cases h
  · rfl
  · simp [Program.atoms, atoms, Statement.atoms_ofStages, atoms_commandOf]

end Progress

theorem atoms_parseTokens {ts : List Token} {program : Program}
    (h : parseTokens ts = .ok program) : program.atoms = ts.flatMap Token.atoms := by
  rw [parseTokens_eq] at h
  have goes : (Progress.ready []).steps ts ≠ .failed := by
    intro fails
    rw [fails] at h
    cases h
  rw [Progress.atoms_finish h, Progress.atoms_steps goes]
  rfl

end Parser

end SessionShell
