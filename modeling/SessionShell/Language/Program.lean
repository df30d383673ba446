import SessionShell.Language.Token

/-! Programs: statements made of commands, which are made of assignments and words. -/

namespace SessionShell

/-- An assignment in front of a command. `none` is the value of `name=` where no word follows. -/
structure Assignment where
  name : String
  value : Option Word
  deriving DecidableEq, Repr

/-- A command: assignments, then the name and the arguments. Assignments without words set
variables; with words they hold for the environment of the command only. -/
structure Command where
  assignments : List Assignment := []
  words : List Word := []
  deriving DecidableEq, Repr

def Command.isEmpty (c : Command) : Bool :=
  c.assignments.isEmpty && c.words.isEmpty

inductive Statement
  | single (command : Command)
  | pipeline (stages : List Command)
  deriving DecidableEq, Repr

def Statement.stages : Statement → List Command
  | .single command => [command]
  | .pipeline stages => stages

def Statement.ofStages : List Command → Statement
  | [command] => .single command
  | stages => .pipeline stages

@[simp] theorem Statement.stages_ofStages (cs : List Command) : (ofStages cs).stages = cs := by
  unfold ofStages
  split <;> rfl

abbrev Program := List Statement

def Word.substitutions (w : Word) : List String :=
  w.filterMap fun
    | .command code => some code
    | _ => none

def Command.allWords (c : Command) : List Word :=
  c.assignments.filterMap (·.value) ++ c.words

def Program.substitutions (p : Program) : List String :=
  p.flatMap fun s => s.stages.flatMap fun c => c.allWords.flatMap Word.substitutions

end SessionShell
