import SessionShell.Language.Lexer
import SessionShell.Language.Program

/-! The parser. A program is a list of statements ended by semicolons and newlines; a statement is a
list of commands joined by pipes, and newlines may follow a pipe; a command is a run of assignments
and words. -/

namespace SessionShell

inductive ParseError
  | unexpectedToken (t : Token)
  | unexpectedEnd
  | emptyCommand
  deriving DecidableEq, Repr

namespace Parser

def isPart : Token → Bool
  | .word _ | .assign _ => true
  | _ => false

/-- The words of a run of parts. After the first word of a command, `name=` is the front of an
argument. -/
def wordsOf : List Token → List Word
  | [] => []
  | .assign name :: .word value :: rest => (.literal (name ++ "=") :: value) :: wordsOf rest
  | .assign name :: rest => [.literal (name ++ "=")] :: wordsOf rest
  | .word w :: rest => w :: wordsOf rest
  | _ :: rest => wordsOf rest

/-- The command of a run of parts: assignments up to the first word that is not the value of one,
then words. -/
def commandOf : List Token → Command
  | .assign name :: .word value :: rest =>
    let c := commandOf rest
    { c with assignments := ⟨name, some value⟩ :: c.assignments }
  | .assign name :: rest =>
    let c := commandOf rest
    { c with assignments := ⟨name, none⟩ :: c.assignments }
  | ts => { words := wordsOf ts }

def command (ts : List Token) : Except ParseError (Command × List Token) :=
  match ts.takeWhile isPart, ts.dropWhile isPart with
  | [], [] => .error .unexpectedEnd
  | [], .pipe :: _ | [], .semicolon :: _ => .error .emptyCommand
  | [], t :: _ => .error (.unexpectedToken t)
  | run, rest => .ok (commandOf run, rest)

def dropNewlines (ts : List Token) : List Token :=
  ts.dropWhile (· == .newline)

theorem length_command_le {ts : List Token} {c : Command} {rest : List Token}
    (h : command ts = .ok (c, rest)) : rest.length ≤ ts.length := by
  have le := (List.dropWhile_suffix isPart (l := ts)).length_le
  simp only [command] at h
  split at h <;> simp at h
  rw [← h.2]
  exact le

theorem length_dropNewlines_le (ts : List Token) : (dropNewlines ts).length ≤ ts.length :=
  (List.dropWhile_suffix _).length_le

def pipeline (ts : List Token) : Except ParseError (List Command × List Token) :=
  match _h : command ts with
  | .error e => .error e
  | .ok (c, .pipe :: rest) =>
    match pipeline (dropNewlines rest) with
    | .error e => .error e
    | .ok (cs, rest) => .ok (c :: cs, rest)
  | .ok (c, rest) => .ok ([c], rest)
termination_by ts.length
decreasing_by
  have := length_command_le _h
  have := length_dropNewlines_le rest
  simp at *
  omega

theorem length_pipeline_le {ts : List Token} {cs : List Command} {rest : List Token}
    (h : pipeline ts = .ok (cs, rest)) : rest.length ≤ ts.length := by
  induction hn : ts.length using Nat.strongRecOn generalizing ts cs rest with
  | ind n ih =>
    rw [pipeline] at h
    split at h
    · cases h
    · rename_i c more hc
      have shorter := length_command_le hc
      have le := length_dropNewlines_le more
      split at h
      · cases h
      · rename_i ds end' hp
        cases h
        have := ih _ (by simp at shorter; omega) hp rfl
        simp at shorter
        omega
    · rename_i c more _ hc
      cases h
      have := length_command_le hc
      omega

def program (ts : List Token) : Except ParseError Program :=
  match _hd : dropNewlines ts with
  | [] => .ok []
  | t :: more =>
    match _h : pipeline (t :: more) with
    | .error e => .error e
    | .ok (cs, []) => .ok [.ofStages cs]
    | .ok (cs, .newline :: rest) | .ok (cs, .semicolon :: rest) =>
      match program rest with
      | .error e => .error e
      | .ok statements => .ok (.ofStages cs :: statements)
    | .ok (_, t :: _) => .error (.unexpectedToken t)
termination_by ts.length
decreasing_by
  all_goals
    have le := length_pipeline_le _h
    have := length_dropNewlines_le ts
    simp [_hd] at *
    omega

end Parser

def parseTokens (ts : List Token) : Except ParseError Program :=
  Parser.program ts

end SessionShell
