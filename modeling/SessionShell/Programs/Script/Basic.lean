import SessionShell.Language.Token
import SessionShell.Programs.Raw

/-! The scripts of the standard shell: commands, and the words that they are made of. -/

namespace SessionShell.Programs

inductive Selector
  | value
  | length
  | orElse
  | orAssign
  | orFail
  | ifSet
  | cut (atEnd longest : Bool)
  | unknown
  deriving DecidableEq, Repr

inductive Direction
  | input
  | output
  | replace
  | append
  | both
  | same
  | document (number : Nat)
  deriving DecidableEq, Repr

mutual

/-- A part of a word. What is quoted is one field whatever it holds. -/
inductive Piece
  | text (quoted : Bool) (chars : List Char)
  /-- A parameter. With `nonempty` an empty value counts as missing. -/
  | parameter (quoted : Bool) (name : String) (selector : Selector) (nonempty : Bool)
      (word : List Piece)
  | command (quoted : Bool) (body : Script)
  | arithmetic (quoted : Bool) (inside : List Piece)

inductive Redirection
  | mk (descriptor : Nat) (direction : Direction) (target : List Piece)

inductive Arm
  | mk (patterns : List (List Piece)) (body : Script)

/-- A script. The numbers are lines. -/
inductive Script
  | nothing
  | command (line : Nat) (assignments words : List (List Piece)) (redirections : List Redirection)
  | pipeline (stages : List Script)
  | background (line : Nat) (body : Script)
  | subshell (line : Nat) (body : Script) (redirections : List Redirection)
  | redirected (line : Nat) (body : Script) (redirections : List Redirection)
  | sequence (first second : Script)
  | both (first second : Script)
  | either (first second : Script)
  | negated (body : Script)
  | choice (test yes no : Script)
  | loop (succeeds : Bool) (test body : Script)
  | each (line : Nat) (name : String) (words : List (List Piece)) (body : Script)
  | select (line : Nat) (subject : List Piece) (arms : List Arm)
  | function (name : String) (body : Script)

end

abbrev Pieces := List Piece

deriving instance Inhabited for Script

namespace Piece

def plain? (pieces : Pieces) : Option (List Char) :=
  pieces.foldr (fun piece text => match piece, text with
    | .text false cs, some more => some (cs ++ more)
    | _, _ => none) (some [])

def isQuoted (pieces : Pieces) : Bool :=
  pieces.any fun
    | .text quoted _ => quoted
    | .parameter quoted .. => quoted
    | .command quoted _ => quoted
    | .arithmetic quoted _ => quoted

def assignment? (pieces : Pieces) : Option (String × Pieces) :=
  match pieces with
  | .text false cs :: rest =>
    let name := cs.takeWhile isNameChar
    match cs.drop name.length with
    | '=' :: value =>
      if isNameChars name then
        some (String.ofList name, if value.isEmpty then rest else .text false value :: rest)
      else none
    | _ => none
  | _ => none

end Piece

def specialCommands : List String :=
  [".", ":", "break", "continue", "eval", "exec", "exit", "export", "local", "readonly",
    "return", "set", "shift", "times", "trap", "unset"]

end SessionShell.Programs
