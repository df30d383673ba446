/-! Tokens: words made of literal text and substitutions, assignments, and separators. -/

namespace SessionShell

inductive WordPart
  | literal (text : String)
  | command (code : String)
  | parameter (name : String)
  deriving DecidableEq, Repr, Inhabited

abbrev Word := List WordPart

/-- A token. `assign name` stands for `name=` at the front of a word; the word that follows it holds
the rest, which is the value. -/
inductive Token
  | word (parts : Word)
  | assign (name : String)
  | pipe
  | semicolon
  | newline
  deriving DecidableEq, Repr, Inhabited

def isNameStart (c : Char) : Bool :=
  c.isAlpha || c == '_'

def isNameChar (c : Char) : Bool :=
  c.isAlphanum || c == '_'

def isNameChars : List Char → Bool
  | [] => false
  | c :: cs => isNameStart c && cs.all isNameChar

/-- Whether a text can name a variable: a letter or an underscore, then letters, digits and
underscores, all of them ASCII. -/
def isName (s : String) : Bool :=
  isNameChars s.toList

end SessionShell
