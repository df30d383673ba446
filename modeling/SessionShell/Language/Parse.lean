import SessionShell.Language.Parser

/-! From a text to its program. -/

namespace SessionShell

def Token.describe : Token → String
  | .word _ => "word"
  | .assign name => name ++ "="
  | .pipe => "|"
  | .semicolon => ";"
  | .newline => "newline"

def ParseError.message : ParseError → String
  | .unexpectedToken t => "unexpected token " ++ t.describe
  | .unexpectedEnd => "unexpected end of input"
  | .emptyCommand => "empty command"

inductive SyntaxError
  | lex (e : LexError)
  | parse (e : ParseError)
  deriving DecidableEq, Repr

def SyntaxError.message : SyntaxError → String
  | .lex e => e.message
  | .parse e => e.message

def SyntaxError.isIncomplete : SyntaxError → Bool
  | .lex _ => true
  | .parse e => e == .unexpectedEnd

def parse (text : String) : Except SyntaxError Program :=
  match tokenize text with
  | .error e => .error (.lex e)
  | .ok tokens =>
    match parseTokens tokens with
    | .error e => .error (.parse e)
    | .ok program => .ok program

end SessionShell
