import SessionShell.Language.Parse
import SessionShell.Text.Decimal
import SessionShell.Text.Lines
import SessionShell.Translation.Translator

/-! The translator for sources that are shell code already. It checks their syntax, and their style
if it is strict, removes blanks at the ends of lines, and puts a header in front of files. -/

namespace SessionShell

def version : String := "0.1.0"

namespace Checked

def styleFault (line : List Char) : Option String :=
  if line.head? = some '\t' then some "tab indentation"
  else if line.getLast? = some ' ' || line.getLast? = some '\t' then some "trailing whitespace"
  else none

/-- Looks for the first line with a fault; `number` is the number of the line in front. -/
def checkStyle (number : Nat) : List (List Char) → Except TranslateError Unit
  | [] => .ok ()
  | line :: rest =>
    match styleFault line with
    | some fault =>
      .error (.invalid ("line " ++ Text.decimal (number + 1 : Nat) ++ ": " ++ fault ++
        " (strict mode)"))
    | none => checkStyle (number + 1) rest

def syntaxError (e : SyntaxError) : TranslateError :=
  if e.isIncomplete then .incomplete e.message else .invalid e.message

def check (strict : Bool) (text : String) : Except TranslateError Unit :=
  match parse text with
  | .error e => .error (syntaxError e)
  | .ok _ => if strict then checkStyle 0 (Text.lines text.toList) else .ok ()

def body (text : List Char) : List Char :=
  (Text.lines text).flatMap fun line => Text.trimEnd line ++ ['\n']

def banner : String :=
  "# Compiled with husk " ++ version ++ "\n\n"

def header : String :=
  "HUSK_VERSION=" ++ version ++ "\n"

def wrap (mode : Mode) (text : String) : String :=
  let body := body text.toList
  match mode with
  | .single => String.ofList (Text.dropEndWhile (· == '\n') body)
  | .file => "#!/bin/sh\n" ++ banner ++ header ++ "\n" ++ String.ofList body
  | .module => banner ++ String.ofList body

def translate (strict : Bool) (text : String) (mode : Mode) : Except TranslateError String :=
  match check strict text with
  | .error e => .error e
  | .ok _ => .ok (wrap mode text)

def translator (strict : Bool) : Translator :=
  .pure (translate strict) (.ok header)

end Checked

end SessionShell
