import SessionShell.Text.Blank

/-! The lines of a text. -/

namespace SessionShell.Text

def dropReturn (line : List Char) : List Char :=
  if line.getLast? = some '\r' then line.dropLast else line

/-- The lines of a text. A line ends before a newline, or before a carriage return and a newline;
what follows the last newline is a line only if it is not empty, and keeps its carriage return. -/
def lines (cs : List Char) : List (List Char) :=
  let pieces := splitWhere (· == '\n') cs
  pieces.dropLast.map dropReturn ++
    match pieces.getLast? with
    | some (c :: rest) => [c :: rest]
    | _ => []

def joinLines (texts : List (List Char)) : List Char :=
  (texts.intersperse ['\n']).flatten

example :
    lines "a\r\nb\r\r\n\nc\r".toList = ["a".toList, "b\r".toList, [], "c\r".toList] := by decide

end SessionShell.Text
