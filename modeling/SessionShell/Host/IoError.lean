import SessionShell.Text.Decimal

/-! The errors of files, streams and programs. -/

namespace SessionShell

inductive IoError
  | noEntry
  | argumentsTooLong
  | execFormat
  | badDescriptor
  | permission
  | notDirectory
  | isDirectory
  | textBusy
  | nameTooLong
  | linkLoop
  | zeroInArgument
  | zeroInPath
  | notText
  | writeRefused
  | flushRefused
  deriving DecidableEq, Repr

def IoError.reason : IoError → String × Option Nat
  | .noEntry => ("No such file or directory", some 2)
  | .argumentsTooLong => ("Argument list too long", some 7)
  | .execFormat => ("Exec format error", some 8)
  | .badDescriptor => ("Bad file descriptor", some 9)
  | .permission => ("Permission denied", some 13)
  | .notDirectory => ("Not a directory", some 20)
  | .isDirectory => ("Is a directory", some 21)
  | .textBusy => ("Text file busy", some 26)
  | .nameTooLong => ("File name too long", some 36)
  | .linkLoop => ("Too many levels of symbolic links", some 40)
  | .zeroInArgument => ("nul byte found in provided data", none)
  | .zeroInPath => ("file name contained an unexpected NUL byte", none)
  | .notText => ("stream did not contain valid UTF-8", none)
  | .writeRefused => ("write refused", none)
  | .flushRefused => ("flush refused", none)

def IoError.message (e : IoError) : String :=
  match e.reason with
  | (text, some number) => text ++ " (os error " ++ Text.decimal number ++ ")"
  | (text, none) => text

end SessionShell
