import SessionShell.Programs.Numeral

/-! Signals: their names, and what they do to a process that does not prepare for them. -/

namespace SessionShell.Programs.Signal

def table : List (String × String) :=
  [("HUP", "Hangup"), ("INT", "Interrupt"), ("QUIT", "Quit"), ("ILL", "Illegal instruction"),
    ("TRAP", "Trace/breakpoint trap"), ("ABRT", "Aborted"), ("BUS", "Bus error"),
    ("FPE", "Floating point exception"), ("KILL", "Killed"), ("USR1", "User defined signal 1"),
    ("SEGV", "Segmentation fault"), ("USR2", "User defined signal 2"), ("PIPE", "Broken pipe"),
    ("ALRM", "Alarm clock"), ("TERM", "Terminated"), ("16", "Stack fault"),
    ("CHLD", "Child exited"), ("CONT", "Continued"), ("STOP", "Stopped (signal)"),
    ("TSTP", "Stopped"), ("TTIN", "Stopped (tty input)"), ("TTOU", "Stopped (tty output)"),
    ("URG", "Urgent I/O condition"), ("XCPU", "CPU time limit exceeded"),
    ("XFSZ", "File size limit exceeded"), ("VTALRM", "Virtual timer expired"),
    ("PROF", "Profiling timer expired"), ("WINCH", "Window changed"), ("IO", "I/O possible"),
    ("PWR", "Power failure"), ("SYS", "Bad system call")]

def child : Nat := 17

def firstFree : Nat := 34

def lastFree : Nat := 64

def count : Nat := lastFree + 1

def freeName (n : Nat) : String :=
  if n = firstFree then "RTMIN"
  else if n < 50 then "RTMIN+" ++ Text.decimal (n - firstFree)
  else if n < lastFree then "RTMAX-" ++ Text.decimal (lastFree - n)
  else "RTMAX"

/-- The name of a signal. Zero stands for the end of a shell. -/
def name? (n : Nat) : Option String :=
  if n = 0 then some "EXIT"
  else if h : n - 1 < table.length then some table[n - 1].1
  else if n < firstFree then some (Text.decimal n)
  else if n < count then some (freeName n)
  else none

def number? (least : Nat) (r : Raw) : Option Nat :=
  match Numeral.readNat r with
  | some n => if n < count then some n else none
  | none =>
    let name := String.ofList (r.toList.map Char.toUpper)
    (List.range count).find? fun n => least ≤ n && name? n = some name

def description (n : Nat) : String :=
  if h : n - 1 < table.length then table[n - 1].2 else if n < firstFree then "Unknown signal " ++ Text.decimal n
  else "Real-time signal " ++ Text.decimal (n - firstFree)

def isHarmless (n : Nat) : Bool :=
  [child, 18, 19, 20, 21, 22, 23, 28].contains n

/-- What is said about a program that a signal ended. An interrupt and a broken pipe need no words. -/
def notice? (ended : Int32) : Option String :=
  let signal := (ended.toUInt32 &&& 0x7F).toNat
  if signal = 0 || signal = 2 || signal = 13 then none else some (description signal ++ "\n")

end SessionShell.Programs.Signal
