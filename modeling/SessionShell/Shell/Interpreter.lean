import SessionShell.Session
import SessionShell.Shell.Evaluate

/-! The shell as the interpreter of a session. -/

namespace SessionShell

/-- What a shell keeps between fragments besides the names: how its output stream behaves, and what
was done. -/
structure ShellContext where
  temper : Temper := .healthy
  deeds : List Deed := []

namespace ShellContext

def enter (c : ShellContext) (names : Names Value) (host : Host) : ShellState :=
  { names, host, out := ⟨c.temper, []⟩, complaints := [], deeds := c.deeds }

def leave (failure : Option String) (s : ShellState) : Evaluated Value ShellContext :=
  { failure, output := s.out.written, complaints := s.complaints, names := s.names
    context := ⟨s.out.temper, s.deeds⟩, host := s.host }

end ShellContext

def shellInterpreter (start : Launcher) : Interpreter Value ShellContext :=
  { evaluate := fun code names context host =>
      match Shell.evaluate start code (context.enter names host) with
      | (.ok _, s) => ShellContext.leave none s
      | (.error e, s) => ShellContext.leave (some e.message) s }

end SessionShell
