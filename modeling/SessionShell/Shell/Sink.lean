import SessionShell.Host.IoError
import SessionShell.Text.Utf8

/-! Output streams. A stream may refuse to be flushed, or refuse whatever is written. -/

namespace SessionShell

inductive Temper
  | healthy
  | unflushable
  | refusing
  deriving DecidableEq, Repr

structure Sink where
  temper : Temper
  written : Bytes
  deriving DecidableEq, Repr

namespace Sink

def memory : Sink := ⟨.healthy, []⟩

/-- Writes bytes. Writing nothing always succeeds. -/
def write (bytes : Bytes) (s : Sink) : Except IoError Sink :=
  if bytes = [] then .ok s
  else if s.temper = .refusing then .error .writeRefused
  else .ok { s with written := s.written ++ bytes }

def flush (s : Sink) : Except IoError Unit :=
  if s.temper = .healthy then .ok () else .error .flushRefused

end Sink

end SessionShell
