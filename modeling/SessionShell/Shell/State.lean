import SessionShell.Failure
import SessionShell.Shell.Sink
import SessionShell.Shell.Value

/-! The state that shell code works on, and the steps it takes. A step that fails keeps what it did
before. -/

namespace SessionShell

structure Host where
  machine : Machine
  running : Bool

/-- The state of the shell. `complaints` is what programs wrote to their error streams. -/
structure ShellState where
  names : Names Value
  out : Sink
  complaints : Bytes
  deeds : List Deed
  host : Host

abbrev Shell := ExceptT Failure (StateM ShellState)

namespace Shell

variable {α β : Type}

def fail (cause : Cause) : Shell α :=
  throw { cause }

def ofIo : Except IoError α → Shell α
  | .ok a => pure a
  | .error e => fail (.io e)

def ofResult : Except Failure α → Shell α
  | .ok a => pure a
  | .error e => throw e

def changeNames (f : Names Value → Names Value) : Shell Unit :=
  modify fun s => { s with names := f s.names }

@[simp] theorem pure_apply (a : α) (s : ShellState) : (pure a : Shell α) s = (.ok a, s) := rfl

@[simp] theorem throw_apply (e : Failure) (s : ShellState) :
    (throw e : Shell α) s = (.error e, s) := rfl

@[simp] theorem get_apply (s : ShellState) : (get : Shell ShellState) s = (.ok s, s) := rfl

@[simp] theorem modify_apply (f : ShellState → ShellState) (s : ShellState) :
    (modify f : Shell Unit) s = (.ok (), f s) := rfl

@[simp] theorem bind_apply (step : Shell α) (next : α → Shell β) (s : ShellState) :
    (step >>= next) s =
      match step s with
      | (.ok a, t) => next a t
      | (.error e, t) => (.error e, t) := by
  change (ExceptT.bind step next) s = _
  simp only [ExceptT.bind, ExceptT.mk, bind, StateT.bind]
  cases step s with
  | mk result t => cases result <;> rfl

def write (bytes : Bytes) : Shell Unit := do
  let out ← ofIo ((← get).out.write bytes)
  modify fun s => { s with out }

def writeText (s : String) : Shell Unit :=
  write (Text.Utf8.encode s)

def readInput : Shell Bytes := do
  let (bytes, input) := (← get).host.machine.input.readAll
  modify fun s => { s with host.machine.input := input }
  return bytes

/-- Takes a step with its output collected. Whether it fails or not, the stream that was there
before comes back. -/
def collecting (step : Shell α) : Shell (α × Bytes) := fun s =>
  match step { s with out := .memory } with
  | (.ok a, t) => (.ok (a, t.out.written), { t with out := s.out })
  | (.error e, t) => (.error e, { t with out := s.out })

/-- Takes a step that writes to this stream and not to that of the shell. It gives what became of the
step, and the stream behind it. -/
def writingTo (stream : Sink) (step : Shell α) : Shell (Except Failure α × Sink) := fun s =>
  let (result, t) := step { s with out := stream }
  (.ok (result, t.out), { t with out := s.out })

/-- Takes a step to which the shell lends its stream. Meanwhile a stream that nobody reads stands in
its place. The stream is flushed and put back even if the step failed, and the failure of the step
comes first. -/
def flushing (step : Shell α) : Shell α := do
  let lent := (← get).out
  modify fun s => { s with out := .memory }
  let (result, stream) ← writingTo lent step
  let flushed := stream.flush
  modify fun s => { s with out := stream }
  let a ← ofResult result
  ofIo flushed
  return a

theorem flushing_apply (step : Shell α) (s : ShellState) :
    flushing step s =
      match step s with
      | (.ok a, t) =>
        match t.out.flush with
        | .ok _ => (.ok a, t)
        | .error e => (.error { cause := .io e }, t)
      | (.error e, t) => (.error e, t) := by
  unfold flushing
  simp only [bind_apply, get_apply, modify_apply, writingTo]
  obtain ⟨result, t⟩ := step s
  cases result with
  | error e => rfl
  | ok a =>
    dsimp only [ofResult, pure_apply]
    cases t.out.flush <;> rfl

def orElseWith (step : Shell α) (handle : Failure → Shell α) : Shell α := fun s =>
  match step s with
  | (.ok a, t) => (.ok a, t)
  | (.error e, t) => handle e t

end Shell

end SessionShell
