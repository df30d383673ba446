import SessionShell.Programs.Script.Children

/-! Redirections: where the descriptors of a command lead. -/

namespace SessionShell.Programs

structure Redirected where
  descriptor : Nat
  direction : Direction
  target : Raw

namespace Redirected

variable (d : Runner)

def ofRedirection : Redirection → Step Redirected
  | .mk descriptor direction pieces => do
    let target ← Expansion.text d.substitute { tilde := .front } pieces
    if direction = .same then
      match target.toList with
      | ['-'] => pure ()
      | [c] => if !c.isDigit then refuse
      | _ => refuse
    return { descriptor, direction, target }
where
  refuse : Step Unit :=
    ShellRun.fail "Syntax error: Bad fd number"

def ofRedirections : List Redirection → Step (List Redirected)
  | [] => return []
  | r :: rest => do
    let front ← ofRedirection d r
    return front :: (← ofRedirections rest)

def reasonOf (missing : String) (e : IoError) : Raw :=
  if e = .noEntry || e = .notDirectory then missing else e.reason.1

def isInTheWay (r : ShellRun) (path : Raw) : Bool :=
  r.isSet 'C' && r.world.files.isFile r.process.directory (Raw.text path)

def openTarget (x : Redirected) : Step (Option Nat) := do
  let r ← get
  let opened (opening : Opening) : Step (Option Nat) := do
    match r.world.openFile r.process x.target opening with
    | (.ok index, world) =>
      set { r with world }
      return some index
    | (.error e, _) =>
      ShellRun.fail (if opening = .read then
          "cannot open " ++ x.target ++ ": " ++ reasonOf "No such file" e
        else "cannot create " ++ x.target ++ ": " ++ reasonOf "Directory nonexistent" e)
  match x.direction with
  | .input => opened .read
  | .append => opened .append
  | .both => opened .both
  | .replace => opened .write
  | .output =>
    if isInTheWay r x.target then
      ShellRun.fail ("cannot create " ++ x.target ++ ": File exists")
    else opened .write
  | .same =>
    match (Numeral.readNat x.target) with
    | none => return none
    | some n =>
      match r.process.descriptor? n with
      | some index => return some index
      | none => ShellRun.fail (x.target ++ ": " ++ IoError.badDescriptor.reason.1)
  | .document number =>
    let pieces := r.documents.getD number []
    let text ← Expansion.text d.substitute {} pieces
    return some (← ShellRun.addStream (.source (Raw.bytes text)))

def apply : List Redirected → Step Unit
  | [] => return
  | x :: rest => do
    let index ← openTarget d x
    modify fun r => { r with process := ShellRun.setDescriptor r.process x.descriptor index }
    apply rest

end Redirected

end SessionShell.Programs
