import SessionShell.Programs.Options
import SessionShell.Programs.World
import SessionShell.Text.Decimal

/-! Small programs: what they can do, and how they end. -/

namespace SessionShell.Programs

inductive Ending
  | code (c : UInt8)
  | become (program : Raw) (process : Process)

structure Bench where
  process : Process
  world : World
  fault : Option IoError := none

abbrev Work := StateM Bench

namespace Work

def putBytes (descriptor : Nat) (bytes : Bytes) : Work Unit :=
  modify fun b =>
    if bytes = [] then b
    else match b.world.writeTo b.process descriptor bytes with
      | (.ok _, world) => { b with world }
      | (.error e, world) => { b with world, fault := if descriptor = 1 then some e else b.fault }

def put (r : Raw) : Work Unit :=
  putBytes 1 (Raw.bytes r)

def complain (message : Raw) : Work Unit := do
  putBytes 2 (Raw.bytes ((← get).process.name ++ ": " ++ message ++ "\n"))

def suggestHelp : Work Unit := do
  putBytes 2 (Raw.bytes ("Try '" ++ (← get).process.name ++ " --help' for more information.\n"))

def refuse (code : UInt8) (message : Raw) : Work Ending := do
  complain message
  suggestHelp
  return .code code

def openInput (file : Raw) : Work (Except IoError Nat) := do
  let b ← get
  if file = "-" then
    return match b.process.descriptor? 0 with
      | some index => .ok index
      | none => .error .badDescriptor
  else
    let (opened, world) := b.world.openFile b.process file .read
    set { b with world }
    return opened

def readStream (index : Nat) : Work (Except IoError Bytes) := do
  let b ← get
  let (bytes, world) := b.world.read index none
  set { b with world }
  return bytes

def readInput (file : Raw) : Work (Except IoError Bytes) := do
  match ← openInput file with
  | .error e => return .error e
  | .ok index => readStream index

/-- Runs a program to its end. Output that could not be written is a failure with this code. -/
def run (work : Work Ending) (failure : UInt8) (process : Process) (world : World) :
    Ending × World :=
  let (ending, b) := Id.run (StateT.run work ({ process, world } : Bench))
  match ending, b.fault with
  | .code _, some e =>
    let (_, after) := Id.run (StateT.run (complain ("write error: " ++ e.reason.1)) b)
    (.code failure, after.world)
  | ending, _ => (ending, b.world)

end Work

def padLeft (width : Nat) (n : Int) : Raw :=
  let text := Text.decimal n
  String.ofList (List.replicate (width - text.length) ' ') ++ text

/-- The parts that a byte ends, without it. What follows the last one is a part only if it is not
empty. -/
def splitEnded (ending : UInt8) (bytes : Bytes) : List Bytes :=
  let parts := bytes.splitOn ending
  if parts.getLast? = some [] then parts.dropLast else parts

end SessionShell.Programs
