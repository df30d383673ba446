import SessionShell.Host.IoError
import SessionShell.Text.Utf8

/-! Standard input, which the program reads through a buffer and shares with the programs that it
starts. -/

namespace SessionShell

/-- Bytes that the program has fetched but not used, and bytes that still wait outside. Programs
that are started see only the latter. -/
structure StandardInput where
  buffered : Bytes
  pending : Bytes
  deriving DecidableEq, Repr

namespace StandardInput

def chunk : Nat := 8192

def readAll (input : StandardInput) : Bytes × StandardInput :=
  (input.buffered ++ input.pending, ⟨[], []⟩)

/-- The bytes up to the next newline, and with it. Chunks are fetched until one has a newline, and
what follows it there stays buffered. -/
def readLine (input : StandardInput) : Bytes × StandardInput :=
  let newline : UInt8 := 10
  if input.buffered.contains newline then
    let before := input.buffered.takeWhile (· ≠ newline)
    (before ++ [newline], { input with buffered := input.buffered.drop (before.length + 1) })
  else if input.pending.contains newline then
    let before := input.pending.takeWhile (· ≠ newline)
    let used := before.length + 1
    let fetched := (before.length / chunk + 1) * chunk
    (input.buffered ++ before ++ [newline],
      ⟨(input.pending.take fetched).drop used, input.pending.drop fetched⟩)
  else input.readAll

def size (input : StandardInput) : Nat :=
  input.buffered.length + input.pending.length

end StandardInput

end SessionShell
