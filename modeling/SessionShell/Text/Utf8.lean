/-! UTF-8. A byte sequence falls into characters and ill-formed pieces, each piece as long as it
can still be the beginning of a character; strict decoding refuses such pieces and lossy decoding
puts U+FFFD in their place. -/

namespace SessionShell

abbrev Bytes := List UInt8

namespace Text.Utf8

/-- A character that has begun: the value of the bits read, the number of bytes still missing, and
the range of the next byte. -/
structure Begun where
  value : Nat
  missing : Nat
  least : Nat
  most : Nat

def begin? (b : Nat) : Option Begun :=
  if 0xC2 ≤ b && b ≤ 0xDF then some ⟨b - 0xC0, 1, 0x80, 0xBF⟩
  else if 0xE0 ≤ b && b ≤ 0xEF then
    some ⟨b - 0xE0, 2, if b == 0xE0 then 0xA0 else 0x80, if b == 0xED then 0x9F else 0xBF⟩
  else if 0xF0 ≤ b && b ≤ 0xF4 then
    some ⟨b - 0xF0, 3, if b == 0xF0 then 0x90 else 0x80, if b == 0xF4 then 0x8F else 0xBF⟩
  else none

/-- The pieces found so far, the newest first, and the character that has begun. In a piece, `none`
stands for ill-formed bytes. -/
structure Reading where
  found : List (Option Char)
  begun : Option Begun

def Reading.first (found : List (Option Char)) (b : Nat) : Reading :=
  if b < 0x80 then ⟨some (Char.ofNat b) :: found, none⟩
  else match begin? b with
    | some begun => ⟨found, some begun⟩
    | none => ⟨none :: found, none⟩

def Reading.step (r : Reading) (byte : UInt8) : Reading :=
  let b := byte.toNat
  match r.begun with
  | none => Reading.first r.found b
  | some begun =>
    if begun.least ≤ b && b ≤ begun.most then
      let value := begun.value * 64 + (b - 0x80)
      if begun.missing == 1 then ⟨some (Char.ofNat value) :: r.found, none⟩
      else ⟨r.found, some ⟨value, begun.missing - 1, 0x80, 0xBF⟩⟩
    else Reading.first (none :: r.found) b

def Reading.finish (r : Reading) : List (Option Char) :=
  match r.begun with
  | none => r.found
  | some _ => none :: r.found

def pieces (bytes : Bytes) : List (Option Char) :=
  (bytes.foldl Reading.step ⟨[], none⟩).finish.reverse

def decode? (bytes : Bytes) : Option String :=
  let found := pieces bytes
  if found.all Option.isSome then some (String.ofList (found.filterMap id)) else none

/-- The text of any byte sequence, with U+FFFD for each ill-formed piece. -/
def decodeLossy (bytes : Bytes) : String :=
  String.ofList ((pieces bytes).map (·.getD (Char.ofNat 0xFFFD)))

def encodeChars (cs : List Char) : Bytes :=
  cs.flatMap String.utf8EncodeChar

def encode (s : String) : Bytes :=
  encodeChars s.toList

example :
    decodeLossy [0x61, 0xFF, 0x62, 0xC3, 0x28, 0xF0, 0x9F, 0x98] = "a\uFFFDb\uFFFD(\uFFFD" := by
  decide +kernel

@[simp] theorem encode_empty : encode "" = [] := by simp [encode, encodeChars]

@[simp] theorem encodeChars_append (cs ds : List Char) :
    encodeChars (cs ++ ds) = encodeChars cs ++ encodeChars ds := by
  simp [encodeChars]

@[simp] theorem encode_append (s t : String) : encode (s ++ t) = encode s ++ encode t := by
  simp [encode]

end Text.Utf8

end SessionShell
