import SessionShell.Text.Utf8

/-! Texts as programs see them. A program works on bytes, so each character of a raw text stands for
one byte. -/

namespace SessionShell.Programs

abbrev Raw := String

namespace Raw

def charOfByte (b : UInt8) : Char :=
  Char.ofNat b.toNat

def byteOfChar (c : Char) : UInt8 :=
  UInt8.ofNat c.toNat

def ofBytes (bytes : Bytes) : Raw :=
  String.ofList (bytes.map charOfByte)

def bytes (r : Raw) : Bytes :=
  r.toList.map byteOfChar

def ofText (s : String) : Raw :=
  ofBytes (Text.Utf8.encode s)

def text (r : Raw) : String :=
  Text.Utf8.decodeLossy (bytes r)

theorem byteOfChar_charOfByte (b : UInt8) : byteOfChar (charOfByte b) = b := by
  have valid : Nat.isValidChar b.toNat := .inl (by have := b.toNat_lt; omega)
  have made : (Char.ofNat b.toNat).toNat = b.toNat := by
    rw [Char.ofNat, dif_pos valid]
    rfl
  rw [byteOfChar, charOfByte, made, UInt8.ofNat_toNat]

@[simp] theorem bytes_ofBytes (bs : Bytes) : bytes (ofBytes bs) = bs := by
  simp [bytes, ofBytes, Function.comp_def, byteOfChar_charOfByte]

end Raw

/-! The classes of ASCII characters that programs distinguish. -/

def isOctalDigit (c : Char) : Bool :=
  '0' ≤ c && c ≤ '7'

def isHexDigit (c : Char) : Bool :=
  c.isDigit || ('a' ≤ c && c ≤ 'f') || ('A' ≤ c && c ≤ 'F')

def isSpace (c : Char) : Bool :=
  c = ' ' || (9 ≤ c.toNat && c.toNat ≤ 13)

def isPunctuation (c : Char) : Bool :=
  33 ≤ c.toNat && c.toNat ≤ 126 && !c.isAlphanum

def isControl (c : Char) : Bool :=
  c.toNat < 32 || c.toNat = 127

def classMember? : String → Option (Char → Bool)
  | "alnum" => some Char.isAlphanum
  | "alpha" => some Char.isAlpha
  | "blank" => some fun c => c = ' ' || c = '\t'
  | "cntrl" => some isControl
  | "digit" => some Char.isDigit
  | "graph" => some fun c => 33 ≤ c.toNat && c.toNat ≤ 126
  | "lower" => some Char.isLower
  | "print" => some fun c => 32 ≤ c.toNat && c.toNat ≤ 126
  | "punct" => some isPunctuation
  | "space" => some isSpace
  | "upper" => some Char.isUpper
  | "xdigit" => some isHexDigit
  | _ => none

def digitValue (c : Char) : Nat :=
  if c.isDigit then c.toNat - 48 else c.toLower.toNat - 87

def digitsValue (base : Nat) (digits : List Char) : Nat :=
  digits.foldl (fun n c => n * base + digitValue c) 0

end SessionShell.Programs
