import SessionShell.Programs.Raw

/-! Names in the complaints of programs, quoted so that a shell would read them back. -/

namespace SessionShell.Programs

def octal3 (n : Nat) : List Char :=
  [n / 64 % 8, n / 8 % 8, n % 8].map Nat.digitChar

namespace Quoting

def escaped? (c : Char) : Option (List Char) :=
  match c with
  | '\x07' => some ['\\', 'a']
  | '\x08' => some ['\\', 'b']
  | '\t' => some ['\\', 't']
  | '\n' => some ['\\', 'n']
  | '\x0b' => some ['\\', 'v']
  | '\x0c' => some ['\\', 'f']
  | '\r' => some ['\\', 'r']
  | c => if 32 ≤ c.toNat && c.toNat ≤ 126 then none else some ('\\' :: octal3 c.toNat)

def isSpecial (position size : Nat) (c : Char) : Bool :=
  " !\"$&()*;<=>[^|':".toList.contains c || c.toNat = 96 || c = '?' || c = '\\' ||
    (c = '\x7b' || c = '\x7d') && size = 1 || (c = '#' || c = '~') && position = 0

def quoteChars : Bool → List Char → List Char
  | false, [] => ['\'']
  | true, [] => ['\'', '\'', '\'']
  | inEscape, c :: rest =>
    match escaped? c with
    | some text => (if inEscape then text else "'$'".toList ++ text) ++ quoteChars true rest
    | none =>
      (if inEscape then ['\'', '\''] else []) ++
        (if c = '\'' then "'\\''".toList else [c]) ++ quoteChars false rest

def trimQuotes (cs : List Char) : List Char :=
  match cs.reverse with
  | '\'' :: '\'' :: '\'' :: rest => (('\'' :: rest).reverse)
  | _ => cs

end Quoting

def quoteName (always : Bool) (r : Raw) : Raw :=
  let cs := r.toList
  let special := cs.zipIdx.any fun (c, n) => Quoting.isSpecial n cs.length c
  let escapes := cs.any fun c => (Quoting.escaped? c).isSome
  if !always && !special && !escapes && !cs.isEmpty then r
  else if cs.contains '\'' && !escapes && !cs.any (fun c => c = '"' || c = '$' || c = '\\' ||
      c.toNat = 96 || c = '!') then
    "\"" ++ r ++ "\""
  else String.ofList (Quoting.trimQuotes ('\'' :: Quoting.quoteChars false cs))

def quoteText (r : Raw) : Raw :=
  String.ofList ('\'' :: r.toList.flatMap (fun c =>
    if c = '\'' || c = '\\' then ['\\', c] else (Quoting.escaped? c).getD [c]) ++ ['\''])

example : ["a b", "it's", "a\n", "ab", ""].map (quoteName false) =
    ["'a b'", "\"it's\"", "'a'$'\\n'", "ab", "''"] := by decide +kernel

end SessionShell.Programs
