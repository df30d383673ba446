/-! Blank characters, and the trimming and splitting that they decide. -/

namespace SessionShell.Text

/-- The characters with the Unicode property White_Space. -/
def isBlank (c : Char) : Bool :=
  let n := c.toNat
  (9 ≤ n && n ≤ 13) || n == 0x20 || n == 0x85 || n == 0xA0 || n == 0x1680 ||
    (0x2000 ≤ n && n ≤ 0x200A) || n == 0x2028 || n == 0x2029 || n == 0x202F || n == 0x205F ||
    n == 0x3000

def dropEndWhile (p : Char → Bool) (cs : List Char) : List Char :=
  (cs.reverse.dropWhile p).reverse

def trimEnd (cs : List Char) : List Char :=
  dropEndWhile isBlank cs

def trim (cs : List Char) : List Char :=
  trimEnd (cs.dropWhile isBlank)

/-- The pieces between the characters that satisfy `p`: one more than there are such characters. -/
def splitWhere (p : Char → Bool) (cs : List Char) : List (List Char) :=
  cs.foldr
    (fun c pieces =>
      if p c then [] :: pieces
      else match pieces with
        | [] => [[c]]
        | piece :: more => (c :: piece) :: more)
    [[]]

def words (cs : List Char) : List (List Char) :=
  (splitWhere isBlank cs).filter (fun piece => !piece.isEmpty)

theorem ne_of_blank {c d : Char} (blank : isBlank c) (printed : isBlank d = false) : c ≠ d := by
  intro same
  rw [same, printed] at blank
  cases blank

@[simp] theorem splitWhere_nil (p : Char → Bool) : splitWhere p [] = [[]] := rfl

theorem splitWhere_ne_nil (p : Char → Bool) (cs : List Char) : splitWhere p cs ≠ [] := by
  cases cs with
  | nil => simp
  | cons c cs =>
    simp only [splitWhere, List.foldr_cons]
    split
    · simp
    · split <;> simp

end SessionShell.Text
