import Mathlib.Data.List.Basic
import Mathlib.Tactic.NormNum
import SessionShell.Text.Utf8

/-! Which bytes are text. A sequence of bytes decodes to a text exactly if it is the encoding of
that text: what the reader takes for a character is what the character is encoded to, byte by
byte. -/

namespace SessionShell.Text.Utf8

/-- The bytes behind the first one of a character: each has six bits of its number. -/
def tail : Nat → Nat → Bytes
  | 0, _ => []
  | missing + 1, n => UInt8.ofNat (n / 64 ^ missing % 64 + 128) :: tail missing n

/-- The number is that of a character which begins like this, with so many bytes missing and one
more. -/
structure Begun.May (b : Begun) (missing n : Nat) : Prop where
  count : b.missing = missing + 1
  value : b.value = n / 64 ^ (missing + 1)
  least : b.least ≤ n / 64 ^ missing % 64 + 128
  most : n / 64 ^ missing % 64 + 128 ≤ b.most

theorem toNat_ofNat_char {n : Nat} (valid : n < 0xD800 ∨ 0xDFFF < n ∧ n < 0x110000) :
    (Char.ofNat n).val.toNat = n := by
  have isValid : n.isValidChar := valid
  rw [Char.ofNat, dif_pos isValid]
  rfl

theorem encode_of_begin {b : Nat} {begun : Begun} (begins : begin? b = some begun)
    {missing n : Nat} (may : begun.May missing n) :
    String.utf8EncodeChar (Char.ofNat n) = UInt8.ofNat b :: tail (missing + 1) n := by
  obtain ⟨count, value, least, most⟩ := may
  unfold begin? at begins
  simp only [Bool.and_eq_true, decide_eq_true_eq, beq_iff_eq] at begins
  split at begins
  · obtain rfl := Option.some.inj begins
    obtain rfl : missing = 0 := by simpa using count.symm
    simp only [zero_add, pow_one] at value
    rw [String.utf8EncodeChar.eq_1, toNat_ofNat_char (by omega), if_neg (by omega),
      if_pos (by omega)]
    have first : n / 64 % 32 + 192 = b := by omega
    simp [tail, first]
  split at begins
  · obtain rfl := Option.some.inj begins
    obtain rfl : missing = 1 := by simpa using count.symm
    simp only [Nat.reduceAdd, Nat.reducePow, pow_one] at value least most
    -- The range of the second byte leaves out what has a shorter encoding, and the surrogates.
    have range : 0x800 ≤ n ∧ n < 0x10000 ∧ (n < 0xD800 ∨ 0xDFFF < n) := by
      split at least <;> split at most <;> omega
    rw [String.utf8EncodeChar.eq_1, toNat_ofNat_char (by omega), if_neg (by omega),
      if_neg (by omega), if_pos (by omega)]
    have first : n / 4096 % 16 + 224 = b := by omega
    simp [tail, first]
  split at begins
  · obtain rfl := Option.some.inj begins
    obtain rfl : missing = 2 := by simpa using count.symm
    simp only [Nat.reduceAdd, Nat.reducePow] at value least most
    have range : 0x10000 ≤ n ∧ n < 0x110000 := by
      split at least <;> split at most <;> omega
    rw [String.utf8EncodeChar.eq_1, toNat_ofNat_char (by omega), if_neg (by omega),
      if_neg (by omega), if_neg (by omega)]
    have first : n / 262144 % 8 + 240 = b := by omega
    simp [tail, first]
  · cases begins

theorem exists_begin {n : Nat} (long : 128 ≤ n) (valid : n < 0xD800 ∨ 0xDFFF < n ∧ n < 0x110000) :
    ∃ b begun missing, 0x80 ≤ b ∧ b < 256 ∧ begin? b = some begun ∧ begun.May missing n := by
  by_cases two : n < 0x800
  · refine ⟨n / 64 + 0xC0, ⟨n / 64, 1, 0x80, 0xBF⟩, 0, by omega, by omega, ?_, ?_⟩
    · simp [begin?]
      omega
    · constructor
      · rfl
      · rfl
      · simp
      · simp only
        omega
  by_cases three : n < 0x10000
  · refine ⟨n / 4096 + 0xE0, ⟨n / 4096, 2, if n / 4096 + 0xE0 = 0xE0 then 0xA0 else 0x80,
      if n / 4096 + 0xE0 = 0xED then 0x9F else 0xBF⟩, 1, by omega, by omega, ?_, ?_⟩
    · simp only [begin?, Bool.and_eq_true, decide_eq_true_eq, beq_iff_eq]
      rw [if_neg (by omega), if_pos (by omega), Nat.add_sub_cancel]
    · constructor
      · rfl
      · rfl
      · simp only [pow_one]
        split <;> omega
      · simp only [pow_one]
        split <;> omega
  · refine ⟨n / 262144 + 0xF0, ⟨n / 262144, 3, if n / 262144 + 0xF0 = 0xF0 then 0x90 else 0x80,
      if n / 262144 + 0xF0 = 0xF4 then 0x8F else 0xBF⟩, 2, by omega, by omega, ?_, ?_⟩
    · simp only [begin?, Bool.and_eq_true, decide_eq_true_eq, beq_iff_eq]
      rw [if_neg (by omega), if_neg (by omega), if_pos (by omega), Nat.add_sub_cancel]
    · constructor
      · rfl
      · rfl
      · simp only [Nat.reducePow]
        split <;> omega
      · simp only [Nat.reducePow]
        split <;> omega

/-! What is encoded is read. -/

theorem first_of_begin {b : Nat} {begun : Begun} (begins : begin? b = some begun) (high : 0x80 ≤ b)
    (found : List (Option Char)) : Reading.first found b = ⟨found, some begun⟩ := by
  rw [Reading.first, if_neg (by omega), begins]

theorem read_tail (found : List (Option Char)) {missing n : Nat} :
    ∀ {begun : Begun}, begun.May missing n →
      (tail (missing + 1) n).foldl Reading.step ⟨found, some begun⟩ =
        ⟨some (Char.ofNat n) :: found, none⟩ := by
  induction missing with
  | zero =>
    intro begun may
    obtain ⟨count, value, least, most⟩ := may
    have low : n / 64 ^ 0 % 64 + 128 < 256 := by omega
    simp only [pow_zero, Nat.div_one, zero_add, pow_one] at *
    have read : begun.value * 64 + n % 64 = n := by omega
    simp [tail, Reading.step, Nat.mod_eq_of_lt low, least, most, count, read]
  | succ missing ih =>
    intro begun may
    obtain ⟨count, value, least, most⟩ := may
    have low : n / 64 ^ (missing + 1) % 64 + 128 < 256 := by omega
    have shift : n / 64 ^ (missing + 1 + 1) = n / 64 ^ (missing + 1) / 64 := by
      rw [Nat.div_div_eq_div_mul, ← pow_succ]
    have read : begun.value * 64 + n / 64 ^ (missing + 1) % 64 = n / 64 ^ (missing + 1) := by
      omega
    rw [tail, List.foldl_cons]
    have next : Reading.step ⟨found, some begun⟩
        (UInt8.ofNat (n / 64 ^ (missing + 1) % 64 + 128)) =
        ⟨found, some ⟨n / 64 ^ (missing + 1), missing + 1, 0x80, 0xBF⟩⟩ := by
      simp [Reading.step, Nat.mod_eq_of_lt low, least, most, count, read]
    rw [next]
    apply ih
    constructor
    · rfl
    · rfl
    · simp
    · simp only
      omega

theorem read_char (c : Char) (found : List (Option Char)) :
    (String.utf8EncodeChar c).foldl Reading.step ⟨found, none⟩ = ⟨some c :: found, none⟩ := by
  have named : Char.ofNat c.toNat = c := Char.ofNat_toNat c
  by_cases short : c.toNat < 128
  · have single : String.utf8EncodeChar c = [UInt8.ofNat c.toNat] := by
      have low : c.val.toNat ≤ 127 := Nat.le_of_lt_succ short
      rw [String.utf8EncodeChar.eq_1, if_pos low]
      rfl
    have small : c.toNat % 256 = c.toNat := by omega
    simp [single, Reading.step, Reading.first, small, short, named]
  · obtain ⟨b, begun, missing, high, small, begins, may⟩ :=
      @exists_begin c.toNat (by omega) c.valid
    have encoded : String.utf8EncodeChar c = UInt8.ofNat b :: tail (missing + 1) c.toNat := by
      rw [← encode_of_begin begins may]
      exact congrArg _ named.symm
    have opened : Reading.step ⟨found, none⟩ (UInt8.ofNat b) = ⟨found, some begun⟩ := by
      simp only [Reading.step, UInt8.toNat_ofNat', Nat.mod_eq_of_lt small]
      exact first_of_begin begins high found
    rw [encoded, List.foldl_cons, opened, read_tail found may]
    exact congrArg (fun c => Reading.mk (some c :: found) none) named

theorem read_chars (cs : List Char) :
    ∀ found, (encodeChars cs).foldl Reading.step ⟨found, none⟩ =
      ⟨(cs.map some).reverse ++ found, none⟩ := by
  induction cs with
  | nil =>
    intro found
    rfl
  | cons c cs ih =>
    intro found
    have split : encodeChars (c :: cs) = String.utf8EncodeChar c ++ encodeChars cs := rfl
    rw [split, List.foldl_append, read_char, ih]
    simp

theorem decode?_encode (text : String) : decode? (encode text) = some text := by
  have read := read_chars text.toList []
  simp [decode?, pieces, encode, read, Reading.finish]

/-! What is read was encoded. -/

/-- A character that has begun with these bytes: whatever it becomes, they come first in it. -/
structure Begun.Announced (b : Begun) (pending : Bytes) : Prop where
  low : 0x80 ≤ b.least
  high : b.most ≤ 0xBF
  remaining : ∃ missing, b.missing = missing + 1 ∧ ∀ n, b.May missing n →
    String.utf8EncodeChar (Char.ofNat n) = pending ++ tail (missing + 1) n

theorem announced_of_begin {b : Nat} {begun : Begun} (begins : begin? b = some begun) :
    begun.Announced [UInt8.ofNat b] := by
  have bounds : 0x80 ≤ begun.least ∧ begun.most ≤ 0xBF ∧ begun.missing ≠ 0 := by
    unfold begin? at begins
    split at begins
    · obtain rfl := Option.some.inj begins
      simp
    split at begins
    · obtain rfl := Option.some.inj begins
      simp only
      split <;> split <;> omega
    split at begins
    · obtain rfl := Option.some.inj begins
      simp only
      split <;> split <;> omega
    · cases begins
  obtain ⟨low, high, open_⟩ := bounds
  obtain ⟨missing, count⟩ := Nat.exists_eq_succ_of_ne_zero open_
  exact ⟨low, high, missing, count, fun n may => encode_of_begin begins may⟩

/-- Unless some of them were ill-formed, the bytes seen are those of the characters found, and of
the one that has begun. -/
def Reading.Accounts (r : Reading) (seen : Bytes) : Prop :=
  ∀ cs : List Char, r.found = (cs.map some).reverse → match r.begun with
    | none => seen = encodeChars cs
    | some begun => ∃ pending, seen = encodeChars cs ++ pending ∧ begun.Announced pending

theorem accounts_of_illFormed {r : Reading} (illFormed : none ∈ r.found) (seen : Bytes) :
    r.Accounts seen := by
  intro cs found
  rw [found] at illFormed
  simp at illFormed

theorem accounts_found {r : Reading} {seen bytes : Bytes} {c : Char}
    (before : ∀ cs : List Char, r.found = (cs.map some).reverse →
      seen ++ bytes = encodeChars cs ++ String.utf8EncodeChar c) :
    Reading.Accounts ⟨some c :: r.found, none⟩ (seen ++ bytes) := by
  intro cs found
  obtain rfl | ⟨front, last, rfl⟩ := cs.eq_nil_or_concat'
  · simp at found
  · simp only [List.map_append, List.map_cons, List.map_nil, List.reverse_append,
      List.reverse_cons, List.reverse_nil, List.nil_append, List.singleton_append,
      List.cons.injEq, Option.some.injEq] at found
    obtain ⟨rfl, rest⟩ := found
    simpa [encodeChars] using before front (by simpa using rest)

theorem accounts_first {seen : Bytes} (found : List (Option Char)) (byte : UInt8)
    (before : Reading.Accounts ⟨found, none⟩ seen) :
    (Reading.first found byte.toNat).Accounts (seen ++ [byte]) := by
  unfold Reading.first
  split
  case isTrue ascii =>
    apply accounts_found (r := ⟨found, none⟩)
    intro cs here
    have low : (Char.ofNat byte.toNat).val.toNat ≤ 127 := by
      rw [toNat_ofNat_char (by omega)]
      omega
    rw [String.utf8EncodeChar.eq_1, if_pos low, toNat_ofNat_char (by omega)]
    simpa using before cs here
  case isFalse high =>
    split
    case h_1 begun begins =>
      intro cs here
      refine ⟨[byte], by rw [before cs here], ?_⟩
      simpa using announced_of_begin begins
    case h_2 => exact accounts_of_illFormed (by simp) _

theorem accounts_step {r : Reading} {seen : Bytes} (byte : UInt8) (before : r.Accounts seen) :
    (r.step byte).Accounts (seen ++ [byte]) := by
  obtain ⟨found, _ | begun⟩ := r
  · exact accounts_first found byte before
  simp only [Reading.step, Bool.and_eq_true, decide_eq_true_eq, beq_iff_eq]
  split
  case isFalse =>
    -- The character that had begun is ill-formed, and stays so.
    apply accounts_first
    exact accounts_of_illFormed (by simp) seen
  case isTrue within =>
    have small : byte.toNat < 256 := byte.toNat_lt
    split
    case isTrue last =>
      apply accounts_found (r := ⟨found, some begun⟩)
      intro cs here
      obtain ⟨pending, rfl, low, high, missing, count, encoded⟩ := before cs here
      obtain rfl : missing = 0 := by omega
      have six : (begun.value * 64 + (byte.toNat - 128)) % 64 + 128 = byte.toNat := by omega
      rw [encoded]
      · simp only [tail, pow_zero, Nat.div_one, six, UInt8.ofNat_toNat, List.append_assoc]
      · constructor
        · exact count
        · omega
        · simp only [pow_zero, Nat.div_one]
          omega
        · simp only [pow_zero, Nat.div_one]
          omega
    case isFalse more =>
      intro cs here
      obtain ⟨pending, rfl, low, high, missing, count, encoded⟩ := before cs here
      obtain ⟨missing, rfl⟩ : ∃ fewer, missing = fewer + 1 := ⟨missing - 1, by omega⟩
      refine ⟨pending ++ [byte], by simp, by simp, by simp, missing, ?_, ?_⟩
      · simp only
        omega
      · intro n may
        have value := may.value
        simp only at value
        have six : n / 64 ^ (missing + 1) % 64 + 128 = byte.toNat := by omega
        have shift : n / 64 ^ (missing + 1 + 1) = n / 64 ^ (missing + 1) / 64 := by
          rw [Nat.div_div_eq_div_mul, ← pow_succ]
        rw [encoded]
        · simp only [tail, six, UInt8.ofNat_toNat, List.append_assoc, List.singleton_append]
        · constructor
          · exact count
          · omega
          · omega
          · omega

theorem accounts_read (bytes : Bytes) : ∀ {r : Reading} {seen : Bytes}, r.Accounts seen →
    (bytes.foldl Reading.step r).Accounts (seen ++ bytes) := by
  induction bytes with
  | nil =>
    intro r seen before
    simpa using before
  | cons byte bytes ih =>
    intro r seen before
    simpa using ih (accounts_step byte before)

theorem pieces_of_decode? {bytes : Bytes} {text : String} (decoded : decode? bytes = some text) :
    pieces bytes = text.toList.map some := by
  simp only [decode?] at decoded
  split at decoded
  case isFalse => cases decoded
  case isTrue whole =>
    obtain rfl := Option.some.inj decoded
    simp only [String.toList_ofList]
    generalize pieces bytes = found at whole
    induction found with
    | nil => rfl
    | cons piece found ih =>
      obtain _ | c := piece
      · simp at whole
      · simpa using ih (by simpa using whole)

theorem decode?_eq_some_iff {bytes : Bytes} {text : String} :
    decode? bytes = some text ↔ encode text = bytes := by
  constructor
  · intro decoded
    have start : Reading.Accounts ⟨[], none⟩ [] := by
      intro cs here
      obtain rfl : cs = [] := by simpa using here
      rfl
    have account := accounts_read bytes start
    have whole := pieces_of_decode? decoded
    simp only [pieces] at whole
    generalize bytes.foldl Reading.step ⟨[], none⟩ = read at account whole
    obtain ⟨found, _ | begun⟩ := read
    · have here : found = (text.toList.map some).reverse := by
        rw [← whole, Reading.finish, List.reverse_reverse]
      exact (account text.toList here).symm
    · have illFormed : none ∈ text.toList.map some := by
        simp [← whole, Reading.finish]
      simp at illFormed
  · rintro rfl
    exact decode?_encode text

/-- The bytes are those of a text. -/
def IsText (bytes : Bytes) : Prop :=
  ∃ text, encode text = bytes

theorem isText_encode (text : String) : IsText (encode text) :=
  ⟨text, rfl⟩

theorem decode?_eq_none_iff {bytes : Bytes} : decode? bytes = none ↔ ¬ IsText bytes := by
  simp only [Option.eq_none_iff_forall_ne_some, ne_eq, decode?_eq_some_iff, IsText, not_exists]

/-! Bytes below 128 stand for themselves. -/

theorem encodeChar_ne_nil (c : Char) : String.utf8EncodeChar c ≠ [] := by
  have length := String.length_utf8EncodeChar c
  have positive := c.utf8Size_pos
  intro nothing
  rw [nothing, List.length_nil] at length
  omega

theorem encodeChar_of_last {c : Char} {b : UInt8} (ascii : b < 0x80)
    (last : (String.utf8EncodeChar c).getLast? = some b) :
    c = Char.ofNat b.toNat ∧ String.utf8EncodeChar c = [b] := by
  have high : ∀ n, ¬ UInt8.ofNat (n % 64 + 128) < 0x80 := by
    intro n
    simp [UInt8.lt_iff_toNat_lt]
    omega
  rw [String.utf8EncodeChar.eq_1] at last ⊢
  split at last
  case isTrue small =>
    have low : c.toNat % 2 ^ 8 = c.toNat := Nat.mod_eq_of_lt (Nat.lt_of_le_of_lt small (by decide))
    have same : UInt8.ofNat c.toNat = b := Option.some.inj last
    rw [← same, UInt8.toNat_ofNat', low, Char.ofNat_toNat, if_pos small]
    exact ⟨rfl, rfl⟩
  split at last
  · obtain rfl := Option.some.inj last
    exact absurd ascii (high _)
  split at last
  · obtain rfl := Option.some.inj last
    exact absurd ascii (high _)
  · obtain rfl := Option.some.inj last
    exact absurd ascii (high _)

theorem encodeChars_concat {cs : List Char} {bytes : Bytes} {b : UInt8} (ascii : b < 0x80)
    (encoded : encodeChars cs = bytes ++ [b]) :
    ∃ front, cs = front ++ [Char.ofNat b.toNat] ∧ encodeChars front = bytes := by
  obtain rfl | ⟨front, c, rfl⟩ := cs.eq_nil_or_concat'
  · simp [encodeChars] at encoded
  · have split : encodeChars front ++ String.utf8EncodeChar c = bytes ++ [b] := by
      simpa [encodeChars] using encoded
    have last : (String.utf8EncodeChar c).getLast? = some b := by
      rw [← List.getLast?_append_of_ne_nil (encodeChars front) (encodeChar_ne_nil c), split,
        List.getLast?_concat]
    obtain ⟨rfl, single⟩ := encodeChar_of_last ascii last
    rw [single] at split
    exact ⟨front, rfl, (List.append_inj' split rfl).1⟩

end SessionShell.Text.Utf8
