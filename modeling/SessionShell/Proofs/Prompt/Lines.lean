import SessionShell.Prompt
import SessionShell.Proofs.Text.Utf8
import SessionShell.Proofs.Translation.Trimming

/-! From bytes to lines. An input falls into pieces at its newlines, and call by call its reader
answers one piece after the other, each for itself: with its text, or with a failure if it is none.
Behind the last piece every call finds the end of the input. -/

namespace SessionShell

open Text

namespace BufferedInput

/-- What stands in front of the newlines of an input, and behind the last of them, unless that is
nothing. -/
def pieces (bytes : Bytes) : List Bytes :=
  let parts := bytes.splitOn 10
  if parts.getLast? = some [] then parts.dropLast else parts

def calls : Nat → BufferedInput → List (Except ReadFailure String)
  | 0, _ => []
  | n + 1, b => b.readLine.1 :: calls n b.readLine.2

inductive Answered (piece : Bytes) : Except ReadFailure String → Prop
  | line {text : String} (returns : Nat)
      (same : piece = Utf8.encode text ++ List.replicate returns 13)
      (stop : (Utf8.encode text).getLast? ≠ some 13) : Answered piece (.ok text)
  | refused (illFormed : ¬ Utf8.IsText piece) : Answered piece (.error .notText)

theorem pieces_nil : pieces [] = [] := rfl

theorem encodeChars_returns {w : List Char} (returns : ∀ c ∈ w, c = '\r') :
    Utf8.encodeChars w = List.replicate w.length 13 := by
  induction w with
  | nil => rfl
  | cons c w ih =>
    obtain ⟨rfl, later⟩ := List.forall_mem_cons.mp returns
    exact congrArg _ (ih later)

section Piece

variable {piece : Bytes} (one : 10 ∉ piece)
include one

theorem pieces_line (rest : Bytes) : pieces (piece ++ 10 :: rest) = piece :: pieces rest := by
  have other : ∀ b ∈ piece, (b == 10) = false := fun _ member =>
    beq_false_of_ne (ne_of_mem_of_not_mem member one)
  have cut : (piece ++ 10 :: rest).splitOn 10 = piece :: rest.splitOn 10 := by
    simp only [List.splitOn_eq_splitOnP]
    exact List.splitOnP_append_cons_of_forall_mem other 10 (beq_self_eq_true 10) rest
  obtain ⟨front, more, parts⟩ := List.exists_cons_of_ne_nil (List.splitOn_ne_nil 10 rest)
  simp only [pieces, cut, parts, List.getLast?_cons_cons, List.dropLast_cons_cons]
  split <;> rfl

theorem pieces_last (some : piece ≠ []) : pieces piece = [piece] := by
  simp [pieces, List.splitOn_eq_singleton one, some]

theorem takeWhile_piece (rest : Bytes) :
    (piece ++ rest).takeWhile (· ≠ 10) = piece ++ rest.takeWhile (· ≠ 10) :=
  List.takeWhile_append_of_pos fun _ member =>
    decide_eq_true (ne_of_mem_of_not_mem member one)

theorem readLine_line (rest : Bytes) :
    readLine ⟨piece ++ 10 :: rest⟩ = (lineText (piece ++ [10]), ⟨rest⟩) := by
  have front := takeWhile_piece one (10 :: rest)
  rw [List.takeWhile_cons_of_neg (by simp), List.append_nil] at front
  simp only [readLine, front]
  simp

theorem readLine_last (some : piece ≠ []) : readLine ⟨piece⟩ = (lineText piece, ⟨[]⟩) := by
  have front := takeWhile_piece one []
  rw [List.takeWhile_nil, List.append_nil] at front
  simp only [readLine, if_neg some, front]
  simp

/-- A text that is the encoding of the piece and a newline behind it loses the newline, and the
carriage returns of the piece, which has no newline of its own. -/
theorem answered_text {front : List Char} (same : Utf8.encodeChars front = piece)
    {newline : List Char} (removed : ∀ c ∈ newline, c == '\n' || c == '\r') :
    Answered piece
      (.ok (String.ofList (dropEndWhile (fun c => c == '\n' || c == '\r') (front ++ newline)))) := by
  obtain ⟨w, cut, blank, stop⟩ := dropEndWhile_append (fun c => c == '\n' || c == '\r') front
  generalize dropEndWhile _ front = kept at cut stop
  subst cut
  have returns : ∀ c ∈ w, c = '\r' := by
    intro c member
    rcases (Bool.or_eq_true _ _).mp (blank c member) with isNewline | isReturn
    · have inside : '\n' ∈ kept ++ w := List.mem_append_right kept (eq_of_beq isNewline ▸ member)
      exact absurd (same ▸ List.mem_flatMap.mpr ⟨'\n', inside, by decide⟩) one
    · exact eq_of_beq isReturn
  rw [List.append_assoc, dropEndWhile_eq (List.forall_mem_append.mpr ⟨blank, removed⟩) stop]
  refine .line w.length ?_ fun last => ?_
  · rw [← same, Utf8.encodeChars_append, encodeChars_returns returns, Utf8.encode,
      String.toList_ofList]
  · obtain ⟨bytes, split⟩ := List.getLast?_eq_some_iff.mp last
    rw [Utf8.encode, String.toList_ofList] at split
    obtain ⟨front, rfl, -⟩ := Utf8.encodeChars_concat (by decide) split
    have printed := stop '\r' (by simp)
    cases printed

theorem answered_lineText {ends : Bytes} (ended : ends = [] ∨ ends = [10]) :
    Answered piece (lineText (piece ++ ends)) := by
  unfold lineText
  split
  case h_1 text decoded =>
    have encoded : Utf8.encodeChars text.toList = piece ++ ends :=
      Utf8.decode?_eq_some_iff.mp decoded
    obtain rfl | rfl := ended
    · have answered := answered_text one (encoded.trans piece.append_nil) (List.forall_mem_nil _)
      rwa [List.append_nil] at answered
    · obtain ⟨front, whole, same⟩ := Utf8.encodeChars_concat (by decide) encoded
      rw [whole]
      exact answered_text one same (by simp)
  case h_2 decoded =>
    refine .refused fun ⟨text, encoded⟩ => Utf8.decode?_eq_none_iff.mp decoded ?_
    obtain rfl | rfl := ended
    · exact ⟨text, by rw [encoded, List.append_nil]⟩
    · exact ⟨text ++ "\n", by rw [Utf8.encode_append, encoded]; rfl⟩

end Piece

theorem calls_nil (n : Nat) : calls n ⟨[]⟩ = List.replicate n (.error .endOfInput) := by
  induction n with
  | zero => rfl
  | succ n ih => exact congrArg _ ih

theorem calls_pieces (bytes : Bytes) :
    ∃ given, List.Forall₂ Answered (pieces bytes) given ∧
      ∀ n, calls ((pieces bytes).length + n) ⟨bytes⟩ =
        given ++ List.replicate n (.error .endOfInput) := by
  induction bytes using line_induction (10 : UInt8) with
  | last piece one =>
    by_cases empty : piece = []
    · subst empty
      refine ⟨[], .nil, fun n => ?_⟩
      rw [pieces_nil, List.length_nil, Nat.zero_add, calls_nil]
      rfl
    · rw [pieces_last one empty]
      have answered := answered_lineText one (.inl rfl)
      rw [List.append_nil] at answered
      refine ⟨[lineText piece], .cons answered .nil, fun n => ?_⟩
      rw [List.length_singleton, Nat.add_comm, calls, readLine_last one empty, calls_nil]
      rfl
  | line piece rest one ih =>
    -- What a piece is answered with says nothing about the calls behind it.
    obtain ⟨given, answered, same⟩ := ih
    rw [pieces_line one]
    refine ⟨lineText (piece ++ [10]) :: given, .cons (answered_lineText one (.inr rfl)) answered,
      fun n => ?_⟩
    rw [List.length_cons, Nat.add_right_comm, calls, readLine_line one, same]
    rfl

theorem calls_lines (b : BufferedInput) :
    calls (b.lines.1.length + 1) b = b.lines.1.map .ok ++ [.error b.lines.2] := by
  fun_induction lines b with
  | case1 b empty => simp [calls, readLine, empty]
  | case2 b some f failed => simp [calls, failed]
  | case3 b some line read more ending later ih =>
    rw [later] at ih
    rw [List.length_cons, calls, read, ih]
    rfl

/-- The pieces of an input are answered in order, each for itself, and every call behind the last
one finds the end of the input. The lines that are taken are the answers up to the first failure. -/
theorem pieces_answered_in_order (bytes : Bytes) :
    (∃ given, List.Forall₂ Answered (pieces bytes) given ∧
      ∀ n, calls ((pieces bytes).length + n) ⟨bytes⟩ =
        given ++ List.replicate n (.error .endOfInput)) ∧
      let (taken, ending) := lines ⟨bytes⟩
      calls (taken.length + 1) ⟨bytes⟩ = taken.map .ok ++ [.error ending] :=
  ⟨calls_pieces bytes, calls_lines ⟨bytes⟩⟩

example :
    calls 5 ⟨[97, 13, 13, 10, 10, 255, 10, 98, 13]⟩ =
      [.ok "a", .ok "", .error .notText, .ok "b", .error .endOfInput] := by
  decide +kernel

end BufferedInput

end SessionShell
