import SessionShell.Language.Lexer

/-! What the lexer has emitted does not change what it reads. So the tokens of a text begin with
those emitted before any of its prefixes ends. -/

namespace SessionShell

namespace Lexer

namespace State

def behind (ts : List Token) (s : State) : State :=
  { s with emitted := s.emitted ++ ts.reverse }

variable (ts : List Token) (s : State)

@[simp] theorem behind_mode : (s.behind ts).mode = s.mode := rfl

@[simp] theorem tokens_behind : (s.behind ts).tokens = ts ++ s.tokens := by
  simp [tokens, behind]

theorem behind_tokens : { s with emitted := [] }.behind s.tokens = s := by
  simp [tokens, behind]

@[simp] theorem emit_behind (t : Token) : (s.behind ts).emit t = (s.emit t).behind ts := rfl

@[simp] theorem push_behind (c : Char) : (s.behind ts).push c = (s.push c).behind ts := rfl

@[simp] theorem addPart_behind (part : WordPart) :
    (s.behind ts).addPart part = (s.addPart part).behind ts := rfl

@[simp] theorem flush_behind : (s.behind ts).flush = s.flush.behind ts := by
  by_cases empty : s.buffer.isEmpty <;> simp [flush, behind, empty]

@[simp] theorem endWord_behind : (s.behind ts).endWord = s.endWord.behind ts := by
  simp only [endWord, flush_behind]
  rfl

@[simp] theorem assign_behind : (s.behind ts).assign = s.assign.behind ts := rfl

@[simp] theorem setMode_behind (m : Mode) :
    ({ s.behind ts with mode := m } : State) = ({ s with mode := m } : State).behind ts := rfl

@[simp] theorem canAssign_behind : (s.behind ts).canAssign = s.canAssign := rfl

theorem equals_behind :
    (if (s.behind ts).canAssign then (s.behind ts).assign else (s.behind ts).push '=') =
      (if s.canAssign then s.assign else s.push '=').behind ts := by
  simp only [canAssign_behind, assign_behind, push_behind]
  exact (apply_ite (behind ts) _ _ _).symm

@[simp] theorem stepWord_behind (c : Char) :
    (s.behind ts).stepWord c = (s.stepWord c).behind ts := by
  unfold stepWord
  split
  -- what is emitted does not decide whether an equals sign assigns
  case h_11 => exact equals_behind ts { s with mode := .word }
  all_goals first | rfl | simp only [setMode_behind, endWord_behind, emit_behind]

@[simp] theorem stepDouble_behind (c : Char) :
    (s.behind ts).stepDouble c = (s.stepDouble c).behind ts := by
  unfold stepDouble
  split <;> rfl

@[simp] theorem stepGap_behind (c : Char) :
    (s.behind ts).stepGap c = (s.stepGap c).behind ts := by
  unfold stepGap
  split <;> first | rfl | exact stepWord_behind ts s c

@[simp] theorem stepPlain_behind (around : Around) (c : Char) :
    (s.behind ts).stepPlain around c = (s.stepPlain around c).behind ts := by
  cases around <;> simp [stepPlain]

theorem stepDollar_behind (around : Around) (c : Char) :
    (s.behind ts).stepDollar around c = (s.stepDollar around c).behind ts := by
  simp only [stepDollar, flush_behind, addPart_behind, setMode_behind, push_behind,
    stepPlain_behind, ← apply_ite (behind ts)]

theorem stepName_behind (around : Around) (chars : List Char) (c : Char) :
    (s.behind ts).stepName around chars c = (s.stepName around chars c).behind ts := by
  unfold stepName
  split
  · rfl
  · simp

theorem stepInside_behind (around : Around) (bracket : Bracket) (depth : Nat) (chars : List Char)
    (c : Char) : (s.behind ts).stepInside around bracket depth chars c =
      (s.stepInside around bracket depth chars c).behind ts := by
  unfold stepInside
  split
  · rfl
  · split
    · cases depth <;> rfl
    · rfl

theorem step_behind (c : Char) : (s.behind ts).step c = (s.step c).behind ts := by
  unfold step
  rw [behind_mode]
  split
  · exact stepGap_behind ts s c
  · split <;> rfl
  · split <;> rfl
  · exact stepWord_behind ts s c
  · split <;> rfl
  · split <;> rfl
  · exact stepDouble_behind ts s c
  · split <;> rfl
  · exact stepDollar_behind ts s _ c
  · exact stepName_behind ts s _ _ c
  · exact stepInside_behind ts s _ _ _ _ c

theorem finish_behind : (s.behind ts).finish = s.finish.map (ts ++ ·) := by
  unfold finish
  rw [behind_mode]
  split <;> simp [Except.map]

end State

theorem read_behind (ts : List Token) (s : State) (cs : List Char) :
    read (s.behind ts) cs = (read s cs).behind ts := by
  induction cs generalizing s with
  | nil => rfl
  | cons c cs ih => rw [read_cons, read_cons, State.step_behind, ih]

theorem finish_read (s : State) (cs : List Char) :
    (read s cs).finish = (read { s with emitted := [] } cs).finish.map (s.tokens ++ ·) := by
  have h := read_behind s.tokens { s with emitted := [] } cs
  rw [State.behind_tokens] at h
  rw [h, State.finish_behind]

theorem finish_eq_ok {s : State} {ts : List Token} (h : s.finish = .ok ts) :
    ts = s.tokens ∨ ∃ w, ts = s.tokens ++ [.word w] := by
  unfold State.finish at h
  split at h <;> cases h
  · exact .inl rfl
  · exact .inl rfl
  · exact .inr ⟨_, List.reverse_cons⟩
  · exact .inr ⟨_, List.reverse_cons⟩
  · exact .inr ⟨_, List.reverse_cons⟩

end Lexer

theorem tokenize_append {text more : String} {ts : List Token}
    (h : tokenize (text ++ more) = .ok ts) : ∃ rest, ts = tokensBefore text ++ rest := by
  rw [tokenize, String.toList_append, Lexer.read_append, Lexer.finish_read] at h
  cases rest : (Lexer.read { Lexer.read {} text.toList with emitted := [] } more.toList).finish with
  | error e => rw [rest] at h; cases h
  | ok us => rw [rest] at h; cases h; exact ⟨us, rfl⟩

end SessionShell
