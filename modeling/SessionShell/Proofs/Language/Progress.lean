import SessionShell.Language.Parse

/-! The parser as a machine that takes one token at a time. It never looks ahead, and once it has
failed it stays so. `parseTokens_eq` says that it is the parser. -/

namespace SessionShell

namespace Parser

inductive Progress
  | ready (done : Program)
  /-- In a command with these parts so far, behind these stages of its statement. -/
  | command (done : Program) (stages : List Command) (parts : List Token)
  | piped (done : Program) (stages : List Command)
  | failed

namespace Progress

def needing (done : Program) : List Command → Progress
  | [] => .ready done
  | stages => .piped done stages

def step : Progress → Token → Progress
  | .ready done, .newline => .ready done
  | .ready _, .pipe | .ready _, .semicolon => .failed
  | .ready done, part => .command done [] [part]
  | .command done stages parts, .pipe => .piped done (stages ++ [commandOf parts])
  | .command done stages parts, .newline | .command done stages parts, .semicolon =>
    .ready (done ++ [.ofStages (stages ++ [commandOf parts])])
  | .command done stages parts, part => .command done stages (parts ++ [part])
  | .piped done stages, .newline => .piped done stages
  | .piped _ _, .pipe | .piped _ _, .semicolon => .failed
  | .piped done stages, part => .command done stages [part]
  | .failed, _ => .failed

def steps (p : Progress) (ts : List Token) : Progress :=
  ts.foldl step p

def finish : Progress → Except ParseError Program
  | .ready done => .ok done
  | .command done stages parts => .ok (done ++ [.ofStages (stages ++ [commandOf parts])])
  | .piped _ _ => .error .unexpectedEnd
  | .failed => .error .emptyCommand

@[simp] theorem steps_nil (p : Progress) : p.steps [] = p := rfl

@[simp] theorem steps_cons (p : Progress) (t : Token) (ts : List Token) :
    p.steps (t :: ts) = (p.step t).steps ts := rfl

theorem steps_append (p : Progress) (ts us : List Token) :
    p.steps (ts ++ us) = (p.steps ts).steps us := by
  simp [steps]

@[simp] theorem steps_failed (ts : List Token) : failed.steps ts = failed := by
  induction ts with
  | nil => rfl
  | cons t ts ih => exact ih

theorem step_newline_needing (done : Program) (stages : List Command) :
    (needing done stages).step .newline = needing done stages := by
  cases stages <;> rfl

theorem steps_dropNewlines (done : Program) (stages : List Command) (ts : List Token) :
    (needing done stages).steps (dropNewlines ts) = (needing done stages).steps ts := by
  induction ts with
  | nil => rfl
  | cons t ts ih =>
    by_cases newline : t = .newline
    · subst newline
      rw [steps_cons, step_newline_needing, ← ih]
      rfl
    · simp [dropNewlines, newline]

theorem step_needing {t : Token} (part : isPart t) (done : Program) (stages : List Command) :
    (needing done stages).step t = .command done stages [t] := by
  cases stages <;> cases t <;> first | rfl | cases part

theorem steps_parts (done : Program) (stages : List Command) (parts run : List Token)
    (all : ∀ t ∈ run, isPart t) :
    (command done stages parts).steps run = command done stages (parts ++ run) := by
  induction run generalizing parts with
  | nil => simp
  | cons t run ih =>
    have here : (command done stages parts).step t = command done stages (parts ++ [t]) := by
      have part := all t List.mem_cons_self
      cases t <;> first | rfl | cases part
    rw [steps_cons, here, ih _ fun u hu => all u (List.mem_cons_of_mem _ hu)]
    simp

end Progress

open Progress

theorem head?_dropNewlines (ts : List Token) : (dropNewlines ts).head? ≠ some .newline := by
  intro h
  have := List.head?_dropWhile_not (· == Token.newline) ts
  rw [dropNewlines] at h
  simp [h] at this

theorem command_of_part {t : Token} (part : isPart t) (ts : List Token) :
    command (t :: ts) = .ok (commandOf (t :: ts.takeWhile isPart), ts.dropWhile isPart) := by
  simp only [command, List.takeWhile_cons_of_pos part, List.dropWhile_cons_of_pos part]

theorem steps_command {ts : List Token} {c : Command} {rest : List Token}
    (h : command ts = .ok (c, rest)) (done : Program) (stages : List Command) :
    (∃ parts, c = commandOf parts ∧
      (needing done stages).steps ts = (Progress.command done stages parts).steps rest) ∧
    ∀ t ∈ rest.head?, isPart t = false := by
  cases ts with
  | nil => cases h
  | cons t ts =>
    by_cases part : isPart t
    · rw [command_of_part part] at h
      cases h
      have run : ∀ u ∈ ts.takeWhile isPart, isPart u := List.all_eq_true.mp List.all_takeWhile
      have behind := List.head?_dropWhile_not isPart ts
      refine ⟨⟨_, rfl, ?_⟩, fun u hu => ?_⟩
      · calc (needing done stages).steps (t :: ts)
          _ = (Progress.command done stages [t]).steps ts := by rw [steps_cons, step_needing part]
          _ = (Progress.command done stages [t]).steps
                (ts.takeWhile isPart ++ ts.dropWhile isPart) := by
              rw [List.takeWhile_append_dropWhile]
          _ = _ := by rw [steps_append, steps_parts _ _ _ _ run]; rfl
      · rw [Option.mem_def.mp hu] at behind
        exact behind
    · cases t <;> first | exact absurd rfl part | cases h

theorem finish_command {ts : List Token} {e : ParseError} (h : command ts = .error e)
    (start : ts.head? ≠ some .newline) (done : Program) (stages : List Command)
    (needed : stages = [] → ts ≠ []) : ((needing done stages).steps ts).finish = .error e := by
  cases ts with
  | nil =>
    cases h
    cases stages with
    | nil => exact absurd rfl (needed rfl)
    | cons c stages => rfl
  | cons t ts =>
    cases t with
    | newline => exact absurd rfl start
    | pipe => cases h; cases stages <;> simp [needing, step, finish]
    | semicolon => cases h; cases stages <;> simp [needing, step, finish]
    | word w => rw [command_of_part rfl] at h; cases h
    | assign name => rw [command_of_part rfl] at h; cases h

theorem needing_concat (done : Program) (stages : List Command) (c : Command) :
    needing done (stages ++ [c]) = .piped done (stages ++ [c]) := by
  cases stages <;> rfl

theorem steps_pipeline {ts : List Token} {cs : List Command} {rest : List Token}
    (h : pipeline ts = .ok (cs, rest)) (done : Program) (stages : List Command) :
    (∃ front parts, cs = front ++ [commandOf parts] ∧
      (needing done stages).steps ts =
        (Progress.command done (stages ++ front) parts).steps rest) ∧
    ∀ t ∈ rest.head?, t = .newline ∨ t = .semicolon := by
  fun_induction pipeline ts generalizing cs rest stages with
  | case1 ts e hc => cases h
  | case2 ts c rest hc e hp ih => cases h
  | case3 ts c more hc ds left hp ih =>
    cases h
    obtain ⟨⟨parts, rfl, read⟩, -⟩ := steps_command hc done stages
    obtain ⟨⟨front, last, rfl, readMore⟩, ends⟩ := ih hp (stages ++ [commandOf parts])
    rw [steps_dropNewlines, needing_concat] at readMore
    refine ⟨⟨commandOf parts :: front, last, rfl, ?_⟩, ends⟩
    rw [read, steps_cons]
    simpa [step] using readMore
  | case4 ts c more apart hc =>
    cases h
    obtain ⟨⟨parts, rfl, read⟩, ends⟩ := steps_command hc done stages
    refine ⟨⟨[], parts, rfl, by simpa using read⟩, fun t ht => ?_⟩
    have sep := ends t ht
    obtain ⟨left, rfl⟩ := List.head?_eq_some_iff.mp (Option.mem_def.mp ht)
    cases t with
    | newline => exact .inl rfl
    | semicolon => exact .inr rfl
    | pipe => exact absurd rfl (apart left)
    | word w => cases sep
    | assign name => cases sep

theorem finish_pipeline {ts : List Token} {e : ParseError} (h : pipeline ts = .error e)
    (start : ts.head? ≠ some .newline) (done : Program) (stages : List Command)
    (needed : stages = [] → ts ≠ []) : ((needing done stages).steps ts).finish = .error e := by
  fun_induction pipeline ts generalizing stages with
  | case1 ts e' hc => cases h; exact finish_command hc start done stages needed
  | case2 ts c more hc e' hp ih =>
    cases h
    obtain ⟨⟨parts, rfl, read⟩, -⟩ := steps_command hc done stages
    rw [read, steps_cons, step, ← needing_concat, ← steps_dropNewlines]
    exact ih hp (head?_dropNewlines more) _ (by simp)
  | case3 ts c more hc ds left hp ih => cases h
  | case4 ts c more apart hc => cases h

theorem steps_statement {ts : List Token} {cs : List Command} {t : Token} {rest : List Token}
    (h : pipeline ts = .ok (cs, t :: rest)) (done : Program) :
    (needing done []).steps ts = (Progress.ready (done ++ [.ofStages cs])).steps rest := by
  obtain ⟨⟨front, parts, rfl, read⟩, ends⟩ := steps_pipeline h done []
  rw [read, List.nil_append]
  rcases ends t rfl with rfl | rfl <;> rfl

theorem steps_ready (done : Program) (ts : List Token) :
    (Progress.ready done).steps ts = (needing done []).steps (dropNewlines ts) :=
  (steps_dropNewlines done [] ts).symm

theorem finish_steps (ts : List Token) (done : Program) :
    ((Progress.ready done).steps ts).finish = (program ts).map (done ++ ·) := by
  have start := head?_dropNewlines ts
  fun_induction program ts generalizing done with
  | case1 ts hd =>
    rw [steps_ready, hd]
    simp [needing, finish, Except.map]
  | case2 ts t more hd e hp =>
    rw [hd] at start
    rw [steps_ready, hd]
    exact finish_pipeline hp start done [] fun _ => List.cons_ne_nil t more
  | case3 ts t more hd cs hp =>
    obtain ⟨⟨front, parts, rfl, read⟩, -⟩ := steps_pipeline hp done []
    rw [steps_ready, hd, read]
    rfl
  | case4 ts t more hd cs rest hp e hr ih | case5 ts t more hd cs rest hp sts hr ih
  | case6 ts t more hd cs rest hp e hr ih | case7 ts t more hd cs rest hp sts hr ih =>
    rw [steps_ready, hd, steps_statement hp, ih _ (head?_dropNewlines rest), hr]
    simp [Except.map]
  | case8 ts t more hd cs u rest notNewline notSemicolon hp =>
    obtain ⟨-, ends⟩ := steps_pipeline hp done []
    rcases ends u rfl with rfl | rfl
    · exact absurd rfl notNewline
    · exact absurd rfl notSemicolon

theorem parseTokens_eq (ts : List Token) :
    parseTokens ts = ((Progress.ready []).steps ts).finish := by
  rw [finish_steps, parseTokens]
  cases program ts <;> simp [Except.map]

/-! Where in the tokens the statements and commands of a program are read. -/

theorem suffix_command {ts : List Token} {c : Command} {rest : List Token}
    (read : command ts = .ok (c, rest)) : rest <:+ ts := by
  simp only [command] at read
  split at read <;> cases read
  exact List.dropWhile_suffix isPart

theorem suffix_dropNewlines (ts : List Token) : dropNewlines ts <:+ ts :=
  List.dropWhile_suffix _

theorem suffix_behind {ts : List Token} {c : Command} {t : Token} {more : List Token}
    (read : command ts = .ok (c, t :: more)) : dropNewlines more <:+ ts :=
  (suffix_dropNewlines more).trans ((List.suffix_cons t more).trans (suffix_command read))

theorem suffix_pipeline {ts : List Token} {cs : List Command} {rest : List Token}
    (read : pipeline ts = .ok (cs, rest)) : rest <:+ ts := by
  fun_induction pipeline ts generalizing cs rest with
  | case1 ts e hc => cases read
  | case2 ts c more hc e hp ih => cases read
  | case3 ts c more hc ds left hp ih =>
    cases read
    exact (ih hp).trans (suffix_behind hc)
  | case4 ts c more _ hc =>
    cases read
    exact suffix_command hc

theorem command_of_pipeline {ts : List Token} {cs : List Command} {rest : List Token}
    (read : pipeline ts = .ok (cs, rest)) :
    cs ≠ [] ∧ ∀ c ∈ cs, ∃ place left, place <:+ ts ∧ command place = .ok (c, left) := by
  fun_induction pipeline ts generalizing cs rest with
  | case1 ts e hc => cases read
  | case2 ts c more hc e hp ih => cases read
  | case3 ts c more hc ds left hp ih =>
    cases read
    refine ⟨List.cons_ne_nil _ _, List.forall_mem_cons.mpr ⟨⟨ts, _, List.suffix_refl ts, hc⟩, ?_⟩⟩
    intro d member
    obtain ⟨place, left, within, here⟩ := (ih hp).2 d member
    exact ⟨place, left, within.trans (suffix_behind hc), here⟩
  | case4 ts c more _ hc =>
    cases read
    exact ⟨List.cons_ne_nil _ _, List.forall_mem_singleton.mpr ⟨ts, _, List.suffix_refl ts, hc⟩⟩

theorem pipeline_of_program {ts : List Token} {p : Program} (read : program ts = .ok p) :
    ∀ s ∈ p, ∃ place cs left, place <:+ ts ∧ pipeline place = .ok (cs, left) ∧ s = .ofStages cs := by
  have start (ts : List Token) := suffix_dropNewlines ts
  fun_induction program ts generalizing p with
  | case1 ts hd =>
    cases read
    exact List.forall_mem_nil _
  | case2 ts t more hd e hp => cases read
  | case3 ts t more hd cs hp =>
    cases read
    exact List.forall_mem_singleton.mpr ⟨_, cs, _, hd ▸ start ts, hp, rfl⟩
  | case4 ts t more hd cs rest hp e hr ih | case6 ts t more hd cs rest hp e hr ih => cases read
  | case5 ts t more hd cs rest hp sts hr ih | case7 ts t more hd cs rest hp sts hr ih =>
    cases read
    refine List.forall_mem_cons.mpr ⟨⟨_, cs, _, hd ▸ start ts, hp, rfl⟩, fun s member => ?_⟩
    obtain ⟨place, ds, left, within, here, same⟩ := ih hr s member
    have behind : rest <:+ ts :=
      (List.suffix_cons _ rest).trans ((suffix_pipeline hp).trans (hd ▸ start ts))
    exact ⟨place, ds, left, within.trans behind, here, same⟩
  | case8 ts t more hd cs u rest _ _ hp => cases read

end Parser

open SessionShell.Parser

theorem parse_of_tokens {text : String} {ts : List Token} (lexed : tokenize text = .ok ts) :
    parse text = ((Progress.ready []).steps ts).finish.mapError .parse := by
  rw [← parseTokens_eq]
  simp only [parse, lexed]
  cases parseTokens ts <;> rfl

theorem parse_of_lexError {text : String} {l : LexError} (stops : tokenize text = .error l) :
    parse text = .error (.lex l) := by
  simp only [parse, stops]

end SessionShell
