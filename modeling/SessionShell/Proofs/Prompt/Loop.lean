import SessionShell.Proofs.Prompt.Dialogue
import SessionShell.Proofs.Shell.Flag

/-! The loop of the prompt. It goes round as long as the flag is up: each round asks for a statement
and executes its code, if there is one. It ends with the round that leaves the flag down, or where
the reader fails. -/

namespace SessionShell

/-- A question at the prompt, or a text that is offered to the translator. -/
def Event.isExchange : Event → Bool
  | .prompted _ _ | .translating _ _ => true
  | _ => false

namespace Desk

variable {ending f : ReadFailure}

/-- With a bound above the number of lines, only the reader can fail. Nothing is said of the text
that is not complete then. -/
theorem complete_error {t : Translator} {more text : String} {bound : Nat} {m : Machine}
    {seen : List Event} {lines : List String} {d : Desk} (enough : lines.length < bound)
    (failed : complete t more bound text ⟨.lines lines ending, m, seen⟩ = (.error f, d)) :
    f = ending ∧ ∃ machine asked, d = ⟨.lines [] ending, machine, seen ++ asked⟩ ∧
      ∀ e ∈ asked, e.isExchange = true := by
  -- a further line is taken off the lines and off the bound
  induction bound generalizing m seen text lines with
  | zero => exact absurd enough (Nat.not_lt_zero _)
  | succ bound ih =>
    rw [complete] at failed
    cases offered : t.translate text .single m with
    | mk code machine =>
      simp only [translate, see, offered] at failed
      cases code with
      | ok code => cases failed
      | error e =>
        by_cases incomplete : e.isIncomplete
        · cases lines with
          | nil =>
            simp only [incomplete, if_true, ask_nil] at failed
            cases failed
            refine ⟨rfl, machine, [.translating .single text, .prompted more none], ?_, ?_⟩
            · simp
            · simp [Event.isExchange]
          | cons line lines =>
            simp only [incomplete, if_true, ask_lines] at failed
            by_cases empty : line = ""
            · simp only [if_pos empty] at failed
              cases failed
            · simp only [if_neg empty] at failed
              obtain ⟨same, machine', asked, ends, silent⟩ :=
                ih (Nat.lt_of_succ_lt_succ enough) failed
              refine ⟨same, machine',
                [.translating .single text, .prompted more (some line)] ++ asked, ?_, ?_⟩
              · rw [ends]
                simp
              · intro e member
                rcases List.mem_append.mp member with first | later
                · simp only [List.mem_cons, List.not_mem_nil, or_false] at first
                  rcases first with rfl | rfl <;> rfl
                · exact silent e later
        · simp only [incomplete, if_false, Bool.false_eq_true] at failed
          cases failed

theorem handle_error {p : Prompts} {t : Translator} {m : Machine} {lines : List String} {d : Desk}
    (failed : handle p t ⟨.lines lines ending, m, []⟩ = (.error f, d)) :
    f = ending ∧ ∃ machine asked, d = ⟨.lines [] ending, machine, asked⟩ ∧
      ∀ e ∈ asked, e.isExchange = true := by
  cases lines with
  | nil =>
    rw [handle_nil] at failed
    cases failed
    exact ⟨rfl, m, _, rfl, by simp [Event.isExchange]⟩
  | cons line lines =>
    rw [handle_cons] at failed
    obtain ⟨same, machine, asked, ends, silent⟩ := complete_error (Nat.lt_succ_self _) failed
    refine ⟨same, machine, _, ends, fun e member => ?_⟩
    rcases List.mem_append.mp member with first | later
    · rw [List.nil_append, List.mem_singleton] at first
      rw [first]
      rfl
    · exact silent e later

theorem handle_ok {p : Prompts} {t : Translator} {m : Machine} {lines : List String}
    {answer : Option String} {d : Desk}
    (answered : handle p t ⟨.lines lines ending, m, []⟩ = (.ok answer, d)) :
    ∃ line further left, lines = line :: (further ++ left) ∧ d.reader = .lines left ending := by
  cases lines with
  | nil =>
    rw [handle_nil] at answered
    cases answered
  | cons line lines =>
    rw [handle_cons] at answered
    obtain ⟨left, ⟨further, suffix⟩, reader⟩ := reader_complete m
      ([] ++ [.prompted p.first (some line)]) ending t p.more (lines.length + 1) line lines
    rw [answered] at reader
    exact ⟨line, further, left, by rw [suffix], reader⟩

end Desk

variable {α κ : Type}

namespace Frontend

/-- Where the reader fails, nothing has happened but questions and offers. -/
inductive Pending (f : Frontend α κ) : Frontend α κ → Prop
  | intro (machine : Machine) {asked : List Event} (silent : ∀ e ∈ asked, e.isExchange = true) :
      Pending f ({ f with host.machine := machine }.see asked)

variable {c : Setup α κ} {f g : Frontend α κ} {r : Reader} {ending : ReadFailure}
  {lines : List String}

theorem handle_error {e : ReadFailure}
    (failed : f.handle c (.lines lines ending) = (.error e, r, g)) :
    e = ending ∧ r = .lines [] ending ∧ f.Pending g := by
  unfold handle at failed
  cases asked : Desk.handle c.prompts c.translator ⟨.lines lines ending, f.host.machine, []⟩ with
  | mk answer d =>
    rw [asked] at failed
    cases failed
    obtain ⟨same, machine, asked, rfl, silent⟩ := Desk.handle_error asked
    exact ⟨same, rfl, .intro machine silent⟩

theorem handle_ok {answer : Option String}
    (answered : f.handle c (.lines lines ending) = (.ok answer, r, g)) :
    ∃ line further left, lines = line :: (further ++ left) ∧ r = .lines left ending := by
  unfold handle at answered
  cases asked : Desk.handle c.prompts c.translator ⟨.lines lines ending, f.host.machine, []⟩ with
  | mk answer' d =>
    rw [asked] at answered
    cases answered
    exact Desk.handle_ok asked

theorem handle_frame {r' : Reader} {answer : Except ReadFailure (Option String)}
    (here : f.handle c r' = (answer, r, g)) :
    g.session = f.session ∧ g.host.running = f.host.running := by
  cases here
  exact ⟨rfl, rfl⟩

end Frontend

/-- Rounds of the loop, one after the other. Each begins with the flag up; its statement is reported
as wrong, or its code is executed. -/
inductive Rounds (c : Setup α κ) : Reader → Frontend α κ → List (Option String) →
    List Evaluation → Reader → Frontend α κ → Prop
  | done (r : Reader) (f : Frontend α κ) : Rounds c r f [] [] r f
  | refused {r r' last : Reader} {f g ends : Frontend α κ} {answers : List (Option String)}
      {made : List Evaluation} (up : f.host.running = true)
      (here : f.handle c r = (.ok none, r', g)) (later : Rounds c r' g answers made last ends) :
      Rounds c r f (none :: answers) made last ends
  | executed {r r' last : Reader} {f g ends : Frontend α κ} {code : String}
      {answers : List (Option String)} {made : List Evaluation} (up : f.host.running = true)
      (here : f.handle c r = (.ok (some code), r', g))
      (later : Rounds c r' (g.execute c code) answers made last ends) :
      Rounds c r f (some code :: answers) (g.evaluations c code ++ made) last ends

/-- How the loop ends behind its rounds. -/
inductive Ended (c : Setup α κ) (ending : ReadFailure) (r : Reader) (f : Frontend α κ) :
    Except ReadFailure Unit × Reader × Frontend α κ → Prop
  | stopped (down : f.host.running = false) : Ended c ending r f (.ok (), r, f)
  | starved {g : Frontend α κ} (up : f.host.running = true)
      (here : f.handle c r = (.error ending, .lines [] ending, g)) (pending : f.Pending g) :
      Ended c ending r f (.error ending, .lines [] ending, g)

namespace Ended

variable {c : Setup α κ} {ending : ReadFailure} {r : Reader} {f : Frontend α κ}
  {ended : Except ReadFailure Unit × Reader × Frontend α κ} (ends : Ended c ending r f ended)
include ends

theorem session_eq : ended.2.2.session = f.session := by
  cases ends with
  | stopped down => rfl
  | starved up here pending => cases pending; rfl

theorem ok_iff : ended.1 = .ok () ↔ f.host.running = false := by
  cases ends with
  | stopped down => exact ⟨fun _ => down, fun _ => rfl⟩
  | starved up here pending => simp [up]

end Ended

namespace Frontend

variable (c : Setup α κ) (ending : ReadFailure)

theorem promptLoop_down (bound : Nat) (r : Reader) {f : Frontend α κ}
    (down : f.host.running = false) : promptLoop c (bound + 1) r f = (.ok (), r, f) := by
  simp [promptLoop, down]

theorem promptLoop_up (bound : Nat) (r : Reader) {f : Frontend α κ} (up : f.host.running = true) :
    promptLoop c (bound + 1) r f =
      match f.handle c r with
      | (.error e, r, g) => (.error e, r, g)
      | (.ok none, r, g) => promptLoop c bound r g
      | (.ok (some code), r, g) => promptLoop c bound r (g.execute c code) := by
  have goes : ¬(!f.host.running) = true := by simp [up]
  exact if_neg goes

/-- With a bound above the number of lines the loop goes through rounds to its end, and with a
record it does the same. -/
theorem promptLoop_rounds {bound : Nat} {lines : List String} (enough : lines.length < bound)
    (f : Frontend α κ) :
    ∃ answers made left g, Rounds c (.lines lines ending) f answers made (.lines left ending) g ∧
      left <:+ lines ∧
      Ended c ending (.lines left ending) g (promptLoop c bound (.lines lines ending) f) ∧
      ∀ trace, (f.session = none → trace = []) →
        promptLoop c.tracing bound (.lines lines ending) (f.traced trace) =
          ((promptLoop c bound (.lines lines ending) f).1,
            (promptLoop c bound (.lines lines ending) f).2.1,
            (promptLoop c bound (.lines lines ending) f).2.2.traced (trace ++ made)) := by
  -- a round takes a line at least, so that the bound stays above the lines that are left
  induction bound generalizing lines f with
  | zero => exact absurd enough (Nat.not_lt_zero _)
  | succ bound ih =>
    cases flag : f.host.running with
    | false =>
      refine ⟨[], [], lines, f, .done _ _, List.suffix_rfl, ?_, fun trace _ => ?_⟩
      · rw [promptLoop_down c bound _ flag]
        exact .stopped flag
      · rw [promptLoop_down c bound _ flag, promptLoop_down c.tracing bound _ flag, List.append_nil]
    | true =>
      have traced (trace : List Evaluation) : (f.traced trace).host.running = true := flag
      rw [promptLoop_up c bound _ flag]
      simp only [promptLoop_up c.tracing bound _ (traced _), handle_tracing]
      cases here : f.handle c (.lines lines ending) with
      | mk answer rest =>
        obtain ⟨r, g⟩ := rest
        cases answer with
        | error e =>
          obtain ⟨rfl, rfl, pending⟩ := handle_error here
          refine ⟨[], [], lines, f, .done _ _, List.suffix_rfl, .starved flag here pending, ?_⟩
          intro trace _
          rw [List.append_nil]
        | ok answer =>
          obtain ⟨session, -⟩ := handle_frame here
          obtain ⟨line, further, left, rfl, rfl⟩ := handle_ok here
          have fewer : left.length < bound := by
            simp only [List.length_cons, List.length_append] at enough
            omega
          have suffix : left <:+ line :: (further ++ left) :=
            (List.suffix_append further left).trans (List.suffix_cons line _)
          cases answer with
          | none =>
            obtain ⟨answers, made, last, ends, rounds, shorter, ended, again⟩ := ih fewer g
            refine ⟨none :: answers, made, last, ends, .refused flag here rounds,
              shorter.trans suffix, ended, fun trace unstarted => ?_⟩
            exact again trace fun none => unstarted (session ▸ none)
          | some code =>
            obtain ⟨answers, made, last, ends, rounds, shorter, ended, again⟩ :=
              ih fewer (g.execute c code)
            refine ⟨some code :: answers, g.evaluations c code ++ made, last, ends,
              .executed flag here rounds, shorter.trans suffix, ended, fun trace unstarted => ?_⟩
            dsimp only
            rw [execute_tracing c code trace g fun none => unstarted (session ▸ none),
              again _ fun none => absurd none (session_execute c code g), List.append_assoc]

end Frontend

namespace Rounds

variable {c : Setup α κ} {r last : Reader} {f ends : Frontend α κ}
  {answers : List (Option String)} {made : List Evaluation}
  (rounds : Rounds c r f answers made last ends)
include rounds

/-- The codes that were answered are evaluated in their order, and the header in front of them where
the session is started. -/
theorem codes_eq :
    ∃ opening : List String, made.map Evaluation.code = opening ++ answers.filterMap id ∧
      (f.session ≠ none ∨ answers.filterMap id = [] → opening = []) ∧
      (f.session = none → answers.filterMap id ≠ [] →
        ∃ m, opening = (c.translator.header m).1.toOption.toList) := by
  induction rounds with
  | done r f => exact ⟨[], rfl, fun _ => rfl, fun _ any => absurd rfl any⟩
  | refused up here later ih =>
    obtain ⟨session, -⟩ := Frontend.handle_frame here
    rwa [session] at ih
  | @executed r r' last f g ends code answers made up here later ih =>
    obtain ⟨session, -⟩ := Frontend.handle_frame here
    obtain ⟨opening, codes, none, -⟩ := ih
    -- the session is there after this round, so that no header comes later
    rw [none (.inl (g.session_execute c code)), List.nil_append] at codes
    rw [List.map_append, codes, ← session]
    rcases g.evaluations_cases with ⟨alone, fails⟩ | ⟨header, opened, unstarted, heads, both⟩
    · refine ⟨[], ?_, fun _ => rfl, fun unstarted _ => ?_⟩
      · rw [alone]
        rfl
      · obtain ⟨e, fails⟩ := fails unstarted
        exact ⟨g.host.machine, by rw [fails]; rfl⟩
    · refine ⟨[header], ?_, ?_, fun _ _ => ⟨g.host.machine, by rw [heads]; rfl⟩⟩
      · rw [both]
        rfl
      · rintro (started | nothing)
        · exact absurd unstarted started
        · cases nothing

theorem made_eq_nil (unstarted : ends.session = none) : f.session = none ∧ made = [] := by
  induction rounds with
  | done r f => exact ⟨unstarted, rfl⟩
  | refused up here later ih =>
    obtain ⟨session, -⟩ := Frontend.handle_frame here
    rw [← session]
    exact ih unstarted
  | executed up here later ih => exact absurd (ih unstarted).1 (Frontend.session_execute c _ _)

theorem flag_eq : ends.host.running = (made.getLast?.map Evaluation.after).getD f.host.running := by
  induction rounds with
  | done r f => rfl
  | refused up here later ih =>
    obtain ⟨-, running⟩ := Frontend.handle_frame here
    rwa [running] at ih
  | @executed r r' last f g ends code answers made up here later ih =>
    rw [ih, List.getLast?_append]
    rcases g.evaluations_cases with ⟨alone, -⟩ | ⟨header, opened, -, -, both⟩
    · rw [alone]
      cases made.getLast? <;> rfl
    · rw [both]
      cases made.getLast? <;> rfl

theorem eq_of_down (down : f.host.running = false) :
    answers = [] ∧ made = [] ∧ last = r ∧ ends = f := by
  cases rounds with
  | done r f => exact ⟨rfl, rfl, rfl, rfl⟩
  | refused up here later => simp [down] at up
  | executed up here later => simp [down] at up

theorem last_of_down (up : f.host.running = true) (down : ends.host.running = false) :
    ∃ code before, answers.getLast? = some (some code) ∧
      made.getLast? = some ⟨code, before, false⟩ := by
  induction rounds with
  | done r f => exact absurd up (by simp [down])
  | refused _ here later ih =>
    obtain ⟨-, running⟩ := Frontend.handle_frame here
    obtain ⟨code, before, answered, evaluated⟩ := ih (running.trans up) down
    exact ⟨code, before, by rw [List.getLast?_cons, answered]; rfl, evaluated⟩
  | @executed r r' last f g ends code answers made _ here later ih =>
    cases flag : (g.execute c code).host.running with
    | true =>
      obtain ⟨last, before, answered, evaluated⟩ := ih flag down
      refine ⟨last, before, ?_, ?_⟩
      · rw [List.getLast?_cons, answered]
        rfl
      · rw [List.getLast?_append, evaluated]
        rfl
    | false =>
      obtain ⟨rfl, rfl, -, -⟩ := later.eq_of_down flag
      rcases g.evaluations_cases with ⟨alone, -⟩ | ⟨header, opened, -, -, both⟩
      · exact ⟨code, g.host.running, rfl, by rw [alone, flag]; rfl⟩
      · exact ⟨code, opened, rfl, by rw [both, flag]; rfl⟩

end Rounds

/-- The evaluation let the flag down. -/
def Evaluation.Clears (e : Evaluation) : Prop :=
  e.before = true ∧ e.after = false

variable {c : Setup α κ}

/-- An execution that leaves the flag down evaluates nothing behind what let it down but the code
that the header was in front of. -/
theorem Frontend.back_of_clears {code : String} {f : Frontend α κ}
    (down : (f.execute c code).host.running = false) {front back : List Evaluation} {e : Evaluation}
    (parts : f.evaluations c code = front ++ e :: back) (clears : e.Clears) :
    back = [] ∨ front = [] ∧ f.session = none ∧ back = [⟨code, false, false⟩] := by
  rcases f.evaluations_cases with ⟨alone, -⟩ | ⟨header, opened, unstarted, -, both⟩
  · rw [alone] at parts
    cases front with
    | nil => exact .inl (List.cons.inj parts).2.symm
    | cons first front => simp at parts
  · rw [both, down] at parts
    cases front with
    | nil =>
      obtain ⟨rfl, rfl⟩ := List.cons.inj parts
      obtain ⟨-, rfl : opened = false⟩ := clears
      exact .inr ⟨rfl, unstarted, rfl⟩
    | cons first front =>
      have fewer : front ++ e :: back = [_] := (List.cons.inj parts).2.symm
      cases front with
      | nil => exact .inl (List.cons.inj fewer).2
      | cons second front => simp at fewer

section Lowers

variable (lowers : c.interpreter.Lowers)
include lowers

theorem Frontend.execute_down_iff (code : String) {f : Frontend α κ} (up : f.host.running = true) :
    (f.execute c code).host.running = false ↔ ∃ e ∈ f.evaluations c code, e.Clears := by
  have kept {e : Evaluation} (member : e ∈ f.evaluations c code) (raised : e.after = true) :
      e.before = true := before_of_after lowers member raised
  rcases f.evaluations_cases with ⟨alone, -⟩ | ⟨header, opened, -, -, both⟩
  · rw [alone]
    constructor
    · intro down
      exact ⟨_, List.mem_singleton_self _, up, down⟩
    · rintro ⟨e, member, -, after⟩
      obtain rfl := List.mem_singleton.mp member
      exact after
  · rw [both] at kept ⊢
    constructor
    · intro down
      cases opened with
      | false => exact ⟨_, List.mem_cons_self, up, rfl⟩
      | true => exact ⟨_, List.mem_cons_of_mem _ (List.mem_singleton_self _), rfl, down⟩
    · rintro ⟨e, member, before, after⟩
      rcases List.mem_cons.mp member with rfl | member
      · -- the header let it down, so that the code found it down
        have last := kept (List.mem_cons_of_mem _ (List.mem_singleton_self _))
        dsimp only at after last
        rw [after] at last
        simpa using last
      · obtain rfl := List.mem_singleton.mp member
        exact after

namespace Rounds

variable {r last : Reader} {f ends : Frontend α κ} {answers : List (Option String)}
  {made : List Evaluation} (rounds : Rounds c r f answers made last ends)
  (up : f.host.running = true)
include rounds up

theorem down_iff : ends.host.running = false ↔ ∃ e ∈ made, e.Clears := by
  induction rounds with
  | done r f => simp [up]
  | refused _ here later ih =>
    obtain ⟨-, running⟩ := Frontend.handle_frame here
    exact ih (running.trans up)
  | @executed r r' last f g ends code answers made _ here later ih =>
    obtain ⟨-, running⟩ := Frontend.handle_frame here
    have ended := Frontend.execute_down_iff lowers code (running.trans up)
    cases flag : (g.execute c code).host.running with
    | false =>
      obtain ⟨-, rfl, -, rfl⟩ := later.eq_of_down flag
      rw [List.append_nil, ended]
    | true =>
      have none : ¬∃ e ∈ g.evaluations c code, e.Clears := by
        rw [← ended, flag]
        exact Bool.noConfusion
      rw [ih flag]
      constructor
      · rintro ⟨e, member, clears⟩
        exact ⟨e, List.mem_append_right _ member, clears⟩
      · rintro ⟨e, member, clears⟩
        rcases List.mem_append.mp member with here | later
        · exact absurd ⟨e, here, clears⟩ none
        · exact ⟨e, later, clears⟩

/-- Nothing is evaluated behind the code that let the flag down. If it was the header, the code in
front of which it was evaluated is evaluated all the same. -/
theorem back_of_clears {front back : List Evaluation} {e : Evaluation}
    (parts : made = front ++ e :: back) (clears : e.Clears) :
    back = [] ∨
      front = [] ∧ f.session = none ∧
        ∃ code, back = [⟨code, false, false⟩] ∧ answers.filterMap id = [code] := by
  induction rounds generalizing front with
  | done r f => simp at parts
  | refused _ here later ih =>
    obtain ⟨session, running⟩ := Frontend.handle_frame here
    rw [← session]
    exact ih (running.trans up) parts
  | @executed r r' last f g ends code answers made _ here later ih =>
    obtain ⟨session, running⟩ := Frontend.handle_frame here
    have ended := Frontend.execute_down_iff lowers code (running.trans up)
    cases flag : (g.execute c code).host.running with
    | false =>
      obtain ⟨rfl, rfl, -, -⟩ := later.eq_of_down flag
      rw [List.append_nil] at parts
      rcases Frontend.back_of_clears flag parts clears with nothing | ⟨header, unstarted, rfl⟩
      · exact .inl nothing
      · exact .inr ⟨header, session ▸ unstarted, code, rfl, rfl⟩
    | true =>
      have none : ¬∃ e ∈ g.evaluations c code, e.Clears := by
        rw [← ended, flag]
        exact Bool.noConfusion
      -- it was let down in a later round, which does not start the session
      rcases List.append_eq_append_iff.mp parts with ⟨between, -, behind⟩ | ⟨between, here, behind⟩
      · rcases ih flag behind with nothing | ⟨-, unstarted, -⟩
        · exact .inl nothing
        · exact absurd unstarted (g.session_execute c code)
      · cases between with
        | nil =>
          have here : made = [] ++ e :: back := behind.symm
          rcases ih flag here with nothing | ⟨-, unstarted, -⟩
          · exact .inl nothing
          · exact absurd unstarted (g.session_execute c code)
        | cons first between =>
          obtain ⟨rfl, -⟩ := List.cons.inj behind
          exact absurd ⟨e, here ▸ List.mem_append_right front List.mem_cons_self, clears⟩ none

end Rounds

end Lowers

namespace Frontend

def greeted (f : Frontend α κ) : Frontend α κ :=
  { f.report (.info "Interpreter:") with host.running := true }

theorem prompt_made (c : Setup α κ) (lines : List String) (ending : ReadFailure)
    (f : Frontend α κ) :
    let reader := Reader.lines lines ending
    let ended := f.prompt c reader
    let recorded := (f.traced []).prompt c.tracing reader
    ∃ answers made left g, Rounds c reader f.greeted answers made (.lines left ending) g ∧
      left <:+ lines ∧ Ended c ending (.lines left ending) g ended ∧
      recorded = (ended.1, ended.2.1, ended.2.2.traced made) ∧ recorded.2.2.trace = made := by
  intro reader ended recorded
  obtain ⟨answers, made, left, g, rounds, suffix, (ends : Ended c ending _ g ended), again⟩ :=
    promptLoop_rounds c ending (Nat.lt_succ_self lines.length) f.greeted
  have same : recorded = (ended.1, ended.2.1, ended.2.2.traced made) := again [] fun _ => rfl
  refine ⟨answers, made, left, g, rounds, suffix, ends, same, ?_⟩
  have session := ends.session_eq
  rw [same]
  unfold trace traced
  dsimp only
  cases left : ended.2.2.session with
  | none => exact (rounds.made_eq_nil (session ▸ left)).2.symm
  | some s => rfl

/-- How a run of the prompt on these lines goes: the rounds that it is made of, with what they answered
and what was evaluated in them, and how it ends behind them. -/
structure Prompted (c : Setup α κ) (lines : List String) (ending : ReadFailure) (f : Frontend α κ)
    (answers : List (Option String)) (made : List Evaluation) (left : List String)
    (g : Frontend α κ) (ended : Except ReadFailure Unit × Reader × Frontend α κ) : Prop where
  rounds : Rounds c (.lines lines ending) f.greeted answers made (.lines left ending) g
  suffix : left <:+ lines
  ends : Ended c ending (.lines left ending) g ended
  recorded : (f.traced []).prompt c.tracing (.lines lines ending) =
    (ended.1, ended.2.1, ended.2.2.traced made)
  trace : ((f.traced []).prompt c.tracing (.lines lines ending)).2.2.trace = made
  codes : ∃ opening : List String, made.map Evaluation.code = opening ++ answers.filterMap id ∧
    (f.session ≠ none ∨ answers.filterMap id = [] → opening = []) ∧
    (f.session = none → answers.filterMap id ≠ [] →
      ∃ m, opening = (c.translator.header m).1.toOption.toList)
  ok_iff : ended.1 = .ok () ↔ ∃ code before, answers.getLast? = some (some code) ∧
    made.getLast? = some ⟨code, before, false⟩
  ok_iff_clears : c.interpreter.Lowers → (ended.1 = .ok () ↔ ∃ e ∈ made, e.Clears)
  /-- Only the code that the header was in front of is evaluated behind what let the flag down. -/
  nothing_behind : c.interpreter.Lowers → ∀ front e back, made = front ++ e :: back → e.Clears →
    back = [] ∨ front = [] ∧ f.session = none ∧
      ∃ code, back = [⟨code, false, false⟩] ∧ answers.filterMap id = [code]
  any_flag : ∀ flag, { f with host.running := flag }.prompt c (.lines lines ending) = ended

/-- The prompt goes through rounds until the flag is down or the reader fails. The codes that the
rounds answered are what is evaluated in them, once and in their order, with the header in front if
they start the session. The prompt ends well just if the last round executed a code that left the
flag down; where no fragment raises it again, just if an evaluation let it down, behind which
nothing is evaluated but the code that the header was in front of. -/
theorem prompt_rounds (c : Setup α κ) (lines : List String) (ending : ReadFailure)
    (f : Frontend α κ) :
    ∃ answers made left g,
      Prompted c lines ending f answers made left g (f.prompt c (.lines lines ending)) := by
  obtain ⟨answers, made, left, g, rounds, suffix, ends, recorded, trace⟩ :=
    prompt_made c lines ending f
  refine ⟨answers, made, left, g, {
    rounds, suffix, ends, recorded, trace
    codes := rounds.codes_eq
    ok_iff := ends.ok_iff.trans ⟨rounds.last_of_down rfl, ?_⟩
    ok_iff_clears := fun lowers => ends.ok_iff.trans (rounds.down_iff lowers rfl)
    nothing_behind := fun lowers front e back parts clears =>
      rounds.back_of_clears lowers rfl parts clears
    any_flag := fun _ => rfl }⟩
  rintro ⟨code, before, -, evaluated⟩
  rw [rounds.flag_eq, evaluated]
  rfl

/-- A substitution in the second line of a statement ends the prompt. The statement runs to its end,
and the line behind it is left. -/
theorem prompt_rounds_substitution :
    let m : Machine :=
      { files := { entries := ∅ }, directory := [], environment := ∅, input := ⟨[], []⟩ }
    let c : Setup Value ShellContext :=
      { translator := Checked.translator false
        interpreter := shellInterpreter fun _ m => (.error .noEntry, m)
        exit := .native .exit, names := .ofGlobals ∅, context := {} }
    let f : Frontend Value ShellContext := { host := ⟨m, false⟩ }
    let reader := Reader.lines ["echo 'a", "b' $(exit) c", "echo d"] .endOfInput
    c.interpreter.Lowers ∧ (f.prompt c reader).1 = .ok () ∧
      (f.prompt c reader).2.1 = .lines ["echo d"] .endOfInput ∧
      .shell (Text.Utf8.encode "a\nb  c\n") ∈ (f.prompt c reader).2.2.seen ∧
      ((f.traced []).prompt c.tracing reader).2.2.trace =
        [⟨"HUSK_VERSION=0.1.0\n", true, true⟩, ⟨"echo 'a\nb' $(exit) c", true, false⟩] := by
  intro m c f reader
  have lowers : c.interpreter.Lowers := shellInterpreter_lowers _
  have rest : (f.prompt c reader).2.1 = .lines ["echo d"] .endOfInput := by decide +kernel
  have written : .shell (Text.Utf8.encode "a\nb  c\n") ∈ (f.prompt c reader).2.2.seen := by
    decide +kernel
  have evaluated : ((f.traced []).prompt c.tracing reader).2.2.trace =
      [⟨"HUSK_VERSION=0.1.0\n", true, true⟩, ⟨"echo 'a\nb' $(exit) c", true, false⟩] := by
    decide +kernel
  obtain ⟨answers, made, left, g, prompted⟩ :=
    prompt_rounds c ["echo 'a", "b' $(exit) c", "echo d"] .endOfInput f
  refine ⟨lowers, (prompted.ok_iff_clears lowers).mpr ?_, rest, written, evaluated⟩
  rw [← prompted.trace, evaluated]
  exact ⟨_, List.mem_cons_of_mem _ (List.mem_singleton_self _), rfl, rfl⟩

end Frontend

end SessionShell
