import SessionShell.Proofs.Shell.Naming
import SessionShell.Proofs.Shell.Stream

/-! What builtins write. A builtin first comes to its texts or to a failure, with nothing to do with
the output stream; then it writes the texts, or the message of the failure. So it fails only if the
stream refuses, and what it does to the state is the same on every stream. -/

namespace SessionShell

open Text.Utf8 (encode)

namespace Shell

variable {α β : Type}

section Writing

variable {s : ShellState}

theorem write_accepted (accepts : s.out.temper ≠ .refusing) (bytes : Bytes) :
    write bytes s = (.ok (), { s with out := s.out.extended bytes }) := by
  by_cases nothing : bytes = []
  · simp [write, Sink.write, nothing, ofIo]
  · simp [write, Sink.write, nothing, accepts, ofIo, Sink.extended]

theorem write_refused (refuses : s.out.temper = .refusing) (bytes : Bytes) :
    write bytes s = (if bytes = [] then .ok () else .error { cause := .io .writeRefused }, s) := by
  by_cases nothing : bytes = []
  · simp [write, Sink.write, nothing, ofIo]
  · simp [write, Sink.write, nothing, refuses, ofIo, fail]

end Writing

theorem write_append (front back : Bytes) :
    (write front >>= fun _ => write back) = write (front ++ back) := by
  funext s
  rw [bind_apply]
  by_cases refuses : s.out.temper = .refusing
  · rw [write_refused refuses, write_refused refuses]
    by_cases nothing : front = []
    · simp [nothing, write_refused refuses]
    · simp [nothing]
  · rw [write_accepted refuses, write_accepted refuses]
    dsimp only
    rw [write_accepted (by exact refuses), Sink.extended_extended]

def answer (status : Int32) (bytes : Bytes) : Shell Int32 := do
  write bytes
  return status

section Answer

variable {s : ShellState} (status : Int32) (bytes : Bytes)

theorem answer_accepted (accepts : s.out.temper ≠ .refusing) :
    answer status bytes s = (.ok status, { s with out := s.out.extended bytes }) := by
  rw [answer, bind_apply, write_accepted accepts]
  rfl

theorem answer_refused (refuses : s.out.temper = .refusing) :
    answer status bytes s =
      (if bytes = [] then .ok status else .error { cause := .io .writeRefused }, s) := by
  rw [answer, bind_apply, write_refused refuses]
  by_cases nothing : bytes = []
  · simp [nothing]
  · simp [nothing]

theorem answer_orElseWith {handle : Failure → Shell Int32}
    (handles : ∀ e, ∃ status more, more ≠ [] ∧ handle e = answer status more) :
    (answer status bytes).orElseWith handle = answer status bytes := by
  funext s
  by_cases refuses : s.out.temper = .refusing
  · by_cases nothing : bytes = []
    · simp [orElseWith, answer_refused, refuses, nothing]
    · obtain ⟨other, more, nonempty, handled⟩ := handles { cause := .io .writeRefused }
      simp [orElseWith, answer_refused, refuses, nothing, handled, nonempty]
  · simp [orElseWith, answer_accepted, refuses]

end Answer

/-- The step has nothing to do with the output stream. It may take from the input, and names are
changed only if it is of that kind. -/
def Inward (naming : Prop) (step : Shell α) : Prop :=
  ∀ s : ShellState, ∃ (result : Except Failure α) (names : Names Value) (input : StandardInput),
    (names ≠ s.names → naming) ∧
      ∀ out, step { s with out } = (result, { s with out, names, host.machine.input := input })

namespace Inward

variable {naming : Prop}

theorem pure (a : α) : Inward naming (Pure.pure a : Shell α) :=
  fun s => ⟨.ok a, s.names, s.host.machine.input, fun changed => absurd rfl changed, fun _ => rfl⟩

theorem throw (e : Failure) : Inward naming (MonadExcept.throw e : Shell α) :=
  fun s => ⟨.error e, s.names, s.host.machine.input, fun changed => absurd rfl changed,
    fun _ => rfl⟩

theorem bind {step : Shell α} {next : α → Shell β} (first : Inward naming step)
    (rest : ∀ a, Inward naming (next a)) : Inward naming (step >>= next) := by
  intro s
  obtain ⟨result, names, input, changes, ran⟩ := first s
  cases result with
  | error e =>
    refine ⟨.error e, names, input, changes, ?_⟩
    intro out
    rw [bind_apply, ran]
  | ok a =>
    obtain ⟨result, others, left, differs, later⟩ :=
      rest a { s with names, host.machine.input := input }
    refine ⟨result, others, left, ?_, ?_⟩
    · intro changed
      by_cases same : others = names
      · exact changes (same ▸ changed)
      · exact differs same
    · intro out
      rw [bind_apply, ran]
      exact later out

theorem inspect {next : ShellState → Shell α} (blind : ∀ s out, next { s with out } = next s)
    (rest : ∀ s, Inward naming (next s)) : Inward naming (get >>= next) := by
  intro s
  obtain ⟨result, names, input, changes, ran⟩ := rest s s
  refine ⟨result, names, input, changes, ?_⟩
  intro out
  rw [bind_apply, get_apply, ← ran out, ← blind s out]

theorem changing {f : Names Value → Names Value} (named : naming) : Inward naming (changeNames f) :=
  fun s => ⟨.ok (), f s.names, s.host.machine.input, fun _ => named, fun _ => rfl⟩

theorem readInput : Inward naming Shell.readInput :=
  fun s => ⟨.ok s.host.machine.input.readAll.1, s.names, s.host.machine.input.readAll.2,
    fun changed => absurd rfl changed, fun _ => rfl⟩

end Inward

end Shell

namespace Usage

theorem refused_of_help {u : Usage} {options helpSeen : Bool} {found : Scanned} {args : List String}
    (seen : helpSeen = true) :
    u.scanFrom options helpSeen found args = .error (.help u.help) ∨
      ∃ message, u.scanFrom options helpSeen found args = .error (.wrong message) := by
  fun_induction scanFrom u options helpSeen found args <;> grind

theorem scan_help (u : Usage) : u.scan ["help"] = .error (.help u.help) := by
  simp [scan, scanFrom, isHelp]

end Usage

def Refusal.status : Refusal → Int32
  | .help _ => 0
  | .wrong _ => 1

namespace Builtin

open Shell

def texts (b : Builtin) (args : Scanned) (input : Option Bytes) : Shell (List String) := do
  match b with
  | .echo =>
    let ending := if args.has noNewline then "" else "\n"
    return [" ".intercalate args.positionals ++ ending]
  | .cat => return (← inputs args.positionals input).map (·.2)
  | .wc => return (← inputs args.positionals input).map fun (file, text) => counts file text
  | .assignLocals =>
    defineLocals args.positionals
    return []
  | .unset =>
    changeNames fun names => args.positionals.foldl (fun names name => names.unset name) names
    return []

def complaint (b : Builtin) (e : Failure) : String :=
  b.name ++ ": " ++ e.message ++ "\n"

theorem encode_complaint_ne_nil (b : Builtin) (e : Failure) : encode (b.complaint e) ≠ [] := by
  have newline : encode "\n" = [10] := by decide +kernel
  simp [complaint, newline]

theorem writeAll_eq (ts : List String) : writeAll ts = write (ts.flatMap encode) := by
  induction ts with
  | nil =>
    funext s
    simp [writeAll, write, Sink.write, ofIo]
  | cons text rest ih =>
    rw [writeAll, ih, List.flatMap_cons, ← write_append]
    rfl

theorem body_eq (b : Builtin) (args : Scanned) (input : Option Bytes) :
    b.body args input = (do
      let ts ← b.texts args input
      answer 0 (ts.flatMap encode)) := by
  have empty : writeAll [] = pure () := rfl
  cases b with
  | echo =>
    simp only [body, texts, answer, pure_bind, List.flatMap_cons, List.flatMap_nil, List.append_nil]
    rfl
  | cat => simp only [body, texts, answer, writeAll_eq, bind_assoc, pure_bind]
  | wc => simp only [body, texts, answer, writeAll_eq, bind_assoc, pure_bind]
  | assignLocals => simp only [body, texts, answer, ← writeAll_eq, empty, bind_assoc, pure_bind]
  | unset => simp only [body, texts, answer, ← writeAll_eq, empty, bind_assoc, pure_bind]

section Run

variable {b : Builtin} {args : List String} {input : Option Bytes} {s t : ShellState}

theorem run_of_refusal {refusal : Refusal} (refused : b.usage.scan args = .error refusal) :
    b.run args input = answer refusal.status (encode refusal.text) := by
  rw [run, refused]
  rfl

theorem run_of_scan {found : Scanned} (scanned : b.usage.scan args = .ok found) :
    b.run args input =
      (b.body found input).orElseWith fun e => answer 1 (encode (b.complaint e)) := by
  rw [run, scanned]
  rfl

theorem run_of_texts {found : Scanned} (scanned : b.usage.scan args = .ok found) {ts : List String}
    (comes : b.texts found input s = (.ok ts, t)) :
    b.run args input s = answer 0 (ts.flatMap encode) t := by
  have handled := congrFun (answer_orElseWith 0 (ts.flatMap encode)
    fun e => ⟨1, encode (b.complaint e), encode_complaint_ne_nil b e, rfl⟩) t
  rw [run_of_scan scanned, body_eq, orElseWith, bind_apply, comes]
  exact handled

theorem run_of_failure {found : Scanned} (scanned : b.usage.scan args = .ok found) {e : Failure}
    (fails : b.texts found input s = (.error e, t)) :
    b.run args input s = answer 1 (encode (b.complaint e)) t := by
  rw [run_of_scan scanned, body_eq, orElseWith, bind_apply, fails]

end Run

section Inward

variable {naming : Prop}

theorem inward_readFiles (files : List String) : Inward naming (readFiles files) := by
  have one (file : String) : Inward naming (readFile file) := by
    refine .inspect (fun _ _ => rfl) ?_
    intro s
    dsimp only
    split
    · exact .pure _
    · exact .throw _
  induction files with
  | nil => exact .pure _
  | cons file rest ih => exact (one file).bind fun _ => ih.bind fun _ => .pure _

theorem inward_readText (input : Option Bytes) : Inward naming (readText input) := by
  have given (bytes : Bytes) : Inward naming (readText (some bytes)) := by
    refine .bind (.pure bytes) ?_
    intro bytes
    dsimp only
    split
    · exact .pure _
    · exact .throw _
  cases input with
  | some bytes => exact given bytes
  | none => exact .bind .readInput given

theorem inward_inputs (files : List String) (input : Option Bytes) :
    Inward naming (inputs files input) := by
  cases files with
  | nil => exact (inward_readText input).bind fun _ => .pure _
  | cons file rest => exact inward_readFiles _

theorem inward_defineLocals (named : naming) (args : List String) :
    Inward naming (defineLocals args) := by
  induction args with
  | nil => exact .pure _
  | cons arg rest ih =>
    unfold defineLocals
    dsimp only
    split
    · exact .bind (.changing named) fun _ => ih
    · exact .throw _

theorem inward_texts (b : Builtin) (args : Scanned) (input : Option Bytes) :
    Inward (b = .assignLocals ∨ b = .unset) (b.texts args input) := by
  cases b with
  | echo => exact .pure _
  | cat => exact (inward_inputs _ _).bind fun _ => .pure _
  | wc => exact (inward_inputs _ _).bind fun _ => .pure _
  | assignLocals => exact (inward_defineLocals (.inl rfl) _).bind fun _ => .pure _
  | unset => exact .bind (.changing (.inr rfl)) fun _ => .pure _

end Inward

theorem run_eq_answer (b : Builtin) (args : List String) (input : Option Bytes) (s : ShellState) :
    ∃ (status : Int32) (bytes : Bytes) (names : Names Value) (left : StandardInput),
      (status = 0 ∨ status = 1) ∧ (names ≠ s.names → b = .assignLocals ∨ b = .unset) ∧
      (∀ refusal, b.usage.scan args = .error refusal →
        names = s.names ∧ left = s.host.machine.input) ∧
      ∀ out, b.run args input { s with out } =
        answer status bytes { s with out, names, host.machine.input := left } := by
  cases scanned : b.usage.scan args with
  | error refusal =>
    refine ⟨refusal.status, encode refusal.text, s.names, s.host.machine.input, ?_, ?_, ?_, ?_⟩
    · cases refusal with
      | help text => exact .inl rfl
      | wrong message => exact .inr rfl
    · intro changed
      exact absurd rfl changed
    · intro _ _
      exact ⟨rfl, rfl⟩
    · intro out
      rw [run_of_refusal scanned]
  | ok found =>
    obtain ⟨result, names, left, changes, comes⟩ := inward_texts b found input s
    cases result with
    | ok ts =>
      refine ⟨0, ts.flatMap encode, names, left, .inl rfl, changes, ?_, ?_⟩
      · intro _ refused
        cases refused
      · intro out
        exact run_of_texts scanned (comes out)
    | error e =>
      refine ⟨1, encode (b.complaint e), names, left, .inr rfl, changes, ?_, ?_⟩
      · intro _ refused
        cases refused
      · intro out
        exact run_of_failure scanned (comes out)

/-- Nothing but a stream that refuses makes a builtin fail. On a stream that takes what is written
it comes to status 0 or 1; on one that refuses it fails if there is a byte to be written, and
otherwise comes to the same status. It leaves the same state, in which names differ only behind
`local` and `unset`, and not if the arguments are refused or ask for help. -/
theorem fails_only_refused (b : Builtin) (args : List String) (input : Option Bytes)
    (s : ShellState) :
    ofName? b.name = some b ∧
    ∃ (status : Int32) (bytes : Bytes) (names : Names Value) (left : StandardInput),
      (status = 0 ∨ status = 1) ∧
      (∀ out : Sink, out.temper ≠ .refusing → b.run args input { s with out } =
        (.ok status, { s with out := out.extended bytes, names, host.machine.input := left })) ∧
      (∀ out : Sink, out.temper = .refusing → b.run args input { s with out } =
        (if bytes = [] then .ok status else .error { cause := .io .writeRefused },
          { s with out, names, host.machine.input := left })) ∧
      (names ≠ s.names → b = .assignLocals ∨ b = .unset) ∧
      ∀ refusal, b.usage.scan args = .error refusal →
        names = s.names ∧ left = s.host.machine.input := by
  obtain ⟨status, bytes, names, left, valid, changes, refused, ran⟩ := run_eq_answer b args input s
  refine ⟨ofName?_name b, status, bytes, names, left, valid, ?_, ?_, changes, refused⟩
  · intro out accepts
    rw [ran out]
    exact answer_accepted status bytes accepts
  · intro out refuses
    rw [ran out]
    exact answer_refused status bytes refuses

theorem run_help_alone (b : Builtin) (input : Option Bytes) :
    b.run ["help"] input = answer 0 (encode b.usage.help) := by
  rw [run_of_refusal (Usage.scan_help b.usage)]
  rfl

theorem run_help (b : Builtin) (rest : List String) (input : Option Bytes) :
    b.run ("help" :: rest) input = answer 0 (encode b.usage.help) ∨
      ∃ message, b.run ("help" :: rest) input = answer 1 (encode message) := by
  have asked : b.usage.scan ("help" :: rest) = b.usage.scanFrom true true {} rest := by
    simp [Usage.scan, Usage.scanFrom, Usage.isHelp]
  rcases @Usage.refused_of_help b.usage true true {} rest rfl with help | ⟨message, wrong⟩
  · left
    rw [run_of_refusal (asked.trans help)]
    rfl
  · right
    refine ⟨message, ?_⟩
    rw [run_of_refusal (asked.trans wrong)]
    rfl

section Echo

variable {words : List String}

theorem scan_words (positional : ∀ first ∈ words.head?, first.toList.head? ≠ some '-')
    (plain : words.head? ≠ some "help") :
    Builtin.echo.usage.scan words = .ok { positionals := words } := by
  cases words with
  | nil => rfl
  | cons first rest =>
    have other : first ≠ "--help" := by
      rintro rfl
      exact absurd rfl (positional "--help" rfl)
    have named : first ≠ "help" := by simpa using plain
    apply Usage.scan_greedy rfl
    · simp [Usage.isHelp, other, named]
    · simpa [Usage.isOption] using positional first rfl

theorem helpText_eq (usage purpose options : String) :
    ∃ more, helpText usage purpose options = "Usage: " ++ more := by
  refine ⟨usage ++ ("\n\n" ++ (purpose ++ ("\n\n" ++ (options ++ helpLine "--help, help"
    "display usage information")))), ?_⟩
  unfold helpText
  generalize helpLine "--help, help" "display usage information" = line
  simp only [String.append_assoc]

theorem encode_help_ne (rest : List String) :
    encode (" ".intercalate ("help" :: rest) ++ "\n") ≠ encode Builtin.echo.usage.help := by
  have word : encode "help" = [104, 101, 108, 112] := by decide +kernel
  have front : encode "Usage: " = [85, 115, 97, 103, 101, 58, 32] := by decide +kernel
  have usage : (encode Builtin.echo.usage.help).head? = some 85 := by
    obtain ⟨more, text⟩ := helpText_eq "echo [-n] [words...]"
      "write the arguments to standard output, separated by spaces."
      ("Options:\n" ++ helpLine "-n, --no-newline" "do not print the trailing newline.")
    rw [usage, text, Text.Utf8.encode_append, front]
    rfl
  intro same
  have first := congrArg List.head? same
  rw [usage, Text.Utf8.encode_append] at first
  cases rest with
  | nil => simp [word] at first
  | cons next rest =>
    rw [String.intercalate_cons_cons, Text.Utf8.encode_append, Text.Utf8.encode_append,
      word] at first
    simp at first

/-- Words of which the first is no option are printed as they are, with a space between each two of
them and a newline at the end, whatever stands behind the first one. The one exception is that the
first word asks for help. -/
theorem echo_prints_words (positional : ∀ first ∈ words.head?, first.toList.head? ≠ some '-')
    (input : Option Bytes) {s : ShellState} (accepts : s.out.temper ≠ .refusing) :
    Builtin.echo.run words input s =
        (.ok 0, { s with out := s.out.extended (encode (" ".intercalate words ++ "\n")) }) ↔
      words.head? ≠ some "help" := by
  constructor
  · intro prints asks
    obtain ⟨rest, rfl⟩ := List.head?_eq_some_iff.mp asks
    rcases run_help .echo rest input with help | ⟨message, wrong⟩
    · rw [help, answer_accepted _ _ accepts] at prints
      have same := congrArg (fun r => r.2.out.written) prints
      exact encode_help_ne rest (List.append_cancel_left same).symm
    · rw [wrong, answer_accepted _ _ accepts] at prints
      cases prints
  · intro plain
    have comes : Builtin.echo.texts { positionals := words } input s =
        (.ok [" ".intercalate words ++ "\n"], s) := rfl
    rw [run_of_texts (scan_words positional plain) comes, answer_accepted _ _ accepts]
    simp

theorem echo_prints_words_options :
    let s := ShellContext.enter { temper := .unflushable } (.ofGlobals ∅) .idle
    let words := ["a", "-n", "--help", "help"]
    (∀ first ∈ words.head?, first.toList.head? ≠ some '-') ∧ s.out.temper ≠ .refusing ∧
      words.head? ≠ some "help" ∧
      Builtin.echo.run words none s =
        (.ok 0, { s with out := s.out.extended (encode (" ".intercalate words ++ "\n")) }) := by
  intro s words
  have positional : ∀ first ∈ words.head?, first.toList.head? ≠ some '-' := by
    intro first member
    obtain rfl : "a" = first := Option.some.inj member
    decide
  have accepts : s.out.temper ≠ .refusing := by decide
  have plain : words.head? ≠ some "help" := by decide
  refine ⟨positional, accepts, plain, ?_⟩
  exact (echo_prints_words positional none accepts).mpr plain

/-- The word `help` is not printed. -/
theorem echo_help_unprinted :
    let s := ShellContext.enter {} (.ofGlobals ∅) .idle
    let help := encode Builtin.echo.usage.help
    "help".toList.head? ≠ some '-' ∧
      Builtin.echo.run ["help"] none s = (.ok 0, { s with out := s.out.extended help }) ∧
      help ≠ encode (" ".intercalate ["help"] ++ "\n") := by
  intro s help
  refine ⟨by decide, ?_, (encode_help_ne []).symm⟩
  rw [run_help_alone, answer_accepted _ _ (by decide)]

end Echo

end Builtin

end SessionShell
