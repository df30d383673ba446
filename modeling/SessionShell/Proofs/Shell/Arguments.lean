import SessionShell.Proofs.Language.Spelling
import SessionShell.Proofs.Session.LastSeen
import SessionShell.Proofs.Shell.Depth
import SessionShell.Proofs.Shell.Stream

/-! How arguments are passed. A value that is written as one word, quoted or by the name of a variable,
comes to the command as it is: it is neither split nor read again, and an empty one is not dropped.
What a native that is called does is told by its reply to these values. -/

namespace SessionShell

/-- A way to write a value where the variables have these values. -/
inductive Spells (names : Names Value) : String → String → Prop
  | quoted {written value : String} (quoted : Quoted written value) : Spells names written value
  | named {name written value : String} (proper : isName name)
      (known : names.text? name = some value) (writes : NamesVariable name written) :
      Spells names written value

namespace Shell

section Words

variable (capture : String → Shell String) (s : ShellState)

theorem expand_ofText (text : String) : expand capture (.ofText text) s = (.ok text, s) := by
  unfold Word.ofText
  split
  · rename_i empty
    rw [empty]
    rfl
  · simp [expand, expandPart]

theorem expand_parameter {name value : String} (known : s.names.text? name = some value) :
    expand capture [.parameter name] s = (.ok value, s) := by
  have part : expandPart capture (.parameter name) s = (.ok value, s) := by
    simp only [expandPart, bind_apply, get_apply, pure_apply, known, Option.getD_some]
  simp only [expand, bind_apply, pure_apply, part, String.append_empty]

end Words

theorem word_of_spells {names : Names Value} {written value : String}
    (spells : Spells names written value) :
    ∃ w, Lexer.Writes written.toList [.word w] ∧
      ∀ capture (s : ShellState), s.names = names → expand capture w s = (.ok value, s) := by
  cases spells with
  | quoted quoted =>
    exact ⟨.ofText value, Lexer.writes_quoted quoted, fun capture s _ => expand_ofText capture s value⟩
  | @named name _ _ proper known writes =>
    refine ⟨[.parameter name], Lexer.writes_variable proper writes, fun capture s same => ?_⟩
    exact expand_parameter capture s (same ▸ known)

theorem words_of_spells {names : Names Value} {texts values : List String}
    (spelled : List.Forall₂ (Spells names) texts values) :
    ∃ ws, List.Forall₂ (fun text w => Lexer.Writes text.toList [.word w]) texts ws ∧
      ∀ capture (s : ShellState), s.names = names → expandAll capture ws s = (.ok values, s) := by
  induction spelled with
  | nil => exact ⟨[], .nil, fun _ _ _ => rfl⟩
  | cons first _ ih =>
    obtain ⟨w, writes, expands⟩ := word_of_spells first
    obtain ⟨ws, later, expandLater⟩ := ih
    refine ⟨w :: ws, .cons writes later, fun capture s same => ?_⟩
    simp only [expandAll, bind_apply, pure_apply, expands capture s same, expandLater capture s same]

theorem write_apply (bytes : Bytes) (s : ShellState) :
    write bytes s =
      if s.out.temper = .refusing ∧ bytes ≠ [] then (.error { cause := .io .writeRefused }, s)
      else (.ok (), { s with out := s.out.extended bytes }) := by
  unfold write
  by_cases nothing : bytes = []
  · simp [Sink.write, nothing, ofIo]
  · by_cases refused : s.out.temper = .refusing
    · simp [Sink.write, nothing, refused, ofIo, fail]
    · simp [Sink.write, nothing, refused, ofIo, Sink.extended]

theorem write_frame (bytes : Bytes) (s : ShellState) :
    (write bytes s).2.names = s.names ∧ (write bytes s).2.deeds = s.deeds ∧
      (write bytes s).2.host = s.host := by
  rw [write_apply]
  split <;> exact ⟨rfl, rfl, rfl⟩

theorem lookup_setStatus (names : Names Value) (code : Int32) {name : String}
    (ordinary : name ≠ Names.status) : (names.setStatus code).lookup name = names.lookup name := by
  simp [Names.setStatus, Names.setLocal, Names.lookup, Std.ExtTreeMap.getElem?_insert, ordinary.symm]

/-- The state behind the call of a native that could write what it wanted: the call is known, the
output stands behind what was there, and the prompt goes on unless the reply stops it. -/
def answered (reply : Reply) (call : Deed) (s : ShellState) : ShellState :=
  { s with
    deeds := s.deeds ++ [call]
    out := s.out.extended reply.output
    host.running := s.host.running && !reply.stops }

/-- What a statement comes to that calls a native, told by the reply to the arguments: this is written
to the stream, which may refuse it, and gives the message of a failure or the status. -/
def replied (native : Native) (name : String) (arguments : List String) (s : ShellState) :
    Except Failure Unit × ShellState :=
  let reply := native.reply s.deeds arguments
  let call : Deed := .called name arguments
  if s.out.temper = .refusing ∧ reply.output ≠ [] then
    (.error { cause := .io .writeRefused }, { s with deeds := s.deeds ++ [call] })
  else
    match reply.outcome with
    | .error message => (.error { cause := .reported message }, answered reply call s)
    | .ok status =>
      if s.out.temper = .healthy then (.ok (), (answered reply call s).renamed (·.setStatus status))
      else (.error { cause := .io .flushRefused }, answered reply call s)

theorem callNative_apply (native : Native) (c : Call) (s : ShellState) :
    callNative native c s =
      let reply := native.reply s.deeds c.arguments
      let call : Deed := .called c.name c.arguments
      if s.out.temper = .refusing ∧ reply.output ≠ [] then
        (.error { cause := .io .writeRefused }, { s with deeds := s.deeds ++ [call] })
      else
        (reply.outcome.mapError fun message => { cause := .reported message },
          answered reply call s) := by
  rw [callNative_eq]
  simp only [bind_apply, get_apply, modify_apply, write_apply]
  by_cases refused : s.out.temper = .refusing ∧ (native.reply s.deeds c.arguments).output ≠ []
  · rw [if_pos refused, if_pos refused]
  · rw [if_neg refused, if_neg refused]
    cases (native.reply s.deeds c.arguments).outcome <;> rfl

theorem callNative_frame (native : Native) (c : Call) (s : ShellState) :
    (callNative native c s).2.names = s.names ∧
      (callNative native c s).2.deeds = s.deeds ++ [.called c.name c.arguments] := by
  rw [callNative_apply]
  dsimp only
  split <;> exact ⟨rfl, rfl⟩

theorem replied_frame (native : Native) (name : String) (arguments : List String) (s : ShellState) :
    (replied native name arguments s).2.deeds = s.deeds ++ [.called name arguments] ∧
      ∀ other, other ≠ Names.status →
        (replied native name arguments s).2.names.lookup other = s.names.lookup other := by
  unfold replied
  dsimp only
  split
  · exact ⟨rfl, fun _ _ => rfl⟩
  · split
    · exact ⟨rfl, fun _ _ => rfl⟩
    · split
      · exact ⟨rfl, fun _ ordinary => lookup_setStatus _ _ ordinary⟩
      · exact ⟨rfl, fun _ _ => rfl⟩

theorem runProgram_call (start : Launcher) {capture : String → Shell String} {s : ShellState}
    {first : Word} {words : List Word} {name : String} {arguments : List String} {native : Native}
    (named : expand capture first s = (.ok name, s))
    (expanded : expandAll capture words s = (.ok arguments, s))
    (bound : s.names.lookup name = some (.native native)) :
    runProgram (invoke start) capture [.single { words := first :: words }] s =
      replied native name arguments s := by
  have call : invoke start { name, arguments } s = callNative native { name, arguments } s := by
    simp [invoke, bound]
  simp only [runProgram, runStatement, runStages, Statement.stages, expandAssignments, bind_apply,
    pure_apply, named, expanded, List.isEmpty_nil, if_true, flushing_apply, call, callNative_apply]
  unfold replied
  dsimp only
  by_cases refused : s.out.temper = .refusing ∧ (native.reply s.deeds arguments).output ≠ []
  · simp only [if_pos refused]
  · simp only [if_neg refused]
    cases (native.reply s.deeds arguments).outcome with
    | error message => rfl
    | ok status => cases temper : s.out.temper <;> simp [Except.mapError, answered, Sink.extended,
        Sink.flush, temper, changeNames, ShellState.renamed]

theorem runProgram_assignment (perform : Call → Shell Int32) {capture : String → Shell String}
    {s : ShellState} {name value : String} {w : Word}
    (expanded : expand capture w s = (.ok value, s)) :
    runProgram perform capture [.single { assignments := [⟨name, some w⟩] }] s =
      (.ok (), s.renamed fun names => (names.setGlobal name (.text value)).setStatus 0) := by
  simp only [runProgram, runStatement, runStages, Statement.stages, expandAssignments, bind_apply,
    pure_apply, expanded]
  rfl

/-- A place in a fragment where a statement may begin: what stands in front of it has run, and led to
this state. -/
structure Reaches (start : Launcher) (s : ShellState) (front : String) (t : ShellState) : Prop where
  leads : ∃ done, Leads front done
  ran : evaluate start front s = (.ok (), t)

section Places

variable {start : Launcher} {s t u : ShellState} {front text : String} {program : Program}

theorem reaches_front (start : Launcher) (s : ShellState) :
    Reaches start s "" (s.renamed Names.resetFrame) := by
  constructor
  · exact ⟨[], [], rfl, rfl⟩
  · simp only [evaluate, evaluateWith, bind_apply, parse_empty]
    rfl

theorem Reaches.evaluate_eq (reached : Reaches start s front t) (parsed : parse text = .ok program) :
    evaluate start (front ++ text) s =
      runProgram (invoke start) (captureWithin (invoke start) (depthBound text)) program t := by
  obtain ⟨done, leads⟩ := reached.leads
  exact evaluate_behind leads reached.ran parsed

theorem Reaches.behind (reached : Reaches start s front t) {ts : List Token}
    (writes : Lexer.Writes text.toList ts) (run : Grammar.IsRun ts)
    (ran : evaluate start (front ++ text) s = (.ok (), u)) :
    ∀ separator ∈ [";", "\n"], Reaches start s (front ++ text ++ separator) u := by
  obtain ⟨done, leads⟩ := reached.leads
  let program : Program := done ++ [.single (Parser.commandOf ts)]
  have parsed : parse (front ++ text) = .ok program := by
    rw [leads.parse_append, parse_command writes run]
    rfl
  have same {separator : String} (leads : Leads (front ++ text ++ separator) program) :
      Reaches start s (front ++ text ++ separator) u := by
    refine ⟨⟨program, leads⟩, ?_⟩
    rw [evaluate_congr start (leads.parse_eq.trans parsed.symm), ran]
  intro separator member
  rcases List.mem_pair.mp member with rfl | rfl
  · exact same (leads.command writes run)
  · exact same (line_read parsed)

end Places

theorem lookup_setGlobal (names : Names Value) (value : Value) {x name : String} (other : name ≠ x) :
    (names.setGlobal x value).lookup name = names.lookup name := by
  simp [Names.setGlobal, Names.lookup, Std.ExtTreeMap.getElem?_insert, other.symm]

theorem assigned_spells {names : Names Value} {x : String} (ordinary : x ≠ Names.status)
    (unshadowed : x ∉ names.locals) (value : String) :
    let assigned := (names.setGlobal x (.text value)).setStatus 0
    assigned.text? x = some value ∧ assigned.resetFrame.text? x = some value ∧
      ∀ name, name ≠ Names.status → name ≠ x → assigned.lookup name = names.lookup name := by
  intro assigned
  have global : assigned.globals[x]? = some (.text value) := by
    simp [assigned, Names.setStatus, Names.setLocal, Names.setGlobal]
  have here : assigned.lookup x = some (.text value) := by
    rw [Names.lookup, global]
    simp [assigned, Names.setStatus, Names.setLocal, Names.setGlobal, ordinary.symm,
      Std.ExtTreeMap.getElem?_insert, Std.ExtTreeMap.getElem?_eq_none unshadowed]
  have next : assigned.resetFrame.lookup x = some (.text value) :=
    (Session.lookup_resetFrame _ ordinary).trans global
  have others (name : String) (proper : name ≠ Names.status) (apart : name ≠ x) :
      assigned.lookup name = names.lookup name :=
    (lookup_setStatus _ 0 proper).trans (lookup_setGlobal _ _ apart)
  refine ⟨?_, ?_, others⟩
  · rw [Names.text?, here]
    rfl
  · rw [Names.text?, next]
    rfl

/-- What a fragment does that comes to a native and its arguments: the native is called with them and
with nothing else, what it says is done, and no other name changes. -/
structure CallsNative (start : Launcher) (s t : ShellState) (code : String) (native : Native)
    (name : String) (arguments : List String) : Prop where
  reply : evaluate start code s = replied native name arguments t
  once : (evaluate start code s).2.deeds = t.deeds ++ [.called name arguments]
  names : ∀ other, isName other →
    (evaluate start code s).2.names.lookup other = t.names.lookup other
  behind : (evaluate start code s).1 = .ok () → ∀ separator ∈ [";", "\n"],
    Reaches start s (code ++ separator) (evaluate start code s).2

/-- What a fragment does that comes to an assignment: the name has the value from then on, in the
fragment and in the next one, and all others stay. -/
structure Assigns (start : Launcher) (s t : ShellState) (code name value : String) : Prop where
  ran : evaluate start code s =
    (.ok (), t.renamed fun names => (names.setGlobal name (.text value)).setStatus 0)
  spells : ∀ spelled, NamesVariable name spelled →
    Spells (evaluate start code s).2.names spelled value ∧
      Spells (evaluate start code s).2.names.resetFrame spelled value
  names : ∀ other, isName other → other ≠ name →
    (evaluate start code s).2.names.lookup other = t.names.lookup other
  behind : ∀ separator ∈ [";", "\n"], Reaches start s (code ++ separator) (evaluate start code s).2

/-- A native is called once, with the values that are spelled behind its name, wherever in a fragment
its statement stands, and what comes of it is told by its reply to them. The assignment of a quoted
value to a name that is no local makes the name spell this value from then on. -/
theorem arguments_unchanged {start : Launcher} {front : String} {s t : ShellState}
    (reached : Reaches start s front t) {f : String} (command : isName f) {native : Native}
    (bound : t.names.lookup f = some (.native native)) :
    (∀ texts values, List.Forall₂ (Spells t.names) texts values →
      CallsNative start s t (front ++ " ".intercalate (f :: texts)) native f values) ∧
    ∀ x written value, isName x → x ∉ t.names.locals → Quoted written value →
      Assigns start s t (front ++ (x ++ "=" ++ written)) x value := by
  have ordinary {name : String} (proper : isName name) : name ≠ Names.status :=
    ne_status_of_isName proper
  constructor
  · intro texts values spelled
    obtain ⟨ws, written, expands⟩ := words_of_spells spelled
    have writes := Lexer.writes_words (Lexer.writes_isName command) written
    have run : Grammar.IsRun (([.literal f] :: ws).map .word) := by
      simp [Grammar.IsRun, Parser.isPart]
    have parsed := parse_command writes run
    rw [commandOf_words] at parsed
    have named (capture : String → Shell String) : expand capture [.literal f] t = (.ok f, t) := by
      simp [expand, expandPart]
    have called : evaluate start (front ++ " ".intercalate (f :: texts)) s =
        replied native f values t := by
      rw [reached.evaluate_eq parsed]
      exact runProgram_call start (named _) (expands _ t rfl) bound
    obtain ⟨deeds, names⟩ := replied_frame native f values t
    rw [← called] at deeds names
    exact ⟨called, deeds, fun name proper => names name (ordinary proper), fun succeeded =>
      reached.behind writes run (Prod.ext succeeded rfl)⟩
  · intro x written value proper unshadowed quoted
    have writes := Lexer.writes_assignment proper quoted
    have run : Grammar.IsRun [.assign x, .word (.ofText value)] := by
      simp [Grammar.IsRun, Parser.isPart]
    have assigned : evaluate start (front ++ (x ++ "=" ++ written)) s =
        (.ok (), t.renamed fun names => (names.setGlobal x (.text value)).setStatus 0) := by
      rw [reached.evaluate_eq (parse_command writes run)]
      exact runProgram_assignment _ (expand_ofText _ t value)
    have after := congrArg Prod.snd assigned
    obtain ⟨here, next, others⟩ := assigned_spells (ordinary proper) unshadowed value
    refine ⟨assigned, fun spelled writes => ?_, fun name other apart => ?_, ?_⟩
    · rw [after]
      exact ⟨.named proper here writes, .named proper next writes⟩
    · rw [after]
      exact others name (ordinary other) apart
    · rw [after]
      exact reached.behind writes run assigned

theorem arguments_unchanged_quotes :
    let native : Native := ⟨fun _ arguments =>
      { output := Text.Utf8.encode (String.join (arguments.map fun a => "[" ++ a ++ "]"))
        stops := true, outcome := .ok 3 }⟩
    let names := (Names.ofGlobals (.ofEntries [("x", .text "a  b")])).setGlobal "f" (.native native)
    let s := ShellContext.enter {} names .idle
    let t := s.renamed Names.resetFrame
    let start := Session.noProgram
    let called := evaluate start "f 'it'\\''s' \"$x\" \"\"" s
    Reaches start s "" t ∧ isName "f" ∧ t.names.lookup "f" = some (.native native) ∧
      called.1 = .ok () ∧ called.2.deeds = [.called "f" ["it's", "a  b", ""]] ∧
      called.2.out.written = Text.Utf8.encode "[it's][a  b][]" ∧
      called.2.names.text? "?" = some "3" ∧ called.2.host.running = false ∧
      evaluate start "x='# 1'" s =
        (.ok (), t.renamed fun names => (names.setGlobal "x" (.text "# 1")).setStatus 0) := by
  intro native names s t start called
  have reached : Reaches start s "" t := reaches_front start s
  have command : isName "f" := by decide +kernel
  have bound : t.names.lookup "f" = some (.native native) := by
    refine (Session.lookup_resetFrame _ (by decide)).trans ?_
    simp [s, names, ShellContext.enter, Names.setGlobal]
  have known : t.names.text? "x" = some "a  b" := by decide +kernel
  have spelled : List.Forall₂ (Spells t.names)
      ["'it'\\''s'", "\"$x\"", "\"\""] ["it's", "a  b", ""] := by
    refine .cons (.quoted ?_) (.cons (.named ?_ known ?_) (.cons (.quoted ?_) .nil))
    · exact .single "it's"
    · decide +kernel
    · exact .quotes
    · exact .double ""
  have unchanged := arguments_unchanged reached command bound
  have calls := unchanged.1 _ _ spelled
  have replied : called = replied native "f" ["it's", "a  b", ""] t := calls.reply
  refine ⟨reached, command, bound, ?_, calls.once, ?_, ?_, ?_, ?_⟩
  · rw [replied]
    rfl
  · rw [replied]
    decide +kernel
  · rw [replied]
    decide +kernel
  · rw [replied]
    decide +kernel
  · exact (unchanged.2 "x" "'# 1'" "# 1" (by decide +kernel) (by decide +kernel) (.single "# 1")).ran

end Shell

end SessionShell
