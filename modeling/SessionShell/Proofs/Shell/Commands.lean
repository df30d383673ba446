import SessionShell.Shell.Evaluate

/-! What commands are made of. Natives, builtins and programs are put together from a few kinds of
steps, so that a property of steps holds of every command if it holds of these and is kept where steps
are put together. None of them looks at the flag of the prompt, and none parses anything. -/

namespace SessionShell

/-- What shell code does to the names: it sets the status, assigns globals and defines locals under
proper names, and removes names. -/
inductive Names.Change : (Names Value → Names Value) → Prop
  | setStatus (code : Int32) : Change (·.setStatus code)
  | setGlobal (text : String) {name : String} (proper : isName name) :
      Change (·.setGlobal name (.text text))
  | setLocal (text : String) {name : String} (proper : isName name) :
      Change (·.setLocal name (.text text))
  | unset (name : String) : Change (·.unset name)

theorem Shell.ne_status_of_isName {name : String} (proper : isName name) : name ≠ Names.status := by
  rintro rfl
  revert proper
  decide +kernel

def ShellState.lowered (s : ShellState) : ShellState :=
  { s with host.running := false }

/-- The failure is not about syntax. -/
def Failure.Ordinary (f : Failure) : Prop :=
  ∀ e, f.cause ≠ .malformed e

theorem Failure.ordinary_io (context : List String) (e : IoError) : Ordinary ⟨context, .io e⟩ := by
  intro e' same
  cases same

/-- The failure is one that commands end in themselves. -/
def Failure.OfCommand (f : Failure) : Prop :=
  match f.cause with
  | .io _ | .commandNotFound _ | .notAName _ | .reported _ => True
  | _ => False

theorem Failure.OfCommand.ordinary {f : Failure} (command : f.OfCommand) : f.Ordinary := by
  intro e cause
  simp [OfCommand, cause] at command

theorem Launcher.ofCommand_of_run {start : Launcher} {launch : Launch} {m : Machine} {e : Failure}
    (failed : (start.run launch m).1 = .error e) : e.OfCommand := by
  unfold run at failed
  split at failed
  · cases failed
  · cases failed
    trivial

namespace Shell

/-- The property holds of the steps that commands are made of, and of what is made of such steps. -/
structure Closed (P : (α : Type) → Shell α → Prop) : Prop where
  pure : ∀ {α : Type} (a : α), P α (pure a)
  throw : ∀ {α : Type} {e : Failure}, e.OfCommand → P α (throw e)
  bind : ∀ {α β : Type} {step : Shell α} {next : α → Shell β},
    P α step → (∀ a, P β (next a)) → P β (step >>= next)
  orElseWith : ∀ {α : Type} {step : Shell α} {handle : Failure → Shell α},
    P α step → (∀ e, P α (handle e)) → P α (step.orElseWith handle)
  inspect : ∀ {α : Type} {next : ShellState → Shell α},
    (∀ s, next s.lowered = next s) → (∀ s, P α (next s)) → P α (get >>= next)
  modifying : ∀ {f : ShellState → ShellState}, (∀ s, (f s).names = s.names) →
    (∀ s, (f s).out = s.out) → (∀ s, (f s).lowered = f s.lowered) → P Unit (modify f)
  changing : ∀ {β : Type} {change : β → Names Value → Names Value} (l : List β),
    (∀ b, Names.Change (change b)) →
      P Unit (changeNames fun names => l.foldl (fun names b => change b names) names)
  write : ∀ bytes, P Unit (write bytes)

variable {P : (α : Type) → Shell α → Prop} (closed : Closed P)
include closed

theorem Closed.fail {α : Type} {cause : Cause} (command : Failure.OfCommand { cause }) :
    P α (Shell.fail cause) :=
  closed.throw command

theorem Closed.readInput : P Bytes Shell.readInput :=
  closed.inspect (fun _ => rfl) fun _ =>
    closed.bind (closed.modifying (fun _ => rfl) (fun _ => rfl) fun _ => rfl) fun _ => closed.pure _

end Shell

open Shell

section Commands

variable {P : (α : Type) → Shell α → Prop} (closed : Closed P)
include closed

namespace Builtin

theorem closed_readFiles (files : List String) : P _ (readFiles files) := by
  have one (file : String) : P _ (readFile file) := by
    refine closed.inspect (fun _ => rfl) fun s => ?_
    dsimp only
    split
    · exact closed.pure _
    · exact closed.throw trivial
  induction files with
  | nil => exact closed.pure _
  | cons file rest ih => exact closed.bind (one file) fun _ => closed.bind ih fun _ => closed.pure _

theorem closed_readText (input : Option Bytes) : P _ (readText input) := by
  have given (bytes : Bytes) : P _ (readText (some bytes)) := by
    refine closed.bind (closed.pure bytes) fun bytes => ?_
    dsimp only
    cases Text.Utf8.decode? bytes with
    | some text => exact closed.pure text
    | none => exact closed.fail trivial
  cases input with
  | some bytes => exact given bytes
  | none => exact closed.bind closed.readInput given

theorem closed_inputs (files : List String) (input : Option Bytes) : P _ (inputs files input) := by
  cases files with
  | nil => exact closed.bind (closed_readText closed input) fun _ => closed.pure _
  | cons file rest => exact closed_readFiles closed _

theorem closed_writeAll (texts : List String) : P _ (writeAll texts) := by
  induction texts with
  | nil => exact closed.pure _
  | cons text rest ih => exact closed.bind (closed.write _) fun _ => ih

theorem closed_defineLocals (args : List String) : P _ (defineLocals args) := by
  induction args with
  | nil => exact closed.pure _
  | cons arg rest ih =>
    unfold defineLocals
    dsimp only
    split
    · rename_i proper
      exact closed.bind (closed.changing [()] fun _ => .setLocal _ proper) fun _ => ih
    · exact closed.fail trivial

theorem closed_body (b : Builtin) (args : Scanned) (input : Option Bytes) :
    P _ (b.body args input) := by
  have written (texts : List String) : P _ (writeAll texts >>= fun _ => pure (0 : Int32)) :=
    closed.bind (closed_writeAll closed texts) fun _ => closed.pure _
  cases b with
  | echo => exact closed.bind (closed.write _) fun _ => closed.pure _
  | cat => exact closed.bind (closed_inputs closed _ _) fun _ => written _
  | wc => exact closed.bind (closed_inputs closed _ _) fun _ => written _
  | assignLocals => exact closed.bind (closed_defineLocals closed _) fun _ => closed.pure _
  | unset => exact closed.bind (closed.changing _ .unset) fun _ => closed.pure _

theorem closed_run (b : Builtin) (args : List String) (input : Option Bytes) :
    P _ (b.run args input) := by
  unfold run
  split
  · exact closed.bind (closed.write _) fun _ => closed.pure _
  · exact closed.orElseWith (closed_body closed b _ input) fun _ =>
      closed.bind (closed.write _) fun _ => closed.pure _

end Builtin

namespace Shell

omit closed in
theorem callNative_eq (native : Native) (c : Call) :
    callNative native c = (do
      let s ← get
      let reply := native.reply s.deeds c.arguments
      modify fun s => { s with deeds := s.deeds ++ [.called c.name c.arguments] }
      write reply.output
      modify fun s => { s with host.running := s.host.running && !reply.stops }
      match reply.outcome with
      | .ok status => pure status
      | .error message => fail (.reported message)) := by
  funext s
  unfold callNative
  simp only [bind_apply, get_apply, modify_apply]
  cases write (native.reply s.deeds c.arguments).output
      { s with deeds := s.deeds ++ [.called c.name c.arguments] } with
  | mk result t =>
    cases result with
    | error e => rfl
    | ok done =>
      obtain ⟨names, out, complaints, deeds, machine, running⟩ := t
      cases (native.reply s.deeds c.arguments).stops <;> cases running <;> rfl

theorem closed_callNative (native : Native) (c : Call) : P _ (callNative native c) := by
  rw [callNative_eq]
  refine closed.inspect (fun _ => rfl) fun s =>
    closed.bind (closed.modifying (fun _ => rfl) (fun _ => rfl) fun _ => rfl) fun _ =>
      closed.bind (closed.write _) fun _ =>
        closed.bind (closed.modifying (fun _ => rfl) (fun _ => rfl) fun _ => rfl) fun _ => ?_
  cases (native.reply s.deeds c.arguments).outcome with
  | ok status => exact closed.pure status
  | error message => exact closed.fail trivial

omit closed in
theorem runExternal_eq (start : Launcher) (c : Call) :
    runExternal start c = do
      let s ← get
      match findCommand s.host.machine ((s.names.text? "PATH").getD "") c.name with
      | none => fail (.commandNotFound c.name)
      | some program =>
        let launch : Launch :=
          { program, arguments := c.arguments, input := c.input
            environment := some (s.names.exported.insertMany c.assigned) }
        let (result, machine) := start.run launch s.host.machine
        modify fun s => { s with deeds := s.deeds ++ [.started launch], host.machine := machine }
        match result with
        | .error e => throw e
        | .ok finished =>
          write finished.output
          modify fun s => { s with complaints := s.complaints ++ finished.complaints }
          return exitCode finished.ended := by
  funext s
  unfold runExternal
  simp only [bind_apply, get_apply]
  cases findCommand s.host.machine ((s.names.text? "PATH").getD "") c.name with
  | none => rfl
  | some program => rfl

theorem closed_runExternal (start : Launcher) (c : Call) : P _ (runExternal start c) := by
  rw [runExternal_eq]
  refine closed.inspect (fun _ => rfl) fun s => ?_
  split
  · exact closed.fail trivial
  · refine closed.bind (closed.modifying (fun _ => rfl) (fun _ => rfl) fun _ => rfl) fun _ => ?_
    split
    · rename_i e failed
      exact closed.throw (Launcher.ofCommand_of_run failed)
    · exact closed.bind (closed.write _) fun _ =>
        closed.bind (closed.modifying (fun _ => rfl) (fun _ => rfl) fun _ => rfl) fun _ =>
          closed.pure _

theorem closed_invoke (start : Launcher) (c : Call) : P _ (invoke start c) := by
  refine closed.inspect (fun _ => rfl) fun s => ?_
  split
  · exact closed_callNative closed _ c
  · split
    · exact Builtin.closed_run closed _ _ _
    · exact closed_runExternal closed start c

end Shell

end Commands

end SessionShell
