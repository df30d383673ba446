import SessionShell.Proofs.Language.Nodes
import SessionShell.Proofs.Shell.Substitutions

/-! Evaluation of nodes, which may be anything as far as the evaluator knows: it fails where a stage is
no command and where a command has no name, and it passes over what is no assignment. On the nodes of
a text it does what the evaluator of programs does, so that none of this happens. -/

namespace SessionShell

def parseNodes (text : String) : Except SyntaxError (List Node) :=
  match tokenize text with
  | .error e => .error (.lex e)
  | .ok tokens =>
    match constructNodes tokens with
    | .error e => .error (.parse e)
    | .ok nodes => .ok nodes

theorem parseNodes_eq (text : String) : parseNodes text = (parse text).map Program.nodes := by
  unfold parseNodes parse
  cases tokenize text with
  | error e => rfl
  | ok ts =>
    simp only [constructNodes_eq]
    cases parseTokens ts <;> rfl

/-- What runs as a statement: the stages of a pipeline, or the node itself. -/
def Node.stages : Node → List Node
  | .pipeline stages => stages
  | node => [node]

theorem Node.IsStatement.isCommand_stages {node : Node} (statement : node.IsStatement) :
    ∀ c ∈ node.stages, c.IsCommand := by
  cases node with
  | pipeline stages => exact statement.2
  | command words assignments => exact List.forall_mem_singleton.mpr statement
  | assignment name value => cases statement

theorem isStatement_parseNodes {text : String} {nodes : List Node}
    (read : parseNodes text = .ok nodes) : ∀ node ∈ nodes, node.IsStatement := by
  unfold parseNodes at read
  split at read
  · cases read
  · split at read
    · cases read
    · rename_i built
      cases read
      exact isStatement_constructNodes built

theorem Statement.stages_node (s : Statement) : s.node.stages = s.stages.map Command.node := by
  cases s <;> rfl

namespace Failure

/-- The failure does not come from a branch for nodes that are out of place. -/
def External (f : Failure) : Prop :=
  f.cause ≠ .notACommand ∧ f.cause ≠ .emptyCommand

theorem OfCommand.external {f : Failure} (command : f.OfCommand) : f.External := by
  refine ⟨fun cause => ?_, fun cause => ?_⟩
  · simp [OfCommand, cause] at command
  · simp [OfCommand, cause] at command

end Failure

namespace Shell

namespace Nodes

/-- The names and values of assignments. Other nodes are left out. -/
def expandAssignments (capture : String → Shell String) : List Node → Shell (List (String × String))
  | [] => pure []
  | .assignment name value :: rest => do
    let value ← match value with
      | some word => expand capture word
      | none => pure ""
    return (name, value) :: (← expandAssignments capture rest)
  | _ :: rest => expandAssignments capture rest

def invoke (perform : Call → Shell Int32) (words : List String) (assigned : List (String × String))
    (input : Option Bytes) : Shell Int32 :=
  match words with
  | [] => fail .emptyCommand
  | name :: arguments => perform { name, arguments, assigned, input }

def runStages (perform : Call → Shell Int32) (capture : String → Shell String) (whole : Bool) :
    List Node → Option Bytes → Int32 → Shell Int32
  | [], _, status => pure status
  | .command words assignments :: rest, input, _ => do
    let assigned ← expandAssignments capture assignments
    if words.isEmpty then
      if whole then assignGlobals assigned
      runStages perform capture whole rest none 0
    else
      let words ← expandAll capture words
      if rest.isEmpty then flushing (invoke perform words assigned input)
      else
        let (status, bytes) ← collecting (invoke perform words assigned input)
        runStages perform capture whole rest (some bytes) status
  | _ :: _, _, _ => fail .notACommand

def runStatements (perform : Call → Shell Int32) (capture : String → Shell String) :
    List Node → Shell Unit
  | [] => pure ()
  | node :: rest => do
    let status ← runStages perform capture (node.stages.length = 1) node.stages none 0
    changeNames (·.setStatus status)
    runStatements perform capture rest

def captureWithin (perform : Call → Shell Int32) : Nat → String → Shell String
  | 0, _ => fail .nestedTooDeep
  | depth + 1, code =>
    match parseNodes code with
    | .error e => throw (.unparsed code e)
    | .ok nodes => do
      let (_, bytes) ← collecting (runStatements perform (captureWithin perform depth) nodes)
      return Text.Utf8.decodeLossy bytes

def evaluate (start : Launcher) (code : String) : Shell Unit := do
  changeNames Names.resetFrame
  match parseNodes code with
  | .error e => fail (.malformed e)
  | .ok nodes =>
    runStatements (Shell.invoke start) (captureWithin (Shell.invoke start) (depthBound code)) nodes

section Programs

variable (perform : Call → Shell Int32) (capture : String → Shell String)

theorem expandAssignments_node (as : List Assignment) :
    expandAssignments capture (as.map Assignment.node) = Shell.expandAssignments capture as := by
  induction as with
  | nil => rfl
  | cons a rest ih =>
    obtain ⟨name, value⟩ := a
    cases value <;>
      simp only [List.map_cons, Assignment.node, expandAssignments, Shell.expandAssignments, ih]

theorem runStages_node (whole : Bool) (cs : List Command) (input : Option Bytes) (status : Int32) :
    runStages perform capture whole (cs.map Command.node) input status =
      Shell.runStages perform capture whole cs input status := by
  induction cs generalizing input status with
  | nil => rfl
  | cons c rest ih =>
    rw [List.map_cons, Command.node, runStages, Shell.runStages, expandAssignments_node]
    cases c.words with
    | nil => simp only [List.isEmpty_nil, if_true, ih]
    | cons first more =>
      simp only [List.isEmpty_cons, Bool.false_eq_true, if_false, expandAll, bind_assoc, pure_bind,
        invoke, List.isEmpty_map, ih]

theorem runStatements_nodes (p : Program) :
    runStatements perform capture p.nodes = runProgram perform capture p := by
  induction p with
  | nil => rfl
  | cons s rest ih =>
    have behind : runStatements perform capture (rest.map Statement.node) =
      runProgram perform capture rest := ih
    rw [Program.nodes, List.map_cons, runStatements, runProgram, behind, Statement.stages_node,
      runStages_node, List.length_map, runStatement]

theorem captureWithin_nodes (depth : Nat) :
    captureWithin perform depth = Shell.captureWithin perform depth := by
  induction depth with
  | zero => rfl
  | succ depth ih =>
    funext code
    rw [captureWithin, Shell.captureWithin, parseNodes_eq]
    cases parse code with
    | error e => rfl
    | ok p => simp only [Except.map, ih, runStatements_nodes]

end Programs

theorem evaluate_eq (start : Launcher) (text : String) :
    evaluate start text = Shell.evaluate start text := by
  unfold evaluate Shell.evaluate evaluateWith
  rw [parseNodes_eq]
  cases parse text with
  | error e => rfl
  | ok p => simp only [Except.map, captureWithin_nodes, runStatements_nodes]

theorem expandAssignments_cons (capture : String → Shell String) (name : String)
    (value : Option Word) (rest : List Node) :
    expandAssignments capture (.assignment name value :: rest) = (do
      let text ← value.elim (pure "") (expand capture)
      return (name, text) :: (← expandAssignments capture rest)) := by
  cases value <;> rfl

theorem forall₂_expandAssignments {capture : String → Shell String} {as : List Node}
    (all : ∀ a ∈ as, a.IsAssignment) {s t : ShellState} {assigned : List (String × String)}
    (ran : expandAssignments capture as s = (.ok assigned, t)) :
    List.Forall₂ (fun a e => ∃ value, a = Node.assignment e.1 value) as assigned := by
  induction as generalizing s t assigned with
  | nil =>
    cases ran
    exact .nil
  | cons a rest ih =>
    obtain ⟨here, behind⟩ := List.forall_mem_cons.mp all
    cases a with
    | pipeline | command => cases here
    | assignment name value =>
      rw [expandAssignments_cons] at ran
      obtain ⟨text, m, -, others⟩ := bind_eq_ok ran
      obtain ⟨later, u, ranLater, done⟩ := bind_eq_ok others
      cases done
      exact .cons ⟨value, rfl⟩ (ih behind ranLater)

end Nodes

section Failures

variable {perform : Call → Shell Int32} (performed : ∀ c, Ends True Failure.External (perform c))
include performed

theorem external_runProgram {capture : String → Shell String}
    (captured : ∀ code, Ends True Failure.External (capture code)) (p : Program) :
    Ends True Failure.External (runProgram perform capture p) := by
  have inside : ∀ code ∈ p.substitutions, Ends True Failure.External (capture code) :=
    fun code _ => captured code
  have ends := ends_runProgram performed (fun e => ⟨nofun, nofun⟩) inside
  exact ends.mono (fun _ => trivial) fun _ => id

theorem external_captureWithin (depth : Nat) (code : String) :
    Ends True Failure.External (captureWithin perform depth code) := by
  induction depth generalizing code with
  | zero => exact .throw ⟨nofun, nofun⟩
  | succ depth ih =>
    unfold captureWithin
    split
    · exact .throw ⟨nofun, nofun⟩
    · exact (external_runProgram performed ih _).collecting.bind fun _ _ => .pure _ trivial

end Failures

theorem external_evaluate (start : Launcher) (text : String) :
    Ends True Failure.External (evaluate start text) := by
  have performed (c : Call) : Ends True Failure.External (invoke start c) :=
    (ends_invoke start c).mono id fun _ command => command.external
  refine .bind (.modifying _) fun _ _ => ?_
  split
  · exact .throw ⟨nofun, nofun⟩
  · exact external_runProgram performed (external_captureWithin performed _) _

/-- Whatever the tokens, the parser finds no token where it cannot come, and builds statements, commands
and assignments in their places only. So no fragment fails because a stage is no command or a command
has no name, and no node in front of a command is left out. -/
theorem internal_errors_unreachable (start : Launcher) :
    (∀ ts, constructNodes ts = (parseTokens ts).map Program.nodes ∧
      (∀ t, constructNodes ts ≠ .error (.unexpectedToken t)) ∧
      ∀ nodes, constructNodes ts = .ok nodes → ∀ node ∈ nodes, node.IsStatement) ∧
    ∀ text s,
      Nodes.evaluate start text s = evaluate start text s ∧
      (∀ f, (Nodes.evaluate start text s).1 = .error f →
        f.cause ≠ .notACommand ∧ f.cause ≠ .emptyCommand) ∧
      ∀ nodes, parseNodes text = .ok nodes → ∀ node ∈ nodes, ∀ words assignments,
        .command words assignments ∈ node.stages → ∀ capture s t assigned,
          Nodes.expandAssignments capture assignments s = (.ok assigned, t) →
            List.Forall₂ (fun a e => ∃ value, a = .assignment e.1 value) assignments assigned := by
  refine ⟨fun ts => ⟨constructNodes_eq ts, constructNodes_ne_unexpectedToken ts, fun nodes read =>
    isStatement_constructNodes read⟩, fun text s => ⟨by rw [Nodes.evaluate_eq], fun f failed => ?_, ?_⟩⟩
  · have ends := external_evaluate start text s
    rw [Nodes.evaluate_eq] at failed
    rwa [failed] at ends
  · intro nodes read node member words assignments stage capture s t assigned ran
    have command := (isStatement_parseNodes read node member).isCommand_stages _ stage
    exact Nodes.forall₂_expandAssignments command.2 ran

/-- An assignment by itself and one behind a pipe, in front of a command that there is not. -/
theorem internal_errors_unreachable_failing :
    let text := "x=a; echo | y=$x b"
    let assignments : List Node := [.assignment "y" (some [.parameter "x"])]
    let last : Node := .pipeline [.command [[.literal "echo"]] [], .command [[.literal "b"]] assignments]
    let nodes : List Node := [.command [] [.assignment "x" (some [.literal "a"])], last]
    let s := ShellContext.enter {} (.ofGlobals ∅) .idle
    (∃ ts, constructNodes ts = .ok nodes ∧ ∀ node ∈ nodes, node.IsStatement) ∧
      (∃ f, (Nodes.evaluate Session.noProgram text s).1 = .error f ∧
        f.cause ≠ .notACommand ∧ f.cause ≠ .emptyCommand) ∧
      parseNodes text = .ok nodes ∧ Nodes.expandAssignments pure assignments s = (.ok [("y", "")], s) ∧
      List.Forall₂ (fun a e => ∃ value, a = .assignment e.1 value) assignments [("y", "")] := by
  have parsed : parse "x=a; echo | y=$x b" = .ok [.single ⟨[⟨"x", some [.literal "a"]⟩], []⟩,
      .pipeline [⟨[], [[.literal "echo"]]⟩, ⟨[⟨"y", some [.parameter "x"]⟩], [[.literal "b"]]⟩]] := by
    decide +kernel
  have failed : (evaluate Session.noProgram "x=a; echo | y=$x b"
      (ShellContext.enter {} (.ofGlobals ∅) .idle)).1 = .error { cause := .commandNotFound "b" } := by
    decide +kernel
  intro text assignments last nodes s
  have read : parseNodes text = .ok nodes := by
    rw [parseNodes_eq, parsed]
    rfl
  obtain ⟨built, evaluated⟩ := internal_errors_unreachable Session.noProgram
  obtain ⟨same, external, expanded⟩ := evaluated text s
  have ends := (congrArg Prod.fst same).trans failed
  have ran : Nodes.expandAssignments pure assignments s = (.ok [("y", "")], s) := by rfl
  refine ⟨?_, ⟨_, ends, external _ ends⟩, read, ran, ?_⟩
  · obtain ⟨ts, lexed, accepted⟩ := parse_eq_ok.mp parsed
    have nodes : constructNodes ts = .ok nodes := by
      rw [constructNodes_eq, accepted]
      rfl
    exact ⟨ts, nodes, (built ts).2.2 _ nodes⟩
  · exact expanded nodes read last (by simp [nodes]) [[.literal "b"]] assignments
      (by simp [last, Node.stages]) pure s s _ ran

end Shell

end SessionShell
