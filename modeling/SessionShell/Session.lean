import SessionShell.Report
import SessionShell.Scope
import SessionShell.Shell.State

/-! Sessions. A fragment sees every binding that earlier fragments made, and what it defines goes
into the store when it has run. The ambient globals are put back as they were before. -/

namespace SessionShell

structure Evaluated (α κ : Type) where
  failure : Option String
  output : Bytes
  complaints : Bytes
  names : Names α
  context : κ
  host : Host

/-- How fragments are evaluated. The context keeps a state of its own besides the names. -/
structure Interpreter (α κ : Type) where
  evaluate : String → Names α → κ → Host → Evaluated α κ

structure Session (α κ : Type) where
  store : Scope α
  names : Names α
  context : κ

structure Orders (α : Type) where
  store : List (String × α) → List (String × α)
  globals : List (String × α) → List (String × α)
  locals : List (String × α) → List (String × α)
  overrides : List (String × α) → List (String × α)
  ambient : List (String × α) → List (String × α)

namespace Orders

variable {α : Type}

structure Faithful (o : Orders α) : Prop where
  store : ∀ l, (o.store l).Perm l
  globals : ∀ l, (o.globals l).Perm l
  locals : ∀ l, (o.locals l).Perm l
  overrides : ∀ l, (o.overrides l).Perm l
  ambient : ∀ l, (o.ambient l).Perm l

def increasing : Orders α :=
  ⟨id, id, id, id, id⟩

theorem increasing_faithful : (increasing : Orders α).Faithful :=
  ⟨.refl, .refl, .refl, .refl, .refl⟩

end Orders

namespace Session

variable {α κ : Type}

def insertAll (entries : List (String × α)) (scope : Scope α) : Scope α :=
  entries.foldl (fun scope (name, value) => scope.insert name value) scope

/-- The globals that a fragment starts with: the ambient ones, overlaid by the store. -/
def inject (o : Orders α) (store ambient : Scope α) : Scope α :=
  insertAll (o.store store.toList) ambient

structure Sorting (α : Type) where
  store : Scope α
  globals : Scope α
  overrides : Scope α

def takeGlobal (ambient : Scope α) (s : Sorting α) (name : String) : Sorting α :=
  if s.store.contains name then
    match s.globals[name]? with
    | some value =>
      { s with store := s.store.insert name value, globals := s.globals.erase name }
    | none => s
  else if ambient.contains name then s
  else match s.globals[name]? with
    | some value =>
      { s with overrides := s.overrides.insert name value, globals := s.globals.erase name }
    | none => s

/-- Copies one local into the store, if it is tracked or was not there before the run. -/
def takeLocal (before : Scope α) (store : Scope α) (entry : String × α) : Scope α :=
  if store.contains entry.1 || !before.contains entry.1 then store.insert entry.1 entry.2 else store

structure Reconciled (α : Type) where
  store : Scope α
  globals : Scope α

/-- Sorts what a fragment left. `ambient` are the names before the run, and `after` those at its
end. -/
def reconcile (o : Orders α) (store : Scope α) (ambient after : Names α) : Reconciled α :=
  let sorted := ((o.globals after.globals.toList).map (·.1)).foldl (takeGlobal ambient.globals)
    ⟨store, after.globals, ∅⟩
  let store := (o.locals after.locals.toList).foldl (takeLocal ambient.locals) sorted.store
  let store := insertAll (o.overrides sorted.overrides.toList) store
  let left := sorted.globals.filter fun name _ => ambient.globals.contains name
  { store, globals := insertAll (o.ambient ambient.globals.toList) left }

def events (e : Evaluated α κ) : List Event :=
  (if e.output = [] then [] else [.shell e.output]) ++
    (if e.complaints = [] then [] else [.complaint e.complaints]) ++
    (e.failure.map Event.error).toList

/-- Runs a fragment. A failure is reported, and what the fragment did before counts. -/
def run (i : Interpreter α κ) (o : Orders α) (code : String) (s : Session α κ) (h : Host) :
    Session α κ × Host × List Event :=
  let injected := { s.names with globals := inject o s.store s.names.globals }
  let e := i.evaluate code injected s.context h
  let r := reconcile o s.store s.names e.names
  ({ store := r.store, names := { e.names with globals := r.globals }, context := e.context },
    e.host, events e)

end Session

end SessionShell
