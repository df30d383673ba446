import SessionShell.Session

/-! What a run leaves in the store and among the globals, name by name. The loops of the
reconciliation meet each name at most once, and a step changes nothing under other names. So what
they leave under a name is decided by the one step that meets it, and their order is irrelevant. -/

namespace SessionShell

variable {α β κ σ : Type}

theorem Scope.nodup_names {scope : Scope α} {entries : List (String × α)}
    (order : entries.Perm scope.toList) : (entries.map Prod.fst).Nodup := by
  have distinct : (scope.toList.map Prod.fst).Nodup := by
    rw [List.Nodup, List.pairwise_map]
    exact scope.distinct_keys_toList.imp fun h same => h (by simp [same])
  exact (order.map Prod.fst).nodup_iff.mpr distinct

theorem Scope.mem_entries {scope : Scope α} {entries : List (String × α)}
    (order : entries.Perm scope.toList) (name : String) (value : α) :
    (name, value) ∈ entries ↔ scope[name]? = some value :=
  order.mem_iff.trans Std.ExtTreeMap.mem_toList_iff_getElem?_eq_some

section Loop

variable (step : σ → String × α → σ) (view : σ → β)

theorem foldl_unmet (name : String) (frame : ∀ t e, e.1 ≠ name → view (step t e) = view t)
    (entries : List (String × α)) (unmet : ∀ e ∈ entries, e.1 ≠ name) (s : σ) :
    view (entries.foldl step s) = view s := by
  induction entries generalizing s with
  | nil => rfl
  | cons e entries ih =>
    rw [List.foldl_cons, ih fun e he => unmet e (List.mem_cons_of_mem _ he)]
    exact frame s e (unmet e List.mem_cons_self)

/-- What a loop over the entries of a scope leaves under a name: what was there before, unless the
scope has the name, and then what the step that meets it leaves. -/
theorem foldl_entries (name : String) {scope : Scope α} {entries : List (String × α)}
    (order : entries.Perm scope.toList)
    (frame : ∀ t e, e.1 ≠ name → view (step t e) = view t) (s : σ) (left : α → β)
    (effect : ∀ t value, view t = view s → scope[name]? = some value →
      view (step t (name, value)) = left value) :
    view (entries.foldl step s) = (scope[name]?).elim (view s) left := by
  cases found : scope[name]? with
  | none =>
    refine foldl_unmet step view name frame entries (fun e he same => ?_) s
    have present := (Scope.mem_entries order e.1 e.2).mp he
    rw [same, found] at present
    cases present
  | some value =>
    obtain ⟨front, back, rfl⟩ :=
      List.append_of_mem ((Scope.mem_entries order name value).mpr found)
    -- the names are distinct, so the steps before and behind this one meet others
    have distinct := Scope.nodup_names order
    simp only [List.map_append, List.map_cons, List.nodup_append, List.nodup_cons] at distinct
    obtain ⟨-, ⟨later, -⟩, earlier⟩ := distinct
    have before : view (front.foldl step s) = view s :=
      foldl_unmet step view name frame front
        (fun e he => earlier _ (List.mem_map_of_mem he) _ List.mem_cons_self) s
    rw [List.foldl_append, List.foldl_cons, foldl_unmet step view name frame back
      fun e he same => later (same ▸ List.mem_map_of_mem he)]
    exact effect _ value before found

end Loop

namespace Session

theorem insertAll_eq_overlay {scope : Scope α} {entries : List (String × α)}
    (order : entries.Perm scope.toList) (behind : Scope α) :
    insertAll entries behind = behind.overlay scope := by
  apply Std.ExtTreeMap.ext_getElem?
  intro name
  have loop := foldl_entries (fun s e => s.insert e.1 e.2) (fun s : Scope α => s[name]?) name order
    (fun t e other => by simp [Std.ExtTreeMap.getElem?_insert, other]) behind some
    (fun t value _ _ => by simp)
  rw [Scope.getElem?_overlay]
  refine loop.trans ?_
  cases scope[name]? <;> rfl

theorem inject_eq_overlay {o : Orders α} (faithful : o.Faithful) (store ambient : Scope α) :
    inject o store ambient = ambient.overlay store :=
  insertAll_eq_overlay (faithful.store _) ambient

def Sorting.under (name : String) (s : Sorting α) : Option α × Option α × Option α :=
  (s.store[name]?, s.globals[name]?, s.overrides[name]?)

theorem takeGlobal_frame (ambient : Scope α) (s : Sorting α) {name other : String}
    (differs : other ≠ name) : (takeGlobal ambient s other).under name = s.under name := by
  simp only [takeGlobal, Sorting.under]
  split
  · split <;> simp [Std.ExtTreeMap.getElem?_insert, Std.ExtTreeMap.getElem?_erase, differs]
  · split
    · rfl
    · split <;> simp [Std.ExtTreeMap.getElem?_insert, Std.ExtTreeMap.getElem?_erase, differs]

theorem takeGlobal_effect (ambient : Scope α) (s : Sorting α) {name : String} {value : α}
    (present : s.globals[name]? = some value) :
    (takeGlobal ambient s name).under name =
      if s.store[name]?.isSome then (some value, none, s.overrides[name]?)
      else if ambient[name]?.isSome then s.under name
      else (s.store[name]?, none, some value) := by
  simp only [takeGlobal, Sorting.under, present, Std.ExtTreeMap.contains_eq_isSome_getElem?]
  split
  · simp
  · split <;> simp [present]

theorem sorted_under {o : Orders α} (faithful : o.Faithful) (store ambient after : Scope α)
    (name : String) :
    (((o.globals after.toList).map (·.1)).foldl (takeGlobal ambient) ⟨store, after, ∅⟩).under
        name =
      (after[name]?).elim (store[name]?, none, none) fun value =>
        if store[name]?.isSome then (some value, none, none)
        else if ambient[name]?.isSome then (store[name]?, some value, none)
        else (store[name]?, none, some value) := by
  rw [List.foldl_map]
  have loop := foldl_entries (fun s e => takeGlobal ambient s e.1) (Sorting.under name) name
    (faithful.globals after.toList) (fun t e other => takeGlobal_frame ambient t other)
    ⟨store, after, ∅⟩
    (fun value =>
      if store[name]?.isSome then (some value, none, none)
      else if ambient[name]?.isSome then (store[name]?, some value, none)
      else (store[name]?, none, some value))
  rw [loop]
  · cases found : after[name]? <;> simp [Sorting.under, found]
  · intro t value same found
    simp only [Sorting.under, Prod.mk.injEq, found, Std.ExtTreeMap.getElem?_empty] at same
    rw [takeGlobal_effect ambient t same.2.1]
    simp only [Sorting.under, same]

theorem takeLocals_store {o : Orders α} (faithful : o.Faithful) (before after store : Scope α)
    (name : String) :
    ((o.locals after.toList).foldl (takeLocal before) store)[name]? =
      if store[name]?.isSome ∨ before[name]? = none then after[name]?.or store[name]?
      else store[name]? := by
  have loop := foldl_entries (takeLocal before) (fun s : Scope α => s[name]?) name
    (faithful.locals after.toList)
    (fun t e other => by
      simp only [takeLocal]
      split
      · simp [Std.ExtTreeMap.getElem?_insert, other]
      · rfl)
    store
    (fun value => if store[name]?.isSome ∨ before[name]? = none then some value else store[name]?)
    (fun t value same _ => by
      simp only [takeLocal, Std.ExtTreeMap.contains_eq_isSome_getElem?, same]
      cases before[name]? <;> cases found : store[name]? <;> simp [same, found])
  rw [loop]
  cases after[name]? <;> simp

/-- The value of a name in the store after a run that began with this store and these names. A
tracked name keeps the value that a fragment sees last; of a new one the global counts before the
local. -/
def settled (store : Scope α) (before after : Names α) (name : String) : Option α :=
  if name ∈ store then after.locals[name]?.or (after.globals[name]?.or store[name]?)
  else if name ∈ after.globals ∧ name ∉ before.globals then after.globals[name]?
  else if name ∈ after.locals ∧ name ∉ before.locals then after.locals[name]?
  else none

theorem isSome_settled (store : Scope α) (before after : Names α) (name : String) :
    (settled store before after name).isSome ↔
      name ∈ store ∨ (name ∈ after.globals ∧ name ∉ before.globals) ∨
        (name ∈ after.locals ∧ name ∉ before.locals) := by
  simp only [settled, Std.ExtTreeMap.mem_iff_isSome_getElem?]
  split
  · simp_all
  · split
    · simp_all
    · split <;> simp_all

theorem reconcile_store {o : Orders α} (faithful : o.Faithful) (store : Scope α)
    (before after : Names α) (name : String) :
    (reconcile o store before after).store[name]? = settled store before after name := by
  have globals := sorted_under faithful store before.globals after.globals name
  simp only [reconcile, insertAll_eq_overlay (faithful.overrides _), Scope.getElem?_overlay,
    takeLocals_store faithful]
  simp only [Sorting.under, Prod.ext_iff] at globals
  simp only [globals, settled, Std.ExtTreeMap.mem_iff_isSome_getElem?]
  cases store[name]? <;> cases after.globals[name]? <;> cases before.globals[name]? <;>
    cases after.locals[name]? <;> cases before.locals[name]? <;> rfl

theorem reconcile_globals {o : Orders α} (faithful : o.Faithful) (store : Scope α)
    (before after : Names α) : (reconcile o store before after).globals = before.globals := by
  apply Std.ExtTreeMap.ext_getElem?
  intro name
  simp only [reconcile, insertAll_eq_overlay (faithful.ambient _), Scope.getElem?_overlay,
    Std.ExtTreeMap.getElem?_filter', Std.ExtTreeMap.contains_eq_isSome_getElem?]
  cases before.globals[name]? <;> simp

/-- The names that a fragment sees at its start: the store lies in front of the ambient globals. -/
def visible (s : Session α κ) : Names α :=
  { s.names with globals := s.names.globals.overlay s.store }

def evaluated (i : Interpreter α κ) (code : String) (s : Session α κ) (h : Host) : Evaluated α κ :=
  i.evaluate code s.visible s.context h

theorem run_globals (i : Interpreter α κ) {o : Orders α} (faithful : o.Faithful) (code : String)
    (s : Session α κ) (h : Host) : (run i o code s h).1.names.globals = s.names.globals :=
  reconcile_globals faithful _ _ _

theorem run_locals (i : Interpreter α κ) {o : Orders α} (faithful : o.Faithful) (code : String)
    (s : Session α κ) (h : Host) :
    (run i o code s h).1.names.locals = (evaluated i code s h).names.locals := by
  simp only [run, inject_eq_overlay faithful, evaluated, visible]

theorem run_store (i : Interpreter α κ) {o : Orders α} (faithful : o.Faithful) (code : String)
    (s : Session α κ) (h : Host) (name : String) :
    (run i o code s h).1.store[name]? =
      settled s.store s.names (evaluated i code s h).names name := by
  simp only [run, inject_eq_overlay faithful, reconcile_store faithful, evaluated, visible]

theorem mem_store_run_iff (i : Interpreter α κ) {o : Orders α} (faithful : o.Faithful)
    (code : String) (s : Session α κ) (h : Host) (name : String) :
    let after := (evaluated i code s h).names
    name ∈ (run i o code s h).1.store ↔
      name ∈ s.store ∨ (name ∈ after.globals ∧ name ∉ s.names.globals) ∨
        (name ∈ after.locals ∧ name ∉ s.names.locals) := by
  rw [Std.ExtTreeMap.mem_iff_isSome_getElem?, run_store i faithful, isSome_settled]

theorem mem_store_run (i : Interpreter α κ) {o : Orders α} (faithful : o.Faithful) (code : String)
    (s : Session α κ) (h : Host) {name : String} (tracked : name ∈ s.store) :
    name ∈ (run i o code s h).1.store :=
  (mem_store_run_iff i faithful code s h name).mpr (.inl tracked)

theorem reconcile_order {o o' : Orders α} (faithful : o.Faithful) (faithful' : o'.Faithful)
    (store : Scope α) (before after : Names α) :
    reconcile o store before after = reconcile o' store before after := by
  have stores :
      (reconcile o store before after).store = (reconcile o' store before after).store := by
    apply Std.ExtTreeMap.ext_getElem?
    intro name
    rw [reconcile_store faithful, reconcile_store faithful']
  have globals := (reconcile_globals faithful store before after).trans
    (reconcile_globals faithful' store before after).symm
  cases h : reconcile o store before after
  cases h' : reconcile o' store before after
  simp_all

/-- The store after a run, name by name; no name is lost, and the orders in which the scopes are
gone through make no difference to anything that a run leaves. -/
theorem store_reconciled (i : Interpreter α κ) {o o' : Orders α} (faithful : o.Faithful)
    (faithful' : o'.Faithful) (code : String) (s : Session α κ) (h : Host) :
    (∀ name, (run i o code s h).1.store[name]? =
      settled s.store s.names (i.evaluate code s.visible s.context h).names name) ∧
    (∀ name ∈ s.store, name ∈ (run i o code s h).1.store) ∧
    run i o code s h = run i o' code s h := by
  refine ⟨run_store i faithful code s h, fun name => mem_store_run i faithful code s h, ?_⟩
  simp only [run, inject_eq_overlay faithful, inject_eq_overlay faithful',
    reconcile_order faithful faithful']

end Session

def Host.idle : Host :=
  { machine := { files := { entries := ∅ }, directory := [], environment := ∅, input := ⟨[], []⟩ }
    running := true }

def Orders.decreasing : Orders α :=
  ⟨List.reverse, List.reverse, List.reverse, List.reverse, List.reverse⟩

theorem Orders.decreasing_faithful : (decreasing : Orders α).Faithful :=
  ⟨List.reverse_perm, List.reverse_perm, List.reverse_perm, List.reverse_perm, List.reverse_perm⟩

def Interpreter.leaving (names : Names α) : Interpreter α Unit :=
  { evaluate := fun _ _ _ host =>
      { failure := none, output := [], complaints := [], names, context := (), host } }

namespace Session

theorem store_reconciled_mixed :
    let i : Interpreter Nat Unit := .leaving
      ⟨.ofEntries [("HOST", 9), ("old", 5), ("new", 6)], .ofEntries [("new", 7), ("own", 8)]⟩
    let s : Session Nat Unit := ⟨.ofEntries [("old", 1)], ⟨.ofEntries [("HOST", 7)], ∅⟩, ()⟩
    let r := run i .increasing "" s .idle
    (Orders.increasing : Orders Nat).Faithful ∧ (Orders.decreasing : Orders Nat).Faithful ∧
      r.1.store["old"]? = some 5 ∧ r.1.store["new"]? = some 6 ∧ r.1.store["own"]? = some 8 ∧
      r.1.store["HOST"]? = none ∧ r = run i .decreasing "" s .idle := by
  intro i s r
  obtain ⟨store, -, order⟩ :=
    store_reconciled i Orders.increasing_faithful Orders.decreasing_faithful "" s .idle
  refine ⟨Orders.increasing_faithful, Orders.decreasing_faithful, ?_, ?_, ?_, ?_, order⟩
  · exact (store "old").trans (by decide +kernel)
  · exact (store "new").trans (by decide +kernel)
  · exact (store "own").trans (by decide +kernel)
  · exact (store "HOST").trans (by decide +kernel)

end Session

end SessionShell
