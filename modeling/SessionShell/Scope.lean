import Std.Data.ExtTreeMap

/-! Scopes map names to values. A fragment looks names up in two of them: its own locals, and behind
them the globals. -/

namespace SessionShell

/-- A finite map from names. Two scopes are equal when every name has the same value in both. -/
abbrev Scope (α : Type) := Std.ExtTreeMap String α

namespace Scope

variable {α : Type}

/-- The scope with these entries; of equal names the last one wins. -/
def ofEntries (entries : List (String × α)) : Scope α :=
  (∅ : Scope α).insertMany entries

def overlay (behind front : Scope α) : Scope α :=
  behind ∪ front

@[simp] theorem getElem?_overlay (behind front : Scope α) (name : String) :
    (overlay behind front)[name]? = front[name]?.or behind[name]? :=
  Std.ExtTreeMap.getElem?_union

end Scope

structure Names (α : Type) where
  globals : Scope α
  locals : Scope α

namespace Names

variable {α : Type}

/-- The value of a name. Locals shadow globals. -/
def lookup (names : Names α) (name : String) : Option α :=
  names.locals[name]?.or names.globals[name]?

def setGlobal (name : String) (value : α) (names : Names α) : Names α :=
  { names with globals := names.globals.insert name value }

def setLocal (name : String) (value : α) (names : Names α) : Names α :=
  { names with locals := names.locals.insert name value }

end Names

end SessionShell
