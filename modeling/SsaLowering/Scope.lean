/-
# SsaLowering.Scope -- nested scopes and what names are bound to

A `ScopeTable` is a tree of frames that only grows.  A frame knows the chain of
its enclosing scopes, nearest first, and binds names for itself alone.  A lookup
takes the first frame of the chain that binds the name, so an inner binding
shadows an outer one without touching it; a qualified lookup asks one frame.
`bind` gives back what it replaced and `restore` undoes it (`restore_bind`).
-/
import SsaLowering.Ir.Operand
import SsaLowering.Symbol

namespace SsaLowering

set_option autoImplicit false

open Ir (Ty ValueId Operand)

/-- A scope, by the order in which scopes were entered; the global scope is the first. -/
structure ScopeId where
  index : Nat
deriving DecidableEq, Inhabited

/-- The slot that backs a mutable variable. -/
structure StackSlot where
  ptr : ValueId
  ty : Ty
deriving DecidableEq, Inhabited

/-- What a name is bound to. -/
inductive BoundValue where
  /-- Read as it is. -/
  | direct (operand : Operand)
  /-- Read by a load, written by a store. -/
  | slot (slot : StackSlot)
  /-- Only good as the object of a member access. -/
  | namespace_ (scope : ScopeId)
deriving Inhabited

/-- One scope.  Only the scope of a namespace has a name. -/
structure Frame where
  name : Option Symbol
  enclosing : List ScopeId
  bindings : Symbol → Option BoundValue

/-- A frame that binds nothing. -/
def Frame.fresh (name : Option Symbol) (enclosing : List ScopeId) : Frame :=
  ⟨name, enclosing, fun _ => none⟩

instance : Inhabited Frame := ⟨.fresh none []⟩

/-- Make `name` mean `value` in a frame, or nothing. -/
def Frame.assign (frame : Frame) (name : Symbol) (value : Option BoundValue) : Frame :=
  { frame with bindings := fun other => if other = name then value else frame.bindings other }

/-- All scopes of one lowering. -/
structure ScopeTable where
  frames : List Frame
deriving Inhabited

namespace ScopeTable

/-- The global scope alone. -/
def initial : ScopeTable := ⟨[.fresh none []]⟩

def global : ScopeId := ⟨0⟩

def frame? (t : ScopeTable) (scope : ScopeId) : Option Frame := t.frames[scope.index]?

def contains (t : ScopeTable) (scope : ScopeId) : Bool := scope.index < t.frames.length

/-- The enclosing scopes of a scope, nearest first. -/
def enclosing (t : ScopeTable) (scope : ScopeId) : List ScopeId :=
  ((t.frame? scope).map (·.enclosing)).getD []

/-- A scope and its enclosing scopes, innermost first. -/
def chain (t : ScopeTable) (scope : ScopeId) : List ScopeId := scope :: t.enclosing scope

def parent? (t : ScopeTable) (scope : ScopeId) : Option ScopeId := (t.enclosing scope).head?

def name? (t : ScopeTable) (scope : ScopeId) : Option Symbol := (t.frame? scope).bind (·.name)

/-! ## Lookup -/

/-- The binding of a name in one scope alone. -/
def lookupIn (t : ScopeTable) (scope : ScopeId) (name : Symbol) : Option BoundValue :=
  (t.frame? scope).bind (·.bindings name)

/-- The innermost binding of a name that is visible in a scope. -/
def resolve (t : ScopeTable) (scope : ScopeId) (name : Symbol) : Option BoundValue :=
  (t.chain scope).findSome? (t.lookupIn · name)

/-- The names of the namespaces around a scope, outermost first. -/
def namespacePath (t : ScopeTable) (scope : ScopeId) : List Symbol :=
  ((t.chain scope).filterMap t.name?).reverse

/-! ## Growth and change -/

/-- A new scope inside `parent`; a namespace gives it a name. -/
def enter (t : ScopeTable) (parent : ScopeId) (name : Option Symbol) : ScopeId × ScopeTable :=
  (⟨t.frames.length⟩, ⟨t.frames ++ [.fresh name (t.chain parent)]⟩)

/-- Make `name` mean `value` in one scope, or nothing. -/
def assign (t : ScopeTable) (scope : ScopeId) (name : Symbol) (value : Option BoundValue) :
    ScopeTable :=
  ⟨t.frames.modify scope.index (·.assign name value)⟩

/-- Bind a name in one scope; the first result is the binding it replaces. -/
def bind (t : ScopeTable) (scope : ScopeId) (name : Symbol) (value : BoundValue) :
    Option BoundValue × ScopeTable :=
  (t.lookupIn scope name, t.assign scope name (some value))

/-- Undo a `bind`, given what it replaced. -/
def restore (t : ScopeTable) (scope : ScopeId) (name : Symbol) (previous : Option BoundValue) :
    ScopeTable :=
  t.assign scope name previous

/-- Forget the bindings of a finished scope. -/
def discard (t : ScopeTable) (scope : ScopeId) : ScopeTable :=
  ⟨t.frames.modify scope.index fun frame => .fresh frame.name frame.enclosing⟩

end ScopeTable

theorem Frame.assign_assign (frame : Frame) (name : Symbol) (v w : Option BoundValue) :
    (frame.assign name v).assign name w = frame.assign name w := by
  simp only [assign]
  congr 1
  funext other
  split <;> rfl

theorem Frame.assign_bindings (frame : Frame) (name : Symbol) :
    frame.assign name (frame.bindings name) = frame := by
  cases frame
  simp only [assign, Frame.mk.injEq, true_and]
  funext other
  split
  next same => rw [same]
  next => rfl

theorem ScopeTable.restore_bind (t : ScopeTable) (scope : ScopeId) (name : Symbol)
    (value : BoundValue) :
    let (previous, bound) := t.bind scope name value
    bound.restore scope name previous = t := by
  simp only [bind, restore, assign]
  cases t with | mk frames =>
  congr 1
  apply List.ext_getElem?
  intro k
  rcases Nat.lt_or_ge k frames.length with inside | outside
  · by_cases here : scope.index = k
    · subst here
      simp [lookupIn, frame?, List.getElem?_eq_getElem inside,
        Frame.assign_assign, Frame.assign_bindings]
    · simp [here, List.getElem?_eq_getElem inside]
  · simp [List.getElem?_modify, List.getElem?_eq_none_iff.2 outside]

end SsaLowering
