/-
# SsaLowering.Proofs.Ir.References -- what functions mention of their module

A function mentions other functions, as callees and as operands, and constant data
inside of constants at any depth (`Function.references`).  It is `Linked` in a
module that has all of them.  Handles are positions in the tables of the module,
so a module that is at least as long keeps what is linked (`Linked.widen`).  A
function mentions what its operands do (`Function.linked_iff`).
-/
import SsaLowering.Proofs.Ir.Mentions
import SsaLowering.Proofs.Ir.Module
import SsaLowering.Proofs.Ir.Walk

namespace SsaLowering.Ir

set_option autoImplicit false

/-! ## References -/

/-- What can be mentioned of a module. -/
inductive Reference where
  | function (id : FuncId)
  | global (id : GlobalId)
deriving DecidableEq

/-- The module has what is mentioned. -/
def Module.Has (m : Module) : Reference → Prop
  | .function id => id.index < m.functions.length
  | .global id => id.index < m.globals.length

mutual

/-- The constant data that a constant mentions, in its fields at any depth. -/
def Constant.references : Constant → List Reference
  | .global id => [.global id]
  | .struct _ fields => Constant.allReferences fields
  | _ => []

def Constant.allReferences : List Constant → List Reference
  | [] => []
  | field :: rest => field.references ++ Constant.allReferences rest

end

def Operand.references : Operand → List Reference
  | .value _ => []
  | .constant c => c.references
  | .function id => [.function id]

/-- The callee and what the operands mention. -/
def Action.references (action : Action) : List Reference :=
  (match action with
    | .call callee _ => [.function callee]
    | _ => []) ++ action.operands.flatMap (·.references)

def Terminator.references (terminator : Terminator) : List Reference :=
  terminator.operands.flatMap (·.references)

def BasicBlock.references (block : BasicBlock) : List Reference :=
  block.instructions.flatMap (·.action.references) ++
    block.terminator.toList.flatMap (·.references)

def Function.references (f : Function) : List Reference := f.blocks.flatMap (·.references)

/-- The module has everything in a list of references. -/
def Module.HasAll (m : Module) (references : List Reference) : Prop :=
  ∀ reference ∈ references, m.Has reference

/-- The module has everything that the function mentions. -/
def Function.Linked (f : Function) (m : Module) : Prop := m.HasAll f.references

/-! ## Modules that grow -/

/-- `m'` has a function and constant data wherever `m` has. -/
structure Module.Widens (m m' : Module) : Prop where
  functions : m.functions.length ≤ m'.functions.length
  globals : m.globals.length ≤ m'.globals.length

section Modules

variable {m m' m'' : Module} {l l' : List Reference}

theorem Module.Widens.refl (m : Module) : m.Widens m := ⟨Nat.le_refl _, Nat.le_refl _⟩

theorem Module.Widens.trans (first : m.Widens m') (second : m'.Widens m'') : m.Widens m'' :=
  ⟨first.functions.trans second.functions, first.globals.trans second.globals⟩

theorem Module.Has.widen {reference : Reference} (has : m.Has reference) (wider : m.Widens m') :
    m'.Has reference := by
  cases reference with
  | function id => exact Nat.lt_of_lt_of_le has wider.functions
  | global id => exact Nat.lt_of_lt_of_le has wider.globals

theorem Module.HasAll.widen (has : m.HasAll l) (wider : m.Widens m') : m'.HasAll l :=
  fun reference member => (has reference member).widen wider

theorem Module.hasAll_nil (m : Module) : m.HasAll [] := nofun

theorem Module.hasAll_cons {reference : Reference} :
    m.HasAll (reference :: l) ↔ m.Has reference ∧ m.HasAll l :=
  List.forall_mem_cons

theorem Module.hasAll_flatMap {α : Type} {items : List α} {mentions : α → List Reference} :
    m.HasAll (items.flatMap mentions) ↔ ∀ item ∈ items, m.HasAll (mentions item) :=
  List.forall_mem_flatMap

theorem Function.Linked.widen {f : Function} (linked : f.Linked m) (wider : m.Widens m') :
    f.Linked m' :=
  Module.HasAll.widen linked wider

end Modules

/-- Where names are distinct, the name of a function leads to this function and to no other. -/
theorem Module.functionNamed?_of_function? {m : Module} (indexed : m.Indexed)
    (distinct : (m.functions.map (·.name)).Nodup) {id : FuncId} {f : Function}
    (known : m.function? id = some f) : m.functionNamed? f.name = some id := by
  obtain ⟨bound, here⟩ := List.getElem?_eq_some_iff.1 known
  apply Function.lookup_of_mem
  · rw [names_of_indexed indexed]
    exact distinct
  · rw [indexed]
    exact List.mem_mapIdx.2 ⟨id.index, bound, by rw [here]⟩

/-! ## Mentions -/

theorem Action.references_eq (action : Action) :
    action.references = action.mentions.flatMap (·.references) := by
  cases action <;> rfl

theorem BasicBlock.references_eq (block : BasicBlock) :
    block.references = block.mentions.flatMap (·.references) := by
  rw [references, mentions, List.flatMap_append, List.flatMap_assoc, List.flatMap_assoc]
  simp only [Action.references_eq]
  rfl

/-- What a function mentions of its module is what its operands mention. -/
theorem Function.linked_iff {f : Function} {m : Module} :
    f.Linked m ↔ f.MentionsOnly fun operand => m.HasAll operand.references := by
  rw [Linked, references, MentionsOnly, mentions, ← Module.hasAll_flatMap, List.flatMap_assoc]
  simp only [BasicBlock.references_eq]

end SsaLowering.Ir
