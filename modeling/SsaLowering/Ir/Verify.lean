/-
# SsaLowering.Ir.Verify -- the rules for finished functions and modules

A finished function is sound when every block has ended and branches to blocks
that exist, every instruction and terminator is well-typed under the signatures
of the module, no value is defined twice, and on reachable blocks every use is
dominated by its definition.  `Function.verify` gives the first defect in this
order, and within one rule the first in block order; a declaration has none.
`Module.verify` also asks that function names are distinct.
-/
import SsaLowering.Ir.ControlFlow
import SsaLowering.Ir.Module
import SsaLowering.Ir.Typing

namespace SsaLowering.Ir

set_option autoImplicit false

/-- The place of an instruction: a block and a position in it. -/
structure Site where
  block : BlockId
  position : Nat
deriving DecidableEq, Inhabited

/-- A read of a value at a position of a block; the terminator stands after the
last instruction. -/
structure Use where
  position : Nat
  value : ValueId
deriving DecidableEq, Inhabited

/-- Every value of a function with its defining place; a parameter has none. -/
abbrev Definitions := List (ValueId × Option Site)

/-- The reads of values in a block, in order. -/
def BasicBlock.uses (block : BasicBlock) : List Use :=
  let reads (position : Nat) (operands : List Operand) : List Use :=
    (operands.filterMap Operand.value?).map (⟨position, ·⟩)
  (block.instructions.mapIdx fun position inst => reads position inst.action.operands).flatten
    ++ reads block.instructions.length ((block.terminator.map Terminator.operands).getD [])

namespace Function

/-! ## Terminators and types -/

/-- Every block has ended, and in blocks that exist. -/
def checkTerminators (f : Function) : Except Defect Unit :=
  f.blocks.forM fun block =>
    match block.terminator with
    | none => throw (.missingTerminator f.name block.name)
    | some terminator =>
      match terminator.successors.find? fun target => (f.block? target).isNone with
      | some target => throw (.unknownBlock f.name target)
      | none => return ()

/-- The signature under which an action is checked: that of the callee for a call. -/
def signatureFor (m : Module) : Action → Option FunctionTy
  | .call callee _ => m.signature? callee
  | _ => none

/-- Every instruction and terminator satisfies its typing rule. -/
def checkTypes (f : Function) (m : Module) : Except Defect Unit :=
  f.blocks.forM fun block => do
    let wrap {α : Type} (result : Except BuildError α) : Except Defect Unit :=
      match result with
      | .ok _ => return ()
      | .error cause => throw (.illTyped f.name block.name cause)
    block.instructions.forM fun inst =>
      wrap (f.checkAction (signatureFor m inst.action) inst.action)
    match block.terminator with
    | some terminator => wrap (f.checkTerminator terminator)
    | none => return ()

/-! ## Definitions before uses -/

/-- The results of all instructions with their places, in order. -/
def results (f : Function) : List (ValueId × Site) :=
  (f.blocks.mapIdx fun index block =>
    (block.instructions.mapIdx fun position inst =>
      inst.result.map fun value => (value, Site.mk ⟨index⟩ position)).filterMap id).flatten

/-- The definitions of all values: each is in the table and defined once. -/
def definitions (f : Function) : Except Defect Definitions :=
  f.results.foldlM
    (fun known (value, site) =>
      if (f.value? value).isNone then throw (.undefinedValue f.name value)
      else if (known.lookup value).isSome then throw (.redefined f.name value)
      else return (value, some site) :: known)
    (f.params.map fun param => (param, none))

/-- A definition comes before a use: earlier in the same block, or in another
block that dominates the one of the use. -/
def precedes (doms : Array BlockSet) (definition : Site) (block : BlockId) (position : Nat) :
    Bool :=
  if definition.block = block then definition.position < position
  else (doms.getD block.index .empty).contains definition.block

/-- Every use on a reachable block comes after its definition; every use anywhere
has one. -/
def checkDominance (f : Function) : Except Defect Unit := do
  let definitions ← f.definitions
  let reachable := f.reachable
  let doms := f.dominators
  (f.blockIds.zip f.blocks).forM fun (id, block) =>
    block.uses.forM fun use =>
      match definitions.lookup use.value with
      | none => throw (.undefinedValue f.name use.value)
      | some none => return ()
      | some (some site) =>
        if reachable.contains id && !precedes doms site id use.position then
          throw (.notDominated f.name use.value block.name)
        else return ()

/-- The first defect of a function. -/
def verify (f : Function) (m : Module) : Except Defect Unit := do
  if f.isDeclaration then return ()
  f.checkTerminators
  f.checkTypes m
  f.checkDominance

end Function

namespace Module

/-- The first function name that an earlier function has too. -/
def repeatedName? : List Function → List String → Option String
  | [], _ => none
  | f :: rest, seen => if f.name ∈ seen then some f.name else repeatedName? rest (f.name :: seen)

/-- The first defect of a module. -/
def verify (m : Module) : Except Defect Unit := do
  if let some name := repeatedName? m.functions [] then throw (.duplicateFunction name)
  m.functions.forM fun f => f.verify m

end Module

end SsaLowering.Ir
