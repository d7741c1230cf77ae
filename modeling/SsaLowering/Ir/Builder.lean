/-
# SsaLowering.Ir.Builder -- building the body of a function

A `Builder` is a function under construction, the block at whose end the next
instruction goes, and the names already used for blocks and values.  Every
emission is checked against the typing rules, and nothing is appended to a block
that has ended.  A refused operation gives no new builder, so it changes
nothing; slots are the one kind of instruction placed elsewhere, after the slots
at the top of the entry block, so that they dominate every use.
-/
import SsaLowering.Ir.NameSupply
import SsaLowering.Ir.Typing

namespace SsaLowering.Ir

set_option autoImplicit false

/-- A function under construction. -/
structure Builder where
  function : Function
  current : Option BlockId
  blockNames : NameSupply
  valueNames : NameSupply
deriving Inhabited

namespace Builder

/-- Start, or go on, building a function; no block is selected. -/
def ofFunction (f : Function) : Builder where
  function := f
  current := none
  blockNames := .ofUsed (f.blocks.map (·.name))
  valueNames := .ofUsed (f.values.filterMap (·.name))

def returnTy (b : Builder) : Ty := b.function.returnTy

/-- The value of the parameter at `index`. -/
def param? (b : Builder) (index : Nat) : Option ValueId := b.function.params[index]?

def entry? (b : Builder) : Option BlockId := b.function.entry?

/-- Whether a block exists and has ended. -/
def hasTerminator (b : Builder) (block : BlockId) : Bool :=
  ((b.function.block? block).bind (·.terminator)).isSome

/-- Whether nothing can be emitted: no block is selected or the selected one has ended. -/
def isTerminated (b : Builder) : Bool :=
  match b.current with
  | some block => b.hasTerminator block
  | none => true

/-! ## Blocks and names -/

/-- Append an empty block; its label is made unique. -/
def appendBlock (b : Builder) (name : String) : BlockId × Builder :=
  let (label, names) := b.blockNames.fresh name
  let f := b.function
  (⟨f.blocks.length⟩,
    { b with
      function := { f with blocks := f.blocks ++ [⟨label, [], none⟩] }
      blockNames := names })

/-- Select the block at whose end the next instruction goes. -/
def positionAtEnd (b : Builder) (block : BlockId) : Except BuildError Builder :=
  if (b.function.block? block).isSome then .ok { b with current := some block }
  else .error (.unknownBlock block)

/-- Name an unnamed value; says whether the value had no name before. -/
def nameValue (b : Builder) (value : ValueId) (name : String) :
    Except BuildError (Bool × Builder) :=
  match b.function.value? value with
  | none => .error (.unknownValue value)
  | some data =>
    if data.name.isSome then .ok (false, b)
    else
      let (chosen, names) := b.valueNames.fresh name
      let f := b.function
      .ok (true,
        { b with
          function := { f with
            values := f.values.modify value.index fun data => { data with name := some chosen } }
          valueNames := names })

/-! ## Emission -/

/-- The selected block, which has to be open. -/
def openBlock (b : Builder) : Except BuildError BlockId :=
  match b.current with
  | none => .error .noInsertionPoint
  | some block =>
    match b.function.block? block with
    | none => .error (.unknownBlock block)
    | some data =>
      if data.terminator.isSome then .error (.blockTerminated data.name) else .ok block

/-- A new entry of the value table. -/
def newValue (b : Builder) (ty : Ty) (block : BlockId) : ValueId × Builder :=
  let f := b.function
  (⟨f.values.length⟩,
    { b with function := { f with values := f.values ++ [⟨none, ty, .inst block⟩] } })

/-- Change one block. -/
def modifyBlock (b : Builder) (block : BlockId) (change : BasicBlock → BasicBlock) : Builder :=
  { b with
    function := { b.function with blocks := b.function.blocks.modify block.index change } }

/-- Append an instruction to the selected block; the result is the value it
defines, if its typing rule gives one. -/
def emit (b : Builder) (action : Action) (signature : Option FunctionTy) :
    Except BuildError (Option ValueId × Builder) := do
  let block ← b.openBlock
  let (result, b) := match ← b.function.checkAction signature action with
    | none => (none, b)
    | some ty =>
      let (value, b) := b.newValue ty block
      (some value, b)
  return (result, b.modifyBlock block fun data =>
    { data with instructions := data.instructions ++ [⟨result, action⟩] })

/-- Append an instruction that has to define a value. -/
def emitValue (b : Builder) (action : Action) : Except BuildError (ValueId × Builder) := do
  match ← b.emit action none with
  | (some value, b) => return (value, b)
  | (none, _) => throw (.invalidType action.opcode .void)

/-- End the selected block. -/
def terminate (b : Builder) (terminator : Terminator) : Except BuildError Builder := do
  let block ← b.openBlock
  b.function.checkTerminator terminator
  return b.modifyBlock block fun data => { data with terminator := some terminator }

/-- Reserve a stack slot at the top of the entry block, after the slots that are
there already. -/
def alloca (b : Builder) (ty : Ty) (name : String) : Except BuildError (ValueId × Builder) := do
  let some entry := b.entry? | throw .noInsertionPoint
  let action := Action.alloca ty
  discard <| b.function.checkAction none action
  let (value, b) := b.newValue .ptr entry
  let (_, b) ← b.nameValue value name
  return (value, b.modifyBlock entry fun data =>
    { data with
      instructions := data.instructions.takeWhile (·.action.isAlloca) ++
        ⟨some value, action⟩ :: data.instructions.dropWhile (·.action.isAlloca) })

def load (b : Builder) (ty : Ty) (ptr : Operand) : Except BuildError (ValueId × Builder) :=
  b.emitValue (.load ty ptr)

def store (b : Builder) (value ptr : Operand) : Except BuildError Builder := do
  return (← b.emit (.store value ptr) none).2

def fadd (b : Builder) (lhs rhs : Operand) : Except BuildError (ValueId × Builder) :=
  b.emitValue (.fadd lhs rhs)

/-- Call a function at the given signature; a void call defines no value. -/
def call (b : Builder) (callee : FuncId) (signature : FunctionTy) (args : List Operand) :
    Except BuildError (Option ValueId × Builder) :=
  b.emit (.call callee args) (some signature)

def br (b : Builder) (target : BlockId) : Except BuildError Builder := b.terminate (.br target)

def condBr (b : Builder) (cond : Operand) (thenBlock elseBlock : BlockId) :
    Except BuildError Builder :=
  b.terminate (.condBr cond thenBlock elseBlock)

def ret (b : Builder) (value : Option Operand) : Except BuildError Builder :=
  b.terminate (.ret value)

def unreachable (b : Builder) : Except BuildError Builder := b.terminate .unreachable

end Builder

end SsaLowering.Ir
