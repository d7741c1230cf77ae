/-
# SsaLowering.Proofs.Ir.Renumbering -- what the verifier asks of references

A body refers to functions as callees and, in operands, to functions and to constant
data at any depth of a constant.  The verifier types a call by the signature of its
callee, so in a verified module every callee is there.  Of a function or of constant
data in an operand it asks the type alone, which is that of an address whatever the
number: other numbers there (`Module.renumber`) leave every verdict as it is
(`Module.verify_renumber`).

So a verified module has its callees, and may mention in its operands what it does not
have (`Module.verified_callees`), as it does when a function is taken back or constant
data is dropped that a body mentions (`Module.verify_dangling`).
-/
import SsaLowering.Proofs.Ir.References
import SsaLowering.Proofs.Ir.Soundness

namespace SsaLowering.Ir

set_option autoImplicit false

/-! ## Other numbers -/

/-- New numbers for the functions and the constant data that operands mention. -/
structure Renumbering where
  function : FuncId → FuncId
  global : GlobalId → GlobalId

mutual

/-- The constant with new numbers for its constant data, in its fields at any depth. -/
def Constant.renumber (ρ : Renumbering) : Constant → Constant
  | .global id => .global (ρ.global id)
  | .struct ty fields => .struct ty (Constant.renumberAll ρ fields)
  | other => other

def Constant.renumberAll (ρ : Renumbering) : List Constant → List Constant
  | [] => []
  | field :: rest => field.renumber ρ :: Constant.renumberAll ρ rest

end

def Operand.renumber (ρ : Renumbering) : Operand → Operand
  | .value id => .value id
  | .constant c => .constant (c.renumber ρ)
  | .function id => .function (ρ.function id)

/-- The action with new numbers in its operands.  A callee keeps its number. -/
def Action.renumber (ρ : Renumbering) : Action → Action
  | .alloca ty => .alloca ty
  | .load ty ptr => .load ty (ptr.renumber ρ)
  | .store value ptr => .store (value.renumber ρ) (ptr.renumber ρ)
  | .fadd lhs rhs => .fadd (lhs.renumber ρ) (rhs.renumber ρ)
  | .call callee args => .call callee (args.map (·.renumber ρ))

def Instruction.renumber (ρ : Renumbering) (inst : Instruction) : Instruction :=
  { inst with action := inst.action.renumber ρ }

def Terminator.renumber (ρ : Renumbering) : Terminator → Terminator
  | .condBr cond thenBlock elseBlock => .condBr (cond.renumber ρ) thenBlock elseBlock
  | .ret value => .ret (value.map (·.renumber ρ))
  | other => other

def BasicBlock.renumber (ρ : Renumbering) (block : BasicBlock) : BasicBlock :=
  { block with
    instructions := block.instructions.map (·.renumber ρ)
    terminator := block.terminator.map (·.renumber ρ) }

def Function.renumber (ρ : Renumbering) (f : Function) : Function :=
  { f with blocks := f.blocks.map (·.renumber ρ) }

/-- The module whose bodies have new numbers in their operands. -/
def Module.renumber (ρ : Renumbering) (m : Module) : Module :=
  { m with functions := m.functions.map (·.renumber ρ) }

variable (ρ : Renumbering)

/-! ## What new numbers leave alone -/

section Parts

@[simp] theorem Constant.ty_renumber (c : Constant) : (c.renumber ρ).ty = c.ty := by
  cases c <;> simp [Constant.renumber, Constant.ty]

@[simp] theorem Operand.value?_renumber (operand : Operand) :
    (operand.renumber ρ).value? = operand.value? := by
  cases operand <;> rfl

@[simp] theorem Action.operands_renumber (action : Action) :
    (action.renumber ρ).operands = action.operands.map (·.renumber ρ) := by
  cases action <;> rfl

@[simp] theorem Terminator.operands_renumber (t : Terminator) :
    (t.renumber ρ).operands = t.operands.map (·.renumber ρ) := by
  cases t with
  | ret value => cases value <;> rfl
  | _ => rfl

@[simp] theorem Terminator.successors_renumber (t : Terminator) :
    (t.renumber ρ).successors = t.successors := by
  cases t <;> rfl

theorem Operand.values_renumber (operands : List Operand) :
    (operands.map (·.renumber ρ)).filterMap Operand.value? =
      operands.filterMap Operand.value? := by
  rw [List.filterMap_map]
  exact List.filterMap_congr fun operand _ => operand.value?_renumber ρ

@[simp] theorem BasicBlock.uses_renumber (block : BasicBlock) :
    (block.renumber ρ).uses = block.uses := by
  have last : ((block.terminator.map (·.renumber ρ)).map Terminator.operands).getD [] =
      ((block.terminator.map Terminator.operands).getD []).map (·.renumber ρ) := by
    cases block.terminator <;> simp
  simp only [BasicBlock.uses, BasicBlock.renumber, last, Operand.values_renumber,
    List.length_map]
  congr 2
  apply List.ext_getElem?
  intro i
  simp only [List.getElem?_mapIdx, List.getElem?_map, Option.map_map]
  refine congrArg (Option.map · _) (funext fun inst => ?_)
  simp [Instruction.renumber]

end Parts

namespace Function

variable (f : Function)

@[simp] theorem value?_renumber (id : ValueId) : (f.renumber ρ).value? id = f.value? id := rfl

@[simp] theorem block?_renumber (id : BlockId) :
    (f.renumber ρ).block? id = (f.block? id).map (·.renumber ρ) :=
  List.getElem?_map

@[simp] theorem successors_renumber (id : BlockId) :
    (f.renumber ρ).successors id = f.successors id := by
  rw [successors, successors, block?_renumber]
  cases f.block? id with
  | none => rfl
  | some block =>
    simp only [Option.map_some, BasicBlock.renumber]
    cases ended : block.terminator <;> simp [ended]

@[simp] theorem blockIds_renumber : (f.renumber ρ).blockIds = f.blockIds := by
  simp [blockIds, renumber]

@[simp] theorem results_renumber : (f.renumber ρ).results = f.results := by
  rw [results, results]
  congr 1
  apply List.ext_getElem?
  intro i
  simp only [renumber, List.getElem?_mapIdx, List.getElem?_map, Option.map_map]
  refine congrArg (Option.map · _) (funext fun block => congrArg (List.filterMap id) ?_)
  apply List.ext_getElem?
  intro j
  simp only [BasicBlock.renumber, List.getElem?_mapIdx, List.getElem?_map, Option.map_map]
  rfl

/-! ## Types -/

@[simp] theorem operandTy_renumber (operand : Operand) :
    (f.renumber ρ).operandTy (operand.renumber ρ) = f.operandTy operand := by
  cases operand with
  | constant c => exact congrArg Except.ok (c.ty_renumber ρ)
  | _ => rfl

@[simp] theorem expectTy_renumber (operand : Operand) (expected : Ty) (context : String) :
    (f.renumber ρ).expectTy (operand.renumber ρ) expected context =
      f.expectTy operand expected context := by
  rw [expectTy, operandTy_renumber]
  rfl

/-- A slot is an alloca, which has no operands. -/
@[simp] theorem slotTy?_renumber (operand : Operand) :
    (f.renumber ρ).slotTy? (operand.renumber ρ) = f.slotTy? operand := by
  rw [slotTy?, slotTy?, Operand.value?_renumber]
  refine congrArg _ (funext fun id => ?_)
  simp only [renumber, List.findSome?_map]
  refine congrArg (List.findSome? · _) (funext fun block => ?_)
  simp only [Function.comp_apply, BasicBlock.renumber, List.findSome?_map]
  refine congrArg (List.findSome? · _) (funext fun inst => ?_)
  simp only [Function.comp_apply, Instruction.renumber]
  cases inst.action <;> rfl

@[simp] theorem expectSlot_renumber (operand : Operand) (ty : Ty) (context : String) :
    (f.renumber ρ).expectSlot (operand.renumber ρ) ty context =
      f.expectSlot operand ty context := by
  rw [expectSlot, slotTy?_renumber]
  rfl

@[simp] theorem expectArgs_renumber : ∀ (args : List Operand) (params : List Ty),
    (f.renumber ρ).expectArgs (args.map (·.renumber ρ)) params = f.expectArgs args params
  | [], params => by rw [List.map_nil, expectArgs, expectArgs] <;> simp
  | _ :: _, [] => by rw [List.map_cons, expectArgs, expectArgs] <;> simp
  | arg :: args, param :: params => by
    rw [List.map_cons, expectArgs, expectArgs, expectTy_renumber, expectArgs_renumber args]

@[simp] theorem checkAction_renumber (signature : Option FunctionTy) (action : Action) :
    (f.renumber ρ).checkAction signature (action.renumber ρ) = f.checkAction signature action := by
  cases action with
  | call callee args =>
    cases signature <;> simp [Action.renumber, checkAction]
  | _ => simp [Action.renumber, checkAction]

@[simp] theorem checkTerminator_renumber (t : Terminator) :
    (f.renumber ρ).checkTerminator (t.renumber ρ) = f.checkTerminator t := by
  have targets : ∀ target, ((f.renumber ρ).block? target).isNone = (f.block? target).isNone := by
    simp
  simp only [checkTerminator, Terminator.successors_renumber, targets]
  split
  · rfl
  · cases t with
    | ret value =>
      cases value with
      | none => rfl
      | some value => exact f.expectTy_renumber ρ value _ _
    | condBr cond thenBlock elseBlock => exact f.expectTy_renumber ρ cond _ _
    | _ => rfl

/-! ## Walks -/

theorem explore_renumber (seen pending : List BlockId) :
    (f.renumber ρ).explore seen pending = f.explore seen pending := by
  have longer : (f.renumber ρ).blocks.length = f.blocks.length := List.length_map _
  fun_induction explore f seen pending with
  | case1 => rw [explore]
  | case2 seen block rest fresh ih =>
    rw [explore, longer, dif_pos fresh, successors_renumber, ih]
  | case3 seen block rest known ih => rw [explore, longer, dif_neg known, ih]

@[simp] theorem reachable_renumber : (f.renumber ρ).reachable = f.reachable := by
  have entry : Function.entry? (f.renumber ρ) = f.entry? := by
    simp [ entry?, isDeclaration, renumber, List.isEmpty_iff]
  rw [reachable, reachable, explore_renumber, entry, blockIds_renumber]

@[simp] theorem dominators_renumber : (f.renumber ρ).dominators = f.dominators := by
  have longer : (f.renumber ρ).blocks.length = f.blocks.length := List.length_map _
  have edges : (f.renumber ρ).predecessors (f.renumber ρ).reachable =
      f.predecessors f.reachable := by
    simp [predecessors]
  rw [dominators, dominators, edges, longer]

/-! ## The verdict -/

theorem checkTerminators_renumber : (f.renumber ρ).checkTerminators = f.checkTerminators := by
  have targets : ∀ target, ((f.renumber ρ).block? target).isNone = (f.block? target).isNone := by
    simp
  show (f.blocks.map (·.renumber ρ)).forM _ = f.blocks.forM _
  refine List.forM_map.trans (congrArg f.blocks.forM (funext fun block => ?_))
  cases ends : block.terminator <;>
    simp only [BasicBlock.renumber, ends, Option.map_none, Option.map_some,
      Terminator.successors_renumber, targets] <;> rfl

theorem signatureFor_renumber (m : Module) (action : Action) :
    signatureFor (m.renumber ρ) (action.renumber ρ) = signatureFor m action := by
  cases action with
  | call callee args =>
    show ((m.functions.map (·.renumber ρ))[callee.index]?).map (·.ty) = _
    rw [List.getElem?_map, Option.map_map]
    rfl
  | _ => rfl

theorem checkTypes_renumber (m : Module) :
    (f.renumber ρ).checkTypes (m.renumber ρ) = f.checkTypes m := by
  show (f.blocks.map (·.renumber ρ)).forM _ = f.blocks.forM _
  refine List.forM_map.trans (congrArg f.blocks.forM (funext fun block => ?_))
  show ((block.instructions.map (·.renumber ρ)).forM _ >>= fun _ => _) =
    (block.instructions.forM _ >>= fun _ => _)
  refine congrArg₂ (· >>= ·) ?_ (funext fun _ => ?_)
  · refine List.forM_map.trans (congrArg block.instructions.forM (funext fun inst => ?_))
    simp only [Instruction.renumber, signatureFor_renumber, checkAction_renumber]
    rfl
  · cases ends : block.terminator <;>
      simp only [BasicBlock.renumber, ends, Option.map_none, Option.map_some,
        checkTerminator_renumber]
    rfl

theorem checkDominance_renumber : (f.renumber ρ).checkDominance = f.checkDominance := by
  have definitions : (f.renumber ρ).definitions = f.definitions := by
    simp only [Function.definitions, results_renumber, value?_renumber]
    rfl
  have blocks : (f.renumber ρ).blockIds.zip (f.renumber ρ).blocks =
      (f.blockIds.zip f.blocks).map (Prod.map id (·.renumber ρ)) := by
    rw [blockIds_renumber]
    exact List.zip_map_right
  rw [checkDominance, checkDominance, definitions, blocks, reachable_renumber,
    dominators_renumber]
  refine congrArg (f.definitions >>= ·) (funext fun known => ?_)
  refine List.forM_map.trans (congrArg (List.forM _) (funext fun entry => ?_))
  obtain ⟨id, block⟩ := entry
  simp only [Prod.map, id_eq, BasicBlock.uses_renumber]
  rfl

theorem verify_renumber (m : Module) : (f.renumber ρ).verify (m.renumber ρ) = f.verify m := by
  have empty : (f.renumber ρ).isDeclaration = f.isDeclaration := by
    simp [isDeclaration, renumber]
  rw [verify, verify, empty, checkTerminators_renumber, checkTypes_renumber,
    checkDominance_renumber]

end Function

namespace Module

/-- No verdict depends on the numbers of the functions and the constant data in operands. -/
theorem verify_renumber (m : Module) : (m.renumber ρ).verify = m.verify := by
  have names : ∀ (functions : List Function) (seen : List String),
      repeatedName? (functions.map (·.renumber ρ)) seen = repeatedName? functions seen := by
    intro functions
    induction functions with
    | nil => exact fun _ => rfl
    | cons f rest ih =>
      intro seen
      rw [List.map_cons, repeatedName?, repeatedName?, ih]
      rfl
  have bodies : (m.renumber ρ).functions.forM (·.verify (m.renumber ρ)) =
      m.functions.forM (·.verify m) :=
    List.forM_map.trans (congrArg m.functions.forM (funext fun f => f.verify_renumber ρ m))
  rw [verify, verify, bodies]
  simp only [renumber, names]

/-! ## Callees -/

variable {m : Module} {f : Function}

theorem expectArgs_ok : ∀ {args : List Operand} {params : List Ty},
    args.length = params.length → f.expectArgs args params = .ok () →
      List.Forall₂ (fun arg param => f.operandTy arg = .ok param) args params
  | [], [], _, _ => .nil
  | arg :: args, param :: params, count, checked => by
    rw [Function.expectArgs, except_seq_ok] at checked
    exact .cons (Function.expectTy_ok.1 checked.1)
      (expectArgs_ok (Nat.succ.inj count) checked.2)

/-- The callee of a call that satisfies its rule is there, and takes the arguments. -/
theorem callee_of_checkAction {callee : FuncId} {args : List Operand} {ty : Option Ty}
    (checked : f.checkAction (Function.signatureFor m (.call callee args)) (.call callee args) =
      .ok ty) :
    ∃ g, m.function? callee = some g ∧
      List.Forall₂ (fun arg param => f.operandTy arg = .ok param) args g.ty.params := by
  obtain ⟨signature, known, -⟩ := checkAction_call_ok checked
  obtain ⟨g, present, rfl⟩ := Option.map_eq_some_iff.1 known
  refine ⟨g, present, ?_⟩
  rw [known] at checked
  simp only [Function.checkAction] at checked
  split at checked
  · exact absurd checked except_throw_ok
  · rename_i count
    exact expectArgs_ok (not_not.1 count) (except_seq_ok.1 checked).1

/-- In a verified module, however it was built, every callee is a function of the module that
takes the arguments of the call.  Of the other references nothing is asked: with any other
numbers in the operands the module is verified too. -/
theorem verified_callees (m : Module) (verified : m.verify = .ok ()) :
    (∀ f ∈ m.functions, ∀ inst ∈ f.instructions, ∀ callee args,
      inst.action = .call callee args → ∃ g, m.function? callee = some g ∧
        List.Forall₂ (fun arg param => f.operandTy arg = .ok param) args g.ty.params) ∧
      ∀ ρ, (m.renumber ρ).verify = .ok () := by
  refine ⟨fun f member inst among callee args call => ?_, fun ρ => ?_⟩
  · obtain ⟨ty, checked⟩ := rules_of_verify ((verify_ok.1 verified).2 f member) among
    rw [call] at checked
    exact callee_of_checkAction checked
  · rw [verify_renumber]
    exact verified

/-- Every number moved up. -/
def shifted : Renumbering := ⟨fun id => ⟨id.index + 1⟩, fun id => ⟨id.index + 1⟩⟩

theorem verified_callees_sample :
    (build "m" (sampleBuild .double)).verify = .ok () ∧
      (∃ g, (build "m" (sampleBuild .double)).function? ⟨0⟩ = some g ∧ g.ty.params = []) ∧
      ((build "m" (sampleBuild .double)).renumber shifted).verify = .ok () := by
  have verified : (build "m" (sampleBuild .double)).verify = .ok () := by cbv
  obtain ⟨callees, others⟩ := verified_callees _ verified
  have installed : (build "m" (sampleBuild .double)).functions[1]? =
      some ⟨"f", ⟨[], .double⟩, [], [⟨none, .double, .inst ⟨0⟩⟩],
        [⟨"entry", [⟨some ⟨0⟩, .call ⟨0⟩ []⟩], some (.ret (some (.value ⟨0⟩)))⟩]⟩ := by cbv
  obtain ⟨g, known, takes⟩ := callees _ (List.mem_of_getElem? installed) _
    (List.mem_singleton.2 rfl) _ _ rfl
  exact ⟨verified, ⟨g, known, List.forall₂_nil_left_iff.1 takes⟩, others shifted⟩

/-! ## Operands -/

/-- `f` stores the address of `g` and returns that of some bytes; then `g` is taken back and
the bytes are dropped. -/
def danglingBuild : List ModuleOperation := [
  .declare "f" ⟨[], .ptr⟩, .declare "g" ⟨[], .void⟩, .addConstant [97],
  .define ⟨0⟩ "f" ⟨[], .ptr⟩ [.appendBlock "entry", .positionAtEnd ⟨0⟩, .alloca .ptr "x",
    .store (.function ⟨1⟩) (.value ⟨0⟩), .ret (some (.constant (.global ⟨0⟩)))],
  .retract ⟨1⟩, .truncateGlobals 0]

/-- The verifier accepts a module whose body mentions a function and constant data that the
module does not have. -/
theorem verify_dangling :
    (build "m" danglingBuild).verify = .ok () ∧
      ∃ f ∈ (build "m" danglingBuild).functions,
        f.references = [.function ⟨1⟩, .global ⟨0⟩] ∧
        ¬ (build "m" danglingBuild).Has (.function ⟨1⟩) ∧
        ¬ (build "m" danglingBuild).Has (.global ⟨0⟩) := by
  have left : (build "m" danglingBuild).functions.map (·.references) =
      [[.function ⟨1⟩, .global ⟨0⟩]] := by cbv
  have one : (build "m" danglingBuild).functions.length = 1 := by cbv
  have none_ : (build "m" danglingBuild).globals.length = 0 := by cbv
  obtain ⟨f, rest, only, mentions, -⟩ := List.map_eq_cons_iff.1 left
  refine ⟨by cbv, f, by rw [only]; exact List.mem_cons_self, mentions, ?_, ?_⟩
  · rw [Module.Has, one]
    exact Nat.lt_irrefl 1
  · rw [Module.Has, none_]
    exact Nat.lt_irrefl 0

end Module

end SsaLowering.Ir
