/-
# SsaLowering.Proofs.Ir.Construction -- every function that a builder can make

An `Operation` is one call of the builder, and a `Construction` is a builder with a
record of the instructions that it emitted: the signature each was checked under and
the type that its rule gave then.  Operations may come in any order; one that is
refused changes nothing (`Construction.perform`).

`perform_changes` says once what an operation can do to the function and the record.
`Recorded` is what every change keeps, and `Construction.run_good` says what it means
for the finished function: each value has one origin, the types are those of the
emissions, the slots lead the entry block in the order of their creation, and only
two defects are left for the verifier to find.
-/
import SsaLowering.Proofs.Ir.Slots

namespace SsaLowering.Ir

set_option autoImplicit false

/-! ## Operations -/

/-- One operation of a builder. -/
inductive Operation where
  | appendBlock (name : String)
  | positionAtEnd (block : BlockId)
  | nameValue (value : ValueId) (name : String)
  | alloca (ty : Ty) (name : String)
  | load (ty : Ty) (ptr : Operand)
  | store (value ptr : Operand)
  | fadd (lhs rhs : Operand)
  | call (callee : FuncId) (signature : FunctionTy) (args : List Operand)
  | br (target : BlockId)
  | condBr (cond : Operand) (thenBlock elseBlock : BlockId)
  | ret (value : Option Operand)
  | unreachable
  /-- Finish the function and go on with a new builder of it. -/
  | rewrap
deriving Inhabited

/-- An instruction as it was emitted: under a signature, and at the type that its rule
gave at that moment. -/
structure Emission where
  inst : Instruction
  signature : Option FunctionTy
  ty : Option Ty
deriving Inhabited

/-- A builder and what it emitted so far. -/
structure Construction where
  builder : Builder
  log : List Emission
deriving Inhabited

namespace Construction

/-- A builder of a function that is only declared. -/
def start (name : String) (ty : FunctionTy) : Construction := ⟨.ofFunction (.declare name ty), []⟩

/-- The outcome of an operation that emits nothing. -/
def after (c : Construction) : Except BuildError Builder → Construction
  | .ok builder => { c with builder }
  | .error _ => c

/-- The outcome of an emission, which is recorded with the type of the action before it. -/
def emits (c : Construction) (action : Action) (signature : Option FunctionTy) :
    Except BuildError (Option ValueId × Builder) → Construction
  | .ok (result, builder) =>
    let ty := (c.builder.function.checkAction signature action).toOption.join
    ⟨builder, c.log ++ [⟨⟨result, action⟩, signature, ty⟩]⟩
  | .error _ => c

/-- One operation; where it is refused nothing changes. -/
def perform (c : Construction) : Operation → Construction
  | .appendBlock name => { c with builder := (c.builder.appendBlock name).2 }
  | .positionAtEnd block => c.after (c.builder.positionAtEnd block)
  | .nameValue value name => c.after ((c.builder.nameValue value name).map (·.2))
  | .alloca ty name =>
    c.emits (.alloca ty) none ((c.builder.alloca ty name).map fun (id, b) => (some id, b))
  | .load ty ptr =>
    c.emits (.load ty ptr) none ((c.builder.load ty ptr).map fun (id, b) => (some id, b))
  | .store value ptr =>
    c.emits (.store value ptr) none ((c.builder.store value ptr).map fun b => (none, b))
  | .fadd lhs rhs =>
    c.emits (.fadd lhs rhs) none ((c.builder.fadd lhs rhs).map fun (id, b) => (some id, b))
  | .call callee signature args =>
    c.emits (.call callee args) (some signature) (c.builder.call callee signature args)
  | .br target => c.after (c.builder.br target)
  | .condBr cond thenBlock elseBlock => c.after (c.builder.condBr cond thenBlock elseBlock)
  | .ret value => c.after (c.builder.ret value)
  | .unreachable => c.after c.builder.unreachable
  | .rewrap => { c with builder := .ofFunction c.builder.function }

/-- Operations in order. -/
def run (c : Construction) (ops : List Operation) : Construction := ops.foldl perform c

/-! ## What an operation can do -/

/-- The changes of a function and of the record of its emissions. -/
inductive Change (f : Function) (log : List Emission) : Function → List Emission → Prop
  | same : Change f log f log
  | rename (value : ValueId) (name : String) : Change f log (f.rename value name) log
  | addBlock (label : String) : Change f log (f.addBlock label) log
  | close {block : BlockId} {data : BasicBlock} {terminator : Terminator}
      (known : f.block? block = some data) (unended : data.terminator = none)
      (checked : f.checkTerminator terminator = .ok ()) :
      Change f log (f.close block terminator) log
  | push {block : BlockId} {data : BasicBlock} {action : Action} {signature : Option FunctionTy}
      {ty : Option Ty} (known : f.block? block = some data) (unended : data.terminator = none)
      (effect : action.isAlloca = false)
      (plain : (∀ callee args, action ≠ .call callee args) → signature = none)
      (checked : f.checkAction signature action = .ok ty) :
      Change f log (f.push block action ty)
        (log ++ [⟨⟨ty.map fun _ => ⟨f.values.length⟩, action⟩, signature, ty⟩])
  | reserve {entry : BasicBlock} {ty : Ty} (known : f.block? ⟨0⟩ = some entry)
      (sized : ty.isSized) (name : String) :
      Change f log (f.reserve ty name)
        (log ++ [⟨⟨some ⟨f.values.length⟩, .alloca ty⟩, none, some .ptr⟩])

/-- `d` is what an operation makes of `c`. -/
def ChangesTo (c d : Construction) : Prop :=
  Change c.builder.function c.log d.builder.function d.log

variable {c : Construction}

theorem changesTo_terminate (c : Construction) (terminator : Terminator) :
    c.ChangesTo (c.after (c.builder.terminate terminator)) := by
  cases outcome : c.builder.terminate terminator with
  | error cause => exact .same
  | ok b =>
    obtain ⟨block, ⟨-, data, known, unended⟩, checked, rfl⟩ := Builder.terminate_ok.1 outcome
    exact .close known unended checked

theorem changesTo_emit (c : Construction) {action : Action} {signature : Option FunctionTy}
    (effect : action.isAlloca = false)
    (plain : (∀ callee args, action ≠ .call callee args) → signature = none) :
    c.ChangesTo (c.emits action signature (c.builder.emit action signature)) := by
  cases outcome : c.builder.emit action signature with
  | error cause => exact .same
  | ok made =>
    obtain ⟨result, b⟩ := made
    obtain ⟨block, ty, ⟨-, data, known, unended⟩, checked, rfl, rfl⟩ := Builder.emit_ok.1 outcome
    rw [ChangesTo, emits, checked]
    exact .push known unended effect plain checked

/-- An instruction that has to define a value is emitted like any other. -/
theorem emitValue_eq (b : Builder) {action : Action}
    (valued : ∀ f : Function, f.checkAction none action ≠ .ok none) :
    (b.emitValue action).map (fun (id, b) => (some id, b)) = b.emit action none := by
  unfold Builder.emitValue
  cases outcome : b.emit action none with
  | error cause => rfl
  | ok made =>
    obtain ⟨result, b'⟩ := made
    obtain ⟨block, ty, -, checked, rfl, -⟩ := Builder.emit_ok.1 outcome
    cases ty with
    | none => exact absurd checked (valued _)
    | some ty => rfl

theorem checkAction_load_ne (f : Function) (ty : Ty) (ptr : Operand) :
    f.checkAction none (.load ty ptr) ≠ .ok none := by
  intro checked
  simp only [Function.checkAction, except_seq_ok, except_pure_ok] at checked
  cases checked.2.2.2

theorem checkAction_fadd_ne (f : Function) (lhs rhs : Operand) :
    f.checkAction none (.fadd lhs rhs) ≠ .ok none := by
  intro checked
  simp only [Function.checkAction, except_seq_ok, except_pure_ok] at checked
  cases checked.2.2

theorem checkAction_store (f : Function) {value ptr : Operand} {ty : Option Ty}
    (checked : f.checkAction none (.store value ptr) = .ok ty) : ty = none := by
  simp only [Function.checkAction, except_bind_ok, except_pure_ok] at checked
  obtain ⟨_, _, _, _, _, _, _, _, done⟩ := checked
  exact done.symm

theorem store_eq (b : Builder) (value ptr : Operand) :
    (b.store value ptr).map (fun b => ((none : Option ValueId), b)) =
      b.emit (.store value ptr) none := by
  unfold Builder.store
  cases outcome : b.emit (.store value ptr) none with
  | error cause => rfl
  | ok made =>
    obtain ⟨result, b'⟩ := made
    obtain ⟨block, ty, -, checked, rfl, -⟩ := Builder.emit_ok.1 outcome
    rw [checkAction_store _ checked]
    rfl

theorem changesTo_alloca (c : Construction) (ty : Ty) (name : String) :
    c.ChangesTo (c.perform (.alloca ty name)) := by
  rw [perform]
  cases outcome : c.builder.alloca ty name with
  | error cause => exact .same
  | ok made =>
    obtain ⟨id, b⟩ := made
    obtain ⟨nonempty, sized, rfl, rfl⟩ := Builder.alloca_ok.1 outcome
    obtain ⟨entry, rest, blocks⟩ := List.exists_cons_of_ne_nil nonempty
    have known : c.builder.function.block? ⟨0⟩ = some entry := by
      rw [Function.block?, blocks]
      rfl
    rw [ChangesTo]
    simp only [Except.map, emits, Function.checkAction_alloca_ok.2 ⟨sized, rfl⟩]
    exact .reserve known sized _

theorem changesTo_nameValue (c : Construction) (value : ValueId) (name : String) :
    c.ChangesTo (c.perform (.nameValue value name)) := by
  rw [perform]
  cases outcome : c.builder.nameValue value name with
  | error cause => exact .same
  | ok made =>
    obtain ⟨named, b⟩ := made
    obtain ⟨data, -, ⟨-, -, rfl⟩ | ⟨-, -, rfl⟩⟩ := Builder.nameValue_ok.1 outcome
    · exact .same
    · exact .rename _ _

theorem changesTo_positionAtEnd (c : Construction) (block : BlockId) :
    c.ChangesTo (c.perform (.positionAtEnd block)) := by
  rw [perform]
  cases outcome : c.builder.positionAtEnd block with
  | error cause => exact .same
  | ok b =>
    obtain ⟨-, rfl⟩ := Builder.positionAtEnd_ok.1 outcome
    exact .same

/-- What an operation can do, whether it succeeds or is refused. -/
theorem perform_changes (c : Construction) (op : Operation) : c.ChangesTo (c.perform op) := by
  cases op with
  | appendBlock name => exact .addBlock _
  | positionAtEnd block => exact c.changesTo_positionAtEnd block
  | nameValue value name => exact c.changesTo_nameValue value name
  | alloca ty name => exact c.changesTo_alloca ty name
  | load ty ptr =>
    rw [perform, Builder.load, emitValue_eq _ fun f => checkAction_load_ne f ty ptr]
    exact c.changesTo_emit rfl fun _ => rfl
  | store value ptr =>
    rw [perform, store_eq]
    exact c.changesTo_emit rfl fun _ => rfl
  | fadd lhs rhs =>
    rw [perform, Builder.fadd, emitValue_eq _ fun f => checkAction_fadd_ne f lhs rhs]
    exact c.changesTo_emit rfl fun _ => rfl
  | call callee signature args =>
    exact c.changesTo_emit rfl fun plain => absurd rfl (plain callee args)
  | br target => exact c.changesTo_terminate _
  | condBr cond thenBlock elseBlock => exact c.changesTo_terminate _
  | ret value => exact c.changesTo_terminate _
  | unreachable => exact c.changesTo_terminate _
  | rewrap => exact .same

theorem Change.extends {f g : Function} {log log' : List Emission}
    (change : Change f log g log') : f.Extends g := by
  cases change with
  | same => exact .refl f
  | rename value name => exact Function.extends_rename f value name
  | addBlock label => exact Function.extends_addBlock f label
  | close known unended checked => exact Function.extends_close known unended _
  | push known unended effect plain checked => exact Function.extends_push known unended _ _
  | reserve known sized name => exact Function.extends_reserve f _ name

/-! ## What every change keeps -/

/-- Every emission gave the type that its result has, if it has one. -/
def Types (f : Function) (e : Emission) : Prop :=
  (e.inst.result = none ∧ e.ty = none) ∨
    ∃ id data, e.inst.result = some id ∧ f.value? id = some data ∧ e.ty = some data.ty

theorem Types.mono {f g : Function} {e : Emission} (types : Types f e) (grown : f.Extends g) :
    Types g e := by
  rcases types with absent | ⟨id, data, result, known, ty⟩
  · exact Or.inl absent
  · obtain ⟨name, known⟩ := grown.values id data known
    exact Or.inr ⟨id, _, result, known, ty⟩

/-- A function and the record of its emissions. -/
structure Recorded (f : Function) (log : List Emission) : Prop where
  layout : f.Layout
  listed : f.instructions.Perm (log.map (·.inst))
  checked : ∀ e ∈ log, f.checkAction e.signature e.inst.action = .ok e.ty
  types : ∀ e ∈ log, Types f e
  slots : f.slots = slotsAmong (log.map (·.inst))

/-- A change that adds a new emission keeps the record. -/
theorem Recorded.extend {f g : Function} {log : List Emission} {e : Emission}
    (recorded : Recorded f log) (grown : f.Extends g) (layout : g.Layout)
    (listed : g.instructions.Perm (f.instructions ++ [e.inst]))
    (checked : f.checkAction e.signature e.inst.action = .ok e.ty) (types : Types g e)
    (same : g.slots = f.slots ++ slotsAmong [e.inst]) :
    Recorded g (log ++ [e]) where
  layout := layout
  listed := by
    rw [List.map_append]
    exact listed.trans (recorded.listed.append_right _)
  checked := fun e' member => by
    refine Function.checkAction_mono grown ?_
    rcases List.mem_append.1 member with old | new
    · exact recorded.checked e' old
    · rwa [List.mem_singleton.1 new]
  types := fun e' member => by
    rcases List.mem_append.1 member with old | new
    · exact (recorded.types e' old).mono grown
    · rwa [List.mem_singleton.1 new]
  slots := by
    rw [same, recorded.slots, ← slotsAmong_append, List.map_append]
    rfl

/-- A change that emits nothing keeps the record. -/
theorem Recorded.keep {f g : Function} {log : List Emission} (recorded : Recorded f log)
    (grown : f.Extends g) (layout : g.Layout) (listed : g.instructions = f.instructions)
    (same : g.slots = f.slots) :
    Recorded g log where
  layout := layout
  listed := listed ▸ recorded.listed
  checked := fun e member => Function.checkAction_mono grown (recorded.checked e member)
  types := fun e member => (recorded.types e member).mono grown
  slots := same.trans recorded.slots

theorem Recorded.change {f g : Function} {log log' : List Emission} (recorded : Recorded f log)
    (change : Change f log g log') : Recorded g log' := by
  have grown := change.extends
  have layout := recorded.layout
  cases change with
  | same => exact recorded
  | rename value name =>
    exact recorded.keep grown (Function.layout_rename layout value name) rfl rfl
  | addBlock label =>
    exact recorded.keep grown (Function.layout_addBlock layout label)
      (Function.instructions_addBlock f label) (f.slots_addBlock label)
  | @close block data terminator known unended checked =>
    exact recorded.keep grown (Function.layout_close layout known unended checked)
      (Function.instructions_close f block _) (f.slots_close block _)
  | @push block data action signature ty known unended effect plain checked =>
    refine recorded.extend grown (Function.layout_push layout known unended effect ty)
      (Function.instructions_push known _ _) checked ?_ ?_
    · cases ty with
      | none => exact Or.inl ⟨rfl, rfl⟩
      | some ty =>
        exact Or.inr ⟨_, ⟨none, ty, .inst block⟩, rfl, by
          simp [Function.value?, Function.push], rfl⟩
    · rw [f.slots_push block effect, slotsAmong_single effect, List.append_nil]
  | @reserve entry ty known sized name =>
    refine recorded.extend grown (Function.layout_reserve layout known ty name)
      (Function.instructions_reserve known ty name) ?_ ?_ ?_
    · exact Function.checkAction_alloca_ok.2 ⟨sized, rfl⟩
    · exact Or.inr ⟨_, ⟨some name, .ptr, .inst ⟨0⟩⟩, rfl, by
        simp [Function.value?, Function.reserve], rfl⟩
    · exact Function.slots_reserve layout known ty name

theorem recorded_start (name : String) (ty : FunctionTy) : Recorded (.declare name ty) [] where
  layout := Function.layout_declare name ty
  listed := List.Perm.refl _
  checked := fun _ absent => by cases absent
  types := fun _ absent => by cases absent
  slots := rfl

theorem recorded_run (name : String) (ty : FunctionTy) (ops : List Operation) :
    Recorded ((start name ty).run ops).builder.function ((start name ty).run ops).log := by
  have step (ops : List Operation) : ∀ c : Construction, Recorded c.builder.function c.log →
      Recorded (c.run ops).builder.function (c.run ops).log := by
    induction ops with
    | nil => exact fun _ recorded => recorded
    | cons op rest ih => exact fun c recorded => ih _ (recorded.change (c.perform_changes op))
  exact step ops _ (recorded_start name ty)

/-! ## Under the signatures of a module -/

/-- The module declares the callee of every emitted call with the signature that the call
was emitted under. -/
def Agrees (m : Module) (log : List Emission) : Prop :=
  ∀ e ∈ log, ∀ callee args, e.inst.action = .call callee args → m.signature? callee = e.signature

/-- Where the module agrees with an emission, its rule gives the type of then. -/
theorem Recorded.checked_in {m : Module} {f : Function} {log : List Emission} {e : Emission}
    (recorded : Recorded f log) (member : e ∈ log)
    (agrees : ∀ callee args,
      e.inst.action = .call callee args → m.signature? callee = e.signature) :
    f.checkAction (Function.signatureFor m e.inst.action) e.inst.action = .ok e.ty := by
  rw [← recorded.checked e member]
  cases action : e.inst.action with
  | call callee args => rw [Function.signatureFor, agrees callee args action]
  | _ => rfl

theorem Recorded.wellFormed {m : Module} {f : Function} {log : List Emission}
    (recorded : Recorded f log) (agrees : Agrees m log) : f.WellFormed m := by
  refine recorded.layout.wellFormed fun block inst has => ?_
  have listed := recorded.listed.mem_iff.1 (Function.mem_instructions.2 ⟨block, has⟩)
  obtain ⟨e, member, rfl⟩ := List.mem_map.1 listed
  refine ⟨e.ty, recorded.checked_in member (agrees e member), ?_⟩
  rcases recorded.types e member with absent | ⟨id, data, result, known, ty⟩
  · exact Or.inl absent
  · obtain ⟨name, t, known'⟩ := recorded.layout.result_known block e.inst id has result
    cases known.symm.trans known'
    exact Or.inr ⟨id, name, t, result, ty, known'⟩

end Construction

/-- A function that keeps the invariant can lack a terminator, or have a use that its
definition does not dominate. -/
theorem Function.WellFormed.verify_open_cases {m : Module} {f : Function} (ok : f.WellFormed m) :
    f.verify m = .ok () ∨ (∃ block, f.verify m = .error (.missingTerminator f.name block)) ∨
      ∃ value block, f.verify m = .error (.notDominated f.name value block) := by
  by_cases empty : f.blocks = []
  · left
    rw [verify, isDeclaration, empty]
    rfl
  by_cases ended : ∀ block ∈ f.blocks, block.terminator.isSome
  · exact (ok.verify_cases ended empty).imp_right fun late => Or.inr late.2
  · right; left
    rw [verify_of_blocks empty]
    cases verdict : f.checkTerminators with
    | ok done =>
      refine absurd (fun block member => ?_) ended
      obtain ⟨t, last, -⟩ := checkTerminators_ok.1 verdict block member
      rw [last, Option.isSome_some]
    | error cause =>
      obtain ⟨block, member, failed⟩ := forM_error verdict
      obtain ⟨i, known⟩ := List.mem_iff_getElem?.1 member
      refine ⟨block.name, ?_⟩
      cases last : block.terminator with
      | none =>
        rw [last] at failed
        cases failed
        rfl
      | some t =>
        have targets := (checkTerminator_ok (ok.terminated ⟨i⟩ block t known last)).1
        have exist : (t.successors.find? fun target => (f.block? target).isNone) = none := by
          rw [List.find?_eq_none]
          intro target among
          simp [Option.isSome_iff_ne_none.1 (targets target among)]
        rw [last] at failed
        simp only [exist] at failed
        cases failed

namespace Construction

/-! ## What a builder can make -/

/-- What holds of a function under construction and of what was emitted for it. -/
structure Good (c : Construction) : Prop where
  /-- An entry of the value table is a parameter, or it is the result of one instruction,
  which stands in the block that the entry records. -/
  values : ∀ id data, c.builder.function.value? id = some data →
    (∃ i, data.origin = .param i ∧ id = ⟨i⟩ ∧ c.builder.function.params[i]? = some id ∧
        c.builder.function.ty.params[i]? = some data.ty ∧ id ∉ c.builder.function.resultIds) ∨
      ∃ block position, data.origin = .inst block ∧
        ∀ site, (id, site) ∈ c.builder.function.results ↔ site = ⟨block, position⟩
  /-- The instructions are the emitted ones. -/
  listed : c.builder.function.instructions.Perm (c.log.map (·.inst))
  /-- A result has the type that the rule gave at the emission. -/
  types : ∀ e ∈ c.log, Types c.builder.function e
  /-- The slots come first in the entry block, in the order in which they were reserved, and
  nowhere else. -/
  slotsFirst : ∃ rest,
    c.builder.function.instructionsOf ⟨0⟩ = slotsAmong (c.log.map (·.inst)) ++ rest ∧
      slotsAmong rest = [] ∧
      ∀ block ≠ ⟨0⟩, slotsAmong (c.builder.function.instructionsOf block) = []
  /-- Under a module with the signatures of the emitted calls, the verifier finds nothing else
  than a block that is open or a use that is not dominated. -/
  verdict : ∀ m, Agrees m c.log →
    c.builder.function.verify m = .ok () ∨
      (∃ block, c.builder.function.verify m =
        .error (.missingTerminator c.builder.function.name block)) ∨
      ∃ value block, c.builder.function.verify m =
        .error (.notDominated c.builder.function.name value block)

end Construction

namespace Function

variable {f : Function}

theorem Layout.site_unique (laid : f.Layout) {id : ValueId} {a b : Site}
    (here : (id, a) ∈ f.results) (there : (id, b) ∈ f.results) : a = b := by
  have distinct := laid.unique
  rw [← map_fst_results] at distinct
  cases List.inj_on_of_nodup_map distinct here there rfl
  rfl

/-- The two kinds of values. -/
theorem Layout.value_cases (laid : f.Layout) {id : ValueId} {data : ValueData}
    (known : f.value? id = some data) :
    (∃ i, data.origin = .param i ∧ id = ⟨i⟩ ∧ f.params[i]? = some id ∧
        f.ty.params[i]? = some data.ty ∧ id ∉ f.resultIds) ∨
      ∃ block position, data.origin = .inst block ∧
        ∀ site, (id, site) ∈ f.results ↔ site = ⟨block, position⟩ := by
  cases origin : data.origin with
  | param i =>
    left
    obtain ⟨rfl, bound⟩ := laid.paramOrigin id data i known origin
    obtain ⟨name, known'⟩ := laid.paramValue i _ (List.getElem?_eq_getElem bound)
    cases known.symm.trans known'
    refine ⟨i, rfl, rfl, ?_, List.getElem?_eq_getElem bound, fun result => ?_⟩
    · rw [laid.params]
      simp [bound]
    · obtain ⟨inst, among, result⟩ := List.mem_filterMap.1 result
      obtain ⟨block, has⟩ := mem_instructions.1 among
      obtain ⟨name', t, known''⟩ := laid.result_known block inst _ has result
      cases known.symm.trans known''
  | inst block =>
    right
    obtain ⟨inst, ⟨data', here, member⟩, result⟩ := laid.defined id data block known origin
    obtain ⟨position, place⟩ := List.mem_iff_getElem?.1 member
    have among : (id, Site.mk block position) ∈ f.results :=
      mem_results.2 ⟨data', inst, here, place, result⟩
    exact ⟨block, position, rfl, fun site =>
      ⟨fun other => laid.site_unique other among, fun same => same ▸ among⟩⟩

end Function

namespace Construction

/-- Whatever a builder is asked to do, in any order, leads to a function of which all of
this holds. -/
theorem run_good (name : String) (ty : FunctionTy) (ops : List Operation) :
    ((start name ty).run ops).Good := by
  have recorded := recorded_run name ty ops
  exact {
    values := fun id data known => recorded.layout.value_cases known
    listed := recorded.listed
    types := recorded.types
    slotsFirst := by
      obtain ⟨rest, split_, none_, -⟩ := recorded.layout.slots_lead ⟨0⟩
      rw [show slotsAmong _ = _ from recorded.slots] at split_
      refine ⟨rest, split_, none_, fun block other => ?_⟩
      obtain ⟨-, -, -, later⟩ := recorded.layout.slots_lead block
      exact later other
    verdict := fun m agrees => (recorded.wellFormed agrees).verify_open_cases }

/-- A slot that is asked for after a call goes before it, and an operation that is refused
leaves no trace. -/
def sampleOperations : List Operation := [
  .ret none, .appendBlock "entry", .positionAtEnd ⟨0⟩,
  .call ⟨0⟩ ⟨[], .double⟩ [], .alloca .double "x", .store (.value ⟨0⟩) (.value ⟨1⟩),
  .fadd (.value ⟨1⟩) (.value ⟨0⟩), .rewrap, .positionAtEnd ⟨0⟩, .load .double (.value ⟨1⟩),
  .ret (some (.value ⟨2⟩))]

def sampleModule : Module where
  name := "m"
  functions := [.declare "get" ⟨[], .double⟩]
  names := [("get", ⟨0⟩)]
  globals := []

theorem run_good_sample :
    ((start "f" ⟨[], .double⟩).run sampleOperations).Good ∧
      Agrees sampleModule ((start "f" ⟨[], .double⟩).run sampleOperations).log ∧
      ((start "f" ⟨[], .double⟩).run sampleOperations).builder.function.verify sampleModule =
        .ok () := by
  have log : ((start "f" ⟨[], .double⟩).run sampleOperations).log =
      [⟨⟨some ⟨0⟩, .call ⟨0⟩ []⟩, some ⟨[], .double⟩, some .double⟩,
        ⟨⟨some ⟨1⟩, .alloca .double⟩, none, some .ptr⟩,
        ⟨⟨none, .store (.value ⟨0⟩) (.value ⟨1⟩)⟩, none, none⟩,
        ⟨⟨some ⟨2⟩, .load .double (.value ⟨1⟩)⟩, none, some .double⟩] := by cbv
  refine ⟨run_good _ _ _, ?_, by cbv⟩
  rw [Agrees, log]
  simp only [List.forall_mem_cons]
  refine ⟨fun _ _ called => ?_, fun _ _ called => ?_, fun _ _ called => ?_, fun _ _ called => ?_,
    fun _ absent => ?_⟩
  · cases called
    rfl
  · cases called
  · cases called
  · cases called
  · cases absent

end Construction

end SsaLowering.Ir
