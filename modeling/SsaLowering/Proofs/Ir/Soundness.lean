/-
# SsaLowering.Proofs.Ir.Soundness -- the types of results in a verified module

A module is built by operations of its own, and the body that a definition installs is
what a builder made (`ModuleOperation`, `Module.build`).  A module is `Sound` when every
instruction has a result exactly if its rule gives a type under the signatures of the
module, and the result has that type.

The verifier asks whether an instruction satisfies its rule and does not ask what type
the rule gives.  `Module.build_sound_iff` says what is lost by that: in a verified module
an instruction is sound, unless it is a call that was built at another return type than
the one of its callee.  Such calls pass (`Module.verify_mistyped`).
-/
import SsaLowering.Proofs.Ir.Construction
import SsaLowering.Proofs.Ir.Module

namespace SsaLowering.Ir

set_option autoImplicit false

/-! ## Building a module -/

/-- One operation on a module.  A body is what operations of a builder make. -/
inductive ModuleOperation where
  | declare (name : String) (ty : FunctionTy)
  | define (id : FuncId) (name : String) (ty : FunctionTy) (body : List Operation)
  | retract (id : FuncId)
  | addConstant (bytes : List UInt8)
  | truncateGlobals (count : Nat)
deriving Inhabited

/-- A builder made the function. -/
def Function.Made (f : Function) : Prop :=
  ∃ name ty ops, f = ((Construction.start name ty).run ops).builder.function

namespace Module

/-- The outcome of an operation; where it is refused nothing changes. -/
def after (m : Module) : Except BuildError Module → Module
  | .ok next => next
  | .error _ => m

def perform (m : Module) : ModuleOperation → Module
  | .declare name ty => m.after ((m.declare name ty).map (·.2))
  | .define id name ty body =>
    m.after (m.define id ((Construction.start name ty).run body).builder.function)
  | .retract id => m.after ((m.retract id).map (·.2))
  | .addConstant bytes => (m.addConstant bytes).2
  | .truncateGlobals count => m.truncateGlobals count

/-- Operations in order on an empty module. -/
def build (name : String) (ops : List ModuleOperation) : Module := ops.foldl perform (.empty name)

variable {m : Module} {f : Function}

theorem made_perform (made : ∀ f ∈ m.functions, f.Made) (op : ModuleOperation) :
    ∀ f ∈ (m.perform op).functions, f.Made := by
  cases op with
  | declare name ty =>
    rw [perform]
    cases outcome : m.declare name ty with
    | error cause => exact made
    | ok added =>
      obtain ⟨id, m'⟩ := added
      obtain ⟨-, -, rfl⟩ := declare_ok.1 outcome
      intro f member
      rcases List.mem_append.1 member with old | new
      · exact made f old
      · exact ⟨name, ty, [], List.mem_singleton.1 new⟩
  | define id name ty body =>
    rw [perform, define]
    split
    · exact made
    · split
      · exact made
      · split
        · exact made
        · intro f member
          rcases List.mem_or_eq_of_mem_set member with old | rfl
          · exact made f old
          · exact ⟨name, ty, body, rfl⟩
  | retract id =>
    rw [perform, retract]
    split
    · exact made
    · split
      · exact made
      · split
        · exact made
        · exact fun f member => made f (List.dropLast_subset _ member)
  | addConstant bytes => exact made
  | truncateGlobals count => exact made

/-- Every function of a module that was built was made by a builder. -/
theorem made_build (name : String) (ops : List ModuleOperation) :
    ∀ f ∈ (build name ops).functions, f.Made := by
  have step (ops : List ModuleOperation) : ∀ m : Module, (∀ f ∈ m.functions, f.Made) →
      ∀ f ∈ (ops.foldl perform m).functions, f.Made := by
    induction ops with
    | nil => exact fun _ made => made
    | cons op rest ih => exact fun m made => ih _ (made_perform made op)
  exact step ops _ fun _ absent => by cases absent

/-! ## Results and rules -/

/-- The rule of the instruction under the signatures of the module gives the type of its
result, and gives none when it has no result. -/
def SoundAt (m : Module) (f : Function) (inst : Instruction) : Prop :=
  ∃ ty, f.checkAction (Function.signatureFor m inst.action) inst.action = .ok ty ∧
    Construction.Types f ⟨inst, Function.signatureFor m inst.action, ty⟩

/-- Every instruction of every function has the result that its rule demands. -/
def Sound (m : Module) : Prop := ∀ f ∈ m.functions, ∀ inst ∈ f.instructions, m.SoundAt f inst

/-- The type of the result of a call. -/
def resultTy (ret : Ty) : Option Ty := if ret.isVoid then none else some ret

theorem resultTy_injective : Function.Injective resultTy := by
  intro a b same
  cases a <;> cases b <;> simp_all [resultTy, Ty.isVoid]

theorem checkAction_call_ok {signature : Option FunctionTy} {callee : FuncId}
    {args : List Operand} {ty : Option Ty}
    (checked : f.checkAction signature (.call callee args) = .ok ty) :
    ∃ s, signature = some s ∧ ty = resultTy s.ret := by
  cases signature with
  | none => exact absurd checked except_throw_ok
  | some s =>
    simp only [Function.checkAction] at checked
    split at checked
    · exact absurd checked except_throw_ok
    · exact ⟨s, rfl, (except_pure_ok.1 (except_seq_ok.1 checked).2).symm⟩

/-- The result of an instruction has one type at most. -/
theorem Types.ty_eq {inst : Instruction} {s t : Option FunctionTy} {a b : Option Ty}
    (first : Construction.Types f ⟨inst, s, a⟩) (second : Construction.Types f ⟨inst, t, b⟩) :
    a = b := by
  rcases first with ⟨absent, rfl⟩ | ⟨id, data, result, known, rfl⟩
  · rcases second with ⟨-, rfl⟩ | ⟨id, data, result, -, -⟩
    · rfl
    · cases absent.symm.trans result
  · rcases second with ⟨absent, -⟩ | ⟨id', data', result', known', rfl⟩
    · cases absent.symm.trans result
    · cases result.symm.trans result'
      cases known.symm.trans known'
      rfl

/-- A function that the verifier accepts satisfies the rules of its instructions. -/
theorem rules_of_verify (ok : f.verify m = .ok ()) {inst : Instruction}
    (member : inst ∈ f.instructions) :
    ∃ ty, f.checkAction (Function.signatureFor m inst.action) inst.action = .ok ty := by
  obtain ⟨block, among, here⟩ := List.mem_flatMap.1 member
  rw [Function.verify_of_blocks (List.ne_nil_of_mem among), except_seq_ok, except_seq_ok] at ok
  exact (Function.checkTypes_ok.1 ok.2.1 block among).1 inst here

/-- In an accepted function an emitted instruction is sound exactly when it is no call, or
a call at the return type that the module declares. -/
theorem soundAt_iff {log : List Emission} (recorded : Construction.Recorded f log)
    (ok : f.verify m = .ok ()) {e : Emission} (member : e ∈ log) :
    m.SoundAt f e.inst ↔ ∀ callee args, e.inst.action = .call callee args →
      (m.signature? callee).map (·.ret) = e.signature.map (·.ret) := by
  have listed : e.inst ∈ f.instructions :=
    recorded.listed.mem_iff.2 (List.mem_map.2 ⟨e, member, rfl⟩)
  obtain ⟨ty, ruled⟩ := rules_of_verify ok listed
  have emitted := recorded.checked e member
  have types := recorded.types e member
  have sound_iff : m.SoundAt f e.inst ↔ ty = e.ty := by
    constructor
    · rintro ⟨ty', ruled', types'⟩
      cases ruled.symm.trans ruled'
      exact Types.ty_eq types' types
    · rintro rfl
      exact ⟨e.ty, ruled, types⟩
  rw [sound_iff]
  cases action : e.inst.action with
  | call callee args =>
    rw [action] at ruled emitted
    obtain ⟨declared, known, rfl⟩ := checkAction_call_ok ruled
    obtain ⟨signature, built, rest⟩ := checkAction_call_ok emitted
    have known : m.signature? callee = some declared := known
    rw [rest, resultTy_injective.eq_iff]
    constructor
    · rintro same callee' args' ⟨⟩
      rw [known, built, Option.map_some, Option.map_some, same]
    · intro agree
      have same := agree callee args rfl
      rw [known, built] at same
      exact Option.some_inj.1 same
  | _ =>
    rw [action] at ruled emitted
    exact ⟨fun _ => nofun, fun _ => Except.ok.inj (ruled.symm.trans emitted)⟩

/-- What the verifier's acceptance says of the results in a module: whatever was done to
build it, its functions were made by a builder, their instructions are the emitted ones,
and these are sound apart from the calls that were built at another return type than the
module declares. -/
theorem build_sound_iff (name : String) (ops : List ModuleOperation)
    (verified : (build name ops).verify = .ok ()) :
    (∀ f ∈ (build name ops).functions, f.Made) ∧
      ∀ c : Construction, (∃ label ty body, c = (Construction.start label ty).run body) →
        c.builder.function ∈ (build name ops).functions →
          c.builder.function.instructions.Perm (c.log.map (·.inst)) ∧
          ∀ e ∈ c.log, (build name ops).SoundAt c.builder.function e.inst ↔
            ∀ callee args, e.inst.action = .call callee args →
              ((build name ops).signature? callee).map (·.ret) = e.signature.map (·.ret) := by
  refine ⟨made_build name ops, ?_⟩
  rintro c ⟨label, ty, body, rfl⟩ member
  have recorded := Construction.recorded_run label ty body
  have ok := (verify_ok.1 verified).2 _ member
  exact ⟨recorded.listed, fun e among => soundAt_iff recorded ok among⟩

/-- A body that calls `get` at the given return type and returns what it gets. -/
def callingAt (ret : Ty) : List Operation :=
  [.appendBlock "entry", .positionAtEnd ⟨0⟩, .call ⟨0⟩ ⟨[], ret⟩ [], .ret (some (.value ⟨0⟩))]

/-- `get` returns a number, and `f` calls it at the given return type. -/
def sampleBuild (ret : Ty) : List ModuleOperation := [
  .declare "get" ⟨[], .double⟩, .declare "f" ⟨[], ret⟩,
  .define ⟨1⟩ "f" ⟨[], ret⟩ (callingAt ret)]

theorem build_sound_iff_sample :
    (build "m" (sampleBuild .double)).verify = .ok () ∧
      (build "m" (sampleBuild .double)).SoundAt
        ((Construction.start "f" ⟨[], .double⟩).run (callingAt .double)).builder.function
        ⟨some ⟨0⟩, .call ⟨0⟩ []⟩ := by
  have verified : (build "m" (sampleBuild .double)).verify = .ok () := by cbv
  obtain ⟨-, sound⟩ := build_sound_iff "m" (sampleBuild .double) verified
  have log : ((Construction.start "f" ⟨[], .double⟩).run (callingAt .double)).log =
      [⟨⟨some ⟨0⟩, .call ⟨0⟩ []⟩, some ⟨[], .double⟩, some .double⟩] := by cbv
  have installed : ((Construction.start "f" ⟨[], .double⟩).run (callingAt .double)).builder.function
      ∈ (build "m" (sampleBuild .double)).functions :=
    List.mem_of_getElem? (i := 1) (by cbv)
  obtain ⟨-, sound⟩ := sound _ ⟨_, _, _, rfl⟩ installed
  refine ⟨verified, (sound ⟨⟨some ⟨0⟩, .call ⟨0⟩ []⟩, some ⟨[], .double⟩, some .double⟩ ?_).2 ?_⟩
  · rw [log]
    exact List.mem_singleton.2 rfl
  · rintro callee args ⟨⟩
    cbv

/-! ## A call at another return type -/

/-- The verifier accepts a call of `get` as if it returned an address, and the result of this
call does not have the type that its rule gives. -/
theorem verify_mistyped :
    (build "m" (sampleBuild .ptr)).verify = .ok () ∧ ¬ (build "m" (sampleBuild .ptr)).Sound := by
  refine ⟨by cbv, fun sound => ?_⟩
  have installed : (build "m" (sampleBuild .ptr)).functions[1]? =
      some ⟨"f", ⟨[], .ptr⟩, [], [⟨none, .ptr, .inst ⟨0⟩⟩],
        [⟨"entry", [⟨some ⟨0⟩, .call ⟨0⟩ []⟩], some (.ret (some (.value ⟨0⟩)))⟩]⟩ := by cbv
  obtain ⟨ty, ruled, types⟩ := sound _ (List.mem_of_getElem? installed) _ (List.mem_singleton.2 rfl)
  have declared : (build "m" (sampleBuild .ptr)).signature? ⟨0⟩ = some ⟨[], .double⟩ := by cbv
  have rule : ty = some .double := by
    obtain ⟨signature, known, rfl⟩ := checkAction_call_ok ruled
    cases declared.symm.trans known
    rfl
  rcases types with ⟨absent, -⟩ | ⟨id, data, result, known, same⟩
  · cases absent
  · cases result
    cases known
    cases rule.symm.trans same

end Module

end SsaLowering.Ir
