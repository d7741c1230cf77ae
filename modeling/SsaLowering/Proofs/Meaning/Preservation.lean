/-
# SsaLowering.Proofs.Meaning.Preservation -- lowering preserves meaning

A function that is lowered without skipping anything, and without a branch that is
directly a variable statement, does what its body does.  The body, run on the tree, has
an end for all arguments and every world around; the function that was installed, run
from its entry, ends in the same way after the same calls, and in no other way
(`Context.Reached.preserves`).
-/
import SsaLowering.Proofs.Lower.Acceptance
import SsaLowering.Proofs.Meaning.Statement

namespace SsaLowering

set_option autoImplicit false

open Ir (Ty Module Function Builder ValueId BlockId Operand Instruction Terminator BasicBlock
  Machine Exit)
open Ir.Machine (Reaches Continues Has Arrives)

variable {m : Module} {world : World} {f : Function}

/-! ## The entry of a function -/

namespace Ir.Function

/-- A slot has an address. -/
theorem WellFormed.result_of_slot (ok : f.WellFormed m) {block : BlockId} {inst : Instruction}
    (has : f.Has block inst) (slot : inst.action.isAlloca) : inst.result.isSome := by
  obtain ⟨ty, typed, ⟨-, rfl⟩ | ⟨id, -, -, result, -, -⟩⟩ := ok.typed _ inst has
  · cases action : inst.action with
    | alloca given =>
      rw [action, checkAction] at typed
      simp only [except_bind_ok, except_pure_ok] at typed
      obtain ⟨-, -, absurd_⟩ := typed
      cases absurd_
    | _ =>
      rw [action] at slot
      cases slot
  · rw [result]
    rfl

/-- Every slot is among the instructions that lead the entry block. -/
theorem Layout.slot_leads (laid : f.Layout) {entry : BasicBlock} (known : f.block? ⟨0⟩ = some entry)
    {leading : List Instruction} (split_ : entry.instructions = leading ++ entry.code)
    {p : ValueId} (slot : (f.slotTy? (.value p)).isSome) :
    ∃ inst ∈ leading, inst.result = some p := by
  obtain ⟨home, inst, ⟨data, known', member⟩, isSlot, result⟩ := slotTy?_isSome slot
  obtain ⟨slots, split', -, later⟩ := laid.slotsFirst home data known'
  have among : inst ∈ slots := by
    rw [split', List.mem_append] at member
    refine member.resolve_right fun code => ?_
    have effect := (List.mem_filter.1 code).2
    rw [isSlot] at effect
    cases effect
  obtain rfl : home = ⟨0⟩ := by
    by_contra other
    rw [later other] at among
    cases among
  cases known.symm.trans known'
  obtain rfl : leading = slots := List.append_cancel_right (split_.symm.trans split')
  exact ⟨inst, among, result⟩

end Ir.Function

namespace Ir.Machine

/-- Slots are reserved one after the other; nothing has been stored in them. -/
theorem reserve_run (m : Module) (world : World) (f : Function) {code : List Instruction} :
    ∀ {leading : List Instruction} {c : Machine}, c.rest = leading ++ code →
      (∀ inst ∈ leading, inst.action.isAlloca) → (∀ inst ∈ leading, inst.result.isSome) →
        ∃ d, Reaches m world f c d ∧ d.block = c.block ∧ d.rest = code ∧
          d.registers = c.registers ∧ d.trace = c.trace ∧
          ∀ p, (∃ inst ∈ leading, inst.result = some p) ∨ c.cells p = some .unset →
            d.cells p = some .unset
  | [], c, rest, _, _ =>
    ⟨c, .refl, rfl, rest, rfl, rfl, fun p unset => unset.resolve_left (by simp)⟩
  | inst :: leading, c, rest, slots, results => by
    obtain ⟨id, result⟩ := Option.isSome_iff_exists.1 (results inst List.mem_cons_self)
    have acts : c.act m world inst = some (c.write id .unset) := by
      have slot := slots inst List.mem_cons_self
      unfold act
      cases action : inst.action with
      | alloca ty => simp only [result, Option.map_some]
      | _ =>
        rw [action] at slot
        cases slot
    obtain ⟨d, reaches, block, rest', registers, trace, unset⟩ :=
      reserve_run m world f (c := { c.write id .unset with rest := leading ++ code }) rfl
        (fun inst member => slots inst (List.mem_cons_of_mem _ member))
        (fun inst member => results inst (List.mem_cons_of_mem _ member))
    refine ⟨d, .head ?_ reaches, block, rest', registers, trace, fun p known => unset p ?_⟩
    · rw [step, rest]
      simp only [List.cons_append, acts, Option.map_some]
    · show _ ∨ (if p = id then some Value.unset else c.cells p) = some .unset
      split
      · exact Or.inr rfl
      · rename_i differs
        refine known.imp_left ?_
        rintro ⟨other, member, same⟩
        rcases List.mem_cons.1 member with rfl | member
        · exact absurd (Option.some.inj (same.symm.trans result)) differs
        · exact ⟨other, member, same⟩

/-- A function starts with its arguments in the registers of its parameters, and comes to the
code of its entry block with all of its slots unset. -/
theorem start_run {m' : Module} (m : Module) (world : World) (ok : f.WellFormed m')
    {entry : BasicBlock} (known : f.block? ⟨0⟩ = some entry) (args : List Value) :
    ∃ start d, start? f args = some start ∧ Reaches m world f start d ∧ d.block = ⟨0⟩ ∧
      d.rest = entry.code ∧ (∀ id, d.registers id = (f.params.zip args).lookup id) ∧
      d.trace = [] ∧ ∀ p, (f.slotTy? (.value p)).isSome → d.cells p = some .unset := by
  obtain ⟨leading, split_, slots, -⟩ := ok.slotsFirst _ entry known
  let start : Machine :=
    ⟨⟨0⟩, entry.instructions, fun id => (f.params.zip args).lookup id, fun _ => none, []⟩
  obtain ⟨d, reaches, block, rest, registers, trace, unset⟩ :=
    reserve_run m world f (c := start) split_ slots fun inst member =>
      ok.result_of_slot ⟨entry, known, split_ ▸ List.mem_append_left _ member⟩ (slots inst member)
  exact ⟨start, d, by rw [start?, known, Option.map_some], reaches, block, rest, congrFun registers,
    trace, fun p slot => unset p (Or.inl (ok.layout.slot_leads known split_ slot))⟩

end Ir.Machine

/-! ## Parameters -/

/-- Registers that hold arguments by position hold them one by one. -/
theorem forall₂_registers {registers : ValueId → Option Value} {R : ValueId → Value → Prop} :
    ∀ {params : List ValueId} {args : List Value}, params.Nodup → args.length = params.length →
      (∀ id ∈ params, registers id = (params.zip args).lookup id) →
        (∀ id ∈ params, ∀ value, registers id = some value → R id value) →
          List.Forall₂ R params args
  | [], [], _, _, _, _ => .nil
  | id :: params, value :: args, distinct, count, same, holds => by
    obtain ⟨new, distinct⟩ := List.nodup_cons.1 distinct
    refine .cons (holds id List.mem_cons_self value (by simp [same id])) ?_
    refine forall₂_registers distinct (Nat.succ.inj count) (fun other member => ?_)
      fun other member => holds other (List.mem_cons_of_mem _ member)
    have differs : (other == id) = false :=
      beq_false_of_ne fun here => new (here ▸ member)
    rw [same other (List.mem_cons_of_mem _ member), List.zip_cons_cons, List.lookup_cons, differs]

/-- Parameters mean their arguments. -/
theorem ScopeTable.Explains.bindParams {scope : ScopeId} {means : BoundValue → Meaning → Prop} :
    ∀ {params : List Param} {values : List ValueId} {args : List Value} {t : ScopeTable}
      {frames : Frames}, t.Explains scope means frames → t.contains scope →
      List.Forall₂ (fun id arg => means (.direct (.value id)) (.value arg)) values args →
      params.length = values.length →
        (t.bindParams scope params values).Explains scope means (frames.bindParams params args)
  | [], [], _, t, frames, explains, _, .nil, _ => by
    simpa only [ScopeTable.bindParams, Frames.bindParams] using explains
  | param :: params, id :: values, arg :: args, t, frames, explains, inside, .cons first rest,
      count => by
    rw [ScopeTable.bindParams, Frames.bindParams]
    refine (explains.assign inside param.name first).bindParams ?_ rest (Nat.succ.inj count)
    rw [ScopeTable.contains_iff] at inside ⊢
    simpa [ScopeTable.assign] using inside

/-! ## Names outside of functions -/

/-- What a name that is bound outside of functions means. -/
def Context.meaning? (cx : Context) : BoundValue → Option Meaning
  | .namespace_ inner =>
    some (.namespace_ fun x => (cx.scopes.lookupIn inner x).bind BoundValue.function?)
  | bound => bound.function?.map .value

/-- What the names mean that are visible in a scope outside of functions. -/
def Context.meanings (cx : Context) (scope : ScopeId) : Symbol → Option Meaning := fun x =>
  (cx.scopes.resolve scope x).bind cx.meaning?

/-! ## The start of a body -/

section Start

variable {s p t u q : BodyState} {scope : ScopeId} {params : List Param} {tys : List Ty}
  {ty : Ir.FunctionTy} {outer : Symbol → Option Meaning}

/-- A body starts in the namespaces around it. -/
theorem BodyState.Starts.namespaces (starts : s.Starts scope params tys p)
    (unnamed : (s.entered scope).context.scopes.name? s.home = none) : s.Namespaces p where
  names := fun inner => (starts.grows.names inner).trans (s.name?_entered scope inner)
  members := fun inner named x => by
    rw [starts.grows.lookupIn x, s.lookupIn_entered]
    rintro rfl
    rw [← s.name?_entered scope, unnamed] at named
    cases named

/-- At the start of a body the parameters mean the arguments. -/
theorem BodyState.Starts.agrees {d : Machine} {args : List Value}
    (starts : s.Starts scope params tys p) (declared : s.Declared scope ty)
    (count : params.length = ty.params.length) (counted : args.length = params.length)
    (registers : ∀ id, d.registers id = (s.builder.function.params.zip args).lookup id)
    (agrees : Agrees m [] s scope d ⟨[[]], outer⟩) :
    Agrees m [] p s.home d ((Frames.mk [[]] outer).bindParams params args) := by
  have unnamed : (s.entered scope).context.scopes.name? s.home = none :=
    (starts.grows.names _).symm.trans starts.local_.unnamed
  have around : (s.entered scope).context.scopes.Explains s.home (Means m [] p d) ⟨[[]], outer⟩ :=
    agrees.imp (fun _ _ means => means.mono (fun _ _ => rfl) starts.function.count
      List.prefix_rfl (starts.namespaces unnamed))
      fun _ => ScopeTable.resolve_enter declared.inside none
  have ok := declared.sound.function
  have size : params.length = s.builder.function.params.length := by
    rw [(holds_params ok).length_eq, declared.signature, count]
  have distinct : s.builder.function.params.Nodup := by
    rw [ok.params]
    exact List.Nodup.map (fun _ _ same => ValueId.mk.inj same) List.nodup_range
  rw [Agrees, starts.context]
  refine around.bindParams starts.grows.inside
    (forall₂_registers distinct (counted.trans size) (fun id _ => registers id) ?_) size
  intro id member value holds
  refine .value ⟨holds, ?_⟩
  rintro id' ⟨⟩
  rw [ok.params] at member
  obtain ⟨i, bound, rfl⟩ := List.mem_map.1 member
  obtain ⟨name, known⟩ := ok.paramValue i _ (List.getElem?_eq_getElem (List.mem_range.1 bound))
  exact Nat.lt_of_lt_of_le (Function.value?_lt known) starts.function.count

/-- A function comes to the start of its body, where its parameters mean the arguments. -/
theorem BodyState.Starts.follows {m' : Module} (starts : s.Starts scope params tys p)
    (declared : s.Declared scope ty) (count : params.length = ty.params.length)
    (within : p.Within m f) (ok : f.WellFormed m') (world : World) {args : List Value}
    (counted : args.length = params.length)
    (agrees : ∀ c, Agrees m [] s scope c ⟨[[]], outer⟩) :
    ∃ start d, Machine.start? f args = some start ∧ Reaches m world f start d ∧
      Follows m f [] p s.home ((Frames.mk [[]] outer).bindParams params args) .empty d := by
  obtain ⟨label, entry⟩ := starts.entry
  have known : p.builder.function.block? ⟨0⟩ = some ⟨label, [], none⟩ := by
    rw [Function.block?, entry]
    rfl
  obtain ⟨data, whole, -⟩ := within.function.blocks _ _ known
  obtain ⟨start, d, begun, reaches, block, rest, registers, trace, unset⟩ :=
    Ir.Machine.start_run m world ok whole args
  refine ⟨start, d, begun, reaches, ⟨⟨?_, ?_⟩, ?_⟩⟩
  · refine ⟨block ▸ starts.current, [], data.terminator, ?_, ?_⟩
    · rw [block, Function.content, known]
      rfl
    · rw [block, rest, Function.content, whole]
      rfl
  · exact {
      trace := trace
      count := rfl
      cells := fun _ _ here => by cases here
      distinct := .nil
      old := fun _ member => by cases member
      unset := fun q slot _ => unset q slot }
  · have same : f.params = s.builder.function.params :=
      within.function.params.trans starts.function.params
    exact starts.agrees declared count counted (same ▸ registers) (agrees d)

end Start

/-! ## The end of a body -/

/-- How a function ends when its body ends so.  A body that is fallen off of returns nothing,
which is only possible in a function without a value. -/
def Flow.exit (returns : Ty) : Flow → Exit
  | .normal _ _ => if returns.isVoid then .returned none else .unreachable
  | .returned value _ => .returned value

namespace BodyState.Sealed

variable {s t : BodyState} {span : FileSpan} {c : Machine}

/-- A warning about a missing return is not one about a construct that was skipped. -/
theorem unhandled (sealed : s.Sealed span t) : t.context.unhandled = s.context.unhandled := by
  cases sealed with
  | ended ended => rfl
  | fell selected context =>
    rcases context with rfl | rfl
    · rfl
    · simp [Context.unhandled, Context.warn, List.filter_append, Diagnostic.code]

/-- A machine that falls off of a body leaves the function. -/
theorem leaves (sealed : s.Sealed span t) (grown : t.builder.function.Extends f)
    (at_ : c.At f s) (frames : Frames) (memory : Memory) :
    c.step m world f = some (.inr ((Flow.normal frames memory).exit s.builder.returnTy)) := by
  cases sealed with
  | ended ended =>
    rw [at_.selected.not_terminated] at ended
    cases ended
  | fell selected context =>
    rw [at_.leaves selected grown, Builder.fallOff, Flow.exit]
    split <;> rfl

end BodyState.Sealed

/-! ## Whole bodies -/

/-- The function that a body is lowered to ends as the body does. -/
theorem buildBody_ends {m' : Module} {s t : BodyState} {env : Environment} {scope : ScopeId}
    {decl : FunctionDecl} {ty : Ir.FunctionTy} {stmts : List Stmt} {args : List Value}
    {outer : Symbol → Option Meaning} (declared : s.Declared scope ty)
    (count : decl.params.length = ty.params.length)
    (clear : Stmt.bareBranches Stmt.isVars stmts = false)
    (run : buildBody env scope decl stmts s = .ok () t)
    (ok : t.builder.function.WellFormed m') (globals : t.context.module.globals <+: m.globals)
    (quiet : t.context.unhandled = s.context.unhandled) (world : World)
    (counted : args.length = decl.params.length)
    (agrees : ∀ c, Agrees m [] s scope c ⟨[[]], outer⟩) :
    ∃ flow, decl.eval world outer stmts args = some flow ∧
      t.builder.function.Ends m world args (flow.exit ty.ret) flow.memory.trace := by
  obtain ⟨p, q, starts, body, sealed⟩ := buildBody_ok declared count run
  obtain ⟨names, -, done, -⟩ :=
    (lowerStmts_foretold env stmts s.home p starts.local_).of_ok body
  have within : q.Within m t.builder.function :=
    ⟨sealed.advances.function, sealed.module ▸ globals⟩
  have begun : p.context.unhandled = s.context.unhandled := by
    rw [starts.context]
    rfl
  have silent : q.context.unhandled = p.context.unhandled :=
    sealed.unhandled.symm.trans (quiet.trans begun.symm)
  obtain ⟨start, c, enters, reaches, follows⟩ :=
    starts.follows declared count (within.of_done done) ok world counted agrees
  obtain ⟨flow, evaluates, arrives⟩ := lowerStmts_arrives m world ok.layout env stmts clear
    starts.local_ body within silent follows
  refine ⟨flow, evaluates, ?_⟩
  cases arrives with
  | @normal homes frames memory d goes longer more behind =>
    have returns : (q.leave s.home).builder.returnTy = ty.ret := by
      show q.builder.function.returnTy = ty.ret
      rw [(starts.function.trans done.2).returnTy, Function.returnTy, declared.signature]
    refine ⟨start, d, enters, reaches.trans goes.reaches, ?_, behind.matches_.holds.trace⟩
    have at_ : d.At t.builder.function (q.leave s.home) :=
      behind.matches_.at_.congr rfl rfl rfl rfl
    rw [sealed.leaves (.refl _) at_ frames memory, returns]
  | @returned value memory d onward exits trace =>
    exact ⟨start, d, enters, reaches.trans onward, exits, trace⟩

/-! ## Whole functions -/

section Declarations

variable {cx cx' : Context} {scope : ScopeId} {g : Function} {name : Symbol} {bound : BoundValue}

/-- What is bound outside of functions has its meaning in a body that is begun. -/
theorem Context.Sound.means (sound : cx.Sound) (standing : bound.Standing
      (cx.declare scope name g).module (cx.declare scope name g).scopes)
    (same : ∀ other x, cx'.scopes.lookupIn other x =
      (cx.declare scope name g).scopes.lookupIn other x) (c : Machine) :
    ∃ meaning, cx'.meaning? bound = some meaning ∧
      Means m [] (cx.begun scope name g) c bound meaning := by
  cases bound with
  | direct operand =>
    cases operand with
    | function id => exact ⟨_, rfl, .value ⟨rfl, nofun⟩⟩
    | value id => cases standing
    | constant constant => cases standing
  | slot home => cases standing
  | namespace_ inner =>
    refine ⟨_, rfl, .namespace_ standing fun x member here => ?_⟩
    have standing := sound.standing_declare name g here
    cases member with
    | direct operand =>
      cases operand with
      | function id =>
        have offered : cx'.scopes.lookupIn inner x = some (.direct (.function id)) :=
          (same inner x).trans here
        exact Or.inl ⟨id, rfl, congrArg (Option.bind · BoundValue.function?) offered⟩
      | value id => cases standing
      | constant constant => cases standing
    | slot home => cases standing
    | namespace_ other => exact Or.inr ⟨other, rfl⟩

/-- Where a body is begun, the names around it mean what they mean behind it. -/
theorem Context.Sound.agrees (sound : cx.Sound)
    (spares : (cx.declare scope name g).Spares scope cx') (c : Machine) :
    Agrees m [] (cx.begun scope name g) scope c ⟨[[]], cx'.meanings scope⟩ := by
  intro x bound found
  obtain ⟨other, -, here⟩ := ScopeTable.lookupIn_of_resolve found
  obtain ⟨meaning, known, means⟩ :=
    sound.means (m := m) (sound.standing_declare name g here) spares.lookups c
  refine ⟨meaning, ?_, means⟩
  have same : cx'.scopes.resolve scope x = (cx.declare scope name g).scopes.resolve scope x :=
    ScopeTable.resolve_congr
      (congrArg (List.cons scope) (spares.enclosing scope spares.inside))
      fun other _ => spares.lookups other x
  show (cx'.scopes.resolve scope x).bind cx'.meaning? = some meaning
  rw [same, show (cx.declare scope name g).scopes.resolve scope x = some bound from found,
    Option.bind_some, known]

end Declarations

/-- Lowering preserves meaning.  When a function is lowered, nothing of it is skipped and no
branch is directly a variable statement, then its body has an end in every world and for
all arguments, and the function that was installed ends in that way alone: it exits as the body
does, after the same calls. -/
theorem Context.Reached.preserves {cx cx' : Context} (reached : cx.Reached) (env : Environment)
    (scope : ScopeId) (decl : FunctionDecl) {body : Body} (present : decl.body = some body)
    (clear : Stmt.bareBranches Stmt.isVars body.stmts = false)
    (run : lowerFunction env scope decl cx = .ok () cx')
    (handled : cx'.unhandled = cx.unhandled) :
    ∃ f, cx'.module.functions = cx.module.functions ++ [f] ∧
      ∀ (world : World) (args : List Value), args.length = decl.params.length →
        ∃ flow, decl.eval world (cx'.meanings scope) body.stmts args = some flow ∧
          ∀ exit trace, f.Ends cx'.module world args exit trace ↔
            exit = flow.exit f.returnTy ∧ trace = flow.memory.trace := by
  have sound := reached.sound
  have outcome : FunctionOutcome env scope decl cx (lowerFunction env scope decl cx) :=
    lowerFunction_outcome sound
  rw [run] at outcome
  cases outcome with
  | external header absent =>
    rw [absent] at present
    cases present
  | @installed signature linkage body' t header present' build passed =>
    obtain rfl : body' = body := Option.some.inj (present'.symm.trans present)
    obtain ⟨-, done, built⟩ := building_ok sound header build
    refine ⟨t.builder.function, rfl, fun world args counted => ?_⟩
    have declared := sound.begun header.inside decl.name linkage signature
    obtain ⟨flow, evaluates, ends⟩ := buildBody_ends declared
      (signature?_ok.1 header.typed).params_length clear build built.function
      (m := (cx.finished t.builder.function t.context).module) List.prefix_rfl handled world counted
      (sound.agrees done.1)
    have returns : t.builder.function.returnTy = signature.ret := by
      rw [done.2.returnTy, Function.returnTy, declared.signature]
    rw [← returns] at ends
    refine ⟨flow, evaluates, fun exit trace => ⟨ends.unique, ?_⟩⟩
    rintro ⟨rfl, rfl⟩
    exact ends

/-- `let y = f(x); y = y + x; return y` -/
def Sample.asking : FunctionDecl :=
  function [declare .let_ (.call (.identifier ⟨0⟩ .unplaced) [x] .unplaced),
    .expression (.binary .assign y (.binary .add y x .unplaced) .unplaced) .unplaced,
    .ret (some y) .unplaced]

/-- It asks itself once, and adds its argument to the answer. -/
theorem Sample.asking_eval {outer : Symbol → Option Meaning} {stmts : List Stmt} {span : FileSpan}
    (itself : outer ⟨0⟩ = some (.value (.function ⟨0⟩)))
    (present : Sample.asking.body = some ⟨stmts, span⟩) (world : World) (value : Value) :
    ∃ memory : Memory, memory.trace = [⟨⟨0⟩, [value]⟩] ∧
      Sample.asking.eval world outer stmts [value] = some (.returned
        (some (world.add (world.answer [⟨⟨0⟩, [value]⟩]) value)) memory) := by
  cases present
  have bare (x : Symbol) : (Frames.mk [[]] outer).lookup x = outer x := rfl
  refine ⟨⟨[world.add (world.answer [⟨⟨0⟩, [value]⟩]) value], [⟨⟨0⟩, [value]⟩]⟩, rfl, ?_⟩
  simp [Sample.asking, Sample.function, Sample.declare, Sample.x, Sample.y, FunctionDecl.eval,
    Stmt.evals, Stmt.eval, Declarator.evals, Declarator.eval, Declarator.evalInit, Expr.eval,
    Expr.evals, Frames.bindParams, Frames.read?, Frames.target?, Frames.lookup_bind, bare, itself,
    Memory.call, Memory.empty, Memory.allocate, Memory.store, BindingKind.isMutable]

theorem Context.Reached.preserves_sample :
    (Context.initial "m").Reached ∧
      (∃ body, Sample.asking.body = some body ∧
        Stmt.bareBranches Stmt.isVars body.stmts = false) ∧
      ∃ f cx', lowerFunction Sample.standard ScopeTable.global Sample.asking (.initial "m") =
          .ok () cx' ∧ cx'.unhandled = (Context.initial "m").unhandled ∧
        cx'.module.functions = [f] ∧ ∀ (world : World) (value : Value) exit trace,
          f.Ends cx'.module world [value] exit trace ↔
            exit = .returned (some (world.add (world.answer [⟨⟨0⟩, [value]⟩]) value)) ∧
              trace = [⟨⟨0⟩, [value]⟩] := by
  have reached : (Context.initial "m").Reached := ⟨"m", .refl⟩
  refine ⟨reached, ⟨_, rfl, rfl⟩, ?_⟩
  have passes : ((lowerFunction Sample.standard ScopeTable.global Sample.asking).finished?
      (.initial "m")).map (fun cx' => (cx'.unhandled, cx'.meanings ScopeTable.global ⟨0⟩)) =
        some ([], some (.value (.function ⟨0⟩))) := by cbv
  obtain ⟨cx', finished, found⟩ := Option.map_eq_some_iff.1 passes
  obtain ⟨quiet, itself⟩ := Prod.mk.inj found
  have run := Lower.ok_of_finished finished
  obtain ⟨f, added, ends⟩ :=
    reached.preserves Sample.standard ScopeTable.global Sample.asking rfl rfl run quiet
  refine ⟨f, cx', run, quiet, added, fun world value exit trace => ?_⟩
  obtain ⟨flow, evaluates, ends⟩ := ends world [value] rfl
  obtain ⟨memory, calls, asks⟩ := Sample.asking_eval itself rfl world value
  cases evaluates.symm.trans asks
  rw [ends, ← calls]
  rfl

end SsaLowering
