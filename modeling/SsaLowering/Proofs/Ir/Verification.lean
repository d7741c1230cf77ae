/-
# SsaLowering.Proofs.Ir.Verification -- what the verifier can still find

A function that keeps the invariant and whose blocks have all ended can have one
kind of defect only, a use that its definition does not dominate
(`verify_cases`).  What a verifier accepts under a module it accepts under every
module that keeps the signatures (`verify_mono`).
-/
import SsaLowering.Proofs.Ir.WellFormed

namespace SsaLowering.Ir

set_option autoImplicit false

/-! ## Checks over lists -/

section Lists

variable {ε α : Type}

theorem forM_ok {check : α → Except ε Unit} :
    ∀ {l : List α}, l.forM check = .ok () ↔ ∀ a ∈ l, check a = .ok ()
  | [] => by simp [List.forM, pure, Except.pure]
  | a :: rest => by
    show (check a >>= fun _ => rest.forM check) = .ok () ↔ _
    rw [except_bind_ok, List.forall_mem_cons, ← forM_ok (l := rest)]
    constructor
    · rintro ⟨_, first, others⟩
      exact ⟨first, others⟩
    · rintro ⟨first, others⟩
      exact ⟨(), first, others⟩

theorem forM_error {check : α → Except ε Unit} {cause : ε} :
    ∀ {l : List α}, l.forM check = .error cause → ∃ a ∈ l, check a = .error cause
  | [], failed => by cases failed
  | a :: rest, failed => by
    replace failed : (check a >>= fun _ => rest.forM check) = .error cause := failed
    cases first : check a with
    | error found =>
      rw [first] at failed
      cases failed
      exact ⟨a, List.mem_cons_self, first⟩
    | ok done =>
      rw [first] at failed
      obtain ⟨a', member, found⟩ := forM_error (l := rest) failed
      exact ⟨a', List.mem_cons_of_mem _ member, found⟩

end Lists

namespace Function

variable {m m' : Module} {f : Function}

/-! ## Terminators and types -/

theorem checkTerminators_ok :
    f.checkTerminators = .ok () ↔
      ∀ block ∈ f.blocks, ∃ t, block.terminator = some t ∧
        ∀ target ∈ t.successors, (f.block? target).isSome := by
  rw [checkTerminators, forM_ok]
  refine forall₂_congr fun block _ => ?_
  cases block.terminator with
  | none => simp [throw, throwThe, MonadExceptOf.throw]
  | some t =>
    cases unknown : t.successors.find? fun target => (f.block? target).isNone with
    | some target =>
      have member := List.mem_of_find?_eq_some unknown
      have absent := List.find?_some unknown
      simp only [unknown, throw, throwThe, MonadExceptOf.throw, reduceCtorEq, Option.some.injEq,
        exists_eq_left', false_iff]
      intro all
      rw [Option.isNone_iff_eq_none] at absent
      simpa [absent] using all target member
    | none =>
      simp only [unknown, pure, Except.pure, Option.some.injEq, exists_eq_left', true_iff]
      intro target member
      have present := List.find?_eq_none.1 unknown target member
      simpa [Option.isSome_iff_ne_none] using present

theorem checkTypes_ok :
    f.checkTypes m = .ok () ↔
      ∀ block ∈ f.blocks,
        (∀ inst ∈ block.instructions,
          ∃ ty, f.checkAction (signatureFor m inst.action) inst.action = .ok ty) ∧
        ∀ t, block.terminator = some t → f.checkTerminator t = .ok () := by
  rw [checkTypes, forM_ok]
  refine forall₂_congr fun block _ => ?_
  simp only [except_seq_ok, forM_ok]
  refine and_congr (forall₂_congr fun inst _ => ?_) ?_
  · cases f.checkAction (signatureFor m inst.action) inst.action <;>
      simp [pure, Except.pure, throw, throwThe, MonadExceptOf.throw]
  · cases block.terminator with
    | none => simp [pure, Except.pure]
    | some t =>
      simp only [Option.some.injEq, forall_eq']
      cases f.checkTerminator t <;>
        simp [pure, Except.pure, throw, throwThe, MonadExceptOf.throw]

/-! ## Definitions -/

/-- One step of `definitions`. -/
def define (f : Function) (known : Definitions) (result : ValueId × Site) :
    Except Defect Definitions :=
  if (f.value? result.1).isNone then throw (.undefinedValue f.name result.1)
  else if (known.lookup result.1).isSome then throw (.redefined f.name result.1)
  else return (result.1, some result.2) :: known

theorem definitions_eq (f : Function) :
    f.definitions = f.results.foldlM f.define (f.params.map fun param => (param, none)) :=
  rfl

/-- Results that are all different, in the table and not known before are added in order. -/
theorem foldlM_define : ∀ {sites : List (ValueId × Site)} {known : Definitions},
    (∀ result ∈ sites, (f.value? result.1).isSome) → (sites.map (·.1)).Nodup →
    (∀ result ∈ sites, known.lookup result.1 = none) →
      sites.foldlM f.define known =
        .ok (sites.reverse.map (fun result => (result.1, some result.2)) ++ known)
  | [], _, _, _, _ => rfl
  | result :: rest, known, present, distinct, fresh => by
    rw [List.forall_mem_cons] at present fresh
    rw [List.map_cons, List.nodup_cons] at distinct
    have here : f.define known result = .ok ((result.1, some result.2) :: known) := by
      have listed : (f.value? result.1).isNone = false := by simpa using present.1
      rw [define, listed, fresh.1]
      rfl
    rw [List.foldlM_cons, here]
    show rest.foldlM f.define _ = _
    rw [foldlM_define present.2 distinct.2 fun other member => ?_]
    · simp
    · have differs : other.1 ≠ result.1 := fun same =>
        distinct.1 (same ▸ List.mem_map_of_mem member)
      rw [List.lookup_cons, beq_false_of_ne differs]
      exact fresh.2 other member

theorem mem_results {id : ValueId} {site : Site} :
    (id, site) ∈ f.results ↔ ∃ data inst, f.block? site.block = some data ∧
      data.instructions[site.position]? = some inst ∧ inst.result = some id := by
  simp only [results, List.mem_flatten]
  constructor
  · rintro ⟨_, among, member⟩
    obtain ⟨i, bound, rfl⟩ := List.mem_mapIdx.1 among
    obtain ⟨_, here, rfl⟩ := List.mem_filterMap.1 member
    obtain ⟨j, bound', result⟩ := List.mem_mapIdx.1 here
    obtain ⟨_, result', same⟩ := Option.map_eq_some_iff.1 result
    cases same
    exact ⟨_, _, List.getElem?_eq_getElem bound, List.getElem?_eq_getElem bound', result'⟩
  · rintro ⟨data, inst, known, here, result⟩
    obtain ⟨bound, rfl⟩ := List.getElem?_eq_some_iff.1 known
    obtain ⟨bound', rfl⟩ := List.getElem?_eq_some_iff.1 here
    refine ⟨_, List.mem_mapIdx.2 ⟨_, bound, rfl⟩, List.mem_filterMap.2 ⟨_, ?_, rfl⟩⟩
    exact List.mem_mapIdx.2 ⟨_, bound', by rw [result]; rfl⟩

theorem map_mapIdx_of_fst {α β γ : Type} {make : Nat → α → β} {view : β → γ} {plain : α → γ}
    (same : ∀ i a, view (make i a) = plain a) (l : List α) :
    (l.mapIdx make).map view = l.map plain := by
  apply List.ext_getElem?
  intro i
  simp only [List.getElem?_map, List.getElem?_mapIdx, Option.map_map]
  exact congrArg (Option.map · l[i]?) (funext fun a => same i a)

theorem map_fst_results (f : Function) : f.results.map (·.1) = f.resultIds := by
  rw [results, List.map_flatten, resultIds, instructions, List.filterMap_flatMap,
    List.flatMap_def]
  refine congrArg List.flatten (map_mapIdx_of_fst (fun index block => ?_) f.blocks)
  rw [List.map_filterMap, List.mapIdx_eq_zipIdx_map, List.filterMap_map]
  conv_rhs => rw [← List.zipIdx_map_fst 0 block.instructions, List.filterMap_map]
  refine congrArg (List.filterMap · _) (funext fun entry => ?_)
  cases result : entry.1.result <;> simp [result]

theorem mem_resultIds {id : ValueId} : id ∈ f.resultIds ↔ ∃ site, (id, site) ∈ f.results := by
  rw [← map_fst_results, List.mem_map]
  constructor
  · rintro ⟨⟨_, site⟩, member, rfl⟩
    exact ⟨site, member⟩
  · rintro ⟨site, member⟩
    exact ⟨(id, site), member, rfl⟩

/-- Where the values of a function are defined, the last result first; a parameter has no
place. -/
def sites (f : Function) : Definitions :=
  f.results.reverse.map (fun result => (result.1, some result.2)) ++
    f.params.map fun param => (param, none)

/-- What the search for definitions finds where the results are different entries of the value
table and no parameters. -/
theorem definitions_eq_sites (distinct : f.resultIds.Nodup)
    (listed : ∀ id ∈ f.resultIds, (f.value? id).isSome ∧ id ∉ f.params) :
    f.definitions = .ok f.sites := by
  refine (definitions_eq f).trans (foldlM_define ?_ ?_ ?_)
  · exact fun result member => (listed _ (mem_resultIds.2 ⟨result.2, member⟩)).1
  · rw [map_fst_results]
    exact distinct
  · intro result member
    rw [List.lookup_eq_none_iff]
    intro entry among
    obtain ⟨param, given, rfl⟩ := List.mem_map.1 among
    rw [bne_iff_ne]
    rintro rfl
    exact (listed _ (mem_resultIds.2 ⟨result.2, member⟩)).2 given

theorem mem_results_of_lookup {id : ValueId} {site : Site}
    (found : f.sites.lookup id = some (some site)) : (id, site) ∈ f.results := by
  obtain ⟨front, back, split_, -⟩ := List.lookup_eq_some_iff.1 found
  have member : (id, some site) ∈ f.sites := split_ ▸ by simp
  rcases List.mem_append.1 member with new | old
  · obtain ⟨result, among, same⟩ := List.mem_map.1 new
    cases same
    exact List.mem_reverse.1 among
  · obtain ⟨param, -, same⟩ := List.mem_map.1 old
    cases same

theorem lookup_sites_isSome {id : ValueId} (defined : id ∈ f.params ∨ id ∈ f.resultIds) :
    (f.sites.lookup id).isSome := by
  rw [List.lookup_isSome_iff]
  rcases defined with param | result
  · exact ⟨(id, none), List.mem_append_right _ (List.mem_map_of_mem param), by simp⟩
  · obtain ⟨site, among⟩ := mem_resultIds.1 result
    refine ⟨(id, some site), List.mem_append_left _ ?_, by simp⟩
    exact List.mem_map.2 ⟨_, List.mem_reverse.2 among, rfl⟩

namespace WellFormed

theorem has_of_mem_resultIds {id : ValueId} (result : id ∈ f.resultIds) :
    ∃ block inst, f.Has block inst ∧ inst.result = some id := by
  obtain ⟨site, among⟩ := mem_resultIds.1 result
  obtain ⟨data, inst, known, here, result⟩ := mem_results.1 among
  exact ⟨site.block, inst, ⟨data, known, List.mem_of_getElem? here⟩, result⟩

/-- Results are entries of the value table and no parameters. -/
theorem listed (ok : f.WellFormed m) :
    ∀ id ∈ f.resultIds, (f.value? id).isSome ∧ id ∉ f.params := by
  intro id member
  obtain ⟨block, inst, has, result⟩ := has_of_mem_resultIds member
  obtain ⟨name, ty, known⟩ := ok.result_known has result
  refine ⟨Option.isSome_iff_exists.2 ⟨_, known⟩, fun param => ?_⟩
  rw [ok.params, List.mem_map] at param
  obtain ⟨i, bound, rfl⟩ := param
  obtain ⟨name', param⟩ :=
    ok.paramValue i _ (List.getElem?_eq_getElem (List.mem_range.1 bound))
  cases known.symm.trans param

/-- Every entry of the value table is a parameter or a result. -/
theorem param_or_result (ok : f.WellFormed m) {id : ValueId} {data : ValueData}
    (known : f.value? id = some data) : id ∈ f.params ∨ id ∈ f.resultIds := by
  cases origin : data.origin with
  | param i =>
    obtain ⟨rfl, bound⟩ := ok.paramOrigin id data i known origin
    rw [ok.params]
    exact Or.inl (List.mem_map.2 ⟨i, List.mem_range.2 bound, rfl⟩)
  | inst block =>
    obtain ⟨inst, ⟨data, here, member⟩, result⟩ := ok.defined id data block known origin
    obtain ⟨j, place⟩ := List.mem_iff_getElem?.1 member
    exact Or.inr (mem_resultIds.2 ⟨⟨block, j⟩, mem_results.2 ⟨data, inst, here, place, result⟩⟩)

theorem definitions_ok (ok : f.WellFormed m) :
    ∃ known, f.definitions = .ok known ∧
      (∀ id data, f.value? id = some data → (known.lookup id).isSome) ∧
      ∀ id site, known.lookup id = some (some site) → (id, site) ∈ f.results :=
  ⟨f.sites, definitions_eq_sites ok.unique ok.listed,
    fun _ _ known => lookup_sites_isSome (ok.param_or_result known),
    fun _ _ => mem_results_of_lookup⟩

end WellFormed

/-! ## Uses -/

theorem filterMap_value?_mem {operands : List Operand} {id : ValueId} :
    id ∈ operands.filterMap Operand.value? ↔ Operand.value id ∈ operands := by
  rw [List.mem_filterMap]
  constructor
  · rintro ⟨operand, member, named⟩
    cases operand <;> cases named
    exact member
  · intro member
    exact ⟨_, member, rfl⟩

/-- The reads of a block: those of its instructions, then those of its end. -/
theorem mem_uses {block : BasicBlock} {use : Use} :
    use ∈ block.uses ↔
      (∃ inst, block.instructions[use.position]? = some inst ∧
        .value use.value ∈ inst.action.operands) ∨
      (use.position = block.instructions.length ∧
        ∃ t, block.terminator = some t ∧ .value use.value ∈ t.operands) := by
  simp only [BasicBlock.uses, List.mem_append]
  refine or_congr ?_ ?_
  · rw [List.mem_flatten]
    constructor
    · rintro ⟨_, among, member⟩
      obtain ⟨j, bound, rfl⟩ := List.mem_mapIdx.1 among
      obtain ⟨id, read, rfl⟩ := List.mem_map.1 member
      exact ⟨_, List.getElem?_eq_getElem bound, filterMap_value?_mem.1 read⟩
    · rintro ⟨inst, here, read⟩
      obtain ⟨bound, rfl⟩ := List.getElem?_eq_some_iff.1 here
      refine ⟨_, List.mem_mapIdx.2 ⟨_, bound, rfl⟩, ?_⟩
      exact List.mem_map.2 ⟨_, filterMap_value?_mem.2 read, rfl⟩
  · rw [List.mem_map]
    cases block.terminator with
    | none => simp
    | some t =>
      simp only [Option.map_some, Option.getD_some, Option.some.injEq, exists_eq_left']
      constructor
      · rintro ⟨id, read, rfl⟩
        exact ⟨rfl, filterMap_value?_mem.1 read⟩
      · rintro ⟨here, read⟩
        exact ⟨_, filterMap_value?_mem.2 read, by rw [← here]⟩

theorem expectArgs_operand : ∀ {args : List Operand} {params : List Ty},
    f.expectArgs args params = .ok () → args.length = params.length →
      ∀ operand ∈ args, ∃ ty, f.operandTy operand = .ok ty
  | [], _, _, _, _, member => by cases member
  | _ :: _, [], _, count, _, _ => by cases count
  | arg :: args, param :: params, ok, count, operand, member => by
    obtain ⟨first, rest⟩ := except_seq_ok.1 ok
    rcases List.mem_cons.1 member with rfl | member
    · exact ⟨param, expectTy_ok.1 first⟩
    · exact expectArgs_operand rest (Nat.succ.inj count) operand member

/-- Every operand of a well-typed action has a type. -/
theorem checkAction_operand {signature : Option FunctionTy} {action : Action}
    {result : Option Ty} (ok : f.checkAction signature action = .ok result) {operand : Operand}
    (member : operand ∈ action.operands) : ∃ ty, f.operandTy operand = .ok ty := by
  cases action with
  | alloca ty => cases member
  | load ty ptr =>
    simp only [checkAction, except_seq_ok] at ok
    rw [List.mem_singleton.1 member]
    exact ⟨_, expectTy_ok.1 ok.2.1⟩
  | store value ptr =>
    simp only [checkAction, except_bind_ok] at ok
    obtain ⟨_, address, stored, typed, _⟩ := ok
    simp only [Action.operands, List.mem_cons, List.not_mem_nil, or_false] at member
    rcases member with rfl | rfl
    · exact ⟨stored, typed⟩
    · exact ⟨_, expectTy_ok.1 address⟩
  | fadd lhs rhs =>
    simp only [checkAction, except_seq_ok] at ok
    simp only [Action.operands, List.mem_cons, List.not_mem_nil, or_false] at member
    rcases member with rfl | rfl
    · exact ⟨_, expectTy_ok.1 ok.1⟩
    · exact ⟨_, expectTy_ok.1 ok.2.1⟩
  | call callee args =>
    cases signature with
    | none => exact absurd ok except_throw_ok
    | some signature =>
      by_cases count : args.length = signature.params.length
      · simp only [checkAction, count, ne_eq, not_true_eq_false, if_false, except_seq_ok] at ok
        exact expectArgs_operand ok.1 count operand member
      · simp only [checkAction, ne_eq, count, not_false_eq_true, if_true, except_bind_ok] at ok
        obtain ⟨_, refused, _⟩ := ok
        exact absurd refused except_throw_ok

theorem checkTerminator_ok {t : Terminator} (ok : f.checkTerminator t = .ok ()) :
    (∀ target ∈ t.successors, (f.block? target).isSome) ∧
      ∀ operand ∈ t.operands, ∃ ty, f.operandTy operand = .ok ty := by
  unfold checkTerminator at ok
  cases unknown : t.successors.find? fun target => (f.block? target).isNone with
  | some target =>
    rw [unknown] at ok
    exact absurd ok except_throw_ok
  | none =>
    rw [unknown] at ok
    constructor
    · intro target member
      simpa [Option.isSome_iff_ne_none] using List.find?_eq_none.1 unknown target member
    · intro operand member
      cases t with
      | condBr cond thenBlock elseBlock =>
        rw [List.mem_singleton.1 member]
        exact ⟨_, expectTy_ok.1 ok⟩
      | ret value =>
        cases value with
        | none => cases member
        | some value =>
          rw [List.mem_singleton.1 member]
          exact ⟨_, expectTy_ok.1 ok⟩
      | br target => cases member
      | unreachable => cases member

/-- Every value that is read is in the table. -/
theorem WellFormed.use_known (ok : f.WellFormed m) {id : BlockId} {block : BasicBlock}
    (known : f.block? id = some block) {use : Use} (read : use ∈ block.uses) :
    ∃ data, f.value? use.value = some data := by
  have typed : ∃ ty, f.operandTy (.value use.value) = .ok ty := by
    rcases mem_uses.1 read with ⟨inst, here, member⟩ | ⟨-, t, ended, member⟩
    · obtain ⟨ty, checked, -⟩ := ok.typed id inst ⟨block, known, List.mem_of_getElem? here⟩
      exact checkAction_operand checked member
    · exact (checkTerminator_ok (ok.terminated id block t known ended)).2 _ member
  obtain ⟨ty, typed⟩ := typed
  obtain ⟨data, present, -⟩ := operandTy_value_ok.1 typed
  exact ⟨data, present⟩

/-! ## The verdict -/

theorem mem_zip_blockIds {id : BlockId} {block : BasicBlock} :
    (id, block) ∈ f.blockIds.zip f.blocks ↔ f.block? id = some block := by
  rw [List.mem_iff_getElem?]
  simp only [List.getElem?_zip_eq_some, blockIds, List.getElem?_map, Option.map_eq_some_iff,
    block?]
  constructor
  · rintro ⟨i, ⟨j, counted, rfl⟩, known⟩
    obtain ⟨_, rfl⟩ := List.getElem?_eq_some_iff.1 counted
    simpa using known
  · intro known
    have bound := (List.getElem?_eq_some_iff.1 known).1
    exact ⟨id.index, ⟨id.index, by simp [bound], rfl⟩, known⟩

/-- On reachable blocks every use comes after its definition. -/
def Dominated (f : Function) : Prop :=
  ∀ id block use site, f.block? id = some block → use ∈ block.uses →
    (use.value, site) ∈ f.results → f.reachable.contains id →
      precedes f.dominators site id use.position

/-- The last check of a function that keeps the invariant. -/
theorem WellFormed.checkDominance_cases (ok : f.WellFormed m) :
    f.checkDominance = .ok () ∨
      ¬ f.Dominated ∧ ∃ value block,
        f.checkDominance = .error (.notDominated f.name value block) := by
  obtain ⟨known, defined, complete, sites⟩ := ok.definitions_ok
  have opened : f.checkDominance = _ := congrArg (· >>= _) defined
  cases verdict : f.checkDominance with
  | ok done => exact Or.inl rfl
  | error cause =>
    right
    rw [verdict] at opened
    obtain ⟨⟨id, block⟩, among, failed⟩ := forM_error opened.symm
    obtain ⟨use, read, failed⟩ := forM_error failed
    have present := mem_zip_blockIds.1 among
    obtain ⟨data, value⟩ := ok.use_known present read
    obtain ⟨definition, found⟩ := Option.isSome_iff_exists.1 (complete _ _ value)
    rw [found] at failed
    cases definition with
    | none => cases failed
    | some site =>
      simp only [] at failed
      split at failed
      · rename_i late
        rw [Bool.and_eq_true, Bool.not_eq_true'] at late
        refine ⟨fun dominated => ?_, use.value, block.name, ?_⟩
        · have early := dominated id block use site present read (sites _ _ found) late.1
          rw [late.2] at early
          cases early
        · cases failed
          rfl
      · cases failed

theorem verify_of_blocks (nonempty : f.blocks ≠ []) :
    f.verify m = (do f.checkTerminators; f.checkTypes m; f.checkDominance) := by
  have body : f.isDeclaration = false := by simpa [isDeclaration] using nonempty
  rw [verify, body]
  rfl

/-- A function that keeps the invariant and whose blocks have ended passes the checks
of terminators and types. -/
theorem WellFormed.verify_eq (ok : f.WellFormed m)
    (ended : ∀ block ∈ f.blocks, block.terminator.isSome) (nonempty : f.blocks ≠ []) :
    f.verify m = f.checkDominance := by
  have terminators : f.checkTerminators = .ok () := by
    refine checkTerminators_ok.2 fun block member => ?_
    obtain ⟨t, last⟩ := Option.isSome_iff_exists.1 (ended block member)
    obtain ⟨i, known⟩ := List.mem_iff_getElem?.1 member
    exact ⟨t, last, (checkTerminator_ok (ok.terminated ⟨i⟩ block t known last)).1⟩
  have types : f.checkTypes m = .ok () := by
    refine checkTypes_ok.2 fun block member => ?_
    obtain ⟨i, known⟩ := List.mem_iff_getElem?.1 member
    refine ⟨fun inst among => ?_, fun t last => ok.terminated ⟨i⟩ block t known last⟩
    obtain ⟨ty, checked, -⟩ := ok.typed ⟨i⟩ inst ⟨block, known, among⟩
    exact ⟨ty, checked⟩
  rw [verify_of_blocks nonempty, terminators, types]
  rfl

/-- The one defect that is left is a use without a dominating definition. -/
theorem WellFormed.verify_cases (ok : f.WellFormed m)
    (ended : ∀ block ∈ f.blocks, block.terminator.isSome) (nonempty : f.blocks ≠ []) :
    f.verify m = .ok () ∨
      ¬ f.Dominated ∧ ∃ value block,
        f.verify m = .error (.notDominated f.name value block) := by
  rw [ok.verify_eq ended nonempty]
  exact ok.checkDominance_cases

/-- A function stays sound when the module grows around it. -/
theorem verify_mono
    (kept : ∀ id signature, m.signature? id = some signature → m'.signature? id = some signature)
    (ok : f.verify m = .ok ()) : f.verify m' = .ok () := by
  by_cases empty : f.blocks = []
  · rw [verify, isDeclaration, empty]
    rfl
  · rw [verify_of_blocks empty] at ok ⊢
    rw [except_seq_ok, except_seq_ok] at ok ⊢
    refine ⟨ok.1, checkTypes_ok.2 fun block member => ?_, ok.2.2⟩
    obtain ⟨insts, last⟩ := checkTypes_ok.1 ok.2.1 block member
    refine ⟨fun inst among => ?_, last⟩
    obtain ⟨ty, checked⟩ := insts inst among
    refine ⟨ty, ?_⟩
    cases action : inst.action with
    | call callee args =>
      rw [action] at checked
      simp only [signatureFor] at checked ⊢
      cases known : m.signature? callee with
      | none =>
        rw [known] at checked
        exact absurd checked except_throw_ok
      | some signature => rwa [kept _ _ known, ← known]
    | _ => rwa [action] at checked

end Function

end SsaLowering.Ir
