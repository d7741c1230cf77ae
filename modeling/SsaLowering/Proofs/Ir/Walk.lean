/-
# SsaLowering.Proofs.Ir.Walk -- executions along the edges of a function

A `Walk f passed v` is one way of control from the entry to `v`, and `executed` lists
the instructions on it before a position of `v`.  Blocks may be passed again and
again; nothing is assumed about the graph.

* `mem_reachable`: the blocks that `reachable` collects are those of walks.
* `contains_dominators`: on them, the set of a block holds exactly the blocks that
  are on every walk to it.
* `checkDominance_ok_iff_executed`: the last check of the verifier accepts exactly
  when, on every walk, what is read is a parameter or was defined before.
-/
import SsaLowering.Proofs.Ir.Narrowing

namespace SsaLowering.Ir

set_option autoImplicit false

namespace Function

/-! ## Walks -/

/-- Walks from the entry, with the blocks that they passed, the last one first. -/
inductive Walk (f : Function) : List BlockId → BlockId → Prop
  | entry : Walk f [⟨0⟩] ⟨0⟩
  | step {passed : List BlockId} {u v : BlockId} (before : Walk f passed u)
      (edge : v ∈ f.successors u) : Walk f (v :: passed) v

variable {f : Function} {passed : List BlockId} {u v d : BlockId}

/-- The last block of a walk is the one that it enters. -/
theorem Walk.eq_cons (walk : f.Walk passed v) : ∃ past, passed = v :: past := by
  cases walk with
  | entry => exact ⟨[], rfl⟩
  | step before edge => exact ⟨_, rfl⟩

/-- A walk enters a block for the first time before it enters it again. -/
theorem Walk.first (walk : f.Walk passed v) (on : d ∈ passed) :
    ∃ past, f.Walk (d :: past) d ∧ d ∉ past := by
  induction walk with
  | entry =>
    obtain rfl := List.mem_singleton.1 on
    exact ⟨[], .entry, List.not_mem_nil⟩
  | @step passed u v before edge ih =>
    by_cases earlier : d ∈ passed
    · exact ih earlier
    · obtain rfl := (List.mem_cons.1 on).resolve_right earlier
      exact ⟨_, .step before edge, earlier⟩

/-- The blocks that are found are those that a walk enters. -/
theorem mem_reachable :
    v ∈ f.reachable ↔ v.index < f.blocks.length ∧ ∃ passed, f.Walk passed v := by
  rw [mem_reachable_iff]
  constructor
  · intro connected
    refine ⟨connected.lt, connected.along (P := fun v => ∃ passed, f.Walk passed v) ?_ ?_⟩
    · intro v first
      obtain ⟨rfl, -⟩ := entry?_eq_some.1 first
      exact ⟨_, .entry⟩
    · rintro u v ⟨passed, walk⟩ edge
      exact ⟨_, walk.step edge.successor⟩
  · rintro ⟨inside, passed, walk⟩
    induction walk with
    | entry => exact connected_entry (entry?_eq_some.2 ⟨rfl, List.ne_nil_of_length_pos inside⟩)
    | step before edge ih =>
      have source := lt_of_mem_successors edge
      exact (ih source).step ⟨source, inside, edge⟩

theorem Walk.reachable (walk : f.Walk passed v) (inside : v.index < f.blocks.length) :
    v ∈ f.reachable :=
  mem_reachable.2 ⟨inside, passed, walk⟩

theorem Walk.lt_of_mem (walk : f.Walk passed v) (inside : v.index < f.blocks.length) :
    ∀ d ∈ passed, d.index < f.blocks.length := by
  induction walk with
  | entry => exact List.forall_mem_singleton.2 inside
  | step before edge ih => exact List.forall_mem_cons.2 ⟨inside, ih (lt_of_mem_successors edge)⟩

/-! ## The sets of dominators are exact -/

/-- Some walk enters `v`, and every walk that does passes `d`. -/
def OnEveryWalk (f : Function) (v d : BlockId) : Prop :=
  v ∈ f.reachable ∧ ∀ passed, f.Walk passed v → d ∈ passed

theorem backwards_onEveryWalk (f : Function) : f.Backwards f.OnEveryWalk where
  entry := fun d ⟨_, on⟩ => List.mem_singleton.1 (on _ .entry)
  bound := fun v d ⟨reached, on⟩ => by
    obtain ⟨inside, passed, walk⟩ := mem_reachable.1 reached
    exact walk.lt_of_mem inside d (on passed walk)
  edge := fun u v d visited edge ⟨_, on⟩ => by
    by_cases here : d = v
    · exact Or.inl here
    · exact Or.inr ⟨visited, fun passed walk =>
        (List.mem_cons.1 (on _ (walk.step edge))).resolve_left here⟩

/-- The set of the entry holds the entry alone. -/
theorem eq_entry_of_contains (inside : 0 < f.blocks.length)
    (member : (f.dominators.getD 0 .empty).contains d) : d = ⟨0⟩ := by
  rw [← refined_dominators inside, refined, if_pos rfl, BlockSet.singleton,
    BlockSet.contains_insert] at member
  simpa [BlockSet.empty, BlockSet.contains] using member

/-- A block of the set of `v` is on every walk to `v`. -/
theorem Walk.mem_of_contains (walk : f.Walk passed v) (inside : v.index < f.blocks.length)
    (member : (f.dominators.getD v.index .empty).contains d) : d ∈ passed := by
  induction walk with
  | entry => exact List.mem_singleton.2 (eq_entry_of_contains inside member)
  | @step passed u v before edge ih =>
    by_cases first : v = ⟨0⟩
    · subst first
      exact List.mem_cons.2 (Or.inl (eq_entry_of_contains inside member))
    · have source := lt_of_mem_successors edge
      have pred := (mem_predecessors ((before.step edge).reachable inside)).2
        ⟨before.reachable source, edge⟩
      rw [← refined_dominators inside, refined,
        if_neg fun same => first (by cases v; exact congrArg _ same),
        BlockSet.contains_insert, Bool.or_eq_true, contains_common] at member
      rcases member with ⟨-, above⟩ | here
      · exact List.mem_cons_of_mem _ (ih source (above u pred))
      · exact List.mem_cons.2 (Or.inl (of_decide_eq_true here))

/-- The set of a reachable block holds the blocks that are on every walk to it. -/
theorem contains_dominators (reached : v ∈ f.reachable) :
    (f.dominators.getD v.index .empty).contains d ↔ ∀ passed, f.Walk passed v → d ∈ passed :=
  ⟨fun member _ walk => walk.mem_of_contains (lt_of_mem_reachable reached) member,
    fun on => f.backwards_onEveryWalk.contains_dominators reached ⟨reached, on⟩⟩

/-! ## What was executed -/

/-- The instructions of a block; a block that does not exist has none. -/
def instructionsOf (f : Function) (v : BlockId) : List Instruction :=
  ((f.block? v).map (·.instructions)).getD []

/-- The instructions that control has executed before a position of `v`, in order, when it
passed the blocks `past` before, the last one first. -/
def executed (f : Function) (past : List BlockId) (v : BlockId) (position : Nat) :
    List Instruction :=
  past.reverse.flatMap f.instructionsOf ++ (f.instructionsOf v).take position

theorem mem_executed {past : List BlockId} {position : Nat} {inst : Instruction} :
    inst ∈ f.executed past v position ↔
      (∃ u ∈ past, inst ∈ f.instructionsOf u) ∨
        ∃ i < position, (f.instructionsOf v)[i]? = some inst := by
  rw [executed, List.mem_append, List.mem_flatMap, List.mem_take_iff_getElem]
  simp only [List.mem_reverse]
  refine or_congr_right ⟨?_, ?_⟩
  · rintro ⟨i, bound, rfl⟩
    exact ⟨i, by omega, List.getElem?_eq_getElem (by omega)⟩
  · rintro ⟨i, before, here⟩
    obtain ⟨bound, rfl⟩ := List.getElem?_eq_some_iff.1 here
    exact ⟨i, by omega, rfl⟩

end Function

/-- The instruction at a position of a block reads a value, or the end of the block does, which
stands behind the last instruction. -/
def BasicBlock.Reads (block : BasicBlock) (position : Nat) (id : ValueId) : Prop :=
  (∃ inst, block.instructions[position]? = some inst ∧ .value id ∈ inst.action.operands) ∨
    (position = block.instructions.length ∧
      ∃ t, block.terminator = some t ∧ .value id ∈ t.operands)

namespace Function

variable {f : Function} {v : BlockId}

/-- On every walk, what is read is a parameter or the result of an instruction that was
executed before. -/
def DefinedBeforeUse (f : Function) : Prop :=
  ∀ past v data position id, f.Walk (v :: past) v → f.block? v = some data →
    data.Reads position id →
    id ∈ f.params ∨ ∃ inst ∈ f.executed past v position, inst.result = some id

/-- Results are different entries of the value table and no parameters, and nothing else
than results and parameters is read. -/
structure Regular (f : Function) : Prop where
  distinct : f.resultIds.Nodup
  listed : ∀ id ∈ f.resultIds, (f.value? id).isSome ∧ id ∉ f.params
  known : ∀ block ∈ f.blocks, ∀ position id, block.Reads position id →
    id ∈ f.params ∨ id ∈ f.resultIds

/-! ## The check of dominance -/

theorem lookup_of_mem {α β : Type} [BEq α] [LawfulBEq α] {entries : List (α × β)} {a : α} {b : β}
    (distinct : (entries.map (·.1)).Nodup) (member : (a, b) ∈ entries) :
    entries.lookup a = some b := by
  obtain ⟨front, back, rfl⟩ := List.append_of_mem member
  refine List.lookup_eq_some_iff.2 ⟨front, back, rfl, fun entry earlier => ?_⟩
  rw [List.map_append, List.map_cons, List.nodup_append] at distinct
  rw [bne_iff_ne]
  exact (distinct.2.2 entry.1 (List.mem_map_of_mem earlier) a List.mem_cons_self).symm

namespace Regular

variable (regular : f.Regular)
include regular

/-- A parameter has no place. -/
theorem lookup_param {id : ValueId} (param : id ∈ f.params) : f.sites.lookup id = some none := by
  obtain ⟨definition, found⟩ := Option.isSome_iff_exists.1 (lookup_sites_isSome (Or.inl param))
  cases definition with
  | none => exact found
  | some site =>
    have result := mem_resultIds.2 ⟨site, mem_results_of_lookup found⟩
    exact absurd param (regular.listed id result).2

/-- A result is found in its place. -/
theorem lookup_result {id : ValueId} {site : Site} (member : (id, site) ∈ f.results) :
    f.sites.lookup id = some (some site) := by
  have plain : (f.results.reverse.map fun result => (result.1, some result.2)).map (·.1) =
      f.resultIds.reverse := by
    rw [List.map_map, ← map_fst_results, ← List.map_reverse]
    rfl
  rw [sites, List.lookup_append, lookup_of_mem (b := some site) ?_ ?_]
  · rfl
  · rw [plain]
    exact List.nodup_reverse.2 regular.distinct
  · exact List.mem_map.2 ⟨_, List.mem_reverse.2 member, rfl⟩

end Regular

/-- The check in terms of places: a use on a reachable block comes after its definition. -/
theorem Regular.checkDominance_ok (regular : f.Regular) :
    f.checkDominance = .ok () ↔
      ∀ v data position id site, f.block? v = some data → data.Reads position id →
        (id, site) ∈ f.results → v ∈ f.reachable → precedes f.dominators site v position := by
  have opened : f.checkDominance = _ :=
    congrArg (· >>= _) (definitions_eq_sites regular.distinct regular.listed)
  rw [opened]
  show List.forM _ _ = Except.ok () ↔ _
  rw [forM_ok]
  simp only [forM_ok, Prod.forall, mem_zip_blockIds]
  constructor
  · intro checked v data position id site here reads result reached
    have passed := checked v data here ⟨position, id⟩ (mem_uses.2 reads)
    simp only [regular.lookup_result result] at passed
    split at passed
    · cases passed
    · rename_i early
      rw [Bool.and_eq_true, List.contains_iff_mem] at early
      by_contra late
      exact early ⟨reached, by simpa using late⟩
  · intro before v data here use read
    have reads : data.Reads use.position use.value := mem_uses.1 read
    rcases regular.known data (List.mem_of_getElem? here) _ _ reads with param | result
    · rw [regular.lookup_param param]
      rfl
    · obtain ⟨site, result⟩ := mem_resultIds.1 result
      simp only [regular.lookup_result result]
      refine if_neg fun late => ?_
      rw [Bool.and_eq_true, List.contains_iff_mem] at late
      have early := before v data _ _ site here reads result late.1
      rw [early] at late
      cases late.2

theorem Regular.site_unique (regular : f.Regular) {id : ValueId} {a b : Site}
    (here : (id, a) ∈ f.results) (there : (id, b) ∈ f.results) : a = b := by
  have distinct := regular.distinct
  rw [← map_fst_results] at distinct
  cases List.inj_on_of_nodup_map distinct here there rfl
  rfl

theorem mem_results_of_instructionsOf {id : ValueId} {inst : Instruction} {i : Nat}
    (here : (f.instructionsOf v)[i]? = some inst) (result : inst.result = some id) :
    (id, Site.mk v i) ∈ f.results := by
  unfold instructionsOf at here
  cases known : f.block? v with
  | none => simp [known] at here
  | some data => exact mem_results.2 ⟨data, inst, known, by simpa [known] using here, result⟩

theorem instructionsOf_of_mem_results {id : ValueId} {site : Site}
    (result : (id, site) ∈ f.results) :
    ∃ inst, (f.instructionsOf site.block)[site.position]? = some inst ∧ inst.result = some id := by
  obtain ⟨data, inst, known, here, result⟩ := mem_results.1 result
  exact ⟨inst, by rw [instructionsOf, known]; exact here, result⟩

/-- A definition comes before a use on a reachable block exactly when every walk to the
use has executed it. -/
theorem Regular.precedes_iff (regular : f.Regular) {id : ValueId} {site : Site}
    (defined : (id, site) ∈ f.results) (reached : v ∈ f.reachable) (position : Nat) :
    precedes f.dominators site v position ↔
      ∀ past, f.Walk (v :: past) v →
        ∃ inst ∈ f.executed past v position, inst.result = some id := by
  obtain ⟨source, home, result⟩ := instructionsOf_of_mem_results defined
  have place {u : BlockId} {i : Nat} {inst : Instruction}
      (here : (f.instructionsOf u)[i]? = some inst) (result : inst.result = some id) :
      site = ⟨u, i⟩ :=
    regular.site_unique defined (mem_results_of_instructionsOf here result)
  unfold precedes
  by_cases same : site.block = v
  · -- the first walk to the block has executed nothing of it before
    subst same
    rw [if_pos rfl, decide_eq_true_iff]
    constructor
    · exact fun early past _ => ⟨source, mem_executed.2 (Or.inr ⟨_, early, home⟩), result⟩
    · intro always
      obtain ⟨-, passed, walk⟩ := mem_reachable.1 reached
      obtain ⟨past, rfl⟩ := walk.eq_cons
      obtain ⟨past, walk, new⟩ := walk.first List.mem_cons_self
      obtain ⟨inst, member, result⟩ := always past walk
      rcases mem_executed.1 member with ⟨u, passed, among⟩ | ⟨i, early, here⟩
      · obtain ⟨i, here⟩ := List.mem_iff_getElem?.1 among
        rw [place here result] at new
        exact absurd passed new
      · rwa [place here result]
  · rw [if_neg same, contains_dominators reached]
    constructor
    · intro on past walk
      have passed := (List.mem_cons.1 (on _ walk)).resolve_left same
      exact ⟨source, mem_executed.2 (Or.inl ⟨_, passed, List.mem_of_getElem? home⟩), result⟩
    · intro always passed walk
      obtain ⟨past, rfl⟩ := walk.eq_cons
      obtain ⟨inst, member, result⟩ := always past walk
      rcases mem_executed.1 member with ⟨u, on, among⟩ | ⟨i, _, here⟩
      · obtain ⟨i, here⟩ := List.mem_iff_getElem?.1 among
        rw [place here result]
        exact List.mem_cons_of_mem _ on
      · exact absurd (congrArg Site.block (place here result)) same

/-- The check of dominance accepts a regular function exactly when on every walk what is
read was defined before, whatever the graph is.  The sets that it asks do not change in a
further round, and on every block that a walk enters they are the blocks that are on
every such walk. -/
theorem checkDominance_ok_iff_executed (regular : f.Regular) :
    (f.checkDominance = .ok () ↔ f.DefinedBeforeUse) ∧
      narrow (f.predecessors f.reachable) f.dominators = f.dominators ∧
      ∀ passed v d, f.Walk passed v → v.index < f.blocks.length →
        ((f.dominators.getD v.index .empty).contains d ↔
          ∀ passed, f.Walk passed v → d ∈ passed) := by
  refine ⟨?_, f.narrow_dominators, fun passed v d walk inside =>
    contains_dominators (walk.reachable inside)⟩
  rw [regular.checkDominance_ok]
  constructor
  · intro early past v data position id walk here reads
    refine (regular.known data (List.mem_of_getElem? here) _ _ reads).imp_right fun result => ?_
    obtain ⟨site, result⟩ := mem_resultIds.1 result
    have reached := walk.reachable (lt_of_block? here)
    exact (regular.precedes_iff result reached position).1
      (early v data position id site here reads result reached) past walk
  · intro defined v data position id site here reads result reached
    refine (regular.precedes_iff result reached position).2 fun past walk => ?_
    refine (defined past v data position id walk here reads).resolve_left fun param => ?_
    exact (regular.listed id (mem_resultIds.2 ⟨site, result⟩)).2 param

/-- `%2 = %0 + %0`, then a block that adds to it and may enter itself again, then the result.
The last block is never entered. -/
def sampleLoop : Function where
  name := "loop"
  ty := ⟨[.double, .bool], .double⟩
  params := [⟨0⟩, ⟨1⟩]
  values := [⟨none, .double, .param 0⟩, ⟨none, .bool, .param 1⟩, ⟨none, .double, .inst ⟨0⟩⟩,
    ⟨none, .double, .inst ⟨1⟩⟩]
  blocks := [
    ⟨"entry", [⟨some ⟨2⟩, .fadd (.value ⟨0⟩) (.value ⟨0⟩)⟩], some (.br ⟨1⟩)⟩,
    ⟨"again", [⟨some ⟨3⟩, .fadd (.value ⟨2⟩) (.value ⟨0⟩)⟩],
      some (.condBr (.value ⟨1⟩) ⟨1⟩ ⟨2⟩)⟩,
    ⟨"done", [], some (.ret (some (.value ⟨3⟩)))⟩,
    ⟨"lost", [], some (.br ⟨0⟩)⟩]

theorem checkDominance_ok_iff_executed_loop :
    sampleLoop.Regular ∧ sampleLoop.checkDominance = .ok () ∧ sampleLoop.DefinedBeforeUse ∧
      ∀ passed, sampleLoop.Walk passed ⟨2⟩ → ⟨1⟩ ∈ passed := by
  have read : ∀ block ∈ sampleLoop.blocks, ∀ use ∈ block.uses,
      use.value ∈ sampleLoop.params ∨ use.value ∈ sampleLoop.resultIds := by decide
  have regular : sampleLoop.Regular :=
    { distinct := by decide
      listed := by decide
      known := fun block member position id reads =>
        read block member ⟨position, id⟩ (mem_uses.2 reads) }
  have checked : sampleLoop.checkDominance = .ok () := by cbv
  obtain ⟨accepts, -, sets⟩ := checkDominance_ok_iff_executed regular
  have walk : sampleLoop.Walk [⟨2⟩, ⟨1⟩, ⟨0⟩] ⟨2⟩ :=
    .step (.step .entry (by decide)) (by decide)
  exact ⟨regular, checked, accepts.1 checked, (sets _ _ ⟨1⟩ walk (by decide)).1 (by cbv)⟩

end Function

end SsaLowering.Ir
