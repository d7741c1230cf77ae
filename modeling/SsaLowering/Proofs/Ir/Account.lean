/-
# SsaLowering.Proofs.Ir.Account -- accounts of dominance while a function grows

Every change that a builder makes to a function takes an account of dominance
(`Function.Dominance`) to an account of the changed function: an instruction or an
end needs the values that it reads to be provided, a jump needs its target to be
dominated by no more than its source, and a new block is dominated by itself and
by what dominates the block that it is opened from.
-/
import SsaLowering.Proofs.Ir.Progress
import SsaLowering.Proofs.Ir.Walk

namespace SsaLowering.Ir.Function

set_option autoImplicit false

variable {m : Module} {f g : Function} {D D' : BlockId → BlockId → Prop} {block : BlockId}

/-! ## What of a block counts -/

/-- The code of a block and its end. -/
def content (f : Function) (id : BlockId) : Option (List Instruction × Option Terminator) :=
  (f.block? id).map fun data => (data.code, data.terminator)

theorem content_eq_some {id : BlockId} {code : List Instruction} {last : Option Terminator} :
    f.content id = some (code, last) ↔
      ∃ data, f.block? id = some data ∧ data.code = code ∧ data.terminator = last := by
  rw [content, Option.map_eq_some_iff]
  refine exists_congr fun data => and_congr_right fun _ => ?_
  rw [Prod.mk.injEq]

theorem content_push_of_ne {id : BlockId} (differs : block ≠ id) (action : Action)
    (ty : Option Ty) : (f.push block action ty).content id = f.content id := by
  rw [content, content, block?_push, Option.map_map]
  refine congrArg (Option.map · _) (funext fun data => ?_)
  rw [Function.comp_apply, if_neg differs]

theorem content_push {data : BasicBlock} (known : f.block? block = some data) {action : Action}
    (effect : action.isAlloca = false) (ty : Option Ty) :
    (f.push block action ty).content block =
      some (data.code ++ [⟨ty.map fun _ => ⟨f.values.length⟩, action⟩], data.terminator) := by
  rw [content, block?_push, known, Option.map_some, if_pos rfl]
  have code := data.code_append ⟨ty.map fun _ => ⟨f.values.length⟩, action⟩
  rw [effect] at code
  exact congrArg some (Prod.ext code rfl)

theorem content_close_of_ne {id : BlockId} (differs : block ≠ id) (t : Terminator) :
    (f.close block t).content id = f.content id := by
  rw [content, content, block?_close, Option.map_map]
  refine congrArg (Option.map · _) (funext fun data => ?_)
  rw [Function.comp_apply, if_neg differs]

theorem content_close {data : BasicBlock} (known : f.block? block = some data) (t : Terminator) :
    (f.close block t).content block = some (data.code, some t) := by
  rw [content, block?_close, known, Option.map_some, if_pos rfl]
  rfl

theorem content_addBlock_of_ne {id : BlockId} (differs : id ≠ ⟨f.blocks.length⟩) (label : String) :
    (f.addBlock label).content id = f.content id := by
  rw [content, content, block?_addBlock,
    if_neg fun same => differs (by cases id; exact congrArg _ same)]

theorem content_addBlock (f : Function) (label : String) :
    (f.addBlock label).content ⟨f.blocks.length⟩ = some ([], none) := by
  rw [content, block?_addBlock, if_pos rfl]
  rfl

theorem mem_successors {u v : BlockId} :
    v ∈ f.successors u ↔ ∃ code t, f.content u = some (code, some t) ∧ v ∈ t.successors := by
  unfold successors content
  cases f.block? u with
  | none => simp
  | some data =>
    cases last : data.terminator with
    | none => simp [last]
    | some t => simp [last]

theorem Provides.mono {before before' : List Instruction} {id : ValueId}
    (provided : f.Provides D block before id) (grown : f.Extends g)
    (wider : ∀ d, D block d → D' block d) (more : before ⊆ before') :
    g.Provides D' block before' id := by
  obtain ⟨data, known, origin⟩ := provided
  obtain ⟨name, known'⟩ := grown.values id data known
  refine ⟨_, known', fun home here => ?_⟩
  obtain ⟨dom, defined⟩ := origin home here
  refine ⟨wider home dom, fun same => ?_⟩
  rcases defined same with slot | ⟨inst, member, result⟩
  · left
    rwa [grown.slots id (value?_lt known)]
  · exact Or.inr ⟨inst, more member, result⟩

/-- An account in terms of the code and the ends of the blocks. -/
theorem Dominance.of_content
    (entry : ∀ d, D ⟨0⟩ d → d = ⟨0⟩)
    (bound : ∀ v d, D v d → v.index < f.blocks.length ∧ d.index < f.blocks.length)
    (self : ∀ v, v.index < f.blocks.length → D v v)
    (root : ∀ v, v.index < f.blocks.length → D v ⟨0⟩)
    (edge : ∀ u code t v d, f.content u = some (code, some t) → v ∈ t.successors → D v d →
      d = v ∨ D u d)
    (reads : ∀ id code last before inst after v, f.content id = some (code, last) →
      code = before ++ inst :: after → .value v ∈ inst.action.operands →
        f.Provides D id before v)
    (ends : ∀ id code t v, f.content id = some (code, some t) → .value v ∈ t.operands →
      f.Provides D id code v) : f.Dominance D where
  entry := entry
  bound := bound
  self := self
  root := root
  edge := fun u v d step dom => by
    obtain ⟨code, t, known, target⟩ := mem_successors.1 step
    exact edge u code t v d known target dom
  reads := fun id data before inst after v known split_ read =>
    reads id data.code data.terminator before inst after v
      (content_eq_some.2 ⟨data, known, rfl, rfl⟩) split_ read
  ends := fun id data t v known last read =>
    ends id data.code t v (content_eq_some.2 ⟨data, known, rfl, last⟩) read

section Content

variable (account : f.Dominance D)
include account

theorem Dominance.edge_content {u v d : BlockId} {code : List Instruction} {t : Terminator}
    (known : f.content u = some (code, some t)) (target : v ∈ t.successors) (dom : D v d) :
    d = v ∨ D u d :=
  account.edge u v d (mem_successors.2 ⟨code, t, known, target⟩) dom

theorem Dominance.reads_content {id : BlockId} {code before after : List Instruction}
    {last : Option Terminator} {inst : Instruction} {v : ValueId}
    (known : f.content id = some (code, last)) (split_ : code = before ++ inst :: after)
    (read : .value v ∈ inst.action.operands) : f.Provides D id before v := by
  obtain ⟨data, present, rfl, rfl⟩ := content_eq_some.1 known
  exact account.reads id data before inst after v present split_ read

theorem Dominance.ends_content {id : BlockId} {code : List Instruction} {t : Terminator}
    {v : ValueId} (known : f.content id = some (code, some t)) (read : .value v ∈ t.operands) :
    f.Provides D id code v := by
  obtain ⟨data, present, rfl, last⟩ := content_eq_some.1 known
  exact account.ends id data t v present last read

/-- Where no block is added, what is left to show is about what the blocks hold. -/
theorem Dominance.of_count (count : g.blocks.length = f.blocks.length)
    (edge : ∀ u code t v d, g.content u = some (code, some t) → v ∈ t.successors → D v d →
      d = v ∨ D u d)
    (reads : ∀ id code last before inst after v, g.content id = some (code, last) →
      code = before ++ inst :: after → .value v ∈ inst.action.operands →
        g.Provides D id before v)
    (ends : ∀ id code t v, g.content id = some (code, some t) → .value v ∈ t.operands →
      g.Provides D id code v) : g.Dominance D := by
  refine .of_content account.entry ?bound ?self ?root edge reads ends
  all_goals rw [count]
  case bound => exact account.bound
  case self => exact account.self
  case root => exact account.root

/-! ## Changes inside of blocks -/

/-- Names and slots change no account. -/
theorem Dominance.congr (grown : f.Extends g) (count : g.blocks.length = f.blocks.length)
    (same : ∀ id, g.content id = f.content id) : g.Dominance D := by
  have kept {id : BlockId} {before : List Instruction} {v : ValueId}
      (provided : f.Provides D id before v) : g.Provides D id before v :=
    provided.mono grown (fun _ dom => dom) (List.Subset.refl _)
  refine account.of_count count ?_ ?_ ?_
  · intro u code t v d known
    rw [same] at known
    exact account.edge_content known
  · intro id code last before inst after v known split_ read
    rw [same] at known
    exact kept (account.reads_content known split_ read)
  · intro id code t v known read
    rw [same] at known
    exact kept (account.ends_content known read)

/-- An instruction reads what is provided at the end of its block. -/
theorem Dominance.push {data : BasicBlock} (known : f.block? block = some data)
    (unended : data.terminator = none) {action : Action} (effect : action.isAlloca = false)
    (ty : Option Ty)
    (provided : ∀ v, .value v ∈ action.operands → f.Provides D block data.code v) :
    (f.push block action ty).Dominance D := by
  have grown := extends_push known unended action ty
  have kept {id : BlockId} {before : List Instruction} {v : ValueId}
      (provided : f.Provides D id before v) : (f.push block action ty).Provides D id before v :=
    provided.mono grown (fun _ dom => dom) (List.Subset.refl _)
  have count : (f.push block action ty).blocks.length = f.blocks.length :=
    List.length_modify ..
  have other {id : BlockId} (differs : block ≠ id) := content_push_of_ne differs action ty (f := f)
  have here := unended ▸ content_push known effect ty
  refine account.of_count count ?edge ?reads ?ends
  case edge =>
    intro u code t v d at_
    by_cases same : block = u
    · subst same
      rw [here] at at_
      cases at_
    · rw [other same] at at_
      exact account.edge_content at_
  case reads =>
    intro id code last before inst after v at_ split_ read
    by_cases same : block = id
    · subst same
      cases here.symm.trans at_
      -- the instruction that reads is the new one, or one that stood before it
      rcases List.eq_nil_or_concat after with rfl | ⟨front, final, rfl⟩
      · obtain ⟨rfl, same⟩ := List.append_inj' split_ rfl
        cases same
        exact kept (provided v read)
      · rw [List.concat_eq_append, ← List.cons_append, ← List.append_assoc] at split_
        obtain ⟨split_, -⟩ := List.append_inj' split_ rfl
        exact kept (account.reads block data before inst front v known split_ read)
    · rw [other same] at at_
      exact kept (account.reads_content at_ split_ read)
  case ends =>
    intro id code t v at_ read
    by_cases same : block = id
    · subst same
      rw [here] at at_
      cases at_
    · rw [other same] at at_
      exact kept (account.ends_content at_ read)

/-- The end of a block reads what is provided there, and no target is dominated by more
than itself and the dominators of the block. -/
theorem Dominance.close {data : BasicBlock} (known : f.block? block = some data)
    (unended : data.terminator = none) {t : Terminator}
    (provided : ∀ v, .value v ∈ t.operands → f.Provides D block data.code v)
    (targets : ∀ v ∈ t.successors, ∀ d, D v d → d = v ∨ D block d) :
    (f.close block t).Dominance D := by
  have grown := extends_close known unended t
  have kept {id : BlockId} {before : List Instruction} {v : ValueId}
      (provided : f.Provides D id before v) : (f.close block t).Provides D id before v :=
    provided.mono grown (fun _ dom => dom) (List.Subset.refl _)
  have count : (f.close block t).blocks.length = f.blocks.length := List.length_modify ..
  have other {id : BlockId} (differs : block ≠ id) := content_close_of_ne differs t (f := f)
  have here := content_close known t
  have before_ : f.content block = some (data.code, none) :=
    content_eq_some.2 ⟨data, known, rfl, unended⟩
  refine account.of_count count ?edge ?reads ?ends
  case edge =>
    intro u code t' v d at_ target
    by_cases same : block = u
    · subst same
      cases here.symm.trans at_
      exact targets v target d
    · rw [other same] at at_
      exact account.edge_content at_ target
  case reads =>
    intro id code last before inst after v at_ split_ read
    by_cases same : block = id
    · subst same
      cases here.symm.trans at_
      exact kept (account.reads_content before_ split_ read)
    · rw [other same] at at_
      exact kept (account.reads_content at_ split_ read)
  case ends =>
    intro id code t' v at_ read
    by_cases same : block = id
    · subst same
      cases here.symm.trans at_
      exact kept (provided v read)
    · rw [other same] at at_
      exact kept (account.ends_content at_ read)

end Content

/-! ## New blocks -/

/-- The account with a new block that is only entered from `parent` or from blocks that
`parent` dominates. -/
def under (D : BlockId → BlockId → Prop) (parent new : BlockId) : BlockId → BlockId → Prop :=
  fun v d => if v = new then d = new ∨ D parent d else D v d

theorem under_new {parent new d : BlockId} : under D parent new new d ↔ d = new ∨ D parent d := by
  rw [under, if_pos rfl]

theorem under_old {parent new v d : BlockId} (differs : v ≠ new) :
    under D parent new v d ↔ D v d := by
  rw [under, if_neg differs]

theorem WellFormed.successor_lt (ok : f.WellFormed m) {u v : BlockId} {code : List Instruction}
    {t : Terminator} (known : f.content u = some (code, some t)) (target : v ∈ t.successors) :
    v.index < f.blocks.length := by
  obtain ⟨data, known, -, last⟩ := content_eq_some.1 known
  have there := (checkTerminator_ok (ok.terminated u data t known last)).1 v target
  obtain ⟨data', known'⟩ := Option.isSome_iff_exists.1 there
  exact lt_of_block? known'

theorem Dominance.addBlock (account : f.Dominance D) (ok : f.WellFormed m) {parent : BlockId}
    (inside : parent.index < f.blocks.length) (label : String) :
    (f.addBlock label).Dominance (under D parent ⟨f.blocks.length⟩) := by
  have grown := extends_addBlock f label
  have count : (f.addBlock label).blocks.length = f.blocks.length + 1 := length_addBlock f label
  have ne_of_lt {v : BlockId} (old : v.index < f.blocks.length) : v ≠ ⟨f.blocks.length⟩ := by
    rintro rfl
    exact Nat.lt_irrefl _ old
  have old_of {v : BlockId} (bound : v.index < f.blocks.length + 1)
      (differs : v ≠ ⟨f.blocks.length⟩) : v.index < f.blocks.length := by
    refine Nat.lt_of_le_of_ne (Nat.le_of_lt_succ bound) fun same => differs ?_
    cases v
    exact congrArg _ same
  have content_old {id : BlockId} (differs : id ≠ ⟨f.blocks.length⟩) :=
    content_addBlock_of_ne differs label
  have content_new := content_addBlock f label
  have kept {id : BlockId} (differs : id ≠ ⟨f.blocks.length⟩) {before : List Instruction}
      {v : ValueId} (provided : f.Provides D id before v) :
      (f.addBlock label).Provides (under D parent ⟨f.blocks.length⟩) id before v :=
    provided.mono grown (fun _ dom => (under_old differs).2 dom) (List.Subset.refl _)
  -- the new block is empty, ends in nothing and nothing leads to it: an old block has what it had
  refine .of_content ?entry ?bound ?self ?root ?edge ?reads ?ends
  case entry =>
    intro d dom
    refine account.entry d ((under_old ?_).1 dom)
    exact ne_of_lt (Nat.lt_of_le_of_lt (Nat.zero_le _) inside)
  case bound =>
    intro v d dom
    rw [count]
    by_cases new : v = ⟨f.blocks.length⟩
    · subst new
      rcases under_new.1 dom with rfl | above
      · exact ⟨Nat.lt_succ_self _, Nat.lt_succ_self _⟩
      · exact ⟨Nat.lt_succ_self _, Nat.lt_succ_of_lt (account.bound parent d above).2⟩
    · have both := account.bound v d ((under_old new).1 dom)
      exact ⟨Nat.lt_succ_of_lt both.1, Nat.lt_succ_of_lt both.2⟩
  case self =>
    intro v bound
    rw [count] at bound
    by_cases new : v = ⟨f.blocks.length⟩
    · subst new
      exact under_new.2 (Or.inl rfl)
    · exact (under_old new).2 (account.self v (old_of bound new))
  case root =>
    intro v bound
    rw [count] at bound
    by_cases new : v = ⟨f.blocks.length⟩
    · subst new
      exact under_new.2 (Or.inr (account.root parent inside))
    · exact (under_old new).2 (account.root v (old_of bound new))
  case edge =>
    intro u code t v d known target dom
    by_cases new : u = ⟨f.blocks.length⟩
    · subst new
      rw [content_new] at known
      cases known
    · rw [content_old new] at known
      have old := ne_of_lt (ok.successor_lt known target)
      exact (account.edge_content known target ((under_old old).1 dom)).imp_right (under_old new).2
  case reads =>
    intro id code last before inst after v known split_ read
    by_cases new : id = ⟨f.blocks.length⟩
    · subst new
      rw [content_new] at known
      cases known
      simp at split_
    · rw [content_old new] at known
      exact kept new (account.reads_content known split_ read)
  case ends =>
    intro id code t v known read
    by_cases new : id = ⟨f.blocks.length⟩
    · subst new
      rw [content_new] at known
      cases known
    · rw [content_old new] at known
      exact kept new (account.ends_content known read)

/-- The account with the three blocks of a conditional, from `n` on, which are only entered
from `parent` or from blocks that `parent` dominates. -/
def forked (D : BlockId → BlockId → Prop) (parent : BlockId) (n : Nat) :
    BlockId → BlockId → Prop :=
  under (under (under D parent ⟨n⟩) parent ⟨n + 1⟩) parent ⟨n + 2⟩

theorem forked_old {parent v d : BlockId} {n : Nat} (old : v.index < n) :
    forked D parent n v d ↔ D v d := by
  have differs {k : Nat} (high : n ≤ k) : v ≠ ⟨k⟩ := by
    rintro rfl
    exact absurd high (Nat.not_le.2 old)
  rw [forked, under_old (differs (Nat.le_add_right n 2)), under_old (differs (Nat.le_succ n)),
    under_old (differs (Nat.le_refl n))]

theorem forked_new {parent v d : BlockId} {n : Nat} (inside : parent.index < n)
    (low : n ≤ v.index) (high : v.index < n + 3) :
    forked D parent n v d ↔ d = v ∨ D parent d := by
  have differs {k : Nat} (high : n ≤ k) : parent ≠ ⟨k⟩ := by
    rintro rfl
    exact absurd high (Nat.not_le.2 inside)
  have cases : v = ⟨n⟩ ∨ v = ⟨n + 1⟩ ∨ v = ⟨n + 2⟩ := by
    cases v with | mk k =>
    simp only [BlockId.mk.injEq] at low high ⊢
    omega
  have ne {j k : Nat} (other : j ≠ k) : BlockId.mk j ≠ ⟨k⟩ := fun same =>
    other (congrArg BlockId.index same)
  rw [forked]
  rcases cases with rfl | rfl | rfl
  · rw [under_old (ne (by omega)), under_old (ne (by omega)), under_new]
  · rw [under_old (ne (by omega)), under_new, under_old (differs (Nat.le_refl n))]
  · rw [under_new, under_old (differs (Nat.le_succ n)), under_old (differs (Nat.le_refl n))]

theorem Dominance.addBlocks (account : f.Dominance D) (ok : f.WellFormed m) {parent : BlockId}
    (inside : parent.index < f.blocks.length) (first second third : String) :
    (f.addBlocks first second third).Dominance (forked D parent f.blocks.length) := by
  have ok' := wellFormed_addBlock ok first
  have one := account.addBlock ok inside first
  have inside' : parent.index < (f.addBlock first).blocks.length := by
    rw [length_addBlock]
    exact Nat.lt_succ_of_lt inside
  have inside'' : parent.index < ((f.addBlock first).addBlock second).blocks.length := by
    rw [length_addBlock]
    exact Nat.lt_succ_of_lt inside'
  have two := one.addBlock ok' inside' second
  have three := two.addBlock (wellFormed_addBlock ok' second) inside'' third
  rw [length_addBlock (f.addBlock first), length_addBlock f] at three
  exact three

/-- A conditional reads its condition at the end of the block that forks. -/
theorem Dominance.fork {b : Builder} (account : b.function.Dominance D)
    (ok : b.function.WellFormed m) {data : BasicBlock}
    (known : b.function.block? block = some data) (unended : data.terminator = none)
    {cond : Operand}
    (provided : ∀ id, .value id = cond → b.function.Provides D block data.code id) :
    (b.fork block cond).function.Dominance (forked D block b.function.blocks.length) := by
  obtain ⟨first, second, third, same⟩ := b.fork_function block cond
  have inside := lt_of_block? known
  rw [same]
  refine (account.addBlocks ok inside first second third).close
    ((block?_addBlocks_old _ _ _ inside).trans known) unended (fun id read => ?_)
    fun v target d dom => ?_
  · have named : Operand.value id = cond := by
      simpa [Terminator.operands] using read
    exact (provided id named).mono (extends_addBlocks _ _ _ _)
      (fun d dom => (forked_old inside).2 dom) (List.Subset.refl _)
  · have low : b.function.blocks.length ≤ v.index ∧ v.index < b.function.blocks.length + 3 := by
      simp only [Terminator.successors, List.mem_cons, List.not_mem_nil, or_false] at target
      rcases target with rfl | rfl <;> simp
    exact ((forked_new inside low.1 low.2).1 dom).imp_right (forked_old inside).2

/-! ## Walks -/

/-- What an account says of a block is passed on every walk to it. -/
theorem Dominance.passes (account : f.Dominance D) {passed : List BlockId} {v d : BlockId}
    (walk : f.Walk passed v) (dom : D v d) : d ∈ passed := by
  induction walk generalizing d with
  | entry => exact List.mem_singleton.2 (account.entry d dom)
  | step before edge ih =>
    rcases account.edge _ _ d edge dom with rfl | above
    · exact List.mem_cons_self
    · exact List.mem_cons_of_mem _ (ih above)

/-- Where a value is read it is a parameter, or its definition comes before: earlier in the
block, or in a block that every walk to it passes. -/
def Defines (f : Function) (block : BlockId) (position : Nat) (value : ValueId) : Prop :=
  value ∈ f.params ∨ ∃ site, (value, site) ∈ f.results ∧
    (site.block = block → site.position < position) ∧
    ∀ passed, f.Walk passed block → site.block ∈ passed

/-- Every block has ended, and every use has its definition before it. -/
structure Complete (f : Function) : Prop where
  nonempty : f.blocks ≠ []
  ended : ∀ block ∈ f.blocks, block.terminator.isSome
  uses : ∀ id data use, f.block? id = some data → use ∈ data.uses →
    f.Defines id use.position use.value

theorem Dominance.defines (account : f.Dominance D) (ok : f.WellFormed m) {id : BlockId}
    {data : BasicBlock} (known : f.block? id = some data) {use : Use} (read : use ∈ data.uses) :
    f.Defines id use.position use.value := by
  obtain ⟨entry, value⟩ := ok.use_known known read
  rcases ok.param_or_result value with param | result
  · exact Or.inl param
  · obtain ⟨site, here⟩ := mem_resultIds.1 result
    obtain ⟨dom, early⟩ := account.use_defined ok known read here
    exact Or.inr ⟨site, here, early, fun passed walk => account.passes walk dom⟩

end SsaLowering.Ir.Function
