/-
# SsaLowering.Proofs.Meaning.Matching -- machines and source runs side by side

While a body is lowered, a state `s` stands for a point of the finished function: the
end of the code that its current block has so far (`Machine.At`).  A machine at that
point matches a run of the source program (`Machine.Matches`) when it made the same
calls and holds the same values in its cells; `homes` lists the addresses of the cells
in the order in which the source program allocated them.  Names agree when each means
what it is bound to (`Agrees`).

Each change that lowering makes to a state is one lemma here: the machine goes on over
what was added, and matches again behind it.
-/
import SsaLowering.Proofs.Ir.Account
import SsaLowering.Proofs.Lower.Opened
import SsaLowering.Proofs.Meaning.Machine

namespace SsaLowering

set_option autoImplicit false

open Ir (Ty Module Function FuncId Builder ValueId BlockId Operand Instruction Terminator Action
  Machine)

variable {m : Module} {world : World} {f : Function} {scope : ScopeId} {s t u : BodyState}
  {c d e : Machine} {homes homes' : List ValueId} {frames : Frames} {memory memory' : Memory}
  {value : Value} {operand : Operand} {block : BlockId} {n k i : Nat} {p : ValueId}

/-! ## What is finished -/

/-- The size of the value table. -/
def BodyState.count (s : BodyState) : Nat := s.builder.function.values.length

/-- The finished function and its module hold what there is so far. -/
structure BodyState.Within (m : Module) (f : Function) (s : BodyState) : Prop where
  function : s.builder.function.Extends f
  globals : s.context.module.globals <+: m.globals

theorem BodyState.Within.of_done (within : t.Within m f)
    (done : (statementProgress scope).Done s t) : s.Within m f where
  function := done.2.trans within.function
  globals := by
    obtain ⟨more, same⟩ := done.1.module
    refine List.IsPrefix.trans ?_ within.globals
    rw [same]
    exact List.prefix_append _ _

theorem BodyState.Within.of_emits (within : t.Within m f) (emits : s.Emits t) : s.Within m f where
  function := emits.builder.function.trans within.function
  globals := by
    obtain ⟨more, same⟩ := emits.context
    refine List.IsPrefix.trans ?_ within.globals
    rw [same]
    exact List.prefix_append _ _

/-- What is finished in terms of the builder and the globals. -/
theorem BodyState.Within.congr (within : t.Within m f)
    (function : s.builder.function.Extends t.builder.function)
    (globals : t.context.module.globals = s.context.module.globals) : s.Within m f where
  function := function.trans within.function
  globals := globals ▸ within.globals

theorem Ir.Function.Extends.content {g h : Function} (grown : g.Extends h) {id : BlockId}
    {code : List Instruction} {last : Option Terminator}
    (known : g.content id = some (code, last)) :
    ∃ code' last', h.content id = some (code', last') ∧ code <+: code' ∧
      ∀ t, last = some t → last' = some t ∧ code' = code := by
  obtain ⟨data, present, rfl, rfl⟩ := Function.content_eq_some.1 known
  obtain ⟨data', present', -, longer, frozen⟩ := grown.blocks id data present
  exact ⟨data'.code, data'.terminator,
    Function.content_eq_some.2 ⟨data', present', rfl, rfl⟩, longer, frozen⟩

namespace Ir.Machine

/-! ## Machines that go on -/

/-- The machine goes on, and the first `n` registers stay. -/
structure Continues (m : Module) (world : World) (f : Function) (n : Nat) (c d : Machine) :
    Prop where
  reaches : Reaches m world f c d
  kept : ∀ id, id.index < n → d.registers id = c.registers id

theorem Continues.refl (n : Nat) (c : Machine) : Continues m world f n c c where
  reaches := .refl
  kept := fun _ _ => rfl

theorem Continues.trans (first : Continues m world f n c d) (second : Continues m world f k d e)
    (more : n ≤ k) : Continues m world f n c e where
  reaches := first.reaches.trans second.reaches
  kept := fun id bound =>
    (second.kept id (Nat.lt_of_lt_of_le bound more)).trans (first.kept id bound)

/-- A step that leaves the registers alone. -/
theorem Continues.of_step (steps : c.step m world f = some (.inl d))
    (same : d.registers = c.registers) : Continues m world f n c d where
  reaches := .single steps
  kept := fun id _ => congrFun same id

/-! ## Points of a function -/

/-- The machine stands where the code of the current block of a state ends so far. -/
structure At (f : Function) (s : BodyState) (c : Machine) : Prop where
  current : s.builder.current = some c.block
  place : ∃ code last, s.builder.function.content c.block = some (code, none) ∧
    f.content c.block = some (code ++ c.rest, last)

namespace At

theorem selected (at_ : c.At f s) : s.builder.Open c.block := by
  obtain ⟨code, last, known, -⟩ := at_.place
  obtain ⟨data, present, -, unended⟩ := Function.content_eq_some.1 known
  exact ⟨at_.current, data, present, unended⟩

theorem block_eq (at_ : c.At f s) (selected : s.builder.Open block) : c.block = block :=
  Option.some.inj (at_.current.symm.trans selected.current)

/-- Only the selection and the content of the block count. -/
theorem congr (at_ : c.At f s) (current : t.builder.current = s.builder.current)
    (content : t.builder.function.content c.block = s.builder.function.content c.block)
    (block : d.block = c.block) (rest : d.rest = c.rest) : d.At f t := by
  obtain ⟨code, last, known, whole⟩ := at_.place
  refine ⟨by rw [current, block, at_.current], code, last, ?_, ?_⟩
  · rw [block, content, known]
  · rw [block, rest, whole]

/-- Where an instruction was emitted, the machine executes it next. -/
theorem emit {action : Action} {ty : Option Ty} (at_ : c.At f s) (selected : s.builder.Open block)
    (effect : action.isAlloca = false)
    (grown : (s.push block action ty).builder.function.Extends f)
    (acts : c.act m world ⟨ty.map fun _ => ⟨s.count⟩, action⟩ = some d) :
    Continues m world f s.count c { d with rest := c.rest.tail } ∧
      At f (s.push block action ty) { d with rest := c.rest.tail } := by
  obtain rfl := at_.block_eq selected
  obtain ⟨stays, registers⟩ := act_frame acts
  obtain ⟨code, last, known, whole⟩ := at_.place
  obtain ⟨data, present, rfl, unended⟩ := Function.content_eq_some.1 known
  have pushed : (s.push c.block action ty).builder.function.content c.block =
      some (data.code ++ [⟨ty.map fun _ => ⟨s.count⟩, action⟩], none) :=
    unended ▸ Function.content_push present effect ty
  obtain ⟨code', last', whole', ⟨rest, rfl⟩, -⟩ := grown.content pushed
  have next : c.rest = ⟨ty.map fun _ => ⟨s.count⟩, action⟩ :: rest := by
    rw [whole, List.append_assoc] at whole'
    exact List.append_cancel_left (Prod.mk.inj (Option.some.inj whole')).1
  refine ⟨⟨.single ?_, fun id bound => registers id ?_⟩, ?_, ?_⟩
  · rw [step, next]
    simp only [acts, Option.map_some, List.tail_cons]
  · cases ty with
    | none => exact nofun
    | some ty =>
      rintro ⟨rfl⟩
      exact Nat.lt_irrefl _ bound
  · show s.builder.current = some d.block
    rw [stays, at_.current]
  · have same : ({ d with rest := c.rest.tail } : Machine).block = c.block := stays
    rw [same]
    refine ⟨_, last', pushed, ?_⟩
    rw [next]
    exact whole'

/-- Where a block was ended, the machine leaves it. -/
theorem leaves {terminator : Terminator} (at_ : c.At f s) (selected : s.builder.Open block)
    (grown : (s.builder.closed block terminator).function.Extends f) :
    c.step m world f = c.leave m f terminator := by
  obtain rfl := at_.block_eq selected
  obtain ⟨code, last, known, whole⟩ := at_.place
  obtain ⟨data, present, rfl, -⟩ := Function.content_eq_some.1 known
  have ended : (s.builder.closed c.block terminator).function.content c.block =
      some (data.code, some terminator) := Function.content_close present terminator
  obtain ⟨code', last', whole', -, frozen⟩ := grown.content ended
  obtain ⟨rfl, rfl⟩ := frozen terminator rfl
  rw [whole] at whole'
  have nothing : c.rest = [] :=
    List.append_right_eq_self.1 (Prod.mk.inj (Option.some.inj whole')).1
  obtain ⟨data', present', -, last⟩ := Function.content_eq_some.1 whole
  cases (Prod.mk.inj (Option.some.inj whole')).2
  rw [step, nothing]
  simp only [present', last, Option.bind_some]

/-- The machine enters a block behind the entry that has no code yet. -/
theorem of_enter (laid : f.Layout) (grown : s.builder.function.Extends f)
    (view : s.builder.function.content block = some ([], none)) (other : block ≠ ⟨0⟩) :
    ∃ d, c.enter f block = some d ∧ d.At f (s.at_ block) ∧ d.registers = c.registers ∧
      d.cells = c.cells ∧ d.trace = c.trace := by
  obtain ⟨code, last, whole, -⟩ := grown.content view
  obtain ⟨data, present, rfl, -⟩ := Function.content_eq_some.1 whole
  obtain ⟨slots, split_, -, later⟩ := laid.slotsFirst block data present
  rw [later other, List.nil_append] at split_
  refine ⟨{ c with block, rest := data.instructions }, by rw [enter, present, Option.map_some],
    ⟨rfl, [], last, view, ?_⟩, rfl, rfl, rfl⟩
  show f.content block = some ([] ++ data.instructions, last)
  rw [List.nil_append, split_, whole]

end At

/-! ## Cells and calls -/

/-- The machine made the calls of the source program and holds its cells at the addresses
`homes`.  Slots that are reserved later, from the number `n` on, are still unset. -/
structure Holds (f : Function) (homes : List ValueId) (n : Nat) (c : Machine) (memory : Memory) :
    Prop where
  trace : c.trace = memory.trace
  count : homes.length = memory.cells.length
  cells : ∀ (i : Nat) (p : ValueId), homes[i]? = some p → c.cells p = memory.cells[i]?
  distinct : homes.Nodup
  old : ∀ p ∈ homes, p.index < n
  unset : ∀ p, (f.slotTy? (.value p)).isSome → n ≤ p.index → c.cells p = some .unset

namespace Holds

/-- Only the cells and the calls of a machine count. -/
theorem congr (holds : c.Holds f homes n memory) (cells : d.cells = c.cells)
    (trace : d.trace = c.trace) (more : n ≤ k) : d.Holds f homes k memory where
  trace := trace.trans holds.trace
  count := holds.count
  cells := fun i p here => (congrFun cells p).trans (holds.cells i p here)
  distinct := holds.distinct
  old := fun p member => Nat.lt_of_lt_of_le (holds.old p member) more
  unset := fun p slot new =>
    (congrFun cells p).trans (holds.unset p slot (Nat.le_trans more new))

/-- A cell that the source program has allocated holds what it holds there. -/
theorem read? (holds : c.Holds f homes n memory) (here : homes[i]? = some p) :
    ∃ value, memory.cells[i]? = some value ∧ c.cells p = some value := by
  obtain ⟨bound, -⟩ := List.getElem?_eq_some_iff.1 here
  have known := List.getElem?_eq_getElem (l := memory.cells) (holds.count ▸ bound)
  exact ⟨_, known, (holds.cells i p here).trans known⟩

theorem cell? (holds : c.Holds f homes n memory) (here : homes[i]? = some p) :
    c.cell? (.value p) = some p := by
  obtain ⟨value, -, known⟩ := holds.read? here
  simp [Machine.cell?, Operand.value?, known]

/-- The cell of a variable changes. -/
theorem store (holds : c.Holds f homes n memory) (here : homes[i]? = some p) (value : Value) :
    (c.write p value).Holds f homes n (memory.store i value) where
  trace := holds.trace
  count := holds.count.trans List.length_set.symm
  cells := fun j q there => by
    obtain ⟨bound, rfl⟩ := List.getElem?_eq_some_iff.1 here
    obtain ⟨bound', rfl⟩ := List.getElem?_eq_some_iff.1 there
    have same : homes[j] = homes[i] ↔ i = j :=
      holds.distinct.getElem_inj_iff.trans eq_comm
    simp only [write, Memory.store, List.getElem?_set, same, holds.count ▸ bound, if_true]
    split
    · rfl
    · exact holds.cells j _ there
  distinct := holds.distinct
  old := holds.old
  unset := fun q slot new => by
    have differs : q ≠ p := by
      rintro rfl
      exact Nat.not_le_of_lt (holds.old q (List.mem_of_getElem? here)) new
    exact (if_neg differs).trans (holds.unset q slot new)

/-- A slot that was reserved for a variable is its cell. -/
theorem allocate (holds : c.Holds f homes n memory) (slot : (f.slotTy? (.value ⟨n⟩)).isSome) :
    c.Holds f (homes ++ [⟨n⟩]) (n + 1) (memory.allocate .unset) where
  trace := holds.trace
  count := by simp [Memory.allocate, holds.count]
  cells := fun i p here => by
    rcases Nat.lt_or_ge i homes.length with old | new
    · rw [List.getElem?_append_left old] at here
      rw [holds.cells i p here, Memory.allocate, List.getElem?_append_left (holds.count ▸ old)]
    · obtain ⟨bound, rfl⟩ := List.getElem?_eq_some_iff.1 here
      obtain rfl : i = homes.length := by simp at bound; omega
      simp [Memory.allocate, holds.count, holds.unset ⟨n⟩ slot (Nat.le_refl n)]
  distinct := by
    refine List.nodup_append.2 ⟨holds.distinct, List.nodup_singleton _, ?_⟩
    rintro q member r single rfl
    obtain rfl := List.mem_singleton.1 single
    exact Nat.lt_irrefl _ (holds.old _ member)
  old := fun p member => by
    rcases List.mem_append.1 member with old | new
    · exact Nat.lt_succ_of_lt (holds.old p old)
    · obtain rfl := List.mem_singleton.1 new
      exact Nat.lt_succ_self _
  unset := fun p slot new => holds.unset p slot (Nat.le_of_succ_le new)

end Holds

/-- The machine stands at the point of a state, and holds the memory there. -/
structure Matches (f : Function) (homes : List ValueId) (s : BodyState) (memory : Memory)
    (c : Machine) : Prop where
  at_ : c.At f s
  holds : c.Holds f homes s.count memory

/-- The machine goes from the point of one state to that of a later one. -/
structure Passes (m : Module) (world : World) (f : Function) (homes : List ValueId)
    (s : BodyState) (c : Machine) (t : BodyState) (memory : Memory) (d : Machine) : Prop where
  goes : Continues m world f s.count c d
  matches_ : d.Matches f homes t memory
  more : s.count ≤ t.count

theorem Passes.refl (matches_ : c.Matches f homes s memory) :
    Passes m world f homes s c s memory c :=
  ⟨.refl _ c, matches_, Nat.le_refl _⟩

theorem Passes.trans (first : Passes m world f homes s c t memory d)
    (second : Passes m world f homes t d u memory' e) :
    Passes m world f homes s c u memory' e :=
  ⟨first.goes.trans second.goes first.more, second.matches_, Nat.le_trans first.more second.more⟩

/-- The operand has the value, from now on. -/
structure Has (m : Module) (s : BodyState) (c : Machine) (operand : Operand) (value : Value) :
    Prop where
  reads : c.read m operand = some value
  old : ∀ id, operand.value? = some id → id.index < s.count

theorem Has.mono (has : Has m s c operand value)
    (kept : ∀ id, id.index < s.count → d.registers id = c.registers id)
    (more : s.count ≤ t.count) : Has m t d operand value where
  reads := by
    cases operand with
    | value id => exact (kept id (has.old id rfl)).trans has.reads
    | constant constant => exact has.reads
    | function id => exact has.reads
  old := fun id named => Nat.lt_of_lt_of_le (has.old id named) more

theorem Has.passes (has : Has m s c operand value)
    (passes : Passes m world f homes s c t memory d) : Has m t d operand value :=
  has.mono passes.goes.kept passes.more

theorem read_args {operands : List Operand} {values : List Value}
    (has : List.Forall₂ (Has m s c) operands values) :
    operands.mapM (c.read m) = some values := by
  induction has with
  | nil => rfl
  | cons first _ ih => simp only [List.mapM_cons, first.reads, ih, bind, pure, Option.bind_some]

/-! ## Instructions -/

section Instructions

theorem count_push (s : BodyState) (block : BlockId) (action : Action) (ty : Option Ty) :
    s.count ≤ (s.push block action ty).count := by
  unfold BodyState.count
  exact Nat.le_trans (Nat.le_add_right _ _) (Nat.le_of_eq List.length_append.symm)

theorem count_push_some (s : BodyState) (block : BlockId) (action : Action) (ty : Ty) :
    s.count < (s.push block action (some ty)).count := by
  have longer : (s.push block action (some ty)).count = s.count + 1 := by
    simp [BodyState.count, BodyState.push, Function.push]
  exact longer ▸ Nat.lt_succ_self _

variable (world) {ty : Ty} (matches_ : c.Matches f homes s memory)
  (selected : s.builder.Open block)
include matches_ selected

/-- An instruction was emitted: the machine executes it. -/
theorem Matches.emit {action : Action} {ty : Option Ty} (effect : action.isAlloca = false)
    (within : (s.push block action ty).Within m f)
    (acts : c.act m world ⟨ty.map fun _ => ⟨s.count⟩, action⟩ = some d)
    (holds : d.Holds f homes s.count memory') :
    Passes m world f homes s c (s.push block action ty) memory' { d with rest := c.rest.tail } := by
  obtain ⟨goes, at_⟩ := matches_.at_.emit selected effect within.function acts
  have more := count_push s block action ty
  exact ⟨goes, ⟨at_, holds.congr rfl rfl more⟩, more⟩

/-- The result of an instruction can be read behind it. -/
theorem Matches.result {action : Action} (effect : action.isAlloca = false)
    (within : (s.push block action (some ty)).Within m f) {e : Machine}
    (acts : c.act m world ⟨some ⟨s.count⟩, action⟩ = some (e.define (some ⟨s.count⟩) value))
    (holds : e.Holds f homes s.count memory') :
    ∃ d, Passes m world f homes s c (s.push block action (some ty)) memory' d ∧
      Has m (s.push block action (some ty)) d (.value ⟨s.count⟩) value := by
  have more : s.count ≤ s.count := Nat.le_refl _
  refine ⟨_, matches_.emit world selected effect within acts (holds.congr rfl rfl more), ?_, ?_⟩
  · exact if_pos rfl
  · rintro id ⟨⟩
    exact count_push_some s block action ty

/-- A load gives what the cell holds. -/
theorem Matches.load {home : StackSlot}
    (within : (s.push block (.load home.ty (.value home.ptr)) (some ty)).Within m f)
    (here : homes[i]? = some home.ptr) (known : memory.cells[i]? = some value) :
    ∃ d, Passes m world f homes s c
        (s.push block (.load home.ty (.value home.ptr)) (some ty)) memory d ∧
      Has m (s.push block (.load home.ty (.value home.ptr)) (some ty)) d
        (.value ⟨s.count⟩) value := by
  refine matches_.result world selected rfl within ?_ matches_.holds
  have held := (matches_.holds.cells i _ here).trans known
  simp only [act, matches_.holds.cell? here, held, bind, Option.bind_some]

/-- A store changes the cell. -/
theorem Matches.store {home : StackSlot} {stored : Operand}
    (within : (s.push block (.store stored (.value home.ptr)) none).Within m f)
    (here : homes[i]? = some home.ptr) (has : Has m s c stored value) :
    ∃ d, Passes m world f homes s c (s.push block (.store stored (.value home.ptr)) none)
      (memory.store i value) d := by
  refine ⟨_, matches_.emit world selected rfl within ?_ (matches_.holds.store here value)⟩
  simp only [act, matches_.holds.cell? here, has.reads, bind, Option.bind_some]

theorem Matches.add {left right : Operand} {a b : Value}
    (within : (s.push block (.fadd left right) (some ty)).Within m f)
    (first : Has m s c left a) (second : Has m s c right b) :
    ∃ d, Passes m world f homes s c (s.push block (.fadd left right) (some ty)) memory d ∧
      Has m (s.push block (.fadd left right) (some ty)) d (.value ⟨s.count⟩) (world.add a b) := by
  refine matches_.result world selected rfl within ?_ matches_.holds
  simp only [act, first.reads, second.reads, bind, Option.bind_some]

/-- A call is made with the values of its arguments, and may have a result. -/
theorem Matches.call {id : FuncId} {operands : List Operand} {values : List Value}
    {ty : Option Ty} (within : (s.push block (.call id operands) ty).Within m f)
    (has : List.Forall₂ (Has m s c) operands values) :
    ∃ d, Passes m world f homes s c (s.push block (.call id operands) ty)
        (memory.call world id values).2 d ∧
      ∀ operand, ty.map (fun _ => .value ⟨s.count⟩) = some operand →
        Has m (s.push block (.call id operands) ty) d operand (memory.call world id values).1 := by
  have arguments := read_args has
  have calls : c.trace ++ [⟨id, values⟩] = memory.trace ++ [⟨id, values⟩] := by
    rw [matches_.holds.trace]
  have holds : Holds f homes s.count { c with trace := memory.trace ++ [⟨id, values⟩] }
      (memory.call world id values).2 :=
    { matches_.holds with trace := rfl }
  cases ty with
  | none =>
    refine ⟨_, matches_.emit world selected rfl within ?_ holds, nofun⟩
    simp only [act, arguments, bind, Option.bind_some, calls]
    rfl
  | some ty =>
    have acts : c.act m world ⟨some ⟨s.count⟩, .call id operands⟩ =
        some (({ c with trace := memory.trace ++ [⟨id, values⟩] } : Machine).define
          (some ⟨s.count⟩) (memory.call world id values).1) := by
      simp only [act, arguments, bind, Option.bind_some, calls, Memory.call]
    obtain ⟨d, passes, has⟩ := matches_.result world selected rfl within acts holds
    refine ⟨d, passes, ?_⟩
    rintro operand ⟨⟩
    exact has

end Instructions

end Ir.Machine

/-! ## Names -/

/-- A function that is bound to a name, as a value. -/
def BoundValue.function? : BoundValue → Option Value
  | .direct (.function id) => some (.function id)
  | _ => none

/-- The namespace binds functions and namespaces, and the members are its functions. -/
def ScopeTable.Offers (t : ScopeTable) (inner : ScopeId) (members : Symbol → Option Value) : Prop :=
  ∀ x bound, t.lookupIn inner x = some bound →
    (∃ id, bound = .direct (.function id) ∧ members x = some (.function id)) ∨
      ∃ other, bound = .namespace_ other

/-- What a name is bound to in a state, and what it means to the source program. -/
inductive Means (m : Module) (homes : List ValueId) (s : BodyState) (c : Machine) :
    BoundValue → Meaning → Prop
  | value {operand : Operand} {value : Value} (has : c.Has m s operand value) :
      Means m homes s c (.direct operand) (.value value)
  | cell {home : StackSlot} {i : Nat} (here : homes[i]? = some home.ptr) :
      Means m homes s c (.slot home) (.cell i)
  | namespace_ {inner : ScopeId} {members : Symbol → Option Value}
      (named : (s.context.scopes.name? inner).isSome)
      (offers : s.context.scopes.Offers inner members) :
      Means m homes s c (.namespace_ inner) (.namespace_ members)

/-- Every name that is visible in a scope means something for what it is bound to. -/
def ScopeTable.Explains (t : ScopeTable) (scope : ScopeId) (means : BoundValue → Meaning → Prop)
    (frames : Frames) : Prop :=
  ∀ x bound, t.resolve scope x = some bound →
    ∃ meaning, frames.lookup x = some meaning ∧ means bound meaning

theorem ScopeTable.Explains.imp {t t' : ScopeTable} {scope' : ScopeId}
    {means means' : BoundValue → Meaning → Prop} (explains : t.Explains scope means frames)
    (weaker : ∀ bound meaning, means bound meaning → means' bound meaning)
    (same : ∀ x, t'.resolve scope' x = t.resolve scope x) :
    t'.Explains scope' means' frames := by
  intro x bound found
  obtain ⟨meaning, here, means⟩ := explains x bound (same x ▸ found)
  exact ⟨meaning, here, weaker bound meaning means⟩

/-- A name is bound to what it means. -/
theorem ScopeTable.Explains.assign {t : ScopeTable} {means : BoundValue → Meaning → Prop}
    (explains : t.Explains scope means frames) (inside : t.contains scope) (name : Symbol)
    {bound : BoundValue} {meaning : Meaning} (here : means bound meaning) :
    (t.assign scope name (some bound)).Explains scope means (frames.bind name meaning) := by
  intro x other found
  rw [ScopeTable.resolve_assign inside] at found
  rw [Frames.lookup_bind]
  split at found
  · rename_i same
    cases found
    exact ⟨meaning, if_pos same, here⟩
  · rename_i differs
    obtain ⟨known, there, means⟩ := explains x other found
    exact ⟨known, (if_neg differs).trans there, means⟩

/-- Every name that is visible in a scope means what it is bound to. -/
def Agrees (m : Module) (homes : List ValueId) (s : BodyState) (scope : ScopeId) (c : Machine)
    (frames : Frames) : Prop :=
  s.context.scopes.Explains scope (Means m homes s c) frames

/-- A later state has the namespaces of an earlier one. -/
structure BodyState.Namespaces (s t : BodyState) : Prop where
  names : ∀ inner, t.context.scopes.name? inner = s.context.scopes.name? inner
  members : ∀ inner, (s.context.scopes.name? inner).isSome →
    ∀ x, t.context.scopes.lookupIn inner x = s.context.scopes.lookupIn inner x

/-- In a scope without a name no namespace is changed. -/
theorem Context.Grows.namespaces (grows : s.context.Grows scope t.context)
    (unnamed : s.context.scopes.name? scope = none) : s.Namespaces t where
  names := grows.names
  members := fun inner named x => grows.lookupIn x fun same => by
    rw [same, unnamed] at named
    cases named

theorem BodyState.Namespaces.of_scopes (scopes : t.context.scopes = s.context.scopes) :
    s.Namespaces t where
  names := fun _ => by rw [scopes]
  members := fun _ _ _ => by rw [scopes]

section Agreement

variable {bound : BoundValue} {meaning : Meaning} {scope' : ScopeId}

theorem Means.mono (means : Means m homes s c bound meaning)
    (kept : ∀ id, id.index < s.count → d.registers id = c.registers id)
    (more : s.count ≤ t.count) (longer : homes <+: homes') (namespaces : s.Namespaces t) :
    Means m homes' t d bound meaning := by
  cases means with
  | value has => exact .value (has.mono kept more)
  | cell here =>
    obtain ⟨later, rfl⟩ := longer
    obtain ⟨inside, -⟩ := List.getElem?_eq_some_iff.1 here
    exact .cell ((List.getElem?_append_left inside).trans here)
  | namespace_ named offers =>
    refine .namespace_ (by rwa [namespaces.names]) fun x bound here => offers x bound ?_
    rwa [← namespaces.members _ named x]

/-- Names that are bound as before mean the same as before. -/
theorem Agrees.mono (agrees : Agrees m homes s scope c frames)
    (kept : ∀ id, id.index < s.count → d.registers id = c.registers id)
    (more : s.count ≤ t.count) (longer : homes <+: homes') (namespaces : s.Namespaces t)
    (same : ∀ x, t.context.scopes.resolve scope' x = s.context.scopes.resolve scope x) :
    Agrees m homes' t scope' d frames :=
  agrees.imp (fun _ _ means => means.mono kept more longer namespaces) same

/-- A name that is bound means what it is bound to. -/
theorem Agrees.bind (agrees : Agrees m homes s scope c frames)
    (inside : s.context.scopes.contains scope) (unnamed : s.context.scopes.name? scope = none)
    (name : Symbol) (means : Means m homes s c bound meaning) :
    Agrees m homes (s.bound scope name bound) scope c (frames.bind name meaning) := by
  have namespaces : s.Namespaces (s.bound scope name bound) :=
    (Context.Grows.bind inside name bound).namespaces unnamed
  refine (agrees.assign inside name means).imp (fun _ _ means => ?_) fun _ => rfl
  exact means.mono (fun _ _ => rfl) (Nat.le_refl _) List.prefix_rfl namespaces

end Agreement

/-- The machine stands at the point of a state, with the memory and the names of the source
program there. -/
structure Follows (m : Module) (f : Function) (homes : List ValueId) (s : BodyState)
    (scope : ScopeId) (frames : Frames) (memory : Memory) (c : Machine) : Prop where
  matches_ : c.Matches f homes s memory
  agrees : Agrees m homes s scope c frames

/-- Code alone changes no names. -/
theorem Follows.passes (follows : Follows m f homes s scope frames memory c)
    (passes : Ir.Machine.Passes m world f homes s c t memory' d)
    (scopes : t.context.scopes = s.context.scopes) :
    Follows m f homes t scope frames memory' d where
  matches_ := passes.matches_
  agrees := follows.agrees.mono passes.goes.kept passes.more List.prefix_rfl (.of_scopes scopes)
    fun _ => by rw [scopes]

end SsaLowering
