/-
# SsaLowering.Ir.ControlFlow -- reachability and dominance on the block graph

`Function.reachable` collects the existing blocks that a walk along successor
edges finds from the entry.  `Function.dominators` computes for every block the
set of blocks that every walk from the entry to it must pass: starting from "all
blocks", a set is narrowed to the common part of the sets of its predecessors
until nothing changes.  Both end on every graph: an unseen block is entered at
most once, and each round of narrowing that goes on makes the sets smaller.
-/
import SsaLowering.Ir.Function

namespace SsaLowering.Ir

set_option autoImplicit false

/-! ## Sets of blocks -/

/-- A finite set of blocks; bit `k` of `mask` says whether block `k` belongs to it. -/
structure BlockSet where
  mask : Nat
deriving DecidableEq, Inhabited

namespace BlockSet

def empty : BlockSet := ⟨0⟩

/-- The blocks with a number below `count`. -/
def below (count : Nat) : BlockSet := ⟨(1 <<< count) - 1⟩

def contains (s : BlockSet) (block : BlockId) : Bool := s.mask.testBit block.index

def inter (s t : BlockSet) : BlockSet := ⟨s.mask &&& t.mask⟩

def insert (s : BlockSet) (block : BlockId) : BlockSet := ⟨s.mask ||| (1 <<< block.index)⟩

def singleton (block : BlockId) : BlockSet := empty.insert block

theorem contains_below (count : Nat) (block : BlockId) :
    (below count).contains block = decide (block.index < count) := by
  simp [below, contains, Nat.one_shiftLeft, Nat.testBit_two_pow_sub_one]

theorem contains_inter (s t : BlockSet) (block : BlockId) :
    (s.inter t).contains block = (s.contains block && t.contains block) := by
  simp [inter, contains, Nat.testBit_and]

theorem contains_insert (s : BlockSet) (added block : BlockId) :
    (s.insert added).contains block = (s.contains block || decide (block = added)) := by
  cases added; cases block
  simp [insert, contains, Nat.testBit_or, Nat.one_shiftLeft, Nat.testBit_two_pow, eq_comm]

end BlockSet

namespace Function

/-- All block handles of a function, in order. -/
def blockIds (f : Function) : List BlockId := (List.range f.blocks.length).map BlockId.mk

/-! ## Reachability -/

/-- Number of blocks not yet seen. -/
def unseen (f : Function) (seen : List BlockId) : Nat := f.blockIds.countP (· ∉ seen)

theorem unseen_cons_lt {f : Function} {seen : List BlockId} {block : BlockId}
    (bound : block.index < f.blocks.length) (new : block ∉ seen) :
    f.unseen (block :: seen) < f.unseen seen := by
  have known : block ∈ f.blockIds := by
    simp only [blockIds, List.mem_map, List.mem_range]
    exact ⟨block.index, bound, rfl⟩
  have smaller : ∀ blocks : List BlockId,
      blocks.countP (· ∉ block :: seen) ≤ blocks.countP (· ∉ seen) := fun blocks =>
    List.countP_mono_left fun b _ h => by simp_all
  unfold unseen
  obtain ⟨front, back, split⟩ := List.append_of_mem known
  rw [split, List.countP_append, List.countP_append, List.countP_cons, List.countP_cons]
  have lost : decide (block ∉ block :: seen) = false := by simp
  have counted : decide (block ∉ seen) = true := by simpa using new
  have := smaller front
  have := smaller back
  simp only [lost, counted, Bool.false_eq_true, if_false, if_true]
  omega

/-- Blocks met on walks from `pending` through blocks not `seen` before, together
with those in `seen`. -/
def explore (f : Function) (seen pending : List BlockId) : List BlockId :=
  match pending with
  | [] => seen
  | block :: rest =>
    if _fresh : block.index < f.blocks.length ∧ block ∉ seen then
      f.explore (block :: seen) (f.successors block ++ rest)
    else f.explore seen rest
termination_by (f.unseen seen, pending.length)
decreasing_by
  · exact Prod.Lex.left _ _ (unseen_cons_lt _fresh.1 _fresh.2)
  · exact Prod.Lex.right _ (by simp)

/-- The blocks reachable from the entry, in ascending order. -/
def reachable (f : Function) : List BlockId :=
  let found := f.explore [] f.entry?.toList
  f.blockIds.filter (· ∈ found)

/-! ## Dominance -/

/-- For every block, the reachable blocks with an edge to it. -/
def predecessors (f : Function) (reachable : List BlockId) : Array (List BlockId) :=
  let edges := reachable.map fun source => (source, f.successors source)
  (f.blockIds.map fun block =>
    (edges.filter fun edge => edge.2.contains block).map (·.1)).toArray

/-- The common part of the sets of some blocks; nothing for no blocks. -/
def common (doms : Array BlockSet) : List BlockId → BlockSet
  | [] => .empty
  | first :: rest =>
    rest.foldl (fun acc block => acc.inter (doms.getD block.index .empty))
      (doms.getD first.index .empty)

/-- What the predecessors of a block say of its dominators: a block is dominated by
itself and by what dominates all its predecessors, the entry by itself alone. -/
def refined (preds : Array (List BlockId)) (doms : Array BlockSet) (index : Nat) : BlockSet :=
  if index = 0 then .singleton ⟨0⟩
  else (common doms (preds.getD index [])).insert ⟨index⟩

/-- One round over all blocks in order; a block sees what the round did before it. -/
def narrow (preds : Array (List BlockId)) (doms : Array BlockSet) : Array BlockSet :=
  (List.range doms.size).foldl
    (fun doms index => doms.setIfInBounds index (refined preds doms index)) doms

/-- A number that falls whenever a set loses a block. -/
def weight (doms : Array BlockSet) : Nat := doms.foldl (fun total s => total + s.mask) 0

/-- Narrow until the sets stay as they are. -/
def settle (preds : Array (List BlockId)) (doms : Array BlockSet) : Array BlockSet :=
  let next := narrow preds doms
  if weight next < weight doms then settle preds next else doms
termination_by weight doms

/-- The dominators of every block, by block number. -/
def dominators (f : Function) : Array BlockSet :=
  let count := f.blocks.length
  let start := Array.ofFn fun (index : Fin count) =>
    if index.val = 0 then BlockSet.singleton ⟨0⟩ else .below count
  settle (f.predecessors f.reachable) start

end Function

end SsaLowering.Ir
