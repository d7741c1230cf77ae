/-
# SsaLowering.Proofs.Ir.Mentions -- the operands that a function mentions

What holds of every operand in a body (`Function.MentionsOnly`) is kept by every
change of a function under construction whose new instruction or end mentions
nothing else.  A callee counts as an operand too.
-/
import SsaLowering.Proofs.Ir.Progress

namespace SsaLowering.Ir

set_option autoImplicit false

/-- The callee and the operands. -/
def Action.mentions (action : Action) : List Operand :=
  (match action with
    | .call callee _ => [.function callee]
    | _ => []) ++ action.operands

def BasicBlock.mentions (block : BasicBlock) : List Operand :=
  block.instructions.flatMap (·.action.mentions) ++
    block.terminator.toList.flatMap (·.operands)

def Function.mentions (f : Function) : List Operand := f.blocks.flatMap (·.mentions)

/-- All operands of the function are of one kind. -/
def Function.MentionsOnly (f : Function) (P : Operand → Prop) : Prop :=
  ∀ operand ∈ f.mentions, P operand

variable {P Q : Operand → Prop}

theorem BasicBlock.forall_mentions {block : BasicBlock} :
    (∀ operand ∈ block.mentions, P operand) ↔
      (∀ operand ∈ block.instructions.flatMap (·.action.mentions), P operand) ∧
        ∀ operand ∈ block.terminator.toList.flatMap (·.operands), P operand :=
  List.forall_mem_append

namespace Function

variable {f g : Function}

theorem mentionsOnly_iff_blocks :
    f.MentionsOnly P ↔ ∀ block ∈ f.blocks, ∀ operand ∈ block.mentions, P operand :=
  List.forall_mem_flatMap

theorem MentionsOnly.mono (only : f.MentionsOnly P) (wider : ∀ operand, P operand → Q operand) :
    f.MentionsOnly Q :=
  fun operand member => wider operand (only operand member)

theorem MentionsOnly.of_blocks (only : f.MentionsOnly P) (blocks : g.blocks = f.blocks) :
    g.MentionsOnly P := by
  rw [MentionsOnly, mentions, blocks]
  exact only

theorem mentionsOnly_of_blocks_eq (entry : BasicBlock) (blocks : f.blocks = [entry])
    (nothing : entry.mentions = []) : f.MentionsOnly P := by
  rw [MentionsOnly, mentions, blocks, List.flatMap_singleton, nothing]
  nofun

theorem mentionsOnly_declare (name : String) (ty : FunctionTy) :
    (declare name ty).MentionsOnly P :=
  nofun

/-- A change of one block, which mentions nothing that is not allowed. -/
theorem MentionsOnly.modify (only : f.MentionsOnly P) (block : Nat)
    (change : BasicBlock → BasicBlock)
    (new : ∀ data : BasicBlock, (∀ operand ∈ data.mentions, P operand) →
      ∀ operand ∈ (change data).mentions, P operand)
    (blocks : g.blocks = f.blocks.modify block change) : g.MentionsOnly P := by
  rw [mentionsOnly_iff_blocks] at only ⊢
  intro data member
  rw [blocks] at member
  obtain ⟨i, known⟩ := List.mem_iff_getElem?.1 member
  rw [List.getElem?_modify] at known
  obtain ⟨before, present, rfl⟩ := Option.map_eq_some_iff.1 known
  have old := only before (List.mem_of_getElem? present)
  split
  · exact new before old
  · exact old

theorem MentionsOnly.push (only : f.MentionsOnly P) (block : BlockId) {action : Action}
    (new : ∀ operand ∈ action.mentions, P operand) (ty : Option Ty) :
    (f.push block action ty).MentionsOnly P := by
  refine only.modify block.index _ (fun data old => ?_) rfl
  rw [BasicBlock.forall_mentions] at old ⊢
  refine ⟨?_, old.2⟩
  rw [List.flatMap_append, List.forall_mem_append]
  exact ⟨old.1, by simpa using new⟩

theorem MentionsOnly.close (only : f.MentionsOnly P) (block : BlockId) {terminator : Terminator}
    (new : ∀ operand ∈ terminator.operands, P operand) :
    (f.close block terminator).MentionsOnly P := by
  refine only.modify block.index _ (fun data old => ?_) rfl
  rw [BasicBlock.forall_mentions] at old ⊢
  exact ⟨old.1, by simpa using new⟩

/-- A slot mentions nothing. -/
theorem MentionsOnly.reserve (only : f.MentionsOnly P) (ty : Ty) (name : String) :
    (f.reserve ty name).MentionsOnly P := by
  refine only.modify 0 _ (fun data old => ?_) rfl
  rw [BasicBlock.forall_mentions] at old ⊢
  refine ⟨?_, old.2⟩
  rw [← List.takeWhile_append_dropWhile (p := fun inst : Instruction => inst.action.isAlloca)
    (l := data.instructions), List.flatMap_append, List.forall_mem_append] at old
  rw [List.flatMap_append, List.flatMap_cons, List.forall_mem_append, List.forall_mem_append]
  exact ⟨old.1.1, nofun, old.1.2⟩

theorem MentionsOnly.addBlock (only : f.MentionsOnly P) (label : String) :
    (f.addBlock label).MentionsOnly P := by
  rw [mentionsOnly_iff_blocks] at only ⊢
  rw [Function.addBlock, List.forall_mem_append]
  refine ⟨only, List.forall_mem_singleton.2 ?_⟩
  simp [BasicBlock.mentions]

end Function

/-- The three blocks of a conditional mention its condition alone. -/
theorem Builder.mentionsOnly_fork {b : Builder} (only : b.function.MentionsOnly P)
    (block : BlockId) {cond : Operand} (new : P cond) :
    (b.fork block cond).function.MentionsOnly P := by
  obtain ⟨first, second, third, same⟩ := b.fork_function block cond
  rw [same]
  apply Function.MentionsOnly.close
  · exact ((only.addBlock first).addBlock second).addBlock third
  · simpa [Terminator.operands] using new

end SsaLowering.Ir
