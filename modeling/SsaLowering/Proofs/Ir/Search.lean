/-
# SsaLowering.Proofs.Ir.Search -- the search for the reachable blocks, in any order

A `Search` has seen some blocks, and others are pending.  In a `Round` it takes one of
the pending blocks, no matter which: a new block of the function is seen from then on,
with its successors pending, and anything else is dropped.  Blocks may become pending
again and again, so it is not their number that falls.  But the successors of a block
are pending only when it is seen, which happens once.

* `Rounds.account`: what the rounds take was pending before or is the target of an edge
  that leaves a block seen meanwhile, so there are as many rounds as there are of these.
* `Rounds.sound`: everything seen is connected to the entry, and what is seen or pending
  covers the blocks next to it, so that with nothing pending nothing is left out.
* `search_reachable`: every search comes to an end, and `reachable` lists what it sees.
-/
import SsaLowering.Ir.ControlFlow
import Mathlib

namespace SsaLowering.Ir

set_option autoImplicit false

theorem Terminator.length_successors_le (t : Terminator) : t.successors.length ≤ 2 := by
  cases t <;> simp [successors]

namespace Function

variable {f : Function} {u v : BlockId}

/-! ## Blocks and edges -/

theorem mem_blockIds : v ∈ f.blockIds ↔ v.index < f.blocks.length := by
  simp only [blockIds, List.mem_map, List.mem_range]
  constructor
  · rintro ⟨i, bound, rfl⟩
    exact bound
  · intro bound
    exact ⟨v.index, bound, rfl⟩

theorem nodup_blockIds (f : Function) : f.blockIds.Nodup :=
  List.nodup_range.map fun _ _ same => congrArg BlockId.index same

theorem length_blockIds (f : Function) : f.blockIds.length = f.blocks.length := by
  rw [blockIds, List.length_map, List.length_range]

theorem entry?_eq_some : f.entry? = some v ↔ v = ⟨0⟩ ∧ f.blocks ≠ [] := by
  unfold entry? isDeclaration
  cases f.blocks <;> simp [eq_comm]

theorem lt_of_mem_successors (edge : v ∈ f.successors u) : u.index < f.blocks.length := by
  unfold successors at edge
  cases known : f.block? u with
  | none => simp [known] at edge
  | some data => exact (List.getElem?_eq_some_iff.1 known).1

theorem length_successors_le (f : Function) (v : BlockId) : (f.successors v).length ≤ 2 := by
  unfold successors
  split
  · exact Terminator.length_successors_le _
  · exact Nat.zero_le _

/-- An edge between two blocks of the function; a target that is no block has none. -/
structure Edge (f : Function) (u v : BlockId) : Prop where
  source : u.index < f.blocks.length
  target : v.index < f.blocks.length
  successor : v ∈ f.successors u

/-- A path of edges leads from the entry to the block. -/
def Connected (f : Function) (v : BlockId) : Prop :=
  ∃ entry, f.entry? = some entry ∧ Relation.ReflTransGen f.Edge entry v

theorem connected_entry (first : f.entry? = some v) : f.Connected v := ⟨v, first, .refl⟩

theorem Connected.step (connected : f.Connected u) (edge : f.Edge u v) : f.Connected v := by
  obtain ⟨entry, first, path⟩ := connected
  exact ⟨entry, first, path.tail edge⟩

/-- What holds of the entry and goes along every edge holds of all connected blocks. -/
theorem Connected.along {P : BlockId → Prop} (connected : f.Connected v)
    (entry : ∀ v, f.entry? = some v → P v) (edge : ∀ u v, P u → f.Edge u v → P v) : P v := by
  obtain ⟨start, first, path⟩ := connected
  induction path with
  | refl => exact entry start first
  | tail _ next ih => exact edge _ _ ih next

theorem Connected.lt (connected : f.Connected v) : v.index < f.blocks.length := by
  refine connected.along (P := fun v => v.index < f.blocks.length) (fun v first => ?_)
    fun _ _ _ edge => edge.target
  obtain ⟨rfl, nonempty⟩ := entry?_eq_some.1 first
  exact List.length_pos_of_ne_nil nonempty

/-- The number of edges that leave some blocks. -/
def leaving (f : Function) (blocks : List BlockId) : Nat :=
  (blocks.map fun v => (f.successors v).length).sum

theorem leaving_cons (f : Function) (v : BlockId) (blocks : List BlockId) :
    f.leaving (v :: blocks) = (f.successors v).length + f.leaving blocks := by
  rw [leaving, List.map_cons, List.sum_cons, leaving]

theorem leaving_perm {blocks blocks' : List BlockId} (same : blocks.Perm blocks') :
    f.leaving blocks = f.leaving blocks' :=
  (same.map _).sum_eq

theorem leaving_le (f : Function) (blocks : List BlockId) :
    f.leaving blocks ≤ 2 * blocks.length := by
  induction blocks with
  | nil => exact Nat.le_refl _
  | cons v blocks ih =>
    have := f.length_successors_le v
    rw [leaving_cons, List.length_cons]
    omega

end Function

/-! ## Rounds of a search -/

/-- How far a search has come: the blocks that it has seen, the last one first, and what it
still has to look at, in no particular order. -/
structure Search where
  seen : List BlockId
  pending : List BlockId

namespace Function

variable {f : Function} {s s' : Search} {rounds : Nat} {u v : BlockId}

/-- One round of a search.  Any pending block may be the one that it takes, and it does not
matter where the successors are put, so what is pending may be kept as a stack or a queue. -/
inductive Round (f : Function) : Search → Search → Prop
  | enter {seen pending rest after : List BlockId} {block : BlockId}
    (taken : pending.Perm (block :: rest)) (inside : block.index < f.blocks.length)
    (new : block ∉ seen) (left : after.Perm (f.successors block ++ rest)) :
    Round f ⟨seen, pending⟩ ⟨block :: seen, after⟩
  | drop {seen pending rest : List BlockId} {block : BlockId}
    (taken : pending.Perm (block :: rest))
    (stale : ¬ (block.index < f.blocks.length ∧ block ∉ seen)) :
    Round f ⟨seen, pending⟩ ⟨seen, rest⟩

/-- A number of rounds, one after the other. -/
inductive Rounds (f : Function) : Nat → Search → Search → Prop
  | done (s : Search) : Rounds f 0 s s
  | more {rounds : Nat} {s between s' : Search} (first : f.Round s between)
    (rest : Rounds f rounds between s') : Rounds f (rounds + 1) s s'

/-- Where a search starts: nothing is seen, and the entry is pending if there is one. -/
def start (f : Function) : Search := ⟨[], f.entry?.toList⟩

theorem length_start_le (f : Function) : f.start.pending.length ≤ 1 := by
  rw [start]
  cases f.entry? <;> simp

/-- A search can go on as long as something is pending, and no longer. -/
theorem exists_round_iff : (∃ s', f.Round s s') ↔ s.pending ≠ [] := by
  constructor
  · rintro ⟨s', round⟩
    cases round with
    | enter taken => exact List.ne_nil_of_mem (taken.mem_iff.2 List.mem_cons_self)
    | drop taken => exact List.ne_nil_of_mem (taken.mem_iff.2 List.mem_cons_self)
  · intro pending
    obtain ⟨seen, _ | ⟨block, rest⟩⟩ := s
    · exact absurd rfl pending
    · by_cases fresh : block.index < f.blocks.length ∧ block ∉ seen
      · exact ⟨_, .enter (.refl _) fresh.1 fresh.2 (.refl _)⟩
      · exact ⟨_, .drop (.refl _) fresh⟩

/-! ## How many rounds there are -/

/-- A round takes one block from what is pending, and adds the edges of a block that is seen. -/
theorem Round.account (round : f.Round s s') :
    1 + s'.pending.length + f.leaving s.seen = s.pending.length + f.leaving s'.seen := by
  cases round with
  | enter taken inside new left =>
    simp only [taken.length_eq, left.length_eq, leaving_cons, List.length_append,
      List.length_cons]
    omega
  | drop taken stale =>
    simp only [taken.length_eq, List.length_cons]
    omega

theorem Rounds.account (run : f.Rounds rounds s s') :
    rounds + s'.pending.length + f.leaving s.seen = s.pending.length + f.leaving s'.seen := by
  induction run with
  | done s => omega
  | more first rest ih =>
    have := first.account
    omega

/-! ## What a search sees -/

/-- What is seen is connected to the entry, and so is what is pending, apart from targets that are
no blocks.  The entry and the blocks next to one that is seen are seen or pending. -/
structure Sound (f : Function) (s : Search) : Prop where
  distinct : s.seen.Nodup
  seen : ∀ v ∈ s.seen, f.Connected v
  pending : ∀ v ∈ s.pending, v.index < f.blocks.length → f.Connected v
  entry : ∀ v, f.entry? = some v → v ∈ s.seen ∨ v ∈ s.pending
  next : ∀ u ∈ s.seen, ∀ v, f.Edge u v → v ∈ s.seen ∨ v ∈ s.pending

theorem sound_start (f : Function) : f.Sound f.start where
  distinct := List.nodup_nil
  seen := fun _ none => absurd none List.not_mem_nil
  pending := fun _ first _ => connected_entry (Option.mem_toList.1 first)
  entry := fun _ first => Or.inr (Option.mem_toList.2 first)
  next := fun _ none => absurd none List.not_mem_nil

/-- No block that is seen or pending gets lost. -/
theorem Round.keeps (round : f.Round s s') (inside : v.index < f.blocks.length)
    (known : v ∈ s.seen ∨ v ∈ s.pending) : v ∈ s'.seen ∨ v ∈ s'.pending := by
  cases round with
  | enter taken _ _ left =>
    rcases known with seen | pending
    · exact Or.inl (List.mem_cons_of_mem _ seen)
    · rcases List.mem_cons.1 (taken.mem_iff.1 pending) with rfl | pending
      · exact Or.inl List.mem_cons_self
      · exact Or.inr (left.mem_iff.2 (List.mem_append_right _ pending))
  | drop taken stale =>
    rcases known with seen | pending
    · exact Or.inl seen
    · rcases List.mem_cons.1 (taken.mem_iff.1 pending) with rfl | pending
      · -- a block of the function is dropped only if it was seen before
        exact Or.inl (not_not.1 fun new => stale ⟨inside, new⟩)
      · exact Or.inr pending

theorem Round.sound (round : f.Round s s') (sound : f.Sound s) : f.Sound s' := by
  have entry : ∀ v, f.entry? = some v → v ∈ s'.seen ∨ v ∈ s'.pending := fun v first =>
    round.keeps (connected_entry first).lt (sound.entry v first)
  have next : ∀ u ∈ s.seen, ∀ v, f.Edge u v → v ∈ s'.seen ∨ v ∈ s'.pending :=
    fun u seen v edge => round.keeps edge.target (sound.next u seen v edge)
  cases round with
  | @enter _ _ _ _ block taken inside new left =>
    have connected : f.Connected block :=
      sound.pending block (taken.mem_iff.2 List.mem_cons_self) inside
    constructor
    case distinct => exact List.nodup_cons.2 ⟨new, sound.distinct⟩
    case seen => exact List.forall_mem_cons.2 ⟨connected, sound.seen⟩
    case pending =>
      intro v pending target
      rcases List.mem_append.1 (left.mem_iff.1 pending) with successor | pending
      · exact connected.step ⟨inside, target, successor⟩
      · exact sound.pending v (taken.mem_iff.2 (List.mem_cons_of_mem _ pending)) target
    case entry => exact entry
    case next =>
      refine List.forall_mem_cons.2 ⟨fun v edge => ?_, next⟩
      exact Or.inr (left.mem_iff.2 (List.mem_append_left _ edge.successor))
  | drop taken stale =>
    refine ⟨sound.distinct, sound.seen, fun v pending target => ?_, entry, next⟩
    exact sound.pending v (taken.mem_iff.2 (List.mem_cons_of_mem _ pending)) target

theorem Rounds.sound (run : f.Rounds rounds s s') (sound : f.Sound s) : f.Sound s' := by
  induction run with
  | done s => exact sound
  | more first rest ih => exact ih (first.sound sound)

/-- Where nothing is pending the search has seen all there is to see. -/
theorem Sound.mem_seen (sound : f.Sound s) (ended : s.pending = []) :
    v ∈ s.seen ↔ f.Connected v := by
  have settled {v : BlockId} (known : v ∈ s.seen ∨ v ∈ s.pending) : v ∈ s.seen :=
    known.resolve_right (ended ▸ List.not_mem_nil)
  constructor
  · exact sound.seen v
  · intro connected
    exact connected.along (fun v first => settled (sound.entry v first))
      fun u v seen edge => settled (sound.next u seen v edge)

theorem Sound.length_seen_le (sound : f.Sound s) : s.seen.length ≤ f.blocks.length := by
  rw [← length_blockIds]
  refine (List.subperm_of_subset sound.distinct fun v seen => ?_).length_le
  exact mem_blockIds.2 (sound.seen v seen).lt

/-! ## Reachable blocks -/

theorem explore_rounds (f : Function) (seen pending : List BlockId) :
    ∃ rounds, f.Rounds rounds ⟨seen, pending⟩ ⟨f.explore seen pending, []⟩ := by
  fun_induction f.explore seen pending with
  | case1 seen => exact ⟨0, .done _⟩
  | case2 seen block rest fresh ih =>
    obtain ⟨rounds, run⟩ := ih
    exact ⟨rounds + 1, .more (.enter (.refl _) fresh.1 fresh.2 (.refl _)) run⟩
  | case3 seen block rest stale ih =>
    obtain ⟨rounds, run⟩ := ih
    exact ⟨rounds + 1, .more (.drop (.refl _) stale) run⟩

/-- The reachable blocks are those that a path of edges connects to the entry. -/
theorem mem_reachable_iff : v ∈ f.reachable ↔ f.Connected v := by
  obtain ⟨rounds, run⟩ := f.explore_rounds [] f.entry?.toList
  have found : v ∈ f.explore [] f.entry?.toList ↔ f.Connected v :=
    (run.sound f.sound_start).mem_seen rfl
  rw [reachable, List.mem_filter, decide_eq_true_iff, found, mem_blockIds]
  exact and_iff_right_of_imp Connected.lt

theorem nodup_reachable (f : Function) : f.reachable.Nodup := f.nodup_blockIds.filter _

/-- Only a declaration has no reachable block: a body has its entry. -/
theorem reachable_eq_nil_iff : f.reachable = [] ↔ f.isDeclaration = true := by
  rw [isDeclaration, List.isEmpty_iff]
  constructor
  · intro none
    by_contra body
    have first : f.entry? = some ⟨0⟩ := entry?_eq_some.2 ⟨rfl, body⟩
    exact List.not_mem_nil (none ▸ mem_reachable_iff.2 (connected_entry first))
  · intro none
    refine List.eq_nil_iff_forall_not_mem.2 fun v member => ?_
    obtain ⟨entry, first, -⟩ := mem_reachable_iff.1 member
    exact (entry?_eq_some.1 first).2 none

/-- In whatever order a search takes the blocks that are pending, it comes to an end, after one
round for the entry and one for each edge that leaves a reachable block, and has then seen
the reachable blocks.  They are the blocks that a path of edges between existing blocks
connects to the entry; a declaration has none.  What `explore` does is one such search. -/
theorem search_reachable (f : Function) :
    (∀ v, v ∈ f.reachable ↔ f.Connected v) ∧ f.reachable.Nodup ∧
    (f.reachable = [] ↔ f.isDeclaration = true) ∧
    (∀ rounds s, f.Rounds rounds f.start s → rounds ≤ 2 * f.blocks.length + 1) ∧
    (∀ rounds s, f.Rounds rounds f.start s → (∀ s', ¬ f.Round s s') →
      rounds = f.start.pending.length + f.leaving f.reachable ∧
        ∀ v, v ∈ s.seen ↔ v ∈ f.reachable) ∧
    ∃ rounds, f.Rounds rounds f.start ⟨f.explore [] f.start.pending, []⟩ := by
  have spent {rounds : Nat} {s : Search} (run : f.Rounds rounds f.start s) :
      rounds + s.pending.length = f.start.pending.length + f.leaving s.seen := run.account
  refine ⟨fun v => mem_reachable_iff, f.nodup_reachable, reachable_eq_nil_iff, ?bounded, ?ended,
    f.explore_rounds [] f.start.pending⟩
  case bounded =>
    intro rounds s run
    have := spent run
    have := f.length_start_le
    have := f.leaving_le s.seen
    have := (run.sound f.sound_start).length_seen_le
    omega
  case ended =>
    intro rounds s run stuck
    have sound := run.sound f.sound_start
    have none : s.pending = [] := by
      by_contra pending
      obtain ⟨s', round⟩ := exists_round_iff.2 pending
      exact stuck s' round
    have same (v : BlockId) : v ∈ s.seen ↔ v ∈ f.reachable :=
      (sound.mem_seen none).trans mem_reachable_iff.symm
    have all : s.seen.Perm f.reachable :=
      (List.perm_ext_iff_of_nodup sound.distinct f.nodup_reachable).2 same
    refine ⟨?_, same⟩
    rw [← leaving_perm all, ← spent run, none]
    rfl

/-- The entry may jump behind the last block, the second block may enter itself, the third one
may go back to the entry, and the fourth one has not ended.  Nothing enters the last block. -/
def sampleMaze : Function where
  name := "maze"
  ty := ⟨[.bool], .void⟩
  params := [⟨0⟩]
  values := [⟨none, .bool, .param 0⟩]
  blocks := [
    ⟨"entry", [], some (.condBr (.value ⟨0⟩) ⟨1⟩ ⟨9⟩)⟩,
    ⟨"again", [], some (.condBr (.value ⟨0⟩) ⟨1⟩ ⟨2⟩)⟩,
    ⟨"back", [], some (.condBr (.value ⟨0⟩) ⟨0⟩ ⟨3⟩)⟩,
    ⟨"open", [], none⟩,
    ⟨"lost", [], some (.br ⟨1⟩)⟩]

theorem search_reachable_maze :
    sampleMaze.Connected ⟨3⟩ ∧ ¬ sampleMaze.Connected ⟨4⟩ ∧ ¬ sampleMaze.Connected ⟨9⟩ ∧
      ∃ s, sampleMaze.Rounds 7 sampleMaze.start s ∧ (∀ s', ¬ sampleMaze.Round s s') ∧
        ∀ v, v ∈ s.seen ↔ v ∈ [⟨0⟩, ⟨1⟩, ⟨2⟩, (⟨3⟩ : BlockId)] := by
  obtain ⟨connected, -, -, -, ended, rounds, run⟩ := search_reachable sampleMaze
  have listed : sampleMaze.reachable = [⟨0⟩, ⟨1⟩, ⟨2⟩, ⟨3⟩] := by cbv
  have edges : sampleMaze.leaving [⟨0⟩, ⟨1⟩, ⟨2⟩, ⟨3⟩] = 6 := rfl
  rw [listed] at connected ended
  rw [edges] at ended
  have stuck (s' : Search) :
      ¬ sampleMaze.Round ⟨sampleMaze.explore [] sampleMaze.start.pending, []⟩ s' :=
    fun round => exists_round_iff.1 ⟨s', round⟩ rfl
  obtain ⟨rfl, same⟩ := ended rounds _ run stuck
  exact ⟨(connected _).1 (by decide), fun lost => absurd ((connected _).2 lost) (by decide),
    fun outside => absurd ((connected _).2 outside) (by decide), _, run, stuck, same⟩

end Function

end SsaLowering.Ir
