/-
# SsaLowering.Proofs.Ir.NameSupply -- the search for a free name comes to an end

A supply finds a free name by looking at a bounded range of suffixes, and from where it
stopped the last time.  Here is the search without the bound and without the memory: a
candidate that is in use gives way to the next variant of the base, for as long as it
takes.  Nothing in its text makes it stop.  It does because the variants are pairwise
distinct and the names in use are finitely many, and it stops at the name that the supply
gives (`NameSupply.search_fresh`).
-/
import SsaLowering.Ir.NameSupply
import Mathlib.Logic.Basic

namespace SsaLowering.Ir

set_option autoImplicit false

/-! ## The unbounded search -/

/-- `NameSearch base used candidate next name after`: from `candidate`, with `next` as the
suffix to try after it, the search for a variant of `base` stops at `name`, and the names in
use are `after` from then on.  To find a name free and to put it in use is one step. -/
inductive NameSearch (base : String) (used : List String) :
    String → Nat → String → List String → Prop
  | free {candidate : String} {next : Nat} (unused : candidate ∉ used) :
    NameSearch base used candidate next candidate (candidate :: used)
  | taken {candidate name : String} {next : Nat} {after : List String}
    (inUse : candidate ∈ used)
    (rest : NameSearch base used (suffixed base next) (next + 1) name after) :
    NameSearch base used candidate next name after

namespace NameSearch

variable {base candidate name : String} {used after : List String} {next : Nat}

/-- The search has one outcome. -/
theorem unique (found : NameSearch base used candidate next name after) :
    ∀ {name' : String} {after' : List String},
      NameSearch base used candidate next name' after' → name' = name ∧ after' = after := by
  induction found with
  | free unused =>
    intro name' after' other
    cases other with
    | free => exact ⟨rfl, rfl⟩
    | taken inUse => exact absurd inUse unused
  | taken inUse _ ih =>
    intro name' after' other
    cases other with
    | free unused => exact absurd inUse unused
    | taken _ rest => exact ih rest

/-- From a variant that is in use the search goes up to the first one that is not. -/
theorem of_least {k : Nat} (unused : suffixed base k ∉ used) (low : next ≤ k)
    (before : ∀ j, next ≤ j → j < k → suffixed base j ∈ used) :
    NameSearch base used (suffixed base next) (next + 1) (suffixed base k)
      (suffixed base k :: used) := by
  induction distance : k - next generalizing next with
  | zero =>
    obtain rfl : next = k := by omega
    exact .free unused
  | succ distance ih =>
    refine .taken (before next (Nat.le_refl _) (by omega)) (ih (by omega) ?_ (by omega))
    exact fun j above below => before j (by omega) below

end NameSearch

/-! ## The name it stops at -/

namespace NameSupply

variable {s : NameSupply} {base : String} {k : Nat}

theorem choose_of_free (free : base ∉ s.used) : s.choose base = base := by
  rw [choose, if_pos free]

theorem choose_of_used (inUse : base ∈ s.used) (found : s.freeSuffix? base = some k) :
    s.choose base = suffixed base k := by
  rw [choose, if_neg (not_not_intro inUse), found]

/-- A variant of a name is longer than the name. -/
theorem suffixed_ne (base : String) (k : Nat) : suffixed base k ≠ base := by
  intro same
  have lengths := congrArg String.length same
  rw [suffixed, String.length_append, String.length_append] at lengths
  have : ".".length = 1 := rfl
  omega

/-- There is no need to try more suffixes than there are names in use. -/
theorem freeSuffix_le (inUse : base ∈ s.used) (found : s.freeSuffix? base = some k) :
    k ≤ s.used.length := by
  obtain ⟨-, -, before⟩ := least_of_freeSuffix? found
  -- The base itself is one of the names in use, and it is not one of its variants.
  have variants := length_le_of_suffixed_mem base (k - 1) 1 (s.used.erase base) (by
    intro j low high
    exact (List.mem_erase_of_ne (suffixed_ne base j)).2 (before j low (by omega)))
  rw [List.length_erase_of_mem inUse] at variants
  have := List.length_pos_of_mem inUse
  omega

/-- The unbounded search for a name comes to an end where the supply does. -/
theorem search_choose (s : NameSupply) (base : String) :
    NameSearch base s.used base 1 (s.choose base) (s.choose base :: s.used) := by
  by_cases inUse : base ∈ s.used
  · obtain ⟨k, found⟩ := s.exists_freeSuffix base
    obtain ⟨low, unused, before⟩ := least_of_freeSuffix? found
    rw [choose_of_used inUse found]
    exact .taken inUse (.of_least unused low before)
  · rw [choose_of_free inUse]
    exact .free inUse

/-- Whatever names are in use, the search for a free one stops, and in one way only: at the
name that the supply gives, which was not in use and is the only one that is added.  It is
the base if that was free, and its variant with the least free suffix otherwise. -/
theorem search_fresh (s : NameSupply) (base : String) :
    (∀ name after, NameSearch base s.used base 1 name after ↔
      name = (s.fresh base).1 ∧ after = (s.fresh base).2.used) ∧
    (s.fresh base).1 ∉ s.used ∧
    (∀ name, name ∈ (s.fresh base).2.used ↔ name = (s.fresh base).1 ∨ name ∈ s.used) ∧
    (base ∉ s.used → (s.fresh base).1 = base) ∧
    (base ∈ s.used → ∃ k, 1 ≤ k ∧ (s.fresh base).1 = suffixed base k ∧
      suffixed base k ∉ s.used ∧ ∀ j, 1 ≤ j → j < k → suffixed base j ∈ s.used) := by
  rw [fresh_fst, fresh_used]
  refine ⟨?stops, s.choose_not_mem base, fun name => List.mem_cons, choose_of_free, ?least⟩
  case stops =>
    intro name after
    constructor
    · exact fun found => (s.search_choose base).unique found
    · rintro ⟨rfl, rfl⟩
      exact s.search_choose base
  case least =>
    intro inUse
    obtain ⟨k, found⟩ := s.exists_freeSuffix base
    obtain ⟨low, unused, before⟩ := least_of_freeSuffix? found
    exact ⟨k, low, choose_of_used inUse found, unused, before⟩

end NameSupply

end SsaLowering.Ir
