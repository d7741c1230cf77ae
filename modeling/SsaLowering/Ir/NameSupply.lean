/-
# SsaLowering.Ir.NameSupply -- unique local names

A `NameSupply` is the set of names already given away.  `NameSupply.fresh` gives
the requested name if it is free, and otherwise the name with the least free
numeric suffix: `base.1`, `base.2`, and so on.  Among one suffix more than there
are names one is always free (`exists_freeSuffix`), so the search is finite.  The
supply remembers how far the suffixes of a name are used up, and the search starts
from there; it still finds the least free one (`least_of_freeSuffix?`).
-/
namespace SsaLowering.Ir

set_option autoImplicit false

/-- The `k`-th variant of a name. -/
def suffixed (base : String) (k : Nat) : String := base ++ "." ++ toString k

/-- The names already in use.  The first `spent base` suffixes of `base` are among them. -/
structure NameSupply where
  used : List String
  spent : String → Nat
  mem_used_of_spent : ∀ base k, 1 ≤ k → k ≤ spent base → suffixed base k ∈ used

namespace NameSupply

/-- The supply in which exactly the given names are in use. -/
def ofUsed (names : List String) : NameSupply where
  used := names
  spent := fun _ => 0
  mem_used_of_spent := fun _ _ low high => absurd (Nat.le_trans low high) (by decide)

instance : Inhabited NameSupply := ⟨ofUsed []⟩

/-- The least positive suffix that makes a free name. -/
def freeSuffix? (s : NameSupply) (base : String) : Option Nat :=
  (List.range' (s.spent base + 1) (s.used.length + 1)).find? fun k => suffixed base k ∉ s.used

/-! ## The search -/

theorem suffixed_injective {base : String} {j k : Nat} (h : suffixed base j = suffixed base k) :
    j = k := by
  have lists := congrArg String.toList h
  simp only [suffixed, String.toList_append] at lists
  have digits := List.append_cancel_left lists
  have read := congrArg (fun ds => Nat.ofDigitChars 10 ds 0) digits
  simpa [Nat.toString_eq_ofList_toDigits] using read

theorem length_le_of_suffixed_mem (base : String) :
    ∀ (count start : Nat) (names : List String),
      (∀ k, start ≤ k → k < start + count → suffixed base k ∈ names) → count ≤ names.length
  | 0, _, _, _ => Nat.zero_le _
  | count + 1, start, names, taken => by
    have first := taken start (Nat.le_refl _) (by omega)
    have rest := length_le_of_suffixed_mem base count (start + 1)
      (names.erase (suffixed base start)) fun k low high => by
        refine (List.mem_erase_of_ne fun same => ?_).2 (taken k (by omega) (by omega))
        have := suffixed_injective same
        omega
    rw [List.length_erase_of_mem first] at rest
    have := List.length_pos_of_mem first
    omega

theorem exists_freeSuffix (s : NameSupply) (base : String) :
    ∃ k, s.freeSuffix? base = some k := by
  rcases found : s.freeSuffix? base with _ | k
  · have bound := length_le_of_suffixed_mem base (s.used.length + 1) (s.spent base + 1) s.used
      fun k low high => by
        have := List.find?_eq_none.1 found k (by rw [List.mem_range'_1]; omega)
        simpa using this
    omega
  · exact ⟨k, rfl⟩

theorem least_of_freeSuffix? {s : NameSupply} {base : String} {k : Nat}
    (found : s.freeSuffix? base = some k) :
    1 ≤ k ∧ suffixed base k ∉ s.used ∧ ∀ j, 1 ≤ j → j < k → suffixed base j ∈ s.used := by
  obtain ⟨free, bound, before⟩ := List.find?_range'_eq_some.1 found
  rw [List.mem_range'_1] at bound
  refine ⟨by omega, by simpa using free, fun j low high => ?_⟩
  rcases Nat.lt_or_ge (s.spent base) j with beyond | within
  · simpa using before j (by omega) high
  · exact s.mem_used_of_spent base j low within

/-! ## Giving names away -/

/-- The name chosen for `base`: itself, or its variant with the least free suffix. -/
def choose (s : NameSupply) (base : String) : String :=
  if base ∉ s.used then base
  else
    match s.freeSuffix? base with
    | some k => suffixed base k
    | none => base

/-- A supply in which one more name is in use. -/
def use (s : NameSupply) (name : String) : NameSupply where
  used := name :: s.used
  spent := s.spent
  mem_used_of_spent := fun base k low high =>
    List.mem_cons_of_mem name (s.mem_used_of_spent base k low high)

/-- A supply in which the least free variant of a name is in use, and that remembers
how far the search went. -/
def useSuffix (s : NameSupply) (base : String) (k : Nat) (found : s.freeSuffix? base = some k) :
    NameSupply where
  used := suffixed base k :: s.used
  spent := fun other => if other = base then k else s.spent other
  mem_used_of_spent := fun other j low high => by
    split at high
    next same =>
      subst same
      rcases Nat.lt_or_ge j k with before | beyond
      · exact List.mem_cons_of_mem _ ((least_of_freeSuffix? found).2.2 j low before)
      · have : j = k := by omega
        simp [this]
    next => exact List.mem_cons_of_mem _ (s.mem_used_of_spent other j low high)

/-- A free name for `base`, which is in use from then on. -/
def fresh (s : NameSupply) (base : String) : String × NameSupply :=
  if base ∉ s.used then (base, s.use base)
  else
    match found : s.freeSuffix? base with
    | some k => (suffixed base k, s.useSuffix base k found)
    | none => (base, s.use base)

theorem choose_not_mem (s : NameSupply) (base : String) : s.choose base ∉ s.used := by
  unfold choose
  split
  next free => exact free
  next =>
    obtain ⟨k, found⟩ := s.exists_freeSuffix base
    rw [found]
    exact (least_of_freeSuffix? found).2.1

theorem fresh_fst (s : NameSupply) (base : String) : (s.fresh base).1 = s.choose base := by
  unfold fresh choose
  split
  next => rfl
  next => split <;> simp_all

theorem fresh_used (s : NameSupply) (base : String) :
    (s.fresh base).2.used = s.choose base :: s.used := by
  unfold fresh choose
  split
  next => rfl
  next => split <;> simp_all [use, useSuffix]

end NameSupply

end SsaLowering.Ir
