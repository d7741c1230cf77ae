/-
# SsaLowering.Proofs.Ir.NamedStructs -- the structs that a listing declares

A type is written out up to the named structs in it (`Ty.Writes`), and a struct holds
others at any depth (`Ty.Contains`).  `Ty.namedStructs` finds all of them, and each behind
those that it holds (`Founded`).  `firstOfName` keeps one struct for each name.  Where a name
stands for one list of fields it drops nothing but repetitions, and so keeps the order as
well (`Founded.firstOfName`).
-/
import Mathlib.Data.List.Nodup
import SsaLowering.Ir.Listing

namespace SsaLowering.Ir

set_option autoImplicit false

namespace Ty

/-! ## Types in types -/

/-- One type stands in another, at any depth, or is this one. -/
inductive Contains (inner : Ty) : Ty → Prop
  | here : Contains inner inner
  | element {element : Ty} {len : Nat} (within : Contains inner element) :
      Contains inner (.array element len)
  | field {name : Option String} {fields : List Ty} {field : Ty} (member : field ∈ fields)
      (within : Contains inner field) : Contains inner (.struct name fields)
  | param {params : List Ty} {ret param : Ty} (member : param ∈ params)
      (within : Contains inner param) : Contains inner (.function params ret)
  | ret {params : List Ty} {ret : Ty} (within : Contains inner ret) :
      Contains inner (.function params ret)

/-- One type is written where another is.  Of a struct with a name no more is written than
the name. -/
inductive Writes (inner : Ty) : Ty → Prop
  | here : Writes inner inner
  | element {element : Ty} {len : Nat} (within : Writes inner element) :
      Writes inner (.array element len)
  | field {fields : List Ty} {field : Ty} (member : field ∈ fields)
      (within : Writes inner field) : Writes inner (.struct none fields)
  | param {params : List Ty} {ret param : Ty} (member : param ∈ params)
      (within : Writes inner param) : Writes inner (.function params ret)
  | ret {params : List Ty} {ret : Ty} (within : Writes inner ret) :
      Writes inner (.function params ret)

variable {inner ty : Ty}

theorem Writes.contains (written : Writes inner ty) : Contains inner ty := by
  induction written with
  | here => exact .here
  | element _ ih => exact .element ih
  | field member _ ih => exact .field member ih
  | param member _ ih => exact .param member ih
  | ret _ ih => exact .ret ih

theorem Contains.trans {outer : Ty} (first : Contains inner ty) (second : Contains ty outer) :
    Contains inner outer := by
  induction second with
  | here => exact first
  | element _ ih => exact .element ih
  | field member _ ih => exact .field member ih
  | param member _ ih => exact .param member ih
  | ret _ ih => exact .ret ih

theorem contains_array {element : Ty} {len : Nat} :
    Contains inner (.array element len) ↔ inner = .array element len ∨ Contains inner element := by
  constructor
  · intro within
    cases within with
    | here => exact Or.inl rfl
    | element within => exact Or.inr within
  · rintro (rfl | within)
    · exact .here
    · exact .element within

theorem contains_struct {name : Option String} {fields : List Ty} :
    Contains inner (.struct name fields) ↔
      inner = .struct name fields ∨ ∃ field ∈ fields, Contains inner field := by
  constructor
  · intro within
    cases within with
    | here => exact Or.inl rfl
    | field member within => exact Or.inr ⟨_, member, within⟩
  · rintro (rfl | ⟨field, member, within⟩)
    · exact .here
    · exact .field member within

theorem contains_function {params : List Ty} {ret : Ty} :
    Contains inner (.function params ret) ↔ inner = .function params ret ∨
      (∃ param ∈ params, Contains inner param) ∨ Contains inner ret := by
  constructor
  · intro within
    cases within with
    | here => exact Or.inl rfl
    | param member within => exact Or.inr (Or.inl ⟨_, member, within⟩)
    | ret within => exact Or.inr (Or.inr within)
  · rintro (rfl | ⟨param, member, within⟩ | within)
    · exact .here
    · exact .param member within
    · exact .ret within

/-- A type without parts. -/
def isPlain : Ty → Bool
  | .void | .bool | .int _ | .double | .ptr => true
  | .array .. | .struct .. | .function .. => false

theorem not_contains_of_isPlain (plain : ty.isPlain = true) (struct : StructTy) :
    ¬ Contains struct.ty ty := by
  intro within
  generalize held : struct.ty = inner at within
  cases within with
  | here =>
    subst held
    cases plain
  | _ => cases plain

/-! ## All named structs in a type -/

theorem mem_namedStructs_of_isPlain (plain : ty.isPlain = true) {struct : StructTy} :
    struct ∈ namedStructs ty ↔ struct.name.isSome ∧ Contains struct.ty ty := by
  have nothing : namedStructs ty = [] := by
    cases ty <;> first | rfl | cases plain
  rw [nothing]
  exact ⟨nofun, fun held => absurd held.2 (not_contains_of_isPlain plain struct)⟩

theorem mem_self_if_named {struct : StructTy} {name : Option String} {fields : List Ty} :
    struct ∈ (if name.isSome then [⟨name, fields⟩] else []) ↔
      struct.name.isSome ∧ struct.ty = .struct name fields := by
  obtain ⟨name', fields'⟩ := struct
  cases name with
  | none =>
    simp only [Option.isSome_none, Bool.false_eq_true, if_false, List.not_mem_nil, StructTy.ty,
      Ty.struct.injEq, false_iff]
    rintro ⟨named, rfl, -⟩
    cases named
  | some name =>
    simp only [Option.isSome_some, if_true, List.mem_singleton, StructTy.mk.injEq, StructTy.ty,
      Ty.struct.injEq, iff_and_self]
    rintro ⟨rfl, -⟩
    rfl

mutual

theorem mem_namedStructs {struct : StructTy} :
    (ty : Ty) → (struct ∈ namedStructs ty ↔ struct.name.isSome ∧ Contains struct.ty ty)
  | .struct name fields => by
    rw [namedStructs, List.mem_append, mem_namedStructsAll fields, mem_self_if_named,
      contains_struct, ← and_or_left, or_comm]
  | .array element len => by
    have apart : struct.ty ≠ .array element len := nofun
    rw [namedStructs, mem_namedStructs element, contains_array, or_iff_right apart]
  | .function params ret => by
    have apart : struct.ty ≠ .function params ret := nofun
    rw [namedStructs, List.mem_append, mem_namedStructsAll params, mem_namedStructs ret,
      contains_function, or_iff_right apart, ← and_or_left]
  | .void | .bool | .int _ | .double | .ptr => mem_namedStructs_of_isPlain rfl

theorem mem_namedStructsAll {struct : StructTy} :
    (tys : List Ty) → (struct ∈ namedStructsAll tys ↔
      struct.name.isSome ∧ ∃ ty ∈ tys, Contains struct.ty ty)
  | [] => by simp [namedStructsAll]
  | ty :: rest => by
    rw [namedStructsAll, List.mem_append, mem_namedStructs ty, mem_namedStructsAll rest,
      ← and_or_left]
    simp only [List.mem_cons, exists_eq_or_imp]

end

end Ty

/-! ## The order of structs -/

/-- Each struct stands behind all named structs that it holds. -/
inductive Founded : List StructTy → Prop
  | nil : Founded []
  | snoc {structs : List StructTy} {struct : StructTy} (founded : Founded structs)
      (held : ∀ inner ∈ Ty.namedStructsAll struct.fields, inner ∈ structs) :
      Founded (structs ++ [struct])

namespace Founded

variable {structs : List StructTy}

mutual

theorem namedStructs {structs : List StructTy} (founded : Founded structs) :
    (ty : Ty) → Founded (structs ++ ty.namedStructs)
  | .struct name fields => by
    have inner := founded.namedStructsAll fields
    rw [Ty.namedStructs, ← List.append_assoc]
    split
    · exact inner.snoc fun struct held => List.mem_append_right _ held
    · rw [List.append_nil]
      exact inner
  | .array element len => founded.namedStructs element
  | .function params ret => by
    rw [Ty.namedStructs, ← List.append_assoc]
    exact (founded.namedStructsAll params).namedStructs ret
  | .void | .bool | .int _ | .double | .ptr => by
    rw [Ty.namedStructs, List.append_nil]
    exact founded

theorem namedStructsAll {structs : List StructTy} (founded : Founded structs) :
    (tys : List Ty) → Founded (structs ++ Ty.namedStructsAll tys)
  | [] => by
    rw [Ty.namedStructsAll, List.append_nil]
    exact founded
  | ty :: rest => by
    rw [Ty.namedStructsAll, ← List.append_assoc]
    exact (founded.namedStructs ty).namedStructsAll rest

end

/-- What a struct holds stands before it. -/
theorem split (founded : Founded structs) {struct : StructTy} (member : struct ∈ structs) :
    ∃ before after, structs = before ++ struct :: after ∧
      ∀ inner ∈ Ty.namedStructsAll struct.fields, inner ∈ before := by
  induction founded with
  | nil => cases member
  | @snoc structs last _ held ih =>
    rcases List.mem_append.1 member with old | new
    · obtain ⟨before, after, rfl, inner⟩ := ih old
      exact ⟨before, after ++ [last], by rw [List.append_assoc]; rfl, inner⟩
    · cases List.mem_singleton.1 new
      exact ⟨structs, [], rfl, held⟩

end Founded

/-! ## One struct for each name -/

theorem firstOfName_snoc (structs : List StructTy) (struct : StructTy) :
    firstOfName (structs ++ [struct]) =
      if (firstOfName structs).any (·.name == struct.name) then firstOfName structs
      else firstOfName structs ++ [struct] := by
  simp only [firstOfName, List.foldl_append, List.foldl_cons, List.foldl_nil, List.any_reverse]
  split
  · rfl
  · rw [List.reverse_cons]

/-- `kept` has one struct for each name in `structs`, in an order in which each stands behind
those that it holds. -/
structure Catalogues (structs kept : List StructTy) : Prop where
  founded : Founded kept
  distinct : (kept.map (·.name)).Nodup
  mem_iff : ∀ struct, struct ∈ kept ↔ struct ∈ structs

/-- Where structs of one name are one struct, no other is dropped for its name. -/
theorem Founded.firstOfName {structs : List StructTy} (founded : Founded structs)
    (uniform : ∀ a ∈ structs, ∀ b ∈ structs, a.name = b.name → a = b) :
    Catalogues structs (firstOfName structs) := by
  induction founded with
  | nil => exact ⟨.nil, List.nodup_nil, fun _ => Iff.rfl⟩
  | @snoc structs last founded held ih =>
    have old := ih fun a here b there => uniform a (List.mem_append_left _ here) b
      (List.mem_append_left _ there)
    rw [firstOfName_snoc]
    split
    · rename_i named
      obtain ⟨first, kept, same⟩ := List.any_eq_true.1 named
      have among := (old.mem_iff first).1 kept
      obtain rfl : first = last := uniform first (List.mem_append_left _ among) last
        (List.mem_append_right _ (List.mem_singleton_self _)) (beq_iff_eq.1 same)
      refine ⟨old.founded, old.distinct, fun struct => ?_⟩
      rw [old.mem_iff, List.mem_append, List.mem_singleton]
      exact ⟨Or.inl, fun member => member.elim id fun same => same ▸ among⟩
    · rename_i fresh
      refine ⟨old.founded.snoc fun inner among => (old.mem_iff inner).2 (held inner among), ?_,
        fun struct => ?_⟩
      · rw [List.map_append, List.map_singleton, ← List.concat_eq_append]
        refine old.distinct.concat fun twice => fresh ?_
        obtain ⟨first, kept, same⟩ := List.mem_map.1 twice
        exact List.any_eq_true.2 ⟨first, kept, beq_iff_eq.2 same⟩
      · rw [List.mem_append, List.mem_append, old.mem_iff]

/-- What stands before and behind a struct has other names. -/
theorem Catalogues.split {structs kept : List StructTy} (catalogues : Catalogues structs kept)
    {struct : StructTy} (member : struct ∈ structs) :
    ∃ before after, kept = before ++ struct :: after ∧
      (∀ other ∈ before ++ after, other.name ≠ struct.name) ∧
      ∀ inner ∈ Ty.namedStructsAll struct.fields, inner ∈ before := by
  obtain ⟨before, after, rfl, held⟩ := catalogues.founded.split ((catalogues.mem_iff _).2 member)
  refine ⟨before, after, rfl, fun other among same => ?_, held⟩
  have distinct := catalogues.distinct
  rw [List.map_append, List.map_cons, List.nodup_middle, List.nodup_cons, ← List.map_append]
    at distinct
  exact distinct.1 (List.mem_map.2 ⟨other, among, same⟩)

/-! ## The structs of a module -/

/-- Each name of a struct in one of the types stands for one list of fields. -/
def Ty.Uniform (P : Ty → Prop) : Prop :=
  ∀ a b : StructTy, a.name.isSome → a.name = b.name → (∃ ty, P ty ∧ Contains a.ty ty) →
    (∃ ty, P ty ∧ Contains b.ty ty) → a.fields = b.fields

/-- Types with no other structs in them are uniform as well. -/
theorem Ty.Uniform.mono {P Q : Ty → Prop} (uniform : Ty.Uniform Q)
    (given : ∀ struct : StructTy, (∃ ty, P ty ∧ Contains struct.ty ty) →
      ∃ ty, Q ty ∧ Contains struct.ty ty) : Ty.Uniform P :=
  fun a b named same here there => uniform a b named same (given a here) (given b there)

namespace Module

/-- The types that the functions of a module bring into its listing. -/
def types (m : Module) : List Ty := m.functions.flatMap Function.types

theorem catalogues_namedStructs {m : Module} (uniform : Ty.Uniform (· ∈ m.types)) :
    Catalogues (Ty.namedStructsAll m.types) m.namedStructs := by
  refine Founded.firstOfName (Founded.nil.namedStructsAll m.types) fun a here b there same => ?_
  obtain ⟨named, used⟩ := (Ty.mem_namedStructsAll _).1 here
  have fields := uniform a b named same used ((Ty.mem_namedStructsAll _).1 there).2
  cases a
  cases b
  cases same
  cases fields
  rfl

end Module

end SsaLowering.Ir
