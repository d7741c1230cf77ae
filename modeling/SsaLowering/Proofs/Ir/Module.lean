/-
# SsaLowering.Proofs.Ir.Module -- modules that functions are added to and taken from

A module is `Indexed` when its names lead to its functions, in order.  Declaring a
function appends it (`Module.appended`); defining it puts the finished function in
the same place, and taking the declaration back gives the module before, whatever
constant data was added meanwhile.
-/
import SsaLowering.Proofs.Ir.Verification

namespace SsaLowering.Ir.Module

set_option autoImplicit false

variable {m : Module} {f g : Function}

/-- The module with one more function. -/
def appended (m : Module) (f : Function) : Module :=
  { m with
    functions := m.functions ++ [f]
    names := m.names ++ [(f.name, ⟨m.functions.length⟩)] }

/-- The module with more constant data. -/
def withGlobals (m : Module) (more : List Global) : Module :=
  { m with globals := m.globals ++ more }

/-- Every name leads to the function that has it. -/
def Indexed (m : Module) : Prop := m.names = m.functions.mapIdx fun i f => (f.name, ⟨i⟩)

theorem names_of_indexed (indexed : m.Indexed) : m.names.map (·.1) = m.functions.map (·.name) := by
  rw [indexed]
  apply List.ext_getElem?
  intro i
  rw [List.getElem?_map, List.getElem?_mapIdx, List.getElem?_map, Option.map_map]
  rfl

theorem indexed_appended (indexed : m.Indexed) (f : Function) : (m.appended f).Indexed := by
  rw [Indexed, appended, indexed, List.mapIdx_append]
  simp

theorem functionNamed?_eq_none (indexed : m.Indexed) {name : String} :
    m.functionNamed? name = none ↔ ∀ f ∈ m.functions, f.name ≠ name := by
  rw [functionNamed?, List.lookup_eq_none_iff, indexed]
  constructor
  · intro absent f member same
    obtain ⟨i, bound, rfl⟩ := List.mem_iff_getElem.1 member
    have entry := absent (m.functions[i].name, ⟨i⟩) (List.mem_mapIdx.2 ⟨i, bound, rfl⟩)
    simp [same] at entry
  · intro absent entry member
    obtain ⟨i, bound, rfl⟩ := List.mem_mapIdx.1 member
    simpa using Ne.symm (absent _ (List.getElem_mem bound))

theorem distinct_appended (indexed : m.Indexed) (distinct : (m.functions.map (·.name)).Nodup)
    (free : m.functionNamed? f.name = none) :
    ((m.appended f).functions.map (·.name)).Nodup := by
  show ((m.functions ++ [f]).map (·.name)).Nodup
  rw [List.map_append, List.nodup_append]
  refine ⟨distinct, List.nodup_singleton _, ?_⟩
  intro name member other single same
  obtain ⟨g, among, rfl⟩ := List.mem_map.1 member
  simp only [List.map_cons, List.map_nil, List.mem_singleton] at single
  exact (functionNamed?_eq_none indexed).1 free g among (same.trans single)

/-! ## Functions under their handles -/

theorem function?_appended_old {id : FuncId} (known : m.function? id = some f) (g : Function) :
    (m.appended g).function? id = some f := by
  obtain ⟨bound, -⟩ := List.getElem?_eq_some_iff.1 known
  rw [function?, appended, List.getElem?_append_left bound]
  exact known

theorem function?_appended_new (m : Module) (f : Function) :
    (m.appended f).function? ⟨m.functions.length⟩ = some f := by
  simp [function?, appended]

/-- A function that takes the place of one with the same signature changes no signature. -/
theorem signature?_appended (same : g.ty = f.ty) (id : FuncId) :
    (m.appended g).signature? id = (m.appended f).signature? id := by
  rw [signature?, signature?, function?, function?, appended, appended]
  rcases Nat.lt_trichotomy id.index m.functions.length with before | here | after
  · rw [List.getElem?_append_left before, List.getElem?_append_left before]
  · simp [here, same]
  · rw [List.getElem?_eq_none (by simp; omega), List.getElem?_eq_none (by simp; omega)]

theorem signature?_appended_old {id : FuncId} {signature : FunctionTy}
    (known : m.signature? id = some signature) (g : Function) :
    (m.appended g).signature? id = some signature := by
  obtain ⟨f, present, rfl⟩ := Option.map_eq_some_iff.1 known
  rw [signature?, function?_appended_old present]
  rfl

/-! ## Operations -/

theorem declare_ok {name : String} {ty : FunctionTy} {id : FuncId} {m' : Module} :
    m.declare name ty = .ok (id, m') ↔
      m.functionNamed? name = none ∧ id = ⟨m.functions.length⟩ ∧
        m' = m.appended (.declare name ty) := by
  unfold declare
  split
  · rename_i taken
    constructor
    · rintro ⟨⟩
    · rintro ⟨free, -⟩
      rw [free] at taken
      cases taken
  · rename_i free
    rw [Bool.not_eq_true, Option.isSome_eq_false_iff, Option.isNone_iff_eq_none] at free
    simp only [Except.ok.injEq, Prod.mk.injEq, free, true_and]
    rw [eq_comm]
    refine and_congr Iff.rfl ?_
    rw [eq_comm]
    rfl

theorem define_appended (empty : f.isDeclaration) (name : g.name = f.name) (ty : g.ty = f.ty)
    (more : List Global) :
    ((m.appended f).withGlobals more).define ⟨m.functions.length⟩ g =
      .ok ((m.appended g).withGlobals more) := by
  have known : ((m.appended f).withGlobals more).function? ⟨m.functions.length⟩ = some f :=
    m.function?_appended_new f
  rw [define, known]
  simp only [empty, Bool.not_true, Bool.false_eq_true, if_false, name, ty, ne_eq,
    not_true_eq_false, or_self]
  simp [appended, withGlobals, name]

theorem retract_appended (indexed : m.Indexed) (empty : f.isDeclaration)
    (free : m.functionNamed? f.name = none) (more : List Global) :
    ((m.appended f).withGlobals more).retract ⟨m.functions.length⟩ =
      .ok (f, m.withGlobals more) := by
  have known : ((m.appended f).withGlobals more).function? ⟨m.functions.length⟩ = some f :=
    m.function?_appended_new f
  have kept : m.names.filter (·.1 ≠ f.name) = m.names := by
    rw [List.filter_eq_self]
    intro entry member
    rw [indexed] at member
    obtain ⟨i, bound, rfl⟩ := List.mem_mapIdx.1 member
    simpa using (functionNamed?_eq_none indexed).1 free _ (List.getElem_mem bound)
  rw [retract, known]
  simp only [empty, Bool.not_true, Bool.false_eq_true, if_false]
  rw [if_neg (by simp [withGlobals, appended])]
  simp only [withGlobals, appended, List.dropLast_concat, List.filter_append, kept]
  simp

theorem truncateGlobals_withGlobals (m : Module) (more : List Global) :
    (m.withGlobals more).truncateGlobals m.globals.length = m := by
  simp [truncateGlobals, withGlobals]

/-! ## Verification -/

theorem repeatedName?_eq_none : ∀ {functions : List Function} {seen : List String},
    repeatedName? functions seen = none ↔
      (functions.map (·.name)).Nodup ∧ ∀ f ∈ functions, f.name ∉ seen
  | [], seen => by simp [repeatedName?]
  | f :: rest, seen => by
    rw [repeatedName?]
    by_cases again : f.name ∈ seen
    · simp [again]
    · rw [if_neg again, repeatedName?_eq_none, List.map_cons, List.nodup_cons,
        List.forall_mem_cons]
      constructor
      · rintro ⟨distinct, fresh⟩
        refine ⟨⟨fun twice => ?_, distinct⟩, again, fun g member seen => ?_⟩
        · obtain ⟨g, member, same⟩ := List.mem_map.1 twice
          exact fresh g member (List.mem_cons.2 (Or.inl same))
        · exact fresh g member (List.mem_cons_of_mem _ seen)
      · rintro ⟨⟨new, distinct⟩, -, fresh⟩
        refine ⟨distinct, fun g member seen => ?_⟩
        rcases List.mem_cons.1 seen with same | before
        · exact new (List.mem_map.2 ⟨g, member, same⟩)
        · exact fresh g member before

theorem verify_ok :
    m.verify = .ok () ↔
      (m.functions.map (·.name)).Nodup ∧ ∀ f ∈ m.functions, f.verify m = .ok () := by
  unfold verify
  cases repeated : repeatedName? m.functions [] with
  | some name =>
    have twice : ¬ (m.functions.map (·.name)).Nodup := fun distinct => by
      have none_ := repeatedName?_eq_none.2 ⟨distinct, fun f _ => List.not_mem_nil⟩
      rw [repeated] at none_
      cases none_
    simp [twice, throw, throwThe, MonadExceptOf.throw, bind, Except.bind]
  | none =>
    have distinct := (repeatedName?_eq_none.1 repeated).1
    simp only [distinct, true_and]
    exact forM_ok

/-- A module stays verified when its functions are joined by a verified one. -/
theorem verify_appended (ok : m.verify = .ok ()) (indexed : m.Indexed)
    (free : m.functionNamed? f.name = none) (more : List Global)
    (new : f.verify ((m.appended f).withGlobals more) = .ok ()) :
    ((m.appended f).withGlobals more).verify = .ok () := by
  obtain ⟨distinct, all⟩ := verify_ok.1 ok
  refine verify_ok.2 ⟨?_, fun g member => ?_⟩
  · exact distinct_appended indexed distinct free
  · rcases List.mem_append.1 member with old | added
    · refine Function.verify_mono (fun id signature known => ?_) (all g old)
      exact signature?_appended_old known f
    · cases List.mem_singleton.1 added
      exact new

end SsaLowering.Ir.Module
