/-
# SsaLowering.Proofs.Ir.SymbolTable -- functions and constant data found by name

A module answers requests (`Request`): each gives a new module or is refused, and a refused
one changes nothing.  The callers choose every argument, the body of a definition included.

`Module.InStep` is what one request preserves: the names lead to the functions in order,
no two functions share a name, and constant data is numbered.  From it follows what a
caller can rely on after any requests (`Module.Consistent`, `Module.serveAll_consistent`).
-/
import SsaLowering.Proofs.Ir.References
import SsaLowering.Proofs.Ir.Soundness

namespace SsaLowering.Ir

set_option autoImplicit false

/-! ## Requests -/

/-- One operation on a module with the arguments that its caller gives. -/
inductive Request where
  | declare (name : String) (ty : FunctionTy)
  | define (id : FuncId) (body : Function)
  | retract (id : FuncId)
  | addConstant (bytes : List UInt8)
  | truncateGlobals (count : Nat)
deriving Inhabited

namespace Module

/-- The module that an operation makes, or its error. -/
def answer (m : Module) : Request → Except BuildError Module
  | .declare name ty => (m.declare name ty).map (·.2)
  | .define id body => m.define id body
  | .retract id => (m.retract id).map (·.2)
  | .addConstant bytes => .ok (m.addConstant bytes).2
  | .truncateGlobals count => .ok (m.truncateGlobals count)

/-- The module that a caller holds after an operation. -/
def serve (m : Module) (request : Request) : Module := m.after (m.answer request)

/-- Operations in order. -/
def serveAll (m : Module) (requests : List Request) : Module := requests.foldl serve m

variable {m m' : Module} {f : Function} {id : FuncId} {name : String}

theorem define_ok {body : Function} :
    m.define id body = .ok m' ↔
      ∃ declared, m.function? id = some declared ∧ declared.isDeclaration ∧
        declared.name = body.name ∧ declared.ty = body.ty ∧
        m' = { m with functions := m.functions.set id.index body } := by
  rw [define]
  cases m.function? id with
  | none => simp
  | some declared =>
    simp only [Option.some.injEq, exists_eq_left']
    split
    · rename_i bodied
      simp only [Bool.not_eq_true'] at bodied
      simp [bodied]
    · rename_i empty
      simp only [Bool.not_eq_true', Bool.not_eq_false] at empty
      split
      · rename_i mismatch
        constructor
        · intro ok
          cases ok
        · rintro ⟨-, name, ty, -⟩
          rcases mismatch with other | other
          · exact absurd name other
          · exact absurd ty other
      · rename_i matching
        simp only [not_or, ne_eq, not_not] at matching
        simp [empty, matching, eq_comm]

theorem retract_ok :
    m.retract id = .ok (f, m') ↔
      m.function? id = some f ∧ id.index + 1 = m.functions.length ∧ f.isDeclaration ∧
        m' = { m with
          functions := m.functions.dropLast, names := m.names.filter (·.1 ≠ f.name) } := by
  rw [retract]
  cases m.function? id with
  | none => simp
  | some g =>
    by_cases last : id.index + 1 = m.functions.length
    · by_cases empty : g.isDeclaration
      · simp only [last, empty, ne_eq, not_true_eq_false, if_false, Bool.not_true,
          Bool.false_eq_true, Except.ok.injEq, Prod.mk.injEq, Option.some.injEq, true_and]
        constructor
        · rintro ⟨rfl, rfl⟩
          exact ⟨rfl, empty, rfl⟩
        · rintro ⟨rfl, -, rfl⟩
          exact ⟨rfl, rfl⟩
      · simp only [last, empty, ne_eq, not_true_eq_false, if_false, Bool.not_false, if_true,
          reduceCtorEq, false_iff]
        rintro ⟨⟨⟩, -, empty', -⟩
        exact empty empty'
    · simp [last]

/-! ## What a request preserves -/

/-- The tables of a module are in step. -/
structure InStep (m : Module) : Prop where
  indexed : m.Indexed
  distinct : (m.functions.map (·.name)).Nodup
  numbered : m.globals.map (·.name) = (List.range m.globals.length).map globalName

theorem inStep_empty (label : String) : (empty label).InStep := ⟨rfl, List.nodup_nil, rfl⟩

theorem InStep.appended (tables : m.InStep) (free : m.functionNamed? f.name = none) :
    (m.appended f).InStep where
  indexed := indexed_appended tables.indexed f
  distinct := distinct_appended tables.indexed tables.distinct free
  numbered := tables.numbered

/-- The index of a module is made from the names of its functions. -/
theorem indexed_iff :
    m.Indexed ↔ m.names = (m.functions.map (·.name)).mapIdx fun i name => (name, ⟨i⟩) := by
  have same : (m.functions.map (·.name)).mapIdx (fun i name => (name, FuncId.mk i)) =
      m.functions.mapIdx fun i f => (f.name, ⟨i⟩) := by
    apply List.ext_getElem?
    intro i
    rw [List.getElem?_mapIdx, List.getElem?_map, Option.map_map, List.getElem?_mapIdx]
    rfl
  rw [Indexed, same]

/-- A function that takes the place of another of its name changes no name. -/
theorem names_set {old : Function} (known : m.function? id = some old) (same : old.name = f.name) :
    (m.functions.set id.index f).map (·.name) = m.functions.map (·.name) := by
  obtain ⟨bound, here⟩ := List.getElem?_eq_some_iff.1 known
  apply List.ext_getElem (by simp)
  intro i _ _
  by_cases i_eq : id.index = i
  · subst i_eq
    simp [← same, here]
  · simp [List.getElem_set_of_ne i_eq]

theorem InStep.defined (tables : m.InStep) {old : Function} (known : m.function? id = some old)
    (same : old.name = f.name) :
    InStep { m with functions := m.functions.set id.index f } where
  indexed := by
    have index := indexed_iff.1 tables.indexed
    rw [← names_set known same] at index
    exact indexed_iff.2 index
  distinct := by
    have distinct := tables.distinct
    rw [← names_set known same] at distinct
    exact distinct
  numbered := tables.numbered

/-- The last function of a module was appended to a module without it. -/
theorem InStep.exists_appended (tables : m.InStep) (last : m.functions.getLast? = some f) :
    ∃ base : Module, base.InStep ∧ base.functionNamed? f.name = none ∧ m = base.appended f := by
  obtain ⟨init, split⟩ := List.getLast?_eq_some_iff.1 last
  have index := tables.indexed
  rw [Indexed, split, List.mapIdx_append] at index
  have distinct := tables.distinct
  rw [split, List.map_append, List.nodup_append] at distinct
  obtain ⟨distinct, -, apart⟩ := distinct
  let base : Module := { m with functions := init, names := init.mapIdx fun i g => (g.name, ⟨i⟩) }
  have indexed : base.Indexed := rfl
  have free : base.functionNamed? f.name = none := by
    rw [functionNamed?_eq_none indexed]
    intro g member
    exact apart g.name (List.mem_map_of_mem member) f.name (by simp)
  have whole : m = base.appended f := by
    obtain ⟨label, functions, names, globals⟩ := m
    simp only at split index
    subst split index
    simp [Module.appended, base]
  exact ⟨base, ⟨indexed, distinct, tables.numbered⟩, free, whole⟩

/-- A function whose declaration is taken back had been appended to the module that is left. -/
theorem InStep.retracted (tables : m.InStep) (ok : m.retract id = .ok (f, m')) :
    m'.InStep ∧ m'.functionNamed? f.name = none ∧ m = m'.appended f := by
  obtain ⟨known, last, empty, -⟩ := retract_ok.1 ok
  have ending : m.functions.getLast? = some f := by
    rw [List.getLast?_eq_getElem?, ← last, Nat.add_sub_cancel]
    exact known
  obtain ⟨base, before, free, rfl⟩ := tables.exists_appended ending
  have here : id = ⟨base.functions.length⟩ := by
    obtain ⟨index⟩ := id
    have longer : (base.appended f).functions.length = base.functions.length + 1 := by
      simp [Module.appended]
    rw [longer, Nat.add_right_cancel_iff] at last
    rw [← last]
  have back := retract_appended before.indexed empty free []
  simp only [withGlobals, List.append_nil, ← here] at back
  cases ok.symm.trans back
  exact ⟨before, free, rfl⟩

theorem InStep.labelled (tables : m.InStep) (bytes : List UInt8) :
    (m.addConstant bytes).2.InStep where
  indexed := tables.indexed
  distinct := tables.distinct
  numbered := by
    rw [addConstant, List.map_append, tables.numbered, List.length_append, List.length_singleton,
      List.range_succ, List.map_append, List.map_singleton, List.map_singleton]

theorem InStep.truncated (tables : m.InStep) (count : Nat) : (m.truncateGlobals count).InStep where
  indexed := tables.indexed
  distinct := tables.distinct
  numbered := by
    show (m.globals.take count).map (·.name) = (List.range (m.globals.take count).length).map _
    rw [List.map_take, tables.numbered, ← List.map_take, List.take_range, List.length_take]

/-- What a request does to the module when it is not refused. -/
inductive Serves (m : Module) : Module → Prop
  | declared (name : String) (ty : FunctionTy) (free : m.functionNamed? name = none) :
    Serves m (m.appended (.declare name ty))
  | defined {id : FuncId} {declared body : Function} (known : m.function? id = some declared)
      (empty : declared.isDeclaration) (name : declared.name = body.name) :
    Serves m { m with functions := m.functions.set id.index body }
  | retracted {id : FuncId} {f : Function} {m' : Module} (ok : m.retract id = .ok (f, m')) :
    Serves m m'
  | labelled (bytes : List UInt8) : Serves m (m.addConstant bytes).2
  | truncated (count : Nat) : Serves m (m.truncateGlobals count)

theorem serves_of_answer : ∀ {request : Request}, m.answer request = .ok m' → m.Serves m'
  | .declare name ty, answered => by
    obtain ⟨⟨id, added⟩, ok, rfl⟩ := except_map_ok.1 answered
    obtain ⟨free, -, rfl⟩ := declare_ok.1 ok
    exact .declared name ty free
  | .define id body, answered => by
    obtain ⟨declared, known, empty, name, -, rfl⟩ := define_ok.1 answered
    exact .defined known empty name
  | .retract id, answered => by
    obtain ⟨⟨f, left⟩, ok, rfl⟩ := except_map_ok.1 answered
    exact .retracted ok
  | .addConstant bytes, answered => by
    cases answered
    exact .labelled bytes
  | .truncateGlobals count, answered => by
    cases answered
    exact .truncated count

/-- A request is refused, and then nothing changes, or it is served. -/
theorem serve_cases (m : Module) (request : Request) :
    m.serve request = m ∨ m.Serves (m.serve request) := by
  rw [serve]
  cases outcome : m.answer request with
  | error cause => exact Or.inl rfl
  | ok next => exact Or.inr (serves_of_answer outcome)

/-- One request keeps the tables in step, whatever its arguments are. -/
theorem InStep.serve (tables : m.InStep) (request : Request) : (m.serve request).InStep := by
  rcases m.serve_cases request with same | served
  · rw [same]
    exact tables
  · generalize m.serve request = next at served
    cases served with
    | declared name ty free => exact tables.appended free
    | defined known empty name => exact tables.defined known name
    | retracted ok => exact (tables.retracted ok).1
    | labelled bytes => exact tables.labelled bytes
    | truncated count => exact tables.truncated count

theorem InStep.serveAll (tables : m.InStep) (requests : List Request) :
    (m.serveAll requests).InStep := by
  induction requests generalizing m with
  | nil => exact tables
  | cons request rest ih => exact ih (tables.serve request)

/-! ## Functions with a body -/

theorem function?_of_appended {g : Function} (known : (m.appended g).function? id = some f) :
    m.function? id = some f ∨ f = g := by
  rw [function?, appended, List.getElem?_append] at known
  split at known
  · exact Or.inl known
  · right
    obtain ⟨bound, here⟩ := List.getElem?_eq_some_iff.1 known
    rw [← here, List.getElem_singleton]

/-- A function with a body stays under its handle through one request. -/
theorem InStep.function?_serve (tables : m.InStep) (known : m.function? id = some f)
    (body : f.isDeclaration = false) (request : Request) :
    (m.serve request).function? id = some f := by
  rcases m.serve_cases request with same | served
  · rw [same]
    exact known
  · generalize m.serve request = next at served
    cases served with
    | declared name ty free => exact function?_appended_old known _
    | @defined other declared new there empty name =>
      have apart : other.index ≠ id.index := by
        intro same
        rw [function?, same] at there
        cases known.symm.trans there
        exact absurd empty (by simp [body])
      rw [function?, List.getElem?_set_ne apart]
      exact known
    | retracted ok =>
      obtain ⟨-, -, rfl⟩ := tables.retracted ok
      rcases function?_of_appended known with kept | rfl
      · exact kept
      · exact absurd (retract_ok.1 ok).2.2.1 (by simp [body])
    | labelled bytes => exact known
    | truncated count => exact known

theorem InStep.function?_serveAll (tables : m.InStep) (known : m.function? id = some f)
    (body : f.isDeclaration = false) (requests : List Request) :
    (m.serveAll requests).function? id = some f := by
  induction requests generalizing m with
  | nil => exact known
  | cons request rest ih =>
    exact ih (tables.serve request) (tables.function?_serve known body request)

/-! ## Names -/

/-- A name leads to the function that has it. -/
theorem InStep.functionNamed?_eq_some (tables : m.InStep) :
    m.functionNamed? name = some id ↔ ∃ f, m.function? id = some f ∧ f.name = name := by
  constructor
  · intro found
    obtain ⟨front, back, whole, -⟩ := List.lookup_eq_some_iff.1 found
    have entry : (name, id) ∈ m.names := by
      rw [whole]
      apply List.mem_append_right
      exact List.mem_cons_self
    rw [tables.indexed] at entry
    obtain ⟨i, bound, same⟩ := List.mem_mapIdx.1 entry
    obtain ⟨rfl, rfl⟩ := Prod.mk.inj same
    exact ⟨_, List.getElem?_eq_getElem bound, rfl⟩
  · rintro ⟨f, known, rfl⟩
    exact functionNamed?_of_function? tables.indexed tables.distinct known

theorem globalName_succ (index : Nat) : globalName (index + 1) = suffixed ".str" (index + 1) := by
  rw [globalName, if_neg (Nat.succ_ne_zero index), suffixed]
  apply String.toList_inj.1
  simp [toString]

/-- Constant data at different places has different names. -/
theorem globalName_injective : Function.Injective globalName := by
  have apart (index : Nat) : globalName 0 ≠ globalName (index + 1) := by
    intro same
    have lengths := congrArg String.length same
    rw [globalName_succ, suffixed, String.length_append, String.length_append] at lengths
    have short : (globalName 0).length = ".str".length := rfl
    have dot : ".".length = 1 := rfl
    omega
  intro i j same
  cases i with
  | zero =>
    cases j with
    | zero => rfl
    | succ j => exact absurd same (apart j)
  | succ i =>
    cases j with
    | zero => exact absurd same.symm (apart i)
    | succ j =>
      rw [globalName_succ, globalName_succ] at same
      exact NameSupply.suffixed_injective same

theorem InStep.globalNames_nodup (tables : m.InStep) : (m.globals.map (·.name)).Nodup := by
  rw [tables.numbered]
  exact List.nodup_range.map globalName_injective

theorem InStep.global?_name (tables : m.InStep) {i : Nat} {g : Global}
    (known : m.global? ⟨i⟩ = some g) : g.name = globalName i := by
  obtain ⟨bound, -⟩ := List.getElem?_eq_some_iff.1 known
  have names := congrArg (·[i]?) tables.numbered
  simp only [List.getElem?_map, List.getElem?_range bound, Option.map_some] at names
  rw [show m.globals[i]? = some g from known] at names
  exact Option.some_inj.1 names

end Module

/-! ## Defects -/

/-- The function that a defect was found in; a repeated name is a defect of the module. -/
def Defect.culprit? : Defect → Option String
  | .missingTerminator function _ => some function
  | .unknownBlock function _ => some function
  | .undefinedValue function _ => some function
  | .redefined function _ => some function
  | .notDominated function _ _ => some function
  | .illTyped function _ _ => some function
  | .duplicateFunction _ => none

namespace Function

variable {m : Module} {f : Function} {defect : Defect}

theorem checkTerminators_culprit (failed : f.checkTerminators = .error defect) :
    defect.culprit? = some f.name := by
  obtain ⟨block, -, failed⟩ := forM_error failed
  split at failed
  · cases failed
    rfl
  · split at failed
    · cases failed
      rfl
    · cases failed

theorem checkTypes_culprit (failed : f.checkTypes m = .error defect) :
    defect.culprit? = some f.name := by
  obtain ⟨block, -, failed⟩ := forM_error failed
  rcases except_bind_error.1 failed with failed | ⟨-, -, failed⟩
  · obtain ⟨inst, -, failed⟩ := forM_error failed
    dsimp only at failed
    split at failed
    · cases failed
    · cases failed
      rfl
  · split at failed
    · dsimp only at failed
      split at failed
      · cases failed
      · cases failed
        rfl
    · cases failed

theorem definitions_culprit (failed : f.definitions = .error defect) :
    defect.culprit? = some f.name := by
  rw [definitions] at failed
  generalize (f.params.map fun param => (param, none)) = known at failed
  generalize f.results = results at failed
  induction results generalizing known with
  | nil => cases failed
  | cons result rest ih =>
    rw [List.foldlM_cons] at failed
    rcases except_bind_error.1 failed with failed | ⟨known, -, failed⟩
    · dsimp only at failed
      split at failed
      · cases failed
        rfl
      · split at failed
        · cases failed
          rfl
        · cases failed
    · exact ih known failed

theorem checkDominance_culprit (failed : f.checkDominance = .error defect) :
    defect.culprit? = some f.name := by
  rcases except_bind_error.1 failed with failed | ⟨known, -, failed⟩
  · exact definitions_culprit failed
  · obtain ⟨⟨id, block⟩, -, failed⟩ := forM_error failed
    obtain ⟨use, -, failed⟩ := forM_error failed
    split at failed
    · cases failed
      rfl
    · cases failed
    · split at failed
      · cases failed
        rfl
      · cases failed

/-- A defect of a function names the function. -/
theorem verify_culprit (failed : f.verify m = .error defect) : defect.culprit? = some f.name := by
  by_cases empty : f.blocks = []
  · rw [verify, isDeclaration, empty] at failed
    cases failed
  · rw [verify_of_blocks empty] at failed
    rcases except_bind_error.1 failed with failed | ⟨-, -, failed⟩
    · exact checkTerminators_culprit failed
    · rcases except_bind_error.1 failed with failed | ⟨-, -, failed⟩
      · exact checkTypes_culprit failed
      · exact checkDominance_culprit failed

end Function

namespace Module

variable {m : Module}

theorem InStep.verify_ne_duplicate (tables : m.InStep) (name : String) :
    m.verify ≠ .error (.duplicateFunction name) := by
  have unique : repeatedName? m.functions [] = none :=
    repeatedName?_eq_none.2 ⟨tables.distinct, fun _ _ => List.not_mem_nil⟩
  intro failed
  rw [verify, unique] at failed
  obtain ⟨f, -, failed⟩ := forM_error failed
  cases Function.verify_culprit failed

/-! ## What callers rely on -/

/-- What the tables of a module promise about names, and what they promise about requests to
come. -/
structure Consistent (m : Module) : Prop where
  named : ∀ name id, m.functionNamed? name = some id ↔ ∃ f, m.function? id = some f ∧ f.name = name
  distinct : (m.functions.map (·.name)).Nodup
  unrepeated : ∀ name, m.verify ≠ .error (.duplicateFunction name)
  labelled : ∀ i g, m.global? ⟨i⟩ = some g → g.name = if i = 0 then ".str" else s!".str.{i}"
  labels : (m.globals.map (·.name)).Nodup
  refused : ∀ request cause, m.answer request = .error cause → m.serve request = m
  kept : ∀ id f, m.function? id = some f → f.blocks ≠ [] →
    ∀ requests, (m.serveAll requests).function? id = some f
  retracted : ∀ name ty, m.functionNamed? name = none → ∃ id declared,
    m.declare name ty = .ok (id, declared) ∧
      declared.retract id = .ok (.declare name ty, m)

/-- A declaration of a free name can be taken back, and that leaves the module as it was. -/
theorem InStep.declare_retract (tables : m.InStep) {name : String} (ty : FunctionTy)
    (free : m.functionNamed? name = none) :
    ∃ id declared, m.declare name ty = .ok (id, declared) ∧
      declared.retract id = .ok (.declare name ty, m) := by
  refine ⟨⟨m.functions.length⟩, m.appended (.declare name ty), declare_ok.2 ⟨free, rfl, rfl⟩, ?_⟩
  have back := retract_appended (f := .declare name ty) tables.indexed rfl free []
  simp only [withGlobals, List.append_nil] at back
  exact back

/-- Whatever is asked of a module, its tables stay consistent. -/
theorem serveAll_consistent (label : String) (requests : List Request) :
    ((empty label).serveAll requests).Consistent := by
  have tables := (inStep_empty label).serveAll requests
  refine {
    named := fun name id => tables.functionNamed?_eq_some
    distinct := tables.distinct
    unrepeated := tables.verify_ne_duplicate
    labelled := fun i g known => tables.global?_name known
    labels := tables.globalNames_nodup
    refused := ?_
    kept := ?_
    retracted := fun name ty free => tables.declare_retract ty free }
  · intro request cause refusal
    rw [serve, refusal]
    rfl
  · intro id f known body later
    apply tables.function?_serveAll known
    simpa [Function.isDeclaration] using body

end Module

end SsaLowering.Ir
