/-
# SsaLowering.Proofs.Ir.LocalNames -- names in the text of a function lead to one thing

A value is written by its name, if it has one, and by its number otherwise, and both
after the same sign.  So besides the names being distinct none of them may look like a
number.  A builder sees to the first: it gives away no name twice, also when it goes on
with a function that another one has finished.  The second it leaves to its user, but a
suffix never makes a number of a name (`NameSupply.choose_not_numeral`).

`LocalNames.Change` says once what an operation of a builder does to the names,
`LocalNames.Apart` is what every change keeps, and `Construction.run_names` what it
means for the text: what is written for a value tells which one it is, and so does the
label of a block.
-/
import SsaLowering.Ir.Listing
import SsaLowering.Proofs.Ir.Construction

namespace SsaLowering.Ir

set_option autoImplicit false

/-! ## Numbers as names -/

/-- A name that consists of decimal digits. -/
def IsNumeral (name : String) : Prop := name ≠ "" ∧ ∀ c ∈ name.toList, c.isDigit

instance (name : String) : Decidable (IsNumeral name) := inferInstanceAs (Decidable (_ ∧ _))

theorem isNumeral_number (n : Nat) : IsNumeral (toString n) := by
  constructor
  · intro empty
    rw [Nat.toString_eq_ofList_toDigits, String.ofList_eq_empty_iff] at empty
    exact Nat.toDigits_ne_nil empty
  · intro c member
    rw [Nat.toString_eq_ofList_toDigits, String.toList_ofList] at member
    exact Nat.isDigit_of_mem_toDigits (by decide) (by decide) member

theorem not_isNumeral_suffixed (base : String) (k : Nat) : ¬ IsNumeral (suffixed base k) := by
  intro numeral
  have dot : '.' ∈ (suffixed base k).toList := by
    simp [suffixed]
  exact absurd (numeral.2 '.' dot) (by decide)

/-- The name that is given for a name is a number only if this one is. -/
theorem NameSupply.choose_not_numeral (s : NameSupply) {base : String} (word : ¬ IsNumeral base) :
    ¬ IsNumeral (s.choose base) := by
  unfold choose
  split
  · exact word
  · split
    · exact not_isNumeral_suffixed _ _
    · exact word

/-! ## The names in a function -/

section Names

variable {α β : Type} {view : α → β} {change : α → α}

/-- A change of one element is not seen where it does not matter. -/
theorem map_modify_same (same : ∀ a, view (change a) = view a) (l : List α) (i : Nat) :
    (l.modify i change).map view = l.map view := by
  apply List.ext_getElem?
  intro k
  rw [List.getElem?_map, List.getElem?_map, List.getElem?_modify]
  cases l[k]? with
  | none => rfl
  | some a =>
    show some (view (if i = k then change a else a)) = some (view a)
    split
    · rw [same]
    · rfl

/-- An element that is changed into one of a given view. -/
theorem map_modify_set {v : β} (new : ∀ a, view (change a) = v) (l : List α) (i : Nat) :
    (l.modify i change).map view = (l.map view).set i v := by
  apply List.ext_getElem?
  intro k
  rw [List.getElem?_map, List.getElem?_set, List.getElem?_map, List.getElem?_modify,
    List.length_map]
  by_cases here : i = k
  · subst here
    cases known : l[i]? with
    | none => simp [List.getElem?_eq_none_iff.1 known]
    | some a => simp [(List.getElem?_eq_some_iff.1 known).1, new]
  · simp [here]

namespace Function

def labels (f : Function) : List String := f.blocks.map (·.name)

/-- The name of each value, if it has one. -/
def valueNames (f : Function) : List (Option String) := f.values.map (·.name)

variable (f : Function)

@[simp] theorem labels_push (block : BlockId) (action : Action) (ty : Option Ty) :
    (f.push block action ty).labels = f.labels := by
  rw [labels, push, map_modify_same]
  · rfl
  · exact fun _ => rfl

@[simp] theorem labels_close (block : BlockId) (terminator : Terminator) :
    (f.close block terminator).labels = f.labels := by
  rw [labels, close, map_modify_same]
  · rfl
  · exact fun _ => rfl

@[simp] theorem labels_reserve (ty : Ty) (name : String) :
    (f.reserve ty name).labels = f.labels := by
  rw [labels, reserve, map_modify_same]
  · rfl
  · exact fun _ => rfl

@[simp] theorem valueNames_push (block : BlockId) (action : Action) (ty : Option Ty) :
    (f.push block action ty).valueNames = f.valueNames ++ (ty.map fun _ => none).toList := by
  rw [valueNames, push, List.map_append]
  cases ty <;> rfl

@[simp] theorem valueNames_reserve (ty : Ty) (name : String) :
    (f.reserve ty name).valueNames = f.valueNames ++ [some name] :=
  List.map_append

@[simp] theorem valueNames_rename (value : ValueId) (name : String) :
    (f.rename value name).valueNames = f.valueNames.set value.index (some name) := by
  rw [valueNames, rename, map_modify_set]
  · rfl
  · exact fun _ => rfl

@[simp] theorem labels_addBlock (label : String) :
    (f.addBlock label).labels = f.labels ++ [label] :=
  List.map_append

end Function

end Names

/-! ## Changes of the names -/

/-- The names in a function under construction, and those that its builder takes to be in use. -/
structure LocalNames where
  labels : List String
  values : List (Option String)
  usedLabels : List String
  usedNames : List String

def Builder.localNames (b : Builder) : LocalNames :=
  ⟨b.function.labels, b.function.valueNames, b.blockNames.used, b.valueNames.used⟩

/-- What an operation can do to the names. -/
inductive LocalNames.Change (n : LocalNames) : LocalNames → Prop
  | same : Change n n
  | label {label : String} (free : label ∉ n.usedLabels) :
      Change n { n with labels := n.labels ++ [label], usedLabels := label :: n.usedLabels }
  | value : Change n { n with values := n.values ++ [none] }
  | slot {name : String} (free : name ∉ n.usedNames) (word : ¬ IsNumeral name) :
      Change n { n with values := n.values ++ [some name], usedNames := name :: n.usedNames }
  | name {i : Nat} {name : String} (unnamed : n.values[i]? = some none)
      (free : name ∉ n.usedNames) (word : ¬ IsNumeral name) :
      Change n { n with values := n.values.set i (some name), usedNames := name :: n.usedNames }
  /-- A new builder takes those names to be in use that are there. -/
  | recount : Change n { n with usedLabels := n.labels, usedNames := n.values.reduceOption }

namespace Builder

variable {b b' : Builder} {name : String}

theorem changes_emit {action : Action} {signature : Option FunctionTy} {result : Option ValueId}
    (done : b.emit action signature = .ok (result, b')) : b.localNames.Change b'.localNames := by
  obtain ⟨block, ty, -, -, -, rfl⟩ := Builder.emit_ok.1 done
  simp only [localNames, Function.labels_push, Function.valueNames_push]
  cases ty with
  | none =>
    simp only [Option.map_none, Option.toList_none, List.append_nil]
    exact .same
  | some ty => exact .value

theorem changes_terminate {terminator : Terminator} (done : b.terminate terminator = .ok b') :
    b.localNames.Change b'.localNames := by
  obtain ⟨block, -, -, rfl⟩ := Builder.terminate_ok.1 done
  simp only [localNames, Function.labels_close]
  exact .same

theorem changes_appendBlock (b : Builder) (name : String) :
    b.localNames.Change (b.appendBlock name).2.localNames := by
  have added : (b.appendBlock name).2.localNames =
      { b.localNames with
        labels := b.localNames.labels ++ [b.blockNames.choose name]
        usedLabels := b.blockNames.choose name :: b.localNames.usedLabels } := by
    rw [localNames, localNames, ← NameSupply.fresh_used, ← NameSupply.fresh_fst,
      ← Function.labels_addBlock]
    rfl
  rw [added]
  exact .label (b.blockNames.choose_not_mem name)

theorem changes_nameValue {value : ValueId} {named : Bool} (word : ¬ IsNumeral name)
    (done : b.nameValue value name = .ok (named, b')) : b.localNames.Change b'.localNames := by
  obtain ⟨data, known, ⟨-, -, rfl⟩ | ⟨unnamed, -, rfl⟩⟩ := Builder.nameValue_ok.1 done
  · exact .same
  · simp only [localNames, Function.valueNames_rename, NameSupply.fresh_used]
    refine LocalNames.Change.name (n := b.localNames) ?_ (b.valueNames.choose_not_mem name)
      (b.valueNames.choose_not_numeral word)
    show (b.function.values.map (·.name))[value.index]? = some none
    rw [List.getElem?_map, show b.function.values[value.index]? = some data from known,
      Option.map_some, unnamed]

theorem changes_alloca {ty : Ty} {ptr : ValueId} (word : ¬ IsNumeral name)
    (done : b.alloca ty name = .ok (ptr, b')) : b.localNames.Change b'.localNames := by
  obtain ⟨-, -, -, rfl⟩ := Builder.alloca_ok.1 done
  simp only [localNames, Function.labels_reserve, Function.valueNames_reserve,
    NameSupply.fresh_used]
  exact .slot (n := b.localNames) (b.valueNames.choose_not_mem name)
    (b.valueNames.choose_not_numeral word)

theorem changes_rewrap (b : Builder) :
    b.localNames.Change (ofFunction b.function).localNames := by
  have recounted : (ofFunction b.function).localNames =
      { b.localNames with
        usedLabels := b.localNames.labels
        usedNames := b.localNames.values.reduceOption } := by
    simp only [localNames, ofFunction, NameSupply.ofUsed, Function.labels, Function.valueNames,
      List.reduceOption, List.filterMap_map, Function.comp_def, id]
  rw [recounted]
  exact .recount

end Builder

/-- The name that an operation asks for. -/
def Operation.valueName? : Operation → Option String
  | nameValue _ name | alloca _ name => some name
  | _ => none

namespace Construction

variable {c : Construction} {op : Operation}

theorem changes_emits (c : Construction) (action : Action) (signature : Option FunctionTy) :
    c.builder.localNames.Change
      (c.emits action signature (c.builder.emit action signature)).builder.localNames := by
  cases outcome : c.builder.emit action signature with
  | error cause => exact .same
  | ok made => exact Builder.changes_emit outcome

theorem changes_after_terminate (c : Construction) (terminator : Terminator) :
    c.builder.localNames.Change
      (c.after (c.builder.terminate terminator)).builder.localNames := by
  cases outcome : c.builder.terminate terminator with
  | error cause => exact .same
  | ok b => exact Builder.changes_terminate outcome

/-- What every operation does to the names, where it asks for no number as a name. -/
theorem perform_localNames (c : Construction)
    (word : ∀ wanted ∈ op.valueName?, ¬ IsNumeral wanted) :
    c.builder.localNames.Change (c.perform op).builder.localNames := by
  cases op with
  | appendBlock name => exact c.builder.changes_appendBlock name
  | positionAtEnd block =>
    rw [perform]
    cases outcome : c.builder.positionAtEnd block with
    | error cause => exact .same
    | ok b =>
      obtain ⟨-, rfl⟩ := Builder.positionAtEnd_ok.1 outcome
      exact .same
  | nameValue value name =>
    rw [perform]
    cases outcome : c.builder.nameValue value name with
    | error cause => exact .same
    | ok made => exact Builder.changes_nameValue (word name rfl) outcome
  | alloca ty name =>
    rw [perform]
    cases outcome : c.builder.alloca ty name with
    | error cause => exact .same
    | ok made => exact Builder.changes_alloca (word name rfl) outcome
  | load ty ptr =>
    rw [perform, Builder.load, emitValue_eq _ fun f => checkAction_load_ne f ty ptr]
    exact c.changes_emits _ _
  | store value ptr =>
    rw [perform, store_eq]
    exact c.changes_emits _ _
  | fadd lhs rhs =>
    rw [perform, Builder.fadd, emitValue_eq _ fun f => checkAction_fadd_ne f lhs rhs]
    exact c.changes_emits _ _
  | call callee signature args => exact c.changes_emits _ _
  | br target => exact c.changes_after_terminate _
  | condBr cond thenBlock elseBlock => exact c.changes_after_terminate _
  | ret value => exact c.changes_after_terminate _
  | unreachable => exact c.changes_after_terminate _
  | rewrap => exact c.builder.changes_rewrap

end Construction

/-! ## What every change keeps -/

namespace LocalNames

/-- The value at `i` is called `name`. -/
def Calls (n : LocalNames) (i : Nat) (name : String) : Prop := n.values[i]? = some (some name)

/-- Names that lead to one block or value each, none of them a number, and all of them in use. -/
structure Apart (n : LocalNames) : Prop where
  labels : n.labels.Nodup
  values : ∀ i j name, n.Calls i name → n.Calls j name → i = j
  words : ∀ i name, n.Calls i name → ¬ IsNumeral name
  usedLabels : ∀ label ∈ n.labels, label ∈ n.usedLabels
  usedNames : ∀ i name, n.Calls i name → name ∈ n.usedNames

variable {n n' : LocalNames} {values : List (Option String)} {name text : String} {i : Nat}

/-- A change after which no value is called otherwise than before. -/
theorem Apart.keep (apart : n.Apart)
    (old : ∀ i text, Calls { n with values } i text → n.Calls i text) :
    Apart { n with values } where
  labels := apart.labels
  values := fun i j text here there => apart.values i j text (old i text here) (old j text there)
  words := fun i text here => apart.words i text (old i text here)
  usedLabels := apart.usedLabels
  usedNames := fun i text here => apart.usedNames i text (old i text here)

/-- A change after which the value at `k` has a name that was free. -/
theorem Apart.give (apart : n.Apart) {k : Nat} (free : name ∉ n.usedNames)
    (word : ¬ IsNumeral name)
    (given : ∀ i text, Calls { n with values } i text → (i = k ∧ text = name) ∨ n.Calls i text) :
    Apart { n with values, usedNames := name :: n.usedNames } where
  labels := apart.labels
  usedLabels := apart.usedLabels
  values := by
    intro i j text here there
    rcases given i text here with ⟨rfl, rfl⟩ | old
    · rcases given j text there with ⟨rfl, -⟩ | old'
      · rfl
      · exact absurd (apart.usedNames j text old') free
    · rcases given j text there with ⟨-, rfl⟩ | old'
      · exact absurd (apart.usedNames i text old) free
      · exact apart.values i j text old old'
  words := by
    intro i text here
    rcases given i text here with ⟨-, rfl⟩ | old
    · exact word
    · exact apart.words i text old
  usedNames := by
    intro i text here
    rcases given i text here with ⟨-, rfl⟩ | old
    · exact List.mem_cons_self
    · exact List.mem_cons_of_mem _ (apart.usedNames i text old)

/-- The names when a value is added. -/
theorem calls_concat {entry : Option String}
    (here : Calls { n with values := n.values ++ [entry] } i text) :
    (i = n.values.length ∧ entry = some text) ∨ n.Calls i text := by
  have known : (n.values ++ [entry])[i]? = some (some text) := here
  rcases Nat.lt_trichotomy i n.values.length with before | rfl | after
  · rw [List.getElem?_append_left before] at known
    exact Or.inr known
  · rw [List.getElem?_concat_length] at known
    exact Or.inl ⟨rfl, Option.some.inj known⟩
  · rw [List.getElem?_eq_none (by simpa using after)] at known
    cases known

/-- The names when a value is called anew. -/
theorem calls_set {k : Nat} (here : Calls { n with values := n.values.set k (some name) } i text) :
    (i = k ∧ text = name) ∨ n.Calls i text := by
  have known : (n.values.set k (some name))[i]? = some (some text) := here
  rw [List.getElem?_set] at known
  split at known
  · rename_i same
    split at known
    · exact Or.inl ⟨same.symm, (Option.some.inj (Option.some.inj known)).symm⟩
    · cases known
  · exact Or.inr known

theorem Apart.change (apart : n.Apart) (change : n.Change n') : n'.Apart := by
  cases change with
  | same => exact apart
  | @label label free =>
    have distinct : (n.labels ++ [label]).Nodup := by
      rw [← List.concat_eq_append]
      exact apart.labels.concat fun member => free (apart.usedLabels label member)
    refine ⟨distinct, apart.values, apart.words, fun other member => ?_, apart.usedNames⟩
    rcases List.mem_append.1 member with old | new
    · exact List.mem_cons_of_mem _ (apart.usedLabels other old)
    · exact List.mem_cons.2 (Or.inl (List.mem_singleton.1 new))
  | value =>
    refine apart.keep fun i text here => ?_
    rcases calls_concat here with ⟨-, absent⟩ | old
    · cases absent
    · exact old
  | slot free word =>
    refine apart.give (k := n.values.length) free word fun i text here => ?_
    exact (calls_concat here).imp_left fun new => ⟨new.1, (Option.some.inj new.2).symm⟩
  | name unnamed free word => exact apart.give free word fun i text here => calls_set here
  | recount =>
    refine ⟨apart.labels, apart.values, apart.words, fun _ member => member, fun i name here => ?_⟩
    exact List.mem_filterMap.2 ⟨some name, List.mem_of_getElem? here, rfl⟩

end LocalNames

/-! ## What is written for values and blocks -/

/-- A value is written by its name, or by its number. -/
theorem Builder.valueText_cases (b : Builder) (id : ValueId) :
    (∃ name, b.localNames.Calls id.index name ∧ b.function.valueText id = "%" ++ name) ∨
      b.function.valueText id = "%" ++ toString id.index := by
  cases named : (b.function.value? id).bind (·.name) with
  | some name =>
    left
    refine ⟨name, ?_, by rw [Function.valueText, named]⟩
    obtain ⟨data, known, same⟩ := Option.bind_eq_some_iff.1 named
    show (b.function.values.map (·.name))[id.index]? = some (some name)
    rw [List.getElem?_map, show b.function.values[id.index]? = some data from known,
      Option.map_some, same]
  | none =>
    right
    rw [Function.valueText, named]
    simp [ValueId.text]
    rfl

theorem toString_injective {j k : Nat} (same : toString j = toString k) : j = k := by
  have read := congrArg (fun text => Nat.ofDigitChars 10 text.toList 0) same
  simpa [Nat.toString_eq_ofList_toDigits] using read

/-- What is written for a value leads to it, where the names are apart. -/
theorem LocalNames.Apart.valueText_injective {b : Builder} (apart : b.localNames.Apart) :
    b.function.valueText.Injective := by
  -- a name is not what is written for a value without one
  have differ : ∀ (id id' : ValueId) (name : String), b.localNames.Calls id.index name →
      b.function.valueText id = "%" ++ name →
      b.function.valueText id' = "%" ++ toString id'.index →
      b.function.valueText id ≠ b.function.valueText id' := by
    intro id id' name called text text' same
    rw [text, text', String.append_right_inj] at same
    exact apart.words id.index name called (same ▸ isNumeral_number _)
  rintro ⟨i⟩ ⟨j⟩ same
  rcases b.valueText_cases ⟨i⟩ with ⟨name, called, text⟩ | text
  · rcases b.valueText_cases ⟨j⟩ with ⟨name', called', text'⟩ | text'
    · rw [text, text', String.append_right_inj] at same
      subst same
      rw [apart.values i j name called called']
    · exact absurd same (differ _ _ _ called text text')
  · rcases b.valueText_cases ⟨j⟩ with ⟨name', called', text'⟩ | text'
    · exact absurd same.symm (differ _ _ _ called' text' text)
    · rw [text, text', String.append_right_inj] at same
      exact congrArg ValueId.mk (toString_injective same)

/-- A label leads to its block, where no two blocks have one. -/
theorem Function.blockNamed?_label {f : Function} (distinct : f.labels.Nodup) {id : BlockId}
    {block : BasicBlock} (known : f.block? id = some block) :
    f.blockNamed? block.name = some id := by
  obtain ⟨bound, here⟩ := List.getElem?_eq_some_iff.1 known
  have first : f.blocks.findIdx? (·.name == block.name) = some id.index := by
    rw [List.findIdx?_eq_some_iff_getElem]
    refine ⟨bound, by simp [here], fun j before same => ?_⟩
    have earlier : j < f.blocks.length := by omega
    have alike : f.labels[id.index]? = f.labels[j]? := by
      rw [labels, List.getElem?_map, List.getElem?_map, List.getElem?_eq_getElem bound,
        List.getElem?_eq_getElem earlier, here, Option.map_some, Option.map_some,
        beq_iff_eq.1 same]
    have := (List.getElem?_inj (by rwa [labels, List.length_map]) distinct).1 alike
    omega
  rw [blockNamed?, first]
  rfl

namespace Construction

/-- A run of operations keeps the names apart. -/
theorem apart_run {ops : List Operation} {c : Construction} (apart : c.builder.localNames.Apart)
    (words : ∀ op ∈ ops, ∀ wanted ∈ op.valueName?, ¬ IsNumeral wanted) :
    (c.run ops).builder.localNames.Apart := by
  induction ops generalizing c with
  | nil => exact apart
  | cons op ops ih =>
    obtain ⟨here, rest⟩ := List.forall_mem_cons.1 words
    exact ih (apart.change (c.perform_localNames here)) rest

theorem apart_start (name : String) (ty : FunctionTy) :
    (start name ty).builder.localNames.Apart := by
  have unnamed : ∀ i text, ¬ (start name ty).builder.localNames.Calls i text := by
    intro i text called
    have member : some text ∈ (Function.declare name ty).valueNames := List.mem_of_getElem? called
    simp [Function.valueNames, Function.declare] at member
  refine ⟨List.nodup_nil, fun i _ text called => absurd called (unnamed i text),
    fun i text called => absurd called (unnamed i text), ?_,
    fun i text called => absurd called (unnamed i text)⟩
  intro _ member
  cases member

/-- Whatever a builder is asked to do, in any order, leads to a function in which what is written
for a value leads to this value alone, no two blocks have one label, and the label of a block
leads to it, if no value was to be called by a number. -/
theorem run_names (name : String) (ty : FunctionTy) (ops : List Operation)
    (words : ∀ op ∈ ops, ∀ wanted ∈ op.valueName?, ¬ IsNumeral wanted) :
    ((start name ty).run ops).builder.function.valueText.Injective ∧
      ((start name ty).run ops).builder.function.labels.Nodup ∧
      ∀ id block, ((start name ty).run ops).builder.function.block? id = some block →
        ((start name ty).run ops).builder.function.blockNamed? block.name = some id := by
  have apart := apart_run (apart_start name ty) words
  exact ⟨apart.valueText_injective, apart.labels,
    fun _ _ known => Function.blockNamed?_label apart.labels known⟩

/-- The same name is asked for again and again, an empty one and one that looks like a variant,
also from a second builder; one value stays without a name. -/
def namingOperations : List Operation := [
  .nameValue ⟨0⟩ "x.1", .appendBlock "b", .appendBlock "b", .positionAtEnd ⟨0⟩, .alloca .ptr "x",
  .alloca .ptr "x", .load .ptr (.value ⟨1⟩), .rewrap, .appendBlock "b.1", .alloca .ptr "",
  .alloca .ptr "", .alloca .ptr "x", .positionAtEnd ⟨1⟩, .load .ptr (.value ⟨1⟩),
  .nameValue ⟨7⟩ "x.1"]

/-- What is written for the values of the sample, and its labels. -/
theorem run_names_sample :
    (∀ op ∈ namingOperations, ∀ wanted ∈ op.valueName?, ¬ IsNumeral wanted) ∧
    ((start "f" ⟨[.ptr], .void⟩).run namingOperations).builder.function.valueText.Injective ∧
    (List.range 8).map (fun i =>
        ((start "f" ⟨[.ptr], .void⟩).run namingOperations).builder.function.valueText ⟨i⟩) =
      ["%x.1", "%x", "%x.2", "%3", "%", "%.1", "%x.3", "%x.1.1"] ∧
    ((start "f" ⟨[.ptr], .void⟩).run namingOperations).builder.function.labels =
      ["b", "b.1", "b.1.1"] ∧
    ((start "f" ⟨[.ptr], .void⟩).run namingOperations).builder.function.blockNamed? "b.1" =
      some ⟨1⟩ := by
  have words : ∀ op ∈ namingOperations, ∀ wanted ∈ op.valueName?, ¬ IsNumeral wanted := by
    simp [namingOperations, Operation.valueName?, IsNumeral]
  -- the operations are run once for all three
  have written : (fun f : Function => ((List.range 8).map (fun i => f.valueText ⟨i⟩), f.labels,
      f.blockNamed? "b.1"))
        ((start "f" ⟨[.ptr], .void⟩).run namingOperations).builder.function =
      (["%x.1", "%x", "%x.2", "%3", "%", "%.1", "%x.3", "%x.1.1"], ["b", "b.1", "b.1.1"],
        some ⟨1⟩) := by cbv
  obtain ⟨texts, rest⟩ := Prod.mk.inj written
  exact ⟨words, (run_names _ _ _ words).1, texts, Prod.mk.inj rest⟩

end Construction

end SsaLowering.Ir
