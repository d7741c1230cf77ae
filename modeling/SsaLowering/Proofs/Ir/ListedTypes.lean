/-
# SsaLowering.Proofs.Ir.ListedTypes -- the types in the text of a module

The structs that a listing declares are looked for in the signatures and values of the
functions, in what instructions reserve and read, and in the constants that they read.  The
text names types in other places too: behind the callee of a call, before the operand of a
terminator and inside of constants.  In an accepted module they are no other types, if the
fields of constants have none (`Module.rows_types`): a callee is a function of the module, a
condition is a `bool`, and what is returned has the return type.
-/
import SsaLowering.Proofs.Ir.Mentions
import SsaLowering.Proofs.Ir.Module
import SsaLowering.Proofs.Ir.Rows
import SsaLowering.Proofs.Ir.Verification

namespace SsaLowering.Ir

set_option autoImplicit false

variable {m : Module} {f : Function} {P : Ty → Prop}

/-! ## Types of a function -/

namespace Function

theorem forall_types :
    (∀ ty ∈ f.types, P ty) ↔
      (∀ ty ∈ f.ty.params, P ty) ∧ P f.ty.ret ∧ (∀ data ∈ f.values, P data.ty) ∧
        ∀ inst ∈ f.instructions, ∀ ty ∈ inst.types, P ty := by
  simp only [types, List.forall_mem_append, List.forall_mem_singleton, List.forall_mem_map,
    List.forall_mem_flatMap, and_assoc]

/-- The type of an operand is that of a value or of a constant, or that of addresses. -/
theorem operandTy?_cases {operand : Operand} {ty : Ty} (typed : f.operandTy? operand = some ty) :
    (∃ data ∈ f.values, data.ty = ty) ∨ (∃ c, operand = .constant c ∧ c.ty = ty) ∨ ty = .ptr := by
  cases operand with
  | value id =>
    obtain ⟨data, known, same⟩ := Option.map_eq_some_iff.1 typed
    exact Or.inl ⟨data, List.mem_of_getElem? known, same⟩
  | constant c => exact Or.inr (Or.inl ⟨c, rfl, Option.some.inj typed⟩)
  | function id => exact Or.inr (Or.inr (Option.some.inj typed).symm)

theorem operandTy?_of_operandTy {operand : Operand} {ty : Ty}
    (typed : f.operandTy operand = .ok ty) : f.operandTy? operand = some ty := by
  cases operand with
  | value id =>
    unfold operandTy at typed
    cases known : f.value? id with
    | none =>
      simp only [known] at typed
      cases typed
    | some data =>
      simp only [known] at typed
      cases typed
      simp [operandTy?, known]
  | constant c =>
    cases typed
    rfl
  | function id =>
    cases typed
    rfl

/-- The operand of a terminator that passes its check is a condition, or what is returned. -/
theorem operandTy_of_checkTerminator {terminator : Terminator}
    (checked : f.checkTerminator terminator = .ok ()) :
    ∀ operand ∈ terminator.operands,
      f.operandTy operand = .ok .bool ∨ f.operandTy operand = .ok f.returnTy := by
  unfold checkTerminator at checked
  split at checked
  · exact absurd checked except_throw_ok
  · cases terminator with
    | condBr cond thenBlock elseBlock =>
      exact List.forall_mem_singleton.2 (Or.inl (expectTy_ok.1 checked))
    | ret value =>
      cases value with
      | none => nofun
      | some value => exact List.forall_mem_singleton.2 (Or.inr (expectTy_ok.1 checked))
    | _ => nofun

end Function

/-! ## Types in the rows of a function -/

namespace Module

/-- The type and the inside of an operand. -/
structure ShowsOperand (m : Module) (f : Function) (P : Ty → Prop) (operand : Operand) : Prop where
  typed : ∀ ty, f.operandTy? operand = some ty → P ty
  inside : (m.operandRow f operand).Types P

theorem ShowsOperand.typedRow {operand : Operand} (shows : m.ShowsOperand f P operand) :
    (m.typedRow f operand).Types P := by
  rw [Module.typedRow, Row.types_append, Row.types_word]
  refine ⟨?_, shows.inside⟩
  cases typed : f.operandTy? operand with
  | none => simp [typeRow]
  | some ty => simpa [typeRow] using shows.typed ty typed

/-- What a function and the functions around it have to do with types of a kind. -/
structure Shows (m : Module) (f : Function) (P : Ty → Prop) : Prop where
  types : ∀ ty ∈ f.types, P ty
  plain : ∀ ty, ty.isPlain → P ty
  returned : ∀ id signature, m.signature? id = some signature → P signature.ret
  constants : ∀ c, .constant c ∈ f.mentions → (m.constantRow c).Types P
  verified : f.verify m = .ok ()

namespace Shows

variable (shows : m.Shows f P)
include shows

theorem operandRow {operand : Operand} (mentioned : operand ∈ f.mentions) :
    (m.operandRow f operand).Types P := by
  cases operand with
  | constant c => exact shows.constants c mentioned
  | _ => simp [Module.operandRow]

/-- An operand of an instruction. -/
theorem operand {inst : Instruction} (among : inst ∈ f.instructions) {operand : Operand}
    (read : operand ∈ inst.action.operands) : m.ShowsOperand f P operand := by
  obtain ⟨block, member, here⟩ := List.mem_flatMap.1 among
  refine ⟨fun ty typed => ?_, shows.operandRow ?_⟩
  · obtain ⟨-, -, values, instructions⟩ := Function.forall_types.1 shows.types
    rcases Function.operandTy?_cases typed with ⟨data, known, rfl⟩ | ⟨c, rfl, rfl⟩ | rfl
    · exact values data known
    · refine instructions inst among _ (List.mem_append_right _ (List.mem_map_of_mem ?_))
      exact List.mem_filterMap.2 ⟨_, read, rfl⟩
    · exact shows.plain _ rfl
  · refine List.mem_flatMap.2 ⟨block, member, List.mem_append_left _ ?_⟩
    exact List.mem_flatMap.2 ⟨inst, here, List.mem_append_right _ read⟩

theorem actionRow {inst : Instruction} (among : inst ∈ f.instructions) :
    (m.actionRow f inst.action).Types P := by
  have operands : ∀ operand ∈ inst.action.operands, m.ShowsOperand f P operand :=
    fun _ read => shows.operand among read
  have own := (Function.forall_types.1 shows.types).2.2.2 inst among
  unfold Instruction.types at own
  cases does : inst.action with
  | alloca ty =>
    rw [does] at own
    simpa [Module.actionRow] using own ty (List.mem_append_left _ (List.mem_singleton_self _))
  | load ty ptr =>
    rw [does] at operands own
    have address := (operands ptr (List.mem_singleton_self _)).typedRow
    simpa [Module.actionRow] using
      And.intro (own ty (List.mem_append_left _ (List.mem_singleton_self _))) address
  | store value ptr =>
    rw [does] at operands
    have stored := (operands value (by simp [Action.operands])).typedRow
    have address := (operands ptr (by simp [Action.operands])).typedRow
    simpa [Module.actionRow] using And.intro stored address
  | fadd lhs rhs =>
    rw [does] at operands
    have left := (operands lhs (by simp [Action.operands])).typedRow
    have right := (operands rhs (by simp [Action.operands])).inside
    simpa [Module.actionRow] using And.intro left right
  | call callee args =>
    rw [does] at operands
    have rows : ∀ row ∈ args.map (m.typedRow f), row.Types P :=
      List.forall_mem_map.2 fun arg member => (operands arg member).typedRow
    have ret : (typeRow ((m.signature? callee).map (·.ret))).Types P := by
      cases known : m.signature? callee with
      | none => simp [typeRow]
      | some signature => simpa [typeRow] using shows.returned callee signature known
    simpa [Module.actionRow] using And.intro ret (Row.types_commaSeparated rows)

theorem instructionRow {inst : Instruction} (among : inst ∈ f.instructions) :
    (m.instructionRow f inst).Types P := by
  have action := shows.actionRow among
  unfold Module.instructionRow
  split
  · simpa using action
  · exact action

theorem terminatorRow {block : BasicBlock} (member : block ∈ f.blocks) {terminator : Terminator}
    (ended : block.terminator = some terminator) : (m.terminatorRow f terminator).Types P := by
  have checked : f.checkTerminator terminator = .ok () := by
    have verified := shows.verified
    rw [Function.verify_of_blocks (List.ne_nil_of_mem member), except_seq_ok, except_seq_ok]
      at verified
    exact (Function.checkTypes_ok.1 verified.2.1 block member).2 terminator ended
  have operands : ∀ operand ∈ terminator.operands, m.ShowsOperand f P operand := by
    intro operand read
    refine ⟨fun ty typed => ?_, shows.operandRow ?_⟩
    · rcases Function.operandTy_of_checkTerminator checked operand read with known | known
      · cases typed.symm.trans (Function.operandTy?_of_operandTy known)
        exact shows.plain _ rfl
      · cases typed.symm.trans (Function.operandTy?_of_operandTy known)
        exact (Function.forall_types.1 shows.types).2.1
    · refine List.mem_flatMap.2 ⟨block, member, List.mem_append_right _ ?_⟩
      rw [ended]
      exact List.mem_flatMap.2 ⟨terminator, List.mem_singleton_self _, read⟩
  cases terminator with
  | condBr cond thenBlock elseBlock =>
    simpa [Module.terminatorRow] using (operands cond (List.mem_singleton_self _)).typedRow
  | ret value =>
    cases value with
    | none => simp [Module.terminatorRow]
    | some value =>
      simpa [Module.terminatorRow] using (operands value (List.mem_singleton_self _)).typedRow
  | _ => simp [Module.terminatorRow]

theorem blockRows {block : BasicBlock} (member : block ∈ f.blocks) :
    ∀ row ∈ m.blockRows f block, row.Types P := by
  rw [Module.blockRows, List.forall_mem_cons, List.forall_mem_map, List.forall_mem_append,
    List.forall_mem_map]
  refine ⟨by simp, fun inst here => ?_, fun row there => ?_⟩
  · rw [Row.types_word]
    exact shows.instructionRow (List.mem_flatMap.2 ⟨block, member, here⟩)
  · rw [Row.types_word]
    obtain ⟨terminator, ended, rfl⟩ := Option.map_eq_some_iff.1 (Option.mem_toList.1 there)
    exact shows.terminatorRow member ended

theorem functionRows : ∀ row ∈ m.functionRows f, row.Types P := by
  obtain ⟨params, ret, -, -⟩ := Function.forall_types.1 shows.types
  unfold Module.functionRows
  split
  · refine List.forall_mem_singleton.2 ?_
    have headers : ∀ row ∈ f.ty.params.map fun ty => [Piece.type ty], Row.Types P row :=
      List.forall_mem_map.2 fun ty member => by simpa using params ty member
    simpa [Function.returnTy] using And.intro ret (Row.types_commaSeparated headers)
  · rw [List.cons_append, List.forall_mem_cons, List.forall_mem_append]
    refine ⟨?_, ?_, by simp⟩
    · have framed {rows : List Row} (headers : ∀ row ∈ rows, row.Types P) :
          Row.Types P ([.word "define ", .type f.returnTy, .word " @", .word f.name, .word "("] ++
            Row.commaSeparated rows ++ [.word ") \x7b"]) := by
        simpa [Function.returnTy] using And.intro ret (Row.types_commaSeparated headers)
      refine framed (List.forall_mem_map.2 ?_)
      rintro ⟨value, ty⟩ member
      simpa using params ty (List.of_mem_zip member).2
    · exact forall_separatedRows Row.types_nil
        (List.forall_mem_map.2 fun block member => shows.blockRows member)

end Shows

/-! ## Types in the rows of a module -/

/-- All named structs in a type are among those that the functions bring in. -/
def Lists (m : Module) (ty : Ty) : Prop :=
  ∀ struct ∈ ty.namedStructs, struct ∈ Ty.namedStructsAll m.types

theorem lists_of_mem {ty : Ty} (member : ty ∈ m.types) : m.Lists ty := by
  intro struct within
  obtain ⟨named, held⟩ := (Ty.mem_namedStructs ty).1 within
  exact (Ty.mem_namedStructsAll _).2 ⟨named, ty, member, held⟩

theorem lists_of_isPlain {ty : Ty} (plain : ty.isPlain = true) : m.Lists ty := by
  intro struct within
  exact absurd ((Ty.mem_namedStructs ty).1 within).2 (Ty.not_contains_of_isPlain plain struct)

/-- The fields of a struct that is brought in hold no other structs. -/
theorem lists_field {struct : StructTy} (member : struct ∈ Ty.namedStructsAll m.types) {field : Ty}
    (of : field ∈ struct.fields) : m.Lists field := by
  intro inner within
  obtain ⟨-, ty, used, held⟩ := (Ty.mem_namedStructsAll _).1 member
  obtain ⟨named, deeper⟩ := (Ty.mem_namedStructs field).1 within
  exact (Ty.mem_namedStructsAll _).2
    ⟨named, ty, used, Ty.Contains.trans (.field of deeper) held⟩

theorem shows_lists (verified : m.verify = .ok ())
    (constants : ∀ c, .constant c ∈ f.mentions → (m.constantRow c).Types m.Lists)
    (member : f ∈ m.functions) : m.Shows f m.Lists where
  types := fun ty among => lists_of_mem (List.mem_flatMap.2 ⟨f, member, among⟩)
  plain := fun _ plain => lists_of_isPlain plain
  returned := by
    intro id signature known
    obtain ⟨g, present, rfl⟩ := Option.map_eq_some_iff.1 known
    refine lists_of_mem (List.mem_flatMap.2 ⟨g, List.mem_of_getElem? present, ?_⟩)
    exact (Function.forall_types.1 fun _ among => among).2.1
  constants := constants
  verified := (verify_ok.1 verified).2 f member

/-- The text of a module names types of its functions alone, and what they hold. -/
theorem rows_types (shows : ∀ f ∈ m.functions, m.Shows f m.Lists)
    (listed : ∀ struct ∈ m.namedStructs, struct ∈ Ty.namedStructsAll m.types) :
    ∀ row ∈ m.rows, row.Types m.Lists := by
  rw [rows, List.forall_mem_append, List.cons_append, List.forall_mem_cons,
    List.forall_mem_append, List.forall_mem_flatten, List.forall_mem_map]
  refine ⟨⟨by simp, ?_, ?_⟩, fun f member =>
    forall_spacedRows Row.types_nil (shows f member).functionRows⟩
  · refine forall_spacedRows Row.types_nil (List.forall_mem_map.2 fun struct member => ?_)
    have fields : ∀ row ∈ struct.fields.map fun ty => [Piece.type ty], Row.Types m.Lists row :=
      List.forall_mem_map.2 fun field of => by simpa using lists_field (listed struct member) of
    unfold structRow
    split
    · simp
    · simpa using Row.types_commaSeparated fields
  · refine forall_spacedRows Row.types_nil (List.forall_mem_map.2 fun g _ => ?_)
    have bytes : m.Lists g.ty := by
      intro struct within
      cases within
    simpa [globalRow] using bytes

/-! ## The rows that declare structs -/

/-- One row declares the struct, no other one declares a struct of its name, and the structs
in its fields are declared before. -/
def Declares (m : Module) (struct : StructTy) : Prop :=
  ∃ before after, m.rows = before ++ structRow struct :: after ∧
    (∀ row ∈ before ++ after, ∀ other, row.declared? = some other → other.name ≠ struct.name) ∧
    ∀ inner : StructTy, inner.name.isSome → (∃ field ∈ struct.fields, inner.ty.Contains field) →
      structRow inner ∈ before

theorem declares_of_split {struct : StructTy} {before after : List StructTy}
    (split : m.namedStructs = before ++ struct :: after)
    (distinct : ∀ other ∈ before ++ after, other.name ≠ struct.name)
    (held : ∀ inner ∈ Ty.namedStructsAll struct.fields, inner ∈ before) : m.Declares struct := by
  have nonempty : (m.namedStructs.map structRow).isEmpty = false := by
    rw [split]
    simp
  refine ⟨[.word ("; ModuleID = '" ++ m.name ++ "'")] :: [] :: before.map structRow,
    after.map structRow ++ (spacedRows (m.globals.map globalRow) ++
      (m.functions.map fun f => spacedRows (m.functionRows f)).flatten), ?_, ?_, ?_⟩
  · rw [rows, spacedRows, nonempty]
    simp [split]
  · have others : ∀ other ∈ before ++ after, ∀ found, (structRow other).declared? = some found →
        found.name ≠ struct.name := by
      intro other member found declared
      rw [declared?_structRow] at declared
      exact Option.some.inj declared ▸ distinct other member
    rw [List.forall_mem_append] at others
    rw [List.forall_mem_append, List.forall_mem_cons, List.forall_mem_cons, List.forall_mem_append,
      List.forall_mem_map, List.forall_mem_map]
    refine ⟨⟨?_, ?_, others.1⟩, others.2, ?_⟩
    · intro found declared
      cases declared
    · intro found declared
      cases declared
    · intro row member found declared
      rw [declared?_rest row member] at declared
      cases declared
  · intro inner named within
    refine List.mem_cons_of_mem _ (List.mem_cons_of_mem _ (List.mem_map_of_mem (held inner ?_)))
    exact (Ty.mem_namedStructsAll _).2 ⟨named, within⟩

/-- Where a name stands for one list of fields, each struct that is written in a row is declared
by one. -/
theorem declares_of_writes (uniform : Ty.Uniform (· ∈ m.types))
    (shows : ∀ f ∈ m.functions, m.Shows f m.Lists) {row : Row} (among : row ∈ m.rows) {ty : Ty}
    (shown : .type ty ∈ row) {struct : StructTy} (named : struct.name.isSome)
    (written : struct.ty.Writes ty) : m.Declares struct := by
  have catalogues := catalogues_namedStructs uniform
  have listed : struct ∈ Ty.namedStructsAll m.types :=
    rows_types shows (fun struct => (catalogues.mem_iff struct).1) row among ty shown struct
      ((Ty.mem_namedStructs ty).2 ⟨named, written.contains⟩)
  obtain ⟨before, after, split, distinct, held⟩ := catalogues.split listed
  exact declares_of_split split distinct held

end Module

end SsaLowering.Ir
