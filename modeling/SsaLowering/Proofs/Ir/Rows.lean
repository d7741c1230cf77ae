/-
# SsaLowering.Proofs.Ir.Rows -- where the text of a module names types

A listing is written here once more, as rows of pieces of which each is a type, the head of
the line that declares a struct, or other text.  Row by row this is the text of the module
(`Module.rows_text`), and it tells where a type is named and which rows declare structs:
those of the head, and no row behind them (`Module.declared?_rest`).
-/
import SsaLowering.Proofs.Ir.NamedStructs

namespace SsaLowering.Ir

set_option autoImplicit false

/-! ## Pieces -/

/-- A part of a line. -/
inductive Piece where
  | word (text : String)
  | type (ty : Ty)
  /-- The head of the line that declares a struct. -/
  | head (struct : StructTy)

def Piece.text : Piece → String
  | word text => text
  | type ty => ty.text
  | head struct => struct.text ++ " = type "

/-- A line in pieces. -/
abbrev Row := List Piece

namespace Row

def text : Row → String
  | [] => ""
  | piece :: rest => piece.text ++ text rest

/-- The struct that a line declares. -/
def declared? : Row → Option StructTy
  | .head struct :: _ => some struct
  | _ => none

/-- All types in a line are of one kind. -/
def Types (P : Ty → Prop) (row : Row) : Prop := ∀ ty, .type ty ∈ row → P ty

@[simp] theorem text_nil : text [] = "" := rfl

@[simp] theorem text_cons (piece : Piece) (row : Row) :
    text (piece :: row) = piece.text ++ text row :=
  rfl

@[simp] theorem text_append (row other : Row) : text (row ++ other) = row.text ++ other.text := by
  induction row with
  | nil => simp
  | cons piece row ih => rw [List.cons_append, text_cons, text_cons, ih, String.append_assoc]

@[simp] theorem text_word (word : String) : Piece.text (.word word) = word := rfl

@[simp] theorem text_type (ty : Ty) : Piece.text (.type ty) = ty.text := rfl

variable {P : Ty → Prop}

@[simp] theorem types_nil : Types P [] := nofun

@[simp] theorem types_word {word : String} {row : Row} :
    Types P (.word word :: row) ↔ row.Types P := by
  simp [Types]

@[simp] theorem types_type {ty : Ty} {row : Row} :
    Types P (.type ty :: row) ↔ P ty ∧ row.Types P := by
  simp [Types]

@[simp] theorem types_head {struct : StructTy} {row : Row} :
    Types P (.head struct :: row) ↔ row.Types P := by
  simp [Types]

@[simp] theorem types_append {row other : Row} :
    Types P (row ++ other) ↔ row.Types P ∧ other.Types P := by
  simp only [Types, List.mem_append, or_imp, forall_and]

/-- Rows with commas between them. -/
def commaSeparated : List Row → Row
  | [] => []
  | [row] => row
  | row :: next :: rest => row ++ .word ", " :: commaSeparated (next :: rest)

@[simp] theorem text_commaSeparated : ∀ rows : List Row,
    text (commaSeparated rows) = Ir.commaSeparated (rows.map text)
  | [] => rfl
  | [row] => by simp [commaSeparated, Ir.commaSeparated]
  | row :: next :: rest => by
    have later := text_commaSeparated (next :: rest)
    simp only [commaSeparated, text_append, text_cons, later, Ir.commaSeparated, List.map_cons,
      text_word, String.intercalate_cons_cons, String.append_assoc]

theorem types_commaSeparated : ∀ {rows : List Row}, (∀ row ∈ rows, row.Types P) →
    Types P (commaSeparated rows)
  | [], _ => types_nil
  | [row], all => all row (List.mem_singleton_self _)
  | row :: next :: rest, all => by
    obtain ⟨here, later⟩ := List.forall_mem_cons.1 all
    rw [commaSeparated, types_append, types_word]
    exact ⟨here, types_commaSeparated later⟩

end Row

/-! ## The rows of a module -/

namespace Module

variable (m : Module) (f : Function)

mutual

/-- A constant without its type. -/
def constantRow : Constant → Row
  | .struct _ fields => .word "\x7b " :: Row.commaSeparated (fieldRows fields) ++ [.word " \x7d"]
  | .bool value => [.word (m.constantText (.bool value))]
  | .int bits value => [.word (m.constantText (.int bits value))]
  | .double value => [.word (m.constantText (.double value))]
  | .global id => [.word (m.constantText (.global id))]
  | .undef ty => [.word (m.constantText (.undef ty))]

def fieldRows : List Constant → List Row
  | [] => []
  | field :: rest => (.type field.ty :: .word " " :: constantRow field) :: fieldRows rest

end

def operandRow : Operand → Row
  | .value id => [.word (f.valueText id)]
  | .constant c => m.constantRow c
  | .function id => [.word (m.functionText id)]

/-- A type that may be unknown. -/
def typeRow (ty : Option Ty) : Row := [ty.elim (.word "?") .type]

/-- An operand after its type. -/
def typedRow (operand : Operand) : Row :=
  typeRow (f.operandTy? operand) ++ .word " " :: m.operandRow f operand

def actionRow : Action → Row
  | .alloca ty => [.word "alloca ", .type ty]
  | .load ty ptr => .word "load " :: .type ty :: .word ", " :: m.typedRow f ptr
  | .store value ptr =>
    .word "store " :: m.typedRow f value ++ .word ", " :: m.typedRow f ptr
  | .fadd lhs rhs => .word "fadd " :: m.typedRow f lhs ++ .word ", " :: m.operandRow f rhs
  | .call callee args =>
    .word "call " :: typeRow ((m.signature? callee).map (·.ret)) ++
      .word " " :: .word (m.functionText callee) :: .word "(" ::
        Row.commaSeparated (args.map (m.typedRow f)) ++ [.word ")"]

def instructionRow (inst : Instruction) : Row :=
  match inst.result with
  | some value => .word (f.valueText value) :: .word " = " :: m.actionRow f inst.action
  | none => m.actionRow f inst.action

def terminatorRow : Terminator → Row
  | .condBr cond thenBlock elseBlock =>
    .word "br " :: m.typedRow f cond ++ [.word ", label ", .word (f.labelText thenBlock),
      .word ", label ", .word (f.labelText elseBlock)]
  | .ret (some value) => .word "ret " :: m.typedRow f value
  | .br target => [.word (m.terminatorText f (.br target))]
  | .ret none => [.word (m.terminatorText f (.ret none))]
  | .unreachable => [.word (m.terminatorText f .unreachable)]

def blockRows (block : BasicBlock) : List Row :=
  [.word block.name, .word ":"] ::
    ((block.instructions.map (m.instructionRow f) ++
      (block.terminator.map (m.terminatorRow f)).toList).map (.word "  " :: ·))

/-- Groups of rows with an empty row between them. -/
def separatedRows : List (List Row) → List Row
  | [] => []
  | first :: rest => first ++ (rest.map ([] :: ·)).flatten

def functionRows : List Row :=
  let head : Row := [.type f.returnTy, .word " @", .word f.name, .word "("]
  if f.isDeclaration then
    [.word "declare " :: head ++ Row.commaSeparated (f.ty.params.map ([.type ·])) ++ [.word ")"]]
  else
    let params := (f.params.zip f.ty.params).map fun (value, ty) =>
      [.type ty, .word " ", .word (f.valueText value)]
    (.word "define " :: head ++ Row.commaSeparated params ++ [.word ") \x7b"]) ::
      separatedRows (f.blocks.map (m.blockRows f)) ++ [[.word "\x7d"]]

def globalRow (g : Global) : Row :=
  [.word ("@" ++ g.name ++ " = private " ++ (if g.readOnly then "constant" else "global") ++ " "),
    .type g.ty, .word (" c\"" ++ String.ofList (Text.ByteLiteral.encode g.bytes) ++ "\"")]

/-- The row that declares a struct: its head, and the types of its fields. -/
def structRow (struct : StructTy) : Row :=
  if struct.fields.isEmpty then [.head struct, .word "\x7b\x7d"]
  else .head struct :: .word "\x7b " ::
    Row.commaSeparated (struct.fields.map ([.type ·])) ++ [.word " \x7d"]

/-- A group of rows after an empty one; no group for no rows. -/
def spacedRows (rows : List Row) : List Row := if rows.isEmpty then [] else [] :: rows

/-- All rows of a module. -/
def rows : List Row :=
  [.word ("; ModuleID = '" ++ m.name ++ "'")] ::
    spacedRows (m.namedStructs.map structRow) ++
    spacedRows (m.globals.map globalRow) ++
    (m.functions.map fun f => spacedRows (m.functionRows f)).flatten

/-! ## The rows are the text -/

mutual

@[simp] theorem constantRow_text : ∀ c, (m.constantRow c).text = m.constantText c
  | .struct _ fields => by
    simp [constantRow, constantText, fieldRows_text fields, String.append_assoc]
  | .bool _ | .int _ _ | .double _ | .global _ | .undef _ => by simp [constantRow]

theorem fieldRows_text : ∀ fields, (m.fieldRows fields).map Row.text = m.fieldTexts fields
  | [] => rfl
  | field :: rest => by
    simp [fieldRows, fieldTexts, constantRow_text field, fieldRows_text rest, String.append_assoc]

end

@[simp] theorem operandRow_text (operand : Operand) :
    (m.operandRow f operand).text = m.operandText f operand := by
  cases operand <;> simp [operandRow, operandText]

@[simp] theorem typeRow_text (ty : Option Ty) : (typeRow ty).text = (ty.map Ty.text).getD "?" := by
  cases ty <;> simp [typeRow]

@[simp] theorem typedRow_text (operand : Operand) :
    (m.typedRow f operand).text = m.typedText f operand := by
  simp [typedRow, typedText, String.append_assoc]

@[simp] theorem actionRow_text (action : Action) :
    (m.actionRow f action).text = m.actionText f action := by
  cases action <;> simp [actionRow, actionText, Function.comp_def, String.append_assoc]

@[simp] theorem instructionRow_text (inst : Instruction) :
    (m.instructionRow f inst).text = m.instructionText f inst := by
  cases result : inst.result <;>
    simp [instructionRow, instructionText, result, String.append_assoc]

@[simp] theorem terminatorRow_text (terminator : Terminator) :
    (m.terminatorRow f terminator).text = m.terminatorText f terminator := by
  cases terminator with
  | ret value => cases value <;> simp [terminatorRow, terminatorText]
  | _ => simp [terminatorRow, terminatorText, String.append_assoc]

theorem blockRows_text (block : BasicBlock) :
    (m.blockRows f block).map Row.text = m.blockLines f block := by
  cases ended : block.terminator <;>
    simp [blockRows, blockLines, ended, Function.comp_def]

theorem separatedRows_text (groups : List (List Row)) :
    (separatedRows groups).map Row.text = separated (groups.map (·.map Row.text)) := by
  cases groups <;> simp [separatedRows, separated, List.map_flatten, Function.comp_def]

theorem spacedRows_text (rows : List Row) :
    (spacedRows rows).map Row.text = spaced (rows.map Row.text) := by
  cases rows <;> simp [spacedRows, spaced]

theorem functionRows_text : (m.functionRows f).map Row.text = m.functionLines f := by
  unfold functionRows functionLines
  split
  · simp [Function.comp_def, String.append_assoc]
  · simp [Function.comp_def, String.append_assoc, separatedRows_text, blockRows_text]

theorem globalRow_text (g : Global) : (globalRow g).text = globalLine g := by
  simp [globalRow, globalLine, String.append_assoc]

theorem structRow_text (struct : StructTy) : (structRow struct).text = structLine struct := by
  unfold structRow structLine StructTy.body Ty.braced
  cases empty : struct.fields with
  | nil => simp [Piece.text]
  | cons field rest =>
    simp [Piece.text, String.append_assoc, Function.comp_def, Ir.commaSeparated]

/-- The rows are the lines of the text. -/
theorem rows_text : m.rows.map Row.text = m.lines := by
  simp [rows, lines, spacedRows_text, functionRows_text, globalRow_text, structRow_text,
    List.map_flatten, Function.comp_def]

/-! ## What rows declare -/

theorem declared?_structRow (struct : StructTy) : (structRow struct).declared? = some struct := by
  unfold structRow
  split <;> rfl

variable {m f}

theorem forall_separatedRows {Q : Row → Prop} (blank : Q []) : ∀ {groups : List (List Row)},
    (∀ group ∈ groups, ∀ row ∈ group, Q row) → ∀ row ∈ separatedRows groups, Q row
  | [], _ => nofun
  | first :: rest, all => by
    obtain ⟨here, later⟩ := List.forall_mem_cons.1 all
    rw [separatedRows, List.forall_mem_append, List.forall_mem_flatten, List.forall_mem_map]
    exact ⟨here, fun group member => List.forall_mem_cons.2 ⟨blank, later group member⟩⟩

theorem forall_spacedRows {Q : Row → Prop} (blank : Q []) {rows : List Row}
    (all : ∀ row ∈ rows, Q row) : ∀ row ∈ spacedRows rows, Q row := by
  unfold spacedRows
  split
  · nofun
  · exact List.forall_mem_cons.2 ⟨blank, all⟩

theorem declared?_functionRows : ∀ row ∈ m.functionRows f, row.declared? = none := by
  unfold functionRows
  split
  · exact List.forall_mem_singleton.2 rfl
  · rw [List.cons_append, List.forall_mem_cons, List.forall_mem_append]
    refine ⟨rfl, ?_, List.forall_mem_singleton.2 rfl⟩
    refine forall_separatedRows (Q := fun row => row.declared? = none) rfl
      (List.forall_mem_map.2 fun block _ => ?_)
    rw [blockRows, List.forall_mem_cons, List.forall_mem_map]
    exact ⟨rfl, fun _ _ => rfl⟩

/-- Behind the structs no row declares one. -/
theorem declared?_rest : ∀ row ∈ spacedRows (m.globals.map globalRow) ++
    (m.functions.map fun f => spacedRows (m.functionRows f)).flatten, row.declared? = none := by
  rw [List.forall_mem_append, List.forall_mem_flatten, List.forall_mem_map]
  have spaced {rows : List Row} (silent : ∀ row ∈ rows, row.declared? = none) :
      ∀ row ∈ spacedRows rows, row.declared? = none :=
    forall_spacedRows (Q := fun row => row.declared? = none) rfl silent
  exact ⟨spaced (List.forall_mem_map.2 fun _ _ => rfl), fun f _ => spaced declared?_functionRows⟩

end Module

end SsaLowering.Ir
