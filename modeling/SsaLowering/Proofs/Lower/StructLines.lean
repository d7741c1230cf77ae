/-
# SsaLowering.Proofs.Lower.StructLines -- every named struct in a listing is declared

A type mapping that uses each struct name with one list of fields (`TypeMapping.Uniform`)
leads to modules that do, for all their types are supplied by the mapping.  The constants in
lowered code have no fields but addresses and integers.  So the listing of a lowered program
declares each named struct that it writes, once, with its fields, and behind the structs that
are in them (`lowerProgram_declares_structs`).
-/
import SsaLowering.Proofs.Lower.Literals
import SsaLowering.Proofs.Lower.Types

namespace SsaLowering

set_option autoImplicit false

open Ir (Ty StructTy Constant Module Row)

/-- Each name of a struct stands for one list of fields in all types that the mapping gives. -/
def TypeMapping.Uniform (types : TypeMapping) : Prop :=
  Ty.Uniform fun ty => (∃ source, types.resolve source = .ok ty) ∨ ty = types.stringTy

/-- Types without parts add no names. -/
theorem TypeMapping.Uniform.supplies {types : TypeMapping} (uniform : types.Uniform) :
    Ty.Uniform types.Supplies := by
  refine Ty.Uniform.mono uniform ?_
  rintro struct ⟨ty, supplied, within⟩
  cases supplied with
  | image resolved => exact ⟨ty, Or.inl ⟨_, resolved⟩, within⟩
  | string => exact ⟨_, Or.inr rfl, within⟩
  | plain plain => exact absurd within (Ty.not_contains_of_isPlain plain struct)

/-- Functions whose types are supplied use a name like the mapping does. -/
theorem Context.Supplied.uniform {types : TypeMapping} {cx : Context}
    (supplied : cx.Supplied types) (uniform : types.Uniform) :
    Ty.Uniform (· ∈ cx.module.types) := by
  refine uniform.supplies.mono ?_
  rintro struct ⟨ty, member, within⟩
  obtain ⟨f, present, among⟩ := List.mem_flatMap.1 member
  exact ⟨ty, supplied f present ty among, within⟩

/-- The fields of a string literal are an address and an integer. -/
theorem Ir.Module.constantRow_types {m : Module} {P : Ty → Prop} (ptr : P .ptr)
    (int : P (.int 32)) {c : Constant}
    (literal : ∀ ty fields, c = .struct ty fields →
      ∃ id count, fields = [.global id, .int 32 count]) :
    (m.constantRow c).Types P := by
  cases c with
  | struct ty fields =>
    obtain ⟨id, count, rfl⟩ := literal ty fields rfl
    simpa [Module.constantRow, Module.fieldRows, Row.commaSeparated, Constant.ty] using
      And.intro ptr int
  | _ => simp [Module.constantRow]

/-- The rows of the listing of a program that is lowered are its lines, and where a row names a
type, every named struct that is written there is declared in exactly one row, with its own
fields, and behind the rows of all named structs that are in them. -/
theorem lowerProgram_declares_structs (env : Environment) (name : String)
    (units : List SourceUnit) (program : LoweredProgram) (uniform : env.types.Uniform)
    (run : (lowerProgram env name units).1 = .ok program) :
    program.module.rows.map Row.text = program.module.lines ∧
      ∀ row ∈ program.module.rows, ∀ ty, .type ty ∈ row → ∀ struct : StructTy,
        struct.name.isSome → struct.ty.Writes ty → program.module.Declares struct := by
  refine ⟨program.module.rows_text, fun row among ty shown struct named written => ?_⟩
  obtain ⟨cx, lowered, rfl⟩ := lowerProgram_lowered run
  have initial := Context.sound_initial name
  have same : ∀ env' decl, calledBy (units.map (env, ·)) env' decl → env' = env := by
    rintro env' decl ⟨unit, member, -⟩
    obtain ⟨source, -, same⟩ := List.mem_map.1 member
    cases same
    rfl
  have supplied : cx.Supplied env.types :=
    lowered.run.supplied (fun env' decl call => by rw [same env' decl call]) initial nofun
  have literals : cx.Obeys (.literals env.types.stringTy) :=
    lowered.run.obeys (fun env' decl call => by
      rw [same env' decl call]
      exact OperandRule.literals_admits _) initial nofun
  refine Module.declares_of_writes (supplied.uniform uniform) (fun f member => ?_) among shown
    named written
  refine Module.shows_lists (lowered.reached.sound.verified) (fun c mentioned => ?_) member
  refine Module.constantRow_types (Module.lists_of_isPlain rfl) (Module.lists_of_isPlain rfl) ?_
  rintro ty fields rfl
  obtain ⟨-, id, count, -, shape⟩ := literals f member _ mentioned ty fields rfl
  exact ⟨id, count, shape⟩

namespace Sample

def point : StructTy := ⟨some "point", [.double, .double]⟩

def path : StructTy := ⟨some "path", [point.ty, .array point.ty 4]⟩

/-- An environment in which a number becomes a path. -/
def drawing : Environment where
  types := .overridden ⟨some path.ty, none, none, none, none, none, []⟩ symbols
  symbols := symbols
  mangler := .usual

theorem drawing_uniform : drawing.types.Uniform := by
  have among {struct : StructTy} (named : struct.name.isSome)
      (used : ∃ ty, ((∃ source, drawing.types.resolve source = .ok ty) ∨
        ty = drawing.types.stringTy) ∧ struct.ty.Contains ty) :
      struct ∈ Ty.namedStructsAll [path.ty, .string] := by
    obtain ⟨ty, given, within⟩ := used
    refine (Ty.mem_namedStructsAll _).2 ⟨named, ?_⟩
    have plain (plain : ty.isPlain = true) : False :=
      Ty.not_contains_of_isPlain plain struct within
    rcases given with ⟨source, resolved⟩ | rfl
    · cases source with
      | number =>
        cases resolved
        exact ⟨_, List.mem_cons_self, within⟩
      | string =>
        cases resolved
        exact ⟨_, List.mem_cons_of_mem _ List.mem_cons_self, within⟩
      | boolean =>
        cases resolved
        exact (plain rfl).elim
      | void =>
        cases resolved
        exact (plain rfl).elim
      | named name span =>
        simp [drawing, TypeMapping.overridden, TypeMapping.standard] at resolved
      | array element => cases resolved
    · exact ⟨_, List.mem_cons_of_mem _ List.mem_cons_self, within⟩
  have alone : ∀ a ∈ Ty.namedStructsAll [path.ty, .string],
      ∀ b ∈ Ty.namedStructsAll [path.ty, .string], a.name = b.name → a.fields = b.fields := by
    decide
  intro a b named same here there
  exact alone a (among named here) b (among (same ▸ named) there) same

/-- `function f(x: number): string { let y = x; return "x" }` -/
def caption : SourceUnit where
  file := ⟨0⟩
  name := "sample"
  items := [.function {
    name := ⟨0⟩
    params := [⟨⟨1⟩, .number, .unplaced⟩]
    returnType := some .string
    body := some ⟨[declare .let_ x, .ret (some (.string "x" .unplaced)) .unplaced], .unplaced⟩
    span := .unplaced }]

end Sample

/-- A path is written in the header of the sample and declared once, behind the points in it. -/
theorem lowerProgram_declares_structs_sample :
    Sample.drawing.types.Uniform ∧
      ∃ program, (lowerProgram Sample.drawing "m" [Sample.caption]).1 = .ok program ∧
        program.module.lines.take 5 = ["; ModuleID = 'm'", "",
          "%point = type \x7b double, double \x7d", "%path = type \x7b %point, [4 x %point] \x7d",
          "%string = type \x7b ptr, i32 \x7d"] ∧
        program.module.Declares Sample.path := by
  refine ⟨Sample.drawing_uniform, ?_⟩
  have left : (lowerProgram Sample.drawing "m" [Sample.caption]).1.toOption.map
      (fun program => (program.module.lines.take 5, program.module.rows[8]?)) =
        some (["; ModuleID = 'm'", "", "%point = type \x7b double, double \x7d",
            "%path = type \x7b %point, [4 x %point] \x7d", "%string = type \x7b ptr, i32 \x7d"],
          some [.word "define ", .type .string, .word " @", .word "f", .word "(",
            .type Sample.path.ty, .word " ", .word "%x", .word ") \x7b"]) := by cbv
  obtain ⟨program, passes, left⟩ := Option.map_eq_some_iff.1 left
  obtain ⟨lines, header⟩ := Prod.mk.inj left
  rw [except_toOption_some] at passes
  obtain ⟨-, declares⟩ :=
    lowerProgram_declares_structs _ _ _ program Sample.drawing_uniform passes
  refine ⟨program, passes, lines, ?_⟩
  exact declares _ (List.mem_of_getElem? header) Sample.path.ty (by simp) Sample.path rfl .here

end SsaLowering
