/-
# SsaLowering.Proofs.Lower.Literals -- the aggregates in lowered code

The only aggregates that lowering makes are string literals.  A literal takes the
type that strings have under the type mapping, of which it asks no more than that it
is an aggregate, and always has two fields, the address and the number of its bytes.
No typing rule looks inside of a constant.  So a literal fits its type exactly where
the mapping gives strings a pointer and a 32 bit integer (`lowerProgram_literals`),
and under any other aggregate it is lowered all the same (`lowerProgram_misfit`).
-/
import SsaLowering.Proofs.Lower.Operands

namespace SsaLowering

set_option autoImplicit false

open Ir (Ty StructTy Constant)

/-! ## Aggregates that fit their types -/

namespace Ir

mutual

/-- Every aggregate in a constant, at any depth, has the fields that its type says. -/
def Constant.WellTyped : Constant → Prop
  | .struct ty fields => Constant.Fit fields ty.fields
  | _ => True

/-- Constants of the given types, one for each, that are well-typed inside. -/
def Constant.Fit : List Constant → List Ty → Prop
  | [], [] => True
  | field :: rest, ty :: tys => field.ty = ty ∧ field.WellTyped ∧ Constant.Fit rest tys
  | _, _ => False

end

/-- Fields that fit have their types in the order of the layout. -/
theorem Constant.Fit.types : ∀ {fields : List Constant} {tys : List Ty},
    Constant.Fit fields tys → fields.map Constant.ty = tys
  | [], [], _ => rfl
  | [], _ :: _, fit => by
    rw [Constant.Fit] at fit
    · cases fit
    all_goals simp
  | _ :: _, [], fit => by
    rw [Constant.Fit] at fit
    · cases fit
    all_goals simp
  | field :: rest, ty :: tys, fit => by
    rw [Constant.Fit] at fit
    obtain ⟨rfl, -, fit⟩ := fit
    rw [List.map_cons, Constant.Fit.types fit]

/-- The aggregate of a string literal fits one layout. -/
theorem Constant.literal_wellTyped {ty : StructTy} {id : GlobalId} {count : Int} :
    (Constant.struct ty [.global id, .int 32 count]).WellTyped ↔ ty.fields = [.ptr, .int 32] := by
  rw [WellTyped]
  constructor
  · intro fit
    exact fit.types.symm
  · intro same
    rw [same]
    simp [Fit, WellTyped, Constant.ty]

end Ir

/-! ## Literals in lowered code -/

/-- An aggregate in an operand is a string literal of the given type. -/
def OperandRule.literals (string : Ty) : OperandRule where
  Holds m operand := ∀ ty fields, operand = .constant (.struct ty fields) →
    ty.ty = string ∧ ∃ id count, m.Has (.global id) ∧ fields = [.global id, .int 32 count]
  widen := by
    intro m m' operand holds wider ty fields same
    obtain ⟨type, id, count, has, shape⟩ := holds ty fields same
    exact ⟨type, id, count, has.widen wider, shape⟩
  value _ _ := nofun
  bool _ _ := nofun
  double _ _ := nofun
  function _ _ _ := nofun

theorem OperandRule.literals_admits (string : Ty) :
    (OperandRule.literals string).Admits string := by
  rintro ty m bytes rfl ty' fields same
  cases same
  exact ⟨rfl, _, _, by simp [Ir.Module.Has, Ir.Module.addConstant], rfl⟩

/-- In a program that is lowered, whatever the type mapping, every aggregate in a function is a
string literal: it has the type of strings, and as its fields the address of constant data of
the module and a count.  It fits its type exactly if the layout of this type is that of a
pointer and a 32 bit integer. -/
theorem lowerProgram_literals (env : Environment) (name : String) (units : List SourceUnit)
    (program : LoweredProgram) (run : (lowerProgram env name units).1 = .ok program) :
    ∀ f ∈ program.module.functions, ∀ ty fields, .constant (.struct ty fields) ∈ f.mentions →
      ty.ty = env.types.stringTy ∧
      (∃ id count, program.module.Has (.global id) ∧ fields = [.global id, .int 32 count]) ∧
      ((Constant.struct ty fields).WellTyped ↔
        ∃ name, env.types.stringTy = .struct name [.ptr, .int 32]) := by
  obtain ⟨cx, lowered, rfl⟩ := lowerProgram_lowered run
  have strings : ∀ env' decl, calledBy (units.map (env, ·)) env' decl →
      (OperandRule.literals env.types.stringTy).Admits env'.types.stringTy := by
    rintro env' decl ⟨unit, member, -⟩
    obtain ⟨source, -, same⟩ := List.mem_map.1 member
    cases same
    exact OperandRule.literals_admits _
  have obeys : cx.Obeys (.literals env.types.stringTy) :=
    lowered.run.obeys strings (Context.sound_initial name) nofun
  intro f member ty fields mentioned
  obtain ⟨type, id, count, has, rfl⟩ := obeys f member _ mentioned ty fields rfl
  refine ⟨type, ⟨id, count, has, rfl⟩, Constant.literal_wellTyped.trans ?_⟩
  rw [← type, StructTy.ty]
  constructor
  · intro same
    exact ⟨ty.name, by rw [same]⟩
  · rintro ⟨name, same⟩
    exact (Ty.struct.inj same).2

namespace Sample

/-- The usual environment with another type of strings. -/
def stringsAs (string : Ty) : Environment where
  types := .overridden ⟨none, none, none, none, none, some string, []⟩ symbols
  symbols := symbols
  mangler := .usual

/-- `function f(): string { return "x" }` -/
def literal : SourceUnit where
  file := ⟨0⟩
  name := "sample"
  items := [.function {
    name := ⟨0⟩
    params := []
    returnType := some .string
    body := some ⟨[.ret (some (.string "x" .unplaced)) .unplaced], .unplaced⟩
    span := .unplaced }]

/-- The aggregate of the literal under a type of strings. -/
def literalOf (fields : List Ty) : Constant :=
  .struct ⟨some "string", fields⟩ [.global ⟨0⟩, .int 32 1]

end Sample

theorem lowerProgram_literals_sample :
    ∃ program, (lowerProgram Sample.standard "m" [Sample.literal]).1 = .ok program ∧
      ∃ f ∈ program.module.functions, .constant (Sample.literalOf [.ptr, .int 32]) ∈ f.mentions ∧
        (Sample.literalOf [.ptr, .int 32]).WellTyped := by
  have left : (lowerProgram Sample.standard "m" [Sample.literal]).1.toOption.map
      (fun program => program.module.functions.map (·.mentions)) =
        some [[.constant (Sample.literalOf [.ptr, .int 32])]] := by cbv
  obtain ⟨program, passes, left⟩ := Option.map_eq_some_iff.1 left
  obtain ⟨f, rest, functions, mentions, -⟩ := List.map_eq_cons_iff.1 left
  rw [except_toOption_some] at passes
  have member : f ∈ program.module.functions := by rw [functions]; exact List.mem_cons_self
  have mentioned : .constant (Sample.literalOf [.ptr, .int 32]) ∈ f.mentions := by
    rw [mentions]
    exact List.mem_singleton_self _
  obtain ⟨-, -, fits⟩ := lowerProgram_literals _ _ _ program passes f member _ _ mentioned
  exact ⟨program, passes, f, member, mentioned, fits.2 ⟨_, rfl⟩⟩

/-- Where strings are an aggregate of one double, a literal is lowered to an aggregate of this
type with two fields, neither of them a double. -/
theorem lowerProgram_misfit :
    ∃ program, (lowerProgram (Sample.stringsAs (.struct (some "string") [.double])) "m"
        [Sample.literal]).1 = .ok program ∧
      ∃ f ∈ program.module.functions, .constant (Sample.literalOf [.double]) ∈ f.mentions ∧
        ¬ (Sample.literalOf [.double]).WellTyped := by
  have left : (lowerProgram (Sample.stringsAs (.struct (some "string") [.double])) "m"
      [Sample.literal]).1.toOption.map
      (fun program => program.module.functions.map (·.mentions)) =
        some [[.constant (Sample.literalOf [.double])]] := by cbv
  obtain ⟨program, passes, left⟩ := Option.map_eq_some_iff.1 left
  obtain ⟨f, rest, functions, mentions, -⟩ := List.map_eq_cons_iff.1 left
  refine ⟨program, ?_, f, ?_, ?_, fun fit => ?_⟩
  · exact except_toOption_some.1 passes
  · rw [functions]
    exact List.mem_cons_self
  · rw [mentions]
    exact List.mem_singleton_self _
  · cases (Constant.literal_wellTyped.1 fit)

end SsaLowering
