/-
# SsaLowering.Proofs.Renaming.Program -- programs under other symbols

The headers, bodies and namespaces of a program and of its renamed copy are lowered
alike under environments that mirror each other, so the two programs have one
outcome (`lowerProgram_mirrors`).  Under the primitive types an environment is its
symbol table, and it is enough that the symbols in use keep their texts and stay
apart: what else the table holds, and in which order, does not matter
(`lowerProgram_rename`).
-/
import SsaLowering.Proofs.Lower.Rollback
import SsaLowering.Proofs.Renaming.Statement

namespace SsaLowering

set_option autoImplicit false

open Ir (FuncId Function ValueId)
open LowerBody (emit_mirrors emitUnit_mirrors outside_mirrors builder_mirrors)

variable {ρ : Renaming} {env env' : Environment}

/-! ## Headers -/

section

variable {ε δ α β γ : Type}

theorem except_mapError_bind (h : ε → δ) (x : Except ε α) (f : α → Except ε β) :
    (x >>= f).mapError h = x.mapError h >>= fun a => (f a).mapError h := by
  cases x <;> rfl

theorem except_mapError_mapM {f : α → Except ε β} {g : γ → Except δ β} (h : ε → δ)
    (view : α → γ) : ∀ {as : List α}, (∀ a ∈ as, g (view a) = (f a).mapError h) →
      (as.map view).mapM g = (as.mapM f).mapError h
  | [], _ => rfl
  | a :: as, same => by
    rw [List.forall_mem_cons] at same
    rw [List.map_cons, List.mapM_cons, List.mapM_cons, same.1, except_mapError_mapM h view same.2,
      except_mapError_bind]
    simp only [except_mapError_bind]
    rfl

end

namespace Environment.Mirrors

variable (envs : env.Mirrors ρ env')

include envs

theorem resolve {ε : Type} {x : Symbol} (used : x ∈ ρ.used) :
    env'.symbols.resolve (ε := ε) (ρ.map x) =
      (env.symbols.resolve x).mapError (Failure.rename ρ.map) := by
  unfold SymbolTable.resolve
  rw [envs.texts x used]
  split <;> rfl

theorem paramType {param : Param} (covered : ρ.Covers param.symbols) :
    (param.rename ρ.map).type? env'.types env'.symbols =
      (param.type? env.types env.symbols).mapError (Failure.rename ρ.map) := by
  rw [Param.symbols, Renaming.covers_cons] at covered
  unfold Param.type?
  simp only [Param.rename, envs.types _ covered.2, envs.resolve covered.1]
  split
  · rfl
  · split
    · rw [except_mapError_bind]
      rfl
    · rfl

theorem signature {decl : FunctionDecl} (params : ∀ param ∈ decl.params, ρ.Covers param.symbols)
    (returns : ρ.Covers (decl.returnType.elim [] TypeRef.symbols)) :
    (decl.rename ρ.map).signature? env'.types env'.symbols =
      (decl.signature? env.types env.symbols).mapError (Failure.rename ρ.map) := by
  unfold FunctionDecl.signature?
  simp only [FunctionDecl.rename]
  rw [except_mapError_mapM (Failure.rename ρ.map) (·.rename ρ.map)
    fun param member => envs.paramType (params param member)]
  generalize decl.returnType = type at returns ⊢
  cases type with
  | none =>
    simp only [Option.map_none, except_mapError_bind]
    rfl
  | some ty =>
    simp only [Option.map_some, envs.types ty returns]
    cases env.types.resolve ty with
    | ok image => simp only [except_mapError_bind]; rfl
    | error cause => rfl

theorem mangle {ε : Type} {t t' : ScopeTable} (scopes : t.Mirrors ρ t') (scope : ScopeId)
    (name : String) :
    env'.mangler.mangle (ε := ε) env'.symbols t' scope name =
      (env.mangler.mangle env.symbols t scope name).mapError (Failure.rename ρ.map) := by
  unfold Mangler.mangle
  rw [envs.mangler, scopes.namespacePath, except_mapError_mapM (Failure.rename ρ.map) ρ.map
    fun x member => envs.resolve (scopes.covers_namespacePath scope x member),
    except_mapError_bind]
  rfl

end Environment.Mirrors

/-! ## Function bodies -/

theorem bindParams_mirrors (envs : env.Mirrors ρ env') (scope : ScopeId) :
    ∀ {params : List Param}, (∀ param ∈ params, ρ.Covers param.symbols) → ∀ values,
      LowerBody.Mirrors ρ (bindParams env scope params values)
        (bindParams env' scope (params.map (·.rename ρ.map)) values)
  | [], _, _ => .pure _
  | _ :: _, _, [] => .pure _
  | param :: params, covered, value :: values => by
    rw [List.forall_mem_cons, Param.symbols, Renaming.covers_cons] at covered
    have shown : env'.name (param.rename ρ.map).name = env.name param.name :=
      envs.name covered.1.1
    rw [List.map_cons, bindParams, bindParams, shown]
    refine (emit_mirrors _).discard.bind fun _ => ?_
    refine (outside_mirrors (Lower.bind_mirrors scope covered.1.1 _)).discard.bind fun _ => ?_
    exact bindParams_mirrors envs scope covered.2 values

theorem sealBody_mirrors (span : FileSpan) :
    LowerBody.Mirrors ρ (sealBody span) (sealBody span) := by
  refine builder_mirrors.bind fun b => ?_
  split
  · exact .pure _
  · split
    · exact .pure _
    · split
      · exact emitUnit_mirrors _
      · dsimp only
        split
        · exact (outside_mirrors (Lower.warn_mirrors _)).bind fun _ => emitUnit_mirrors _
        · exact emitUnit_mirrors _

theorem buildBody_mirrors (envs : env.Mirrors ρ env') (scope : ScopeId) {decl : FunctionDecl}
    (params : ∀ param ∈ decl.params, ρ.Covers param.symbols) {stmts : List Stmt}
    (body : ρ.Covers (Stmt.symbolsAll stmts)) :
    LowerBody.Mirrors ρ (buildBody env scope decl stmts)
      (buildBody env' scope (decl.rename ρ.map) (Stmt.renameAll ρ.map stmts)) := by
  refine Mirrors.bind (LowerBody.inScope_mirrors scope fun inner => ?_) fun _ =>
    sealBody_mirrors decl.span
  refine builder_mirrors.bind fun b => ?_
  refine (bindParams_mirrors envs inner params b.function.params).bind fun _ => ?_
  refine (emit_mirrors _).bind fun entry => (emitUnit_mirrors _).bind fun _ => ?_
  exact lowerStmts_mirrors envs stmts inner body

theorem building_mirrors (declared : Function) {work work' : LowerBody Unit}
    (run : LowerBody.Mirrors ρ work work') :
    Lower.Mirrors ρ (Lower.building declared work) (Lower.building declared work') := by
  intro cx cx' alike
  have ends := run ⟨cx, .ofFunction declared⟩ ⟨cx', .ofFunction declared⟩ ⟨alike, rfl⟩
  unfold Lower.building
  generalize work _ = r, work' _ = r' at ends
  cases ends with
  | ok states =>
    simp only [states.builder]
    exact .ok states.context
  | error states => exact .error states.context

theorem lowerBody_mirrors (envs : env.Mirrors ρ env') (scope : ScopeId) (id : FuncId)
    {decl : FunctionDecl} (params : ∀ param ∈ decl.params, ρ.Covers param.symbols)
    {stmts : List Stmt} (body : ρ.Covers (Stmt.symbolsAll stmts)) :
    Lower.Mirrors ρ (lowerBody env scope id decl stmts)
      (lowerBody env' scope id (decl.rename ρ.map) (Stmt.renameAll ρ.map stmts)) := by
  refine .get_bind fun cx cx' alike => ?_
  rw [alike.module]
  split
  · refine (building_mirrors _ (buildBody_mirrors envs scope params body)).bind fun f => ?_
    refine .get_bind fun cx cx' alike => ?_
    rw [alike.module]
    split
    · exact Lower.refuse_mirrors _
    · exact Lower.onModule_mirrors _
  · exact Lower.refuse_mirrors _

/-! ## Declarations -/

theorem retractDeclaration_mirrors (scope : ScopeId) {name : Symbol} (used : name ∈ ρ.used)
    (id : FuncId) (globals : Nat) (previous : Option BoundValue) :
    Lower.Mirrors ρ (retractDeclaration scope name id globals previous)
      (retractDeclaration scope (ρ.map name) id globals previous) := by
  refine (Lower.onModule_mirrors _).discard.bind fun _ => .modify fun cx cx' alike => ?_
  exact ⟨congrArg (·.truncateGlobals globals) alike.module,
    alike.scopes.assign scope used previous, alike.diagnostics, alike.journal⟩

theorem orUndo_mirrors {work work' : Lower Unit} {undo undo' : LowerError → Lower Unit}
    (run : Lower.Mirrors ρ work work')
    (back : ∀ cause, Lower.Mirrors ρ (undo cause) (undo' cause)) :
    Lower.Mirrors ρ (work.orUndo undo) (work'.orUndo undo') := by
  intro cx cx' alike
  have ends := run cx cx' alike
  unfold Lower.orUndo
  generalize work cx = r, work' cx' = r' at ends
  cases ends with
  | ok alike => exact .ok alike
  | @error failure cx cx' alike =>
    cases failure with
    | fault fault => exact .error alike
    | refused cause =>
      -- the cause that is told is the one of the work, unless undoing it fails as well
      have undone := back cause cx cx' alike
      simp only [Failure.rename]
      generalize undo cause cx = r, undo' cause cx' = r' at undone
      cases undone with
      | ok alike => exact .error alike
      | error alike => exact .error alike

theorem declareFunction_mirrors (envs : env.Mirrors ρ env') (scope : ScopeId)
    {decl : FunctionDecl} (used : decl.name ∈ ρ.used)
    (params : ∀ param ∈ decl.params, ρ.Covers param.symbols)
    (returns : ρ.Covers (decl.returnType.elim [] TypeRef.symbols)) :
    Lower.Mirrors ρ (declareFunction env scope decl)
      (declareFunction env' scope (decl.rename ρ.map)) := by
  have shown : env'.name (decl.rename ρ.map).name = env.name decl.name := envs.name used
  unfold declareFunction
  rw [envs.signature params returns, shown]
  refine (Lower.lift_mirrors _ _).bind fun signature => ?_
  refine (Lower.requireScope_mirrors scope).bind fun _ => .get_bind fun cx cx' alike => ?_
  rw [envs.mangle alike.scopes]
  refine (Lower.lift_mirrors _ _).bind fun linkage => ?_
  refine (Lower.log_mirrors _).bind fun _ => (Lower.onModule_mirrors _).bind fun id => ?_
  exact (Lower.bind_mirrors scope used _).bind fun previous => .pure _

theorem lowerFunction_mirrors (envs : env.Mirrors ρ env') (scope : ScopeId)
    {decl : FunctionDecl} (covered : ρ.Covers decl.symbols) :
    Lower.Mirrors ρ (lowerFunction env scope decl)
      (lowerFunction env' scope (decl.rename ρ.map)) := by
  simp only [FunctionDecl.symbols, Renaming.covers_append, Renaming.covers_cons,
    Renaming.covers_flatMap] at covered
  obtain ⟨⟨⟨used, params⟩, returns⟩, body⟩ := covered
  rw [lowerFunction_eq, lowerFunction_eq]
  refine (declareFunction_mirrors envs scope used params returns).bind fun declared => ?_
  simp only [FunctionDecl.rename]
  generalize decl.body = braced at body ⊢
  cases braced with
  | none => exact .pure _
  | some braced =>
    refine .get_bind fun cx cx' alike => ?_
    rw [alike.module]
    refine (orUndo_mirrors ?_ fun cause => ?_).bind fun _ => Lower.log_mirrors _
    · exact lowerBody_mirrors envs scope declared.id params body
    · refine (Lower.log_mirrors _).bind fun _ => ?_
      exact retractDeclaration_mirrors scope used declared.id _ declared.previous

mutual

/-- A declaration and its renamed copy are lowered alike. -/
theorem lowerItem_mirrors (envs : env.Mirrors ρ env') : ∀ (item : Item) (scope : ScopeId),
    ρ.Covers item.symbols →
      Lower.Mirrors ρ (lowerItem env scope item) (lowerItem env' scope (item.rename ρ.map))
  | .function decl, scope, covered => by
    rw [Item.rename, lowerItem, lowerItem]
    exact lowerFunction_mirrors envs scope covered
  | .namespace_ name items span, scope, covered => by
    rw [Item.symbols, Renaming.covers_cons] at covered
    rw [Item.rename, lowerItem, lowerItem, envs.name covered.1]
    refine (Lower.log_mirrors _).bind fun _ => ?_
    have entered : Lower.Mirrors ρ (Lower.enter scope (some name))
        (Lower.enter scope (some (ρ.map name))) :=
      Lower.enter_mirrors scope (by simpa using covered.1)
    refine entered.bind fun inner => ?_
    refine (lowerItems_mirrors envs items inner covered.2).bind fun _ => ?_
    exact (Lower.bind_mirrors scope covered.1 _).discard
  | .class_ .., scope, _ | .interface .., scope, _ | .typeAlias .., scope, _ => by
    rw [Item.rename, lowerItem, lowerItem]
    exact Lower.warn_mirrors _

theorem lowerItems_mirrors (envs : env.Mirrors ρ env') : ∀ (items : List Item) (scope : ScopeId),
    ρ.Covers (Item.symbolsAll items) →
      Lower.Mirrors ρ (lowerItems env scope items)
        (lowerItems env' scope (Item.renameAll ρ.map items))
  | [], scope, _ => by
    rw [Item.renameAll, lowerItems, lowerItems]
    exact .pure _
  | item :: rest, scope, covered => by
    rw [Item.symbolsAll, Renaming.covers_append] at covered
    rw [Item.renameAll, lowerItems, lowerItems]
    exact (lowerItem_mirrors envs item scope covered.1).bind fun _ =>
      lowerItems_mirrors envs rest scope covered.2

end

/-! ## Programs -/

theorem lowerUnits_mirrors (envs : env.Mirrors ρ env') :
    ∀ {units : List SourceUnit}, ρ.Covers (units.flatMap SourceUnit.symbols) →
      Lower.Mirrors ρ (lowerUnits env units) (lowerUnits env' (units.map (·.rename ρ.map)))
  | [], _ => .pure _
  | unit :: rest, covered => by
    rw [List.flatMap_cons, Renaming.covers_append] at covered
    have length : (unit.rename ρ.map).items.length = unit.items.length :=
      Item.length_renameAll _ _
    rw [List.map_cons, lowerUnits, lowerUnits, lowerUnit, lowerUnit, length]
    refine Mirrors.bind ?_ fun _ => lowerUnits_mirrors envs covered.2
    exact (Lower.log_mirrors _).bind fun _ => lowerItems_mirrors envs unit.items _ covered.1

theorem lowerAll_mirrors (envs : env.Mirrors ρ env') {units : List SourceUnit}
    (covered : ρ.Covers (units.flatMap SourceUnit.symbols)) :
    Lower.Mirrors ρ (lowerAll env units) (lowerAll env' (units.map (·.rename ρ.map))) := by
  refine (lowerUnits_mirrors envs covered).bind fun _ => .get_bind fun cx cx' alike => ?_
  rw [alike.module, alike.diagnostics, List.length_map]
  split
  · exact Lower.refuse_mirrors _
  · exact (Lower.log_mirrors _).bind fun _ => .pure _

/-- A program and its renamed copy have one outcome and one journal. -/
theorem lowerProgram_mirrors (envs : env.Mirrors ρ env') (name : String)
    {units : List SourceUnit} (covered : ρ.Covers (units.flatMap SourceUnit.symbols)) :
    lowerProgram env' name (units.map (·.rename ρ.map)) =
      ((lowerProgram env name units).1.mapError (Failure.rename ρ.map),
        (lowerProgram env name units).2) := by
  have ends := lowerAll_mirrors envs covered _ _ (.initial ρ name)
  unfold lowerProgram
  generalize lowerAll env units _ = r, lowerAll env' _ _ = r' at ends
  cases ends with
  | ok alike => exact Prod.ext rfl alike.journal
  | error alike => exact Prod.ext rfl alike.journal

/-! ## The primitive types -/

section

variable {symbols symbols' : SymbolTable}
  (texts : ∀ x ∈ ρ.used, symbols'.resolve? (ρ.map x) = symbols.resolve? x)

include texts

theorem TypeRef.describe_rename : ∀ (ty : TypeRef), ρ.Covers ty.symbols →
    (ty.rename ρ.map).describe symbols' = ty.describe symbols
  | .number, _ | .boolean, _ | .string, _ | .void, _ => rfl
  | .named name _, covered => by
    rw [TypeRef.symbols, Renaming.covers_cons] at covered
    simp only [TypeRef.rename, TypeRef.describe, SymbolTable.display, texts name covered.1]
  | .array element, covered => by
    simp only [TypeRef.rename, TypeRef.describe, TypeRef.describe_rename element covered]

/-- Under the primitive types, environments mirror each other when their tables do. -/
theorem Environment.Mirrors.standard (mangler : Mangler) :
    Environment.Mirrors ρ (.standard symbols mangler) (.standard symbols' mangler) where
  texts := texts
  types := by
    intro ty covered
    have shown := TypeRef.describe_rename texts ty covered
    cases ty with
    | named name span =>
      exact congrArg (fun text => Except.error (TypeError.unsupported text (some span))) shown
    | array element =>
      exact congrArg (fun text => Except.error (TypeError.unsupported text none)) shown
    | _ => rfl
  stringTy := rfl
  mangler := rfl

end

/-- Lowering compares symbols and asks for their texts, and uses them in no other way.  Let
every symbol of a program be replaced, so that different ones stay different, and let each new
one have in another table the text that the old one has in the first, or none if that has
none.  Then the two programs are lowered to one module with the same warnings, or refused for
one cause, or both asked for the text of a symbol that their table does not know; the journals
agree too. -/
theorem lowerProgram_rename (symbols symbols' : SymbolTable) (mangler : Mangler) (name : String)
    (units : List SourceUnit) (σ : Symbol → Symbol)
    (apart : Set.InjOn σ {x | x ∈ units.flatMap SourceUnit.symbols})
    (texts : ∀ x ∈ units.flatMap SourceUnit.symbols,
      symbols'.resolve? (σ x) = symbols.resolve? x) :
    lowerProgram (.standard symbols' mangler) name (units.map (·.rename σ)) =
      ((lowerProgram (.standard symbols mangler) name units).1.mapError (Failure.rename σ),
        (lowerProgram (.standard symbols mangler) name units).2) := by
  let ρ : Renaming := ⟨σ, {x | x ∈ units.flatMap SourceUnit.symbols}, apart⟩
  have envs := Environment.Mirrors.standard (ρ := ρ) texts mangler
  exact lowerProgram_mirrors envs name fun x member => member

namespace Sample

/-- A table that has seen other names before, and `f`, `x` and `y` in another order. -/
def crowded : SymbolTable := ⟨["z", "y", "x", "f"], by simp⟩

/-- From the symbols of `f`, `x` and `y` to those in the crowded table, and from unknown ones
to unknown ones. -/
def crowd (x : Symbol) : Symbol := ⟨if x.key < 3 then 3 - x.key else x.key + 1⟩

/-- `f` in a namespace whose name no table knows. -/
def foreign : SourceUnit :=
  ⟨⟨0⟩, "sample", [.namespace_ ⟨9⟩ [.function double] .unplaced]⟩

end Sample

theorem lowerProgram_rename_sample :
    (∃ program, (lowerProgram (.standard Sample.symbols .usual) "m" [Sample.unit]).1 =
        .ok program ∧
      (lowerProgram (.standard Sample.crowded .usual) "m"
        ([Sample.unit].map (·.rename Sample.crowd))).1 = .ok program) ∧
      (lowerProgram (.standard Sample.symbols .usual) "m" [Sample.foreign]).1 =
        .error (.fault (.unknownSymbol ⟨9⟩)) ∧
      (lowerProgram (.standard Sample.crowded .usual) "m"
        ([Sample.foreign].map (·.rename Sample.crowd))).1 =
          .error (.fault (.unknownSymbol ⟨10⟩)) := by
  have apart : Function.Injective Sample.crowd := by
    intro x y same
    rw [Sample.crowd, Sample.crowd, Symbol.mk.injEq] at same
    cases x; cases y
    simp only [Symbol.mk.injEq] at same ⊢
    split at same <;> split at same <;> omega
  have lowered : ((lowerProgram (.standard Sample.symbols .usual) "m"
      [Sample.unit]).1.toOption).isSome := by cbv
  have asked : (lowerProgram (.standard Sample.symbols .usual) "m" [Sample.foreign]).1 =
      .error (.fault (.unknownSymbol ⟨9⟩)) := by cbv
  obtain ⟨program, passes⟩ := Option.isSome_iff_exists.1 lowered
  rw [except_toOption_some] at passes
  refine ⟨⟨program, passes, ?_⟩, asked, ?_⟩
  · rw [lowerProgram_rename Sample.symbols Sample.crowded .usual "m" [Sample.unit] Sample.crowd
      apart.injOn (by decide), passes]
    rfl
  · rw [lowerProgram_rename Sample.symbols Sample.crowded .usual "m" [Sample.foreign] Sample.crowd
      apart.injOn (by decide), asked]
    rfl

end SsaLowering
