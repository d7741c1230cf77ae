/-
# SsaLowering.Proofs.Lower.Declaration -- what the lowering of a function can do

A context outside of functions is `Sound` when its scopes bind known functions and
namespaces alone and its module is verified.  From there `lowerFunction` has five
outcomes (`FunctionOutcome`): no header, an external function, a refused body, a
body that fails verification, and a function that is installed.  Whatever the
outcome, the next context is sound, and a failure leaves the module and all
bindings as they were.
-/
import SsaLowering.Proofs.Ir.Module
import SsaLowering.Proofs.Lower.Body

namespace SsaLowering

set_option autoImplicit false

open Ir (Ty FunctionTy Function Builder FuncId Global Module Defect)

variable {cx cx' : Context} {scope : ScopeId} {env : Environment} {decl : FunctionDecl}

/-! ## Contexts outside of functions -/

/-- What a name can be bound to outside of functions. -/
def BoundValue.Standing (m : Module) (t : ScopeTable) : BoundValue → Prop
  | direct (.function id) => (m.signature? id).isSome
  | namespace_ inner => (t.name? inner).isSome
  | _ => False

theorem BoundValue.Standing.mono {m m' : Module} {t t' : ScopeTable} {bound : BoundValue}
    (standing : bound.Standing m t)
    (signatures : ∀ id signature, m.signature? id = some signature →
      m'.signature? id = some signature)
    (names : ∀ other, (t.name? other).isSome → (t'.name? other).isSome) :
    bound.Standing m' t' := by
  cases bound with
  | direct operand =>
    cases operand with
    | function id =>
      obtain ⟨signature, known⟩ := Option.isSome_iff_exists.1 standing
      exact Option.isSome_iff_exists.2 ⟨_, signatures id signature known⟩
    | value id => cases standing
    | constant c => cases standing
  | slot home => cases standing
  | namespace_ inner => exact names inner standing

/-- What every context satisfies outside of functions. -/
structure Context.Sound (cx : Context) : Prop where
  ordered : cx.scopes.Ordered
  root : cx.scopes.contains ScopeTable.global
  standing : ∀ other x bound, cx.scopes.lookupIn other x = some bound →
    bound.Standing cx.module cx.scopes
  indexed : cx.module.Indexed
  verified : cx.module.verify = .ok ()

theorem Context.sound_initial (name : String) : (Context.initial name).Sound where
  ordered := ScopeTable.ordered_initial
  root := rfl
  standing := fun other x bound here => by
    have none_ : (Context.initial name).scopes.lookupIn other x = none := by
      cases other with | mk i =>
      cases i <;> rfl
    rw [none_] at here
    cases here
  indexed := rfl
  verified := rfl

/-! ## Headers -/

/-- The signature and the linkage name of a declaration that can be declared in a scope. -/
structure Header (env : Environment) (scope : ScopeId) (decl : FunctionDecl) (cx : Context)
    (signature : FunctionTy) (linkage : String) : Prop where
  typed : decl.signature? env.types env.symbols = .ok signature
  inside : cx.scopes.contains scope
  linked : env.mangler.mangle (ε := LowerError) env.symbols cx.scopes scope
    (env.name decl.name) = .ok linkage
  free : cx.module.functionNamed? linkage = none

/-- The context in which a function has been declared and bound. -/
def Context.declare (cx : Context) (scope : ScopeId) (name : Symbol) (f : Function) : Context :=
  { cx with
    module := cx.module.appended f
    scopes := cx.scopes.assign scope name
      (some (.direct (.function ⟨cx.module.functions.length⟩)))
    journal := cx.journal ++ [.functionDeclared f.name f.ty] }

/-- A declaration of the function is made and bound first. -/
theorem lowerFunction_header {signature : FunctionTy} {linkage : String}
    (header : Header env scope decl cx signature linkage) :
    lowerFunction env scope decl cx =
      (match decl.body with
        | none => return ()
        | some body => do
          (lowerBody env scope ⟨cx.module.functions.length⟩ decl body.stmts).orUndo
            fun cause => do
              Lower.log (.functionDropped linkage cause)
              retractDeclaration scope decl.name ⟨cx.module.functions.length⟩
                cx.module.globals.length (cx.scopes.lookupIn scope decl.name)
          Lower.log (.functionLowered linkage) : Lower Unit)
        (cx.declare scope decl.name (.declare linkage signature)) := by
  obtain ⟨typed, inside, linked, free⟩ := header
  have declared : cx.module.declare linkage signature =
      .ok (⟨cx.module.functions.length⟩, cx.module.appended (.declare linkage signature)) :=
    Module.declare_ok.2 ⟨free, rfl, rfl⟩
  rw [lowerFunction, bind_run, Lower.lift_run, typed]
  simp only []
  rw [bind_run, Lower.requireScope_run, if_pos inside]
  simp only []
  rw [bind_run, get_run]
  simp only []
  rw [bind_run, Lower.lift_run, linked]
  simp only []
  rw [bind_run, Lower.log_run]
  simp only []
  rw [bind_run, Lower.onModule_run]
  simp only [Context.log, declared]
  rw [bind_run, Lower.bind_scope_run, if_pos inside]
  cases decl.body <;> rfl

/-- A linkage name is missing only where a symbol is unknown. -/
theorem mangle_reason {ε : Type} {mangler : Mangler} {symbols : SymbolTable} {scopes : ScopeTable}
    {name : String} {cause : ε} :
    mangler.mangle symbols scopes scope name ≠ .error (.refused cause) := by
  unfold Mangler.mangle
  generalize scopes.namespacePath scope = path
  have parts : path.mapM (m := Except (Failure ε)) symbols.resolve ≠ .error (.refused cause) := by
    induction path with
    | nil => rintro ⟨⟩
    | cons symbol rest ih =>
      rw [List.mapM_cons, SymbolTable.resolve]
      cases symbols.resolve? symbol with
      | none => rintro ⟨⟩
      | some text =>
        revert ih
        cases rest.mapM (m := Except (Failure ε)) symbols.resolve with
        | ok texts => rintro - ⟨⟩
        | error failure =>
          intro ih same
          cases same
          exact ih rfl
  revert parts
  cases path.mapM (m := Except (Failure ε)) symbols.resolve with
  | ok texts => rintro - ⟨⟩
  | error failure =>
    intro parts same
    cases same
    exact parts rfl

/-- Without a header nothing is declared. -/
theorem lowerFunction_unheaded (env : Environment) (scope : ScopeId) (decl : FunctionDecl)
    (cx : Context)
    (none_ : ∀ signature linkage, ¬ Header env scope decl cx signature linkage) :
    ∃ failure cx', lowerFunction env scope decl cx = .error failure cx' ∧
      (∀ defect, failure ≠ .refused (.verification defect)) ∧
      (cx' = cx ∨ ∃ event, cx' = cx.log event) := by
  rw [lowerFunction, bind_run, Lower.lift_run]
  cases typed : decl.signature? env.types env.symbols with
  | error failure =>
    refine ⟨_, cx, rfl, fun defect same => ?_, Or.inl rfl⟩
    cases failure <;> cases same
  | ok signature =>
    simp only []
    rw [bind_run, Lower.requireScope_run]
    by_cases inside : cx.scopes.contains scope
    · rw [if_pos inside]
      simp only []
      rw [bind_run, get_run]
      simp only []
      rw [bind_run, Lower.lift_run]
      cases linked : env.mangler.mangle (ε := LowerError) env.symbols cx.scopes scope
          (env.name decl.name) with
      | error failure =>
        refine ⟨failure, cx, ?_, fun defect same => ?_, Or.inl rfl⟩
        · cases failure <;> rfl
        · subst same
          exact absurd linked mangle_reason
      | ok linkage =>
        simp only []
        rw [bind_run, Lower.log_run]
        simp only []
        rw [bind_run, Lower.onModule_run]
        cases declared : (cx.log (.functionDeclared linkage signature)).module.declare linkage
            signature with
        | error cause =>
          refine ⟨_, _, rfl, ?_, Or.inr ⟨_, rfl⟩⟩
          rintro defect ⟨⟩
        | ok result =>
          have free := (Module.declare_ok.1 declared).1
          exact absurd ⟨typed, inside, linked, free⟩ (none_ signature linkage)
    · rw [if_neg inside]
      refine ⟨_, cx, rfl, ?_, Or.inl rfl⟩
      rintro defect ⟨⟩

/-! ## Bodies -/

/-- The state in which the body of a declared function is begun. -/
def Context.begun (cx : Context) (scope : ScopeId) (name : Symbol) (f : Function) : BodyState :=
  ⟨cx.declare scope name f, .ofFunction f⟩

theorem BoundValue.Standing.valid {m : Module} {t : ScopeTable} {bound : BoundValue}
    (standing : bound.Standing m t) (f : Function) : bound.Valid m t f := by
  cases bound with
  | direct operand =>
    cases operand with
    | function id => exact standing
    | value id => cases standing
    | constant c => cases standing
  | slot home => cases standing
  | namespace_ inner => exact standing

/-- The bindings behind a declaration. -/
theorem Context.Sound.standing_declare (sound : cx.Sound) (name : Symbol) (f : Function)
    {other : ScopeId} {x : Symbol} {bound : BoundValue}
    (here : (cx.declare scope name f).scopes.lookupIn other x = some bound) :
    bound.Standing (cx.declare scope name f).module (cx.declare scope name f).scopes := by
  rw [Context.declare, ScopeTable.lookupIn_assign] at here
  split at here
  · cases here
    show ((cx.module.appended f).signature? _).isSome
    rw [Module.signature?, Module.function?_appended_new]
    rfl
  · refine (sound.standing other x bound here).mono (fun id signature known => ?_)
      fun inner named => ?_
    · exact Module.signature?_appended_old known f
    · show ((cx.scopes.assign scope name _).name? inner).isSome
      rwa [ScopeTable.name?_assign]

theorem Context.Sound.begun (sound : cx.Sound) (inside : cx.scopes.contains scope)
    (name : Symbol) (linkage : String) (signature : FunctionTy) :
    (cx.begun scope name (.declare linkage signature)).Declared scope signature where
  sound := {
    function := Function.wellFormed_declare _ _ _
    ordered := sound.ordered.congr fun _ => ScopeTable.enclosing_assign _
    valid := fun _ _ _ here => (sound.standing_declare name _ here).valid _ }
  inside := (Context.Grows.bind inside name _).contains inside
  blocks := rfl
  signature := rfl
  current := rfl

theorem mapM_ok {ε α β : Type} {f : α → Except ε β} :
    ∀ {l : List α} {l' : List β}, l.mapM f = .ok l' ↔ List.Forall₂ (fun a b => f a = .ok b) l l'
  | [], l' => by
    rw [List.mapM_nil, except_pure_ok]
    exact ⟨fun same => same ▸ .nil, fun all => by cases all; rfl⟩
  | a :: rest, l' => by
    simp only [List.mapM_cons, except_bind_ok, except_pure_ok]
    constructor
    · rintro ⟨b, first, bs, mapped, rfl⟩
      exact .cons first (mapM_ok.1 mapped)
    · intro all
      cases all with
      | cons first mapped => exact ⟨_, first, _, mapM_ok.2 mapped, rfl⟩

/-- The types of a header: the return type, `void` for none, and types of the parameters,
which are not `void`. -/
structure FunctionDecl.HasSignature (types : TypeMapping) (decl : FunctionDecl)
    (signature : FunctionTy) : Prop where
  ret : match decl.returnType with
    | none => signature.ret = .void
    | some ty => types.resolve ty = .ok signature.ret
  params : List.Forall₂
    (fun param ty => types.resolve param.type = .ok ty ∧ ty.isVoid = false)
    decl.params signature.params

theorem Param.type?_ok {types : TypeMapping} {symbols : SymbolTable} {param : Param} {ty : Ty} :
    param.type? types symbols = .ok ty ↔
      types.resolve param.type = .ok ty ∧ ty.isVoid = false := by
  unfold Param.type?
  cases types.resolve param.type with
  | error cause => simp
  | ok image =>
    by_cases void : image.isVoid
    · simp only [void, if_true, except_bind_ok, Except.ok.injEq]
      constructor
      · rintro ⟨name, -, thrown⟩
        exact absurd thrown except_throw_ok
      · rintro ⟨rfl, solid⟩
        rw [void] at solid
        cases solid
    · simp only [void, Bool.false_eq_true, if_false, Except.ok.injEq]
      exact ⟨fun same => ⟨same, same ▸ Bool.eq_false_iff.2 void⟩, fun both => both.1⟩

/-- A header is mapped exactly when it has a signature. -/
theorem signature?_ok {types : TypeMapping} {symbols : SymbolTable} {signature : FunctionTy} :
    decl.signature? types symbols = .ok signature ↔ decl.HasSignature types signature := by
  have params {ret : Ty} :
      (do
        let params ← decl.params.mapM (·.type? types symbols)
        return ⟨params, ret⟩ : Except (Failure TypeError) FunctionTy) = .ok signature ↔
      signature.ret = ret ∧ List.Forall₂
        (fun param ty => types.resolve param.type = .ok ty ∧ ty.isVoid = false)
        decl.params signature.params := by
    simp only [except_bind_ok, except_pure_ok, mapM_ok, Param.type?_ok]
    constructor
    · rintro ⟨tys, mapped, rfl⟩
      exact ⟨rfl, mapped⟩
    · rintro ⟨rfl, mapped⟩
      exact ⟨_, mapped, rfl⟩
  unfold FunctionDecl.signature?
  cases absent : decl.returnType with
  | none =>
    refine params.trans ⟨fun both => ⟨?_, both.2⟩, fun has => ⟨?_, has.params⟩⟩
    · rw [absent]
      exact both.1
    · have ret := has.ret
      rwa [absent] at ret
  | some ty =>
    cases image : types.resolve ty with
    | error cause =>
      refine ⟨fun run => ?_, fun has => ?_⟩
      · simp [image, Except.mapError, bind, Except.bind] at run
      · have ret := has.ret
        rw [absent] at ret
        simp [image] at ret
    | ok ret =>
      have run : ((types.resolve ty).mapError Failure.refused : Except (Failure TypeError) Ty) =
          .ok ret := by rw [image]; rfl
      simp only [run]
      refine params.trans ⟨fun both => ⟨?_, both.2⟩, fun has => ⟨?_, has.params⟩⟩
      · rw [absent]
        show types.resolve ty = _
        rw [image, both.1]
      · have ret' := has.ret
        rw [absent] at ret'
        exact (Except.ok.inj (image.symm.trans ret')).symm

/-- A signature has a type for every parameter. -/
theorem FunctionDecl.HasSignature.params_length {types : TypeMapping} {signature : FunctionTy}
    (has : decl.HasSignature types signature) :
    decl.params.length = signature.params.length :=
  has.params.length_eq

/-- The body of a declared function is lowered exactly when it is typed. -/
theorem building_foretold (sound : cx.Sound) {signature : FunctionTy} {linkage : String}
    (header : Header env scope decl cx signature linkage) (stmts : List Stmt) :
    Foretold (bodyProgress scope (Stmt.AnyVariables env.types signature.ret
        (((cx.begun scope decl.name (.declare linkage signature)).names scope).bindParams
          decl.params signature.params) stmts))
      (cx.begun scope decl.name (.declare linkage signature))
      (bodyTyping env.types
        ((cx.begun scope decl.name (.declare linkage signature)).names scope) decl.params
        signature stmts)
      (fun _ (_ : Unit) t => t.Built)
      (buildBody env scope decl stmts
        (cx.begun scope decl.name (.declare linkage signature))) :=
  buildBody_foretold env (sound.begun header.inside decl.name linkage signature)
    (signature?_ok.1 header.typed).params_length stmts

section Building

variable {signature : FunctionTy} {linkage : String} {stmts : List Stmt} {t : BodyState}

/-- A body that was lowered is typed. -/
theorem building_ok (sound : cx.Sound) (header : Header env scope decl cx signature linkage)
    (build : buildBody env scope decl stmts
      (cx.begun scope decl.name (.declare linkage signature)) = .ok () t) :
    (bodyTyping env.types ((cx.begun scope decl.name (.declare linkage signature)).names scope)
        decl.params signature stmts).isSome ∧
      (bodyProgress scope).Done (cx.begun scope decl.name (.declare linkage signature)) t ∧
      t.Built := by
  obtain ⟨names, typed, done, built⟩ := (building_foretold sound header stmts).of_ok build
  exact ⟨by rw [typed]; rfl, done, built⟩

/-- A body that was refused is not, and only a variable without values is no error of the
source. -/
theorem building_blames {cause : LowerError} (sound : cx.Sound)
    (header : Header env scope decl cx signature linkage)
    (build : buildBody env scope decl stmts
      (cx.begun scope decl.name (.declare linkage signature)) = .error (.refused cause) t) :
    bodyTyping env.types ((cx.begun scope decl.name (.declare linkage signature)).names scope)
        decl.params signature stmts = none ∧
      cause.Blames (Stmt.AnyVariables env.types signature.ret
        (((cx.begun scope decl.name (.declare linkage signature)).names scope).bindParams
          decl.params signature.params) stmts) ∧
      (cx.declare scope decl.name (.declare linkage signature)).Spares scope t.context := by
  have built := building_foretold sound header stmts
  rw [build] at built
  exact built

theorem building_refused {cause : LowerError} (sound : cx.Sound)
    (header : Header env scope decl cx signature linkage)
    (build : buildBody env scope decl stmts
      (cx.begun scope decl.name (.declare linkage signature)) = .error (.refused cause) t) :
    bodyTyping env.types ((cx.begun scope decl.name (.declare linkage signature)).names scope)
        decl.params signature stmts = none ∧ cause.ofBody = true ∧
      (cx.declare scope decl.name (.declare linkage signature)).Spares scope t.context := by
  obtain ⟨untyped, blames, spares⟩ := building_blames sound header build
  exact ⟨untyped, blames.ofBody, spares⟩

end Building

/-- Building, verifying and installing, as one equation. -/
theorem lowerBody_run (env : Environment) (scope : ScopeId) (decl : FunctionDecl)
    (stmts : List Stmt) (cx : Context) (name : Symbol) (linkage : String)
    (signature : FunctionTy) :
    lowerBody env scope ⟨cx.module.functions.length⟩ decl stmts
        (cx.declare scope name (.declare linkage signature)) =
      match buildBody env scope decl stmts
          (cx.begun scope name (.declare linkage signature)) with
      | .ok () t =>
        match t.builder.function.verify t.context.module with
        | .error defect => .error (.refused (.verification defect)) t.context
        | .ok () =>
          match t.context.module.define ⟨cx.module.functions.length⟩ t.builder.function with
          | .ok module => .ok () { t.context with module }
          | .error cause => .error (.refused (.build cause)) t.context
      | .error failure t => .error failure t.context := by
  have known : (cx.declare scope name (.declare linkage signature)).module.function?
      ⟨cx.module.functions.length⟩ = some (.declare linkage signature) :=
    Module.function?_appended_new _ _
  rw [lowerBody, bind_run, get_run]
  simp only [known]
  have built : Lower.building (.declare (Function.declare linkage signature).name
        (Function.declare linkage signature).ty) (buildBody env scope decl stmts)
        (cx.declare scope name (.declare linkage signature)) =
      match buildBody env scope decl stmts
          (cx.begun scope name (.declare linkage signature)) with
      | .ok () t => .ok t.builder.function t.context
      | .error failure t => .error failure t.context := rfl
  rw [bind_run, built]
  cases buildBody env scope decl stmts (cx.begun scope name (.declare linkage signature)) with
  | error failure t => rfl
  | ok a t =>
    simp only []
    rw [bind_run, get_run]
    simp only []
    cases t.builder.function.verify t.context.module with
    | error defect => rfl
    | ok b =>
      simp only []
      rw [Lower.onModule_run]
      cases t.context.module.define ⟨cx.module.functions.length⟩ t.builder.function <;> rfl

/-! ## Taking a declaration back -/

/-- The context after a declaration was taken back, where its body led to `after`. -/
def Context.dropped (cx : Context) (scope : ScopeId) (name : Symbol) (linkage : String)
    (cause : LowerError) (after : Context) : Context :=
  { after with
    module := cx.module
    scopes := after.scopes.restore scope name (cx.scopes.lookupIn scope name)
    journal := after.journal ++ [.functionDropped linkage cause] }

theorem undo_run (sound : cx.Sound) {signature : FunctionTy} {linkage : String}
    (header : Header env scope decl cx signature linkage) {after : Context}
    (spares : (cx.declare scope decl.name (.declare linkage signature)).Spares scope after)
    (cause : LowerError) :
    (do
      Lower.log (.functionDropped linkage cause)
      retractDeclaration scope decl.name ⟨cx.module.functions.length⟩
        cx.module.globals.length (cx.scopes.lookupIn scope decl.name) : Lower Unit) after =
      .ok () (cx.dropped scope decl.name linkage cause after) := by
  obtain ⟨more, same⟩ := spares.module
  have retracted : (after.log (.functionDropped linkage cause)).module.retract
      ⟨cx.module.functions.length⟩ =
      .ok (.declare linkage signature, cx.module.withGlobals more) :=
    (congrArg (Module.retract · _) same).trans
      (Module.retract_appended sound.indexed rfl header.free more)
  rw [bind_run, Lower.log_run]
  simp only []
  rw [retractDeclaration, bind_run, (discard_ok (u := ())).2
    ⟨.declare linkage signature, by rw [Lower.onModule_run, retracted]⟩]
  have whole : (cx.module.withGlobals more).truncateGlobals cx.module.globals.length =
      cx.module := Module.truncateGlobals_withGlobals _ _
  show EStateM.Result.ok () { Context.dropped cx scope decl.name linkage cause after with
    module := (cx.module.withGlobals more).truncateGlobals cx.module.globals.length } = _
  rw [whole]
  rfl

/-- What a refused declaration leaves: the module and all bindings as they were. -/
structure Context.Restored (cx cx' : Context) : Prop where
  module : cx'.module = cx.module
  lookups : ∀ other x, cx'.scopes.lookupIn other x = cx.scopes.lookupIn other x
  names : ∀ other, cx'.scopes.name? other = cx.scopes.name? other
  ordered : cx.scopes.Ordered → cx'.scopes.Ordered
  contains : ∀ other, cx.scopes.contains other → cx'.scopes.contains other

theorem Context.restored_dropped {signature : FunctionTy} {linkage : String}
    (inside : cx.scopes.contains scope) {name : Symbol} {after : Context}
    (spares : (cx.declare scope name (.declare linkage signature)).Spares scope after)
    (cause : LowerError) :
    cx.Restored (cx.dropped scope name linkage cause after) where
  module := rfl
  lookups := fun other x => by
    have within : after.scopes.contains scope := spares.contains spares.inside
    rw [Context.dropped, ScopeTable.restore, ScopeTable.lookupIn_assign, spares.lookups other x,
      Context.declare, ScopeTable.lookupIn_assign]
    by_cases here : scope = other ∧ x = name
    · obtain ⟨rfl, rfl⟩ := here
      rw [if_pos ⟨rfl, within, rfl⟩]
    · rw [if_neg fun all => here ⟨all.1, all.2.2⟩, if_neg fun all => here ⟨all.1, all.2.2⟩]
  names := fun other => by
    rw [Context.dropped, ScopeTable.restore, ScopeTable.name?_assign, spares.names other]
    exact ScopeTable.name?_assign _
  ordered := fun ordered => by
    refine (spares.ordered ?_).congr fun _ => ScopeTable.enclosing_assign _
    exact ordered.congr fun _ => ScopeTable.enclosing_assign _
  contains := fun other known => by
    have before := (Context.Grows.bind inside name
      (.direct (.function ⟨cx.module.functions.length⟩))).contains known
    have within := spares.contains before
    rw [ScopeTable.contains_iff] at within ⊢
    simpa [Context.dropped, ScopeTable.restore, ScopeTable.assign] using within

/-! ## The outcomes -/

/-- The context with a finished function, whose body led to `after`. -/
def Context.finished (cx : Context) (f : Function) (after : Context) : Context :=
  { after with
    module := { after.module with functions := cx.module.functions ++ [f] }
    journal := after.journal ++ [.functionLowered f.name] }

/-- Everything that the lowering of a function can end in. -/
inductive FunctionOutcome (env : Environment) (scope : ScopeId) (decl : FunctionDecl)
    (cx : Context) : EStateM.Result (Failure LowerError) Context Unit → Prop
  /-- The header was refused. -/
  | unheaded {failure : Failure LowerError} {cx' : Context}
      (none_ : ∀ signature linkage, ¬ Header env scope decl cx signature linkage)
      (other : ∀ defect, failure ≠ .refused (.verification defect))
      (kept : cx' = cx ∨ ∃ event, cx' = cx.log event) :
      FunctionOutcome env scope decl cx (.error failure cx')
  /-- There is no body to lower. -/
  | external {signature : FunctionTy} {linkage : String}
      (header : Header env scope decl cx signature linkage) (absent : decl.body = none) :
      FunctionOutcome env scope decl cx
        (.ok () (cx.declare scope decl.name (.declare linkage signature)))
  /-- The body was refused, and the declaration taken back. -/
  | refused {signature : FunctionTy} {linkage : String} {body : Body} {cause : LowerError}
      {t : BodyState} (header : Header env scope decl cx signature linkage)
      (present : decl.body = some body)
      (build : buildBody env scope decl body.stmts
        (cx.begun scope decl.name (.declare linkage signature)) = .error (.refused cause) t) :
      FunctionOutcome env scope decl cx
        (.error (.refused cause) (cx.dropped scope decl.name linkage cause t.context))
  /-- The function failed verification, and was taken back. -/
  | defective {signature : FunctionTy} {linkage : String} {body : Body} {t : BodyState}
      {defect : Defect} (header : Header env scope decl cx signature linkage)
      (present : decl.body = some body)
      (build : buildBody env scope decl body.stmts
        (cx.begun scope decl.name (.declare linkage signature)) = .ok () t)
      (found : t.builder.function.verify t.context.module = .error defect) :
      FunctionOutcome env scope decl cx (.error (.refused (.verification defect))
        (cx.dropped scope decl.name linkage (.verification defect) t.context))
  /-- The function was installed. -/
  | installed {signature : FunctionTy} {linkage : String} {body : Body} {t : BodyState}
      (header : Header env scope decl cx signature linkage)
      (present : decl.body = some body)
      (build : buildBody env scope decl body.stmts
        (cx.begun scope decl.name (.declare linkage signature)) = .ok () t)
      (passed : t.builder.function.verify t.context.module = .ok ()) :
      FunctionOutcome env scope decl cx
        (.ok () (cx.finished t.builder.function t.context))

/-- A body that was built can be installed in the place of its declaration. -/
theorem define_built {signature : FunctionTy} {linkage : String} {name : Symbol} {t : BodyState}
    (done : (bodyProgress scope).Done (cx.begun scope name (.declare linkage signature)) t) :
    t.context.module.define ⟨cx.module.functions.length⟩ t.builder.function =
      .ok { t.context.module with
        functions := cx.module.functions ++ [t.builder.function] } := by
  obtain ⟨spares, grown⟩ := done
  obtain ⟨more, same⟩ := spares.module
  have named : t.builder.function.name = linkage := grown.name
  rw [same]
  refine (Module.define_appended rfl grown.name grown.ty more).trans ?_
  simp only [Module.appended, Module.withGlobals, named]
  rfl

theorem lowerFunction_outcome (sound : cx.Sound) :
    FunctionOutcome env scope decl cx (lowerFunction env scope decl cx) := by
  by_cases headed : ∃ signature linkage, Header env scope decl cx signature linkage
  · obtain ⟨signature, linkage, header⟩ := headed
    rw [lowerFunction_header header]
    cases present : decl.body with
    | none => exact .external header present
    | some body =>
      have built := building_foretold sound header body.stmts
      simp only []
      rw [bind_run, Lower.orUndo, lowerBody_run]
      cases build : buildBody env scope decl body.stmts
          (cx.begun scope decl.name (.declare linkage signature)) with
      | error failure t =>
        rw [build] at built
        cases failure with
        | fault fault => exact built.elim
        | refused cause =>
          have undone := undo_run sound header built.2.2 cause
          simp only [undone]
          exact .refused header present build
      | ok a t =>
        rw [build] at built
        obtain ⟨names, -, done, ready⟩ := built
        simp only []
        cases verdict : t.builder.function.verify t.context.module with
        | error defect =>
          have undone := undo_run sound header done.1 (.verification defect)
          simp only [undone]
          exact .defective header present build verdict
        | ok b =>
          simp only [define_built done]
          have named : t.builder.function.name = linkage := done.2.name
          rw [← named]
          exact .installed header present build verdict
  · simp only [not_exists] at headed
    obtain ⟨failure, cx', run, other, kept⟩ := lowerFunction_unheaded env scope decl cx headed
    rw [run]
    exact .unheaded headed other kept

/-! ## The next context -/

/-- `cx'` still has the functions, scopes and namespaces of `cx`. -/
structure Context.Follows (cx cx' : Context) : Prop where
  functions : cx.module.functions <+: cx'.module.functions
  contains : ∀ other, cx.scopes.contains other → cx'.scopes.contains other
  names : ∀ other, (cx.scopes.name? other).isSome → (cx'.scopes.name? other).isSome

namespace Context

theorem Follows.refl (cx : Context) : cx.Follows cx where
  functions := List.prefix_rfl
  contains := fun _ known => known
  names := fun _ known => known

theorem Follows.trans {cx'' : Context} (first : cx.Follows cx') (second : cx'.Follows cx'') :
    cx.Follows cx'' where
  functions := first.functions.trans second.functions
  contains := fun other known => second.contains other (first.contains other known)
  names := fun other named => second.names other (first.names other named)

/-- The module and the lookups decide whether a context is sound. -/
theorem Sound.restored (sound : cx.Sound) (restored : cx.Restored cx') : cx'.Sound where
  ordered := restored.ordered sound.ordered
  root := restored.contains _ sound.root
  standing := fun other x bound here => by
    rw [restored.lookups] at here
    rw [restored.module]
    refine (sound.standing other x bound here).mono (fun _ _ known => known) fun inner named => ?_
    rwa [restored.names]
  indexed := restored.module ▸ sound.indexed
  verified := restored.module ▸ sound.verified

theorem Restored.follows (restored : cx.Restored cx') : cx.Follows cx' where
  functions := restored.module ▸ List.prefix_rfl
  contains := restored.contains
  names := fun other named => by rwa [restored.names]

theorem restored_log (cx : Context) (event : Event) : cx.Restored (cx.log event) where
  module := rfl
  lookups := fun _ _ => rfl
  names := fun _ => rfl
  ordered := fun ordered => ordered
  contains := fun _ known => known

theorem restored_warn (cx : Context) (diagnostic : Diagnostic) :
    cx.Restored (cx.warn diagnostic) where
  module := rfl
  lookups := fun _ _ => rfl
  names := fun _ => rfl
  ordered := fun ordered => ordered
  contains := fun _ known => known

/-- A context to which a function was added under its name. -/
structure Gains (cx : Context) (scope : ScopeId) (name : Symbol) (f : Function)
    (cx' : Context) : Prop where
  module : ∃ more, cx'.module = (cx.module.appended f).withGlobals more
  lookups : ∀ other x, cx'.scopes.lookupIn other x = (cx.scopes.assign scope name
    (some (.direct (.function ⟨cx.module.functions.length⟩)))).lookupIn other x
  names : ∀ other, cx'.scopes.name? other = cx.scopes.name? other
  ordered : cx.scopes.Ordered → cx'.scopes.Ordered
  contains : ∀ other, cx.scopes.contains other → cx'.scopes.contains other

variable {name : Symbol} {f : Function}

theorem gains_declare (inside : cx.scopes.contains scope) (name : Symbol) (f : Function) :
    cx.Gains scope name f (cx.declare scope name f) where
  module := ⟨[], by simp [declare, Module.withGlobals]⟩
  lookups := fun _ _ => rfl
  names := fun _ => ScopeTable.name?_assign _
  ordered := fun ordered => ordered.congr fun _ => ScopeTable.enclosing_assign _
  contains := fun _ known => (Context.Grows.bind inside name
    (.direct (.function ⟨cx.module.functions.length⟩))).contains known

theorem gains_finished {signature : FunctionTy} {linkage : String} {t : BodyState}
    (inside : cx.scopes.contains scope)
    (done : (bodyProgress scope).Done (cx.begun scope name (.declare linkage signature)) t) :
    cx.Gains scope name t.builder.function (cx.finished t.builder.function t.context) where
  module := by
    obtain ⟨more, same⟩ := done.1.module
    have named : t.builder.function.name = linkage := done.2.name
    refine ⟨more, ?_⟩
    rw [finished, same]
    simp only [Module.appended, Module.withGlobals, named]
    rfl
  lookups := fun other x => done.1.lookups other x
  names := fun other => (done.1.names other).trans (ScopeTable.name?_assign _)
  ordered := fun ordered =>
    done.1.ordered (ordered.congr fun _ => ScopeTable.enclosing_assign _)
  contains := fun other known =>
    done.1.contains ((gains_declare inside name (.declare linkage signature)).contains other known)

theorem Gains.follows (gains : cx.Gains scope name f cx') : cx.Follows cx' where
  functions := by
    obtain ⟨more, same⟩ := gains.module
    rw [same]
    exact List.prefix_append _ _
  contains := gains.contains
  names := fun other named => by rwa [gains.names]

theorem Gains.sound (gains : cx.Gains scope name f cx') (sound : cx.Sound)
    (free : cx.module.functionNamed? f.name = none)
    (verified : f.verify cx'.module = .ok ()) : cx'.Sound := by
  obtain ⟨more, same⟩ := gains.module
  refine ⟨gains.ordered sound.ordered, gains.contains _ sound.root, fun other x bound here => ?_,
    ?_, ?_⟩
  · rw [gains.lookups other x] at here
    rw [same]
    refine (sound.standing_declare name f here).mono (fun _ _ known => known) fun inner named => ?_
    rw [gains.names]
    rwa [Context.declare, ScopeTable.name?_assign] at named
  · rw [same]
    exact Module.indexed_appended sound.indexed f
  · rw [same] at verified ⊢
    exact Module.verify_appended sound.verified sound.indexed free more verified

end Context

/-- Lowering a function leads to a sound context: with one more function, which has a body
exactly when its declaration has one, or with the module as it was. -/
theorem lowerFunction_sound (env : Environment) (scope : ScopeId) (decl : FunctionDecl)
    (sound : cx.Sound) :
    match lowerFunction env scope decl cx with
    | .ok () cx' => cx'.Sound ∧ cx.Follows cx' ∧
        ∃ f, cx'.module.functions = cx.module.functions ++ [f] ∧
          (f.isDeclaration ↔ decl.body = none)
    | .error _ cx' => cx'.Sound ∧ cx.Follows cx' ∧ cx'.module = cx.module := by
  have kept {cx' : Context} (restored : cx.Restored cx') :
      cx'.Sound ∧ cx.Follows cx' ∧ cx'.module = cx.module :=
    ⟨sound.restored restored, restored.follows, restored.module⟩
  have gained {name : Symbol} {f : Function} {cx' : Context}
      (gains : cx.Gains scope name f cx') :
      cx'.module.functions = cx.module.functions ++ [f] := by
    obtain ⟨more, same⟩ := gains.module
    rw [same]
    rfl
  have outcome : FunctionOutcome env scope decl cx (lowerFunction env scope decl cx) :=
    lowerFunction_outcome sound
  generalize lowerFunction env scope decl cx = r at outcome
  cases outcome with
  | unheaded none_ other unchanged =>
    rcases unchanged with rfl | ⟨event, rfl⟩
    · exact ⟨sound, .refl _, rfl⟩
    · exact kept (cx.restored_log event)
  | @external signature linkage header absent =>
    have gains := Context.gains_declare header.inside decl.name (.declare linkage signature)
    exact ⟨gains.sound sound header.free rfl, gains.follows, _, gained gains, by simp [absent]; rfl⟩
  | refused header present build =>
    have spares := (building_refused sound header build).2.2
    exact kept (Context.restored_dropped header.inside spares _)
  | defective header present build found =>
    obtain ⟨-, done, -⟩ := building_ok sound header build
    exact kept (Context.restored_dropped header.inside done.1 _)
  | @installed signature linkage body t header present build passed =>
    obtain ⟨-, done, ready⟩ := building_ok sound header build
    have gains := Context.gains_finished header.inside done
    have free : cx.module.functionNamed? t.builder.function.name = none := by
      rw [show t.builder.function.name = linkage from done.2.name]
      exact header.free
    have verified : t.builder.function.verify (cx.finished t.builder.function t.context).module =
        .ok () := by
      refine Function.verify_mono (fun id signature known => ?_) passed
      obtain ⟨more, same⟩ := gains.module
      obtain ⟨more', same'⟩ := done.1.module
      rw [same]
      rw [same'] at known
      exact (Module.signature?_appended done.2.ty id).trans known
    refine ⟨gains.sound sound free verified, gains.follows, _, gained gains, ?_⟩
    simp [present, Function.isDeclaration, ready.nonempty]

end SsaLowering
