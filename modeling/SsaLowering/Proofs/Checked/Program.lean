/-
# SsaLowering.Proofs.Checked.Program -- lowering never slips

The texts that lowering cannot do without are those of the namespaces, for linkage names,
and those of the parameters, for the report of one that is `void`; every other name is
shown in some way even when it has no text.  Where these are known, the checked lowering of
a program is its lowering: it ends with a program or with a cause for which there is none
(`lowerProgram_checked`).
-/
import SsaLowering.Proofs.Checked.Body
import SsaLowering.Proofs.Lower.Run

namespace SsaLowering

set_option autoImplicit false

open Ir (Function FunctionTy FuncId)

/-! ## The texts that are needed -/

mutual

/-- The names in an item that have to be known: of namespaces and of parameters. -/
def Item.spelled : Item → List Symbol
  | .function decl => decl.params.map (·.name)
  | .namespace_ name items _ => name :: Item.allSpelled items
  | .class_ .. | .interface .. | .typeAlias .. => []

def Item.allSpelled : List Item → List Symbol
  | [] => []
  | item :: rest => item.spelled ++ Item.allSpelled rest

end

/-! ## Signatures -/

theorem Param.type?_ne_fault (types : TypeMapping) {symbols : SymbolTable} {param : Param}
    (issued : (symbols.resolve? param.name).isSome) (fault : Fault) :
    param.type? types symbols ≠ .error (.fault fault) := by
  obtain ⟨name, known⟩ := Option.isSome_iff_exists.1 issued
  rw [Param.type?]
  cases types.resolve param.type with
  | error cause => simp
  | ok ty =>
    dsimp only
    split
    · rw [SymbolTable.resolve, known]
      simp [bind, Except.bind, throw, throwThe, MonadExceptOf.throw]
    · simp

theorem paramTypes_ne_fault (types : TypeMapping) {symbols : SymbolTable} (fault : Fault) :
    ∀ params : List Param, symbols.Issued (params.map (·.name)) →
      params.mapM (·.type? types symbols) ≠ .error (.fault fault)
  | [], _ => by simp [pure, Except.pure]
  | param :: rest, issued => by
    obtain ⟨first, others⟩ := SymbolTable.issued_cons.1 issued
    rw [List.mapM_cons]
    intro failed
    rcases except_bind_error.1 failed with here | ⟨ty, -, there⟩
    · exact param.type?_ne_fault types first fault here
    · rcases except_bind_error.1 there with later | ⟨tys, -, done⟩
      · exact paramTypes_ne_fault types fault rest others later
      · cases done

theorem FunctionDecl.signature?_ne_fault (types : TypeMapping) {symbols : SymbolTable}
    {decl : FunctionDecl} (issued : symbols.Issued (decl.params.map (·.name))) (fault : Fault) :
    decl.signature? types symbols ≠ .error (.fault fault) := by
  have params (ret : Ir.Ty) : (do
      let params ← decl.params.mapM (·.type? types symbols)
      return ⟨params, ret⟩ : Except (Failure TypeError) FunctionTy) ≠ .error (.fault fault) := by
    intro failed
    rcases except_bind_error.1 failed with here | ⟨tys, -, done⟩
    · exact paramTypes_ne_fault types fault decl.params issued here
    · cases done
  rw [FunctionDecl.signature?]
  cases decl.returnType with
  | none => exact params .void
  | some ty =>
    dsimp only
    cases types.resolve ty with
    | ok ret => exact params ret
    | error cause =>
      intro failed
      cases failed

namespace Checked

open Watch (nowhere)

variable {env : Environment} {within : List ScopeId} {scope : ScopeId}

/-! ## Functions -/

theorem get_agrees : env.contexts.Agrees within nowhere get get :=
  fun cx safe _ => ⟨rfl, .ok (.refl safe) (Watch.has_nowhere _ cx cx)⟩

theorem signature_agrees {decl : FunctionDecl}
    (issued : env.symbols.Issued (decl.params.map (·.name))) :
    env.contexts.Agrees within nowhere
      (plain (Lower.lift .type (decl.signature? env.types env.symbols)))
      (Lower.lift .type (decl.signature? env.types env.symbols)) := by
  have ends := decl.signature?_ne_fault env.types issued
  generalize decl.signature? env.types env.symbols = signature at ends
  cases signature with
  | ok signature => exact .pure signature
  | error failure =>
    cases failure with
    | refused cause => exact .refuse (.type cause)
    | fault fault => exact absurd rfl (ends fault)

/-- The linkage name of a declaration, for which its scope has to be there. -/
def linkageName (env : Environment) (scope : ScopeId) (name : String) : Lower String := do
  Lower.requireScope scope
  Lower.lift id (env.mangler.mangle env.symbols (← get).scopes scope name)

theorem mangle_agrees (inside : scope ∈ within) (name : String) :
    env.contexts.Agrees within nowhere (mangle env scope name) (linkageName env scope name) := by
  intro cx safe has
  have there : cx.scopes.contains scope := has scope inside
  obtain ⟨linkage, checked, mangled⟩ := env.mangler.mangleUp_eq (ε := LowerError)
    safe.threaded there safe.named name
  have run : linkageName env scope name cx = .ok linkage cx := by
    rw [linkageName, bind_run, Lower.requireScope_run, if_pos there]
    show Lower.lift id (env.mangler.mangle env.symbols cx.scopes scope name) cx = _
    rw [mangled]
    rfl
  rw [plain, run]
  constructor
  · rw [mangle, bind_run, get_run]
    show answer (env.mangler.mangleUp env.symbols cx.scopes scope name) cx = _
    rw [checked]
    rfl
  · exact .ok (.refl safe) (Watch.has_nowhere _ _ _)

theorem mangle_andThen {α : Type} {leads : α → List ScopeId} (inside : scope ∈ within)
    {name : String} {f : String → Checked Context α} {g : String → Lower α}
    (next : ∀ linkage, env.contexts.Agrees within leads (f linkage) (g linkage)) :
    env.contexts.Agrees within leads (mangle env scope name >>= f) (do
      Lower.requireScope scope
      let cx ← get
      let linkage ← Lower.lift id (env.mangler.mangle env.symbols cx.scopes scope name)
      g linkage) := by
  have together : (linkageName env scope name >>= g) = (do
      Lower.requireScope scope
      let cx ← get
      let linkage ← Lower.lift id (env.mangler.mangle env.symbols cx.scopes scope name)
      g linkage) := by
    simp only [linkageName, bind_assoc]
  rw [← together]
  exact (mangle_agrees inside name).andThen next

theorem building_agrees (declared : Function) {work : Checked BodyState Unit} {work' : LowerBody Unit}
    (agrees : env.bodies.Agrees within nowhere work work') :
    env.contexts.Agrees within nowhere (building declared work) (Lower.building declared work') := by
  intro cx safe has
  obtain ⟨same, settles⟩ :=
    agrees ⟨cx, .ofFunction declared⟩ ⟨safe, Ir.Builder.counted_ofFunction declared⟩ has
  rw [building, same, plain, plain, Lower.building]
  generalize work' ⟨cx, .ofFunction declared⟩ = outcome at settles
  cases settles with
  | ok reaches _ =>
    exact ⟨rfl, .ok ⟨reaches.safe.1, reaches.extends_⟩ (Watch.has_nowhere _ _ _)⟩
  | refused reaches => exact ⟨rfl, .refused ⟨reaches.safe.1, reaches.extends_⟩⟩

theorem lowerBody_agrees (inside : scope ∈ within) (id : FuncId) (decl : FunctionDecl)
    (stmts : List Stmt) :
    env.contexts.Agrees within nowhere (lowerBody env scope id decl stmts)
      (SsaLowering.lowerBody env scope id decl stmts) := by
  refine get_agrees.andThen fun cx => ?_
  cases cx.module.function? id with
  | none => exact .refuse _
  | some declared =>
    refine (building_agrees _ (buildBody_agrees inside decl stmts)).andThen fun function => ?_
    refine get_agrees.andThen fun cx => ?_
    cases function.verify cx.module with
    | error defect => exact .refuse _
    | ok _ => exact onModule_agrees _

/-- The module and the scopes are restored one after the other. -/
theorem retractDeclaration_agrees (inside : scope ∈ within) (name : Symbol) (id : FuncId)
    (globals : Nat) {previous : Option BoundValue}
    (known : ∀ inner ∈ innerScope previous, inner ∈ within) :
    env.contexts.Agrees within nowhere (retractDeclaration scope name id globals previous)
      (SsaLowering.retractDeclaration scope name id globals previous) := by
  refine (onModule_agrees _).discard.andThen fun _ => ?_
  have truncated : env.contexts.Agrees within nowhere
      (plain (modify fun cx => { cx with module := cx.module.truncateGlobals globals }))
      (modify fun cx => { cx with module := cx.module.truncateGlobals globals }) :=
    agrees_of_scopes fun _ => .inl ⟨_, _, rfl, rfl⟩
  exact truncated.andThen fun _ => restore_agrees inside name known

theorem orUndo_agrees {work : Checked Context Unit} {work' : Lower Unit}
    {undo : LowerError → Checked Context Unit} {undo' : LowerError → Lower Unit}
    (agrees : env.contexts.Agrees within nowhere work work')
    (undoes : ∀ cause, env.contexts.Agrees within nowhere (undo cause) (undo' cause)) :
    env.contexts.Agrees within nowhere (orUndo work undo) (work'.orUndo undo') := by
  intro cx safe has
  obtain ⟨same, settles⟩ := agrees cx safe has
  rw [orUndo, same, plain, plain, Lower.orUndo]
  generalize work' cx = outcome at settles
  cases settles with
  | ok reaches has' => exact ⟨rfl, .ok reaches has'⟩
  | @refused cause cx' reaches =>
    obtain ⟨same', settles'⟩ := undoes cause cx' reaches.safe (reaches.has has)
    dsimp only [Stop.of]
    rw [same', plain]
    generalize undo' cause cx' = outcome at settles'
    cases settles' with
    | ok reaches' _ => exact ⟨rfl, .refused (reaches.trans reaches')⟩
    | refused reaches' => exact ⟨rfl, .refused (reaches.trans reaches')⟩

theorem lowerFunction_agrees (inside : scope ∈ within) (decl : FunctionDecl)
    (issued : env.symbols.Issued (decl.params.map (·.name))) :
    env.contexts.Agrees within nowhere (lowerFunction env scope decl)
      (SsaLowering.lowerFunction env scope decl) := by
  refine (signature_agrees issued).andThen fun signature => mangle_andThen inside fun linkage => ?_
  refine (log_agrees _).andThen fun _ => (onModule_agrees _).andThen fun id => ?_
  have known : ∀ inner ∈ innerScope (some (.direct (.function id))), inner ∈ within := by
    intro inner absent
    cases absent
  refine (bind_agrees inside decl.name known).bind fun previous => ?_
  -- from here on, what the previous binding leads to is known to be there
  have inside' : scope ∈ innerScope previous ++ within := List.mem_append_right _ inside
  cases decl.body with
  | none => exact .pure _
  | some body =>
    refine get_agrees.andThen fun cx => ?_
    refine (orUndo_agrees (lowerBody_agrees inside' id decl body.stmts) fun cause => ?_).andThen
      fun _ => log_agrees _
    refine (log_agrees _).andThen fun _ => ?_
    exact retractDeclaration_agrees inside' decl.name id _
      fun inner member => List.mem_append_left _ member

/-! ## Programs -/

mutual

theorem lowerItem_agrees {within : List ScopeId} {scope : ScopeId} (inside : scope ∈ within) :
    ∀ item : Item, env.symbols.Issued item.spelled →
      env.contexts.Agrees within nowhere (lowerItem env scope item)
        (SsaLowering.lowerItem env scope item)
  | .function decl, issued => lowerFunction_agrees inside decl issued
  | .namespace_ name items span, issued => by
    rw [Item.spelled, SymbolTable.issued_cons] at issued
    rw [lowerItem, SsaLowering.lowerItem]
    refine (log_agrees _).andThen fun _ => ?_
    refine (enter_agrees inside ?_).bind fun inner => ?_
    · rintro given ⟨⟩
      exact issued.1
    refine (lowerItems_agrees List.mem_cons_self items issued.2).andThen fun _ => ?_
    refine (bind_agrees (List.mem_cons_of_mem _ inside) name ?_).discard
    exact fun scope member => List.mem_cons.2 (.inl (List.mem_singleton.1 member))
  | .class_ _ _, _ => warn_agrees _
  | .interface _ _, _ => warn_agrees _
  | .typeAlias _ _ _, _ => warn_agrees _

theorem lowerItems_agrees {within : List ScopeId} {scope : ScopeId} (inside : scope ∈ within) :
    ∀ items : List Item, env.symbols.Issued (Item.allSpelled items) →
      env.contexts.Agrees within nowhere (lowerItems env scope items)
        (SsaLowering.lowerItems env scope items)
  | [], _ => .pure _
  | item :: rest, issued => by
    rw [Item.allSpelled, SymbolTable.issued_append] at issued
    rw [lowerItems, SsaLowering.lowerItems]
    exact (lowerItem_agrees inside item issued.1).andThen
      fun _ => lowerItems_agrees inside rest issued.2

end

theorem lowerUnits_agrees (inside : ScopeTable.global ∈ within) :
    ∀ units : List SourceUnit,
      (∀ unit ∈ units, env.symbols.Issued (Item.allSpelled unit.items)) →
      env.contexts.Agrees within nowhere (lowerUnits env units) (SsaLowering.lowerUnits env units)
  | [], _ => .pure _
  | unit :: rest, issued => by
    rw [List.forall_mem_cons] at issued
    rw [lowerUnits, SsaLowering.lowerUnits]
    refine Watch.Agrees.andThen ?_ fun _ => lowerUnits_agrees inside rest issued.2
    exact (log_agrees _).andThen fun _ => lowerItems_agrees inside unit.items issued.1

theorem lowerAll_agrees (inside : ScopeTable.global ∈ within) {units : List SourceUnit}
    (issued : ∀ unit ∈ units, env.symbols.Issued (Item.allSpelled unit.items)) :
    env.contexts.Agrees within nowhere (lowerAll env units) (SsaLowering.lowerAll env units) := by
  refine (lowerUnits_agrees inside units issued).andThen fun _ => get_agrees.andThen fun cx => ?_
  cases cx.module.verify with
  | error defect => exact .refuse _
  | ok _ => exact (log_agrees _).andThen fun _ => .pure _

end Checked

/-- Where the names of namespaces and of parameters are known, the lowering of a program ends
with a program or with a cause for which there is none, and so it does when every access to a
table is checked: no scope, no block and no text is missing, and no suffix is counted beyond
the number of blocks, or of values, so that a counter that holds these numbers never overruns. -/
theorem lowerProgram_checked (env : Environment) (moduleName : String) (units : List SourceUnit)
    (issued : ∀ unit ∈ units, env.symbols.Issued (Item.allSpelled unit.items)) :
    (∃ program journal, lowerProgram env moduleName units = (.ok program, journal) ∧
        Checked.lowerProgram env moduleName units = (.ok program, journal)) ∨
      ∃ cause journal, lowerProgram env moduleName units = (.error (.refused cause), journal) ∧
        Checked.lowerProgram env moduleName units = (.error (.refused cause), journal) := by
  have start : env.contexts.Has (.initial moduleName) [ScopeTable.global] := by
    intro scope member
    rw [List.mem_singleton.1 member]
    rfl
  obtain ⟨same, settles⟩ := Checked.lowerAll_agrees List.mem_cons_self issued
    (.initial moduleName) (ScopeTable.safe_initial env.symbols) start
  rw [Checked.plain] at same
  rw [lowerProgram, Checked.lowerProgram, same]
  generalize lowerAll env units (.initial moduleName) = outcome at settles
  cases settles with
  | ok reaches _ => exact .inl ⟨_, _, rfl, rfl⟩
  | refused reaches => exact .inr ⟨_, _, rfl, rfl⟩

namespace Sample

/-- `namespace f { function ?(x: number): number { const ? = x + x; return ? } }`, where only
the namespace and the parameter have names that were issued. -/
def foreignNames : SourceUnit where
  file := ⟨0⟩
  name := "foreign"
  items := [.namespace_ ⟨0⟩ [.function { double with
    name := ⟨7⟩
    body := some ⟨[.vars .const [⟨⟨8⟩, none, some (.binary .add x x .unplaced), .unplaced⟩] .unplaced,
      .ret (some (.identifier ⟨8⟩ .unplaced)) .unplaced], .unplaced⟩ }] .unplaced]

end Sample

theorem lowerProgram_checked_sample :
    (∀ unit ∈ [Sample.foreignNames], Sample.standard.symbols.Issued (Item.allSpelled unit.items)) ∧
      ∃ program journal,
        lowerProgram Sample.standard "m" [Sample.foreignNames] = (.ok program, journal) ∧
        Checked.lowerProgram Sample.standard "m" [Sample.foreignNames] = (.ok program, journal) := by
  have issued : ∀ unit ∈ [Sample.foreignNames],
      Sample.standard.symbols.Issued (Item.allSpelled unit.items) := by
    intro unit member
    rw [List.mem_singleton.1 member]
    show ∀ name ∈ [(⟨0⟩ : Symbol), ⟨1⟩], (Sample.standard.symbols.resolve? name).isSome
    decide
  have accepted :
      (lowerProgram Sample.standard "m" [Sample.foreignNames]).1.toOption.isSome = true := by cbv
  refine ⟨issued, ?_⟩
  rcases lowerProgram_checked Sample.standard "m" [Sample.foreignNames] issued with
    done | ⟨cause, journal, refused, -⟩
  · exact done
  · rw [refused] at accepted
    cases accepted

/-- The hypothesis is needed: a linkage name asks for the text of each namespace. -/
example :
    (Checked.lowerProgram Sample.standard "m"
      [⟨⟨0⟩, "foreign", [.namespace_ ⟨7⟩ [.function Sample.double] .unplaced]⟩]).1 =
        .error (.slip (.handle (.unknownSymbol ⟨7⟩))) := by
  cbv

end SsaLowering
