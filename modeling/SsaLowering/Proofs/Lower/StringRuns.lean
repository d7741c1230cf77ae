/-
# SsaLowering.Proofs.Lower.StringRuns -- the constant data of a module, literal by literal

A function that is lowered leaves the data of its literals behind that of the functions before
it, and one that is refused leaves none, so what comes next takes up its handles.  Over any
units, the constant data of the module is that of the literals of the declarations that were
lowered, and each function has its own literals where its source uses them
(`Context.afterUnits_literals`).  Which declarations were lowered is told by `Item.accepted`.
-/
import SsaLowering.Proofs.Lower.StringData

namespace SsaLowering

set_option autoImplicit false

open Ir (Function FunctionTy Module StructTy Constant)

variable {env : Environment} {earlier : List String} {s t : BodyState} {scope : ScopeId}
  {cx cx' : Context} {decl : FunctionDecl}

/-! ## Functions -/

/-- The end of a body has no aggregate. -/
theorem BodyState.Sealed.quotes {span : FileSpan} {base : Nat} (sealed : s.Sealed span t) :
    s.Quotes env base [] [] t := by
  cases sealed with
  | ended ended => exact .refl s
  | @fell block cx selected context =>
    have plain : ∀ operand ∈ s.builder.fallOff.operands, operand.aggregate? = none := by
      unfold Ir.Builder.fallOff
      split <;> nofun
    have closed : s.Quotes env base [] [] (s.rebuilt (s.builder.closed block s.builder.fallOff)) :=
      .closedOther selected plain
    rcases context with rfl | rfl
    · exact closed
    · exact ⟨closed.data, closed.code⟩

/-- A body that is built adds the data of its literals, and has them where the source says. -/
theorem buildBody_quotes {signature : FunctionTy} {linkage : String} {stmts : List Stmt}
    (sound : cx.Sound) (header : Header env scope decl cx signature linkage)
    (data : cx.module.globals = quoting earlier)
    (build : buildBody env scope decl stmts
      (cx.begun scope decl.name (.declare linkage signature)) = .ok () t) :
    t.context.module.globals = quoting (earlier ++ Stmt.allLiterals stmts) ∧
      t.builder.function.aggregates.Perm
        (placed env earlier.length (Stmt.allUses .blank stmts)) := by
  obtain ⟨p, q, starts, body, sealed⟩ := buildBody_ok
    (sound.begun header.inside decl.name linkage signature)
    (signature?_ok.1 header.typed).params_length build
  have before : p.context.module.globals = quoting earlier := by
    rw [starts.context]
    exact data
  have names : p.context.scopes.Tells (Literal.Fits env earlier.length)
      (cx.begun scope decl.name (.declare linkage signature)).home
      (noteParams (fun _ => none) none decl.params) :=
    sound.tells header nofun
      (fun bound outer _ same => Option.some.inj same ▸ BoundValue.aggregate?_of_outer outer)
      (fun id _ same => Option.some.inj same ▸ rfl) rfl (congrArg (·.scopes) starts.context)
  rw [noteParams_same] at names
  have tallies : p.Tallies env earlier _ .blank :=
    ⟨names, before.trans (congrArg quoting (List.append_nil earlier).symm)⟩
  have quotes := lowerStmts_quotes env stmts starts.local_ tallies body
  have ended : BodyState.Quotes _ env earlier.length [] [] t := sealed.quotes
  have whole : p.Quotes env earlier.length (Stmt.allLiterals stmts) (Stmt.allUses .blank stmts) t :=
    quotes.then ⟨ended.data, ended.code⟩
  refine ⟨whole.data _ before, ?_⟩
  have nothing : p.builder.function.aggregates = [] := by
    obtain ⟨label, entry⟩ := starts.entry
    rw [Function.aggregates, entry]
    rfl
  have code := whole.code
  rw [nothing, List.nil_append] at code
  exact code

/-- A function of a declaration, whose aggregates are the literals of the declaration, each where
the source uses it.  Before the data of these literals there are `base` others. -/
structure Ir.Function.Cites (f : Function) (env : Environment) (decl : FunctionDecl) (base : Nat) :
    Prop where
  typed : decl.signature? env.types env.symbols = .ok f.ty
  code : f.aggregates.Perm (placed env base decl.uses)

theorem lowerFunction_cites (sound : cx.Sound) (data : cx.module.globals = quoting earlier)
    (run : lowerFunction env scope decl cx = .ok () cx') :
    ∃ f, cx'.module.functions = cx.module.functions ++ [f] ∧
      cx'.module.globals = quoting (earlier ++ decl.literals) ∧
      f.Cites env decl earlier.length := by
  have outcome : FunctionOutcome env scope decl cx (lowerFunction env scope decl cx) :=
    lowerFunction_outcome sound
  rw [run] at outcome
  cases outcome with
  | @external signature linkage header absent =>
    have literals : decl.literals = [] := by rw [FunctionDecl.literals, absent]; rfl
    have uses : decl.uses = [] := by rw [FunctionDecl.uses, absent]; rfl
    rw [literals, List.append_nil]
    refine ⟨.declare linkage signature, rfl, data, header.typed, ?_⟩
    rw [uses]
    exact .refl _
  | @installed signature linkage body t header present build passed =>
    obtain ⟨-, done, -⟩ := building_ok sound header build
    obtain ⟨globals, code⟩ := buildBody_quotes sound header data build
    have literals : decl.literals = Stmt.allLiterals body.stmts := by
      rw [FunctionDecl.literals, present]; rfl
    have uses : decl.uses = Stmt.allUses .blank body.stmts := by
      rw [FunctionDecl.uses, present]; rfl
    have ty : t.builder.function.ty = signature := done.2.ty
    rw [literals]
    refine ⟨t.builder.function, rfl, globals, ?_, ?_⟩
    · rw [ty]
      exact header.typed
    · rw [uses]
      exact code

/-! ## Modules -/

/-- The string literals of declarations that were lowered in this order. -/
def literalsOf (decls : List (Environment × FunctionDecl)) : List String :=
  decls.flatMap (·.2.literals)

theorem literalsOf_append (decls decls' : List (Environment × FunctionDecl)) :
    literalsOf (decls ++ decls') = literalsOf decls ++ literalsOf decls' :=
  List.flatMap_append

theorem literalsOf_singleton (env : Environment) (decl : FunctionDecl) :
    literalsOf [(env, decl)] = decl.literals :=
  List.append_nil _

/-- The functions of a module are those of the declarations, and its constant data is that of
their literals. -/
structure Ir.Module.Quotes (m : Module) (decls : List (Environment × FunctionDecl)) : Prop where
  data : m.globals = quoting (literalsOf decls)
  count : m.functions.length = decls.length
  functions : ∀ i (f : Function) env decl, m.functions[i]? = some f → decls[i]? = some (env, decl) →
    f.Cites env decl (literalsOf (decls.take i)).length

namespace Ir.Module.Quotes

variable {m m' : Module} {decls : List (Environment × FunctionDecl)}

theorem congr (quotes : m.Quotes decls) (same : m' = m) : m'.Quotes decls := same ▸ quotes

theorem initial (name : String) : (Context.initial name).module.Quotes [] where
  data := rfl
  count := rfl
  functions := nofun

/-- One more function. -/
theorem append (quotes : m.Quotes decls) {f : Function}
    (functions : m'.functions = m.functions ++ [f])
    (data : m'.globals = quoting (literalsOf decls ++ decl.literals))
    (cites : f.Cites env decl (literalsOf decls).length) : m'.Quotes (decls ++ [(env, decl)]) where
  data := by
    rw [data, literalsOf_append, literalsOf_singleton]
  count := by
    rw [functions, List.length_append, List.length_append, quotes.count]
    rfl
  functions := by
    intro i g env' decl' known source
    rw [functions] at known
    rcases Nat.lt_or_ge i decls.length with old | new
    · rw [List.getElem?_append_left (quotes.count.symm ▸ old)] at known
      rw [List.getElem?_append_left old] at source
      rw [List.take_append_of_le_length (Nat.le_of_lt old)]
      exact quotes.functions i g env' decl' known source
    · rw [List.getElem?_append_right new] at source
      rw [List.getElem?_append_right (quotes.count.symm ▸ new), quotes.count] at known
      rw [List.getElem?_singleton] at source known
      split at source
      · rename_i here
        rw [if_pos here] at known
        cases source
        cases known
        have last : i = decls.length := Nat.le_antisymm (Nat.sub_eq_zero_iff_le.1 here) new
        rw [last, List.take_left]
        exact cites
      · cases source

end Ir.Module.Quotes

/-! ## Items and units -/

mutual

/-- The declarations of an item that are lowered: those up to the first that is refused. -/
def Item.accepted (env : Environment) (scope : ScopeId) (cx : Context) : Item → List FunctionDecl
  | .function decl => if ((lowerFunction env scope decl).finished? cx).isSome then [decl] else []
  | .namespace_ name items _ =>
    let opened := cx.opened (.namespaceEntered (env.name name)) scope name
    Item.allAccepted env opened.1 opened.2 items
  | _ => []

def Item.allAccepted (env : Environment) (scope : ScopeId) (cx : Context) :
    List Item → List FunctionDecl
  | [] => []
  | item :: rest =>
    item.accepted env scope cx ++
      match (lowerItem env scope item).finished? cx with
      | some cx' => Item.allAccepted env scope cx' rest
      | none => []

end

/-- The declarations of a unit that are lowered. -/
def SourceUnit.accepted (env : Environment) (cx : Context) (unit : SourceUnit) :
    List FunctionDecl :=
  Item.allAccepted env ScopeTable.global (cx.log (.unitStarted unit.name unit.items.length))
    unit.items

/-- The context after units, each of which was lowered or ended in an error. -/
def Context.afterUnits (cx : Context) : List (Environment × SourceUnit) → Context
  | [] => cx
  | (env, unit) :: rest => ((lowerUnit env unit).after cx).afterUnits rest

/-- The declarations of these units that were lowered, in order. -/
def Context.accepted (cx : Context) :
    List (Environment × SourceUnit) → List (Environment × FunctionDecl)
  | [] => []
  | (env, unit) :: rest =>
    (unit.accepted env cx).map (env, ·) ++ ((lowerUnit env unit).after cx).accepted rest

variable {decls : List (Environment × FunctionDecl)}

theorem lowerFunction_quotes (env : Environment) (scope : ScopeId) (decl : FunctionDecl)
    (sound : cx.Sound) (quotes : cx.module.Quotes decls) :
    ((lowerFunction env scope decl).after cx).module.Quotes
      (decls ++ ((Item.function decl).accepted env scope cx).map (env, ·)) := by
  have leaves := lowerFunction_leaves env scope decl sound
  rw [Item.accepted, Lower.finished?]
  cases run : lowerFunction env scope decl cx with
  | ok done cx' =>
    obtain ⟨f, functions, data, cites⟩ := lowerFunction_cites sound quotes.data run
    rw [Lower.after_ok run]
    exact quotes.append functions data cites
  | error failure cx' =>
    rw [run] at leaves
    rw [Lower.after_error run]
    simpa using quotes.congr leaves.module

/-- Work on a namespace has the module of the work inside of it. -/
theorem namespace_module (env : Environment) (sound : cx.Sound)
    (inside : cx.scopes.contains scope) (name : Symbol) (items : List Item) (span : FileSpan) :
    let opened := cx.opened (.namespaceEntered (env.name name)) scope name
    ((lowerItem env scope (.namespace_ name items span)).after cx).module =
      ((lowerItems env opened.1 items).after opened.2).module := by
  obtain ⟨sound', there, -⟩ := sound.opened inside (.namespaceEntered (env.name name)) name
  have ends := lowerItems_ends env items _ _ sound' there
  have same := namespace_run _ inside name (lowerItems env · items) ends
  unfold Lower.after
  rw [lowerItem, same]
  simp only []
  cases lowerItems env (cx.opened (.namespaceEntered (env.name name)) scope name).1 items
    (cx.opened (.namespaceEntered (env.name name)) scope name).2 <;> rfl

mutual

theorem lowerItem_quotes (env : Environment) : ∀ (item : Item) (scope : ScopeId) {cx : Context}
    {decls : List (Environment × FunctionDecl)}, cx.Sound → cx.scopes.contains scope →
      cx.module.Quotes decls →
        ((lowerItem env scope item).after cx).module.Quotes
          (decls ++ (item.accepted env scope cx).map (env, ·))
  | .function decl, scope, cx, decls, sound, _, quotes => by
    rw [lowerItem]
    exact lowerFunction_quotes env scope decl sound quotes
  | .namespace_ name items span, scope, cx, decls, sound, inside, quotes => by
    obtain ⟨sound', there, -⟩ := sound.opened inside (.namespaceEntered (env.name name)) name
    rw [namespace_module env sound inside name items span, Item.accepted]
    exact lowerItems_quotes env items _ sound' there quotes
  | .class_ name span, scope, cx, decls, _, _, quotes => by
    rw [lowerItem, Item.accepted, List.map_nil, List.append_nil]
    · exact quotes
    all_goals simp
  | .interface name span, scope, cx, decls, _, _, quotes => by
    rw [lowerItem, Item.accepted, List.map_nil, List.append_nil]
    · exact quotes
    all_goals simp
  | .typeAlias name type span, scope, cx, decls, _, _, quotes => by
    rw [lowerItem, Item.accepted, List.map_nil, List.append_nil]
    · exact quotes
    all_goals simp

theorem lowerItems_quotes (env : Environment) : ∀ (items : List Item) (scope : ScopeId)
    {cx : Context} {decls : List (Environment × FunctionDecl)}, cx.Sound →
      cx.scopes.contains scope → cx.module.Quotes decls →
        ((lowerItems env scope items).after cx).module.Quotes
          (decls ++ (Item.allAccepted env scope cx items).map (env, ·))
  | [], scope, cx, decls, _, _, quotes => by
    rw [lowerItems, Item.allAccepted, List.map_nil, List.append_nil]
    exact quotes
  | item :: rest, scope, cx, decls, sound, inside, quotes => by
    have first := lowerItem_quotes env item scope sound inside quotes
    rw [Item.allAccepted, List.map_append, ← List.append_assoc, Lower.finished?]
    cases run : lowerItem env scope item cx with
    | ok done cx' =>
      have ends := lowerItem_ends env item scope cx sound inside
      rw [run] at ends
      obtain ⟨fs, adds⟩ := ends
      rw [Lower.after_ok run] at first
      have onward : (lowerItems env scope (item :: rest)).after cx =
          (lowerItems env scope rest).after cx' := by
        rw [lowerItems, Lower.after, bind_run, run]
        rfl
      rw [onward]
      exact lowerItems_quotes env rest scope adds.sound (adds.scopes.contains scope inside) first
    | error failure cx' =>
      rw [Lower.after_error run] at first
      have stopped : (lowerItems env scope (item :: rest)).after cx = cx' := by
        rw [lowerItems, Lower.after, bind_run, run]
      rw [stopped, List.map_nil, List.append_nil]
      exact first

end

theorem lowerUnit_quotes (env : Environment) (unit : SourceUnit) (sound : cx.Sound)
    (quotes : cx.module.Quotes decls) :
    ((lowerUnit env unit).after cx).module.Quotes
      (decls ++ (unit.accepted env cx).map (env, ·)) := by
  have logged := sound.restored (cx.restored_log (.unitStarted unit.name unit.items.length))
  have whole : (lowerUnit env unit).after cx =
      (lowerItems env ScopeTable.global unit.items).after
        (cx.log (.unitStarted unit.name unit.items.length)) := by
    rw [lowerUnit, Lower.after, bind_run, Lower.log_run]
    rfl
  rw [whole]
  exact lowerItems_quotes env unit.items _ logged logged.root quotes

theorem Context.afterUnits_quotes : ∀ (units : List (Environment × SourceUnit)) {cx : Context}
    {decls : List (Environment × FunctionDecl)}, cx.Sound → cx.module.Quotes decls →
      (cx.afterUnits units).module.Quotes (decls ++ cx.accepted units)
  | [], cx, decls, _, quotes => by
    rw [afterUnits, accepted, List.append_nil]
    exact quotes
  | (env, unit) :: rest, cx, decls, sound, quotes => by
    have walked : (lowerUnit env unit).Walks (fun _ _ => True) cx :=
      lowerUnit_walks env unit sound fun _ _ => trivial
    rw [afterUnits, accepted, ← List.append_assoc]
    exact afterUnits_quotes rest (Run.sound walked sound).1 (lowerUnit_quotes env unit sound quotes)

/-! ## The literals of a module -/

/-- The handle in the aggregate of a literal leads to the data of this literal. -/
theorem Ir.Module.Quotes.data_of_literal {m : Module} (quotes : m.Quotes decls) {i : Nat}
    (source : decls[i]? = some (env, decl)) {lit : Literal} (among : lit.Among decl.literals) :
    ∃ data, m.globals[(literalsOf (decls.take i)).length + lit.number]? = some data ∧
      data.bytes = lit.text.toUTF8.toList := by
  obtain ⟨bound, here⟩ := List.getElem?_eq_some_iff.1 source
  have split_ : literalsOf decls =
      literalsOf (decls.take i) ++ (decl.literals ++ literalsOf (decls.drop (i + 1))) := by
    rw [← literalsOf_singleton env decl, ← literalsOf_append, ← literalsOf_append, ← here,
      List.singleton_append, List.getElem_cons_drop, List.take_append_drop]
  have text : (literalsOf decls)[(literalsOf (decls.take i)).length + lit.number]? =
      some lit.text := by
    rw [split_, List.getElem?_append_right (Nat.le_add_right _ _), Nat.add_sub_cancel_left]
    exact among.append _
  have present := getElem?_quoting text
  rw [← quotes.data] at present
  exact ⟨_, present, rfl⟩

namespace Sample

/-- A function `(): string` with a body. -/
def phrase (name : Symbol) (stmts : List Stmt) : Item :=
  .function { function stmts with name, params := [], returnType := some .string }

/-- The literal `"é"`, of two bytes. -/
def accented : Expr := .string "é" .unplaced

/-- `function f(): string { const y = "é"; return y }`, and
`function x(): string { return "é" + "é" }`, which is refused -/
def refusedLast : SourceUnit := ⟨⟨0⟩, "first", [
  phrase ⟨0⟩ [declare .const accented, .ret (some y) .unplaced],
  phrase ⟨1⟩ [.ret (some (.binary .add accented accented .unplaced)) .unplaced]]⟩

/-- `function y(): string { return "b" }` -/
def plain : SourceUnit := ⟨⟨0⟩, "second", [
  phrase ⟨2⟩ [.ret (some (.string "b" .unplaced)) .unplaced]]⟩

end Sample

/-- The handle that a refused function gave back is that of the next literal. -/
example :
    let m := ((Context.initial "m").afterUnits
      [(Sample.standard, Sample.refusedLast), (Sample.standard, Sample.plain)]).module
    m.globals = quoting ["é", "b"] ∧ m.functions.map (·.aggregates) =
      [[[some (.struct ⟨some "string", [.ptr, .int 32]⟩ [.global ⟨0⟩, .int 32 2])]],
        [[some (.struct ⟨some "string", [.ptr, .int 32]⟩ [.global ⟨1⟩, .int 32 1])]]] := by
  cbv

end SsaLowering
