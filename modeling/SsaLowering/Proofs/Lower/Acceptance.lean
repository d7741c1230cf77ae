/-
# SsaLowering.Proofs.Lower.Acceptance -- which functions are accepted

A body that is lowered can fail verification in one way only: a use without a
dominating definition, behind a branch that is directly a `const` statement
(`Context.Reached.verification`).  So without bare branches a function is accepted
exactly when it has a header, its linkage name is free and its body is typed under
the names that are visible where it stands (`Context.Reached.accepts`).
-/
import SsaLowering.Proofs.Lower.Dominance
import SsaLowering.Proofs.Lower.Run

namespace SsaLowering

set_option autoImplicit false

open Ir (Ty FunctionTy Function FuncId Module Defect)

variable {cx cx' : Context} {scope : ScopeId} {env : Environment} {decl : FunctionDecl}

/-! ## Branches without a block -/

section Branches

variable {bare other : Stmt → Bool}

theorem not_bare (weaker : ∀ stmt, bare stmt → other stmt) {stmt : Stmt}
    (clear : other stmt = false) : bare stmt = false := by
  by_contra found
  rw [Bool.not_eq_false] at found
  rw [weaker stmt found] at clear
  cases clear

mutual

theorem Stmt.bareBranch_mono (weaker : ∀ stmt, bare stmt → other stmt) : ∀ {stmt : Stmt},
    stmt.bareBranch other = false → stmt.bareBranch bare = false
  | .block stmts span, clear => by
    rw [Stmt.bareBranch] at clear ⊢
    exact Stmt.bareBranches_mono weaker clear
  | .ifElse condition thenBranch elseBranch span, clear => by
    rw [Stmt.bareBranch] at clear ⊢
    simp only [Bool.or_eq_false_iff] at clear ⊢
    obtain ⟨⟨⟨thenBare, elseBare⟩, thenClear⟩, elseClear⟩ := clear
    refine ⟨⟨⟨not_bare weaker thenBare, ?_⟩, Stmt.bareBranch_mono weaker thenClear⟩,
      Stmt.bareBranchOptional_mono weaker elseClear⟩
    cases elseBranch with
    | none => rfl
    | some stmt => exact not_bare weaker elseBare
  | .expression .., _ | .ret .., _ | .vars .., _ | .whileLoop .., _ | .breakLoop .., _
  | .continueLoop .., _ | .empty .., _ => by simp [Stmt.bareBranch]

theorem Stmt.bareBranchOptional_mono (weaker : ∀ stmt, bare stmt → other stmt) :
    ∀ {stmt : Option Stmt}, Stmt.bareBranchOptional other stmt = false →
      Stmt.bareBranchOptional bare stmt = false
  | none, _ => by rw [Stmt.bareBranchOptional]
  | some stmt, clear => by
    rw [Stmt.bareBranchOptional] at clear ⊢
    exact Stmt.bareBranch_mono weaker clear

theorem Stmt.bareBranches_mono (weaker : ∀ stmt, bare stmt → other stmt) :
    ∀ {stmts : List Stmt}, Stmt.bareBranches other stmts = false →
      Stmt.bareBranches bare stmts = false
  | [], _ => by rw [Stmt.bareBranches]
  | stmt :: rest, clear => by
    rw [Stmt.bareBranches, Bool.or_eq_false_iff] at clear ⊢
    exact ⟨Stmt.bareBranch_mono weaker clear.1, Stmt.bareBranches_mono weaker clear.2⟩

end

end Branches

theorem Stmt.isVars_of_isConst (stmt : Stmt) (const : stmt.isConst) : stmt.isVars := by
  cases stmt <;> simp_all [Stmt.isConst, Stmt.isVars]

/-! ## Verification -/

/-- Before its body is lowered a function names no values. -/
theorem Context.Sound.not_bound (sound : cx.Sound) (name : Symbol) (f : Function)
    (id : Ir.ValueId) : ¬ (cx.begun scope name f).Bound id := by
  rintro ⟨other, x, bound, here, named⟩
  have standing := sound.standing_declare name f here
  cases bound with
  | direct operand =>
    cases operand with
    | value id => cases standing
    | constant c => cases named
    | function id => cases named
  | slot home => cases standing
  | namespace_ inner => cases named

section Built

variable {signature : FunctionTy} {linkage : String} {stmts : List Stmt} {t : BodyState}

/-- A body that was built without a bare `const` branch is complete and verified. -/
theorem building_complete (sound : cx.Sound) (header : Header env scope decl cx signature linkage)
    (clear : Stmt.bareBranches Stmt.isConst stmts = false)
    (build : buildBody env scope decl stmts
      (cx.begun scope decl.name (.declare linkage signature)) = .ok () t) :
    t.builder.function.Complete ∧ t.builder.function.verify t.context.module = .ok () := by
  obtain ⟨-, -, built⟩ := building_ok sound header build
  have declared := sound.begun header.inside decl.name linkage signature
  obtain ⟨D, account⟩ := buildBody_dominance declared
    (signature?_ok.1 header.typed).params_length
    (fun id => sound.not_bound decl.name _ id) clear build
  refine ⟨⟨built.nonempty, built.ended, fun id data use known read =>
    account.defines built.function known read⟩, ?_⟩
  rcases built.function.verify_cases built.ended built.nonempty with passed | ⟨defect, -⟩
  · exact passed
  · exact absurd (account.dominated built.function) defect

end Built

/-- The one defect that the lowering of a function ends in is a use that is not dominated,
and its body has a branch that is directly a `const` statement.  Every function whose
body has no such branch ends all of its blocks and defines what it uses before each use. -/
theorem Context.Reached.verification (reached : cx.Reached) (env : Environment)
    (scope : ScopeId) (decl : FunctionDecl) :
    (∀ defect cx', lowerFunction env scope decl cx =
      .error (.refused (.verification defect)) cx' →
        (∃ name value block, defect = .notDominated name value block) ∧
        ∃ body, decl.body = some body ∧ Stmt.bareBranches Stmt.isConst body.stmts = true) ∧
    ∀ body cx', decl.body = some body → Stmt.bareBranches Stmt.isConst body.stmts = false →
      lowerFunction env scope decl cx = .ok () cx' →
        ∃ f, cx'.module.functions = cx.module.functions ++ [f] ∧ f.Complete := by
  have sound := reached.sound
  have outcome : FunctionOutcome env scope decl cx (lowerFunction env scope decl cx) :=
    lowerFunction_outcome sound
  constructor
  · intro defect cx' run
    rw [run] at outcome
    cases outcome with
    | unheaded none_ other kept => exact absurd rfl (other defect)
    | refused header present build =>
      have reason := (building_refused sound header build).2.1
      cases reason
    | @defective signature linkage body t _ header present build found =>
      obtain ⟨-, -, built⟩ := building_ok sound header build
      refine ⟨?_, body, present, ?_⟩
      · rcases built.function.verify_cases built.ended built.nonempty with
          passed | ⟨-, value, block, refused⟩
        · rw [passed] at found
          cases found
        · rw [refused] at found
          cases found
          exact ⟨_, value, block, rfl⟩
      · by_contra clear
        rw [Bool.not_eq_true] at clear
        rw [(building_complete sound header clear build).2] at found
        cases found
  · intro body cx' present clear run
    rw [run] at outcome
    cases outcome with
    | external header absent =>
      rw [absent] at present
      cases present
    | @installed signature linkage body' t header present' build passed =>
      obtain rfl : body' = body := Option.some.inj (present'.symm.trans present)
      exact ⟨t.builder.function, rfl, (building_complete sound header clear build).1⟩

/-- Whether work is refused because a function fails verification. -/
def Lower.unverified {α : Type} (work : Lower α) (cx : Context) : Bool :=
  match work cx with
  | .error (.refused (.verification _)) _ => true
  | _ => false

theorem Lower.error_of_unverified {α : Type} {work : Lower α} {cx : Context}
    (unverified : work.unverified cx = true) :
    ∃ defect, work cx = .error (.refused (.verification defect)) (work.after cx) := by
  unfold Lower.unverified at unverified
  split at unverified
  · rename_i defect cx' run
    exact ⟨defect, by rw [run, Lower.after_error run]⟩
  · cases unverified

/-- `if (true) const y = x + x; return y` -/
def Sample.escaping : FunctionDecl :=
  function [.ifElse (.bool true .unplaced) (declare .const (.binary .add x x .unplaced)) none
    .unplaced, .ret (some y) .unplaced]

theorem Context.Reached.verification_sample :
    (Context.initial "m").Reached ∧
      (∃ name value block cx',
        lowerFunction Sample.standard ScopeTable.global Sample.escaping (.initial "m") =
          .error (.refused (.verification (.notDominated name value block))) cx') ∧
      ∃ f cx', lowerFunction Sample.standard ScopeTable.global Sample.double (.initial "m") =
        .ok () cx' ∧ cx'.module.functions = [f] ∧ f.Complete := by
  have reached : (Context.initial "m").Reached := ⟨"m", .refl⟩
  refine ⟨reached, ?_, ?_⟩
  · have fails : (lowerFunction Sample.standard ScopeTable.global Sample.escaping).unverified
        (.initial "m") = true := by cbv
    obtain ⟨defect, run⟩ := Lower.error_of_unverified fails
    obtain ⟨⟨name, value, block, rfl⟩, -⟩ :=
      (reached.verification Sample.standard ScopeTable.global Sample.escaping).1 _ _ run
    exact ⟨name, value, block, _, run⟩
  · have passes : ((lowerFunction Sample.standard ScopeTable.global Sample.double).finished?
        (.initial "m")).isSome := by cbv
    obtain ⟨cx', finished⟩ := Option.isSome_iff_exists.1 passes
    have run := Lower.ok_of_finished finished
    obtain ⟨f, added, complete⟩ :=
      (reached.verification Sample.standard ScopeTable.global Sample.double).2 _ _ rfl rfl run
    exact ⟨f, cx', run, added, complete⟩

/-! ## Names and linkage outside of functions -/

/-- What a name that is bound outside of functions stands for when it is read. -/
def Context.valueKind? (cx : Context) : BoundValue → Option ValueKind
  | .direct (.function id) => (cx.module.signature? id).map .function
  | _ => none

/-- What a name that is bound outside of functions stands for. -/
def Context.nameKind? (cx : Context) : BoundValue → Option NameKind
  | .namespace_ inner =>
    some (.namespace_ fun x => (cx.scopes.lookupIn inner x).bind cx.valueKind?)
  | bound => (cx.valueKind? bound).map .value

/-- What the names stand for that are visible in a scope outside of functions. -/
def Context.names (cx : Context) (scope : ScopeId) : Names := fun x =>
  (cx.scopes.resolve scope x).bind cx.nameKind?

/-- The linkage name of a symbol in a scope. -/
def Environment.linkage (env : Environment) (scopes : ScopeTable) (scope : ScopeId)
    (name : Symbol) : String :=
  env.mangler.join ((scopes.namespacePath scope).map env.name ++ [env.name name])

/-- The symbol table has issued the symbol. -/
def Environment.Issued (env : Environment) (symbol : Symbol) : Prop :=
  (env.symbols.resolve? symbol).isSome

theorem BoundValue.Standing.valueKind? {bound : BoundValue}
    (standing : bound.Standing cx.module cx.scopes) (f : Function) :
    bound.valueKind? cx.module f = cx.valueKind? bound := by
  cases bound with
  | direct operand =>
    cases operand with
    | function id => rfl
    | value id => cases standing
    | constant c => cases standing
  | slot home => cases standing
  | namespace_ inner => rfl

/-- A body begins with the names around it. -/
theorem Context.Sound.names_begun (sound : cx.Sound) (name : Symbol) (f : Function)
    (other : ScopeId) :
    (cx.begun scope name f).names other = (cx.declare scope name f).names other := by
  have value {inner : ScopeId} {x : Symbol} {bound : BoundValue}
      (here : (cx.declare scope name f).scopes.lookupIn inner x = some bound) :
      bound.valueKind? (cx.declare scope name f).module f =
        (cx.declare scope name f).valueKind? bound :=
    (sound.standing_declare name f here).valueKind? f
  funext x
  rw [BodyState.names, Context.names]
  show ((cx.declare scope name f).scopes.resolve other x).bind _ = _
  cases found : (cx.declare scope name f).scopes.resolve other x with
  | none => rfl
  | some bound =>
    obtain ⟨e, -, here⟩ := ScopeTable.lookupIn_of_resolve found
    rw [Option.bind_some, Option.bind_some, BodyState.nameKind?]
    cases bound with
    | direct operand => exact congrArg (Option.map NameKind.value) (value here)
    | slot home => exact congrArg (Option.map NameKind.value) (value here)
    | namespace_ inner =>
      refine congrArg (fun members => some (NameKind.namespace_ members)) (funext fun y => ?_)
      show ((cx.declare scope name f).scopes.lookupIn inner y).bind _ = _
      cases member : (cx.declare scope name f).scopes.lookupIn inner y with
      | none => rfl
      | some bound => exact value member

theorem resolve_ok {ε : Type} {symbols : SymbolTable} {symbol : Symbol} {text : String} :
    symbols.resolve (ε := ε) symbol = .ok text ↔
      (symbols.resolve? symbol).isSome ∧ text = symbols.display symbol := by
  unfold SymbolTable.resolve SymbolTable.display
  cases symbols.resolve? symbol with
  | none => simp
  | some known => simp [eq_comm]

theorem forall₂_eq_map {α β : Type} {g : α → β} {l : List α} {l' : List β} :
    List.Forall₂ (fun a b => b = g a) l l' ↔ l' = l.map g := by
  have flipped : List.Forall₂ (fun a b => b = g a) l l' ↔ List.Forall₂ Eq (l.map g) l' := by
    rw [List.forall₂_map_left_iff]
    exact ⟨fun all => all.imp fun _ _ => Eq.symm, fun all => all.imp fun _ _ => Eq.symm⟩
  rw [flipped, List.forall₂_eq_eq_eq]
  exact eq_comm

/-- Where the namespaces around have issued names, the linkage name is made of them. -/
theorem mangle_ok {ε : Type} {scopes : ScopeTable} {name : Symbol} {linkage : String} :
    env.mangler.mangle (ε := ε) env.symbols scopes scope (env.name name) = .ok linkage ↔
      (∀ symbol ∈ scopes.namespacePath scope, env.Issued symbol) ∧
        linkage = env.linkage scopes scope name := by
  simp only [Mangler.mangle, except_bind_ok, except_pure_ok, mapM_ok, resolve_ok,
    List.forall₂_and_left, forall₂_eq_map]
  constructor
  · rintro ⟨texts, ⟨issued, rfl⟩, rfl⟩
    exact ⟨issued, rfl⟩
  · rintro ⟨issued, rfl⟩
    exact ⟨_, ⟨issued, rfl⟩, rfl⟩

/-! ## Acceptance -/

theorem Header.unique {signature signature' : FunctionTy} {linkage linkage' : String}
    (header : Header env scope decl cx signature linkage)
    (header' : Header env scope decl cx signature' linkage') :
    signature' = signature ∧ linkage' = linkage :=
  ⟨Except.ok.inj (header'.typed.symm.trans header.typed),
    Except.ok.inj (header'.linked.symm.trans header.linked)⟩

/-- A header in terms of the declaration, the scopes and the names in the module. -/
theorem header_iff (sound : cx.Sound) (inside : cx.scopes.contains scope)
    {signature : FunctionTy} {linkage : String} :
    Header env scope decl cx signature linkage ↔
      decl.HasSignature env.types signature ∧
        (∀ symbol ∈ cx.scopes.namespacePath scope, env.Issued symbol) ∧
        linkage = env.linkage cx.scopes scope decl.name ∧
        ∀ f ∈ cx.module.functions, f.name ≠ linkage := by
  have signed : decl.signature? env.types env.symbols = .ok signature ↔
      decl.HasSignature env.types signature := signature?_ok
  rw [← signed, ← and_assoc (b := _ = _), ← mangle_ok,
    ← Module.functionNamed?_eq_none sound.indexed]
  exact ⟨fun ⟨typed, _, linked, free⟩ => ⟨typed, linked, free⟩,
    fun ⟨typed, linked, free⟩ => ⟨typed, inside, linked, free⟩⟩

/-- What a declaration has to be for its lowering to succeed: its types have images and no
parameter is `void`, the namespaces around have names, the linkage name is free, and the
body is typed under the names that are visible in the scope, its own among them. -/
structure Context.Accepts (cx : Context) (env : Environment) (scope : ScopeId)
    (decl : FunctionDecl) (signature : FunctionTy) : Prop where
  header : decl.HasSignature env.types signature
  issued : ∀ symbol ∈ cx.scopes.namespacePath scope, env.Issued symbol
  free : ∀ f ∈ cx.module.functions, f.name ≠ env.linkage cx.scopes scope decl.name
  body : ∀ body, decl.body = some body →
    (bodyTyping env.types
      ((cx.declare scope decl.name
        (.declare (env.linkage cx.scopes scope decl.name) signature)).names scope)
      decl.params signature body.stmts).isSome

/-- The lowering of a function without bare variable branches succeeds exactly when the
declaration is accepted. -/
theorem Context.Reached.accepts (reached : cx.Reached) (inside : cx.scopes.contains scope)
    (env : Environment) (decl : FunctionDecl)
    (clear : ∀ body, decl.body = some body →
      Stmt.bareBranches Stmt.isVars body.stmts = false) :
    (∃ cx', lowerFunction env scope decl cx = .ok () cx') ↔
      ∃ signature, cx.Accepts env scope decl signature := by
  have sound := reached.sound
  have outcome : FunctionOutcome env scope decl cx (lowerFunction env scope decl cx) :=
    lowerFunction_outcome sound
  constructor
  · rintro ⟨cx', run⟩
    rw [run] at outcome
    cases outcome with
    | @external signature linkage header absent =>
      obtain ⟨typed, issued, rfl, free⟩ := (header_iff sound inside).1 header
      refine ⟨signature, typed, issued, free, fun body present => ?_⟩
      rw [absent] at present
      cases present
    | @installed signature linkage body t header present build passed =>
      obtain ⟨typed, issued, rfl, free⟩ := (header_iff sound inside).1 header
      refine ⟨signature, typed, issued, free, fun body' present' => ?_⟩
      obtain rfl : body = body' := Option.some.inj (present.symm.trans present')
      rw [← sound.names_begun]
      exact (building_ok sound header build).1
  · rintro ⟨signature, accepts⟩
    have header : Header env scope decl cx signature
        (env.linkage cx.scopes scope decl.name) :=
      (header_iff sound inside).2 ⟨accepts.header, accepts.issued, rfl, accepts.free⟩
    cases run : lowerFunction env scope decl cx with
    | ok a cx' => exact ⟨cx', rfl⟩
    | error failure cx' =>
      exfalso
      rw [run] at outcome
      cases outcome with
      | unheaded none_ other kept => exact none_ signature _ header
      | @refused signature' linkage' body cause t header' present build =>
        obtain ⟨rfl, rfl⟩ := header.unique header'
        have untyped := (building_refused sound header build).1
        have typed := accepts.body body present
        rw [← sound.names_begun, untyped] at typed
        cases typed
      | @defective signature' linkage' body t defect header' present build found =>
        have plain := Stmt.bareBranches_mono Stmt.isVars_of_isConst (clear body present)
        rw [(building_complete sound header' plain build).2] at found
        cases found

theorem Context.Reached.accepts_sample :
    (Context.initial "m").Reached ∧
      ∃ cx', lowerFunction Sample.standard ScopeTable.global Sample.double (.initial "m") =
        .ok () cx' := by
  have reached : (Context.initial "m").Reached := ⟨"m", .refl⟩
  refine ⟨reached, (reached.accepts rfl Sample.standard Sample.double ?_).2
    ⟨⟨[.double], .double⟩, ?_, ?_, ?_, ?_⟩⟩
  · rintro body ⟨⟩
    rfl
  · exact ⟨rfl, .cons ⟨rfl, rfl⟩ .nil⟩
  · rintro symbol ⟨⟩
  · rintro f ⟨⟩
  · rintro body ⟨⟩
    cbv

end SsaLowering
