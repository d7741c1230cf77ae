/-
# SsaLowering.Proofs.Lower.Body -- a body is built exactly when it is typed

`buildBody` binds the parameters in a scope of its own, opens the entry block,
lowers the statements there and ends the block that they fall off of.  It ends as
`bodyTyping` foretells (`buildBody_foretold`): a typed body leaves a function that
keeps its invariant and all of whose blocks have ended, and no body, whether it
is lowered or refused, changes a binding outside of its scope.
-/
import SsaLowering.Lower.Declaration
import SsaLowering.Proofs.Lower.Statement

namespace SsaLowering

set_option autoImplicit false

open Ir (Ty FunctionTy Function Builder ValueId BlockId BasicBlock Terminator)

variable {s t u : BodyState} {scope : ScopeId}

/-! ## What a whole body does to the context -/

/-- `cx'` is reached from `cx` by steps of a body in a scope inside `scope`. -/
structure Context.Spares (scope : ScopeId) (cx cx' : Context) : Prop
    extends cx.Grows scope cx' where
  lookups : ∀ other x, cx'.scopes.lookupIn other x = cx.scopes.lookupIn other x

theorem Context.Spares.warn {cx : Context} (inside : cx.scopes.contains scope)
    (diagnostic : Diagnostic) : cx.Spares scope (cx.warn diagnostic) :=
  { Context.Grows.warn inside diagnostic with lookups := fun _ _ => rfl }

theorem Context.Spares.trans {cx cx' cx'' : Context} (first : cx.Spares scope cx')
    (second : cx'.Spares scope cx'') : cx.Spares scope cx'' :=
  { first.toGrows.trans second.toGrows with
    lookups := fun other x => (second.lookups other x).trans (first.lookups other x) }

theorem Context.Spares.refl {cx : Context} (inside : cx.scopes.contains scope) :
    cx.Spares scope cx :=
  { Context.Grows.refl inside with lookups := fun _ _ => rfl }

/-- The steps of a whole body, which can be refused for a variable of one of the types `P`. -/
def bodyProgress (scope : ScopeId) (P : Ty → Prop := fun _ => True) :
    Progress LowerError BodyState where
  Done := fun s t =>
    s.context.Spares scope t.context ∧ s.builder.function.Extends t.builder.function
  Failed := fun s t => s.context.Spares scope t.context
  Reason := LowerError.Blames P
  trans := fun first second => ⟨first.1.trans second.1, first.2.trans second.2⟩
  after := fun first failed => first.1.trans failed

/-! ## Parameters -/

/-- The scopes with parameters bound to their values. -/
def ScopeTable.bindParams (t : ScopeTable) (scope : ScopeId) :
    List Param → List ValueId → ScopeTable
  | param :: params, value :: values =>
    (t.assign scope param.name (some (.direct (.value value)))).bindParams scope params values
  | _, _ => t

/-- The value has the type. -/
def Ir.Function.Holds (f : Function) (value : ValueId) (ty : Ty) : Prop :=
  ∃ data, f.value? value = some data ∧ data.ty = ty

theorem Ir.Function.Holds.mono {f g : Function} {value : ValueId} {ty : Ty}
    (holds : f.Holds value ty) (grown : f.Extends g) : g.Holds value ty := by
  obtain ⟨data, known, same⟩ := holds
  obtain ⟨name, known⟩ := grown.values value data known
  exact ⟨_, known, same⟩

/-- What `bindParams` leaves: new bindings, and names of values. -/
structure BodyState.ParamsBound (s : BodyState) (scope : ScopeId) (params : List Param)
    (values : List ValueId) (tys : List Ty) (t : BodyState) : Prop where
  context : t.context =
    { s.context with scopes := s.context.scopes.bindParams scope params values }
  grows : s.context.Grows scope t.context
  function : s.builder.function.Extends t.builder.function
  current : t.builder.current = s.builder.current
  blocks : t.builder.function.blocks = s.builder.function.blocks
  sound : t.Sound
  names : t.names scope = (s.names scope).bindParams params tys

theorem bindParams_run (env : Environment) :
    ∀ (params : List Param) (values : List ValueId) (tys : List Ty) (s : BodyState), s.Sound →
      s.context.scopes.contains scope → s.context.scopes.name? scope = none →
      params.length = values.length → List.Forall₂ s.builder.function.Holds values tys →
      ∃ t, bindParams env scope params values s = .ok () t ∧
        s.ParamsBound scope params values tys t
  | [], values, _, s, sound, inside, _, count, typed => by
    obtain rfl := List.length_eq_zero_iff.1 count.symm
    cases typed
    exact ⟨s, rfl, rfl, .refl inside, .refl _, rfl, rfl, sound, rfl⟩
  | param :: params, value :: values, ty :: tys, s, sound, inside, unnamed, count,
      .cons holds typed => by
    obtain ⟨data, known, rfl⟩ := holds
    obtain ⟨b, named, run, grown, ok, current, blocks⟩ :=
      nameValue_run sound (Option.isSome_iff_exists.2 ⟨data, known⟩) (env.name param.name)
    have renamed := sound.rebuilt grown ok
    obtain ⟨name, known'⟩ := grown.values value data known
    have kind : (BoundValue.direct (.value value)).valueKind? s.context.module b.function =
        some (.immutable data.ty) := by
      simp [BoundValue.valueKind?, operandKind?, known']
    have valid : (BoundValue.direct (.value value)).Valid s.context.module s.context.scopes
        b.function := Option.isSome_iff_exists.2 ⟨_, known'⟩
    obtain ⟨t, rest, bound⟩ := bindParams_run env params values tys
      ((s.rebuilt b).bound scope param.name (.direct (.value value))) (renamed.bound valid)
      ((Context.Grows.bind inside param.name _).contains inside)
      ((ScopeTable.name?_assign _).trans unnamed) (Nat.succ.inj count)
      (typed.imp fun _ _ holds => holds.mono grown)
    refine ⟨t, ?_, ?_⟩
    · rw [bindParams, bind_run, (discard_ok (u := ())).2 ⟨named, run⟩]
      simp only []
      rw [bind_run, bindName_run (s := s.rebuilt b) inside]
      exact rest
    · exact {
        context := bound.context
        grows := (Context.Grows.bind inside param.name _).trans bound.grows
        function := grown.trans bound.function
        current := bound.current.trans current
        blocks := bound.blocks.trans blocks
        sound := bound.sound
        names := by
          rw [bound.names, BodyState.names_bound renamed inside unnamed param.name kind,
            BodyState.names_rebuilt sound grown scope]
          rfl }

/-! ## The start of a body -/

/-- The state in which the first statement of a body is lowered. -/
structure BodyState.Starts (s : BodyState) (scope : ScopeId) (params : List Param)
    (tys : List Ty) (t : BodyState) : Prop where
  context : t.context = { (s.entered scope).context with
    scopes := (s.entered scope).context.scopes.bindParams s.home params
      s.builder.function.params }
  grows : (s.entered scope).context.Grows s.home t.context
  function : s.builder.function.Extends t.builder.function
  current : t.builder.current = some ⟨0⟩
  entry : ∃ label, t.builder.function.blocks = [⟨label, [], none⟩]
  local_ : t.Local s.home
  names : t.names s.home = (s.names scope).bindParams params tys

/-- A function that has been declared and not begun. -/
structure BodyState.Declared (s : BodyState) (scope : ScopeId) (ty : FunctionTy) : Prop where
  sound : s.Sound
  inside : s.context.scopes.contains scope
  blocks : s.builder.function.blocks = []
  signature : s.builder.function.ty = ty
  current : s.builder.current = none

theorem holds_params {f : Function} {m : Ir.Module} (ok : f.WellFormed m) :
    List.Forall₂ f.Holds f.params f.ty.params := by
  rw [ok.params, List.forall₂_iff_get]
  refine ⟨by simp, fun i _ bound => ?_⟩
  obtain ⟨name, known⟩ := ok.paramValue i _ (List.getElem?_eq_getElem bound)
  exact ⟨_, by simpa using known, rfl⟩

/-- The parameters are bound and the entry block is opened before anything else. -/
theorem prologue_run (env : Environment) {ty : FunctionTy} (declared : s.Declared scope ty)
    {params : List Param} (count : params.length = ty.params.length) :
    ∃ t, s.Starts scope params ty.params t ∧ ∀ work : LowerBody Unit,
      (do
        bindParams env s.home params (← LowerBody.builder).function.params
        let entry ← LowerBody.appendBlock "entry"
        LowerBody.emit_ (·.positionAtEnd entry)
        work : LowerBody Unit) (s.entered scope) = work t := by
  have inside : (s.entered scope).context.scopes.contains s.home := by
    rw [ScopeTable.contains_iff]
    simp [BodyState.entered, BodyState.home, Context.enter, ScopeTable.enter]
  have unnamed : (s.entered scope).context.scopes.name? s.home = none := by
    rw [BodyState.name?_entered, ScopeTable.name?_of_not_contains]
    rw [ScopeTable.contains_iff]
    exact Nat.lt_irrefl _
  have typed := holds_params declared.sound.function
  have counted : params.length = s.builder.function.params.length := by
    rw [typed.length_eq, declared.signature, count]
  rw [declared.signature] at typed
  obtain ⟨u, run, bound⟩ := bindParams_run env params s.builder.function.params ty.params
    (s.entered scope) (declared.sound.entered declared.inside) inside unnamed counted typed
  -- binding the parameters adds no block: the one that follows is the first
  have blocks : u.builder.function.blocks = [] := bound.blocks.trans declared.blocks
  have next : u.next = 0 := by rw [BodyState.next, blocks]; rfl
  have grown : u.builder.function.Extends (u.grow "entry").builder.function :=
    Function.extends_addBlock _ _
  have sound : (u.grow "entry").Sound :=
    bound.sound.rebuilt grown (Function.wellFormed_addBlock bound.sound.function _)
  obtain ⟨label, entry⟩ : ∃ label,
      (u.grow "entry").builder.function.blocks = [⟨label, [], none⟩] := by
    refine ⟨(u.builder.blockNames.fresh "entry").1, ?_⟩
    show u.builder.function.blocks ++ [_] = _
    rw [blocks]
    rfl
  have view : (u.grow "entry").builder.content ⟨0⟩ = some ([], none) := by
    rw [Builder.content, Function.block?, entry]
    rfl
  have names : ((u.grow "entry").at_ ⟨0⟩).names s.home =
      (s.names scope).bindParams params ty.params := by
    rw [← BodyState.names_entered declared.sound declared.inside, ← bound.names]
    exact (BodyState.names_rebuilt sound (.refl _) _).trans
      (BodyState.names_rebuilt bound.sound grown _)
  refine ⟨(u.grow "entry").at_ ⟨0⟩, ?_, fun work => ?_⟩
  · exact {
      context := bound.context
      grows := bound.grows
      function := bound.function.trans grown
      current := rfl
      entry := ⟨label, entry⟩
      local_ := BodyState.local_at sound (bound.grows.contains inside)
        ((bound.grows.names _).trans unnamed) view
      names := names }
  · rw [bind_run, LowerBody.builder_run]
    simp only []
    rw [bind_run]
    have run' : bindParams env s.home params (s.entered scope).builder.function.params
        (s.entered scope) = .ok () u := run
    rw [run']
    simp only []
    rw [bind_run, appendBlock_run, next]
    simp only []
    rw [bind_run, positionAtEnd_run view]

/-! ## The end of a body -/

/-- How a block ends that the body falls off of. -/
def Ir.Builder.fallOff (b : Builder) : Terminator :=
  if b.returnTy.isVoid then .ret none else .unreachable

/-- What `sealBody` leaves. -/
inductive BodyState.Sealed (span : FileSpan) (s : BodyState) : BodyState → Prop
  | ended (ended : s.builder.isTerminated = true) : Sealed span s s
  | fell {block : BlockId} {cx : Context} (selected : s.builder.Open block)
      (context : cx = s.context ∨
        cx = s.context.warn ⟨.missingReturn s.builder.function.name, span⟩) :
      Sealed span s ⟨cx, s.builder.closed block s.builder.fallOff⟩

theorem checkTerminator_fallOff (b : Builder) :
    b.function.checkTerminator b.fallOff = .ok () := by
  unfold Builder.fallOff
  split
  · rename_i void
    simp only [Function.checkTerminator, Terminator.successors, List.find?_nil]
    exact if_pos void
  · rfl

/-- The end of a body never fails. -/
theorem sealBody_run (placed : s.builder.Placed) (span : FileSpan) :
    ∃ t, sealBody span s = .ok () t ∧ s.Sealed span t := by
  cases ended : s.builder.isTerminated with
  | true =>
    refine ⟨s, ?_, .ended ended⟩
    rw [sealBody, bind_run, LowerBody.builder_run]
    obtain ⟨block, data, current, known⟩ := placed
    rw [Builder.isTerminated, current] at ended
    simp only [current]
    rw [if_pos ended]
    rfl
  | false =>
    obtain ⟨block, selected⟩ := placed.open ended
    have open_ : s.builder.hasTerminator block = false := by
      rwa [Builder.isTerminated, selected.current] at ended
    have closes : s.builder.terminate s.builder.fallOff =
        .ok (s.builder.closed block s.builder.fallOff) :=
      Builder.terminate_ok.2 ⟨block, selected, checkTerminator_fallOff _, rfl⟩
    unfold sealBody
    rw [bind_run, LowerBody.builder_run]
    simp only [selected.current, open_, Bool.false_eq_true, if_false]
    by_cases void : s.builder.returnTy.isVoid
    · refine ⟨⟨s.context, _⟩, ?_, .fell selected (Or.inl rfl)⟩
      rw [if_pos void, LowerBody.emitUnit_run]
      rw [Builder.fallOff, if_pos void] at closes ⊢
      rw [show s.builder.ret none = _ from closes]
    · rw [Builder.fallOff, if_neg void] at closes
      rw [if_neg void]
      by_cases reached : s.builder.function.reachable.contains block
      · refine ⟨⟨_, _⟩, ?_, .fell selected (Or.inr rfl)⟩
        rw [Builder.fallOff, if_neg void, if_pos reached, bind_run]
        show LowerBody.emit_ _ _ = _
        rw [LowerBody.emitUnit_run]
        rw [show s.builder.unreachable = _ from closes]
      · refine ⟨⟨s.context, _⟩, ?_, .fell selected (Or.inl rfl)⟩
        rw [Builder.fallOff, if_neg void, if_neg reached]
        show LowerBody.emit_ _ _ = _
        rw [LowerBody.emitUnit_run]
        rw [show s.builder.unreachable = _ from closes]

namespace BodyState.Sealed

variable {span : FileSpan}

theorem spares (sealed : s.Sealed span t) (inside : s.context.scopes.contains scope) :
    s.context.Spares scope t.context := by
  cases sealed with
  | ended ended => exact .refl inside
  | fell selected context =>
    rcases context with rfl | rfl
    · exact .refl inside
    · exact .warn inside _

theorem advances (sealed : s.Sealed span t) : s.builder.Advances t.builder := by
  cases sealed with
  | ended ended => exact .refl _
  | fell selected context => exact selected.advances_closed _

theorem isTerminated (sealed : s.Sealed span t) : t.builder.isTerminated = true := by
  cases sealed with
  | ended ended => exact ended
  | fell selected context => exact selected.isTerminated_closed _

theorem module (sealed : s.Sealed span t) : t.context.module = s.context.module := by
  cases sealed with
  | ended ended => rfl
  | fell selected context => rcases context with rfl | rfl <;> rfl

theorem wellFormed (sealed : s.Sealed span t)
    (ok : s.builder.function.WellFormed s.context.module) :
    t.builder.function.WellFormed t.context.module := by
  rw [sealed.module]
  cases sealed with
  | ended ended => exact ok
  | fell selected context =>
    obtain ⟨-, data, known, unended⟩ := selected
    exact Function.wellFormed_close ok known unended (checkTerminator_fallOff _)

end BodyState.Sealed

/-! ## Whole bodies -/

/-- A function that is ready to be verified. -/
structure BodyState.Built (t : BodyState) : Prop where
  function : t.builder.function.WellFormed t.context.module
  nonempty : t.builder.function.blocks ≠ []
  ended : ∀ block ∈ t.builder.function.blocks, block.terminator.isSome

theorem BodyState.Starts.endedExcept {params : List Param} {tys : List Ty}
    (starts : s.Starts scope params tys t) (pending : BlockId → Prop) :
    t.builder.EndedExcept pending := by
  intro id data known other
  obtain ⟨label, entry⟩ := starts.entry
  have bound := Function.lt_of_block? known
  rw [entry] at bound
  have first : id = ⟨0⟩ := by cases id; simpa using bound
  exact absurd (first ▸ starts.current) other

/-- A body is lowered from its start, its bindings end, and what is open is closed. -/
theorem buildBody_eq (env : Environment) {decl : FunctionDecl} {ty : FunctionTy}
    (declared : s.Declared scope ty) (count : decl.params.length = ty.params.length)
    (stmts : List Stmt) :
    ∃ p, s.Starts scope decl.params ty.params p ∧
      buildBody env scope decl stmts s = match lowerStmts env s.home stmts p with
        | .ok () q => sealBody decl.span (q.leave s.home)
        | .error failure q => .error failure (q.leave s.home) := by
  obtain ⟨p, starts, prologue⟩ := prologue_run env declared count
  refine ⟨p, starts, ?_⟩
  rw [buildBody, bind_run, inScope_eq _ declared.inside, prologue]
  cases lowerStmts env s.home stmts p <;> rfl

/-- A body that is built is lowered from its start, and what is open at its end is closed. -/
theorem buildBody_ok {env : Environment} {decl : FunctionDecl} {ty : FunctionTy}
    {stmts : List Stmt} (declared : s.Declared scope ty)
    (count : decl.params.length = ty.params.length)
    (run : buildBody env scope decl stmts s = .ok () t) :
    ∃ p q, s.Starts scope decl.params ty.params p ∧ lowerStmts env s.home stmts p = .ok () q ∧
      (q.leave s.home).Sealed decl.span t := by
  obtain ⟨p, starts, opened⟩ := buildBody_eq env declared count stmts
  rw [opened] at run
  cases body : lowerStmts env s.home stmts p with
  | error failure q =>
    rw [body] at run
    cases run
  | ok a q =>
    rw [body] at run
    obtain ⟨names, -, -, after⟩ :=
      (lowerStmts_foretold env stmts s.home p starts.local_).of_ok body
    have placed : (q.leave s.home).builder.Placed := after.advances.placed starts.local_.placed
    obtain ⟨t', closed, sealed⟩ := sealBody_run placed decl.span
    cases closed.symm.trans run
    exact ⟨p, q, starts, body, sealed⟩

/-- A body is lowered exactly when it is typed, and what is built can be verified. -/
theorem buildBody_foretold (env : Environment) {decl : FunctionDecl} {ty : FunctionTy}
    (declared : s.Declared scope ty) (count : decl.params.length = ty.params.length)
    (stmts : List Stmt) :
    Foretold (bodyProgress scope (Stmt.AnyVariables env.types ty.ret
        ((s.names scope).bindParams decl.params ty.params) stmts)) s
      (bodyTyping env.types (s.names scope) decl.params ty stmts)
      (fun _ (_ : Unit) t => t.Built) (buildBody env scope decl stmts s) := by
  obtain ⟨p, starts, run⟩ := buildBody_eq env declared count stmts
  rw [run, bodyTyping, ← starts.names]
  have returns : p.builder.returnTy = ty.ret := by
    rw [Builder.returnTy, starts.function.returnTy, Function.returnTy, declared.signature]
  have body := lowerStmts_foretold env stmts s.home p starts.local_
  rw [returns] at body
  generalize lowerStmts env s.home stmts p = r at body
  rcases r with ⟨a, q⟩ | ⟨⟨cause⟩ | ⟨fault⟩, q⟩
  · obtain ⟨names, same, ⟨grows, grown⟩, after⟩ := body
    have within : (statementProgress s.home).Done (s.entered scope) q :=
      ⟨starts.grows.trans grows, starts.function.trans grown⟩
    obtain ⟨⟨left, -⟩, sound, -⟩ :=
      declared.sound.leave declared.inside within after.sound.function
    have lookups := (Context.Grows.leave rfl declared.inside within.1).2
    have placed : (q.leave s.home).builder.Placed :=
      after.advances.placed starts.local_.placed
    obtain ⟨t, closed, sealed⟩ := sealBody_run placed decl.span
    have spares : s.context.Spares scope t.context :=
      Context.Spares.trans { left with lookups := lookups }
        (sealed.spares (left.contains declared.inside))
    simp only [closed, same]
    have advances : q.builder.Advances t.builder := sealed.advances
    refine Foretold.ok ⟨spares, within.2.trans advances.function⟩
      ⟨sealed.wellFormed sound.function, ?_, ?_⟩
    · have longer := (after.advances.trans advances).function.length_le
      obtain ⟨label, entry⟩ := starts.entry
      intro empty
      rw [entry, empty] at longer
      exact absurd longer (Nat.not_succ_le_zero 0)
    · intro block member
      have done := (after.advances.trans advances).ended _
        (starts.endedExcept fun _ => False)
      obtain ⟨i, known⟩ := List.mem_iff_getElem?.1 member
      by_cases here : t.builder.current = some ⟨i⟩
      · have ended := sealed.isTerminated
        rwa [Builder.isTerminated_of_block here known] at ended
      · exact done ⟨i⟩ block known here fun waiting => waiting
  · obtain ⟨same, reason, grows⟩ := body
    simp only [same]
    have left := Context.Grows.leave rfl declared.inside
      (starts.grows.trans grows)
    exact Foretold.refused reason { left.1 with lookups := left.2 }
  · exact body

end SsaLowering
