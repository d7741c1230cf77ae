/-
# SsaLowering.Proofs.Lower.Naming -- what the names in a body are known to be bound to

An account of the names that are visible in a scope gives each of them a note, taken from
the source.  `ScopeTable.Tells` says that the bindings are as the notes say, where `fits`
tells what a note means, and that outside of a function body there are functions and
namespaces only.  Accounts of different things differ in the notes alone, so what entering a
scope, binding a name and leaving a block do to an account is said here once.
-/
import SsaLowering.Proofs.Lower.Opened
import SsaLowering.Proofs.Lower.Shadowing

namespace SsaLowering

set_option autoImplicit false

open Ir (Module ValueId)

/-- The binding is of a kind that there is outside of function bodies. -/
def BoundValue.isOuter : BoundValue → Bool
  | .direct (.function _) | .namespace_ _ => true
  | _ => false

theorem BoundValue.outer_cases {bound : BoundValue} (outer : bound.isOuter = true) :
    (∃ id, bound = .direct (.function id)) ∨ ∃ inner, bound = .namespace_ inner := by
  cases bound with
  | direct operand =>
    cases operand with
    | function id => exact Or.inl ⟨id, rfl⟩
    | value id => cases outer
    | constant c => cases outer
  | slot home => cases outer
  | namespace_ inner => exact Or.inr ⟨inner, rfl⟩

theorem BoundValue.Standing.isOuter {m : Module} {t : ScopeTable} {bound : BoundValue}
    (standing : bound.Standing m t) : bound.isOuter = true := by
  cases bound with
  | direct operand =>
    cases operand with
    | function id => rfl
    | value id => cases standing
    | constant c => cases standing
  | slot home => cases standing
  | namespace_ inner => rfl

namespace ScopeTable

variable {κ : Type} {fits : κ → Option BoundValue → Prop} {names : Symbol → κ} {k : κ}
  {t t' : ScopeTable} {scope parent : ScopeId}

/-- Each name that is visible in the scope of a body is bound as its note says, and the members
of namespaces are functions and namespaces. -/
structure Tells (fits : κ → Option BoundValue → Prop) (t : ScopeTable) (scope : ScopeId)
    (names : Symbol → κ) : Prop where
  inside : t.contains scope
  unnamed : t.name? scope = none
  names : ∀ x, fits (names x) (t.resolve scope x)
  namespaces : ∀ other x inner, t.lookupIn other x = some (.namespace_ inner) →
    (t.name? inner).isSome
  members : ∀ inner x bound, (t.name? inner).isSome → t.lookupIn inner x = some bound →
    bound.isOuter = true

namespace Tells

/-- Whatever is bound in scopes that have been left is forgotten. -/
theorem rebinds (tells : t.Tells fits scope names) {other : ScopeId}
    (same : Rebinds other [] t t') : t'.Tells fits scope names where
  inside := same.extends_.contains scope tells.inside
  unnamed := (same.extends_.names scope tells.inside).trans tells.unnamed
  names := by
    intro x
    rw [same.resolve tells.inside fun _ => List.not_mem_nil]
    exact tells.names x
  namespaces := by
    intro other x inner here
    rw [same.lookups other x fun _ => List.not_mem_nil] at here
    obtain ⟨given, named⟩ := Option.isSome_iff_exists.1 (tells.namespaces other x inner here)
    rw [same.extends_.names inner (contains_of_name? named), named]
    rfl
  members := by
    intro inner x bound named here
    rw [same.lookups inner x fun _ => List.not_mem_nil] at here
    by_cases old : t.contains inner
    · rw [same.extends_.names inner old] at named
      exact tells.members inner x bound named here
    · rw [lookupIn_of_not_contains old] at here
      cases here

theorem bound (tells : t.Tells fits scope names) (name : Symbol) {value : BoundValue}
    (local_ : ∀ inner, value ≠ .namespace_ inner) (noted : fits k (some value)) :
    (t.assign scope name (some value)).Tells fits scope (Function.update names name k) where
  inside := (t.extends_assign scope name _).contains scope tells.inside
  unnamed := (name?_assign _).trans tells.unnamed
  names := by
    intro x
    rw [resolve_assign tells.inside, Function.update_apply]
    split
    · exact noted
    · exact tells.names x
  namespaces := by
    intro other x inner here
    rw [name?_assign]
    rw [lookupIn_assign] at here
    split at here
    · exact absurd (Option.some.inj here) (local_ inner)
    · exact tells.namespaces other x inner here
  members := by
    intro inner x bound named here
    rw [name?_assign] at named
    rw [lookupIn_assign, if_neg] at here
    · exact tells.members inner x bound named here
    · rintro ⟨rfl, -⟩
      rw [tells.unnamed] at named
      cases named

/-- A scope inside of another has the names of the other. -/
theorem entered (tells : t.Tells fits parent names) :
    (t.enter parent none).2.Tells fits (t.enter parent none).1 names where
  inside := contains_enter_new t parent none
  unnamed := name?_enter_new t parent none
  names := by
    intro x
    rw [resolve_enter tells.inside]
    exact tells.names x
  namespaces := by
    intro other x inner here
    rw [lookupIn_enter] at here
    have named := tells.namespaces other x inner here
    obtain ⟨given, found⟩ := Option.isSome_iff_exists.1 named
    rw [(t.extends_enter parent none).names inner (contains_of_name? found)]
    exact named
  members := by
    intro inner x bound named here
    rw [lookupIn_enter] at here
    rw [name?_enter] at named
    split at named
    · cases named
    · exact tells.members inner x bound named here

/-- Where there is no body yet, all names have one note. -/
theorem around {m : Module}
    (standing : ∀ other x bound, t.lookupIn other x = some bound → bound.Standing m t)
    (inside : t.contains parent) (free : fits k none)
    (outer : ∀ bound : BoundValue, bound.isOuter = true → fits k (some bound)) :
    (t.enter parent none).2.Tells fits (t.enter parent none).1 fun _ => k where
  inside := contains_enter_new t parent none
  unnamed := name?_enter_new t parent none
  names := by
    intro x
    rw [resolve_enter inside]
    cases found : t.resolve parent x with
    | none => exact free
    | some bound =>
      obtain ⟨home, -, here⟩ := lookupIn_of_resolve found
      exact outer bound (standing home x bound here).isOuter
  namespaces := by
    intro other x inner here
    rw [lookupIn_enter] at here
    have named : (t.name? inner).isSome := standing other x _ here
    obtain ⟨given, found⟩ := Option.isSome_iff_exists.1 named
    rw [(t.extends_enter parent none).names inner (contains_of_name? found)]
    exact named
  members := by
    intro inner x bound _ here
    rw [lookupIn_enter] at here
    exact (standing inner x bound here).isOuter

end Tells

end ScopeTable

/-- The notes behind parameters, all of which have the same. -/
def noteParams {κ : Type} (names : Symbol → κ) (k : κ) (params : List Param) : Symbol → κ :=
  params.foldl (fun names param => Function.update names param.name k) names

/-- Parameters with the note of all other names. -/
theorem noteParams_same {κ : Type} (k : κ) (params : List Param) :
    noteParams (fun _ => k) k params = fun _ => k := by
  induction params with
  | nil => rfl
  | cons param params ih =>
    rw [noteParams, List.foldl_cons, Function.update_eq_self]
    exact ih

theorem ScopeTable.Tells.bindParams {κ : Type} {fits : κ → Option BoundValue → Prop} {k : κ}
    {scope : ScopeId} (noted : ∀ id : ValueId, fits k (some (.direct (.value id)))) :
    ∀ {params : List Param} {values : List ValueId} {t : ScopeTable} {names : Symbol → κ},
      params.length = values.length → t.Tells fits scope names →
        (t.bindParams scope params values).Tells fits scope (noteParams names k params)
  | [], values, t, names, count, tells => by
    obtain rfl := List.length_eq_zero_iff.1 count.symm
    exact tells
  | param :: params, value :: values, t, names, count, tells => by
    have bound : (t.assign scope param.name (some (.direct (.value value)))).Tells fits scope
        (Function.update names param.name k) :=
      tells.bound param.name nofun (noted value)
    have rest := bindParams noted (Nat.succ.inj count) bound
    exact rest

/-- A member of a namespace is of a kind that there is outside of bodies. -/
theorem lowerMember_outer {κ : Type} {fits : κ → Option BoundValue → Prop} {names : Symbol → κ}
    {env : Environment} {scope : ScopeId} {s t : BodyState}
    (tells : s.context.scopes.Tells fits scope names) {object : Expr} {property : Symbol}
    {span : FileSpan} {value : ExprValue}
    (run : lowerMember env scope object property span s = .ok value t) :
    value.bound.isOuter = true ∧ t = s := by
  obtain ⟨name, span', inner, -, found, here, same⟩ :=
    lowerMember_found tells.inside tells.namespaces run
  obtain ⟨home, -, bound⟩ := ScopeTable.lookupIn_of_resolve found
  exact ⟨tells.members inner property _ (tells.namespaces home name inner bound) here, same⟩

/-- In the scope of a body that is begun there are the parameters and what is around. -/
theorem Context.Sound.tells {κ : Type} {fits : κ → Option BoundValue → Prop} {outside inside : κ}
    {env : Environment} {scope : ScopeId} {decl : FunctionDecl} {cx : Context}
    {signature : Ir.FunctionTy} {linkage : String} (sound : cx.Sound)
    (header : Header env scope decl cx signature linkage) (free : fits outside none)
    (outer : ∀ bound : BoundValue, bound.isOuter = true → fits outside (some bound))
    (noted : ∀ id : ValueId, fits inside (some (.direct (.value id)))) {s t : BodyState}
    (begun : s = cx.begun scope decl.name (.declare linkage signature))
    (scopes : t.context.scopes = (s.entered scope).context.scopes.bindParams s.home decl.params
      s.builder.function.params) :
    t.context.scopes.Tells fits s.home (noteParams (fun _ => outside) inside decl.params) := by
  subst begun
  have declared := sound.begun header.inside decl.name linkage signature
  have count := (signature?_ok.1 header.typed).params_length
  rw [scopes]
  refine ScopeTable.Tells.bindParams noted ?_ (.around
    (fun other x bound => sound.standing_declare decl.name _) declared.inside free outer)
  show decl.params.length = ((List.range signature.params.length).map ValueId.mk).length
  rw [count, List.length_map, List.length_range]

end SsaLowering
