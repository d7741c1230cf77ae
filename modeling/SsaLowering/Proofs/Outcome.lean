/-
# SsaLowering.Proofs.Outcome -- runs opened one step at a time

A run that succeeds is a chain of steps that succeed (`except_bind_ok`,
`bind_ok`).  A run is `Foretold` when a verdict that was reached without it says
how it ends: with a result where there is a verdict, in a refusal where there is
none, and never in a fault.  Two such runs in a row are one (`Foretold.bind`).
-/
import Mathlib
import SsaLowering.Failure

namespace SsaLowering

set_option autoImplicit false

/-! ## Results without a state -/

section Except

variable {ε α β : Type}

theorem except_bind_ok {x : Except ε α} {f : α → Except ε β} {b : β} :
    (x >>= f) = .ok b ↔ ∃ a, x = .ok a ∧ f a = .ok b := by
  cases x <;> simp [bind, Except.bind]

theorem except_bind_error {x : Except ε α} {f : α → Except ε β} {e : ε} :
    (x >>= f) = .error e ↔ x = .error e ∨ ∃ a, x = .ok a ∧ f a = .error e := by
  cases x <;> simp [bind, Except.bind]

theorem except_seq_ok {x : Except ε Unit} {y : Except ε β} {b : β} :
    (x >>= fun _ => y) = .ok b ↔ x = .ok () ∧ y = .ok b := by
  cases x <;> simp [bind, Except.bind]

theorem except_pure_ok {a b : α} : (pure a : Except ε α) = .ok b ↔ a = b := by
  simp [pure, Except.pure]

theorem except_throw_ok {cause : ε} {b : α} :
    ¬ (throw cause : Except ε α) = .ok b := by
  simp [throw, throwThe, MonadExceptOf.throw]

theorem except_map_ok {x : Except ε α} {f : α → β} {b : β} :
    x.map f = .ok b ↔ ∃ a, x = .ok a ∧ f a = b := by
  cases x <;> simp [Except.map]

theorem except_discard_ok {x : Except ε α} {u : PUnit} :
    (discard x : Except ε PUnit) = .ok u ↔ ∃ a, x = .ok a := by
  cases x <;> simp [discard, Functor.discard, Functor.mapConst, Except.map]

theorem except_toOption_some {x : Except ε α} {a : α} : x.toOption = some a ↔ x = .ok a := by
  cases x <;> simp [Except.toOption]

end Except

/-! ## Results with a state -/

section EStateM

variable {ε σ α β : Type}

theorem bind_run (x : EStateM ε σ α) (f : α → EStateM ε σ β) (s : σ) :
    (x >>= f) s = match x s with
      | .ok a s => f a s
      | .error e s => .error e s :=
  rfl

theorem bind_ok {x : EStateM ε σ α} {f : α → EStateM ε σ β} {s s' : σ} {b : β} :
    (x >>= f) s = .ok b s' ↔ ∃ a t, x s = .ok a t ∧ f a t = .ok b s' := by
  rw [bind_run]
  cases x s <;> simp

theorem bind_error {x : EStateM ε σ α} {f : α → EStateM ε σ β} {s s' : σ} {e : ε} :
    (x >>= f) s = .error e s' ↔
      x s = .error e s' ∨ ∃ a t, x s = .ok a t ∧ f a t = .error e s' := by
  rw [bind_run]
  cases x s <;> simp

theorem discard_ok {x : EStateM ε σ α} {s s' : σ} {u : Unit} :
    (discard x) s = .ok u s' ↔ ∃ a, x s = .ok a s' := by
  show (EStateM.map _ x) s = _ ↔ _
  unfold EStateM.map
  cases x s <;> simp

theorem map_run (f : α → β) (x : EStateM ε σ α) (s : σ) :
    (f <$> x) s = (x >>= fun a => pure (f a)) s := by
  show EStateM.map f x s = _
  rw [bind_run]
  unfold EStateM.map
  cases x s <;> rfl

theorem get_run (s : σ) : (get : EStateM ε σ σ) s = .ok s s := rfl

end EStateM

/-! ## Runs that are foretold -/

/-- How the state moves along a run that succeeds, and along one that is refused, and for
what reasons a run is refused. -/
structure Progress (ε σ : Type) where
  Done : σ → σ → Prop
  Failed : σ → σ → Prop
  Reason : ε → Prop
  trans : ∀ {s t u}, Done s t → Done t u → Done s u
  after : ∀ {s t u}, Done s t → Failed t u → Failed s u

section Foretold

variable {ε σ κ μ α β : Type} {p : Progress ε σ}

/-- A run from `s` ends as `spec` says: with a result that is `good` for the verdict, or
refused when there is none. -/
def Foretold (p : Progress ε σ) (s : σ) (spec : Option κ) (good : κ → α → σ → Prop) :
    EStateM.Result (Failure ε) σ α → Prop
  | .ok a t => ∃ k, spec = some k ∧ p.Done s t ∧ good k a t
  | .error (.refused cause) t => spec = none ∧ p.Reason cause ∧ p.Failed s t
  | .error (.fault _) _ => False

variable {s : σ} {good : κ → α → σ → Prop} {good' : μ → β → σ → Prop}

/-- Where the first run leaves off, the second has to be foretold from there. -/
theorem Foretold.bind {x : EStateM (Failure ε) σ α} {f : α → EStateM (Failure ε) σ β}
    {spec : Option κ} {spec' : κ → Option μ} (first : Foretold p s spec good (x s))
    (next : ∀ k a t, p.Done s t → good k a t → Foretold p t (spec' k) good' (f a t)) :
    Foretold p s (spec.bind spec') good' ((x >>= f) s) := by
  rw [bind_run]
  generalize x s = r at first
  rcases r with ⟨a, t⟩ | ⟨⟨cause⟩ | ⟨fault⟩, t⟩
  · obtain ⟨k, rfl, done, ok⟩ := first
    have second := next k a t done ok
    simp only [Option.bind_some]
    generalize f a t = r at second
    rcases r with ⟨b, u⟩ | ⟨⟨cause⟩ | ⟨fault⟩, u⟩
    · obtain ⟨k', same, done', ok'⟩ := second
      exact ⟨k', same, p.trans done done', ok'⟩
    · exact ⟨second.1, second.2.1, p.after done second.2.2⟩
    · exact second
  · obtain ⟨rfl, failed⟩ := first
    exact ⟨rfl, failed⟩
  · exact first

/-- The verdict may be noted with the result. -/
theorem Foretold.noting {r : EStateM.Result (Failure ε) σ α} {spec : Option κ}
    (run : Foretold p s spec good r) :
    Foretold p s spec (fun k a t => spec = some k ∧ good k a t) r := by
  rcases r with ⟨a, t⟩ | ⟨⟨cause⟩ | ⟨fault⟩, t⟩
  · obtain ⟨k, same, done, holds⟩ := run
    exact ⟨k, same, done, same, holds⟩
  · exact run
  · exact run

/-- A result may be judged in other words. -/
theorem Foretold.map {good' : μ → α → σ → Prop} {r : EStateM.Result (Failure ε) σ α}
    {spec : Option κ} (run : Foretold p s spec good r) (view : κ → μ)
    (weaker : ∀ k a t, p.Done s t → good k a t → good' (view k) a t) :
    Foretold p s (spec.bind fun k => some (view k)) good' r := by
  rcases r with ⟨a, t⟩ | ⟨⟨cause⟩ | ⟨fault⟩, t⟩
  · obtain ⟨k, rfl, done, ok⟩ := run
    exact ⟨view k, rfl, done, weaker k a t done ok⟩
  · obtain ⟨rfl, failed⟩ := run
    exact ⟨rfl, failed⟩
  · exact run

/-- A run that goes on from where another state led. -/
theorem Foretold.from {t : σ} {r : EStateM.Result (Failure ε) σ α} {spec : Option κ}
    (run : Foretold p t spec good r) (done : p.Done s t) : Foretold p s spec good r := by
  rcases r with ⟨a, u⟩ | ⟨⟨cause⟩ | ⟨fault⟩, u⟩
  · obtain ⟨k, same, done', holds⟩ := run
    exact ⟨k, same, p.trans done done', holds⟩
  · exact ⟨run.1, run.2.1, p.after done run.2.2⟩
  · exact run

/-- A result may be judged by less. -/
theorem Foretold.weaken {good' : κ → α → σ → Prop} {r : EStateM.Result (Failure ε) σ α}
    {spec : Option κ} (run : Foretold p s spec good r)
    (weaker : ∀ k a t, p.Done s t → good k a t → good' k a t) :
    Foretold p s spec good' r := by
  have mapped := run.map id weaker
  cases spec <;> exact mapped

/-- The result itself may be dropped. -/
theorem Foretold.discard {good' : μ → Unit → σ → Prop} {x : EStateM (Failure ε) σ α}
    {spec : Option κ} (run : Foretold p s spec good (x s)) (view : κ → μ)
    (weaker : ∀ k a t, p.Done s t → good k a t → good' (view k) () t) :
    Foretold p s (spec.bind fun k => some (view k)) good'
      ((Functor.discard x : EStateM (Failure ε) σ Unit) s) := by
  show Foretold p s _ good' (EStateM.map _ x s)
  unfold EStateM.map
  generalize x s = r at run
  rcases r with ⟨a, t⟩ | ⟨⟨cause⟩ | ⟨fault⟩, t⟩
  · obtain ⟨k, rfl, done, ok⟩ := run
    exact ⟨view k, rfl, done, weaker k a t done ok⟩
  · obtain ⟨rfl, failed⟩ := run
    exact ⟨rfl, failed⟩
  · exact run

theorem Foretold.of_ok {spec : Option κ} {a : α} {t : σ} {r : EStateM.Result (Failure ε) σ α}
    (run : Foretold p s spec good r) (ok : r = .ok a t) :
    ∃ k, spec = some k ∧ p.Done s t ∧ good k a t := by
  subst ok
  exact run

/-- A step that succeeds, from where it stands. -/
theorem Foretold.ok {k : κ} {a : α} {t : σ} (done : p.Done s t) (holds : good k a t) :
    Foretold (ε := ε) p s (some k) good (.ok a t) :=
  ⟨k, rfl, done, holds⟩

theorem Foretold.refused {cause : ε} {t : σ} (reason : p.Reason cause)
    (failed : p.Failed s t) : Foretold p s none good (.error (.refused cause) t) :=
  ⟨rfl, reason, failed⟩

end Foretold

end SsaLowering
