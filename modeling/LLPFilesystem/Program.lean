import Mathlib.Logic.Basic

/-!
# Programs that read an environment, change a state and may stop

A program here runs in an environment it cannot change, on a state it can,
and either returns a value or stops with a fault – leaving, in both cases,
the state it had reached. The rules below are what symbolic execution and
invariant arguments need of such programs, and no more: how a sequence runs
when its first part is known to return (`Prog.bind_ok`) or to stop
(`Prog.bind_stop`), what a returned value says about the parts
(`Prog.bind_eq_ok_iff`), and how a relation between the state before and the
state after is carried through a program (`Prog.Within`).
-/

/-- How a run ends: with a value or with a fault, and in which state. -/
inductive Outcome (ε σ α : Type) where
  | ok (a : α) (s : σ)
  | stop (e : ε) (s : σ)

/-- The state a run ends in, whether it returned or stopped. -/
def Outcome.state {ε σ α : Type} : Outcome ε σ α → σ
  | .ok _ s => s
  | .stop _ s => s

/-- A program over an environment `ρ` and a state `σ` that may stop with a
fault `ε`. -/
structure Prog (ρ ε σ α : Type) where
  step : ρ → σ → Outcome ε σ α

namespace Prog

/-- Running a program. It is a definition of its own, not the projection, so
that two runs are compared by their programs before they are executed; so is
`Prog.seq`. -/
def run {ρ ε σ α : Type} (x : Prog ρ ε σ α) (r : ρ) (s : σ) : Outcome ε σ α :=
  x.step r s

/-- Running one program and then, if it returned, the next. -/
def seq {ρ ε σ α β : Type} (x : Prog ρ ε σ α) (f : α → Prog ρ ε σ β) :
    Prog ρ ε σ β :=
  ⟨fun r s =>
    match x.run r s with
    | .ok a s' => (f a).run r s'
    | .stop e s' => .stop e s'⟩

variable {ρ ε σ α β : Type} {r : ρ} {s s' s'' : σ} {a : α} {b : β} {e : ε}

instance : Monad (Prog ρ ε σ) where
  pure a := ⟨fun _ s => .ok a s⟩
  bind := seq

instance : MonadReaderOf ρ (Prog ρ ε σ) where
  read := ⟨fun r s => .ok r s⟩

instance : MonadStateOf σ (Prog ρ ε σ) where
  get := ⟨fun _ s => .ok s s⟩
  set s := ⟨fun _ _ => .ok ⟨⟩ s⟩
  modifyGet f := ⟨fun _ s => .ok (f s).1 (f s).2⟩

/-- Stopping with a fault. -/
def fail (e : ε) : Prog ρ ε σ α := ⟨fun _ s => .stop e s⟩

/-! ## Running a program -/

@[simp] theorem run_pure (a : α) (r : ρ) (s : σ) :
    (pure a : Prog ρ ε σ α).run r s = .ok a s := rfl

@[simp] theorem run_get (r : ρ) (s : σ) :
    (get : Prog ρ ε σ σ).run r s = .ok s s := rfl

@[simp] theorem run_read (r : ρ) (s : σ) :
    (read : Prog ρ ε σ ρ).run r s = .ok r s := rfl

@[simp] theorem run_modify (f : σ → σ) (r : ρ) (s : σ) :
    (modify f : Prog ρ ε σ PUnit).run r s = .ok ⟨⟩ (f s) := rfl

@[simp] theorem run_fail (e : ε) (r : ρ) (s : σ) :
    (fail e : Prog ρ ε σ α).run r s = .stop e s := rfl

/-- A sequence whose first part returns goes on with what it returned. -/
theorem bind_ok {x : Prog ρ ε σ α} (f : α → Prog ρ ε σ β)
    (h : x.run r s = .ok a s') : (x >>= f).run r s = (f a).run r s' := by
  show (match x.run r s with
    | .ok a s' => (f a).run r s'
    | .stop e s' => .stop e s') = _
  rw [h]

/-- A sequence whose first part stops, stops there. -/
theorem bind_stop {x : Prog ρ ε σ α} (f : α → Prog ρ ε σ β)
    (h : x.run r s = .stop e s') : (x >>= f).run r s = .stop e s' := by
  show (match x.run r s with
    | .ok a s' => (f a).run r s'
    | .stop e s' => .stop e s') = _
  rw [h]

/-- **A sequence returns exactly when both parts do.** -/
theorem bind_eq_ok_iff {x : Prog ρ ε σ α} {f : α → Prog ρ ε σ β} :
    (x >>= f).run r s = .ok b s''
      ↔ ∃ a s', x.run r s = .ok a s' ∧ (f a).run r s' = .ok b s'' := by
  cases h : x.run r s with
  | ok a s' =>
    rw [bind_ok f h]
    constructor
    · exact fun hf => ⟨a, s', rfl, hf⟩
    · rintro ⟨_, _, hx, hf⟩
      cases hx
      exact hf
  | stop e s' =>
    rw [bind_stop f h]
    constructor
    · intro hf
      cases hf
    · rintro ⟨_, _, hx, -⟩
      cases hx

/-- A sequence of three may be read from either end. -/
theorem run_bind_assoc {γ : Type} (x : Prog ρ ε σ α) (f : α → Prog ρ ε σ β)
    (g : β → Prog ρ ε σ γ) :
    ((x >>= f) >>= g).run r s = (x >>= fun a => f a >>= g).run r s := by
  cases h : x.run r s with
  | ok a s' =>
    rw [bind_ok _ h]
    show (match (x >>= f).run r s with
      | .ok b s' => (g b).run r s'
      | .stop e s' => .stop e s') = _
    rw [bind_ok f h]
    rfl
  | stop e s' => rw [bind_stop _ h, bind_stop g (bind_stop f h)]

/-! ## What a program does to the state -/

/-- **The program moves the state along `R`**, from wherever it starts and
however it ends. -/
def Within (r : ρ) (R : σ → σ → Prop) (x : Prog ρ ε σ α) : Prop :=
  ∀ s, R s (x.run r s).state

namespace Within

variable {R : σ → σ → Prop} {x : Prog ρ ε σ α}

theorem of_ok (h : Within r R x) (hx : x.run r s = .ok a s') : R s s' := by
  have hs := h s
  rwa [hx] at hs

theorem of_stop (h : Within r R x) (hx : x.run r s = .stop e s') : R s s' := by
  have hs := h s
  rwa [hx] at hs

theorem pure (hr : ∀ s, R s s) (a : α) :
    Within r R (Pure.pure a : Prog ρ ε σ α) := hr

theorem get (hr : ∀ s, R s s) : Within r R (MonadState.get : Prog ρ ε σ σ) := hr

theorem fail (hr : ∀ s, R s s) (e : ε) :
    Within r R (Prog.fail e : Prog ρ ε σ α) := hr

/-- A relation that composes is carried through a sequence. -/
theorem bind (ht : ∀ s₁ s₂ s₃, R s₁ s₂ → R s₂ s₃ → R s₁ s₃)
    {f : α → Prog ρ ε σ β} (hx : Within r R x) (hf : ∀ a, Within r R (f a)) :
    Within r R (x >>= f) := by
  intro s
  cases h : x.run r s with
  | ok a s' =>
    rw [bind_ok f h]
    exact ht _ _ _ (hx.of_ok h) (hf a s')
  | stop e s' =>
    rw [bind_stop f h]
    exact hx.of_stop h

theorem ite {c : Prop} [Decidable c] {y : Prog ρ ε σ α}
    (hx : c → Within r R x) (hy : ¬ c → Within r R y) :
    Within r R (if c then x else y) := by
  split
  · next h => exact hx h
  · next h => exact hy h

end Within

end Prog
