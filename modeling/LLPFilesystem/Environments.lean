import LLPFilesystem.Program

/-!
# A program in two environments

What a program returns in one environment it may return in another as well, from and in the
same states (`Prog.Carries`). A program that takes from its environment only what it checks
carries its runs over from an environment that may fail to one that does not: a run that the
checks have let pass is one that could have been without failures. The property is put
together along the program, as what its parts return is known to pass.
-/

namespace Prog

variable {ρ ε σ α β : Type} {r r' : ρ} {x y : Prog ρ ε σ α} {g : α → Prog ρ ε σ β}
  {ok p : α → Prop} {ok' : β → Prop}

/-- **The program carries its runs over** from the environment `r` to `r'`: those that return
what passes. -/
def Carries (r r' : ρ) (ok : α → Prop) (x : Prog ρ ε σ α) : Prop :=
  ∀ s a t, x.run r s = .ok a t → ok a → x.run r' s = .ok a t

namespace Carries

/-- A program that runs the same. -/
theorem of_eq (h : ∀ s, x.run r' s = x.run r s) : x.Carries r r' ok :=
  fun s _ _ hrun _ => (h s).trans hrun

theorem pure (r r' : ρ) (ok : α → Prop) (a : α) :
    (Pure.pure a : Prog ρ ε σ α).Carries r r' ok := of_eq fun _ => rfl

theorem fail (r r' : ρ) (ok : α → Prop) (e : ε) :
    (Prog.fail e : Prog ρ ε σ α).Carries r r' ok := of_eq fun _ => rfl

theorem get (r r' : ρ) (ok : σ → Prop) :
    (MonadState.get : Prog ρ ε σ σ).Carries r r' ok := of_eq fun _ => rfl

/-- **A sequence** whose second part returns only on what passes in the first. -/
theorem bind_of (hx : x.Carries r r' p)
    (hp : ∀ a s b t, (g a).run r s = .ok b t → ok' b → p a)
    (hg : ∀ a, (g a).Carries r r' ok') : (x >>= g).Carries r r' ok' := by
  intro s b u hrun hb
  obtain ⟨a, t, hxrun, hgrun⟩ := Prog.bind_eq_ok_iff.mp hrun
  rw [Prog.bind_ok g (hx s a t hxrun (hp a t b u hgrun hb))]
  exact hg a t b u hgrun hb

/-- A sequence in whose first part everything passes. -/
theorem bind (hx : x.Carries r r' fun _ => True) (hg : ∀ a, (g a).Carries r r' ok') :
    (x >>= g).Carries r r' ok' := hx.bind_of (fun _ _ _ _ _ _ => trivial) hg

theorem ite {q : Prop} [Decidable q] (hx : x.Carries r r' ok) (hy : y.Carries r r' ok) :
    (if q then x else y).Carries r r' ok := by
  split
  · exact hx
  · exact hy

/-- A program that takes the same from both environments. -/
theorem read_bind {g : ρ → Prog ρ ε σ α} (hg : g r' = g r) (h : (g r).Carries r r' ok) :
    (read >>= g).Carries r r' ok := by
  intro s a t hrun ha
  rw [Prog.bind_ok g (Prog.run_read r s)] at hrun
  rw [Prog.bind_ok g (Prog.run_read r' s), hg]
  exact h s a t hrun ha

end Carries

end Prog
