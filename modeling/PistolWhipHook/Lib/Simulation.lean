import Mathlib.Logic.Function.Iterate

/-!
# One run matched by another, up to an exit

Two deterministic machines, each a step function. `Reaches` is a run of any
length. A relation is simulated up to an exit when every step of the first
machine from related states is answered by a run of the second, into related
states again or, when the first has left, into a state that the last one
inside allows at an exit. The induction is made here once: a run of the first
machine that stays inside and then leaves has a run of the second that leaves
with it.
-/

namespace Simulation

variable {σ τ : Type*}

/-- `t` comes after `s`, some number of steps on. -/
def Reaches (step : σ → σ) (s t : σ) : Prop := ∃ n, step^[n] s = t

theorem Reaches.refl {step : σ → σ} (s : σ) : Reaches step s s := ⟨0, rfl⟩

theorem Reaches.head {step : σ → σ} {s t : σ} (h : Reaches step (step s) t) :
    Reaches step s t := by
  obtain ⟨n, h⟩ := h
  exact ⟨n + 1, h⟩

theorem Reaches.step_eq {step : σ → σ} {s t : σ} (h : step s = t) :
    Reaches step s t := ⟨1, h⟩

theorem Reaches.trans {step : σ → σ} {s t u : σ} (hst : Reaches step s t)
    (htu : Reaches step t u) : Reaches step s u := by
  obtain ⟨n, rfl⟩ := hst
  obtain ⟨m, rfl⟩ := htu
  exact ⟨m + n, Function.iterate_add_apply step m n s⟩

/-- What the second machine owes one step of the first, which was to be taken
from a state that is `ok`. -/
def Matched (step : σ → σ) (step' : τ → τ) (inside : σ → Prop)
    (rel exit : σ → τ → Prop) (ok : σ → Prop) : Prop :=
  ∀ s t, inside s → ok s → rel s t → ∃ t', Reaches step' t t' ∧
    ((inside (step s) → rel (step s) t') ∧ (¬ inside (step s) → exit s t'))

/-- The first machine is inside for `n` steps and then leaves: the second
leaves with it. -/
theorem Matched.run {step : σ → σ} {step' : τ → τ} {inside : σ → Prop}
    {rel exit : σ → τ → Prop} {ok : σ → Prop}
    (h : Matched step step' inside rel exit ok) {n : Nat} {s : σ} {t : τ}
    (hrel : rel s t) (hin : ∀ k ≤ n, inside (step^[k] s))
    (hok : ∀ k ≤ n, ok (step^[k] s)) (hout : ¬ inside (step^[n + 1] s)) :
    ∃ t', Reaches step' t t' ∧ exit (step^[n] s) t' := by
  induction n generalizing s t with
  | zero =>
      obtain ⟨t', hrun, _, hexit⟩ :=
        h s t (hin 0 (Nat.le_refl 0)) (hok 0 (Nat.le_refl 0)) hrel
      exact ⟨t', hrun, hexit hout⟩
  | succ n ih =>
      obtain ⟨t₁, hrun, hrel', _⟩ :=
        h s t (hin 0 (Nat.zero_le _)) (hok 0 (Nat.zero_le _)) hrel
      have h₁ : inside (step s) := hin 1 (by omega)
      obtain ⟨t', hrun', hexit⟩ := ih (hrel' h₁)
        (fun k hk => hin (k + 1) (by omega)) (fun k hk => hok (k + 1) (by omega))
        hout
      exact ⟨t', hrun.trans hrun', hexit⟩

end Simulation
