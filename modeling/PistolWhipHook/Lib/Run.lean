import Mathlib.Data.List.TakeDrop

/-!
# Runs of a step that can fault

A step takes a label and a state to a new state or to a fault, and a run
takes the steps of a list of labels until one of them faults. What a step
preserves under a side condition, a run preserves when every step of it met
the condition in the state that step started from: `sound_run`. Where the
condition is exact for one step it is exact for runs, provided the property
is asked of every state on the way: `everywhere_iff_meets`.
-/

namespace Run

variable {ι S E : Type}

/-- A settled step is sound: the state it left is in `I`, or the fault it
stopped on is one `F` tolerates. -/
def Sound (I : S → Prop) (F : E → Prop) : Except E S → Prop
  | .ok s => I s
  | .error e => F e

/-- The steps of a list of labels, taken in order. -/
def run (step : ι → S → Except E S) : List ι → S → Except E S
  | [], s => .ok s
  | a :: as, s =>
      match step a s with
      | .ok s' => run step as s'
      | .error e => .error e

/-- Every step of the run meets `C` in the state it starts from. -/
def Meets (step : ι → S → Except E S) (C : ι → S → Prop) :
    List ι → S → Prop
  | [], _ => True
  | a :: as, s => C a s ∧ ∀ s', step a s = .ok s' → Meets step C as s'

/-- The run is sound after each of its steps, the first state included. -/
def Everywhere (step : ι → S → Except E S) (I : S → Prop) (F : E → Prop)
    (as : List ι) (s : S) : Prop :=
  ∀ k, Sound I F (run step (as.take k) s)

variable {step : ι → S → Except E S} {I : S → Prop} {F : E → Prop}
  {C : ι → S → Prop}

theorem run_cons_ok {a : ι} {as : List ι} {s s' : S} (h : step a s = .ok s') :
    run step (a :: as) s = run step as s' := by
  rw [run, h]

theorem run_cons_error {a : ι} {as : List ι} {s : S} {e : E}
    (h : step a s = .error e) : run step (a :: as) s = .error e := by
  rw [run, h]

/-- Past a step that was taken, the rest of the run is what is asked about. -/
theorem meets_cons_ok {a : ι} {as : List ι} {s s' : S} (h : step a s = .ok s') :
    Meets step C (a :: as) s ↔ C a s ∧ Meets step C as s' := by
  refine and_congr_right fun _ => ⟨fun hrest => hrest s' h, fun hrest s₂ h₂ => ?_⟩
  obtain rfl : s' = s₂ := Except.ok.inj (h.symm.trans h₂)
  exact hrest

theorem meets_cons_error {a : ι} {as : List ι} {s : S} {e : E}
    (h : step a s = .error e) : Meets step C (a :: as) s ↔ C a s := by
  refine and_iff_left fun s' h' => ?_
  rw [h] at h'
  cases h'

/-- The run lemma: what each step preserves under its condition, the run
preserves when all of its steps meet the condition. -/
theorem sound_run
    (hstep : ∀ a s, I s → C a s → Sound I F (step a s)) :
    ∀ {as : List ι} {s : S}, I s → Meets step C as s →
      Sound I F (run step as s) := by
  intro as
  induction as with
  | nil => intro s hs _; exact hs
  | cons a as ih =>
      intro s hs hm
      obtain ⟨hc, hrest⟩ := hm
      have h := hstep a s hs hc
      cases hr : step a s with
      | ok s' =>
          rw [hr] at h
          rw [run_cons_ok hr]
          exact ih h (hrest s' hr)
      | error e =>
          rw [hr] at h
          rw [run_cons_error hr]
          exact h

theorem meets_take {as : List ι} {s : S} (h : Meets step C as s) (k : Nat) :
    Meets step C (as.take k) s := by
  induction as generalizing s k with
  | nil => rw [List.take_nil]; exact h
  | cons a as ih =>
      cases k with
      | zero => exact True.intro
      | succ k => exact ⟨h.1, fun s' hs' => ih (h.2 s' hs') k⟩

/-- Where the condition is exact for a step, it is exact for runs. -/
theorem everywhere_iff_meets
    (hstep : ∀ a s, I s → (Sound I F (step a s) ↔ C a s))
    (hfault : ∀ e, ¬ F e) {as : List ι} {s : S} (hs : I s) :
    Everywhere step I F as s ↔ Meets step C as s := by
  refine ⟨?_, ?_⟩
  · intro h
    induction as generalizing s with
    | nil => exact True.intro
    | cons a as ih =>
        have h₁ := h 1
        rw [List.take_succ_cons, List.take_zero] at h₁
        cases hr : step a s with
        | ok s' =>
            rw [run_cons_ok hr] at h₁
            refine (meets_cons_ok hr).mpr
              ⟨(hstep a s hs).mp (by rw [hr]; exact h₁), ?_⟩
            refine ih h₁ fun k => ?_
            have hk := h (k + 1)
            rwa [List.take_succ_cons, run_cons_ok hr] at hk
        | error e =>
            rw [run_cons_error hr] at h₁
            exact absurd h₁ (hfault e)
  · intro h k
    exact sound_run (fun a s hi hc => (hstep a s hi).mpr hc) hs
      (meets_take h k)

/-- The run itself faults only within `F` exactly when its steps meet the
condition that says so of one step. -/
theorem faults_iff_meets
    (hkeep : ∀ a s s', I s → step a s = .ok s' → I s')
    (hstep : ∀ a s, I s → ((∀ e, step a s = .error e → F e) ↔ C a s))
    {as : List ι} {s : S} (hs : I s) :
    (∀ e, run step as s = .error e → F e) ↔ Meets step C as s := by
  induction as generalizing s with
  | nil =>
      refine ⟨fun _ => True.intro, fun _ e h => ?_⟩
      cases h
  | cons a as ih =>
      cases hr : step a s with
      | ok s' =>
          rw [run_cons_ok hr, ih (hkeep a s s' hs hr), meets_cons_ok hr]
          refine (and_iff_right ((hstep a s hs).mp fun e he => ?_)).symm
          rw [hr] at he
          cases he
      | error e =>
          rw [run_cons_error hr, meets_cons_error hr, ← hstep a s hs, hr]

end Run
