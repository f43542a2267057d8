import Mathlib.Logic.Basic
import PistolWhipHook.Lib.Run

/-!
# Programs that carry what they keep

A program takes a state to an answer and a new state, or stops on a fault.
`Prog I F` is the programs that come with a proof of one thing: started in
`I` they end in `I`, and the only faults they stop on are those of `F`. The
proof is owed where a primitive is introduced and nowhere else. Sequencing
carries it along, so a program written in do-notation over checked
primitives has it by construction, loops and early exits included.
-/

universe u

/-- The programs over states `S` with faults `E` that keep `I` and fault
only within `F`. -/
structure Prog {S E : Type} (I : S → Prop) (F : E → Prop) (α : Type) where
  run : S → Except E (α × S)
  ends : ∀ {s a s'}, I s → run s = .ok (a, s') → I s'
  faults : ∀ {s e}, I s → run s = .error e → F e

namespace Prog

variable {S E : Type} {I : S → Prop} {F : E → Prop} {α β : Type}

/-- The program that answers `a` and does nothing. -/
protected def pure (a : α) : Prog I F α where
  run s := .ok (a, s)
  ends := by
    intro s b s' hs h
    cases h
    exact hs
  faults := by intro s e _ h; cases h

/-- One program, then the one its answer selects. -/
protected def bind (m : Prog I F α) (f : α → Prog I F β) : Prog I F β where
  run s :=
    match m.run s with
    | .ok (a, s') => (f a).run s'
    | .error e => .error e
  ends := by
    intro s b s' hs h
    split at h
    · next a s₁ hm => exact (f a).ends (m.ends hs hm) h
    · cases h
  faults := by
    intro s e hs h
    split at h
    · next a s₁ hm => exact (f a).faults (m.ends hs hm) h
    · next e' hm => cases h; exact m.faults hs hm

instance : Monad (Prog I F) where
  pure := Prog.pure
  bind := Prog.bind

/-- Stop on a fault that `F` tolerates. -/
def fault (e : E) (h : F e) : Prog I F α where
  run _ := .error e
  ends := by intro s a s' _ hr; cases hr
  faults := by intro s e' _ hr; cases hr; exact h

/-- Look at the state. -/
def ask (f : S → α) : Prog I F α where
  run s := .ok (f s, s)
  ends := by intro s a s' hs h; cases h; exact hs
  faults := by intro s e _ h; cases h

/-- Change the state by a function that keeps `I`. -/
def act (f : S → α × S) (h : ∀ s, I s → I (f s).2) : Prog I F α where
  run s := .ok (f s)
  ends := by
    intro s a s' hs hr
    have he := Except.ok.inj hr
    have hk := h s hs
    rw [he] at hk
    exact hk
  faults := by intro s e _ hr; cases hr

@[simp] theorem run_pure (a : α) (s : S) :
    (pure a : Prog I F α).run s = .ok (a, s) := rfl

theorem run_bind (m : Prog I F α) (f : α → Prog I F β) (s : S) :
    (m >>= f).run s =
      match m.run s with
      | .ok (a, s') => (f a).run s'
      | .error e => .error e := rfl

@[simp] theorem run_fault (e : E) (h : F e) (s : S) :
    (fault e h : Prog I F α).run s = .error e := rfl

@[simp] theorem run_ask (f : S → α) (s : S) :
    (ask f : Prog I F α).run s = .ok (f s, s) := rfl

@[simp] theorem run_act (f : S → α × S) (h : ∀ s, I s → I (f s).2) (s : S) :
    (act f h : Prog I F α).run s = .ok (f s) := rfl

theorem run_bind_assoc {γ : Type} (m : Prog I F α) (f : α → Prog I F β)
    (g : β → Prog I F γ) (s : S) :
    ((m >>= f) >>= g).run s = (m >>= fun a => f a >>= g).run s := by
  rw [run_bind, run_bind, run_bind]
  cases m.run s <;> rfl

theorem run_bind_ok {m : Prog I F α} {f : α → Prog I F β} {s s' : S} {a : α}
    (h : m.run s = .ok (a, s')) : (m >>= f).run s = (f a).run s' := by
  rw [run_bind, h]

theorem run_bind_error {m : Prog I F α} {f : α → Prog I F β} {s : S} {e : E}
    (h : m.run s = .error e) : (m >>= f).run s = .error e := by
  rw [run_bind, h]

/-- The state a program leaves, its answer dropped. -/
def exec (m : Prog I F α) (s : S) : Except E S :=
  match m.run s with
  | .ok (_, s') => .ok s'
  | .error e => .error e

theorem sound_exec {m : Prog I F α} {s : S} (hs : I s) :
    Run.Sound I F (m.exec s) := by
  rw [exec]
  split
  · next a s' h => exact m.ends hs h
  · next e h => exact m.faults hs h

theorem exec_error {m : Prog I F α} {s : S} {e : E}
    (h : m.run s = .error e) : m.exec s = .error e := by
  rw [exec, h]

/-! ## Answers

Programs that are run for their answer leave a state related to the one they
were run in by some `R` that steps on either side can be put together along. -/

section Answers

variable {R : S → S → Prop} {m : Prog I F α} {f : α → Prog I F β} {s : S}
  {a : α} {b : β} {e : E}

/-- Run in `s` the program answers `a`, and goes on in a state `R` allows. -/
def Answers (R : S → S → Prop) (m : Prog I F α) (s : S) (a : α) : Prop :=
  ∃ s', m.run s = .ok (a, s') ∧ R s s'

/-- Run in `s` the program stops on the fault `e`. -/
def Fails (m : Prog I F α) (s : S) (e : E) : Prop := m.run s = .error e

theorem answers_pure (hrefl : R s s) : Answers R (pure a : Prog I F α) s a :=
  ⟨s, rfl, hrefl⟩

theorem Answers.bind (htrans : ∀ {s₁ s₂ s₃}, R s₁ s₂ → R s₂ s₃ → R s₁ s₃)
    (hm : Answers R m s a) (hf : ∀ s', R s s' → Answers R (f a) s' b) :
    Answers R (m >>= f) s b := by
  obtain ⟨s', hrun, hs'⟩ := hm
  obtain ⟨s'', hrun', hs''⟩ := hf s' hs'
  refine ⟨s'', ?_, htrans hs' hs''⟩
  rw [run_bind_ok hrun, hrun']

theorem Fails.bind (hm : Fails m s e) : Fails (m >>= f) s e := run_bind_error hm

theorem Answers.fails (hm : Answers R m s a)
    (hf : ∀ s', R s s' → Fails (f a) s' e) : Fails (m >>= f) s e := by
  obtain ⟨s', hrun, hs'⟩ := hm
  rw [Fails, run_bind_ok hrun]
  exact hf s' hs'

end Answers

/-! ## Output

Programs that are run for what they put out, whatever their answer: `out` is
the output so far, and `C` is what holds of the states they are run in and
leave. -/

section Output

variable {O : Type} {C : S → Prop} {out : S → List O} {m : Prog I F α}
  {f : α → Prog I F β} {Q Q₁ : α → List O → Prop} {Q' : β → List O → Prop}

/-- From any state of `C` the program answers and is in `C` again, and `Q`
holds of its answer and of what it put out on the way. -/
def Emits (C : S → Prop) (out : S → List O) (m : Prog I F α)
    (Q : α → List O → Prop) : Prop :=
  ∀ s, C s → ∃ a s' os,
    m.run s = .ok (a, s') ∧ C s' ∧ out s' = out s ++ os ∧ Q a os

theorem emits_pure {a : α} (h : Q a []) :
    Emits C out (pure a : Prog I F α) Q :=
  fun s hs => ⟨a, s, [], rfl, hs, (List.append_nil _).symm, h⟩

theorem Emits.mono (hm : Emits C out m Q) (h : ∀ a os, Q a os → Q₁ a os) :
    Emits C out m Q₁ := by
  intro s hs
  obtain ⟨a, s', os, hrun, hs', hout, hq⟩ := hm s hs
  exact ⟨a, s', os, hrun, hs', hout, h a os hq⟩

theorem Emits.bind (hm : Emits C out m Q)
    (hf : ∀ a os, Q a os → Emits C out (f a) fun b os' => Q' b (os ++ os')) :
    Emits C out (m >>= f) Q' := by
  intro s hs
  obtain ⟨a, s₁, os, hrun, hs₁, hout, hq⟩ := hm s hs
  obtain ⟨b, s₂, os', hrun', hs₂, hout', hq'⟩ := hf a os hq s₁ hs₁
  refine ⟨b, s₂, os ++ os', (run_bind_ok hrun).trans hrun', hs₂, ?_, hq'⟩
  rw [hout', hout, List.append_assoc]

/-- A branch that is taken under a condition, and the program after it. -/
theorem emits_when {c : Prop} [Decidable c] {m : Prog I F Unit}
    {k : Unit → Prog I F β} {R : List O → Prop}
    (hm : c → Emits C out m fun _ os => R os) (hskip : ¬ c → R [])
    (hk : ∀ os, R os → Emits C out (k ()) fun b os' => Q' b (os ++ os')) :
    Emits C out (if c then m >>= fun u => k u else k ()) Q' := by
  split
  · next hc => exact (hm hc).bind fun _ os hos => hk os hos
  · next hc => exact hk [] (hskip hc)

end Output

end Prog
