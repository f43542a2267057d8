import PistolWhipHook.Proofs.Lookups
import PistolWhipHook.Spec.Construction

/-!
# What `RunMethod` makes of an outcome

`RunMethod` stores the result before it looks at the exception. A pointer
`TOut` gets whatever came back, which is null when the method threw; a value
`TOut` is unboxed from it, which is undefined on null, and both a void method
and one that threw give null. So the call behaves on every boxed result, on a
void method only through a pointer, and on a throwing one only through a
pointer that was null to begin with.
-/

namespace PistolWhipHook

open ByteMem CStr

variable {env : Env} {w : Process} {tout : OutType} {out : Str}
  {inst method : Ptr} {params : List Ptr}

theorem falseWhen_of_answers {P : Prop} {out out' : Str} {ran : Bool}
    {m : Hook (Bool × Str)} (ha : Answers m w (ran, out')) :
    FalseWhen P out m w ↔ (ran = false ↔ P) ∧ (ran = false → out' = out) := by
  obtain ⟨w', hrun, _⟩ := ha
  refine ⟨?_, ?_⟩
  · intro h
    obtain ⟨ran₁, out₁, w₁, hrun₁, h⟩ := h
    rw [hrun] at hrun₁
    cases hrun₁
    exact h
  · intro h
    exact ⟨ran, out', w', hrun, h⟩

theorem not_falseWhen_of_fails {P : Prop} {out : Str} {e : Fault}
    {m : Hook (Bool × Str)} (hf : Fails m w e) : ¬ FalseWhen P out m w := by
  intro h
  obtain ⟨ran, out', w', hrun, _⟩ := h
  rw [hf] at hrun
  cases hrun

/-! ## The branches -/

theorem answers_runMethod_null (hw : w.Loaded) :
    Answers (runMethod env tout out inst 0 params) w (false, out) := by
  refine (answers_init hw).then fun w₁ _ => ?_
  exact answers_log.then fun _ _ => answers_pure

theorem answers_storeResult_pointer {ret : Ptr} :
    Answers (storeResult env .pointer ret) w (leBytes 8 ret) := answers_pure

theorem answers_storeResult_value {size : Nat} {obj : Obj} (hw : w.Loaded) :
    Answers (storeResult env (.value size) obj.1) w
      (read w.mem (env.rt.objectUnbox obj.1 w.mem) size) := by
  have hunbox :
      Answers (objectUnbox env obj.1) w (env.rt.objectUnbox obj.1 w.mem) :=
    (answers_query hw (by decide)).then fun _ _ => answers_deref obj.2
  refine hunbox.then fun w₁ h₁ => ?_
  rw [← h₁.mem]
  exact ⟨w₁, rfl, .refl w₁⟩

theorem fails_storeResult_value {size : Nat} (hw : w.Loaded) :
    Fails (storeResult env (.value size) 0) w (.nullDeref .object) :=
  Prog.Fails.bind (run_objectUnbox_null hw)

theorem answers_storeResult_boxed (env : Env) (tout : OutType) {obj : Obj}
    (hw : w.Loaded) :
    ∃ out', Answers (storeResult env tout obj.1) w out' := by
  cases tout with
  | pointer => exact ⟨_, answers_storeResult_pointer⟩
  | value size => exact ⟨_, answers_storeResult_value hw⟩

theorem run_runMethod (hw : w.Loaded) (hm : method ≠ 0) :
    (runMethod env tout out inst method params).run w =
      (afterInvoke env tout method
        (env.rt.runtimeInvoke method inst params w.mem).1).run
        ((w.called .runtimeInvoke (method :: inst :: params)).withMem
          (env.rt.runtimeInvoke method inst params w.mem).2) := by
  rw [runMethod, Prog.run_bind_ok (run_init hw), if_neg hm,
    Prog.run_bind_ok (run_runtimeInvoke hw)]

theorem afterInvoke_boxed (env : Env) (tout : OutType) (method : Ptr) (obj : Obj)
    (hw : w.Loaded) :
    ∃ out', Answers (afterInvoke env tout method (.boxed obj)) w (true, out') := by
  obtain ⟨out', ha⟩ := answers_storeResult_boxed env tout hw
  exact ⟨out', ha.then fun _ _ => answers_pure⟩

theorem afterInvoke_void_pointer :
    Answers (afterInvoke env .pointer method .void) w (true, leBytes 8 0) :=
  answers_storeResult_pointer.then fun _ _ => answers_pure

theorem afterInvoke_threw_pointer {exc : Obj} (hw : w.Loaded) :
    Answers (afterInvoke env .pointer method (.threw exc)) w
      (false, leBytes 8 0) := by
  refine answers_storeResult_pointer.then fun w₁ h₁ => ?_
  have hw₁ := h₁.loaded hw
  have hexc : (Invoked.threw exc).exc 0 ≠ 0 := exc.2
  rw [if_pos hexc]
  refine (answers_query hw₁ (by decide)).then fun w₂ h₂ => ?_
  refine (answers_exceptionToString (h₂.loaded hw₁)).then fun _ _ => ?_
  exact answers_log.then fun _ _ => answers_pure

theorem afterInvoke_null_value {size : Nat} {invoked : Invoked} (hw : w.Loaded)
    (hret : invoked.ret = 0) :
    Fails (afterInvoke env (.value size) method invoked) w
      (.nullDeref .object) := by
  rw [afterInvoke, hret]
  exact Prog.Fails.bind (fails_storeResult_value hw)

theorem succeeds {P : Prop} {out out' : Str} (h : ¬ P) :
    (true = false ↔ P) ∧ (true = false → out' = out) :=
  ⟨⟨nofun, fun hp => absurd hp h⟩, nofun⟩

theorem falseWhen_afterInvoke_iff {invoked : Invoked} (hw : w.Loaded) :
    FalseWhen invoked.Threw out (afterInvoke env tout method invoked) w ↔
      invoked.Suits tout out := by
  cases invoked with
  | boxed obj =>
      obtain ⟨out', ha⟩ := afterInvoke_boxed env tout method obj hw
      rw [falseWhen_of_answers ha]
      exact ⟨fun _ => trivial, fun _ => succeeds id⟩
  | void =>
      cases tout with
      | pointer =>
          rw [falseWhen_of_answers afterInvoke_void_pointer]
          exact ⟨fun _ => rfl, fun _ => succeeds id⟩
      | value size =>
          have hf : Fails (afterInvoke env (.value size) method .void) w
              (.nullDeref .object) := afterInvoke_null_value hw rfl
          exact ⟨fun h => absurd h (not_falseWhen_of_fails hf), fun h => by cases h⟩
  | threw exc =>
      cases tout with
      | pointer =>
          rw [falseWhen_of_answers (afterInvoke_threw_pointer hw)]
          refine ⟨?_, ?_⟩
          · intro h
            exact ⟨rfl, (h.2 rfl).symm⟩
          · intro h
            obtain ⟨_, h⟩ := h
            exact ⟨⟨fun _ => trivial, fun _ => rfl⟩, fun _ => h.symm⟩
      | value size =>
          have hf : Fails (afterInvoke env (.value size) method (.threw exc)) w
              (.nullDeref .object) := afterInvoke_null_value hw rfl
          exact ⟨fun h => absurd h (not_falseWhen_of_fails hf),
            fun h => by cases h.1⟩

/-! ## The call -/

/-- Whatever the runtime makes of the call, `RunMethod` reports failure as it
should exactly when there is no method or the outcome suits its `TOut`. -/
theorem reportsFailure_iff (hw : w.Loaded) (tout : OutType) (out : Str)
    (inst method : Ptr) (params : List Ptr) :
    ReportsFailure env w tout out inst method params ↔
      method = 0 ∨
        (env.rt.runtimeInvoke method inst params w.mem).1.Suits tout out := by
  by_cases hm : method = 0
  · subst hm
    rw [ReportsFailure, falseWhen_of_answers (answers_runMethod_null hw)]
    exact ⟨fun _ => Or.inl rfl, fun h => ⟨⟨fun _ => Or.inl rfl, fun _ => rfl⟩,
      fun _ => rfl⟩⟩
  rw [ReportsFailure, FalseWhen, run_runMethod hw hm, or_iff_right hm,
    or_iff_right hm]
  have hw₁ : ((w.called .runtimeInvoke (method :: inst :: params)).withMem
      (env.rt.runtimeInvoke method inst params w.mem).2).Loaded := hw
  generalize (w.called .runtimeInvoke (method :: inst :: params)).withMem
      (env.rt.runtimeInvoke method inst params w.mem).2 = w₁ at hw₁ ⊢
  generalize (env.rt.runtimeInvoke method inst params w.mem).1 = invoked
  exact falseWhen_afterInvoke_iff hw₁

theorem reportsFailure_void :
    ReportsFailure (Env.of Runtime.bare) (Process.ready fun _ => 0) .pointer
      (leBytes 8 5) 0 1 [] :=
  (reportsFailure_iff (ready_loaded _) _ _ _ _ _).mpr (Or.inr rfl)

/-- Every method throws. -/
def Runtime.throwing : Runtime :=
  { Runtime.bare with runtimeInvoke := fun _ _ _ m => (.threw ⟨9, by decide⟩, m) }

/-- The call is reported as failed, and the pointer it was given is gone. -/
theorem reportsFailure_not_throwing :
    ¬ ReportsFailure (Env.of Runtime.throwing) (Process.ready fun _ => 0) .pointer
      (leBytes 8 5) 0 1 [] := by
  intro h
  obtain ⟨ran, out', w', hrun, _, hout⟩ := h
  rw [run_runMethod (ready_loaded _) Nat.one_ne_zero] at hrun
  cases hrun
  exact absurd (hout rfl) (by decide)

end PistolWhipHook
