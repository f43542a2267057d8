import PistolWhipHook.Proofs.Lookups
import PistolWhipHook.Spec.Construction

/-!
# What `NewUnsafe` does

The object is made first and the constructor looked up after it, by its number
of arguments. From there on the answer depends on what the lookup gave, on what
the constructor did, and on what the uninitialised local `exp` held where the
constructor did not set it.
-/

namespace PistolWhipHook

open ByteMem CStr

variable {env : Env} {w : Process}

/-- Up to there the local is not in play. -/
theorem run_newUnsafe (env : Env) (klass : Ptr) (args : List Ptr) (hw : w.Loaded) :
    ∃ w' : Process, w'.Loaded ∧ w'.mem = (env.rt.objectNew klass w.mem).2 ∧
      ∀ g, (newUnsafe env g klass args).run w =
        (withCtor env g (env.rt.objectNew klass w.mem).1 args
          (ctorFor env.rt klass args w.mem)).run w' := by
  have hname : cString? (cstr ".ctor") = some (lit ".ctor") :=
    cString?_cstr (by decide)
  let w₁ := (w.called .objectNew [klass]).withMem (env.rt.objectNew klass w.mem).2
  let w₂ := (w₁.called .classGetName [klass]).logged ⟨.debug,
    "Attempting to find .ctor with paramCount: %lu for class " ++ "name: %s",
    [.int args.length, .str (env.rt.classGetName klass w₁.mem)]⟩
  have hw₁ : w₁.Loaded := hw
  have hw₂ : w₂.Loaded := hw
  refine ⟨w₂.called .classGetMethodFromName [klass], hw, rfl, fun g => ?_⟩
  rw [newUnsafe, Prog.run_bind_ok (run_init hw),
    Prog.run_bind_ok (run_objectNew hw)]
  dsimp only
  rw [Prog.run_bind_ok (run_classGetName hw₁), Prog.run_bind_ok run_log]
  rw [Prog.run_bind_ok (run_classGetMethodFromName hw₂ hname)]
  rfl

theorem newUnsafe_no_ctor (env : Env) {klass : Ptr} {args : List Ptr}
    (hw : w.Loaded) (hc : ctorFor env.rt klass args w.mem = 0) :
    ∃ w', ∀ g, (newUnsafe env g klass args).run w = .ok (0, w') := by
  obtain ⟨w', _, _, hrun⟩ := run_newUnsafe env klass args hw
  refine ⟨w'.logged ⟨.error,
    "il2cpp_utils: New: Could not find constructor for provided class!", []⟩,
    fun g => ?_⟩
  rw [hrun, withCtor, if_pos hc]
  rfl

theorem newUnsafe_ctor (env : Env) {klass : Ptr} {args : List Ptr} (hw : w.Loaded)
    (hc : ctorFor env.rt klass args w.mem ≠ 0) :
    ∃ w' : Process, w'.Loaded ∧ ∀ g, (newUnsafe env g klass args).run w =
      (withCtor.afterCtor env g (env.rt.objectNew klass w.mem).1
        (constructed env.rt klass args w.mem)).run w' := by
  obtain ⟨w', hw', hmem, hrun⟩ := run_newUnsafe env klass args hw
  let ctor := ctorFor env.rt klass args w.mem
  let obj := (env.rt.objectNew klass w.mem).1
  refine ⟨(w'.called .runtimeInvoke (ctor :: obj :: args)).withMem
    (env.rt.runtimeInvoke ctor obj args w'.mem).2, hw', fun g => ?_⟩
  rw [hrun, withCtor, if_neg hc, Prog.run_bind_ok (run_runtimeInvoke hw')]
  rw [constructed, ← hmem]

/-- The address `NewUnsafe` returns. -/
def madeUnsafe (rt : Runtime) (garbage klass : Ptr) (args : List Ptr) (mem : Mem) :
    Ptr :=
  if ctorFor rt klass args mem = 0 then 0
  else if (constructed rt klass args mem).exc garbage ≠ 0 then 0
  else (rt.objectNew klass mem).1

theorem exc_eq_zero_iff {invoked : Invoked} {g : Ptr} :
    invoked.exc g = 0 ↔ ¬ invoked.Threw ∧ g = 0 := by
  cases invoked with
  | boxed obj => exact ⟨fun h => ⟨id, h⟩, fun h => h.2⟩
  | void => exact ⟨fun h => ⟨id, h⟩, fun h => h.2⟩
  | threw exc => exact ⟨fun h => absurd h exc.2, fun h => absurd trivial h.1⟩

theorem answers_afterCtor (env : Env) (g obj : Ptr) (invoked : Invoked)
    (hw : w.Loaded) :
    Answers (withCtor.afterCtor env g obj invoked) w
      (if invoked.exc g ≠ 0 then 0 else obj) := by
  rw [withCtor.afterCtor]
  split
  · refine (answers_exceptionToString hw).then fun _ _ => ?_
    exact answers_log.then fun _ _ => answers_pure
  · exact answers_pure

theorem run_newUnsafe_made (env : Env) (g klass : Ptr) (args : List Ptr)
    (hw : w.Loaded) :
    ∃ w' : Process, (newUnsafe env g klass args).run w =
      .ok (madeUnsafe env.rt g klass args w.mem, w') := by
  rw [madeUnsafe]
  by_cases hc : ctorFor env.rt klass args w.mem = 0
  · obtain ⟨w', hrun⟩ := newUnsafe_no_ctor env hw hc
    rw [if_pos hc]
    exact ⟨w', hrun g⟩
  · obtain ⟨w₁, hw₁, hrun⟩ := newUnsafe_ctor env hw hc
    obtain ⟨w', hafter, _⟩ := answers_afterCtor env g
      (env.rt.objectNew klass w.mem).1 (constructed env.rt klass args w.mem) hw₁
    rw [if_neg hc]
    exact ⟨w', (hrun g).trans hafter⟩

theorem madeUnsafe_ne_zero_iff {rt : Runtime} {g klass : Ptr} {args : List Ptr}
    {mem : Mem} :
    madeUnsafe rt g klass args mem ≠ 0 ↔
      ctorFor rt klass args mem ≠ 0 ∧ ¬ (constructed rt klass args mem).Threw ∧
        g = 0 ∧ (rt.objectNew klass mem).1 ≠ 0 := by
  rw [madeUnsafe]
  split
  · next hc => exact ⟨fun h => absurd rfl h, fun h => absurd hc h.1⟩
  · next hc =>
      split
      · next hexc =>
          refine ⟨fun h => absurd rfl h, fun h => absurd ?_ hexc⟩
          exact exc_eq_zero_iff.mpr ⟨h.2.1, h.2.2.1⟩
      · next hexc =>
          obtain ⟨hthrew, hg⟩ := exc_eq_zero_iff.mp (not_not.mp hexc)
          exact ⟨fun h => ⟨hc, hthrew, hg, h⟩, fun h => h.2.2.2⟩

end PistolWhipHook
