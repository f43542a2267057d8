import Mathlib.Tactic.IntervalCases
import PistolWhipHook.Proofs.NewUnsafe

/-!
# What an uninitialised local decides

`NewUnsafe` passes the address of an `exp` it never set, and the overloads of
`GetFieldValue` that return a pointer return an `out` they never set. What
the local held before the call is a parameter of the model, so that two calls
from one process differ in nothing else. `Blind` says that they do not differ
at all.

The runtime sets `exp` only when the constructor throws, so it is the
constructor that returns which leaves the garbage to decide. `out` is set
only by a lookup that succeeds, and all of it only by a field of its size.
-/

namespace PistolWhipHook

open ByteMem CStr

variable {env : Env} {w : Process} {α : Type}

theorem blind_congr {m m' : Ptr → Hook α} {w' : Process}
    (h : ∀ g, (m g).run w = (m' g).run w') : Blind m w ↔ Blind m' w' := by
  rw [Blind, Blind]
  exact forall₂_congr fun g g' => by rw [h g, h g']

/-! ## `NewUnsafe` -/

/-- Where it did not, `exp` is what it was: with null there the object is
returned, with anything else a line is logged. -/
theorem not_blind_afterCtor {obj : Ptr} {invoked : Invoked} (hw : w.Loaded)
    (h : ¬ invoked.Threw) :
    ¬ Blind (fun g => withCtor.afterCtor env g obj invoked) w := by
  intro hblind
  have hexc : ∀ g, invoked.exc g = g := by
    intro g
    cases invoked with
    | boxed obj => rfl
    | void => rfl
    | threw exc => exact absurd trivial h
  have hnull : (withCtor.afterCtor env 0 obj invoked).run w = .ok (obj, w) := by
    rw [withCtor.afterCtor, hexc]
    rfl
  have hmsg : (exceptionToString env 1).run w =
      .ok (untilNul (env.rt.formatException 1 exceptionMessageSize w.mem),
        w.called .formatException [1]) := by
    rw [exceptionToString, Prog.run_bind_ok (run_formatException hw)]
    rfl
  have hone : (withCtor.afterCtor env 1 obj invoked).run w = .ok (0,
      (w.called .formatException [1]).logged ⟨.error,
        "il2cpp_utils: New: Failed with exception: %s", [.str (some
          (untilNul (env.rt.formatException 1 exceptionMessageSize w.mem)))]⟩) := by
    rw [withCtor.afterCtor, hexc, if_pos Nat.one_ne_zero, Prog.run_bind_ok hmsg]
    rfl
  have heq := Except.ok.inj (hnull.symm.trans ((hblind 0 1).trans hone))
  have hlog := congrArg (fun r : Ptr × Process => r.2.log.length) heq
  exact absurd (hlog.trans List.length_append) (Nat.ne_of_lt (Nat.lt_succ_self _))

theorem blind_newUnsafe_iff {klass : Ptr} {args : List Ptr} (hw : w.Loaded) :
    Blind (fun g => newUnsafe env g klass args) w ↔
      ctorFor env.rt klass args w.mem = 0 ∨
        (constructed env.rt klass args w.mem).Threw := by
  by_cases hc : ctorFor env.rt klass args w.mem = 0
  · obtain ⟨w', hrun⟩ := newUnsafe_no_ctor env hw hc
    refine ⟨fun _ => Or.inl hc, fun _ g g' => ?_⟩
    show (newUnsafe env g klass args).run w = (newUnsafe env g' klass args).run w
    rw [hrun g, hrun g']
  obtain ⟨w', hw', hrun⟩ := newUnsafe_ctor env hw hc
  rw [blind_congr hrun, or_iff_right hc]
  refine ⟨?_, ?_⟩
  · intro hblind
    by_contra h
    exact not_blind_afterCtor hw' h hblind
  · intro h
    cases hinv : constructed env.rt klass args w.mem with
    | boxed obj => rw [hinv] at h; exact absurd h id
    | void => rw [hinv] at h; exact absurd h id
    | threw exc => exact fun _ _ => rfl

/-! ## `GetFieldValue` -/

/-- The two garbages that tell an unset byte from a set one. -/
theorem drop_garbage_ne {k : Nat} (hk : k < 8) :
    (leBytes 8 0).drop k ≠ (leBytes 8 (2 ^ 64 - 1)).drop k := by
  interval_cases k <;> decide

/-- What is left of the garbage is what the field's bytes do not cover. -/
theorem blind_storeOut_iff {bytes : Str} :
    Blind (fun g => storeOut (leBytes 8 g) bytes >>= fun out =>
        (pure (leNat out) : Hook Ptr)) w ↔ 8 ≤ bytes.length := by
  have hrun : ∀ g, bytes.length ≤ 8 →
      (storeOut (leBytes 8 g) bytes >>= fun out =>
        (pure (leNat out) : Hook Ptr)).run w =
          .ok (leNat (bytes ++ (leBytes 8 g).drop bytes.length), w) := by
    intro g hle
    rw [storeOut, if_pos (by rwa [length_leBytes])]
    rfl
  refine ⟨?_, ?_⟩
  · intro hblind
    by_contra hlt
    have hle : bytes.length ≤ 8 := by omega
    have heq := hblind 0 (2 ^ 64 - 1)
    simp only [hrun _ hle] at heq
    have hnat := congrArg Prod.fst (Except.ok.inj heq)
    have hbytes := leNat_inj (by simp) hnat
    exact drop_garbage_ne (by omega) (List.append_cancel_left hbytes)
  · intro hge g g'
    rcases Nat.lt_or_eq_of_le hge with hlt | heq
    · -- an overrun, whatever the local held
      have hlt' : ∀ g, ¬ bytes.length ≤ (leBytes 8 g).length := by
        intro g
        rw [length_leBytes]
        omega
      have hover : ∀ g, Fails (storeOut (leBytes 8 g) bytes) w .overrun := by
        intro g
        rw [storeOut, if_neg (hlt' g)]
        rfl
      exact (hover g).bind.trans (hover g').bind.symm
    · simp only [hrun _ (Nat.le_of_eq heq.symm), ← heq]
      rw [List.drop_of_length_le (by simp), List.drop_of_length_le (by simp)]

theorem run_getFieldPointer (env : Env) (inst : Ptr) {field : Ptr} (hw : w.Loaded)
    (hf : field ≠ 0) :
    ∃ w', ∀ g, (getFieldPointer env g inst field).run w =
      (storeOut (leBytes 8 g) (fieldBytes env.rt inst field w.mem) >>= fun out =>
        (pure (leNat out) : Hook Ptr)).run w' := by
  obtain ⟨w', hrun⟩ := run_getFieldValue env inst hw hf
  refine ⟨w', fun g => ?_⟩
  rw [getFieldPointer, Prog.run_bind, hrun, ← Prog.run_bind, Prog.run_bind_assoc]
  rfl

/-- A failed lookup hands the garbage back. -/
theorem not_blind_garbage {m : Ptr → Hook (Bool × Str)} {w' : Process}
    (h : ∀ g, (m g).run w = .ok ((false, leBytes 8 g), w')) :
    ¬ Blind (fun g => m g >>= fun got => pure (leNat got.2)) w := by
  intro hblind
  have h01 := hblind 0 1
  simp only [Prog.run_bind_ok (h _), Prog.run_pure] at h01
  have hnat : leNat (leBytes 8 0) = leNat (leBytes 8 1) :=
    congrArg Prod.fst (Except.ok.inj h01)
  exact absurd hnat (by decide)

theorem blind_getFieldPointer_iff {inst field : Ptr} (hw : w.Loaded) :
    Blind (fun g => getFieldPointer env g inst field) w ↔
      FillsOut env.rt inst field w.mem := by
  by_cases hf : field = 0
  · subst hf
    have hrun : ∀ g, (getFieldValue env (leBytes 8 g) inst 0).run w =
        .ok ((false, leBytes 8 g), w.logged
          ⟨.error, "il2cpp_utils: GetFieldValue: Null FieldInfo!", []⟩) := by
      intro g
      rw [getFieldValue, Prog.run_bind_ok (run_init hw)]
      rfl
    exact ⟨fun h => absurd h (not_blind_garbage hrun), fun h => absurd rfl h.1⟩
  · obtain ⟨w', hrun⟩ := run_getFieldPointer env inst hw hf
    rw [blind_congr hrun, blind_storeOut_iff, FillsOut, and_iff_right hf]

theorem blind_named_iff {m : Ptr → Hook (Bool × Str)} {inst : Ptr}
    {v : StringView} {find : Str → Ptr}
    (hnone : cString? v.data = none → ∀ g, Fails (m g) w .overread)
    (hsome : ∀ n, cString? v.data = some n → ∃ w' : Process, w'.Loaded ∧
      w'.mem = w.mem ∧ ∀ g, (m g).run w = (if find n = 0 then
        pure (false, leBytes 8 g)
      else getFieldValue env (leBytes 8 g) inst (find n)).run w') :
    Blind (fun g => m g >>= fun got => pure (leNat got.2)) w ↔
      ∀ n, cString? v.data = some n → FillsOut env.rt inst (find n) w.mem := by
  cases hn : cString? v.data with
  | none =>
      refine ⟨fun _ n h => (by cases h), fun _ g g' => ?_⟩
      show (m g >>= _).run w = _
      rw [Prog.run_bind_error (hnone hn g), Prog.run_bind_error (hnone hn g')]
  | some n =>
      obtain ⟨w', hw', hmem, hrun⟩ := hsome n hn
      have hfills : (∀ n', some n = some n' → FillsOut env.rt inst (find n') w.mem)
          ↔ FillsOut env.rt inst (find n) w.mem :=
        ⟨fun h => h n rfl, fun h n' heq => Option.some.inj heq ▸ h⟩
      rw [hfills]
      by_cases hf : find n = 0
      · have hfail : ∀ g, (m g).run w = .ok ((false, leBytes 8 g), w') := by
          intro g
          rw [hrun, if_pos hf]
          rfl
        exact ⟨fun h => absurd h (not_blind_garbage hfail), fun h => absurd hf h.1⟩
      · have hgo : ∀ g, (m g >>= fun got => (pure (leNat got.2) : Hook Ptr)).run w =
            (getFieldPointer env g inst (find n)).run w' := by
          intro g
          rw [Prog.run_bind, hrun, if_neg hf, getFieldPointer, Prog.run_bind]
        rw [blind_congr hgo, blind_getFieldPointer_iff hw', hmem]

theorem blind_getFieldPointerOfClass_iff {klass : Ptr} {fieldName : StringView}
    (hw : w.Loaded) :
    Blind (fun g => getFieldPointerOfClass env g klass fieldName) w ↔
      (Uninit.getFieldPointerOfClass klass fieldName).Decided env.rt w.mem := by
  by_cases hk : klass = 0
  · subst hk
    have hrun : ∀ g, (getFieldValueOfClass env (leBytes 8 g) 0 fieldName).run w =
        .ok ((false, leBytes 8 g), w.logged ⟨.error,
          "il2cpp_utils: GetFieldValue: Could not find object class!", []⟩) := by
      intro g
      rw [getFieldValueOfClass, Prog.run_bind_ok (run_init hw)]
      rfl
    exact ⟨fun h => absurd h (not_blind_garbage hrun), fun h => absurd rfl h.1⟩
  · rw [Uninit.Decided, and_iff_right hk]
    refine blind_named_iff (fun hn g => ?_) (fun n hn => ?_)
    · show (getFieldValueOfClass env (leBytes 8 g) klass fieldName).run w = _
      rw [getFieldValueOfClass, Prog.run_bind_ok (run_init hw), if_neg hk]
      exact (fails_findField hw hk hn).bind
    · obtain ⟨w', hrun, hon⟩ := answers_findField env hw hk hn
      exact ⟨w', hon.loaded hw, hon.mem, fun g => run_named_ofClass hw hk hrun⟩

theorem blind_getFieldPointerOfObject_iff {inst : Ptr} {fieldName : StringView}
    (hw : w.Loaded) :
    Blind (fun g => getFieldPointerOfObject env g inst fieldName) w ↔
      (Uninit.getFieldPointerOfObject inst fieldName).Decided env.rt w.mem := by
  by_cases hi : inst = 0
  · subst hi
    have hrun : ∀ g, (getFieldValueOfObject env (leBytes 8 g) 0 fieldName).run w =
        .ok ((false, leBytes 8 g), w.logged ⟨.error,
          "il2cpp_utils: GetFieldValue: Null instance parameter!", []⟩) := by
      intro g
      rw [getFieldValueOfObject, Prog.run_bind_ok (run_init hw)]
      rfl
    exact ⟨fun h => absurd h (not_blind_garbage hrun), fun h => absurd rfl h.1⟩
  rw [Uninit.Decided, and_iff_right hi]
  have hw' : (w.called .objectGetClass [inst]).Loaded := hw
  by_cases hk : env.rt.objectGetClass inst w.mem = 0
  · have hrun : ∀ g,
        (getFieldValueOfObject env (leBytes 8 g) inst fieldName).run w =
          .ok ((false, leBytes 8 g), (w.called .objectGetClass [inst]).logged
            ⟨.error, "il2cpp_utils: GetFieldValue: Could not find object class!",
              []⟩) := by
      intro g
      rw [getFieldValueOfObject, Prog.run_bind_ok (run_init hw), if_neg hi,
        Prog.run_bind_ok (run_objectGetClass hw), if_pos hk]
      rfl
    exact ⟨fun h => absurd h (not_blind_garbage hrun), fun h => absurd hk h.1⟩
  · rw [and_iff_right hk]
    refine blind_named_iff (fun hn g => ?_) (fun n hn => ?_)
    · show (getFieldValueOfObject env (leBytes 8 g) inst fieldName).run w = _
      rw [getFieldValueOfObject, Prog.run_bind_ok (run_init hw), if_neg hi,
        Prog.run_bind_ok (run_objectGetClass hw), if_neg hk]
      exact (fails_findField hw' hk hn).bind
    · obtain ⟨w', hrun, hon⟩ := answers_findField env hw' hk hn
      exact ⟨w', hon.loaded hw', hon.mem,
        fun g => run_named_ofObject hw hi rfl hk hrun⟩

/-! ## The law -/

theorem blind_prog_iff (hw : w.Loaded) (op : Uninit) :
    Blind (op.prog env) w ↔ op.Decided env.rt w.mem := by
  cases op with
  | newUnsafe klass args => exact blind_newUnsafe_iff hw
  | getFieldPointer inst field => exact blind_getFieldPointer_iff hw
  | getFieldPointerOfClass klass fieldName =>
      exact blind_getFieldPointerOfClass_iff hw
  | getFieldPointerOfObject inst fieldName =>
      exact blind_getFieldPointerOfObject_iff hw

theorem newUnsafe_null {klass : Ptr} {args : List Ptr} {g p : Ptr} {w' : Process}
    (hw : w.Loaded)
    (h : ctorFor env.rt klass args w.mem = 0 ∨
      (constructed env.rt klass args w.mem).Threw)
    (hrun : (newUnsafe env g klass args).run w = .ok (p, w')) : p = 0 := by
  obtain ⟨w₁, hrun₁⟩ := run_newUnsafe_made env g klass args hw
  rw [hrun₁] at hrun
  cases hrun
  by_contra hne
  obtain ⟨hc, hthrew, _⟩ := madeUnsafe_ne_zero_iff.mp hne
  exact h.elim hc hthrew

theorem owes_of_decided {op : Uninit} {g p : Ptr} {w' : Process} (hw : w.Loaded)
    (h : op.Decided env.rt w.mem)
    (hrun : (op.prog env g).run w = .ok (p, w')) : op.Owes env.rt w.mem p := by
  cases op with
  | newUnsafe klass args =>
      refine ⟨fun ⟨hc, ht⟩ => ?_, fun _ => newUnsafe_null hw h hrun⟩
      exact absurd (h.resolve_left hc) ht
  | getFieldPointer inst field => exact fun hf => absurd hf h.1
  | getFieldPointerOfClass klass fieldName =>
      intro h
      rcases h with hk | ⟨n, hn, hf⟩
      · exact absurd hk h.1
      · exact absurd hf (h.2 n hn).1
  | getFieldPointerOfObject inst fieldName =>
      intro h
      rcases h with hi | hk | ⟨n, hn, hf⟩
      · exact absurd hi h.1
      · exact absurd hk h.2.1
      · exact absurd hf (h.2.2 n hn).1

/-- The two-run law holds of an operation exactly when no garbage is left to
decide it. -/
theorem twoRunLaw_iff (hw : w.Loaded) (op : Uninit) :
    TwoRunLaw env w op ↔ op.Decided env.rt w.mem := by
  rw [TwoRunLaw, blind_prog_iff hw]
  exact ⟨fun h => h.1, fun h => ⟨h, fun _ _ _ hrun => owes_of_decided hw h hrun⟩⟩

theorem twoRunLaw_no_ctor :
    TwoRunLaw (Env.of Runtime.bare) (Process.ready fun _ => 0)
      (.newUnsafe 1 []) :=
  (twoRunLaw_iff (ready_loaded _) _).mpr (Or.inl rfl)

/-- Every class has a constructor, and it returns. -/
def Runtime.constructing : Runtime :=
  { Runtime.bare with
    objectNew := fun _ m => (7, m)
    classGetMethodFromName := fun _ _ _ _ => 5 }

/-- With null on the stack `NewUnsafe` returns the new object, and with
anything else there it returns null; without a field `GetFieldValue` returns
what was on the stack. -/
theorem twoRunLaw_not_constructed :
    ¬ TwoRunLaw (Env.of Runtime.constructing) (Process.ready fun _ => 0)
        (.newUnsafe 1 []) ∧
      ¬ TwoRunLaw (Env.of Runtime.constructing) (Process.ready fun _ => 0)
        (.getFieldPointer 1 0) := by
  refine ⟨?_, ?_⟩
  · intro h
    obtain ⟨hblind, _⟩ := h
    have h01 := congrArg (fun r => r.map Prod.fst) (hblind 0 1)
    exact absurd (Except.ok.inj h01) (by decide)
  · intro h
    obtain ⟨hblind, _⟩ := h
    have h01 := congrArg (fun r => r.map Prod.fst) (hblind 0 1)
    exact absurd (Except.ok.inj h01) (by decide)

end PistolWhipHook
