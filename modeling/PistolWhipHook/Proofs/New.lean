import PistolWhipHook.Proofs.Lookups
import PistolWhipHook.Spec.Construction

/-!
# Which constructor `New` runs

The loop of `New` compares the name of `ctor`, the constructor found so far,
where it should compare that of `current`, the method it has just matched.
`ctor` starts out null. So the first method whose parameter types match is
the end of the call, and a class without one never leaves `ctor` anything but
null. `New` answers null or not at all, and is right only where null is the
answer to give.

What it compares with is the type list `argTypes` makes, which has
`System.SByte` for a `uint8_t` too.
-/

namespace PistolWhipHook

open ByteMem CStr

variable {env : Env} {w : Process} {klass : Ptr}

/-! ## Types -/

theorem answers_systemType {name : String} (hw : w.Loaded)
    (hname : (0 : UInt8) ∉ lit name) :
    Answers (systemType env name) w (systemTypeOf env.rt w.mem name) := by
  refine (answers_getClassFromName hw (cString?_cstr (by decide))
    (cString?_cstr hname)).then fun w₁ h₁ => ?_
  rw [systemTypeOf, ← h₁.mem]
  exact answers_query (h₁.loaded hw) (by decide)

theorem answers_argType {kind : ArgKind} (hw : w.Loaded) :
    Answers (argType env kind) w (argTypeOf env.rt w.mem kind) := by
  cases kind with
  | object arg =>
      refine (answers_query hw (by decide)).then fun w₁ h₁ => ?_
      rw [argTypeOf, ← h₁.mem]
      exact answers_query (h₁.loaded hw) (by decide)
  | int8 | uint8 | float | double | int16 | int | int64 =>
      exact answers_systemType hw (by decide)

theorem answers_argTypes (env : Env) (args : List Arg) :
    ∀ {w : Process}, w.Loaded → Answers (argTypes env args) w
      (args.map fun arg => argTypeOf env.rt w.mem arg.kind) := by
  induction args with
  | nil => intro w _; exact answers_pure
  | cons arg args ih =>
      intro w hw
      refine (answers_argType hw).then fun w₁ h₁ => ?_
      refine (ih (h₁.loaded hw)).then fun w₂ _ => ?_
      rw [h₁.mem]
      exact answers_pure

/-! ## The loop -/

theorem answers_matchTypes (heq : env.rt.TypeEqualsIsEq) {params : List Ptr} :
    ∀ {types : List Ptr} {w : Process}, params.length = types.length → w.Loaded →
      Answers (matchTypes env params types) w (decide (params = types)) := by
  induction params with
  | nil =>
      intro types w hlen _
      obtain rfl := List.length_eq_zero_iff.mp hlen.symm
      exact answers_pure
  | cons param params ih =>
      intro types w hlen hw
      obtain ⟨type, types, rfl⟩ := List.exists_cons_of_length_eq_add_one hlen.symm
      refine (answers_query hw (by decide)).then fun w₁ h₁ => ?_
      rw [heq]
      by_cases hp : param = type
      · subst hp
        rw [decide_eq_true rfl, if_neg (by decide)]
        have hcons : decide (param :: params = param :: types)
            = decide (params = types) := by
          simp only [List.cons.injEq, true_and]
        rw [hcons]
        exact ih (Nat.succ.inj hlen) (h₁.loaded hw)
      · rw [decide_eq_false hp, if_pos (by decide),
          decide_eq_false fun h => hp (List.cons.inj h).1]
        exact answers_pure

theorem answers_parameterMatch (heq : env.rt.TypeEqualsIsEq) {method : Ptr}
    {types : List Ptr} (hw : w.Loaded) (hm : method ≠ 0) :
    Answers (parameterMatch env method types types.length) w
      (decide (Takes env.rt w.mem types method)) := by
  rw [parameterMatch]
  refine (answers_deref hm).then fun w₁ h₁ => ?_
  by_cases hlen :
      (env.rt.methodInfo method w.mem).parameterTypes.length = types.length
  · rw [if_neg (by rw [hlen]; exact fun h => h rfl)]
    exact answers_matchTypes heq hlen (h₁.loaded hw)
  · have hne : ((env.rt.methodInfo method w.mem).parameterTypes.length : Int)
        ≠ types.length := fun h => hlen (Int.ofNat.inj h)
    have hno : ¬ Takes env.rt w.mem types method :=
      fun h => hlen (congrArg List.length h)
    rw [if_pos hne, decide_eq_false hno]
    exact answers_pure

/-- As long as nothing matches, `ctor` stays null. -/
theorem answers_newLoop (heq : env.rt.TypeEqualsIsEq) {types : List Ptr}
    {mem : Mem} {myIter : Ptr} {methods : List Ptr}
    (henum : Enumerates env.rt klass mem myIter methods) :
    ∀ {rounds : Nat} {w : Process}, w.Loaded → w.mem = mem →
      methods.length < rounds →
      (∀ method ∈ methods, ¬ Takes env.rt mem types method) →
      Answers (newLoop env klass types types.length rounds myIter 0) w 0 := by
  induction henum with
  | done h =>
      intro rounds w hw hmem hlt _
      cases rounds with
      | zero => exact absurd hlt (Nat.not_lt_zero _)
      | succ rounds =>
          rw [newLoop]
          refine (answers_query hw (by decide)).then fun w₁ _ => ?_
          rw [hmem, if_pos h]
          exact answers_pure
  | next h rest ih =>
      intro rounds w hw hmem hlt hnone
      cases rounds with
      | zero => exact absurd hlt (Nat.not_lt_zero _)
      | succ rounds =>
          rw [newLoop]
          refine (answers_query hw (by decide)).then fun w₁ h₁ => ?_
          rw [hmem, if_neg h]
          refine (answers_parameterMatch heq (h₁.loaded hw) h).then fun w₂ h₂ => ?_
          have hno := hnone _ List.mem_cons_self
          rw [h₁.mem, hmem, decide_eq_false hno, if_neg (by decide)]
          exact ih (h₂.loaded (h₁.loaded hw)) (h₂.mem.trans (h₁.mem.trans hmem))
            (Nat.lt_of_succ_lt_succ hlt)
            fun method hm => hnone method (List.mem_cons_of_mem _ hm)

/-- The first match is compared with a null `ctor`. -/
theorem fails_newLoop (heq : env.rt.TypeEqualsIsEq) {types : List Ptr}
    {mem : Mem} {myIter : Ptr} {methods : List Ptr}
    (henum : Enumerates env.rt klass mem myIter methods) :
    ∀ {rounds : Nat} {w : Process}, w.Loaded → w.mem = mem →
      methods.length < rounds →
      (∃ method ∈ methods, Takes env.rt mem types method) →
      Fails (newLoop env klass types types.length rounds myIter 0) w
        (.nullDeref .methodInfo) := by
  induction henum with
  | done h =>
      intro rounds w _ _ _ h
      obtain ⟨method, hm, _⟩ := h
      cases hm
  | @next myIter methods h rest ih =>
      intro rounds w hw hmem hlt h
      obtain ⟨method, hm, htakes⟩ := h
      cases rounds with
      | zero => exact absurd hlt (Nat.not_lt_zero _)
      | succ rounds =>
          rw [newLoop]
          refine (answers_query hw (by decide)).fails fun w₁ h₁ => ?_
          rw [hmem, if_neg h]
          refine (answers_parameterMatch heq (h₁.loaded hw) h).fails fun w₂ h₂ => ?_
          rw [h₁.mem, hmem]
          by_cases hfirst : Takes env.rt mem types
              (env.rt.classGetMethods klass myIter mem).1
          · rw [decide_eq_true hfirst, if_pos rfl]
            exact Prog.Fails.bind run_deref_null
          · rw [decide_eq_false hfirst, if_neg (by decide)]
            refine ih (h₂.loaded (h₁.loaded hw))
              (h₂.mem.trans (h₁.mem.trans hmem)) (Nat.lt_of_succ_lt_succ hlt) ?_
            rcases List.mem_cons.mp hm with rfl | hm
            · exact absurd htakes hfirst
            · exact ⟨method, hm, htakes⟩

/-! ## The call -/

theorem answers_runCtor_null {obj : Ptr} {invokeParams : List Ptr} :
    Answers (runCtor env obj invokeParams 0) w 0 :=
  answers_log.then fun _ _ => answers_pure

/-- The types are asked for and the object is made; then comes the loop. -/
theorem run_new (env : Env) (klass : Ptr) (args : List Arg) (hw : w.Loaded) :
    ∃ w' : Process, w'.Loaded ∧ w'.mem = (env.rt.objectNew klass w.mem).2 ∧
      w'.invocations = w.invocations ∧
      (new env klass args).run w = (newLoop env klass
        (args.map fun arg => argTypeOf env.rt w.mem arg.kind) args.length
        env.fuel 0 0 >>= runCtor env (env.rt.objectNew klass w.mem).1
          (args.map Arg.addr)).run w' := by
  obtain ⟨w₁, hrun, h₁⟩ := answers_argTypes env args hw
  have hw₁ := h₁.loaded hw
  have hobj : (objectNew env klass).run w₁ = _ := run_objectNew hw₁
  rw [h₁.mem] at hobj
  refine ⟨(w₁.called .objectNew [klass]).withMem (env.rt.objectNew klass w.mem).2,
    hw₁, rfl, ?_, ?_⟩
  · have hcalled : w₁.Onward (w₁.called .objectNew [klass]) :=
      Process.onward_called (by decide)
    exact hcalled.invocations.trans h₁.invocations
  · rw [new, Prog.run_bind_ok (run_init hw)]
    dsimp only
    rw [Prog.run_bind_ok hrun, Prog.run_bind_ok hobj]

theorem new_no_match (heq : env.rt.TypeEqualsIsEq) {args : List Arg}
    {methods : List Ptr} (hw : w.Loaded)
    (henum : Enumerates env.rt klass (env.rt.objectNew klass w.mem).2 0 methods)
    (hfuel : methods.length < env.fuel)
    (hnone : ∀ method ∈ methods, ¬ Takes env.rt (env.rt.objectNew klass w.mem).2
      (args.map fun arg => argTypeOf env.rt w.mem arg.kind) method) :
    ∃ w', (new env klass args).run w = .ok (0, w') ∧
      w'.invocations = w.invocations := by
  obtain ⟨w₁, hw₁, hmem, hinv, hrun⟩ := run_new env klass args hw
  have hloop := answers_newLoop heq henum hw₁ hmem hfuel hnone
  rw [List.length_map] at hloop
  obtain ⟨w₂, hrun₂, h₂⟩ := hloop.then fun w _ => answers_runCtor_null
  exact ⟨w₂, hrun.trans hrun₂, h₂.invocations.trans hinv⟩

theorem new_match_fails (heq : env.rt.TypeEqualsIsEq) {args : List Arg}
    {methods : List Ptr} (hw : w.Loaded)
    (henum : Enumerates env.rt klass (env.rt.objectNew klass w.mem).2 0 methods)
    (hfuel : methods.length < env.fuel)
    (hsome : ∃ method ∈ methods, Takes env.rt (env.rt.objectNew klass w.mem).2
      (args.map fun arg => argTypeOf env.rt w.mem arg.kind) method) :
    Fails (new env klass args) w (.nullDeref .methodInfo) := by
  obtain ⟨w₁, hw₁, hmem, _, hrun⟩ := run_new env klass args hw
  have hloop := fails_newLoop heq henum hw₁ hmem hfuel hsome
  rw [List.length_map] at hloop
  exact hrun.trans hloop.bind

/-- For every class and every argument pack, `New` does what it owes exactly
when there is nothing for it to run. -/
theorem constructs_iff (heq : env.rt.TypeEqualsIsEq) {args : List Arg}
    {methods : List Ptr} (hw : w.Loaded)
    (henum : Enumerates env.rt klass (env.rt.objectNew klass w.mem).2 0 methods)
    (hfuel : methods.length < env.fuel) :
    Constructs env w klass args methods ↔
      NothingToRun env w klass args methods := by
  by_cases hmatch : ∃ method ∈ methods, Takes env.rt
      (env.rt.objectNew klass w.mem).2
      (args.map fun arg => argTypeOf env.rt w.mem arg.kind) method
  · refine ⟨?_, ?_⟩
    · intro h
      obtain ⟨p, w', hrun, _⟩ := h
      rw [new_match_fails heq hw henum hfuel hmatch] at hrun
      cases hrun
    · intro h
      obtain ⟨hnone, _⟩ := h
      obtain ⟨method, hm, htakes⟩ := hmatch
      exact absurd htakes (hnone method hm)
  · have hnone : ∀ method ∈ methods, ¬ Takes env.rt
        (env.rt.objectNew klass w.mem).2
        (args.map fun arg => argTypeOf env.rt w.mem arg.kind) method :=
      fun method hm htakes => hmatch ⟨method, hm, htakes⟩
    obtain ⟨w₁, hrun₁, hinv⟩ := new_no_match heq hw henum hfuel hnone
    refine ⟨?_, ?_⟩
    · intro h
      obtain ⟨p, w', hrun, h⟩ := h
      rw [hrun₁] at hrun
      cases hrun
      refine ⟨hnone, fun hlen => ?_⟩
      obtain ⟨ctor, hctor⟩ := List.length_eq_one_iff.mp hlen
      rw [hctor] at h
      have happ := hinv.symm.trans h.1
      exact absurd (List.self_eq_append_right.mp happ) (List.cons_ne_nil _ _)
    · intro h
      obtain ⟨_, hlen⟩ := h
      refine ⟨0, w₁, hrun₁, ?_⟩
      split
      · next ctor hctor =>
          rw [hctor] at hlen
          exact absurd rfl hlen
      · rfl

/-! ## Two classes -/

/-- Class 1 has two constructors and a method: `.ctor` at 3 takes a `Single` and
an object of class 21, `.ctor` at 4 an `Int32`, and `Play` at 5 an `Int32` and a
`Single`. -/
def Runtime.playing : Runtime :=
  { Runtime.bare with
    typeEquals := fun type other _ => decide (type = other)
    methodInfo := fun method _ =>
      if method = 3 then ⟨lit ".ctor", [131, 121]⟩
      else if method = 4 then ⟨lit ".ctor", [130]⟩
      else ⟨lit "Play", [130, 131]⟩
    domainGet := fun _ => 50
    domainGetAssemblies := fun _ _ => ⟨[⟨51, by decide⟩], by decide⟩
    assemblyGetImage := fun _ _ => 52
    classFromName := fun _ _ typeName _ =>
      if typeName = lit "Int32" then 30
      else if typeName = lit "Single" then 31
      else 0
    classGetMethods := fun _ myIter _ =>
      if myIter < 3 then (myIter + 3, myIter + 1) else (0, myIter)
    objectNew := fun _ m => (7, m)
    objectGetClass := fun _ _ => 21
    classGetType := fun klass _ => klass + 100 }

theorem playing_typeEqualsIsEq : Runtime.playing.TypeEqualsIsEq :=
  fun _ _ _ => rfl

theorem playing_enumerates (klass : Ptr) (mem : Mem) :
    Enumerates Runtime.playing klass mem 0 [3, 4, 5] := by
  refine .next (Nat.succ_ne_zero 2) (.next (Nat.succ_ne_zero 3) ?_)
  exact .next (Nat.succ_ne_zero 4) (.done rfl)

/-- An int and an object: there are constructors, but not of these types. -/
theorem constructs_nothing :
    Constructs (Env.of Runtime.playing) (Process.ready fun _ => 0) 1
      [⟨.int, 40⟩, ⟨.object 20, 48⟩] [3, 4, 5] :=
  (constructs_iff playing_typeEqualsIsEq (ready_loaded _)
    (playing_enumerates 1 _) (by decide)).mpr ⟨by decide, by decide⟩

/-- The one method of each class is `.ctor`, at 3, and takes an object of the
class at 21. -/
def Runtime.oneCtor : Runtime :=
  { Runtime.bare with
    typeEquals := fun type other _ => decide (type = other)
    methodInfo := fun _ _ => ⟨lit ".ctor", [22]⟩
    classGetMethods := fun _ myIter _ => if myIter = 0 then (3, 1) else (0, 1)
    objectNew := fun _ m => (7, m)
    objectGetClass := fun _ _ => 21
    classGetType := fun klass _ => klass + 1 }

theorem oneCtor_typeEqualsIsEq : Runtime.oneCtor.TypeEqualsIsEq :=
  fun _ _ _ => rfl

theorem oneCtor_enumerates (klass : Ptr) (mem : Mem) :
    Enumerates Runtime.oneCtor klass mem 0 [3] :=
  .next (Nat.succ_ne_zero 2) (.done rfl)

/-- Given the object its constructor takes, the class is not constructed: the
call reads the name of a null method. -/
theorem constructs_not_matching :
    ¬ Constructs (Env.of Runtime.oneCtor) (Process.ready fun _ => 0) 1
      [⟨.object 20, 40⟩] [3] := by
  intro h
  obtain ⟨p, w', hrun, _⟩ := h
  have hfail : Fails (new (Env.of Runtime.oneCtor) 1 [⟨.object 20, 40⟩])
      (Process.ready fun _ => 0) (.nullDeref .methodInfo) :=
    new_match_fails oneCtor_typeEqualsIsEq (ready_loaded _)
      (oneCtor_enumerates 1 _) (by decide) ⟨3, List.mem_cons_self, by decide⟩
  rw [hfail] at hrun
  cases hrun

end PistolWhipHook
