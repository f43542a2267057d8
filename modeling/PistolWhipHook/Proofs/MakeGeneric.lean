import PistolWhipHook.Proofs.Lookups
import PistolWhipHook.Spec.MakeGeneric

/-!
# The array that `MakeGeneric` hands over

`MakeGeneric` fills an array with the type objects of its arguments, one
element a round, and stops at the first argument that has none. `fill` is that
loop without the logging: what the runtime answered for each argument in turn,
and the memory it leaves. Each round writes the bytes of its own element, so
the elements already written stay, and so does everything outside of them that
the runtime leaves alone.

The arguments are counted by an `int` that is compared with nothing. It goes
past its largest value in the round of argument number 2^31, if there are as
many arguments and the loop gets that far.
-/

namespace PistolWhipHook

open ByteMem CStr

variable {env : Env} {w : Process} {rt : Runtime} {klass a : Ptr}
  {args : List Ptr} {mem : Mem}

/-! ## The loop and what it writes -/

theorem fill_null {i arg : Nat} (h : (typeObject rt arg mem).1 = 0) :
    fill rt a i (arg :: args) mem = ([0], (typeObject rt arg mem).2) := by
  rw [fill]
  exact if_pos h

theorem fill_cons {i arg : Nat} (h : (typeObject rt arg mem).1 ≠ 0) :
    fill rt a i (arg :: args) mem =
      ((typeObject rt arg mem).1 ::
          (fill rt a (i + 1) args (putElem rt a i arg mem)).1,
        (fill rt a (i + 1) args (putElem rt a i arg mem)).2) := by
  rw [fill]
  exact if_neg h

theorem fill_outside {x : Nat} (hx : ∀ t m, (rt.typeGetObject t m).2 x = m x) :
    ∀ {i : Nat} {mem : Mem},
      x < elemAddr rt a i ∨ elemAddr rt a (i + args.length) ≤ x →
      (fill rt a i args mem).2 x = mem x := by
  induction args with
  | nil => intro i mem _; rfl
  | cons arg args ih =>
      intro i mem hout
      rw [List.length_cons] at hout
      by_cases ho : (typeObject rt arg mem).1 = 0
      · rw [fill_null ho]
        exact hx _ _
      · rw [fill_cons ho]
        rw [elemAddr, elemAddr] at hout
        have hrest : x < elemAddr rt a (i + 1) ∨
            elemAddr rt a (i + 1 + args.length) ≤ x := by
          rw [elemAddr, elemAddr]
          omega
        have hhere : x < elemAddr rt a i ∨ elemAddr rt a i + 8 ≤ x := by
          rw [elemAddr]
          omega
        rw [ih hrest, putElem, store_outside hhere]
        exact hx _ _

theorem length_fill :
    ∀ {i : Nat} {mem : Mem}, (0 : Ptr) ∉ (fill rt a i args mem).1 →
      (fill rt a i args mem).1.length = args.length := by
  induction args with
  | nil => intro i mem _; rfl
  | cons arg args ih =>
      intro i mem h
      by_cases ho : (typeObject rt arg mem).1 = 0
      · rw [fill_null ho] at h
        exact absurd (List.mem_singleton.mpr rfl) h
      · rw [fill_cons ho] at h ⊢
        rw [List.length_cons, List.length_cons,
          ih fun hmem => h (List.mem_cons_of_mem _ hmem)]

theorem fill_element {n : Nat} {o : Ptr} (hblock : ArrayBlock rt a n) (ho : o ≠ 0) :
    ∀ {i j : Nat} {mem : Mem}, i + args.length ≤ n →
      (fill rt a i args mem).1[j]? = some o →
      ByteMem.load (fill rt a i args mem).2 (elemAddr rt a (i + j)) 8 = o := by
  induction args with
  | nil => intro i j mem _ h; cases h
  | cons arg args ih =>
      intro i j mem hn h
      rw [List.length_cons] at hn
      by_cases hnull : (typeObject rt arg mem).1 = 0
      · rw [fill_null hnull] at h
        have hmem := List.mem_of_getElem? h
        exact absurd (List.mem_singleton.mp hmem) ho
      rw [fill_cons hnull] at h ⊢
      cases j with
      | succ j =>
          rw [show i + (j + 1) = i + 1 + j by omega]
          exact ih (by omega) h
      | zero =>
          -- the rounds after this one do not touch its element
          have hlt : (typeObject rt arg mem).1 < 256 ^ 8 := hblock.address _ _
          have hsame : ByteMem.load
              (fill rt a (i + 1) args (putElem rt a i arg mem)).2
                (elemAddr rt a i) 8 =
              ByteMem.load (putElem rt a i arg mem) (elemAddr rt a i) 8 := by
            refine load_congr fun x hlo hhi => ?_
            rw [elemAddr] at hlo hhi
            refine fill_outside (fun t m => hblock.kept t m x (by omega) ?_)
              (Or.inl ?_)
            · rw [elemAddr]
              omega
            · rw [elemAddr]
              omega
          show ByteMem.load (fill rt a (i + 1) args (putElem rt a i arg mem)).2
            (elemAddr rt a i) 8 = o
          rw [hsame, putElem, load_store_same, Nat.mod_eq_of_lt hlt]
          exact Option.some.inj h

/-! ## Runs of the loop -/

/-- The process went on without invoking anything. -/
structure Process.Quiet (w w' : Process) : Prop where
  loaded : w'.Loaded
  invocations : w'.invocations = w.invocations

theorem il2cppArrayAddrWithSize_eq {i : Nat} (h : elemAddr env.rt a i < 2 ^ 64) :
    il2cppArrayAddrWithSize env a 8 i = elemAddr env.rt a i := by
  rw [elemAddr] at h ⊢
  show (((a : Int) + env.rt.sizeOfArray + 8 * i) % 2 ^ 64).toNat = (_ : Nat)
  omega

theorem run_typeObject (env : Env) (klass : Ptr) (hw : w.Loaded) :
    ∃ w' : Process, w.Quiet w' ∧ w'.mem = (typeObject env.rt klass w.mem).2 ∧
      ∀ {α : Type} (k : Ptr → Hook α),
        (classGetTypeConst env klass >>= fun t => typeGetObject env t >>= k).run w =
          (k (typeObject env.rt klass w.mem).1).run w' := by
  let w₁ := w.called .classGetTypeConst [klass]
  let w₂ := w₁.called .typeGetObject [env.rt.classGetTypeConst klass w.mem]
  have hw₁ : w₁.Loaded := hw
  have hclass : (classGetTypeConst env klass).run w =
      .ok (env.rt.classGetTypeConst klass w.mem, w₁) := run_query hw
  have hobj : (typeGetObject env (env.rt.classGetTypeConst klass w.mem)).run w₁ =
      .ok ((typeObject env.rt klass w.mem).1,
        w₂.withMem (typeObject env.rt klass w.mem).2) := run_act hw₁
  refine ⟨w₂.withMem (typeObject env.rt klass w.mem).2, ⟨hw, ?_⟩, rfl, fun k => ?_⟩
  · have h₁ : w.Onward w₁ := Process.onward_called (by decide)
    have h₂ : w₁.Onward w₂ := Process.onward_called (by decide)
    exact h₂.invocations.trans h₁.invocations
  · rw [Prog.run_bind_ok hclass, Prog.run_bind_ok hobj]

/-- The `int` goes past its largest value: there are that many arguments, and
all up to there have type objects. -/
def Overflows (rt : Runtime) (a : Ptr) (i : Nat) (args : List Ptr) (mem : Mem) :
    Prop :=
  2 ^ 31 ≤ i + args.length ∧
  (0 : Ptr) ∉ (fill rt a i (args.take (2 ^ 31 - i)) mem).1

theorem not_overflows_null {i : Nat} {arg : Ptr} (hi : i < 2 ^ 31)
    (h : (typeObject rt arg mem).1 = 0) : ¬ Overflows rt a i (arg :: args) mem := by
  intro ho
  obtain ⟨_, hall⟩ := ho
  obtain ⟨k, hk⟩ : ∃ k, 2 ^ 31 - i = k + 1 := ⟨2 ^ 31 - i - 1, by omega⟩
  rw [hk, List.take_succ_cons, fill_null h] at hall
  exact hall (List.mem_singleton.mpr rfl)

theorem overflows_cons_iff {i : Nat} {arg : Ptr} (hi : i + 1 < 2 ^ 31)
    (h : (typeObject rt arg mem).1 ≠ 0) :
    Overflows rt a i (arg :: args) mem ↔
      Overflows rt a (i + 1) args (putElem rt a i arg mem) := by
  have hk : 2 ^ 31 - i = 2 ^ 31 - (i + 1) + 1 := by omega
  rw [Overflows, Overflows, hk, List.take_succ_cons, fill_cons h, List.mem_cons,
    or_iff_right h.symm, List.length_cons, Nat.add_right_comm, Nat.add_assoc]

theorem overflows_last {i : Nat} {arg : Ptr} (hi : i + 1 = 2 ^ 31)
    (h : (typeObject rt arg mem).1 ≠ 0) : Overflows rt a i (arg :: args) mem := by
  refine ⟨by rw [List.length_cons]; omega, ?_⟩
  rw [show 2 ^ 31 - i = 0 + 1 by omega, List.take_succ_cons, List.take_zero,
    fill_cons h, fill]
  exact fun hmem => h (List.mem_singleton.mp hmem).symm

/-- The loop is `fill`, or it overflows. -/
theorem run_fillArgs {n : Nat} (hblock : ArrayBlock env.rt a n) :
    ∀ {i : Nat} {w : Process}, w.Loaded → i < 2 ^ 31 → i + args.length ≤ n →
      (Overflows env.rt a i args w.mem →
        Fails (fillArgs env a i args) w .overflow) ∧
      (¬ Overflows env.rt a i args w.mem →
        ∃ w' : Process, w.Quiet w' ∧ w'.mem = (fill env.rt a i args w.mem).2 ∧
          (fillArgs env a i args).run w =
            .ok (decide ((0 : Ptr) ∉ (fill env.rt a i args w.mem).1), w')) := by
  induction args with
  | nil =>
      intro i w hw hi _
      refine ⟨fun h => ?_, fun _ => ⟨w, ⟨hw, rfl⟩, rfl, rfl⟩⟩
      exact absurd h.1 (Nat.not_le_of_lt hi)
  | cons arg args ih =>
      intro i w hw hi hn
      rw [List.length_cons] at hn
      obtain ⟨w₁, hquiet, hmem, hrun⟩ := run_typeObject env arg hw
      rw [fillArgs, Fails, Prog.Fails, hrun]
      by_cases ho : (typeObject env.rt arg w.mem).1 = 0
      · refine ⟨fun h => absurd h (not_overflows_null hi ho), fun _ => ?_⟩
        have hstop : Answers (classGetNameConst env arg >>= fun name =>
            log .error "il2cpp_utils: MakeGeneric: Failed to get type for %s"
              [.str name] >>= fun _ => (pure false : Hook Bool)) w₁ false :=
          (answers_query hquiet.loaded (by decide)).then fun _ _ =>
            answers_log.then fun _ _ => answers_pure
        obtain ⟨w₂, hrun₂, h₂⟩ := hstop
        refine ⟨w₂, ⟨h₂.loaded hquiet.loaded, ?_⟩, ?_, ?_⟩
        · exact h₂.invocations.trans hquiet.invocations
        · rw [h₂.mem, hmem, fill_null ho]
        · rw [if_pos ho, fill_null ho]
          exact hrun₂
      have haddr : il2cppArrayAddrWithSize env a 8 i = elemAddr env.rt a i := by
        refine il2cppArrayAddrWithSize_eq (Nat.lt_of_lt_of_le ?_ hblock.noWrap)
        rw [elemAddr, elemAddr]
        omega
      let w₂ := w₁.withMem (putElem env.rt a i arg w.mem)
      have hput : w₁.withMem (store w₁.mem (elemAddr env.rt a i) 8
          (typeObject env.rt arg w.mem).1) = w₂ := by
        rw [hmem]
        rfl
      rw [if_neg ho, Prog.run_bind_ok run_poke, haddr, hput]
      by_cases hi' : i + 1 < 2 ^ 31
      · have hw₂ : w₂.Loaded := hquiet.loaded
        rw [if_pos hi', overflows_cons_iff hi' ho, fill_cons ho]
        obtain ⟨hfail, hok⟩ := ih hw₂ hi' (by omega)
        refine ⟨hfail, fun h => ?_⟩
        obtain ⟨w₃, hquiet₃, hmem₃, hrun₃⟩ := hok h
        refine ⟨w₃, ⟨hquiet₃.loaded, ?_⟩, hmem₃, ?_⟩
        · exact hquiet₃.invocations.trans hquiet.invocations
        · rw [hrun₃, Except.ok.injEq, Prod.mk.injEq]
          refine ⟨?_, rfl⟩
          rw [decide_eq_decide, List.mem_cons, or_iff_right (Ne.symm ho)]
          rfl
      · rw [if_neg hi']
        refine ⟨fun _ => rfl, fun h => absurd (overflows_last (by omega) ho) h⟩

/-! ## `MakeGenericType` -/

theorem InvokedOn.onward {gt types : Ptr} {w₁ w₂ : Process}
    (h : InvokedOn rt gt types w w₁) (h' : w₁.Onward w₂) :
    InvokedOn rt gt types w w₂ :=
  ⟨h'.invocations.trans h.1, h'.mem.trans h.2⟩

theorem invocations_runtimeInvoke {method obj : Ptr} {params : List Ptr} :
    (w.called .runtimeInvoke (method :: obj :: params)).invocations =
      w.invocations ++ [⟨.runtimeInvoke, method :: obj :: params⟩] := by
  show (w.calls ++ [_]).filter _ = w.calls.filter _ ++ [_]
  rw [List.filter_append]
  rfl

theorem answers_genericTypeOf (env : Env) (invoked : Invoked) (hw : w.Loaded) :
    ∃ ret, Answers (genericTypeOf env invoked) w ret := by
  by_cases h : invoked.exc 0 ≠ 0
  · refine ⟨0, ?_⟩
    rw [genericTypeOf, if_pos h]
    refine (answers_exceptionToString hw).then fun _ _ => ?_
    exact answers_log.then fun _ _ => answers_pure
  · refine ⟨invoked.ret, ?_⟩
    rw [genericTypeOf, if_neg h]
    exact answers_pure

theorem makeGenericMethod_eq
    (h : classNamed rt mem (lit "System") (lit "RuntimeType") ≠ 0) :
    makeGenericMethod rt mem = rt.classGetMethodFromName
      (classNamed rt mem (lit "System") (lit "RuntimeType"))
      (lit "MakeGenericType") 2 mem :=
  if_neg h

theorem makeGenericType_no_method (env : Env) (gt types : Ptr) (hw : w.Loaded)
    (h : makeGenericMethod env.rt w.mem = 0) :
    Answers (makeGenericType env gt types) w 0 := by
  rw [makeGenericType]
  refine (answers_init hw).then fun w₁ h₁ => ?_
  have hw₁ := h₁.loaded hw
  refine (answers_getClassFromName hw₁ (cString?_cstr (by decide))
    (cString?_cstr (by decide))).then fun w₂ h₂ => ?_
  have hw₂ := h₂.loaded hw₁
  rw [h₁.mem]
  split
  · exact answers_log.then fun _ _ => answers_pure
  · next hc =>
      refine (answers_classGetMethodFromName hw₂
        (cString?_cstr (by decide))).then fun w₃ _ => ?_
      rw [makeGenericMethod_eq hc] at h
      rw [h₂.mem, h₁.mem, if_pos h]
      exact answers_log.then fun _ _ => answers_pure

theorem makeGenericType_method (env : Env) (gt types : Ptr) (hw : w.Loaded)
    (h : makeGenericMethod env.rt w.mem ≠ 0) :
    ∃ w', w.Onward w' ∧ (makeGenericType env gt types).run w =
      (runtimeInvoke env (makeGenericMethod env.rt w.mem) 0 [gt, types] >>=
        genericTypeOf env).run w' := by
  have hc : classNamed env.rt w.mem (lit "System") (lit "RuntimeType") ≠ 0 :=
    fun hc => h (if_pos hc)
  have hclass : Answers (getClassFromName env (cstr "System") (cstr "RuntimeType"))
      w _ := answers_getClassFromName hw (cString?_cstr (by decide))
        (cString?_cstr (by decide))
  obtain ⟨w₁, hrun₁, h₁⟩ := hclass
  have hlookup : Answers (classGetMethodFromName env
      (classNamed env.rt w.mem (lit "System") (lit "RuntimeType"))
      (cstr "MakeGenericType") 2) w₁ _ :=
    answers_classGetMethodFromName (h₁.loaded hw) (cString?_cstr (by decide))
  rw [h₁.mem, ← makeGenericMethod_eq hc] at hlookup
  obtain ⟨w₂, hrun₂, h₂⟩ := hlookup
  refine ⟨w₂, h₁.trans h₂, ?_⟩
  rw [makeGenericType, Prog.run_bind_ok (run_init hw), Prog.run_bind_ok hrun₁,
    if_neg hc, Prog.run_bind_ok hrun₂, if_neg h]

theorem run_makeGenericType (env : Env) (gt types : Ptr) (hw : w.Loaded) :
    ∃ ret w', (makeGenericType env gt types).run w = .ok (ret, w') ∧ w'.Loaded ∧
      (ret = 0 ∧ w.Onward w' ∨ InvokedOn env.rt gt types w w') := by
  by_cases hm : makeGenericMethod env.rt w.mem = 0
  · obtain ⟨w', hrun, h'⟩ := makeGenericType_no_method env gt types hw hm
    exact ⟨0, w', hrun, h'.loaded hw, Or.inl ⟨rfl, h'⟩⟩
  obtain ⟨w₁, h₁, hrun⟩ := makeGenericType_method env gt types hw hm
  have hw₁ := h₁.loaded hw
  let method := makeGenericMethod env.rt w.mem
  let w₂ := (w₁.called .runtimeInvoke (method :: 0 :: [gt, types])).withMem
    (env.rt.runtimeInvoke method 0 [gt, types] w₁.mem).2
  have hw₂ : w₂.Loaded := hw₁
  have hinvoked : InvokedOn env.rt gt types w w₂ := by
    rw [InvokedOn, ← h₁.invocations]
    refine ⟨invocations_runtimeInvoke, ?_⟩
    show (env.rt.runtimeInvoke method 0 [gt, types] w₁.mem).2 = _
    rw [h₁.mem]
  obtain ⟨ret, w', hrun', h'⟩ := answers_genericTypeOf env
    (env.rt.runtimeInvoke method 0 [gt, types] w₁.mem).1 hw₂
  rw [hrun, Prog.run_bind_ok (run_runtimeInvoke hw₁)]
  exact ⟨ret, w', hrun', h'.loaded hw₂, Or.inr (hinvoked.onward h')⟩

/-! ## `MakeGeneric` -/

theorem countFits_iff :
    CountFits rt klass args mem ↔ (HasArray rt klass args mem →
      ¬ Overflows rt (typeArray rt klass args mem).1 0 args
        (typeArray rt klass args mem).2) := by
  refine forall_congr' fun _ => ?_
  rw [Overflows, Nat.zero_add, Nat.sub_zero, not_and_or, Nat.not_le, not_not]

theorem answers_classOfGeneric_null :
    Answers (classOfGeneric env 0) w 0 :=
  answers_log.then fun _ _ => answers_pure

theorem answers_classOfGeneric (env : Env) (reflectionType : Ptr) (hw : w.Loaded) :
    ∃ ret, Answers (classOfGeneric env reflectionType) w ret := by
  by_cases h : reflectionType = 0
  · rw [h]
    exact ⟨0, answers_classOfGeneric_null⟩
  refine ⟨env.rt.classFromSystemType reflectionType w.mem, ?_⟩
  rw [classOfGeneric, if_neg h]
  refine (answers_query hw (by decide)).then fun w₁ h₁ => ?_
  split
  · next hret =>
      rw [hret]
      exact answers_log.then fun _ _ => answers_pure
  · refine (answers_query (h₁.loaded hw) (by decide)).then fun _ _ => ?_
    exact answers_log.then fun _ _ => answers_pure

theorem run_makeGeneric (env : Env) (klass : Ptr) (args : List Ptr)
    (hw : w.Loaded) :
    ∃ w', w.Onward w' ∧ (makeGeneric env klass args).run w =
      (if typeClass env.rt w.mem = 0 then pure 0
        else genericFrom env klass args (typeClass env.rt w.mem)).run w' := by
  have hclass : Answers (getClassFromName env (cstr "System") (cstr "Type")) w _ :=
    answers_getClassFromName hw (cString?_cstr (by decide))
      (cString?_cstr (by decide))
  obtain ⟨w₁, hrun, h₁⟩ := hclass
  refine ⟨w₁, h₁, ?_⟩
  rw [makeGeneric, Prog.run_bind_ok (run_init hw), Prog.run_bind_ok hrun]
  rfl

theorem run_genericFrom (env : Env) (klass : Ptr) (args : List Ptr) (typ : Ptr)
    (hw : w.Loaded) :
    ∃ w', w.Onward w' ∧ (genericFrom env klass args typ).run w =
      (genericBy env klass args typ
        (env.rt.classGetMethodFromName typ (lit "GetType") 1 w.mem)).run w' := by
  have hlookup : Answers (classGetMethodFromName env typ (cstr "GetType") 1) w _ :=
    answers_classGetMethodFromName hw (cString?_cstr (by decide))
  obtain ⟨w₁, hrun, h₁⟩ := hlookup
  exact ⟨w₁, h₁, Prog.run_bind_ok hrun⟩

theorem run_genericOf (env : Env) (args : List Ptr) (typ : Ptr) {klassType : Ptr}
    (hw : w.Loaded) (hk : klassType ≠ 0) :
    ∃ w', w.Quiet w' ∧
      w'.mem = (env.rt.arrayNewSpecific typ args.length w.mem).2 ∧
      (genericOf env args typ klassType).run w =
        (genericInto env args klassType
          (env.rt.arrayNewSpecific typ args.length w.mem).1).run w' := by
  let w₁ := w.called .arrayNewSpecific [typ]
  have hcalled : w.Onward w₁ := Process.onward_called (by decide)
  refine ⟨w₁.withMem (env.rt.arrayNewSpecific typ args.length w.mem).2,
    ⟨hw, hcalled.invocations⟩, rfl, ?_⟩
  rw [genericOf, if_neg hk]
  exact Prog.run_bind_ok (run_act hw)

/-- Null is returned, and nothing was invoked. -/
def ReturnsNull (m : Hook Ptr) (w : Process) : Prop :=
  ∃ w', m.run w = .ok (0, w') ∧ w'.invocations = w.invocations

theorem ReturnsNull.of_answers {m : Hook Ptr} (h : Answers m w 0) :
    ReturnsNull m w := by
  obtain ⟨w', hrun, h'⟩ := h
  exact ⟨w', hrun, h'.invocations⟩

theorem ReturnsNull.after {m m' : Hook Ptr} {w₁ : Process}
    (hinv : w₁.invocations = w.invocations) (hrun : m.run w = m'.run w₁)
    (h : ReturnsNull m' w₁) : ReturnsNull m w := by
  obtain ⟨w', hrun', hinv'⟩ := h
  exact ⟨w', hrun.trans hrun', hinv'.trans hinv⟩

/-- Without an array something is missing before the loop. -/
theorem makeGeneric_no_array (hw : w.Loaded)
    (h : ¬ HasArray env.rt klass args w.mem) :
    ReturnsNull (makeGeneric env klass args) w := by
  obtain ⟨w₁, h₁, hrun₁⟩ := run_makeGeneric env klass args hw
  have hw₁ := h₁.loaded hw
  refine .after h₁.invocations hrun₁ ?_
  split
  · exact .of_answers answers_pure
  next htyp =>
  obtain ⟨w₂, h₂, hrun₂⟩ :=
    run_genericFrom env klass args (typeClass env.rt w.mem) hw₁
  have hw₂ := h₂.loaded hw₁
  refine .after h₂.invocations hrun₂ ?_
  rw [h₁.mem, genericBy]
  split
  · exact .of_answers (answers_log.then fun _ _ => answers_pure)
  next hget =>
  obtain ⟨w₃, hquiet₃, hmem₃, hrun₃⟩ := run_typeObject env klass hw₂
  rw [h₂.mem, h₁.mem] at hmem₃ hrun₃
  refine .after hquiet₃.invocations (hrun₃ _) ?_
  by_cases hk : (typeObject env.rt klass w.mem).1 = 0
  · rw [genericOf, if_pos hk]
    exact .of_answers (answers_log.then fun _ _ => answers_pure)
  obtain ⟨w₄, hquiet₄, _, hrun₄⟩ :=
    run_genericOf env args (typeClass env.rt w.mem) hquiet₃.loaded hk
  rw [hmem₃] at hrun₄
  refine .after hquiet₄.invocations hrun₄ ?_
  rw [genericInto]
  split
  · exact .of_answers (answers_log.then fun _ _ => answers_pure)
  · next ha => exact absurd ⟨htyp, hget, hk, ha⟩ h

theorem makeGeneric_array (hw : w.Loaded) (h : HasArray env.rt klass args w.mem) :
    ∃ w', w.Quiet w' ∧ w'.mem = (typeArray env.rt klass args w.mem).2 ∧
      (makeGeneric env klass args).run w =
        (fillArgs env (typeArray env.rt klass args w.mem).1 0 args >>=
          finishGeneric env (typeObject env.rt klass w.mem).1
            (typeArray env.rt klass args w.mem).1).run w' := by
  obtain ⟨w₁, h₁, hrun₁⟩ := run_makeGeneric env klass args hw
  have hw₁ := h₁.loaded hw
  obtain ⟨w₂, h₂, hrun₂⟩ :=
    run_genericFrom env klass args (typeClass env.rt w.mem) hw₁
  have hget : env.rt.classGetMethodFromName (typeClass env.rt w.mem)
      (lit "GetType") 1 w.mem ≠ 0 := h.getType
  obtain ⟨w₃, hquiet₃, hmem₃, hrun₃⟩ := run_typeObject env klass (h₂.loaded hw₁)
  rw [h₂.mem, h₁.mem] at hmem₃ hrun₃
  obtain ⟨w₄, hquiet₄, hmem₄, hrun₄⟩ :=
    run_genericOf env args (typeClass env.rt w.mem) hquiet₃.loaded h.klassType
  rw [hmem₃] at hmem₄ hrun₄
  refine ⟨w₄, ⟨hquiet₄.loaded, ?_⟩, hmem₄, ?_⟩
  · rw [hquiet₄.invocations, hquiet₃.invocations, h₂.invocations, h₁.invocations]
  · rw [hrun₁, if_neg h.typ, hrun₂, h₁.mem, genericBy, if_neg hget, hrun₃, hrun₄,
      genericInto]
    exact congrArg (fun m : Hook Ptr => m.run w₄) (if_neg h.array)

/-! ## The law -/

theorem InvokedOn.congr {gt types : Ptr} {w₁ w₂ w' : Process}
    (hinv : w₁.invocations = w₂.invocations) (hmem : w₁.mem = w₂.mem)
    (h : InvokedOn rt gt types w₁ w') : InvokedOn rt gt types w₂ w' := by
  rw [InvokedOn, hinv, hmem] at h
  exact h

theorem run_finishGeneric (env : Env) (klassType a : Ptr) (hw : w.Loaded) :
    ∃ ret w', (finishGeneric env klassType a true).run w = .ok (ret, w') ∧
      (ret = 0 ∧ w.Onward w' ∨ InvokedOn env.rt klassType a w w') := by
  obtain ⟨type, w₁, hrun₁, hw₁, hcases⟩ := run_makeGenericType env klassType a hw
  have hrun : (finishGeneric env klassType a true).run w =
      (classOfGeneric env type).run w₁ := Prog.run_bind_ok hrun₁
  rw [hrun]
  rcases hcases with ⟨hnull, h₁⟩ | hinvoked
  · rw [hnull]
    obtain ⟨w₂, hrun₂, h₂⟩ :=
      (answers_classOfGeneric_null : Answers (classOfGeneric env 0) w₁ 0)
    exact ⟨0, w₂, hrun₂, Or.inl ⟨rfl, h₁.trans h₂⟩⟩
  · obtain ⟨ret, w₂, hrun₂, h₂⟩ := answers_classOfGeneric env type hw₁
    exact ⟨ret, w₂, hrun₂, Or.inr (hinvoked.onward h₂)⟩

theorem elements_of_not_missing
    (hblock : ArrayBlock rt (typeArray rt klass args mem).1 args.length)
    (h : (0 : Ptr) ∉ (filledArray rt klass args mem).1) :
    (filledArray rt klass args mem).1.length = args.length ∧
      ∀ i o, (filledArray rt klass args mem).1[i]? = some o →
        ByteMem.load (filledArray rt klass args mem).2
          (elemAddr rt (typeArray rt klass args mem).1 i) 8 = o := by
  refine ⟨length_fill h, fun i o ho => ?_⟩
  have hne : o ≠ 0 := fun h0 => h (h0 ▸ List.mem_of_getElem? ho)
  have helem := fill_element hblock hne (Nat.le_of_eq (Nat.zero_add _)) ho
  rw [Nat.zero_add] at helem
  exact helem

theorem frame_filledArray {x : Nat}
    (hout : x < elemAddr rt (typeArray rt klass args mem).1 0 ∨
      elemAddr rt (typeArray rt klass args mem).1 args.length ≤ x)
    (hx : ∀ t m, (rt.typeGetObject t m).2 x = m x) :
    (filledArray rt klass args mem).2 x = (typeArray rt klass args mem).2 x := by
  refine fill_outside hx ?_
  rw [Nat.zero_add]
  exact hout

/-- With an array and a count that fits, the loop fills what it gets to, and
`MakeGeneric` does what it is for. -/
theorem genericLaw_of_not_overflows (hw : w.Loaded)
    (harr : HasArray env.rt klass args w.mem)
    (hblock : ArrayBlock env.rt (typeArray env.rt klass args w.mem).1 args.length)
    (h : ¬ Overflows env.rt (typeArray env.rt klass args w.mem).1 0 args
      (typeArray env.rt klass args w.mem).2) :
    GenericLaw env w klass args := by
  obtain ⟨w₁, hquiet₁, hmem₁, hrun₁⟩ := makeGeneric_array hw harr
  rw [← hmem₁] at h
  obtain ⟨w₂, hquiet₂, hmem₂, hrun₂⟩ :=
    (run_fillArgs hblock hquiet₁.loaded (by decide)
      (Nat.le_of_eq (Nat.zero_add _))).2 h
  rw [hmem₁] at hmem₂ hrun₂
  have hfilled :
      (fillArgs env (typeArray env.rt klass args w.mem).1 0 args).run w₁ =
      .ok (decide ((0 : Ptr) ∉ (filledArray env.rt klass args w.mem).1), w₂) :=
    hrun₂
  have hinv₂ := hquiet₂.invocations.trans hquiet₁.invocations
  rw [GenericLaw, hrun₁, Prog.run_bind_ok hfilled]
  by_cases hnull : (0 : Ptr) ∈ (filledArray env.rt klass args w.mem).1
  · have hmissing : Missing env.rt klass args w.mem := Or.inr hnull
    rw [decide_eq_false fun hall => hall hnull]
    exact ⟨0, w₂, rfl,
      { missing := fun _ => ⟨rfl, hinv₂⟩
        invoked := Or.inl ⟨rfl, hinv₂⟩
        elements := fun hall => absurd hmissing hall
        frame := fun _ x hout hx => frame_filledArray hout hx
        stopped := fun _ _ => hmem₂ }⟩
  · have hall : ¬ Missing env.rt klass args w.mem :=
      not_or.mpr ⟨not_not.mpr harr, hnull⟩
    rw [decide_eq_true hnull]
    obtain ⟨ret, w₃, hrun₃, hcases⟩ := run_finishGeneric env
      (typeObject env.rt klass w.mem).1 (typeArray env.rt klass args w.mem).1
      hquiet₂.loaded
    refine ⟨ret, w₃, hrun₃,
      { missing := fun hmissing => absurd hmissing hall
        invoked := ?_
        elements := fun _ => elements_of_not_missing hblock hnull
        frame := fun _ x hout hx => frame_filledArray hout hx
        stopped := fun _ hstop => absurd hstop hnull }⟩
    rcases hcases with ⟨hret, h₃⟩ | hinvoked
    · exact Or.inl ⟨hret, h₃.invocations.trans hinv₂⟩
    · exact Or.inr ⟨hall, hinvoked.congr hinv₂ hmem₂⟩

/-- For every list of arguments and whatever the runtime answers: `MakeGeneric`
does what it is for exactly when the count of the arguments fits. -/
theorem genericLaw_iff (hw : w.Loaded)
    (hblock : HasArray env.rt klass args w.mem →
      ArrayBlock env.rt (typeArray env.rt klass args w.mem).1 args.length) :
    GenericLaw env w klass args ↔ CountFits env.rt klass args w.mem := by
  rw [countFits_iff]
  by_cases harr : HasArray env.rt klass args w.mem
  · refine ⟨fun h _ hover => ?_, fun h => ?_⟩
    · obtain ⟨w₁, hquiet₁, hmem₁, hrun₁⟩ := makeGeneric_array hw harr
      obtain ⟨ret, w', hrun, _⟩ := h
      rw [← hmem₁] at hover
      have hfail := (run_fillArgs (hblock harr) hquiet₁.loaded (by decide)
        (Nat.le_of_eq (Nat.zero_add _))).1 hover
      rw [hrun₁, Prog.run_bind_error hfail] at hrun
      cases hrun
    · exact genericLaw_of_not_overflows hw harr (hblock harr) (h harr)
  · refine ⟨fun _ h => absurd h harr, fun _ => ?_⟩
    obtain ⟨w', hrun, hinv⟩ := makeGeneric_no_array hw harr
    have hmissing : Missing env.rt klass args w.mem := Or.inl harr
    exact ⟨0, w', hrun,
      { missing := fun _ => ⟨rfl, hinv⟩
        invoked := Or.inl ⟨rfl, hinv⟩
        elements := fun hall => absurd hmissing hall
        frame := fun h => absurd h harr
        stopped := fun h => absurd h harr }⟩

/-- Every class has the type object 7, and every array is at 64. -/
def Runtime.generic : Runtime :=
  { Runtime.bare with
    sizeOfArray := 32
    domainGet := fun _ => 1
    domainGetAssemblies := fun _ _ => ⟨[⟨2, Nat.succ_ne_zero 1⟩], by decide⟩
    assemblyGetImage := fun _ _ => 3
    classFromName := fun _ _ _ _ => 4
    classGetMethodFromName := fun _ _ _ _ => 5
    typeGetObject := fun _ m => (7, m)
    arrayNewSpecific := fun _ _ m => (64, m) }

theorem generic_block {n : Nat} (h : n ≤ 2 ^ 32) :
    ArrayBlock Runtime.generic 64 n where
  noWrap := by
    show 64 + 32 + 8 * n ≤ 2 ^ 64
    omega
  kept := fun _ _ _ _ _ => rfl
  address := fun _ _ => by
    show 7 < 2 ^ 64
    decide

theorem generic_hasArray (klass : Ptr) (args : List Ptr) (mem : Mem) :
    HasArray Runtime.generic klass args mem :=
  ⟨Nat.succ_ne_zero 3, Nat.succ_ne_zero 4, Nat.succ_ne_zero 6, Nat.succ_ne_zero 63⟩

theorem genericLaw_two_arguments :
    GenericLaw (Env.of Runtime.generic) (Process.ready fun _ => 0) 9 [10, 11] :=
  (genericLaw_iff (ready_loaded _) fun _ => generic_block (by decide)).mpr
    fun _ => Or.inl (by decide)

theorem generic_fill (a : Ptr) (args : List Ptr) :
    ∀ (i : Nat) (mem : Mem), (0 : Ptr) ∉ (fill Runtime.generic a i args mem).1 := by
  induction args with
  | nil => intro i mem; exact List.not_mem_nil
  | cons arg args ih =>
      intro i mem h
      have hobj : (typeObject Runtime.generic arg mem).1 ≠ 0 := Nat.succ_ne_zero 6
      rw [fill_cons hobj] at h
      rcases List.mem_cons.mp h with h | h
      · exact hobj h.symm
      · exact ih _ _ h

/-- With more than 2^31 arguments the count goes past the largest `int` before
the last of them is stored. -/
theorem genericLaw_fails_overflow :
    ArrayBlock Runtime.generic 64 (2 ^ 31 + 1) ∧
      ¬ GenericLaw (Env.of Runtime.generic) (Process.ready fun _ => 0) 9
        (List.replicate (2 ^ 31 + 1) 10) := by
  have hlen : (List.replicate (2 ^ 31 + 1) (10 : Ptr)).length = 2 ^ 31 + 1 :=
    List.length_replicate
  have hblock : ArrayBlock Runtime.generic 64 (2 ^ 31 + 1) :=
    generic_block (by decide)
  refine ⟨hblock, fun h => ?_⟩
  generalize List.replicate (2 ^ 31 + 1) (10 : Ptr) = args at hlen h
  obtain ⟨ret, w', hrun, _⟩ := h
  have harr : HasArray (Env.of Runtime.generic).rt 9 args
      (Process.ready fun _ => 0).mem := generic_hasArray 9 args _
  obtain ⟨w₁, hquiet₁, _, hrun₁⟩ := makeGeneric_array (ready_loaded _) harr
  have hover : Overflows Runtime.generic 64 0 args w₁.mem :=
    ⟨by omega, generic_fill 64 _ 0 _⟩
  have hfail : Fails (fillArgs (Env.of Runtime.generic) (typeArray
      (Env.of Runtime.generic).rt 9 args (Process.ready fun _ => 0).mem).1 0 args)
      w₁ .overflow :=
    (run_fillArgs hblock hquiet₁.loaded (by decide) (by omega)).1 hover
  rw [hrun₁, Prog.run_bind_error hfail] at hrun
  cases hrun

end PistolWhipHook
