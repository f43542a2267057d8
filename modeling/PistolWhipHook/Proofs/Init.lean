import PistolWhipHook.Proofs.ApiRuns
import PistolWhipHook.Spec.Calls

/-!
# When a call finds its function pointers

Every function pointer is null until an `Init` whose `dlopen` succeeds, and
from then on none of them is. So there are two kinds of state a run can be
in, `Loaded` and `Unloaded`. In the first no program calls through a null
pointer, whatever it does: a `Hook` carries the proof. In the second a call
is safe in two ways only. Either an `Init` before its first use of the API
has a `dlopen` that succeeds, and it runs on from a loaded state; or it never
gets to the API at all.

`ExceptionToString`, the array `ParameterMatch`, `GetMethod` on a class,
`FindField` and `MakeAction` do not open with `Init`. The rest do, a few of
them twice, and then go on into the API whether or not the library was there.
-/

namespace PistolWhipHook

open ByteMem CStr

variable {env : Env} {w : Process} {α β : Type}

/-- No `dlopen` has succeeded yet. -/
structure Process.Unloaded (w : Process) : Prop where
  initialized : w.initialized = false
  pointer : ∀ f, w.pointer f = 0
  typeMap : w.typeMap = []

/-! ## What `Init` leaves -/

/-- What is true of every symbol `f` is read from is true of `f` after the
assignments, if there is one among them. -/
theorem foldl_loadOne_pointer {P : Ptr → Prop} {rows : List (Fn × String)} {f : Fn}
    (hrow : ∀ row ∈ rows, row.1 = f → P (env.dlsym row.2)) :
    ∀ {w : Process}, (∃ row ∈ rows, row.1 = f) ∨ P (w.pointer f) →
      P ((rows.foldl (loadOne env) w).pointer f) := by
  induction rows with
  | nil =>
      intro w h
      rcases h with ⟨row, hmem, _⟩ | h
      · cases hmem
      · exact h
  | cons row rows ih =>
      intro w h
      rw [List.foldl_cons]
      refine ih (fun r hr => hrow r (List.mem_cons_of_mem _ hr)) ?_
      by_cases heq : f = row.1
      · -- this row sets `f`; a later one may only set it again
        right
        show P (if f = row.1 then env.dlsym row.2 else w.pointer f)
        rw [if_pos heq]
        exact hrow row List.mem_cons_self heq.symm
      · rcases h with ⟨r, hr, hrf⟩ | h
        · rcases List.mem_cons.mp hr with rfl | hr
          · exact absurd hrf.symm heq
          · exact Or.inl ⟨r, hr, hrf⟩
        · right
          show P (if f = row.1 then env.dlsym row.2 else w.pointer f)
          rwa [if_neg heq]

theorem foldl_loadOne_typeMap {rows : List (Fn × String)} :
    ∀ {w : Process}, (rows.foldl (loadOne env) w).typeMap = w.typeMap := by
  induction rows with
  | nil => intro w; rfl
  | cons row rows ih => intro w; rw [List.foldl_cons, ih]; rfl

theorem foldl_loadOne_dlopens {rows : List (Fn × String)} :
    ∀ {w : Process}, (rows.foldl (loadOne env) w).dlopens = w.dlopens := by
  induction rows with
  | nil => intro w; rfl
  | cons row rows ih => intro w; rw [List.foldl_cons, ih]; rfl

theorem load_initialized (hd : env.dlopen w.dlopens ≠ 0) :
    (load env w).initialized = true := by
  rw [load]
  dsimp only
  rw [if_neg (show ¬ env.dlopen (w.logged _).dlopens = 0 from hd)]
  rfl

theorem load_pointer (P : Ptr → Prop) {f : Fn} (hd : env.dlopen w.dlopens ≠ 0)
    (hrow : ∀ row ∈ initTable, row.1 = f → P (env.dlsym row.2)) :
    P ((load env w).pointer f) := by
  rw [load]
  dsimp only
  rw [if_neg (show ¬ env.dlopen (w.logged _).dlopens = 0 from hd)]
  have hmem := List.mem_map.mp (initTable_complete f)
  have h := fun w => foldl_loadOne_pointer (w := w) hrow (Or.inl hmem)
  generalize initTable = rows at h ⊢
  exact h _

theorem load_loaded (hres : env.Resolves) (hd : env.dlopen w.dlopens ≠ 0) :
    (load env w).Loaded := by
  refine ⟨load_initialized hd, fun f hf => ?_⟩
  exact load_pointer (· ≠ 0) hd fun row hmem hrow => hres row hmem (hrow ▸ hf)

theorem load_typeMap : (load env w).typeMap = w.typeMap := by
  rw [load]
  dsimp only
  generalize initTable = rows
  split
  · rfl
  · exact foldl_loadOne_typeMap

theorem load_unloaded (hw : w.Unloaded) (hd : env.dlopen w.dlopens = 0) :
    (load env w).Unloaded := by
  rw [load]
  dsimp only
  rw [if_pos (show env.dlopen (w.logged _).dlopens = 0 from hd)]
  exact ⟨hw.initialized, hw.pointer, hw.typeMap⟩

theorem load_dlopens : (load env w).dlopens = w.dlopens + 1 := by
  rw [load]
  dsimp only
  generalize initTable = rows
  split
  · rfl
  · exact foldl_loadOne_dlopens

theorem load_mem (hd : env.dlopen w.dlopens = 0) : (load env w).mem = w.mem := by
  rw [load]
  dsimp only
  rw [if_pos (show env.dlopen (w.logged _).dlopens = 0 from hd)]
  rfl

/-! ## Calls that open with `Init`

Where a `dlopen` succeeds before the first use of the API, the call runs on
from the process that `Init` leaves. -/

theorem run_init_unloaded (hw : w.Unloaded) :
    (init env).run w = .ok ((), load env w) := by
  show (if w.initialized then _ else _) = _
  rw [hw.initialized, if_neg (by decide)]

theorem run_init_load (hw : w.Unloaded) (hl : (load env w).Loaded) :
    (init env).run w = (init env).run (load env w) := by
  rw [run_init_unloaded hw, run_init hl]

theorem run_bind_congr {w' : Process} {m : Hook α} {k : α → Hook β}
    (h : m.run w = m.run w') : (m >>= k).run w = (m >>= k).run w' := by
  rw [Prog.run_bind, Prog.run_bind, h]

/-- A call that does the same from a loaded process as from this one. -/
theorem sound_of_run_eq {w' : Process} {m : Hook α} (hw : w'.Loaded)
    (h : m.run w = m.run w') :
    Run.Sound Process.Loaded Fault.NoNullCall (m.exec w) := by
  rw [Prog.exec, h]
  exact Prog.sound_exec hw

theorem sound_after_init {w' : Process} {k : Unit → Hook α} (hw : w.Unloaded)
    (hw' : w'.Loaded) (h : (k ()).run (load env w) = (k ()).run w') :
    Run.Sound Process.Loaded Fault.NoNullCall ((init env >>= k).exec w) := by
  rw [Prog.exec, Prog.run_bind_ok (run_init_unloaded hw)]
  exact sound_of_run_eq hw' h

theorem inits_new_pos {klass : Ptr} {args : List Arg} :
    0 < (Op.new klass args).inits := by
  rcases args with _ | ⟨⟨kind, addr⟩, args⟩
  · exact Nat.succ_pos _
  · cases kind <;> exact Nat.succ_pos _

theorem inits_le_two {op : Op} : op.inits ≤ 2 := by
  cases op with
  | new klass args =>
      rcases args with _ | ⟨⟨kind, addr⟩, args⟩
      · exact Nat.le_succ 1
      · cases kind <;> simp [Op.inits]
  | _ => simp [Op.inits]

theorem opStep_loaded {op : Op} (hw : w.Loaded) :
    Run.Sound Process.Loaded Fault.NoNullCall (opStep env op w) := by
  cases op <;> exact Prog.sound_exec hw

/-- `TypeGetSimpleName` opens with `Init` only to fill its map, which it finds
empty as long as the API is not loaded. -/
theorem run_typeGetSimpleName_load {type : Ptr} (hw : w.Unloaded)
    (h : (init env).run w = (init env).run (load env w)) :
    (typeGetSimpleName env type).run w
      = (typeGetSimpleName env type).run (load env w) := by
  have hmap : (load env w).typeMap = [] := load_typeMap.trans hw.typeMap
  rw [typeGetSimpleName]
  rw [Prog.run_bind_ok (Prog.run_ask _ _), Prog.run_bind_ok (Prog.run_ask _ _),
    hmap, hw.typeMap]
  exact run_bind_congr (run_bind_congr (run_bind_congr (run_bind_congr h)))

theorem opStep_first {op : Op} (hres : env.Resolves) (hw : w.Unloaded)
    (hop : 0 < op.inits) (hd : env.dlopen w.dlopens ≠ 0) :
    Run.Sound Process.Loaded Fault.NoNullCall (opStep env op w) := by
  have hl := load_loaded hres hd
  have h := run_init_load hw hl
  cases op with
  | exceptionToString | parameterMatch | getMethod | findField | makeAction =>
      exact absurd hop (Nat.lt_irrefl 0)
  | getClassFromName | parameterMatchArgs | new | newUnsafe | runMethod
  | runMethodOfClass | runMethodOfObject | getFieldValue | getFieldValueOfClass
  | getFieldValueOfObject | setFieldValue | setFieldValueOfClass
  | setFieldValueOfObject | makeGenericType | makeGeneric | logMethod
  | logField | logClass | createcsstr | assertMatch | runtimeInvoke =>
      exact sound_of_run_eq hl (run_bind_congr h)
  | getMethodByClassName | runMethodVoid | runMethodOfClassVoid
  | runMethodOfObjectVoid | getFieldPointer | getFieldPointerOfClass
  | getFieldPointerOfObject =>
      exact sound_of_run_eq hl (run_bind_congr (run_bind_congr h))
  | typeGetSimpleName =>
      exact sound_of_run_eq hl (run_typeGetSimpleName_load hw h)

/-- `New` with a number for its first argument looks its class up first. -/
theorem run_argTypes_congr {w' : Process} {arg : Arg} {args : List Arg}
    (hobj : ∀ p, arg.kind ≠ .object p)
    (h : (init env).run w = (init env).run w') :
    (argTypes env (arg :: args)).run w = (argTypes env (arg :: args)).run w' := by
  have hname : ∀ name, (systemType env name).run w = (systemType env name).run w' :=
    fun name => run_bind_congr (run_bind_congr h)
  refine run_bind_congr ?_
  cases hk : arg.kind with
  | object p => exact absurd hk (hobj p)
  | int8 | uint8 | float | double | int16 | int | int64 => exact hname _

theorem opStep_second {op : Op} (hres : env.Resolves) (hw : w.Unloaded)
    (hop : 1 < op.inits) (hd : env.dlopen w.dlopens = 0)
    (hd' : env.dlopen (w.dlopens + 1) ≠ 0) :
    Run.Sound Process.Loaded Fault.NoNullCall (opStep env op w) := by
  have hl : (load env (load env w)).Loaded :=
    load_loaded hres (by rwa [load_dlopens])
  have h := run_init_load (load_unloaded hw hd) hl
  cases op with
  | makeGenericType | makeGeneric =>
      exact sound_after_init hw hl (run_bind_congr (run_bind_congr h))
  | new klass args =>
      cases args with
      | nil => exact absurd hop (Nat.lt_irrefl 1)
      | cons arg args =>
          refine sound_after_init hw hl (run_bind_congr (run_argTypes_congr ?_ h))
          intro p hp
          rcases arg with ⟨kind, addr⟩
          obtain rfl : kind = .object p := hp
          exact absurd hop (Nat.lt_irrefl 1)
  | _ => exact absurd hop (by simp [Op.inits])

/-! ## Calls that find nothing loaded

With every pointer null a program either dies on the first function it calls
or idles: it comes back, or stops on something else, without a call. -/

def Dies (m : Hook α) (w : Process) : Prop := ∃ f, m.run w = .error (.nullCall f)

def Idles (m : Hook α) (w : Process) : Prop :=
  Run.Sound Process.Unloaded Fault.NoNullCall (m.exec w)

theorem dies_bind {m : Hook α} {k : α → Hook β} (h : Dies m w) :
    Dies (m >>= k) w := by
  obtain ⟨f, hf⟩ := h
  exact ⟨f, Prog.run_bind_error hf⟩

theorem dies_act {f : Fn} {args : List Ptr} {body : Mem → α × Mem}
    (hw : w.Unloaded) (hf : f ≠ .gchandleGetTarget) :
    Dies (act f hf args body) w :=
  ⟨f, run_act_null (hw.pointer f)⟩

theorem dies_readArg {f : Fn} {buf : Str} (hw : w.Unloaded)
    (hf : f ≠ .gchandleGetTarget) :
    Dies (readArg f hf buf) w :=
  ⟨f, run_readArg_null (hw.pointer f)⟩

theorem dies_init {k : Unit → Hook α} (hw : w.Unloaded)
    (h : Dies (k ()) (load env w)) : Dies (init env >>= k) w := by
  obtain ⟨f, hf⟩ := h
  refine ⟨f, ?_⟩
  rw [Prog.run_bind_ok (run_init_unloaded hw), hf]

theorem idles_init {k : Unit → Hook α} (hw : w.Unloaded)
    (h : Idles (k ()) (load env w)) : Idles (init env >>= k) w := by
  rw [Idles, Prog.exec, Prog.run_bind_ok (run_init_unloaded hw)]
  exact h

theorem idles_log_pure {level : LogLevel} {fmt : String} {args : List LogArg}
    (hw : w.Unloaded) (a : α) :
    Idles (log level fmt args >>= fun _ => pure a) w :=
  ⟨hw.initialized, hw.pointer, hw.typeMap⟩

theorem idles_map {m : Hook α} {g : α → β} (h : Idles m w) :
    Idles (m >>= fun a => pure (g a)) w := by
  rw [Idles, Prog.exec] at h ⊢
  rw [Prog.run_bind]
  split at h <;> exact h

theorem idles_guard {p : Ptr} (hp : p = 0) {a b : Hook α} (h : Idles a w) :
    Idles (if p = 0 then a else b) w := by
  rwa [if_pos hp]

theorem dies_guard {p : Ptr} (hp : p ≠ 0) {a b : Hook α} (h : Dies b w) :
    Dies (if p = 0 then a else b) w := by
  rwa [if_neg hp]

theorem idles_parameterMatch {method : Ptr} {typeArr : List Ptr} {count : Int}
    (hw : w.Unloaded)
    (h : method = 0 ∨ NothingToCompare env method typeArr count w.mem) :
    Idles (parameterMatch env method typeArr count) w := by
  rw [Idles, Prog.exec, parameterMatch]
  by_cases hm : method = 0
  · rw [hm, Prog.run_bind_error run_deref_null]
    intro f hf
    cases hf
  · rw [Prog.run_bind_ok (run_deref hm)]
    by_cases hcount :
        ((env.rt.methodInfo method w.mem).parameterTypes.length : Int) ≠ count
    · rw [if_pos hcount]
      exact hw
    · rw [if_neg hcount]
      rcases h with h | h | h | h
      · exact absurd h hm
      · exact absurd h hcount
      · rw [h]
        exact hw
      · rw [h]
        cases (env.rt.methodInfo method w.mem).parameterTypes with
        | nil => exact hw
        | cons param params => exact fun _ hf => by cases hf

theorem dies_parameterMatch {method : Ptr} {typeArr : List Ptr} {count : Int}
    (hw : w.Unloaded)
    (h : ¬ (method = 0 ∨ NothingToCompare env method typeArr count w.mem)) :
    Dies (parameterMatch env method typeArr count) w := by
  obtain ⟨hm, h⟩ := not_or.mp h
  obtain ⟨hcount, h⟩ := not_or.mp h
  obtain ⟨htypes, harr⟩ := not_or.mp h
  obtain ⟨param, params, hp⟩ := List.exists_cons_of_ne_nil htypes
  obtain ⟨type, types, rfl⟩ := List.exists_cons_of_ne_nil harr
  rw [Dies, parameterMatch, Prog.run_bind_ok (run_deref hm), if_neg hcount, hp]
  exact dies_bind (dies_act hw (by decide))

theorem dies_getMethod {klass : Ptr} {methodName : StringView} {argsCount : Int}
    (hw : w.Unloaded) (hk : klass ≠ 0) :
    Dies (getMethod env klass methodName argsCount) w :=
  dies_guard hk (dies_bind (dies_bind (dies_readArg hw (by decide))))

theorem dies_findField {klass : Ptr} {fieldName : StringView}
    (hw : w.Unloaded) (hk : klass ≠ 0) : Dies (findField env klass fieldName) w :=
  dies_guard hk (dies_bind (dies_bind (dies_readArg hw (by decide))))

/-- `class_from_name` is not even reached: the domain comes first. -/
theorem dies_getClassFromName {nameSpace typeName : Str} (hw : w.Unloaded)
    (hd : env.dlopen w.dlopens = 0) :
    Dies (getClassFromName env nameSpace typeName) w :=
  dies_init hw (dies_bind (dies_act (load_unloaded hw hd) (by decide)))

theorem idles_assertMatch {source klass : Ptr} (hw : w.Unloaded)
    (hd : env.dlopen w.dlopens = 0)
    (h : source = 0 ∨ env.rt.objectKlass source w.mem = klass) :
    Idles (assertMatch env source klass) w := by
  refine idles_init hw ?_
  rw [Idles, Prog.exec]
  by_cases hs : source = 0
  · subst hs
    intro f hf
    cases hf
  · have hk := h.resolve_left hs
    have hm : (matchClass env source klass).run (load env w)
        = .ok (true, load env w) := by
      rw [matchClass, Prog.run_bind_ok (run_deref hs), load_mem hd, hk,
        beq_self_eq_true]
      rfl
    rw [Prog.run_bind_ok hm]
    exact load_unloaded hw hd

theorem dies_assertMatch {source klass : Ptr} (hw : w.Unloaded)
    (hd : env.dlopen w.dlopens = 0)
    (h : ¬ (source = 0 ∨ env.rt.objectKlass source w.mem = klass)) :
    Dies (assertMatch env source klass) w := by
  obtain ⟨hs, hk⟩ := not_or.mp h
  refine dies_init hw ?_
  have hm : (matchClass env source klass).run (load env w)
      = .ok (false, load env w) := by
    rw [matchClass, Prog.run_bind_ok (run_deref hs), load_mem hd,
      beq_eq_false_iff_ne.mpr hk]
    rfl
  rw [Dies, Prog.run_bind_ok hm, if_pos (by decide),
    Prog.run_bind_ok (run_deref hs)]
  exact dies_bind (dies_act (load_unloaded hw hd) (by decide))

theorem opStep_idles {op : Op} (hw : w.Unloaded)
    (hd : 0 < op.inits → env.dlopen w.dlopens = 0)
    (h : op.CallsNothing env w.mem) :
    Run.Sound Process.Unloaded Fault.NoNullCall (opStep env op w) := by
  cases op with
  | parameterMatch method typeArr count => exact idles_parameterMatch hw h
  | getMethod klass methodName argsCount => exact idles_guard h hw
  | findField klass fieldName => exact idles_guard h hw
  | parameterMatchArgs method args =>
      have hd := hd Nat.zero_lt_one
      refine idles_init hw (idles_parameterMatch (load_unloaded hw hd) ?_)
      rwa [load_mem hd]
  | assertMatch source klass => exact idles_assertMatch hw (hd Nat.zero_lt_one) h
  | runMethod | runMethodOfClass | runMethodOfObject | getFieldValue
  | getFieldValueOfClass | getFieldValueOfObject | setFieldValue
  | setFieldValueOfClass | setFieldValueOfObject =>
      have hw' := load_unloaded hw (hd Nat.zero_lt_one)
      exact idles_init hw (idles_guard h (idles_log_pure hw' _))
  | runMethodVoid | runMethodOfClassVoid | runMethodOfObjectVoid
  | getFieldPointer | getFieldPointerOfClass | getFieldPointerOfObject =>
      have hw' := load_unloaded hw (hd Nat.zero_lt_one)
      exact idles_map (idles_init hw (idles_guard h (idles_log_pure hw' _)))
  | _ => exact absurd h (by simp [Op.CallsNothing])

theorem exec_dies {m : Hook α} (h : Dies m w) :
    ∃ f, m.exec w = .error (.nullCall f) := by
  obtain ⟨f, hf⟩ := h
  exact ⟨f, Prog.exec_error hf⟩

theorem dies_runMethod {tout : OutType} {out : Str} {inst method : Ptr}
    {params : List Ptr} (hw : w.Unloaded) (hd : env.dlopen w.dlopens = 0)
    (h : method ≠ 0) : Dies (runMethod env tout out inst method params) w :=
  dies_init hw (dies_guard h
    (dies_bind (dies_act (load_unloaded hw hd) (by decide))))

theorem dies_runMethodOfClass {tout : OutType} {out : Str} {klass : Ptr}
    {methodName : StringView} {params : List Ptr} (hw : w.Unloaded)
    (hd : env.dlopen w.dlopens = 0) (h : klass ≠ 0) :
    Dies (runMethodOfClass env tout out klass methodName params) w :=
  dies_init hw
    (dies_guard h (dies_bind (dies_getMethod (load_unloaded hw hd) h)))

theorem dies_runMethodOfObject {tout : OutType} {out : Str} {inst : Ptr}
    {methodName : StringView} {params : List Ptr} (hw : w.Unloaded)
    (hd : env.dlopen w.dlopens = 0) (h : inst ≠ 0) :
    Dies (runMethodOfObject env tout out inst methodName params) w :=
  dies_init hw (dies_guard h
    (dies_bind (dies_act (load_unloaded hw hd) (by decide))))

theorem dies_getFieldValue {out : Str} {inst field : Ptr} (hw : w.Unloaded)
    (hd : env.dlopen w.dlopens = 0) (h : field ≠ 0) :
    Dies (getFieldValue env out inst field) w := by
  have hw' := load_unloaded hw hd
  refine dies_init hw (dies_guard h ?_)
  split
  · exact dies_bind (dies_act hw' (by decide))
  · exact dies_bind (dies_act hw' (by decide))

theorem dies_setFieldValue {inst field : Ptr} {value : Str} (hw : w.Unloaded)
    (hd : env.dlopen w.dlopens = 0) (h : field ≠ 0) :
    Dies (setFieldValue env inst field value) w := by
  have hw' := load_unloaded hw hd
  refine dies_init hw (dies_guard h ?_)
  split
  · exact dies_bind (dies_act hw' (by decide))
  · exact dies_bind (dies_act hw' (by decide))

theorem dies_getFieldValueOfClass {out : Str} {klass : Ptr}
    {fieldName : StringView} (hw : w.Unloaded) (hd : env.dlopen w.dlopens = 0)
    (h : klass ≠ 0) : Dies (getFieldValueOfClass env out klass fieldName) w :=
  dies_init hw
    (dies_guard h (dies_bind (dies_findField (load_unloaded hw hd) h)))

theorem dies_getFieldValueOfObject {out : Str} {inst : Ptr}
    {fieldName : StringView} (hw : w.Unloaded) (hd : env.dlopen w.dlopens = 0)
    (h : inst ≠ 0) : Dies (getFieldValueOfObject env out inst fieldName) w :=
  dies_init hw (dies_guard h
    (dies_bind (dies_act (load_unloaded hw hd) (by decide))))

theorem dies_typeGetSimpleName {type : Ptr} (hw : w.Unloaded)
    (hd : env.dlopen w.dlopens = 0) : Dies (typeGetSimpleName env type) w := by
  rw [Dies, typeGetSimpleName, Prog.run_bind_ok (Prog.run_ask _ _), hw.typeMap]
  exact dies_bind (dies_bind (dies_bind (dies_getClassFromName hw hd)))

/-- `Init` fails twice, and the domain is asked for all the same. -/
theorem dies_systemType {name : String} (hw : w.Unloaded)
    (hd : env.dlopen w.dlopens = 0) : Dies (systemType env name) w :=
  dies_bind (dies_getClassFromName hw hd)

theorem dies_new {klass : Ptr} {args : List Arg} (hw : w.Unloaded)
    (hd : env.dlopen w.dlopens = 0)
    (hd' : 1 < (Op.new klass args).inits → env.dlopen (w.dlopens + 1) = 0) :
    Dies (new env klass args) w := by
  have hw' := load_unloaded hw hd
  refine dies_init hw ?_
  rcases args with _ | ⟨⟨kind, addr⟩, args⟩
  · show Dies (objectNew env klass >>= _) _
    exact dies_bind (dies_act hw' (by decide))
  · refine dies_bind (dies_bind ?_)
    rw [show w.dlopens + 1 = (load env w).dlopens from load_dlopens.symm] at hd'
    cases kind with
    | object p => exact dies_bind (dies_act hw' (by decide))
    | int8 | uint8 | float | double | int16 | int | int64 =>
        exact dies_systemType hw' (hd' Nat.one_lt_two)

theorem opStep_dies {op : Op} (hw : w.Unloaded)
    (hd : ∀ k < op.inits, env.dlopen (w.dlopens + k) = 0)
    (h : ¬ op.CallsNothing env w.mem) :
    ∃ f, opStep env op w = .error (.nullCall f) := by
  have hd₀ : 0 < op.inits → env.dlopen w.dlopens = 0 := hd 0
  have hd₁ : 1 < op.inits → env.dlopen (load env w).dlopens = 0 := by
    rw [load_dlopens]
    exact hd 1
  have hw' : 0 < op.inits → (load env w).Unloaded :=
    fun hop => load_unloaded hw (hd₀ hop)
  cases op with
  | exceptionToString => exact exec_dies (dies_bind (dies_act hw (by decide)))
  | makeAction => exact exec_dies (dies_bind (dies_act hw (by decide)))
  | parameterMatch => exact exec_dies (dies_parameterMatch hw h)
  | getMethod => exact exec_dies (dies_getMethod hw h)
  | findField => exact exec_dies (dies_findField hw h)
  | new => exact exec_dies (dies_new hw (hd₀ inits_new_pos) (hd 1))
  | makeGenericType | makeGeneric =>
      have hw' := hw' Nat.two_pos
      have hd₁ := hd₁ Nat.one_lt_two
      exact exec_dies (dies_init hw (dies_bind (dies_getClassFromName hw' hd₁)))
  | getClassFromName =>
      exact exec_dies (dies_getClassFromName hw (hd₀ Nat.one_pos))
  | getMethodByClassName =>
      exact exec_dies (dies_bind (dies_getClassFromName hw (hd₀ Nat.one_pos)))
  | parameterMatchArgs =>
      refine exec_dies (dies_init hw (dies_parameterMatch (hw' Nat.one_pos) ?_))
      rwa [load_mem (hd₀ Nat.one_pos)]
  | assertMatch => exact exec_dies (dies_assertMatch hw (hd₀ Nat.one_pos) h)
  | runMethod => exact exec_dies (dies_runMethod hw (hd₀ Nat.one_pos) h)
  | runMethodVoid =>
      exact exec_dies (dies_bind (dies_runMethod hw (hd₀ Nat.one_pos) h))
  | runMethodOfClass =>
      exact exec_dies (dies_runMethodOfClass hw (hd₀ Nat.one_pos) h)
  | runMethodOfClassVoid =>
      exact exec_dies (dies_bind (dies_runMethodOfClass hw (hd₀ Nat.one_pos) h))
  | runMethodOfObject =>
      exact exec_dies (dies_runMethodOfObject hw (hd₀ Nat.one_pos) h)
  | runMethodOfObjectVoid =>
      exact exec_dies (dies_bind (dies_runMethodOfObject hw (hd₀ Nat.one_pos) h))
  | getFieldValue => exact exec_dies (dies_getFieldValue hw (hd₀ Nat.one_pos) h)
  | getFieldPointer =>
      exact exec_dies (dies_bind (dies_getFieldValue hw (hd₀ Nat.one_pos) h))
  | getFieldValueOfClass =>
      exact exec_dies (dies_getFieldValueOfClass hw (hd₀ Nat.one_pos) h)
  | getFieldPointerOfClass =>
      exact exec_dies
        (dies_bind (dies_getFieldValueOfClass hw (hd₀ Nat.one_pos) h))
  | getFieldValueOfObject =>
      exact exec_dies (dies_getFieldValueOfObject hw (hd₀ Nat.one_pos) h)
  | getFieldPointerOfObject =>
      exact exec_dies
        (dies_bind (dies_getFieldValueOfObject hw (hd₀ Nat.one_pos) h))
  | setFieldValue => exact exec_dies (dies_setFieldValue hw (hd₀ Nat.one_pos) h)
  | setFieldValueOfClass =>
      exact exec_dies (dies_init hw
        (dies_guard h (dies_bind (dies_findField (hw' Nat.one_pos) h))))
  | setFieldValueOfObject =>
      exact exec_dies (dies_init hw
        (dies_guard h (dies_bind (dies_act (hw' Nat.one_pos) (by decide)))))
  | typeGetSimpleName =>
      exact exec_dies (dies_typeGetSimpleName hw (hd₀ Nat.one_pos))
  | newUnsafe | logMethod | logField | logClass =>
      exact exec_dies (dies_init hw
        (dies_bind (dies_act (hw' Nat.one_pos) (by decide))))
  | createcsstr | runtimeInvoke =>
      exact exec_dies (dies_init hw (dies_act (hw' Nat.one_pos) (by decide)))

/-! ## Runs -/

/-- Between two calls the API is loaded or nothing is. -/
def Process.Settled (w : Process) : Prop := w.Loaded ∨ w.Unloaded

theorem start_settled (mem : Mem) : (Process.start mem).Settled :=
  Or.inr ⟨rfl, fun _ => rfl, rfl⟩

theorem sound_settled {r : Except Fault Process} {P : Process → Prop}
    (hP : ∀ {w}, P w → w.Settled) (h : Run.Sound P Fault.NoNullCall r) :
    Run.Sound Process.Settled Fault.NoNullCall r := by
  cases r with
  | ok w => exact hP h
  | error e => exact h

theorem opStep_ready {op : Op} (hres : env.Resolves) (hw : w.Settled)
    (h : op.Ready env w) :
    Run.Sound Process.Settled Fault.NoNullCall (opStep env op w) := by
  rcases hw with hw | hw
  · exact sound_settled Or.inl (opStep_loaded hw)
  · by_cases hd : 0 < op.inits ∧ env.dlopen w.dlopens ≠ 0
    · exact sound_settled Or.inl (opStep_first hres hw hd.1 hd.2)
    · have hd₀ : 0 < op.inits → env.dlopen w.dlopens = 0 :=
        fun hop => not_not.mp (not_and.mp hd hop)
      rcases h with h | ⟨k, hk, hdk⟩ | h
      · exact absurd (hw.initialized.symm.trans h) Bool.false_ne_true
      · have hk' : k < 2 := Nat.lt_of_lt_of_le hk inits_le_two
        obtain rfl : k = 1 := by
          rcases k with _ | k
          · exact absurd (hd₀ hk) hdk
          · omega
        exact sound_settled Or.inl
          (opStep_second hres hw hk (hd₀ (Nat.lt_of_succ_lt hk)) hdk)
      · exact sound_settled Or.inr (opStep_idles hw hd₀ h)

theorem opStep_not_ready {op : Op} (hw : w.Settled) (h : ¬ op.Ready env w) :
    ∃ f, opStep env op w = .error (.nullCall f) := by
  obtain ⟨hinit, h⟩ := not_or.mp h
  obtain ⟨hd, hcalls⟩ := not_or.mp h
  rcases hw with hw | hw
  · exact absurd hw.1 hinit
  · refine opStep_dies hw (fun k hk => ?_) hcalls
    exact not_not.mp fun hne => hd ⟨k, hk, hne⟩

theorem opStep_settled {op : Op} {w' : Process} (hres : env.Resolves)
    (hw : w.Settled) (h : opStep env op w = .ok w') : w'.Settled := by
  by_cases hr : op.Ready env w
  · have hs := opStep_ready hres hw hr
    rwa [h] at hs
  · obtain ⟨f, hf⟩ := opStep_not_ready hw hr
    rw [hf] at h
    cases h

theorem opStep_ready_iff {op : Op} (hres : env.Resolves) (hw : w.Settled) :
    (∀ e, opStep env op w = .error e → e.NoNullCall) ↔ op.Ready env w := by
  refine ⟨?_, ?_⟩
  · intro h
    by_contra hr
    obtain ⟨f, hf⟩ := opStep_not_ready hw hr
    exact h _ hf f rfl
  · intro hr e he
    have hs := opStep_ready hres hw hr
    rwa [he] at hs

/-- Over every sequence of calls, and whatever each `dlopen` gives, no call
goes through a null function pointer exactly when every call made is ready
where it is made. -/
theorem no_null_call_iff (hres : env.Resolves) (ops : List Op) (mem : Mem) :
    CallsNoNull env ops mem ↔
      Run.Meets (opStep env) (Op.Ready env) ops (Process.start mem) :=
  Run.faults_iff_meets (fun _ _ _ hw h => opStep_settled hres hw h)
    (fun _ _ hw => opStep_ready_iff hres hw) (start_settled mem)

theorem bare_resolves : (Env.of Runtime.bare).Resolves :=
  fun _ _ _ => Nat.one_ne_zero

/-- A string first, an exception's text after it. -/
theorem no_null_call_string_first :
    CallsNoNull (Env.of Runtime.bare)
      [.createcsstr (StringView.whole (lit "ab")), .exceptionToString 1]
      (fun _ => 0) := by
  refine (no_null_call_iff bare_resolves _ _).mpr ⟨?_, fun w h => ?_⟩
  · exact Or.inr (Or.inl ⟨0, Nat.one_pos, Nat.one_ne_zero⟩)
  · have hl : Run.Sound Process.Loaded Fault.NoNullCall (opStep _
        (.createcsstr (StringView.whole (lit "ab"))) (Process.start fun _ => 0)) :=
      opStep_first bare_resolves ⟨rfl, fun _ => rfl, rfl⟩ Nat.one_pos
        Nat.one_ne_zero
    rw [h] at hl
    exact ⟨Or.inl hl.1, fun _ _ => True.intro⟩

/-- The exception's text first; or anything at all where the library is not
there yet. -/
theorem null_call_exception_first :
    (Env.of Runtime.bare).Resolves ∧
      ¬ CallsNoNull (Env.of Runtime.bare) [.exceptionToString 1] (fun _ => 0) ∧
      ¬ CallsNoNull { Env.of Runtime.bare with dlopen := fun _ => 0 }
        [.createcsstr (StringView.whole (lit "ab"))] (fun _ => 0) := by
  refine ⟨bare_resolves, fun h => ?_, fun h => ?_⟩
  · exact h (.nullCall .formatException) rfl _ rfl
  · exact h (.nullCall .stringNewLen) rfl _ rfl

end PistolWhipHook
