import PistolWhipHook.Proofs.ApiRuns
import PistolWhipHook.Spec.Answers

/-!
# What the lookups answer

`GetClassFromName`, `GetMethod` and `FindField` read and log but change no
memory, so what each of them answers is a function of the runtime and the
memory it is run in. Those functions are stated here, and each lookup is
shown to answer with its own. A name is read up to its first NUL where the
lookup gets to it; there a name without one is the end of the run.
-/

namespace PistolWhipHook

open ByteMem CStr

variable {env : Env} {w : Process} {α β : Type} {m : Hook α} {k : α → Hook β}
  {a : α} {b : β} {e : Fault}

theorem Process.Onward.refl (w : Process) : w.Onward w := ⟨id, rfl, rfl⟩

theorem Process.Onward.trans {w₁ w₂ w₃ : Process} (h : w₁.Onward w₂)
    (h' : w₂.Onward w₃) : w₁.Onward w₃ :=
  ⟨fun hw => h'.loaded (h.loaded hw), h'.mem.trans h.mem,
    h'.invocations.trans h.invocations⟩

theorem Process.onward_called {fn : Fn} {args : List Ptr}
    (hfn : fn ≠ .runtimeInvoke) : w.Onward (w.called fn args) := by
  refine ⟨id, rfl, ?_⟩
  show (w.calls ++ [(⟨fn, args⟩ : ApiCall)]).filter _ = w.calls.filter _
  rw [List.filter_append, List.filter_singleton, beq_eq_false_iff_ne.mpr hfn,
    cond_false, List.append_nil]

theorem Answers.then (hm : Answers m w a)
    (hk : ∀ w', w.Onward w' → Answers (k a) w' b) : Answers (m >>= k) w b :=
  Prog.Answers.bind Process.Onward.trans hm hk

theorem Answers.then_or (hm : Answers m w a)
    (hk : ∀ w', w.Onward w' → Fails (k a) w' e ∨ Answers (k a) w' b) :
    Fails (m >>= k) w e ∨ Answers (m >>= k) w b := by
  obtain ⟨w', hrun, hon⟩ := hm
  rcases hk w' hon with hf | ⟨w'', hrun', hon'⟩
  · exact Or.inl ((Prog.run_bind_ok hrun).trans hf)
  · exact Or.inr ⟨w'', (Prog.run_bind_ok hrun).trans hrun', hon.trans hon'⟩

theorem answers_pure : Answers (pure a) w a := Prog.answers_pure (.refl w)

/-! ## Primitives -/

theorem run_poke {f : Mem → Mem} :
    (poke f).run w = .ok ((), w.withMem (f w.mem)) := rfl

theorem answers_log {level : LogLevel} {fmt : String} {args : List LogArg} :
    Answers (log level fmt args) w () := ⟨_, rfl, id, rfl, rfl⟩

theorem answers_deref {t : Pointee} {p : Ptr} {get : Ptr → Mem → α}
    (hp : p ≠ 0) : Answers (deref t p get) w (get p w.mem) :=
  ⟨w, run_deref hp, .refl w⟩

theorem answers_init (hw : w.Loaded) : Answers (init env) w () :=
  ⟨w, run_init hw, .refl w⟩

theorem answers_query {f : Fn} {args : List Ptr} {body : Mem → α}
    (hw : w.Loaded) (hf : f ≠ .gchandleGetTarget ∧ f ≠ .runtimeInvoke) :
    Answers (query f hf.1 args body) w (body w.mem) :=
  ⟨_, run_query hw, Process.onward_called hf.2⟩

theorem answers_readText {buf s : Str} (h : cString? buf = some s) :
    Answers (readText buf) w s := ⟨w, run_readText h, .refl w⟩

theorem answers_readArg {f : Fn} {buf s : Str} (hw : w.Loaded)
    (h : cString? buf = some s) (hf : f ≠ .gchandleGetTarget) :
    Answers (readArg f hf buf) w s :=
  ⟨w, (run_readArg hw).trans (run_readText h), .refl w⟩

theorem fails_readText {buf : Str} (h : cString? buf = none) :
    Fails (readText buf) w .overread := run_readText_unterminated h

theorem fails_readArg {f : Fn} {buf : Str} (hw : w.Loaded)
    (h : cString? buf = none) (hf : f ≠ .gchandleGetTarget) :
    Fails (readArg f hf buf) w .overread :=
  (run_readArg hw).trans (run_readText_unterminated h)

theorem answers_classFromName {img : Ptr} {nameSpace name ns n : Str}
    (hw : w.Loaded) (hns : cString? nameSpace = some ns)
    (hn : cString? name = some n) :
    Answers (classFromName env img nameSpace name) w
      (env.rt.classFromName img ns n w.mem) := by
  refine (answers_readArg hw hns (by decide)).then fun w₁ h₁ => ?_
  refine (answers_readArg (h₁.loaded hw) hn (by decide)).then fun w₂ h₂ => ?_
  rw [← h₁.mem, ← h₂.mem]
  exact answers_query (h₂.loaded (h₁.loaded hw)) (by decide)

theorem answers_classGetMethodFromName {klass : Ptr} {name n : Str}
    {argsCount : Int} (hw : w.Loaded) (hn : cString? name = some n) :
    Answers (classGetMethodFromName env klass name argsCount) w
      (env.rt.classGetMethodFromName klass n argsCount w.mem) := by
  refine (answers_readArg hw hn (by decide)).then fun w₁ h₁ => ?_
  rw [← h₁.mem]
  exact answers_query (h₁.loaded hw) (by decide)

theorem answers_classGetFieldFromName {klass : Ptr} {name n : Str}
    (hw : w.Loaded) (hn : cString? name = some n) :
    Answers (classGetFieldFromName env klass name) w
      (env.rt.classGetFieldFromName klass n w.mem) := by
  refine (answers_readArg hw hn (by decide)).then fun w₁ h₁ => ?_
  rw [← h₁.mem]
  exact answers_query (h₁.loaded hw) (by decide)

theorem answers_exceptionToString {exp : Ptr} (hw : w.Loaded) :
    Answers (exceptionToString env exp) w
      (untilNul (env.rt.formatException exp exceptionMessageSize w.mem)) :=
  (answers_query hw (by decide)).then fun _ _ => answers_pure

/-! ## Classes -/

theorem answers_searchAssemblies {nameSpace typeName ns tn : Str}
    (hns : cString? nameSpace = some ns) (htn : cString? typeName = some tn)
    {allAssemb : List Obj} :
    ∀ {w : Process}, w.Loaded →
      Answers (searchAssemblies env nameSpace typeName allAssemb) w
        (classAmong env.rt w.mem ns tn allAssemb) := by
  induction allAssemb with
  | nil => intro w _; exact answers_pure
  | cons assemb allAssemb ih =>
      intro w hw
      rw [searchAssemblies, classAmong]
      refine (answers_query hw (by decide)).then fun w₁ h₁ => ?_
      dsimp only
      split
      · refine (answers_deref assemb.2).then fun w₂ h₂ => ?_
        refine answers_log.then fun w₃ h₃ => ?_
        rw [← h₁.mem, ← h₂.mem, ← h₃.mem]
        exact ih (h₃.loaded (h₂.loaded (h₁.loaded hw)))
      · refine (answers_classFromName (h₁.loaded hw) hns htn).then fun w₂ h₂ => ?_
        rw [h₁.mem]
        split
        · exact answers_pure
        · rw [← h₁.mem, ← h₂.mem]
          exact ih (h₂.loaded (h₁.loaded hw))

theorem answers_getClassFromName {nameSpace typeName ns tn : Str}
    (hw : w.Loaded) (hns : cString? nameSpace = some ns)
    (htn : cString? typeName = some tn) :
    Answers (getClassFromName env nameSpace typeName) w
      (classNamed env.rt w.mem ns tn) := by
  rw [getClassFromName, classNamed]
  refine (answers_init hw).then fun w₁ h₁ => ?_
  have hw₁ := h₁.loaded hw
  refine (answers_query hw₁ (by decide)).then fun w₂ h₂ => ?_
  have hw₂ := h₂.loaded hw₁
  rw [h₁.mem]
  split
  · exact answers_log.then fun _ _ => answers_pure
  · refine (answers_query hw₂ (by decide)).then fun w₃ h₃ => ?_
    have hw₃ := h₃.loaded hw₂
    refine (answers_searchAssemblies hns htn hw₃).then fun w₄ h₄ => ?_
    rw [h₃.mem, h₂.mem, h₁.mem]
    split
    · exact answers_pure
    · next hk =>
        rw [not_not.mp hk]
        refine (answers_readText hns).then fun _ _ => ?_
        refine (answers_readText htn).then fun _ _ => ?_
        exact answers_log.then fun _ _ => answers_pure

/-- Without a domain no name is read. -/
theorem answers_getClassFromName_no_domain {nameSpace typeName : Str}
    (hw : w.Loaded) (hdom : env.rt.domainGet w.mem = 0) :
    Answers (getClassFromName env nameSpace typeName) w 0 := by
  refine (answers_init hw).then fun w₁ h₁ => ?_
  refine (answers_query (h₁.loaded hw) (by decide)).then fun w₂ h₂ => ?_
  rw [h₁.mem, if_pos hdom]
  exact answers_log.then fun _ _ => answers_pure

theorem fails_classFromName {img : Ptr} {nameSpace name : Str} (hw : w.Loaded)
    (h : cString? nameSpace = none ∨ cString? name = none) :
    Fails (classFromName env img nameSpace name) w .overread := by
  cases hns : cString? nameSpace with
  | none => exact (fails_readArg hw hns (by decide)).bind
  | some ns =>
      have hn := h.resolve_left (by rw [hns]; exact Option.some_ne_none ns)
      refine (answers_readArg hw hns (by decide)).fails fun w₁ h₁ => ?_
      exact (fails_readArg (h₁.loaded hw) hn (by decide)).bind

/-- With a name that has no NUL the search stops at the first image, if there
is one. -/
theorem searchAssemblies_unterminated {nameSpace typeName : Str}
    (h : cString? nameSpace = none ∨ cString? typeName = none)
    {allAssemb : List Obj} :
    ∀ {w : Process}, w.Loaded →
      Fails (searchAssemblies env nameSpace typeName allAssemb) w .overread ∨
        Answers (searchAssemblies env nameSpace typeName allAssemb) w 0 := by
  induction allAssemb with
  | nil => intro w _; exact Or.inr answers_pure
  | cons assemb allAssemb ih =>
      intro w hw
      rw [searchAssemblies]
      refine (answers_query hw (by decide)).then_or fun w₁ h₁ => ?_
      split
      · refine (answers_deref assemb.2).then_or fun w₂ h₂ => ?_
        refine answers_log.then_or fun w₃ h₃ => ?_
        exact ih (h₃.loaded (h₂.loaded (h₁.loaded hw)))
      · exact Or.inl (fails_classFromName (h₁.loaded hw) h).bind

theorem fails_getClassFromName {nameSpace typeName : Str} (hw : w.Loaded)
    (hdom : env.rt.domainGet w.mem ≠ 0)
    (h : cString? nameSpace = none ∨ cString? typeName = none) :
    Fails (getClassFromName env nameSpace typeName) w .overread := by
  refine (answers_init hw).fails fun w₁ h₁ => ?_
  have hw₁ := h₁.loaded hw
  refine (answers_query hw₁ (by decide)).fails fun w₂ h₂ => ?_
  have hw₂ := h₂.loaded hw₁
  rw [h₁.mem, if_neg hdom]
  refine (answers_query hw₂ (by decide)).fails fun w₃ h₃ => ?_
  rcases searchAssemblies_unterminated h (h₃.loaded hw₂) with hf | ha
  · exact hf.bind
  · refine ha.fails fun w₄ h₄ => ?_
    cases hns : cString? nameSpace with
    | none => exact (fails_readText hns).bind
    | some ns =>
        have hn := h.resolve_left (by rw [hns]; exact Option.some_ne_none ns)
        refine (answers_readText hns).fails fun w₅ h₅ => ?_
        exact (fails_readText hn).bind

/-! ## Members -/

theorem answers_getMethod_null {methodName : StringView} {argsCount : Int} :
    Answers (getMethod env 0 methodName argsCount) w 0 := answers_pure

theorem answers_getMethod (env : Env) {klass : Ptr} {methodName : StringView}
    {n : Str} {argsCount : Int} (hw : w.Loaded) (hk : klass ≠ 0)
    (hn : cString? methodName.data = some n) :
    Answers (getMethod env klass methodName argsCount) w
      (env.rt.classGetMethodFromName klass n argsCount w.mem) := by
  rw [getMethod, if_neg hk]
  refine (answers_classGetMethodFromName hw hn).then fun w₁ h₁ => ?_
  have hw₁ := h₁.loaded hw
  split
  · next hm =>
      rw [hm]
      refine (answers_readText hn).then fun w₂ h₂ => ?_
      have hw₂ := h₂.loaded hw₁
      refine (answers_query hw₂ (by decide)).then fun w₃ h₃ => ?_
      refine (answers_query (h₃.loaded hw₂) (by decide)).then fun _ _ => ?_
      exact answers_log.then fun _ _ => answers_pure
  · exact answers_pure

theorem fails_getMethod {klass : Ptr} {methodName : StringView}
    {argsCount : Int} (hw : w.Loaded) (hk : klass ≠ 0)
    (hn : cString? methodName.data = none) :
    Fails (getMethod env klass methodName argsCount) w .overread := by
  rw [getMethod, if_neg hk]
  exact ((fails_readArg hw hn (by decide)).bind).bind

theorem answers_findField (env : Env) {klass : Ptr} {fieldName : StringView}
    {n : Str} (hw : w.Loaded) (hk : klass ≠ 0)
    (hn : cString? fieldName.data = some n) :
    Answers (findField env klass fieldName) w
      (env.rt.classGetFieldFromName klass n w.mem) := by
  rw [findField, if_neg hk]
  refine (answers_classGetFieldFromName hw hn).then fun w₁ h₁ => ?_
  have hw₁ := h₁.loaded hw
  split
  · refine (answers_readText hn).then fun w₂ h₂ => ?_
    have hw₂ := h₂.loaded hw₁
    refine (answers_query hw₂ (by decide)).then fun w₃ h₃ => ?_
    refine (answers_query (h₃.loaded hw₂) (by decide)).then fun _ _ => ?_
    exact answers_log.then fun _ _ => answers_pure
  · exact answers_pure

theorem fails_findField {klass : Ptr} {fieldName : StringView} (hw : w.Loaded)
    (hk : klass ≠ 0) (hn : cString? fieldName.data = none) :
    Fails (findField env klass fieldName) w .overread := by
  rw [findField, if_neg hk]
  exact ((fails_readArg hw hn (by decide)).bind).bind

/-! ## Fields -/

theorem run_getFieldValue (env : Env) (inst : Ptr) {field : Ptr} (hw : w.Loaded)
    (hf : field ≠ 0) :
    ∃ w', ∀ out, (getFieldValue env out inst field).run w =
      (storeOut out (fieldBytes env.rt inst field w.mem) >>= fun out =>
        (pure (true, out) : Hook (Bool × Str))).run w' := by
  by_cases hi : inst ≠ 0
  · refine ⟨w.called .fieldGetValue [inst, field], fun out => ?_⟩
    rw [getFieldValue, Prog.run_bind_ok (run_init hw), if_neg hf, if_pos hi,
      Prog.run_bind_ok (run_fieldGetValue hw), fieldBytes, if_pos hi]
  · refine ⟨w.called .fieldStaticGetValue [field], fun out => ?_⟩
    rw [getFieldValue, Prog.run_bind_ok (run_init hw), if_neg hf, if_neg hi,
      Prog.run_bind_ok (run_fieldStaticGetValue hw), fieldBytes, if_neg hi]

/-! ## By name

The overloads that take a name all have one shape: a null receiver is turned
away, the member is looked up, and what was found is handed on. -/

section

variable {bad bad' failed : Hook α} {onMember : Ptr → Hook α} {p : Ptr}
  {w₁ : Process}

theorem run_named_ofClass {klass : Ptr} {lookup : Hook Ptr} (hw : w.Loaded)
    (hk : klass ≠ 0) (hrun : lookup.run w = .ok (p, w₁)) :
    (init env >>= fun _ =>
        if klass = 0 then bad
        else lookup >>= fun p => if p = 0 then failed else onMember p).run w
      = (if p = 0 then failed else onMember p).run w₁ := by
  rw [Prog.run_bind_ok (run_init hw), if_neg hk, Prog.run_bind_ok hrun]

theorem run_named_ofObject {inst klass : Ptr} {lookup : Ptr → Hook Ptr}
    (hw : w.Loaded) (hinst : inst ≠ 0)
    (hklass : env.rt.objectGetClass inst w.mem = klass) (hk : klass ≠ 0)
    (hrun : (lookup klass).run (w.called .objectGetClass [inst]) = .ok (p, w₁)) :
    (init env >>= fun _ =>
        if inst = 0 then bad
        else objectGetClass env inst >>= fun klass =>
          if klass = 0 then bad'
          else lookup klass >>= fun p =>
            if p = 0 then failed else onMember p).run w
      = (if p = 0 then failed else onMember p).run w₁ := by
  rw [Prog.run_bind_ok (run_init hw), if_neg hinst,
    Prog.run_bind_ok (run_objectGetClass hw), hklass, if_neg hk,
    Prog.run_bind_ok hrun]

end

end PistolWhipHook
