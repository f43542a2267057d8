import PistolWhipHook.Proofs.Lookups
import PistolWhipHook.Spec.Names

/-!
# Members by name

A `std::string_view` goes into the API as `data()`, and the API reads on to
the first NUL. So what is looked up is the C string in the buffer, and it is
the view's characters only if the view stops where the C string does.

With lookups exact on the strings they read, `GetMethod` and `FindField` find
the member the view names exactly when the C string is the view, or when
neither string names a member of the class; and what `RunMethod`,
`GetFieldValue` and `SetFieldValue` do by name they do to what these two found.
-/

namespace PistolWhipHook

open ByteMem CStr

variable {env : Env} {w : Process} {α : Type}

theorem finds_iff {entries : List (Str × Obj)} {name chars : Str} {p : Ptr}
    (hname : ∀ {a b o}, (a, o) ∈ entries → (b, o) ∈ entries → a = b)
    (h : Finds entries name p) :
    Finds entries chars p ↔
      name = chars ∨
        ((∀ o, (name, o) ∉ entries) ∧ ∀ o, (chars, o) ∉ entries) := by
  refine ⟨?_, ?_⟩
  · intro h
    rcases h with ⟨o', hmem', rfl⟩ | ⟨hnone', rfl⟩
    · rcases h with ⟨o, hmem, heq⟩ | ⟨_, h0⟩
      · obtain rfl := Subtype.ext heq
        exact Or.inl (hname hmem hmem')
      · exact absurd h0 o'.2
    · rcases h with ⟨o, _, h0⟩ | ⟨hnone, _⟩
      · exact absurd h0.symm o.2
      · exact Or.inr ⟨hnone, hnone'⟩
  · intro h
    rcases h with rfl | ⟨hnone, hnone'⟩
    · exact h
    · rcases h with ⟨o, hmem, _⟩ | ⟨_, h0⟩
      · exact absurd hmem (hnone o)
      · exact Or.inr ⟨hnone', h0⟩

section

variable {md : Metadata} {klass : Ptr} {v : StringView} {argsCount : Int}

/-- A lookup that answers with what the C string finds, and reads past the end
of a buffer that holds none. -/
theorem lookup_iff {entries : List (Str × Obj)} {lookup : Hook Ptr}
    {find : Str → Ptr}
    (hname : ∀ {a b o}, (a, o) ∈ entries → (b, o) ∈ entries → a = b)
    (hfind : ∀ name, Finds entries name (find name))
    (hsome : ∀ name, cString? v.data = some name → Answers lookup w (find name))
    (hnone : cString? v.data = none → Fails lookup w .overread) :
    (∃ p, Answers lookup w p ∧ Finds entries v.chars p) ↔ ReadsRight entries v := by
  refine ⟨?_, ?_⟩
  · intro h
    obtain ⟨p, ⟨w', hrun, _⟩, hp⟩ := h
    cases hn : cString? v.data with
    | none =>
        rw [hnone hn] at hrun
        cases hrun
    | some name =>
        obtain ⟨w'', hrun', _⟩ := hsome name hn
        rw [hrun'] at hrun
        cases hrun
        exact ⟨name, hn, (finds_iff hname (hfind name)).mp hp⟩
  · intro h
    obtain ⟨name, hn, h⟩ := h
    exact ⟨_, hsome name hn, (finds_iff hname (hfind name)).mpr h⟩

theorem getMethod_iff (hr : env.rt.Reflects md) (hw : w.Loaded) (hk : klass ≠ 0) :
    (∃ p, Answers (getMethod env klass v argsCount) w p ∧
        Finds (md.methods klass argsCount) v.chars p) ↔
      ReadsRight (md.methods klass argsCount) v :=
  lookup_iff md.method_name (fun name => hr.method klass name argsCount w.mem)
    (fun _ hn => answers_getMethod env hw hk hn) (fails_getMethod hw hk)

theorem findField_iff (hr : env.rt.Reflects md) (hw : w.Loaded) (hk : klass ≠ 0) :
    (∃ p, Answers (findField env klass v) w p ∧
        Finds (md.fields klass) v.chars p) ↔
      ReadsRight (md.fields klass) v :=
  lookup_iff md.field_name (fun name => hr.field klass name w.mem)
    (fun _ hn => answers_findField env hw hk hn) (fails_findField hw hk)

theorem actsOnNamed_ofClass {entries : List (Str × Obj)} {name : Str}
    {lookup : Hook Ptr} {bad : Hook α} {failed : α} {onMember : Ptr → Hook α}
    (hw : w.Loaded) (hk : klass ≠ 0)
    (h : ∃ p, Answers lookup w p ∧ Finds entries name p) :
    ActsOnNamed entries name
      (init env >>= fun _ => if klass = 0 then bad else
        lookup >>= fun p => if p = 0 then pure failed else onMember p)
      failed onMember w := by
  obtain ⟨p, ⟨w₁, hrun, hon⟩, hp⟩ := h
  exact ⟨p, w₁, hon, hp, run_named_ofClass hw hk hrun⟩

theorem actsOnNamed_ofObject {entries : List (Str × Obj)} {name : Str}
    {lookup : Ptr → Hook Ptr} {inst : Ptr} {bad bad' : Hook α} {failed : α}
    {onMember : Ptr → Hook α} (hw : w.Loaded) (hk : klass ≠ 0) (hinst : inst ≠ 0)
    (hklass : env.rt.objectGetClass inst w.mem = klass)
    (h : ∀ {w : Process}, w.Loaded →
      ∃ p, Answers (lookup klass) w p ∧ Finds entries name p) :
    ActsOnNamed entries name
      (init env >>= fun _ => if inst = 0 then bad else
        objectGetClass env inst >>= fun klass => if klass = 0 then bad' else
          lookup klass >>= fun p => if p = 0 then pure failed else onMember p)
      failed onMember w := by
  have hcalled : w.Onward (w.called .objectGetClass [inst]) :=
    Process.onward_called (by decide)
  obtain ⟨p, ⟨w₁, hrun, hon⟩, hp⟩ := h (hcalled.loaded hw)
  exact ⟨p, w₁, hcalled.trans hon, hp,
    run_named_ofObject hw hinst hklass hk hrun⟩

theorem byName_of_readsRight (hr : env.rt.Reflects md) (hw : w.Loaded)
    (hk : klass ≠ 0) (hm : ReadsRight (md.methods klass argsCount) v)
    (hf : ReadsRight (md.fields klass) v) :
    ByName env md w klass v argsCount where
  getMethod := (getMethod_iff hr hw hk).mpr hm
  findField := (findField_iff hr hw hk).mpr hf
  runMethodOfClass := by
    intro tout out params hlen
    subst hlen
    exact actsOnNamed_ofClass hw hk ((getMethod_iff hr hw hk).mpr hm)
  runMethodOfObject := by
    intro tout out inst params hlen hinst hklass
    subst hlen
    exact actsOnNamed_ofObject hw hk hinst hklass
      fun hw => (getMethod_iff hr hw hk).mpr hm
  getFieldValueOfClass := by
    intro out
    exact actsOnNamed_ofClass hw hk ((findField_iff hr hw hk).mpr hf)
  getFieldValueOfObject := by
    intro out inst hinst hklass
    exact actsOnNamed_ofObject hw hk hinst hklass
      fun hw => (findField_iff hr hw hk).mpr hf
  setFieldValueOfClass := by
    intro value
    exact actsOnNamed_ofClass hw hk ((findField_iff hr hw hk).mpr hf)
  setFieldValueOfObject := by
    intro inst value hinst hklass
    exact actsOnNamed_ofObject hw hk hinst hklass
      fun hw => (findField_iff hr hw hk).mpr hf

/-! ## Classes by name as well -/

/-- What the three C strings lead to, of those that are read: without a domain
none is, and without a class the method's name is not. -/
inductive LeadTo (env : Env) (mem : Mem) (nameSpace className v : StringView)
    (argsCount : Int) : Ptr → Prop where
  | noDomain (h : env.rt.domainGet mem = 0) :
      LeadTo env mem nameSpace className v argsCount 0
  | noClass {ns cn : Str} (h : env.rt.domainGet mem ≠ 0)
      (hns : cString? nameSpace.data = some ns)
      (hcn : cString? className.data = some cn)
      (hk : classNamed env.rt mem ns cn = 0) :
      LeadTo env mem nameSpace className v argsCount 0
  | method {ns cn n : Str} (h : env.rt.domainGet mem ≠ 0)
      (hns : cString? nameSpace.data = some ns)
      (hcn : cString? className.data = some cn)
      (hk : classNamed env.rt mem ns cn ≠ 0)
      (hn : cString? v.data = some n) :
      LeadTo env mem nameSpace className v argsCount
        (env.rt.classGetMethodFromName (classNamed env.rt mem ns cn) n
          argsCount mem)

theorem findsIn_null_iff {name : Str} :
    FindsIn md klass argsCount name 0 ↔ Lacks md klass argsCount name := by
  rw [FindsIn, Lacks]
  split
  · next hk => exact ⟨fun _ => Or.inl hk, fun _ => rfl⟩
  · next hk =>
      rw [or_iff_right hk]
      refine ⟨?_, ?_⟩
      · intro h
        rcases h with ⟨o, _, h0⟩ | ⟨hnone, _⟩
        · exact absurd h0.symm o.2
        · exact hnone
      · intro hnone
        exact Or.inr ⟨hnone, rfl⟩

theorem findsIn_iff {name : Str} {p : Ptr} :
    FindsIn md klass argsCount name p ↔
      (p = 0 ∧ Lacks md klass argsCount name) ∨
        (klass ≠ 0 ∧ ∃ o, (name, o) ∈ md.methods klass argsCount ∧ p = o.1) := by
  rw [FindsIn, Lacks]
  split
  · next hk =>
      refine ⟨fun h => Or.inl ⟨h, Or.inl hk⟩, ?_⟩
      intro h
      rcases h with ⟨h, _⟩ | ⟨hne, _⟩
      · exact h
      · exact absurd hk hne
  · next hk =>
      rw [or_iff_right hk, and_iff_right hk, Finds, or_comm, and_comm (a := p = 0)]

theorem lookup_null_iff {rt : Runtime} {mem : Mem} {name : Str}
    (hr : rt.Reflects md) (hk : klass ≠ 0) :
    rt.classGetMethodFromName klass name argsCount mem = 0 ↔
      Lacks md klass argsCount name := by
  have hfind := hr.method klass name argsCount mem
  rw [← findsIn_null_iff, FindsIn, if_neg hk]
  refine ⟨fun h => h ▸ hfind, fun h => ?_⟩
  rcases hfind with ⟨o, hmem, _⟩ | ⟨_, h0⟩
  · rcases h with ⟨o', _, h0⟩ | ⟨hnone, _⟩
    · exact absurd h0.symm o'.2
    · exact absurd hmem (hnone o)
  · exact h0

theorem namedAlike_iff (hr : env.rt.Reflects md) {mem : Mem}
    {nameSpace className : StringView} :
    NamedAlike env md mem nameSpace className v argsCount ↔
      ∃ p, LeadTo env mem nameSpace className v argsCount p ∧
        FindsIn md (classNamed env.rt mem nameSpace.chars className.chars)
          argsCount v.chars p := by
  refine ⟨?_, ?_⟩
  · intro h
    rcases h with hdom | ⟨ns, cn, hns, hcn, h⟩
    · refine ⟨0, .noDomain hdom, ?_⟩
      rw [findsIn_null_iff]
      exact Or.inl (if_pos hdom)
    by_cases hdom : env.rt.domainGet mem = 0
    · refine ⟨0, .noDomain hdom, ?_⟩
      rw [findsIn_null_iff]
      exact Or.inl (if_pos hdom)
    rcases h with ⟨hk, hlacks⟩ | ⟨hk, n, hn, h⟩
    · exact ⟨0, .noClass hdom hns hcn hk, findsIn_null_iff.mpr hlacks⟩
    · refine ⟨_, .method hdom hns hcn hk hn, findsIn_iff.mpr ?_⟩
      rcases h with ⟨hlacks, hlacks'⟩ | h
      · exact Or.inl ⟨(lookup_null_iff hr hk).mpr hlacks, hlacks'⟩
      · exact Or.inr h
  · intro h
    obtain ⟨p, hlead, hfinds⟩ := h
    cases hlead with
    | noDomain hdom => exact Or.inl hdom
    | noClass _ hns hcn hk =>
        exact Or.inr ⟨_, _, hns, hcn, Or.inl ⟨hk, findsIn_null_iff.mp hfinds⟩⟩
    | method _ hns hcn hk hn =>
        refine Or.inr ⟨_, _, hns, hcn, Or.inr ⟨hk, _, hn, ?_⟩⟩
        rcases findsIn_iff.mp hfinds with ⟨h0, hlacks⟩ | h
        · exact Or.inl ⟨(lookup_null_iff hr hk).mp h0, hlacks⟩
        · exact Or.inr h

theorem answers_of_leadTo {nameSpace className : StringView} {p : Ptr}
    (hw : w.Loaded) (h : LeadTo env w.mem nameSpace className v argsCount p) :
    Answers (getMethodByClassName env nameSpace className v argsCount) w p := by
  cases h with
  | noDomain hdom =>
      refine (answers_getClassFromName_no_domain hw hdom).then fun _ _ => ?_
      exact answers_getMethod_null
  | noClass _ hns hcn hk =>
      refine (answers_getClassFromName hw hns hcn).then fun _ _ => ?_
      rw [hk]
      exact answers_getMethod_null
  | method _ hns hcn hk hn =>
      refine (answers_getClassFromName hw hns hcn).then fun w₁ h₁ => ?_
      have ha : Answers (getMethod env _ v argsCount) w₁ _ :=
        answers_getMethod env (h₁.loaded hw) hk hn
      rwa [h₁.mem] at ha

theorem leadTo_of_answers {nameSpace className : StringView} {p : Ptr}
    (hw : w.Loaded)
    (h : Answers (getMethodByClassName env nameSpace className v argsCount) w p) :
    LeadTo env w.mem nameSpace className v argsCount p := by
  obtain ⟨w', hrun, _⟩ := h
  -- what the C strings lead to is what the one run of the call answers
  have hdet : ∀ {q}, LeadTo env w.mem nameSpace className v argsCount q →
      LeadTo env w.mem nameSpace className v argsCount p := by
    intro q hq
    obtain ⟨w'', hrun', _⟩ := answers_of_leadTo hw hq
    rw [hrun'] at hrun
    cases hrun
    exact hq
  have hfail : Fails (getMethodByClassName env nameSpace className v argsCount)
      w .overread → LeadTo env w.mem nameSpace className v argsCount p := by
    intro he
    rw [he] at hrun
    cases hrun
  by_cases hdom : env.rt.domainGet w.mem = 0
  · exact hdet (.noDomain hdom)
  cases hns : cString? nameSpace.data with
  | none => exact hfail (fails_getClassFromName hw hdom (Or.inl hns)).bind
  | some ns =>
  cases hcn : cString? className.data with
  | none => exact hfail (fails_getClassFromName hw hdom (Or.inr hcn)).bind
  | some cn =>
  by_cases hk : classNamed env.rt w.mem ns cn = 0
  · exact hdet (.noClass hdom hns hcn hk)
  cases hn : cString? v.data with
  | none =>
      refine hfail ((answers_getClassFromName hw hns hcn).fails fun w₁ h₁ => ?_)
      exact fails_getMethod (h₁.loaded hw) hk hn
  | some n => exact hdet (.method hdom hns hcn hk hn)

/-- A view of a member's name is enough for the members of a class, and views
of all three names where the class goes by name as well. -/
theorem byName_iff (hr : env.rt.Reflects md) (hw : w.Loaded) (hk : klass ≠ 0)
    (v : StringView) (argsCount : Int) (nameSpace className : StringView) :
    (ByName env md w klass v argsCount ↔
        ReadsRight (md.methods klass argsCount) v ∧
          ReadsRight (md.fields klass) v) ∧
      (FoundByNames env md w nameSpace className v argsCount ↔
        NamedAlike env md w.mem nameSpace className v argsCount) := by
  refine ⟨⟨fun h => ?_, fun h => ?_⟩, ⟨?_, ?_⟩⟩
  · exact ⟨(getMethod_iff hr hw hk).mp h.getMethod,
      (findField_iff hr hw hk).mp h.findField⟩
  · exact byName_of_readsRight hr hw hk h.1 h.2
  · intro h
    obtain ⟨p, ha, hp⟩ := h
    exact (namedAlike_iff hr).mpr ⟨p, leadTo_of_answers hw ha, hp⟩
  · intro h
    obtain ⟨p, hlead, hp⟩ := (namedAlike_iff hr).mp h
    exact ⟨p, answers_of_leadTo hw hlead, hp⟩

end

/-! ## A class with two banks to load -/

/-- The first entry of that name. -/
def firstNamed (entries : List (Str × Obj)) (name : Str) : Ptr :=
  match entries.find? fun entry => entry.1 == name with
  | some entry => entry.2.1
  | none => 0

theorem finds_firstNamed (entries : List (Str × Obj)) (name : Str) :
    Finds entries name (firstNamed entries name) := by
  rw [firstNamed]
  split
  · next entry h =>
      have hp := List.find?_some h
      obtain rfl : entry.1 = name := beq_iff_eq.mp hp
      exact Or.inl ⟨entry.2, List.mem_of_find?_eq_some h, rfl⟩
  · next h =>
      refine Or.inr ⟨fun o hmem => ?_, rfl⟩
      exact List.find?_eq_none.mp h _ hmem (beq_self_eq_true name)

def Runtime.ofMetadata (md : Metadata) : Runtime :=
  { Runtime.bare with
    classGetMethodFromName := fun klass name argsCount _ =>
      firstNamed (md.methods klass argsCount) name
    classGetFieldFromName := fun klass name _ => firstNamed (md.fields klass) name }

theorem ofMetadata_reflects (md : Metadata) : (Runtime.ofMetadata md).Reflects md :=
  ⟨fun _ _ _ _ => finds_firstNamed _ _, fun _ _ _ => finds_firstNamed _ _⟩

/-- `Load` and `LoadBank`, one parameter each. -/
def bankMetadata : Metadata where
  methods := fun klass argsCount =>
    if klass = 1 ∧ argsCount = 1 then
      [(lit "Load", ⟨2, by decide⟩), (lit "LoadBank", ⟨3, by decide⟩)]
    else []
  fields := fun _ => []
  method_name := by
    intro klass argsCount a b o ha hb
    split at ha
    · next h =>
        rw [if_pos h] at hb
        simp only [List.mem_cons, Prod.mk.injEq, List.not_mem_nil, or_false]
          at ha hb
        rcases ha with ⟨rfl, rfl⟩ | ⟨rfl, rfl⟩ <;>
          rcases hb with ⟨rfl, h⟩ | ⟨rfl, h⟩ <;> first | rfl | cases h
    · cases ha
  field_name := by
    intro klass a b o ha _
    cases ha

/-- The class is `AK.Bank`, in the one assembly that is loaded. -/
def Runtime.bank : Runtime :=
  { Runtime.ofMetadata bankMetadata with
    domainGet := fun _ => 40
    domainGetAssemblies := fun _ _ => ⟨[⟨41, by decide⟩], by decide⟩
    assemblyGetImage := fun _ _ => 42
    classFromName := fun _ nameSpace typeName _ =>
      if nameSpace = lit "AK" ∧ typeName = lit "Bank" then 1 else 0 }

theorem bank_reflects : Runtime.bank.Reflects bankMetadata :=
  ⟨fun _ _ _ _ => finds_firstNamed _ _, fun _ _ _ => finds_firstNamed _ _⟩

theorem byName_bank :
    ByName (Env.of Runtime.bank) bankMetadata (Process.ready fun _ => 0) 1
        (StringView.whole (lit "Load")) 1 ∧
      FoundByNames (Env.of Runtime.bank) bankMetadata (Process.ready fun _ => 0)
        (StringView.whole (lit "AK")) (StringView.whole (lit "Bank"))
        (StringView.whole (lit "Load")) 1 := by
  have hr : (Env.of Runtime.bank).rt.Reflects bankMetadata := bank_reflects
  obtain ⟨hclass, hnames⟩ := byName_iff hr (ready_loaded fun _ => 0)
    Nat.one_ne_zero (StringView.whole (lit "Load")) 1
    (StringView.whole (lit "AK")) (StringView.whole (lit "Bank"))
  refine ⟨hclass.mpr ⟨?_, ?_⟩, hnames.mpr (Or.inr ?_)⟩
  · exact ⟨lit "Load", by decide, Or.inl (by decide)⟩
  · exact ⟨lit "Load", by decide, Or.inl (by decide)⟩
  · refine ⟨lit "AK", lit "Bank", by decide, by decide, Or.inr ⟨by decide, ?_⟩⟩
    refine ⟨lit "Load", by decide,
      Or.inr ⟨by decide, ⟨2, by decide⟩, ?_, by decide⟩⟩
    exact List.mem_cons_self

/-- The first four characters of `LoadBank` find the method of that name, and
not `Load`. -/
theorem byName_prefix :
    (Runtime.ofMetadata bankMetadata).Reflects bankMetadata ∧
      ¬ ByName (Env.of (Runtime.ofMetadata bankMetadata)) bankMetadata
        (Process.ready fun _ => 0) 1 ⟨cstr "LoadBank", 4, by decide⟩ 1 := by
  have hr : (Env.of (Runtime.ofMetadata bankMetadata)).rt.Reflects bankMetadata :=
    ofMetadata_reflects bankMetadata
  refine ⟨hr, fun h => ?_⟩
  obtain ⟨name, hname, hread⟩ :=
    (getMethod_iff hr (ready_loaded _) Nat.one_ne_zero).mp h.getMethod
  obtain rfl : lit "LoadBank" = name := by
    have hbank : cString? (cstr "LoadBank") = some (lit "LoadBank") :=
      cString?_cstr (by decide)
    exact Option.some.inj (hbank.symm.trans hname)
  rcases hread with heq | ⟨hnone, _⟩
  · exact absurd heq (by decide)
  · exact hnone ⟨3, by decide⟩ (List.mem_cons_of_mem _ List.mem_cons_self)

end PistolWhipHook
