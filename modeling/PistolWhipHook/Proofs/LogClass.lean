import PistolWhipHook.Lib.Descent
import PistolWhipHook.Proofs.ClassDump

/-!
# The classes a dump goes through

`LogClass` dumps a class and calls itself on the type that declares it, on
its element class unless that is the class itself, and, if `logParents`, on
its parent. Where these three kinds of edge together have no cycle the
recursion ends, and with `logParents` it dumps what the edges reach.

The flag is not handed down: the inner calls leave `logParents` to its
default, which is true. So without it the parent of the class itself is left
out and the parents of every class nested below it are not, and the dump is
the one that was asked for exactly when those parents are nested below the
class as well.
-/

namespace PistolWhipHook

open ByteMem CStr Relation

variable {env : Env} {rt : Runtime} {mem : Mem} {w : Process} {klass : Ptr}
  {b : Bool} {classes : Finset Ptr}

/-! ## A family of classes -/

/-- Class 1 is declared in class 2, and class 3 is the parent of class 2. -/
def Runtime.family : Runtime :=
  { Runtime.bare with
    classGetDeclaringType := fun c _ => if c = 1 then 2 else 0
    classGetElementClass := fun c _ => c
    classGetParent := fun c _ => if c = 2 then 3 else 0 }

theorem family_nested {c d : Ptr} (h : Nested Runtime.family mem c d) :
    c = 1 ∧ d = 2 := by
  obtain ⟨hd, h | ⟨h, hne⟩⟩ := h
  · change (if c = 1 then 2 else 0) = d at h
    split at h
    · next hc => exact ⟨hc, h.symm⟩
    · exact absurd h.symm hd
  · exact absurd h.symm hne

theorem family_parent {c d : Ptr} (h : Parent Runtime.family mem c d) :
    c = 2 ∧ d = 3 := by
  obtain ⟨hd, h⟩ := h
  change (if c = 2 then 3 else 0) = d at h
  split at h
  · next hc => exact ⟨hc, h.symm⟩
  · exact absurd h.symm hd

theorem family_related {c d : Ptr} (h : Related Runtime.family mem c d) :
    c = 1 ∧ d = 2 ∨ c = 2 ∧ d = 3 :=
  h.imp family_nested family_parent

theorem family_classGraph : ClassGraph Runtime.family mem {1, 2, 3} where
  notNull c hc := by
    intro h
    rw [h] at hc
    exact absurd hc (by decide)
  closed c _ d h := by
    rcases family_related h with ⟨_, rfl⟩ | ⟨_, rfl⟩ <;> decide
  acyclic c _ h := by
    have hlt : ∀ {d}, TransGen (Related Runtime.family mem) c d → c < d := by
      intro d hd
      induction hd with
      | single h => rcases family_related h with ⟨rfl, rfl⟩ | ⟨rfl, rfl⟩ <;> decide
      | tail _ h ih =>
          rcases family_related h with ⟨rfl, rfl⟩ | ⟨rfl, rfl⟩
          · exact Nat.lt_succ_of_lt ih
          · exact Nat.lt_succ_of_lt ih
    exact Nat.lt_irrefl c (hlt h)
  fieldsEnd _ _ := ⟨1, Or.inl rfl⟩

/-! ## One class -/

/-- The classes that `LogClass` calls itself on. -/
def inner (rt : Runtime) (mem : Mem) (klass : Ptr) (logParents : Bool) :
    List Ptr :=
  let declaring := rt.classGetDeclaringType klass mem
  let element := rt.classGetElementClass klass mem
  let parent := rt.classGetParent klass mem
  (if declaring ≠ 0 then [declaring] else []) ++
    (if element ≠ 0 ∧ element ≠ klass then [element] else []) ++
    (if parent ≠ 0 ∧ logParents = true then [parent] else [])

@[simp] theorem dumped_header :
    dumped (classHeader rt mem klass) = [] := rfl

theorem mem_when {c : Prop} [Decidable c] {p q : Ptr} :
    q ∈ (if c then [p] else []) ↔ c ∧ q = p := by
  split
  · next hc => rw [List.mem_singleton, and_iff_right hc]
  · next hc => exact ⟨fun h => absurd h List.not_mem_nil, fun h => absurd h.1 hc⟩

theorem mem_inner {d : Ptr} :
    d ∈ inner rt mem klass b ↔
      Nested rt mem klass d ∨ Parent rt mem klass d ∧ b = true := by
  rw [inner, List.mem_append, List.mem_append, mem_when, mem_when, mem_when,
    Nested, Parent]
  grind

theorem exists_mem_inner (Q : Ptr → Prop) :
    (∃ e ∈ inner rt mem klass b, Q e) ↔
      (rt.classGetDeclaringType klass mem ≠ 0 ∧
        Q (rt.classGetDeclaringType klass mem)) ∨
      ((rt.classGetElementClass klass mem ≠ 0 ∧
          rt.classGetElementClass klass mem ≠ klass) ∧
        Q (rt.classGetElementClass klass mem)) ∨
      ((rt.classGetParent klass mem ≠ 0 ∧ b = true) ∧
        Q (rt.classGetParent klass mem)) := by
  simp only [inner, List.mem_append, mem_when, or_and_right, exists_or, and_assoc,
    exists_and_left, exists_eq_left, or_assoc]

theorem Dumps.congr {P P' : Ptr → Prop} {lines : List LogLine}
    (h : Dumps rt mem P lines) (hP : ∀ d, P d ↔ P' d) : Dumps rt mem P' lines where
  classes d := (h.classes d).trans (hP d)
  headers d hd := h.headers d ((hP d).mpr hd)

theorem dumps_nil : Dumps rt mem (fun _ => False) [] where
  classes _ := ⟨fun h => absurd h List.not_mem_nil, False.elim⟩
  headers _ hd := hd.elim

/-- The dump of a class, from the dumps of the classes it calls itself on:
`l₁` of the declaring type, `l₂` of the element class and `l₃` of the parent,
each empty if there is no such call. The other parts dump no class. -/
theorem dumps_class {P₁ P₂ P₃ : Ptr → Prop} {declaring element parent : Ptr}
    {methods generics l₁ l₂ fields l₃ : List LogLine}
    (hmethods : dumped methods = []) (hgenerics : dumped generics = [])
    (hfields : dumped fields = []) (h₁ : Dumps rt mem P₁ l₁)
    (h₂ : Dumps rt mem P₂ l₂) (h₃ : Dumps rt mem P₃ l₃) :
    Dumps rt mem (fun d => d = klass ∨ P₁ d ∨ P₂ d ∨ P₃ d)
      (classHeader rt mem klass ++ (methods ++ (generics ++
        (⟨.debug, "declaring type: %p", [.ptr declaring]⟩ :: (l₁ ++
          (⟨.debug, "element class: %p (self = %p)",
              [.ptr element, .ptr klass]⟩ :: (l₂ ++
            (⟨.debug, "=========FIELDS=========", []⟩ :: (fields ++
              (⟨.debug, "=========END FIELDS=========", []⟩ ::
                ⟨.debug, "parent: %p", [.ptr parent]⟩ :: (l₃ ++
                [⟨.debug, "=================================================" ++
                  "=================================", []⟩]))))))))))) := by
  refine ⟨fun d => ?_, fun d hd => ?_⟩
  · rw [← h₁.classes, ← h₂.classes, ← h₃.classes]
    simp only [dumped_append, dumped_header, dumped_nil, dumped_ptr, dumped_plain,
      dumped_self, hmethods, hgenerics, hfields, List.nil_append, List.append_nil,
      List.mem_append, List.mem_cons]
    exact or_left_comm
  · rcases hd with rfl | hd | hd | hd
    · exact (List.prefix_append _ _).isInfix
    all_goals
      refine List.infix_append_of_infix_right (List.infix_append_of_infix_right
        (List.infix_append_of_infix_right (List.infix_cons ?_)))
    · exact List.infix_append_of_infix_left (h₁.headers d hd)
    all_goals
      refine List.infix_append_of_infix_right (List.infix_cons ?_)
    · exact List.infix_append_of_infix_left (h₂.headers d hd)
    · refine List.infix_append_of_infix_right (List.infix_cons
        (List.infix_append_of_infix_right (List.infix_cons (List.infix_cons ?_))))
      exact List.infix_append_of_infix_left (h₃.headers d hd)

/-- A call that `LogClass` makes of itself under a condition. -/
theorem prints_call {depth : Nat} {c : Prop} [Decidable c] {e : Ptr}
    {k : Unit → Hook Unit} {Q : Unit → List LogLine → Prop}
    (R : Ptr → Ptr → Prop)
    (hcall : c → Prints mem (logClass env depth e true) fun _ lines =>
      Dumps env.rt mem (R e) lines)
    (hk : ∀ lines, Dumps env.rt mem (fun d => c ∧ R e d) lines →
      Prints mem (k ()) fun u lines' => Q u (lines ++ lines')) :
    Prints mem (if c then logClass env depth e true >>= fun u => k u
      else k ()) Q := by
  refine Prog.emits_when (fun hc => (hcall hc).mono fun _ lines h => ?_)
    (fun hc => ?_) hk
  · exact h.congr fun _ => (and_iff_right hc).symm
  · exact dumps_nil.congr fun _ => ⟨False.elim, fun h => hc h.1⟩

/-- One call: if each class it calls itself on is dumped with the classes `R`
has it followed by, so is the class itself. -/
theorem prints_logClass {R : Ptr → Ptr → Prop} {depth n : Nat} (hklass : klass ≠ 0)
    (hn : n ≤ env.fuel) (hfields : FieldsEnd env.rt mem klass n 0)
    (hinner : ∀ e ∈ inner env.rt mem klass b,
      Prints mem (logClass env depth e true) fun _ lines =>
        Dumps env.rt mem (R e) lines) :
    Prints mem (logClass env (depth + 1) klass b) fun _ lines =>
      Dumps env.rt mem (fun d => d = klass ∨
        ∃ e ∈ inner env.rt mem klass b, R e d) lines := by
  rw [logClass]
  refine prints_init ?_
  -- the lines of the header
  refine prints_query (prints_query (prints_log ?_))
  refine prints_query (prints_log (prints_query (prints_log ?_)))
  refine prints_query (prints_log (prints_query (prints_log ?_)))
  refine prints_deref hklass (prints_log (prints_log (prints_log (prints_log ?_))))
  refine prints_query (prints_log (prints_query (prints_log (prints_log ?_))))
  refine Prog.Emits.bind quiet_logMethods fun _ methods hmethods => ?_
  refine Prog.Emits.bind quiet_logGenericArgs fun _ generics hgenerics => ?_
  refine prints_query (prints_log (prints_call R ?_ fun l₁ h₁ => ?_))
  · exact fun hc => hinner _ (mem_inner.mpr (Or.inl ⟨hc, Or.inl rfl⟩))
  refine prints_query (prints_log (prints_call R ?_ fun l₂ h₂ => ?_))
  · exact fun hc => hinner _ (mem_inner.mpr (Or.inl ⟨hc.1, Or.inr ⟨rfl, hc.2⟩⟩))
  refine prints_log ?_
  refine Prog.Emits.bind (quiet_logFields hn hfields)
    fun _ fields hfields => ?_
  refine prints_log (prints_query (prints_log (prints_call R ?_ fun l₃ h₃ => ?_)))
  · exact fun hc => hinner _ (mem_inner.mpr (Or.inr ⟨⟨hc.1, rfl⟩, hc.2⟩))
  refine prints_log_last ?_
  refine (dumps_class hmethods hgenerics hfields h₁ h₂ h₃).congr fun d => ?_
  rw [exists_mem_inner fun e => R e d]

/-! ## The whole dump -/

/-- Given `n` rounds or more and as deep as that, the call dumps the classes
in `P`. -/
def DumpsWithin (env : Env) (mem : Mem) (klass : Ptr) (logParents : Bool)
    (P : Ptr → Prop) (n : Nat) : Prop :=
  ∀ fuel depth, n ≤ fuel → n ≤ depth →
    Prints mem (logClass (env.withFuel fuel) depth klass logParents)
      fun _ lines => Dumps env.rt mem P lines

theorem DumpsWithin.mono {P : Ptr → Prop} {n m : Nat} (hnm : n ≤ m)
    (h : DumpsWithin env mem klass b P n) : DumpsWithin env mem klass b P m :=
  fun fuel depth hfuel hdepth =>
    h fuel depth (Nat.le_trans hnm hfuel) (Nat.le_trans hnm hdepth)

theorem DumpsWithin.congr {P P' : Ptr → Prop} {n : Nat}
    (h : DumpsWithin env mem klass b P n) (hP : ∀ d, P d ↔ P' d) :
    DumpsWithin env mem klass b P' n :=
  fun fuel depth hfuel hdepth =>
    (h fuel depth hfuel hdepth).mono fun _ _ hlines => hlines.congr hP

theorem dumpsWithin_step {R : Ptr → Ptr → Prop} {n : Nat}
    (hg : ClassGraph env.rt mem classes) (hk : klass ∈ classes)
    (hinner : ∀ e ∈ inner env.rt mem klass b,
      DumpsWithin env mem e true (R e) n) :
    ∃ m, DumpsWithin env mem klass b
      (fun d => d = klass ∨ ∃ e ∈ inner env.rt mem klass b, R e d) m := by
  obtain ⟨m, hfields⟩ := hg.fieldsEnd klass hk
  refine ⟨max m (n + 1), fun fuel depth hfuel hdepth => ?_⟩
  obtain ⟨depth, rfl⟩ : ∃ d, depth = d + 1 := ⟨depth - 1, by omega⟩
  refine prints_logClass (hg.notNull klass hk) (n := m) ?_ hfields fun e he => ?_
  · show m ≤ fuel
    omega
  · exact hinner e he fuel depth (by omega) (by omega)

/-- With `logParents`, the dump is of the classes the edges reach. -/
theorem dumpsWithin_reachable (hg : ClassGraph env.rt mem classes)
    (hk : klass ∈ classes) :
    ∃ n, DumpsWithin env mem klass true
      (ReflTransGen (Related env.rt mem) klass) n := by
  suffices h : ∃ n, klass ∈ classes → DumpsWithin env mem klass true
      (ReflTransGen (Related env.rt mem) klass) n by
    obtain ⟨n, hn⟩ := h
    exact ⟨n, hn hk⟩
  have hrelated : ∀ c, ∀ d ∈ inner env.rt mem c true, Related env.rt mem c d :=
    fun c d hd => (mem_inner.mp hd).imp_right And.left
  refine Descent.exists_bound
    (fun n c => c ∈ classes → DumpsWithin env mem c true
      (ReflTransGen (Related env.rt mem) c) n)
    (fun c => inner env.rt mem c true)
    (fun c _ _ hnm h hc => (h hc).mono hnm) hrelated (fun c n ih => ?_)
    (Descent.acc_of_acyclic hg.closed hg.acyclic hk)
  by_cases hc : c ∈ classes
  · obtain ⟨m, hm⟩ := dumpsWithin_step hg hc fun e he =>
      ih e he (hg.closed c hc e (hrelated c e he))
    refine ⟨m, fun _ => hm.congr fun d => ?_⟩
    rw [ReflTransGen.cases_head_iff, eq_comm]
    refine or_congr_right (exists_congr fun e => and_congr_left fun _ => ?_)
    rw [mem_inner, and_iff_left rfl]
    exact Iff.rfl
  · exact ⟨0, fun h => absurd h hc⟩

/-- Without it, the parents are left out of the first step only. -/
theorem dumpsWithin_nested (hg : ClassGraph env.rt mem classes)
    (hk : klass ∈ classes) :
    ∃ n, DumpsWithin env mem klass false (fun d => d = klass ∨
      ∃ e, Nested env.rt mem klass e ∧
        ReflTransGen (Related env.rt mem) e d) n := by
  have hnested : ∀ e ∈ inner env.rt mem klass false, Nested env.rt mem klass e :=
    fun e he => (mem_inner.mp he).resolve_right fun h => Bool.noConfusion h.2
  obtain ⟨n, hn⟩ := Descent.exists_common_bound
    (fun n e => DumpsWithin env mem e true
      (ReflTransGen (Related env.rt mem) e) n)
    (fun _ _ _ hnm h => h.mono hnm)
    (fun e he => dumpsWithin_reachable hg
      (hg.closed klass hk e (Or.inl (hnested e he))))
  obtain ⟨m, hm⟩ := dumpsWithin_step hg hk hn
  refine ⟨m, hm.congr fun d => ?_⟩
  refine or_congr_right (exists_congr fun e => and_congr_left fun _ => ?_)
  exact ⟨hnested e, fun he => mem_inner.mpr (Or.inl he)⟩

theorem DumpsWithin.logsExactly {P : Ptr → Prop} {n : Nat} (hw : w.Loaded)
    (h : DumpsWithin env w.mem klass b P n) : LogsExactly env w klass b P := by
  refine ⟨n, fun fuel hfuel => ?_⟩
  obtain ⟨_, w', lines, hrun, _, hlog, hdumps⟩ :=
    h fuel (fuel + 1) hfuel (Nat.le_succ_of_le hfuel) w ⟨hw, rfl⟩
  exact ⟨w', lines, hrun, hlog, hdumps⟩

theorem LogsExactly.unique {P P' : Ptr → Prop} (h : LogsExactly env w klass b P)
    (h' : LogsExactly env w klass b P') (d : Ptr) : P d ↔ P' d := by
  obtain ⟨n, hn⟩ := h
  obtain ⟨m, hm⟩ := h'
  obtain ⟨w₁, lines₁, hrun₁, hlog₁, hdumps₁⟩ := hn (max n m) (Nat.le_max_left n m)
  obtain ⟨w₂, lines₂, hrun₂, hlog₂, hdumps₂⟩ := hm (max n m) (Nat.le_max_right n m)
  have hw : w₁ = w₂ := by
    rw [hrun₁] at hrun₂
    cases hrun₂
    rfl
  have hlines : lines₁ = lines₂ := by
    rw [hw, hlog₂] at hlog₁
    exact (List.append_cancel_left hlog₁).symm
  rw [← hdumps₁.classes d, hlines, hdumps₂.classes d]

/-- A class is dumped with its parents if and only if the edges reach it. -/
theorem logClass_dumps_reachable (hw : w.Loaded)
    (hg : ClassGraph env.rt w.mem classes) (hk : klass ∈ classes) :
    LogsExactly env w klass true (ReflTransGen (Related env.rt w.mem) klass) := by
  obtain ⟨n, hn⟩ := dumpsWithin_reachable hg hk
  exact hn.logsExactly hw

theorem logClass_dumps_reachable_family :
    LogsExactly (Env.of Runtime.family) (Process.ready fun _ => 0) 1 true
      (ReflTransGen (Related Runtime.family fun _ => 0) 1) :=
  logClass_dumps_reachable (ready_loaded _) family_classGraph (by decide)

/-! ## Without the parents -/

/-- From a class below `klass` no edge leaves the classes nested below it. -/
theorem transGen_nested_of_related
    (hacyclic : ¬ TransGen (Related rt mem) klass klass)
    (h : ParentsNested rt mem klass) {e d : Ptr} (he : Nested rt mem klass e)
    (hd : ReflTransGen (Related rt mem) e d) :
    TransGen (Nested rt mem) klass d := by
  induction hd with
  | refl => exact TransGen.single he
  | tail hd hedge ih =>
      rcases hedge with hnested | hparent
      · exact ih.tail hnested
      · refine Descent.transGen_of_ne (h _ _ ih hparent) fun heq => hacyclic ?_
        rw [heq] at hparent
        have hrelated : TransGen (Related rt mem) klass _ :=
          TransGen.mono (fun _ _ => Or.inl) _ _ ih
        exact hrelated.tail (Or.inr hparent)

theorem logClass_nested_iff (hw : w.Loaded)
    (hg : ClassGraph env.rt w.mem classes) (hk : klass ∈ classes) :
    LogsExactly env w klass false (ReflTransGen (Nested env.rt w.mem) klass) ↔
      ParentsNested env.rt w.mem klass := by
  obtain ⟨n, hn⟩ := dumpsWithin_nested hg hk
  refine ⟨fun h d p hd hp => ?_, fun h => ?_⟩
  · obtain ⟨e, he, hed⟩ := TransGen.head'_iff.mp hd
    refine (h.unique (hn.logsExactly hw) p).mpr (Or.inr ⟨e, he, ?_⟩)
    have hrelated : ReflTransGen (Related env.rt w.mem) e d :=
      ReflTransGen.mono (fun _ _ => Or.inl) _ _ hed
    exact hrelated.tail (Or.inr hp)
  · refine (hn.congr fun d => ⟨?_, fun hd => ?_⟩).logsExactly hw
    · intro hd
      rcases hd with rfl | ⟨e, he, hed⟩
      · exact ReflTransGen.refl
      · have hacyclic := hg.acyclic klass hk
        exact (transGen_nested_of_related hacyclic h he hed).to_reflTransGen
    · rcases ReflTransGen.cases_head hd with rfl | ⟨e, he, hed⟩
      · exact Or.inl rfl
      · exact Or.inr ⟨e, he, ReflTransGen.mono (fun _ _ => Or.inl) _ _ hed⟩

theorem logClass_nested_family :
    LogsExactly (Env.of Runtime.family) (Process.ready fun _ => 0) 2 false
      (ReflTransGen (Nested Runtime.family fun _ => 0) 2) := by
  refine (logClass_nested_iff (ready_loaded _) family_classGraph (by decide)).mpr ?_
  intro d p hd _
  obtain ⟨e, he, _⟩ := TransGen.head'_iff.mp hd
  exact absurd (family_nested he).1 (by decide)

/-- `LogClass(1, false)` dumps class 3, the parent of the class that declares
class 1. -/
theorem logClass_dumps_inner_parent :
    ClassGraph Runtime.family (fun _ => 0) {1, 2, 3} ∧
      ¬ LogsExactly (Env.of Runtime.family) (Process.ready fun _ => 0) 1 false
        (ReflTransGen (Nested Runtime.family fun _ => 0) 1) := by
  refine ⟨family_classGraph, fun h => ?_⟩
  have hdumps : ∃ n, DumpsWithin (Env.of Runtime.family) (fun _ => 0) 1 false
      (fun d => d = 1 ∨ ∃ e, Nested Runtime.family (fun _ => 0) 1 e ∧
        ReflTransGen (Related Runtime.family fun _ => 0) e d) n :=
    dumpsWithin_nested family_classGraph (by decide)
  obtain ⟨n, hn⟩ := hdumps
  have hdeclaring : Nested Runtime.family (fun _ => 0) 1 2 :=
    ⟨by decide, Or.inl rfl⟩
  have hparent : Related Runtime.family (fun _ => 0) 2 3 :=
    Or.inr ⟨by decide, rfl⟩
  have hdumped : ReflTransGen (Nested Runtime.family fun _ => 0) 1 3 :=
    (h.unique (hn.logsExactly (ready_loaded _)) 3).mpr
      (Or.inr ⟨2, hdeclaring, ReflTransGen.single hparent⟩)
  rcases ReflTransGen.cases_tail hdumped with h | ⟨c, _, hc⟩
  · exact absurd h (by decide)
  · exact absurd (family_nested hc).2 (by decide)

end PistolWhipHook
