import PistolWhipHook.Proofs.Lookups
import PistolWhipHook.Spec.FieldLayout

/-!
# Fields set and got by name

Whether `SetFieldValue` goes to the object or to the static block is settled
by the overload it came through, before the field is known. So a field named
through a receiver of its own kind is stored in its slot and nowhere else,
and is read back from there, because neither the metadata nor the header of
the object lies in a slot. A static field named through an object is stored
at its offset in the object, and an instance field named through a class at
its offset in the static block, and both report success.
-/

namespace PistolWhipHook

open ByteMem CStr

variable {env : Env} {w : Process} {lay : FieldLayout}

/-! ## Runs -/

/-- The name overloads come down to the field overload, on the receiver's
`instance` and the field it names. -/
theorem run_of_names (env : Env) {r : Receiver} {fieldName : StringView} {f : Ptr}
    (hw : w.Loaded) (h : r.Names env.rt w.mem fieldName f) :
    ∃ w₁, w.Onward w₁ ∧
      (∀ value, (r.set env fieldName value).run w =
        (setFieldValue env r.inst f value).run w₁) ∧
      ∀ out, (r.get env fieldName out).run w =
        (getFieldValue env out r.inst f).run w₁ := by
  obtain ⟨hinst, hk, hf, n, hn, rfl⟩ := h
  cases r with
  | ofClass klass =>
      obtain ⟨w₁, hrun, hon⟩ := answers_findField env hw hk hn
      refine ⟨w₁, hon, fun value => ?_, fun out => ?_⟩
      · refine (run_named_ofClass hw hk hrun).trans ?_
        exact congrArg (Prog.run · w₁) (if_neg hf)
      · refine (run_named_ofClass hw hk hrun).trans ?_
        exact congrArg (Prog.run · w₁) (if_neg hf)
  | ofObject inst =>
      have hcall : w.Onward (w.called .objectGetClass [inst]) :=
        Process.onward_called (by decide)
      obtain ⟨w₁, hrun, hon⟩ :=
        answers_findField env (hcall.loaded hw) hk hn
      refine ⟨w₁, hcall.trans hon, fun value => ?_, fun out => ?_⟩
      · refine (run_named_ofObject hw (hinst rfl) rfl hk hrun).trans ?_
        exact congrArg (Prog.run · w₁) (if_neg hf)
      · refine (run_named_ofObject hw (hinst rfl) rfl hk hrun).trans ?_
        exact congrArg (Prog.run · w₁) (if_neg hf)

theorem run_setFieldValue (inst : Ptr) {f : Ptr} {value : Str}
    (hst : env.rt.StoresBy lay) (hw : w.Loaded) (hf : f ≠ 0)
    (hlen : value.length = lay.size f) :
    ∃ w', (setFieldValue env inst f value).run w = .ok (true, w') ∧ w'.Loaded ∧
      w'.mem = write w.mem (lay.base inst f + lay.offset f) value := by
  rw [setFieldValue, Prog.run_bind_ok (run_init hw), if_neg hf]
  by_cases hi : inst ≠ 0
  · rw [if_pos hi, Prog.run_bind_ok (run_fieldSetValue hw)]
    refine ⟨_, rfl, hw, ?_⟩
    rw [Process.mem_withMem, hst.set inst f value w.mem hlen, FieldLayout.base,
      if_pos hi]
  · rw [if_neg hi, Prog.run_bind_ok (run_fieldStaticSetValue hw)]
    refine ⟨_, rfl, hw, ?_⟩
    rw [Process.mem_withMem, hst.staticSet f value w.mem hlen, FieldLayout.base,
      if_neg hi]

theorem fieldBytes_of_storesBy {rt : Runtime} {inst f : Ptr} {mem : Mem}
    (hst : rt.StoresBy lay) :
    fieldBytes rt inst f mem =
      read mem (lay.base inst f + lay.offset f) (lay.size f) := by
  rw [fieldBytes, FieldLayout.base]
  split
  · exact hst.get inst f mem
  · exact hst.staticGet f mem

theorem run_getFieldValue_of_storesBy (inst : Ptr) {f : Ptr} {out : Str}
    (hst : env.rt.StoresBy lay) (hw : w.Loaded) (hf : f ≠ 0)
    (hout : out.length = lay.size f) :
    ∃ w', (getFieldValue env out inst f).run w = .ok ((true,
      read w.mem (lay.base inst f + lay.offset f) (lay.size f)), w') := by
  obtain ⟨w', hrun⟩ := run_getFieldValue env inst hw hf
  refine ⟨w', ?_⟩
  rw [hrun out, fieldBytes_of_storesBy hst, storeOut,
    if_pos (by rw [length_read, hout]), length_read, ← hout, List.drop_length,
    List.append_nil]
  rfl

/-! ## The right receiver -/

theorem base_eq_owner {r : Receiver} {f : Ptr}
    (hinst : r.isClass = false → r.inst ≠ 0)
    (hkind : lay.isStatic f = r.isClass) :
    lay.base r.inst f = lay.owner r.inst f := by
  cases r with
  | ofClass klass =>
      rw [FieldLayout.owner, if_pos (show lay.isStatic f = true from hkind)]
      rfl
  | ofObject inst =>
      have hstatic : ¬ lay.isStatic f = true := by
        rw [hkind]; exact Bool.noConfusion
      rw [FieldLayout.owner, if_neg hstatic, FieldLayout.base, if_pos (hinst rfl)]

theorem names_write {rt : Runtime} {mem : Mem} {r : Receiver}
    {fieldName : StringView} {f : Ptr} {value : Str} (hst : rt.StoresBy lay)
    (hkind : lay.isStatic f = r.isClass) (h : r.Names rt mem fieldName f) :
    r.Names rt (write mem (lay.base r.inst f + lay.offset f) value)
      fieldName f := by
  obtain ⟨hinst, hk, hf, n, hn, hfind⟩ := h
  have hsame : r.klass rt (write mem (lay.base r.inst f + lay.offset f) value) =
      r.klass rt mem := by
    cases r with
    | ofClass klass => rfl
    | ofObject inst =>
        refine hst.header inst _ _ fun x _ hx => write_below ?_
        have hhdr := lay.header_le f hkind
        have hbase : lay.base inst f = inst := if_pos (hinst rfl)
        show x < lay.base inst f + lay.offset f
        omega
  refine ⟨hinst, by rw [hsame]; exact hk, hf, n, hn, ?_⟩
  rw [hsame, hst.find _ n _ mem]
  exact hfind

theorem keepsToField_of_kind {r : Receiver} {fieldName : StringView}
    (hst : env.rt.StoresBy lay) (hw : w.Loaded)
    (hkind : ∀ f, r.Names env.rt w.mem fieldName f → lay.isStatic f = r.isClass) :
    KeepsToField env lay w r fieldName := by
  intro f hnames value hlen
  have hkind := hkind f hnames
  obtain ⟨w₁, hon, hset, -⟩ := run_of_names env hw hnames
  obtain ⟨w', hrun, hw', hmem⟩ := run_setFieldValue r.inst hst
    (hon.loaded hw) hnames.2.2.1 hlen
  rw [hon.mem] at hmem
  refine ⟨true, w', (hset value).trans hrun,
    fun _ => ⟨fun x hx => ?_, fun out hout => ?_⟩, fun hholds => ?_⟩
  · -- the frame: what was written is the slot
    rw [hmem]
    refine write_outside ?_
    rw [FieldLayout.InSlot, ← base_eq_owner hnames.1 hkind] at hx
    omega
  · have hnames' : r.Names env.rt w'.mem fieldName f := by
      rw [hmem]
      exact names_write hst hkind hnames
    obtain ⟨w₂, hon₂, -, hget⟩ := run_of_names env hw' hnames'
    obtain ⟨w₃, hrun₃⟩ := run_getFieldValue_of_storesBy r.inst hst
      (hon₂.loaded hw') hnames.2.2.1 hout
    refine ⟨w₃, (hget out).trans ?_⟩
    rw [hrun₃, hon₂.mem, hmem, ← hlen, read_write_same]
  · exact absurd (fun hclass => hkind.trans hclass) hholds

/-! ## The wrong one -/

/-- A byte that is written to but is not the field's. -/
theorem exists_strayed {inst f : Ptr} (hinst : inst ≠ 0)
    (hstatic : lay.isStatic f = true) (hsep : inst ≠ lay.statics f) :
    ∃ i, i < lay.size f ∧
      ¬ lay.InSlot inst f (lay.base inst f + lay.offset f + i) := by
  have hsize := lay.size_pos f
  have hbase : lay.base inst f = inst := if_pos hinst
  have howner : lay.owner inst f = lay.statics f := if_pos hstatic
  rcases Nat.lt_or_gt_of_ne hsep with hlt | hgt
  · refine ⟨0, hsize, ?_⟩
    rw [FieldLayout.InSlot, hbase, howner]
    omega
  · refine ⟨lay.size f - 1, by omega, ?_⟩
    rw [FieldLayout.InSlot, hbase, howner]
    omega

/-- Other bytes than the ones there now. -/
def changed (mem : Mem) (a n : Nat) : Str := (read mem a n).map (· + 1)

theorem length_changed (mem : Mem) (a n : Nat) : (changed mem a n).length = n := by
  rw [changed, List.length_map, length_read]

theorem write_changed_ne {mem : Mem} {a n i : Nat} (hi : i < n) :
    write mem a (changed mem a n) (a + i) ≠ mem (a + i) := by
  have hlt : i < (changed mem a n).length := by rwa [length_changed]
  have hbyte : (changed mem a n)[i] = mem (a + i) + 1 := by
    simp only [changed, List.getElem_map, getElem_read]
  rw [write_inside hlt, hbyte]
  intro h
  have h := congrArg UInt8.toNat h
  rw [UInt8.toNat_add] at h
  have hb := (mem (a + i)).toNat_lt
  have hone : (1 : UInt8).toNat = 1 := rfl
  omega

theorem kind_of_keepsToField {r : Receiver} {fieldName : StringView} {f : Ptr}
    (hst : env.rt.StoresBy lay) (hw : w.Loaded)
    (hsep : r.isClass = false → r.inst ≠ lay.statics f)
    (hkeeps : KeepsToField env lay w r fieldName)
    (hnames : r.Names env.rt w.mem fieldName f) : lay.isStatic f = r.isClass := by
  let a := lay.base r.inst f + lay.offset f
  obtain ⟨ok, w', hset, hok, hholds⟩ :=
    hkeeps f hnames (changed w.mem a (lay.size f)) (length_changed _ _ _)
  obtain ⟨w₁, hon, hcome, -⟩ := run_of_names env hw hnames
  obtain ⟨w₂, hrun, -, hmem⟩ := run_setFieldValue r.inst hst
    (hon.loaded hw) hnames.2.2.1 (length_changed w.mem a _)
  rw [hcome, hrun] at hset
  cases hset
  rw [hon.mem] at hmem
  cases r with
  | ofClass klass =>
      by_contra hkind
      exact absurd (hholds fun h => hkind (h rfl)).1 Bool.noConfusion
  | ofObject inst =>
      cases hstatic : lay.isStatic f with
      | false => rfl
      | true =>
          obtain ⟨i, hi, hout⟩ := exists_strayed (hnames.1 rfl) hstatic (hsep rfl)
          have hsame := (hok rfl).1 _ hout
          rw [hmem] at hsame
          exact absurd hsame (write_changed_ne hi)

/-- Fields are kept to exactly when the receiver is of their kind. -/
theorem keepsToField_iff {r : Receiver} {fieldName : StringView}
    (hst : env.rt.StoresBy lay) (hw : w.Loaded)
    (hsep : ∀ f, r.isClass = false → r.inst ≠ lay.statics f) :
    KeepsToField env lay w r fieldName ↔
      ∀ f, r.Names env.rt w.mem fieldName f → lay.isStatic f = r.isClass :=
  ⟨fun h _ hnames => kind_of_keepsToField hst hw (hsep _) h hnames,
    keepsToField_of_kind hst hw⟩

/-! ## A class with a field of each kind -/

/-- Two fields at offset 16, of four bytes each: 8 of the object, and 9 of
the static block at 512. -/
def scoreLayout : FieldLayout where
  isStatic f := f == 9
  offset _ := 16
  size _ := 4
  statics _ := 512
  size_pos _ := by decide
  header_le _ _ := Nat.le_refl 16

/-- The runtime that keeps values by `scoreLayout`. -/
def Runtime.scoring : Runtime :=
  { Runtime.bare with
    objectGetClass := fun _ _ => 1
    classGetFieldFromName := fun _ name _ =>
      if name = lit "score" then 8 else if name = lit "best" then 9 else 0
    fieldSetValue := fun obj _ value m => write m (obj + 16) value
    fieldStaticSetValue := fun _ value m => write m (512 + 16) value
    fieldGetValue := fun obj _ m => read m (obj + 16) 4
    fieldStaticGetValue := fun _ m => read m (512 + 16) 4 }

theorem storesBy_scoring : Runtime.scoring.StoresBy scoreLayout where
  set _ _ _ _ _ := rfl
  staticSet _ _ _ _ := rfl
  get _ _ _ := rfl
  staticGet _ _ := rfl
  find _ _ _ _ := rfl
  header _ _ _ _ := rfl

theorem keepsToField_score :
    KeepsToField (Env.of Runtime.scoring) scoreLayout (Process.ready fun _ => 0)
      (.ofObject 32) (.whole (lit "score")) := by
  refine (keepsToField_iff storesBy_scoring (ready_loaded _) ?_).mpr ?_
  · intro f _
    exact (by decide : (32 : Nat) ≠ 512)
  · intro f h
    obtain ⟨_, _, _, n, hn, rfl⟩ := h
    obtain rfl : lit "score" = n := Option.some.inj hn
    rfl

/-- The static field set through an object lands in the object, and the
instance field set through the class is not refused. -/
theorem keepsToField_not_crossed :
    Runtime.scoring.StoresBy scoreLayout ∧
    ¬ KeepsToField (Env.of Runtime.scoring) scoreLayout (Process.ready fun _ => 0)
        (.ofObject 32) (.whole (lit "best")) ∧
    ¬ KeepsToField (Env.of Runtime.scoring) scoreLayout (Process.ready fun _ => 0)
        (.ofClass 1) (.whole (lit "score")) := by
  refine ⟨storesBy_scoring, fun h => ?_, fun h => ?_⟩
  · have hnames : (Receiver.ofObject 32).Names Runtime.scoring (fun _ => 0)
        (.whole (lit "best")) 9 :=
      ⟨fun _ => by decide, by decide, by decide, lit "best", rfl, rfl⟩
    obtain ⟨ok, w', hrun, hok, _⟩ := h 9 hnames [1, 2, 3, 4] rfl
    cases hrun
    have hout : ¬ scoreLayout.InSlot 32 9 48 := fun h => absurd h.1 (by decide)
    exact absurd ((hok rfl).1 48 hout) (by decide)
  · have hnames : (Receiver.ofClass 1).Names Runtime.scoring (fun _ => 0)
        (.whole (lit "score")) 8 :=
      ⟨Bool.noConfusion, by decide, by decide, lit "score", rfl, rfl⟩
    obtain ⟨ok, w', hrun, _, hholds⟩ := h 8 hnames [1, 2, 3, 4] rfl
    cases hrun
    have hno : ¬ (Receiver.ofClass 1).Holds scoreLayout 8 := fun h =>
      absurd (h rfl) (by decide)
    exact absurd (hholds hno).1 Bool.noConfusion

end PistolWhipHook
