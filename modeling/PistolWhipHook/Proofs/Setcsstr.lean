import PistolWhipHook.Spec.Strings

/-!
# What `setcsstr` leaves of a string

A string the runtime allocated for `m` characters has `m + 1` cells, a length
between zero and `m`, and a zero in the cell its length points at. The object
does not record `m`, and `setcsstr` writes neither the terminator nor a check
of the length it is given: it stores the view's length cut to 32 bits and
copies that many units.

So the terminator after a call is whatever the cell held before it. That is
`inForm_setcsstr_iff`, exact for one call from any state in form, and
`setcsstr_everywhere_iff` is the same for a whole run of calls.
-/

namespace PistolWhipHook

open ByteMem CStr

/-! ## Reading a string through a change of memory -/

theorem strLength_congr {m m' : Mem} {p : Nat}
    (h : ∀ x, lengthAddr p ≤ x → x < charsAddr p → m x = m' x) :
    strLength m p = strLength m' p := by
  rw [strLength, strLength, load_congr fun x h₁ h₂ => h x h₁ (by
    rw [lengthAddr] at h₂; rw [charsAddr]; omega)]

theorem unitAt_congr {m m' : Mem} {data i : Nat}
    (h : ∀ x, data + 2 * i ≤ x → x < data + 2 * i + 2 → m x = m' x) :
    unitAt m data i = unitAt m' data i := by
  rw [unitAt, unitAt, load_congr h]

theorem strLength_store (m : Mem) (p n : Nat) :
    strLength (store m (lengthAddr p) 4 n) p = (BitVec.ofNat 32 n).toInt := by
  rw [strLength, load_store_same, show 256 ^ 4 = 2 ^ 32 from rfl,
    ← BitVec.toNat_ofNat, BitVec.ofNat_toNat, BitVec.setWidth_eq]

/-! ## The loop

Its writes go to the cells from `i` on, one a round, and never to the length
it is bounded by. -/

theorem setcsstrLoop_outside {p : Nat} {str : U16View} {x : Nat} :
    ∀ {rounds i : Nat} {m : Mem},
      x < charsAddr p + 2 * i ∨ charsAddr p + 2 * (i + rounds) ≤ x →
      setcsstrLoop p str rounds i m x = m x := by
  intro rounds
  induction rounds with
  | zero => intro i m _; rfl
  | succ rounds ih =>
      intro i m hx
      rw [setcsstrLoop]
      split
      · rw [ih (by omega), store_outside (by omega)]
      · rfl

theorem setcsstr_outside {m : Mem} {p x : Nat} {str : U16View}
    (hlen : x < lengthAddr p ∨ charsAddr p ≤ x)
    (hcells : x < charsAddr p ∨ charsAddr p + 2 * (storedLength str).toNat ≤ x) :
    setcsstr m p str x = m x := by
  rw [setcsstr]
  rw [strLength_store, setcsstrLoop_outside (by rw [Nat.zero_add]; exact hcells)]
  exact store_outside hlen

theorem strLength_setcsstr (m : Mem) (p : Nat) (str : U16View) :
    strLength (setcsstr m p str) p = storedLength str := by
  rw [setcsstr]
  rw [← strLength_congr (m := store m (lengthAddr p) 4 str.length), strLength_store]
  · rfl
  · intro x _ hx
    exact (setcsstrLoop_outside (Or.inl (by omega))).symm

theorem unitAt_setcsstr_end (m : Mem) (p : Nat) (str : U16View) :
    unitAt (setcsstr m p str) (charsAddr p) (storedLength str).toNat
      = unitAt m (charsAddr p) (storedLength str).toNat := by
  refine unitAt_congr fun x hx _ => setcsstr_outside (Or.inr ?_) (Or.inr hx)
  omega

/-! ## The form of a string -/

theorem Allocated.inForm {m p : Nat} {mem : Mem} (h : Allocated m p mem) :
    InForm m p mem mem where
  nonneg := by rw [h.1]; omega
  le := by rw [h.1]
  terminated := by rw [h.1]; exact h.2
  frame := fun _ _ => rfl

/-- One call keeps the form exactly when its view ends at a zero. -/
theorem inForm_setcsstr_iff {m p : Nat} {mem₀ mem : Mem} {str : U16View}
    (h : InForm m p mem₀ mem) :
    InForm m p mem₀ (setcsstr mem p str) ↔ EndsAtZero m p str mem := by
  have hlen := strLength_setcsstr mem p str
  refine ⟨?_, ?_⟩
  · intro h'
    have hnonneg := h'.nonneg
    have hle := h'.le
    have hzero := h'.terminated
    rw [hlen] at hnonneg hle hzero
    exact ⟨hnonneg, hle, unitAt_setcsstr_end mem p str ▸ hzero⟩
  · intro h
    obtain ⟨hnonneg, hle, hzero⟩ := h
    refine ⟨by rwa [hlen], by rwa [hlen], ?_, fun x hx => ?_⟩
    · rw [hlen, unitAt_setcsstr_end]
      exact hzero
    · rw [setcsstr_outside ?_ ?_]
      · exact h.frame x hx
      all_goals
        rw [lengthAddr, charsAddr] at hx
        simp only [lengthAddr, charsAddr]
        omega

/-- Over every finite sequence of calls on an allocated string, with views of
any lengths, the string is in form after each of them exactly when each of
them ends at a zero of the string it is called on. -/
theorem setcsstr_everywhere_iff {m p : Nat} {mem : Mem}
    (h : Allocated m p mem) (views : List U16View) :
    Run.Everywhere (setStep p) (InForm m p mem) (fun _ => False) views mem ↔
      Run.Meets (setStep p) (EndsAtZero m p) views mem := by
  refine Run.everywhere_iff_meets (fun str mem' hi => ?_) (fun _ hf => hf) h.inForm
  exact inForm_setcsstr_iff hi

/-- A string `ab`, allocated at address 0 for its two characters. -/
def abMem : Mem :=
  store (store (store (fun _ => 0) (lengthAddr 0) 4 2) (charsAddr 0) 2 0x61)
    (charsAddr 0 + 2) 2 0x62

theorem abMem_allocated : Allocated 2 0 abMem := by
  refine ⟨?_, ?_⟩ <;> decide +kernel

theorem setcsstr_everywhere_same_length :
    Run.Everywhere (setStep 0) (InForm 2 0 abMem) (fun _ => False)
      [⟨64, 2⟩, ⟨20, 2⟩] abMem :=
  (setcsstr_everywhere_iff abMem_allocated _).mpr
    ⟨by decide +kernel, fun s hs => by
      obtain rfl := Except.ok.inj hs
      exact ⟨by decide +kernel, fun _ _ => trivial⟩⟩

/-- Cut to one character, the string keeps the `b` where its zero should be. -/
theorem setcsstr_leaves_unterminated :
    Allocated 2 0 abMem ∧
      ¬ Run.Everywhere (setStep 0) (InForm 2 0 abMem) (fun _ => False)
        [⟨64, 1⟩] abMem := by
  refine ⟨abMem_allocated, fun h => ?_⟩
  have hzero := (h 1).terminated
  exact absurd hzero (by decide +kernel)

end PistolWhipHook
