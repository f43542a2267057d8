import PistolWhipHook.Proofs.Setcsstr

/-!
# What `setcsstr` puts into a string

The copy goes forward, one unit a round, and reads each unit when its round
comes. It is right as long as no round reads what an earlier one has written,
nor the length, which is stored before the first. A view apart from the string
is safe for that reason. So is a view of the string's own characters, because
it starts where the buffer does or later: the unit of round `i` lies at or
after cell `i`.

`Copied` is the invariant. It says of the rounds still to come that their units
are the ones the view showed before the call.
-/

namespace PistolWhipHook

open ByteMem

variable {m m₀ : Mem} {p c i : Nat} {str : U16View}

/-- The unit of round `i` is neither the length nor in a cell before `i`. -/
def U16View.Ahead (str : U16View) (p : Nat) : Prop :=
  ∀ i, i < str.length → ∀ x, str.data + 2 * i ≤ x → x < str.data + 2 * i + 2 →
    x < lengthAddr p ∨ charsAddr p + 2 * i ≤ x

theorem U16View.Apart.ahead (h : str.Apart p c) (hc : str.length ≤ c) :
    str.Ahead p := by
  intro i hi x hlo hhi
  rcases h x (by omega) (by omega) with hx | hx
  · left
    rw [lengthAddr]
    omega
  · right
    omega

theorem U16View.Inside.ahead (h : str.Inside p c) : str.Ahead p := by
  intro i _ x hlo _
  right
  have hstart := h.1
  omega

/-- After `i` rounds of a copy that began in `m₀`. -/
structure Copied (p : Nat) (str : U16View) (m₀ m : Mem) (i : Nat) : Prop where
  length : ByteMem.load m (lengthAddr p) 4 = str.length
  copied : ∀ j, j < i → unitAt m (charsAddr p) j = unitAt m₀ str.data j
  ahead : ∀ j, i ≤ j → j < str.length →
    unitAt m str.data j = unitAt m₀ str.data j

theorem storedLength_of_lt (h : str.length < 2 ^ 31) :
    storedLength str = str.length := by
  rw [storedLength, BitVec.toInt_ofNat']
  exact Int.bmod_eq_of_le (by omega) (by omega)

theorem Copied.bound (h : Copied p str m₀ m i) (hlt : str.length < 2 ^ 31) :
    strLength m p = str.length := by
  rw [strLength, h.length]
  exact storedLength_of_lt hlt

/-- Before the first round only the length has been written. -/
theorem copied_start (hv : str.Ahead p) (hlt : str.length < 2 ^ 31) :
    Copied p str m (store m (lengthAddr p) 4 str.length) 0 := by
  refine ⟨?_, fun j hj => absurd hj (Nat.not_lt_zero j), fun j _ hj => ?_⟩
  · rw [load_store_same, Nat.mod_eq_of_lt (by omega)]
  · refine unitAt_congr fun x hlo hhi => store_outside ?_
    rcases hv j hj x hlo hhi with hx | hx
    · exact Or.inl hx
    · right
      rw [lengthAddr]
      rw [charsAddr] at hx
      omega

theorem unitAt_store_same (m : Mem) (a i : Nat) (u : UInt16) :
    unitAt (store m (a + 2 * i) 2 u.toNat) a i = u := by
  have hu : u.toNat < 256 ^ 2 := u.toNat_lt
  rw [unitAt, load_store_same, Nat.mod_eq_of_lt hu, UInt16.ofNat_toNat]

theorem copied_step (hv : str.Ahead p) (hi : i < str.length)
    (h : Copied p str m₀ m i) :
    Copied p str m₀
      (store m (charsAddr p + 2 * i) 2 (unitAt m str.data i).toNat) (i + 1) := by
  refine ⟨?_, fun j hj => ?_, fun j hj hlt => ?_⟩
  · rw [load_store_apart, h.length]
    right
    rw [lengthAddr, charsAddr]
    omega
  · rcases Nat.lt_or_eq_of_le (Nat.le_of_lt_succ hj) with hj | rfl
    · rw [← h.copied j hj]
      exact unitAt_congr fun x _ hhi => store_outside (Or.inl (by omega))
    · rw [unitAt_store_same]
      exact h.ahead j (Nat.le_refl j) hi
  · rw [← h.ahead j (by omega) hlt]
    refine unitAt_congr fun x hlo hhi => store_outside ?_
    rcases hv j hlt x hlo hhi with hx | hx
    · left
      rw [lengthAddr] at hx
      rw [charsAddr]
      omega
    · exact Or.inr (by omega)

theorem copied_loop (hv : str.Ahead p) (hlt : str.length < 2 ^ 31)
    {rounds : Nat} :
    ∀ {i : Nat} {m : Mem}, i + rounds = str.length → Copied p str m₀ m i →
      Copied p str m₀ (setcsstrLoop p str rounds i m) str.length := by
  induction rounds with
  | zero =>
      intro i m hi h
      rw [setcsstrLoop, ← hi]
      exact h
  | succ rounds ih =>
      intro i m hi h
      have hbound : (i : Int) < strLength m p := by
        rw [h.bound hlt]
        omega
      rw [setcsstrLoop, if_pos hbound]
      exact ih (by omega) (copied_step hv (by omega) h)

theorem copied_setcsstr (m : Mem) (hv : str.Ahead p) (hlt : str.length < 2 ^ 31) :
    Copied p str m (setcsstr m p str) str.length := by
  have hstart := copied_start (m := m) hv hlt
  rw [setcsstr]
  refine copied_loop hv hlt ?_ hstart
  rw [hstart.bound hlt]
  omega

theorem Copied.units (h : Copied p str m₀ m str.length) :
    (csstrtostr m p).units m = str.units m₀ := by
  rw [csstrtostr, U16View.units, U16View.units, h.length]
  refine List.map_congr_left fun i hi => ?_
  exact h.copied i (List.mem_range.mp hi)

/-- A view that fits is copied, be it apart from the string or inside its
buffer. -/
theorem setcsstr_copies (m : Mem) (hc : str.length ≤ c)
    (hlt : str.length < 2 ^ 31) (hv : str.Apart p c ∨ str.Inside p c) :
    Copies p c str m (setcsstr m p str) := by
  have hahead : str.Ahead p := by
    rcases hv with hv | hv
    · exact hv.ahead hc
    · exact hv.ahead
  refine ⟨(copied_setcsstr m hahead hlt).units, fun i hi _ => ?_⟩
  refine unitAt_congr fun x hlo _ => setcsstr_outside ?_ ?_
  · exact Or.inr (by omega)
  · right
    rw [storedLength_of_lt hlt]
    omega

/-- The string `ab` set to its own last character. -/
theorem setcsstr_copies_own_tail :
    Copies 0 3 ⟨22, 1⟩ abMem (setcsstr abMem 0 ⟨22, 1⟩) :=
  setcsstr_copies abMem (by decide) (by decide)
    (Or.inr ⟨by decide, by decide⟩)

end PistolWhipHook
