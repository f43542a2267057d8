import PistolWhipHook.Model.Utils

/-!
# `to_utf8` and `to_utf16` undo each other in part

Neither conversion decodes anything. One keeps the low byte of each unit, the
other widens each byte, and both stop at the first zero they made. Widening
makes a zero of nothing but a NUL, so bytes come back up to their first NUL.
Narrowing makes one of every multiple of 256, and of a unit past 255 it makes
another unit's byte.
-/

namespace PistolWhipHook

open CStr

/-- The zero put after a string does not show once the string is cut at its
first zero. -/
theorem takeWhile_snoc {α : Type} {p : α → Bool} {s : List α} {c : α}
    (hc : p c = false) : (s ++ [c]).takeWhile p = s.takeWhile p := by
  rw [List.takeWhile_append]
  split
  · next h =>
      have hs := (List.takeWhile_prefix p).eq_of_length h
      rw [List.takeWhile_cons, hc, hs]
      simp
  · rfl

theorem toUtf8_eq (view : List UInt16) :
    toUtf8 view = untilNul (view.map UInt16.toUInt8) :=
  takeWhile_snoc rfl

theorem toUtf16_eq (view : Str) :
    toUtf16 view = (untilNul view).map UInt8.toUInt16 := by
  have hzero : ((fun c : UInt16 => c != 0) ∘ UInt8.toUInt16) =
      fun c : UInt8 => c != 0 := by
    funext c
    rw [Function.comp_apply, Bool.eq_iff_iff, bne_iff_ne, bne_iff_ne, ne_eq, ne_eq,
      ← UInt16.toNat_inj, ← UInt8.toNat_inj]
    rfl
  rw [toUtf16, takeWhile_snoc rfl, List.takeWhile_map, hzero]
  rfl

theorem toUtf8_toUtf16 (b : Str) : toUtf8 (toUtf16 b) = untilNul b := by
  have hback : UInt16.toUInt8 ∘ UInt8.toUInt16 = id :=
    funext fun c => UInt8.toUInt8_toUInt16 c
  rw [toUtf8_eq, toUtf16_eq, List.map_map, hback, List.map_id]
  exact untilNul_eq_self_iff.mpr (untilNul_no_nul b)

theorem toUtf16_toUtf8 (v : List UInt16) :
    toUtf16 (toUtf8 v) = (toUtf8 v).map UInt8.toUInt16 := by
  rw [toUtf16_eq, toUtf8_eq, untilNul_eq_self_iff.mpr (untilNul_no_nul _)]

theorem toUInt8_of_latin {u : UInt16} (h : 1 ≤ u.toNat ∧ u.toNat ≤ 255) :
    u.toUInt8 ≠ 0 ∧ u.toUInt8.toUInt16 = u := by
  obtain ⟨hpos, hle⟩ := h
  have hbyte : u.toUInt8.toNat = u.toNat := by
    rw [UInt16.toNat_toUInt8]
    exact Nat.mod_eq_of_lt (by omega)
  refine ⟨fun h0 => ?_, UInt16.toNat_inj.mp hbyte⟩
  rw [h0] at hbyte
  exact absurd hbyte.symm (Nat.ne_of_gt hpos)

theorem toUtf16_toUtf8_eq_iff (v : List UInt16) :
    toUtf16 (toUtf8 v) = v ↔ ∀ u ∈ v, 1 ≤ u.toNat ∧ u.toNat ≤ 255 := by
  rw [toUtf16_toUtf8]
  refine ⟨fun h u hu => ?_, fun h => ?_⟩
  · rw [← h] at hu
    obtain ⟨c, hc, rfl⟩ := List.mem_map.mp hu
    have hne : c ≠ 0 := fun h0 => untilNul_no_nul _ (h0 ▸ hc)
    have hpos := Nat.pos_of_ne_zero fun h0 => hne (UInt8.toNat_inj.mp h0)
    have hlt := c.toNat_lt
    rw [UInt8.toNat_toUInt16]
    omega
  · have hnul : (0 : UInt8) ∉ v.map UInt16.toUInt8 := by
      intro hmem
      obtain ⟨u, hu, h0⟩ := List.mem_map.mp hmem
      exact (toUInt8_of_latin (h u hu)).1 h0
    rw [toUtf8_eq, untilNul_eq_self_iff.mpr hnul, List.map_map]
    conv_rhs => rw [← List.map_id v]
    exact List.map_congr_left fun u hu => (toUInt8_of_latin (h u hu)).2

/-- What comes back unchanged, from either side, and that a third conversion
adds nothing to the first. -/
theorem conversions_undo (v : List UInt16) (b : Str) :
    (toUtf16 (toUtf8 v) = v ↔ ∀ u ∈ v, 1 ≤ u.toNat ∧ u.toNat ≤ 255) ∧
      (toUtf8 (toUtf16 b) = b ↔ (0 : UInt8) ∉ b) ∧
        toUtf8 (toUtf16 (toUtf8 v)) = toUtf8 v := by
  refine ⟨toUtf16_toUtf8_eq_iff v, ?_, ?_⟩
  · rw [toUtf8_toUtf16, untilNul_eq_self_iff]
  · rw [toUtf8_toUtf16, toUtf8_eq]
    exact untilNul_eq_self_iff.mpr (untilNul_no_nul _)

end PistolWhipHook
