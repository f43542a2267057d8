import Mathlib.Data.BitVec
import Mathlib.Algebra.Group.Nat.Defs
import Mathlib.Algebra.Group.Int.Defs

/-!
# Fields of a machine word

An instruction word is cut into fields, and a word is built out of two others
by masks: `(y &&& m₁) ||| (w &&& m₂)`. What a field of such a word is follows
from what the two masks are on that field. The masks are literals, so the
side conditions are closed by evaluation; the words are not, and nothing here
splits them into bits.

The arithmetic half says what the usual shift tricks compute: a shift left and
an arithmetic shift right of a word give one of its fields as a signed number,
and a mask of consecutive ones followed by a shift right gives it unsigned.
-/

namespace BitFields

/-! ## Words built by masks -/

section Mix

variable {n : Nat} {y w m₁ m₂ : BitVec n}

theorem field_mix {lo len : Nat} :
    ((y &&& m₁) ||| (w &&& m₂)).extractLsb' lo len =
      (y.extractLsb' lo len &&& m₁.extractLsb' lo len) |||
        (w.extractLsb' lo len &&& m₂.extractLsb' lo len) := by
  rw [BitVec.extractLsb'_or, BitVec.extractLsb'_and, BitVec.extractLsb'_and]

/-- A field that only the first mask lets through. -/
theorem field_fst {lo len : Nat}
    (h₁ : m₁.extractLsb' lo len = BitVec.allOnes len)
    (h₂ : m₂.extractLsb' lo len = BitVec.ofNat len 0) :
    ((y &&& m₁) ||| (w &&& m₂)).extractLsb' lo len = y.extractLsb' lo len := by
  rw [field_mix, h₁, h₂, BitVec.and_allOnes, BitVec.and_zero, BitVec.or_zero]

/-- A field that only the second mask lets through. -/
theorem field_snd {lo len : Nat}
    (h₁ : m₁.extractLsb' lo len = BitVec.ofNat len 0)
    (h₂ : m₂.extractLsb' lo len = BitVec.allOnes len) :
    ((y &&& m₁) ||| (w &&& m₂)).extractLsb' lo len = w.extractLsb' lo len := by
  rw [field_mix, h₁, h₂, BitVec.and_allOnes, BitVec.and_zero, BitVec.zero_or]

end Mix

/-- The low field of a word shifted left by its position. -/
theorem field_shiftLeft {y : BitVec 32} {lo len : Nat} (h : lo + len ≤ 32) :
    (y <<< lo).extractLsb' lo len = y.extractLsb' 0 len := by
  refine BitVec.eq_of_getLsbD_eq fun i hi => ?_
  have hlt : lo + i < 32 := by omega
  have hge : ¬ lo + i < lo := by omega
  simp [hi, hlt, hge, BitVec.getLsbD_eq_getElem (by omega : i < 32)]

/-! ## Fields as numbers -/

theorem toInt_field (w : BitVec 32) (lo len : Nat) :
    (w.extractLsb' lo len).toInt = Int.bmod (w.toNat / 2 ^ lo) (2 ^ len) := by
  rw [BitVec.toInt_eq_toNat_bmod, BitVec.extractLsb'_toNat,
    Nat.shiftRight_eq_div_pow]
  push_cast
  exact Int.emod_bmod _ _

/-- A number is read back out of the field it was shifted into, as long as it
fits there. -/
theorem toInt_field_shiftLeft {v : Int} {lo len : Nat} (hw : lo + len ≤ 32)
    (hlen : 0 < len) (hlo : -2 ^ (len - 1) ≤ v) (hhi : v < 2 ^ (len - 1)) :
    ((BitVec.ofInt 32 v <<< lo).extractLsb' lo len).toInt = v := by
  have hd : 2 ^ len ∣ 2 ^ 32 := Nat.pow_dvd_pow 2 (by omega)
  have hmod : Int.bmod (BitVec.ofInt 32 v).toNat (2 ^ 32) =
      Int.bmod v (2 ^ 32) := by
    rw [← BitVec.toInt_eq_toNat_bmod, BitVec.toInt_ofInt]
  calc ((BitVec.ofInt 32 v <<< lo).extractLsb' lo len).toInt
      = Int.bmod (BitVec.ofInt 32 v).toNat (2 ^ len) := by
        rw [field_shiftLeft hw, toInt_field]
        simp
    _ = Int.bmod v (2 ^ len) := by
        rw [← Int.bmod_bmod_of_dvd hd, hmod, Int.bmod_bmod_of_dvd hd]
    _ = (BitVec.ofInt len v).toInt := (BitVec.toInt_ofInt v).symm
    _ = v := BitVec.toInt_ofInt_eq_self hlen hlo hhi

/-- A mask of consecutive ones keeps one field, in its place. -/
theorem and_field (w : BitVec 32) (lo len : Nat) {m : BitVec 32}
    (hm : m = (BitVec.allOnes len).setWidth 32 <<< lo) :
    w &&& m = (w.extractLsb' lo len).setWidth 32 <<< lo := by
  subst hm
  refine BitVec.eq_of_getLsbD_eq fun i hi => ?_
  simp only [BitVec.getLsbD_and, BitVec.getLsbD_shiftLeft, BitVec.getLsbD_setWidth,
    BitVec.getLsbD_allOnes, BitVec.getLsbD_extractLsb']
  by_cases h : i < lo
  · simp [h]
  · have hi' : lo + (i - lo) = i := by omega
    rw [hi']
    grind

theorem shiftLeft_eq_ofInt (x : BitVec 32) (k : Nat) :
    x <<< k = BitVec.ofInt 32 (2 ^ k * x.toInt) := by
  refine BitVec.eq_of_toInt_eq ?_
  rw [BitVec.toInt_shiftLeft, BitVec.toInt_ofInt, Nat.shiftLeft_eq,
    BitVec.toInt_eq_toNat_bmod, Int.mul_bmod_bmod]
  push_cast
  rw [Int.mul_comm]

/-- Clearing the two low bits, as the two shifts that do it. -/
theorem and_not_three (v : BitVec 32) : v &&& ~~~3#32 = v.sshiftRight 2 <<< 2 := by
  refine BitVec.eq_of_getLsbD_eq fun i hi => ?_
  have h3 : 3#32 = (BitVec.allOnes 2).setWidth 32 := by decide
  simp only [h3, BitVec.getLsbD_and, BitVec.getLsbD_not, BitVec.getLsbD_setWidth,
    BitVec.getLsbD_allOnes, BitVec.getLsbD_shiftLeft, BitVec.getLsbD_sshiftRight]
  grind

/-- On a multiple of four, setting low bits adds them. -/
theorem toNat_or_low {v b : BitVec 32} (hv : v.toNat % 4 = 0) (hb : b.toNat < 4) :
    (v ||| b).toNat = v.toNat + b.toNat := by
  have hor : 2 ^ 2 * (v.toNat / 4) + b.toNat = 2 ^ 2 * (v.toNat / 4) ||| b.toNat :=
    Nat.two_pow_add_eq_or_of_lt (by omega) _
  have hdiv : 2 ^ 2 * (v.toNat / 4) = v.toNat := by omega
  rw [hdiv] at hor
  rw [BitVec.toNat_or, hor]

end BitFields
