import Mathlib.Data.List.Basic
import Mathlib.Data.UInt

/-!
# UTF-8 against UTF-16, by length

A text is a list of characters. UTF-16 never takes more units for it than
UTF-8 takes bytes, and takes as many only where every character is ASCII
(`length_utf16_eq_iff`). A conversion that makes one byte out of each unit
can therefore only be right on ASCII.
-/

namespace Utf

def utf8 (cs : List Char) : List UInt8 := cs.flatMap String.utf8EncodeChar

/-- The units of a character: itself, or a surrogate pair above U+FFFF. -/
def utf16EncodeChar (c : Char) : List UInt16 :=
  if c.toNat < 0x10000 then [UInt16.ofNat c.toNat]
  else
    [UInt16.ofNat (0xD800 + (c.toNat - 0x10000) / 0x400),
      UInt16.ofNat (0xDC00 + (c.toNat - 0x10000) % 0x400)]

def utf16 (cs : List Char) : List UInt16 := cs.flatMap utf16EncodeChar

def IsAscii (c : Char) : Prop := c.toNat < 128

instance (c : Char) : Decidable (IsAscii c) := inferInstanceAs (Decidable (_ < _))

@[simp] theorem utf8_nil : utf8 [] = [] := rfl

@[simp] theorem utf16_nil : utf16 [] = [] := rfl

@[simp] theorem utf8_cons (c : Char) (cs : List Char) :
    utf8 (c :: cs) = String.utf8EncodeChar c ++ utf8 cs := rfl

@[simp] theorem utf16_cons (c : Char) (cs : List Char) :
    utf16 (c :: cs) = utf16EncodeChar c ++ utf16 cs := rfl

/-! ## One character -/

theorem utf8EncodeChar_ascii {c : Char} (h : IsAscii c) :
    String.utf8EncodeChar c = [UInt8.ofNat c.toNat] := by
  rw [String.utf8EncodeChar]
  exact if_pos (Nat.le_of_lt_succ h)

theorem utf16EncodeChar_ascii {c : Char} (h : IsAscii c) :
    utf16EncodeChar c = [UInt16.ofNat c.toNat] := by
  rw [utf16EncodeChar, if_pos (Nat.lt_trans h (by decide))]

/-- A character that is not ASCII takes two bytes at least, and four if it
takes two units. -/
theorem length_utf16EncodeChar_lt {c : Char} (h : ¬ IsAscii c) :
    (utf16EncodeChar c).length < (String.utf8EncodeChar c).length := by
  have h₁ : ¬ c.val.toNat ≤ 0x7f := fun hle => h (Nat.lt_succ_of_le hle)
  rw [String.utf8EncodeChar, utf16EncodeChar, if_neg h₁]
  show (if c.val.toNat < 0x10000 then _ else _ : List UInt16).length < _
  split
  · split
    · exact Nat.one_lt_two
    · rw [if_pos (by omega)]
      exact (by decide : 1 < 3)
  · rw [if_neg (by omega), if_neg (by omega)]
    exact (by decide : 2 < 4)

/-! ## Texts -/

theorem utf8_ascii {cs : List Char} (h : ∀ c ∈ cs, IsAscii c) :
    utf8 cs = cs.map fun c => UInt8.ofNat c.toNat := by
  induction cs with
  | nil => rfl
  | cons c cs ih =>
      rw [utf8_cons, utf8EncodeChar_ascii (h c List.mem_cons_self),
        ih fun d hd => h d (List.mem_cons_of_mem _ hd)]
      rfl

theorem utf16_ascii {cs : List Char} (h : ∀ c ∈ cs, IsAscii c) :
    utf16 cs = cs.map fun c => UInt16.ofNat c.toNat := by
  induction cs with
  | nil => rfl
  | cons c cs ih =>
      rw [utf16_cons, utf16EncodeChar_ascii (h c List.mem_cons_self),
        ih fun d hd => h d (List.mem_cons_of_mem _ hd)]
      rfl

theorem length_utf16_le (cs : List Char) :
    (utf16 cs).length ≤ (utf8 cs).length := by
  induction cs with
  | nil => exact Nat.le_refl 0
  | cons c cs ih =>
      rw [utf16_cons, utf8_cons, List.length_append, List.length_append]
      refine Nat.add_le_add ?_ ih
      by_cases h : IsAscii c
      · rw [utf8EncodeChar_ascii h, utf16EncodeChar_ascii h]
        exact Nat.le_refl 1
      · exact Nat.le_of_lt (length_utf16EncodeChar_lt h)

theorem length_utf16_eq_iff {cs : List Char} :
    (utf16 cs).length = (utf8 cs).length ↔ ∀ c ∈ cs, IsAscii c := by
  refine ⟨?_, ?_⟩
  · induction cs with
    | nil => intro _ c hc; cases hc
    | cons c cs ih =>
        intro h
        rw [utf16_cons, utf8_cons, List.length_append, List.length_append] at h
        have hle := length_utf16_le cs
        by_cases hc : IsAscii c
        · rw [utf8EncodeChar_ascii hc, utf16EncodeChar_ascii hc] at h
          intro d hd
          rcases List.mem_cons.mp hd with rfl | hd
          · exact hc
          · exact ih (Nat.add_left_cancel h) d hd
        · have hlt := length_utf16EncodeChar_lt hc
          omega
  · intro h
    rw [utf8_ascii h, utf16_ascii h, List.length_map, List.length_map]

end Utf
