import PistolWhipHook.Lib.A64

/-!
# Runs through short sequences

What a machine does over the few sequences that moved code is made of: a row
of `NOP`s, a jump to an address that stands behind it as a literal, the same
with the link register set, a load of such an address into a register, and a
load of a literal that is jumped over afterwards.
-/

namespace A64

open ByteMem Simulation

variable {ρ : Type} {A : Arch ρ}

/-- A jump to any address, which stands behind it. -/
def farJump (a : Nat) : List Item :=
  [.insn (.ldr .x 17 8), .insn (.br 17), .data (leBytes 8 a)]

/-- The same, to come back behind the address. -/
def farCall (a : Nat) : List Item :=
  [.insn (.ldr .x 17 12), .insn (.adr 30 16), .insn (.br 17), .data (leBytes 8 a)]

/-- Any address into a register. -/
def loadAddr (d a : Nat) : List Item :=
  [.insn (.ldr .x d 8), .insn (.b false 12), .data (leBytes 8 a)]

/-- A literal that is carried along. -/
def loadCarried (k : LitKind) (t : Nat) (bs : List UInt8) : List Item :=
  [.insn (.ldr k t 8), .insn (.b false (4 + bs.length)), .data bs]

/-- A row of `NOP`s. -/
def nops (n : Nat) : List Item := List.replicate n (.insn .nop)

theorem extent_append (xs ys : List Item) :
    extent (xs ++ ys) = extent xs + extent ys := by
  simp [extent]

theorem extent_nops (n : Nat) : extent (nops n) = 4 * n := by
  simp [extent, nops, Item.size]
  omega

theorem means_append {m : Mem} {a : Nat} {xs ys : List Item} :
    Means m a (xs ++ ys) ↔ Means m a xs ∧ Means m (a + extent xs) ys := by
  induction xs generalizing a with
  | nil => simp [Means, extent]
  | cons x xs ih =>
      have hext : extent (x :: xs) = x.size + extent xs := by simp [extent]
      rw [hext, ← Nat.add_assoc]
      cases x with
      | insn i =>
          rw [List.cons_append, Means, Means, ih, Item.size, and_assoc]
      | data bs =>
          rw [List.cons_append, Means, Means, ih, Item.size, and_assoc]

/-- One step to the instruction behind. -/
theorem reaches_next {p : Nat} {c : Core ρ} (c' : Core ρ) {m : Mem} {i : Insn}
    {t : Cpu ρ} (hi : decode (fetch m p) = i) (hlt : p + 4 < 2 ^ 64)
    (hexec : Cpu.exec A ⟨p, c, m⟩ i = ⟨wrap (p + 4), c', m⟩)
    (hrun : Reaches (step A) ⟨p + 4, c', m⟩ t) : Reaches (step A) ⟨p, c, m⟩ t := by
  refine Reaches.head ?_
  rw [step_of_decode hi, hexec, wrap_eq (b := p + 4) (by omega) hlt]
  exact hrun

/-- A branch that was given its offset as the distance to `a`. -/
theorem step_b {p : Nat} {a : Int} {c : Core ρ} {m : Mem}
    (h : decode (fetch m p) = .b false (a - p)) :
    step A ⟨p, c, m⟩ = ⟨wrap a, c, m⟩ := by
  have ha : (p : Int) + (a - p) = a := by omega
  rw [step_of_decode h, Cpu.exec]
  show (⟨wrap ((p : Int) + (a - p)), c, m⟩ : Cpu ρ) = _
  rw [ha]

theorem reaches_nops {n p : Nat} {c : Core ρ} {m : Mem} (hm : Means m p (nops n))
    (hlt : p + 4 * n < 2 ^ 64) :
    Reaches (step A) ⟨p, c, m⟩ ⟨p + 4 * n, c, m⟩ := by
  induction n generalizing p with
  | zero => exact Reaches.refl _
  | succ n ih =>
      obtain ⟨hnop, hrest⟩ := hm
      have hend : p + 4 * (n + 1) = p + 4 + 4 * n := by omega
      rw [hend]
      exact reaches_next c hnop (by omega) rfl (ih hrest (by omega))

theorem getX_setX_same {c : Core ρ} {r v : Nat} (h : r ≠ 31) :
    (c.setX r v).getX r = v := by
  rw [Core.getX, Core.setX, if_neg h, if_neg h]
  exact if_pos rfl

theorem getX_setX_other {c : Core ρ} {r k v : Nat} (h : k ≠ r) :
    (c.setX r v).getX k = c.getX k := by
  rw [Core.getX, Core.getX, Core.setX]
  split
  · rfl
  · split
    · rfl
    · exact if_neg h

/-- A 64-bit address is read back whole. -/
theorem load_addr {m : Mem} {p a : Nat} (h : Holds m p (leBytes 8 a))
    (ha : a < 2 ^ 64) :
    load m p 8 = a := by
  rw [h.load_eq]
  exact Nat.mod_eq_of_lt ha

theorem reaches_farJump {p a : Nat} {c : Core ρ} {m : Mem}
    (hm : Means m p (farJump a)) (ha : a < 2 ^ 64) (hlt : p + 16 < 2 ^ 64) :
    Reaches (step A) ⟨p, c, m⟩ ⟨a, c.setX 17 a, m⟩ := by
  obtain ⟨hldr, hbr, hlit, _⟩ := hm
  have hat : wrap ((p : Int) + 8) = p + 4 + 4 := wrap_eq (by omega) (by omega)
  refine reaches_next (c.setX 17 a) hldr (by omega) ?_ ?_
  · rw [Cpu.exec, LitKind.load, hat, load_addr hlit ha]
    rfl
  · refine Reaches.step_eq ?_
    rw [step_of_decode hbr, Cpu.exec, getX_setX_same (by omega)]

theorem reaches_farCall {p a : Nat} {c : Core ρ} {m : Mem}
    (hm : Means m p (farCall a)) (ha : a < 2 ^ 64) (hlt : p + 20 < 2 ^ 64) :
    Reaches (step A) ⟨p, c, m⟩ ⟨a, (c.setX 17 a).setX 30 (p + 20), m⟩ := by
  obtain ⟨hldr, hadr, hbr, hlit, _⟩ := hm
  have hat : wrap ((p : Int) + 12) = p + 4 + 4 + 4 := wrap_eq (by omega) (by omega)
  have hret : wrap (((p + 4 : Nat) : Int) + 16) = p + 20 :=
    wrap_eq (by omega) (by omega)
  refine reaches_next (c.setX 17 a) hldr (by omega) ?_ ?_
  · rw [Cpu.exec, LitKind.load, hat, load_addr hlit ha]
    rfl
  · refine reaches_next ((c.setX 17 a).setX 30 (p + 20)) hadr (by omega) ?_ ?_
    · rw [Cpu.exec, hret]
      rfl
    · refine Reaches.step_eq ?_
      rw [step_of_decode hbr, Cpu.exec, getX_setX_other (by omega),
        getX_setX_same (by omega)]

theorem reaches_loadAddr {p d a : Nat} {c : Core ρ} {m : Mem}
    (hm : Means m p (loadAddr d a)) (ha : a < 2 ^ 64) (hlt : p + 16 < 2 ^ 64) :
    Reaches (step A) ⟨p, c, m⟩ ⟨p + 16, c.setX d a, m⟩ := by
  obtain ⟨hldr, hb, hlit, _⟩ := hm
  have hat : wrap ((p : Int) + 8) = p + 4 + 4 := wrap_eq (by omega) (by omega)
  have hend : wrap (((p + 4 : Nat) : Int) + 12) = p + 16 :=
    wrap_eq (by omega) (by omega)
  refine reaches_next (c.setX d a) hldr (by omega) ?_ ?_
  · rw [Cpu.exec, LitKind.load, hat, load_addr hlit ha]
    rfl
  · refine Reaches.step_eq ?_
    rw [step_of_decode hb, Cpu.exec, hend]
    rfl

theorem reaches_loadCarried {p t : Nat} {k : LitKind} {bs : List UInt8} {c : Core ρ}
    {m : Mem} (hm : Means m p (loadCarried k t bs))
    (hlt : p + 8 + bs.length < 2 ^ 64) :
    Reaches (step A) ⟨p, c, m⟩ ⟨p + 8 + bs.length, k.load t m (p + 8) c, m⟩ := by
  obtain ⟨hldr, hb, hlit, _⟩ := hm
  have hat : wrap ((p : Int) + 8) = p + 8 := wrap_eq (by omega) (by omega)
  have hend : wrap (((p + 4 : Nat) : Int) + (4 + bs.length)) = p + 8 + bs.length :=
    wrap_eq (by omega) hlt
  refine reaches_next (k.load t m (p + 8) c) hldr (by omega) ?_ ?_
  · rw [Cpu.exec, hat]
    rfl
  · refine Reaches.step_eq ?_
    rw [step_of_decode hb, Cpu.exec, hend]
    rfl

end A64
