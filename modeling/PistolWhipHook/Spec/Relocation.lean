import PistolWhipHook.Lib.Veneer

/-!
# Code that was moved

What it is for a block of instructions to have been copied to another place so
that the copy can be run in its stead. Nothing here is about how the copy is
made: `Relocates` says, for one decoded instruction, what code at the new
place stands for it, and `Move.Laid` that a whole block is laid out in memory
so, one instruction behind the other, each behind a row of `NOP`s, with a jump
back at the end.

The two programs run in two memories. In the one nothing was done. In the
other the copy has been written, and the block it was made of overwritten.
These two regions are hidden: outside of them the memories are the same, on
them each keeps what it had.
-/

namespace PistolWhipHook

open ByteMem A64 Simulation

/-- A block of `count` instructions at `base`, moved to the `room` bytes at
`slot`. `start i` is where what stands for instruction `i` begins, `copy i`
where its `NOP`s end. -/
structure Move where
  base : Nat
  count : Nat
  slot : Nat
  room : Nat
  before : Mem
  after : Mem
  start : Nat → Nat
  copy : Nat → Nat

namespace Move

variable (v : Move)

/-- The address is one of the block. -/
def Inside (a : Nat) : Prop := v.base ≤ a ∧ a < v.base + 4 * v.count

/-- The address is one of the block, or of the room that the copy has. -/
def Hidden (a : Nat) : Prop := v.Inside a ∨ v.slot ≤ a ∧ a < v.slot + v.room

/-- The address, computed in whole numbers, is one outside the block. -/
def Outside (a : Int) : Prop :=
  -(2 ^ 62) ≤ a ∧ a < 2 ^ 64 ∧ (a < v.base ∨ v.base + 4 * v.count ≤ a)

/-- The code that stands at `p` for an instruction that stood at `pc`. -/
inductive Relocates (pc p : Nat) : Insn → List Item → Prop where
  | nop : Relocates pc p .nop [.insn .nop]
  | br (n : Nat) : Relocates pc p (.br n) [.insn (.br n)]
  | other (w : Word) : Relocates pc p (.other w) [.insn (.other w)]
  | prefetch : Relocates pc p .prefetch []
  | branchInside (off : Int) (j : Nat) (hj : j < v.count) (hoff : pc + off =
      v.base + 4 * j) :
      Relocates pc p (.b false off) [.insn (.b false (v.copy j - p))]
  | branchNear (link : Bool) (off : Int) (hout : v.Outside (pc + off)) :
      Relocates pc p (.b link off) [.insn (.b link (pc + off - p))]
  | jumpFar (off : Int) (hout : v.Outside (pc + off)) :
      Relocates pc p (.b false off) (farJump (wrap (pc + off)))
  | callFar (off : Int) (hout : v.Outside (pc + off)) :
      Relocates pc p (.b true off) (farCall (wrap (pc + off)))
  | testInside (c : Test) (off : Int) (j : Nat) (hj : j < v.count)
      (hoff : pc + off = v.base + 4 * j) :
      Relocates pc p (.branchIf c off) [.insn (.branchIf c (v.copy j - p))]
  | testNear (c : Test) (off : Int) (hout : v.Outside (pc + off)) :
      Relocates pc p (.branchIf c off) [.insn (.branchIf c (pc + off - p))]
  | testFar (c : Test) (off : Int) (hout : v.Outside (pc + off)) :
      Relocates pc p (.branchIf c off)
        (.insn (.branchIf c 8) :: .insn (.b false 20) :: farJump (wrap (pc + off)))
  | literalNear (k : LitKind) (t : Nat) (off : Int)
      (hclear : ∀ x, wrap (pc + off) ≤ x → x < wrap (pc + off) + k.size →
        ¬ v.Hidden x) :
      Relocates pc p (.ldr k t off) [.insn (.ldr k t (pc + off - p))]
  | literalCarried (k : LitKind) (t : Nat) (off : Int) (n : Nat) (hn : k.size ≤ n) :
      Relocates pc p (.ldr k t off)
        (loadCarried k t (read v.before (wrap (pc + off)) n))
  | adrNear (d : Nat) (off : Int) :
      Relocates pc p (.adr d off) [.insn (.adr d (pc + off - p))]
  | adrFar (d : Nat) (off : Int) :
      Relocates pc p (.adr d off) (loadAddr d (wrap (pc + off)))
  | adrpFar (d : Nat) (off : Int) :
      Relocates pc p (.adrp d off)
        (loadAddr d (wrap ((pc / 4096 * 4096 : Nat) + off)))

/-- The code that stands at `p` for going on behind the block. -/
inductive Returns (p : Nat) : List Item → Prop where
  | near : Returns p [.insn (.b false ((v.base + 4 * v.count : Nat) - p))]
  | far : Returns p (farJump (v.base + 4 * v.count))

/-- The block is laid out in the room. -/
structure Laid : Prop where
  baseFits : v.base + 4 * v.count ≤ 2 ^ 63
  slotFits : v.slot + v.room ≤ 2 ^ 63
  begins : v.slot ≤ v.start 0
  insn : ∀ i < v.count, ∃ pad items,
    v.copy i = v.start i + 4 * pad ∧ v.start (i + 1) = v.copy i + extent items ∧
    Means v.after (v.start i) (nops pad ++ items) ∧
    v.Relocates (v.base + 4 * i) (v.copy i)
      (decode (fetch v.before (v.base + 4 * i))) items
  back : ∃ pad items, v.Returns (v.start v.count + 4 * pad) items ∧
    Means v.after (v.start v.count) (nops pad ++ items) ∧
    v.start v.count + 4 * pad + extent items ≤ v.slot + v.room

/-- Two memories that are one outside the hidden regions, and on those what
they were. -/
structure Twin (s t : Mem) : Prop where
  shared : ∀ a, ¬ v.Hidden a → t a = s a
  old : ∀ a, v.Hidden a → s a = v.before a
  new : ∀ a, v.Hidden a → t a = v.after a

/-- What instruction `i` must be, for the copy that is made of it to stand for
it. A branch and link leaves the block; the offset of every other form but the
plain branch is not negative; a literal does not lie in the room; an address
that is taken is not one of the block. The last conditions of a literal load
and of `ADR` are about copies made close by, less than a megabyte away. -/
def Relocatable (i : Nat) : Prop :=
  let pc := v.base + 4 * i
  match decode (fetch v.before pc) with
  | .b link off => link = true → v.Outside (pc + off)
  | .branchIf c off => 0 ≤ off ∧ c.unhinted
  | .ldr k _ off =>
      0 ≤ off ∧ (pc + off + 16 ≤ v.slot ∨ v.slot + v.room ≤ pc + off) ∧
        (k = .x ∨ k = .sw ∨ v.slot + v.room ≤ pc + off ∨ pc + off + 2 ^ 20 ≤ v.slot)
  | .adr _ off =>
      0 ≤ off ∧ v.Outside (pc + off) ∧
        (off % 4 = 0 ∨ v.slot + v.room + 2 ^ 20 ≤ pc + off ∨
          pc + off + 2 ^ 20 ≤ v.slot)
  | .adrp _ off => 0 ≤ off ∧ v.Outside ((pc / 4096 * 4096 : Nat) + off)
  | .other w => top w ≠ 0xdc#8
  | _ => True

variable {ρ : Type}

/-- What the run of the block must keep to at one instruction, for a copy to
do as well: no jump by a register back into the block, no literal that was
changed since the copy was made, and of an instruction that is not decoded
that it neither sees nor touches the hidden regions. -/
def Fit (A : Arch ρ) (s : Cpu ρ) : Prop :=
  match decode (fetch s.mem s.pc) with
  | .br n => ¬ v.Inside (s.core.getX n)
  | .ldr k _ off =>
      ∀ x, wrap (s.pc + off) ≤ x → x < wrap (s.pc + off) + k.size →
        s.mem x = v.before x
  | .other w =>
      let r := A.exec w s.core s.mem
      (∀ a, r.flow = .jump a ∨ r.flow = .call a → ¬ v.Inside a) ∧
        ∀ t, v.Twin s.mem t → (A.exec w s.core t).core = r.core ∧
          (A.exec w s.core t).flow = r.flow ∧ v.Twin r.mem (A.exec w s.core t).mem
  | _ => True

/-- The block is at an instruction, and the copy at what stands for it. -/
structure Abreast (s t : Cpu ρ) : Prop where
  at_insn : ∃ i < v.count, s.pc = v.base + 4 * i ∧
    (t.pc = v.start i ∨ t.pc = v.copy i)
  core : t.core = s.core
  twin : v.Twin s.mem t.mem

/-- Two sets of registers that differ in X17 at most. -/
structure ButX17 (c c' : Core ρ) : Prop where
  x : ∀ r, r ≠ 17 → c'.x r = c.x r
  vec : c'.v = c.v
  rest : c'.rest = c.rest

/-- The block has been left, by a call or otherwise, and the copy with it: at
the same address, with the same memory, and with the same registers but X17,
which the way out takes, and after a call X30, by which it comes back to the
copy. -/
structure Departed (called : Prop) (s t : Cpu ρ) : Prop where
  pc : t.pc = s.pc
  x : ∀ r, r ≠ 17 → r ≠ 30 → t.core.x r = s.core.x r
  link : ¬ called → t.core.x 30 = s.core.x 30
  back : called → ∃ i < v.count, s.core.x 30 = v.base + 4 * (i + 1) ∧
    t.core.x 30 = v.start (i + 1)
  vec : t.core.v = s.core.v
  rest : t.core.rest = s.core.rest
  twin : v.Twin s.mem t.mem

end Move

/-- How many bytes too far a conditional branch is taken to go when it goes
back: its field is read without the sign. -/
def overshoot : Test → Int
  | .bit _ _ _ => 2 ^ 16
  | _ => 2 ^ 21

end PistolWhipHook
