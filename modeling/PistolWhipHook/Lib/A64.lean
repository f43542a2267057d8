import PistolWhipHook.Lib.Mem
import PistolWhipHook.Lib.BitFields
import PistolWhipHook.Lib.Simulation

/-!
# A machine for A64 code that is moved

A64 instructions are 32-bit words, stored little-endian. Moving code cares for
the instructions whose meaning depends on where they stand: the branches with
an immediate, the loads of a literal, `ADR` and `ADRP`. Those are decoded and
given their meaning here, with `NOP` and `BR`, which code that moves code
writes. Every other word is left to a parameter, `Arch`: what it does to the
registers and the memory, and whether it goes on or leaves for an address that
it did not take from the program counter.

Code is also spelled at the level of decoded instructions, as a list of
`Item`s: `Means m a items` says that the memory holds at `a` words that decode
so, with the literals between them.
-/

namespace A64

open ByteMem BitFields Simulation

/-- An instruction word. -/
abbrev Word := BitVec 32

/-- The 64-bit address that an address computation ends at. -/
def wrap (a : Int) : Nat := (a % 2 ^ 64).toNat

theorem wrap_eq {a : Int} {b : Nat} (h : a = b) (hb : b < 2 ^ 64) : wrap a = b := by
  rw [wrap, h]
  omega

/-! ## Words in memory -/

/-- The four bytes of a word. -/
def wordBytes (w : Word) : List UInt8 := leBytes 4 w.toNat

/-- The word at an address. -/
def fetch (m : Mem) (a : Nat) : Word := BitVec.ofNat 32 (load m a 4)

@[simp] theorem length_wordBytes (w : Word) : (wordBytes w).length = 4 :=
  length_leBytes 4 w.toNat

/-- The block at `a` is `bs`. -/
def Holds (m : Mem) (a : Nat) (bs : List UInt8) : Prop := read m a bs.length = bs

theorem Holds.fetch_eq {m : Mem} {a : Nat} {w : Word}
    (h : Holds m a (wordBytes w)) :
    fetch m a = w := by
  have hread : read m a 4 = wordBytes w := by rw [← length_wordBytes w]; exact h
  have hlt : w.toNat < 256 ^ 4 := w.isLt
  rw [fetch, load, hread, wordBytes, leNat_leBytes, Nat.mod_eq_of_lt hlt]
  simp

theorem Holds.load_eq {m : Mem} {a n v : Nat} (h : Holds m a (leBytes n v)) :
    load m a n = v % 256 ^ n := by
  rw [Holds, length_leBytes] at h
  rw [load, h, leNat_leBytes]

theorem read_add (m : Mem) (a n k : Nat) :
    read m a (n + k) = read m a n ++ read m (a + n) k := by
  refine List.ext_getElem (by simp) fun i h₁ h₂ => ?_
  rw [getElem_read, List.getElem_append]
  split
  · rw [getElem_read]
  · next hge =>
      rw [getElem_read, length_read]
      rw [length_read] at hge
      congr 1
      omega

theorem holds_append {m : Mem} {a : Nat} {bs cs : List UInt8} :
    Holds m a (bs ++ cs) ↔ Holds m a bs ∧ Holds m (a + bs.length) cs := by
  rw [Holds, List.length_append, read_add]
  constructor
  · intro h
    exact List.append_inj h (length_read m a bs.length)
  · intro ⟨hbs, hcs⟩
    rw [Holds] at hbs hcs
    rw [hbs, hcs]

theorem Holds.congr {m m' : Mem} {a : Nat} {bs : List UInt8} (h : Holds m a bs)
    (hm : ∀ x, a ≤ x → x < a + bs.length → m x = m' x) : Holds m' a bs := by
  rw [Holds, ← read_congr hm]
  exact h

theorem holds_write (m : Mem) (a : Nat) (bs : List UInt8) :
    Holds (write m a bs) a bs := read_write_same m a bs

theorem fetch_congr {m m' : Mem} {a : Nat}
    (h : ∀ x, a ≤ x → x < a + 4 → m x = m' x) : fetch m a = fetch m' a := by
  rw [fetch, fetch, load_congr h]

/-! ## Instructions -/

/-- What a literal is loaded as. -/
inductive LitKind where
  | w | x | sw | s | d | q
deriving DecidableEq

/-- How many bytes that takes. -/
def LitKind.size : LitKind → Nat
  | .w | .sw | .s => 4
  | .x | .d => 8
  | .q => 16

/-- What a conditional branch looks at: the flags, whether a register is zero,
or one bit of a register. -/
inductive Test where
  | cond (c : BitVec 4) (hinted : Bool)
  | zero (wide nonzero : Bool) (t : Nat)
  | bit (n : Nat) (set : Bool) (t : Nat)
deriving DecidableEq

/-- Not the conditional branch that is marked as consistent, `BC.cond`. -/
def Test.unhinted : Test → Prop
  | .cond _ hinted => hinted = false
  | _ => True

/-- An instruction, its offset in bytes from where it stands (`ADRP`: from the
start of that page). -/
inductive Insn where
  | nop
  | b (link : Bool) (off : Int)
  | branchIf (c : Test) (off : Int)
  | ldr (k : LitKind) (t : Nat) (off : Int)
  | prefetch
  | adr (d : Nat) (off : Int)
  | adrp (d : Nat) (off : Int)
  | br (n : Nat)
  | other (w : Word)
deriving DecidableEq

/-- The bits 31..24, which tell the encoding groups apart. -/
def top (w : Word) : BitVec 8 := w.extractLsb' 24 8

/-- A field read as a signed number. -/
def simm (w : Word) (lo len : Nat) : Int := (w.extractLsb' lo len).toInt

/-- A register field. -/
def reg (w : Word) (lo : Nat) : Nat := (w.extractLsb' lo 5).toNat

/-- The signed field of `ADR` and `ADRP`, cut in two. -/
def adrImm (w : Word) : Int := (w.extractLsb' 5 19 ++ w.extractLsb' 29 2).toInt

inductive Group where
  | branch (link : Bool)
  | branchCond
  | compareBranch (wide nonzero : Bool)
  | testBranch (high set : Bool)
  | literal (k : LitKind)
  | prefetchLit
  | adr
  | adrp
  | rest
deriving DecidableEq

/-- The encoding group of a word, by its bits 31..24. -/
def group (t : BitVec 8) : Group :=
  if t &&& 0xfc#8 = 0x14#8 then .branch false
  else if t &&& 0xfc#8 = 0x94#8 then .branch true
  else if t = 0x54#8 then .branchCond
  else if t &&& 0x7e#8 = 0x34#8 then .compareBranch (t.getLsbD 7) (t.getLsbD 0)
  else if t &&& 0x7e#8 = 0x36#8 then .testBranch (t.getLsbD 7) (t.getLsbD 0)
  else if t = 0x18#8 then .literal .w
  else if t = 0x58#8 then .literal .x
  else if t = 0x98#8 then .literal .sw
  else if t = 0xd8#8 then .prefetchLit
  else if t = 0x1c#8 then .literal .s
  else if t = 0x5c#8 then .literal .d
  else if t = 0x9c#8 then .literal .q
  else if t &&& 0x9f#8 = 0x10#8 then .adr
  else if t &&& 0x9f#8 = 0x90#8 then .adrp
  else .rest

/-- The instruction that a word of a group is. -/
def Group.decode (w : Word) : Group → Insn
  | .branch link => .b link (4 * simm w 0 26)
  | .branchCond => .branchIf (.cond (w.extractLsb' 0 4) (w.getLsbD 4))
      (4 * simm w 5 19)
  | .compareBranch wide nonzero =>
      .branchIf (.zero wide nonzero (reg w 0)) (4 * simm w 5 19)
  | .testBranch high set =>
      .branchIf (.bit ((if high then 32 else 0) + reg w 19) set (reg w 0))
        (4 * simm w 5 14)
  | .literal k => .ldr k (reg w 0) (4 * simm w 5 19)
  | .prefetchLit => .prefetch
  | .adr => .adr (reg w 0) (adrImm w)
  | .adrp => .adrp (reg w 0) (4096 * adrImm w)
  | .rest =>
      if w = 0xd503201f#32 then .nop
      else if w &&& 0xfffffc1f#32 = 0xd61f0000#32 then .br (reg w 5)
      else .other w

def decode (w : Word) : Insn := (group (top w)).decode w

theorem decode_of_group {w : Word} {g : Group} (h : group (top w) = g) :
    decode w = g.decode w := by
  rw [decode, h]

/-! ## The machine -/

/-- The registers: the general ones, the vector ones, and the rest. -/
@[ext] structure Core (ρ : Type) where
  x : Nat → Nat
  v : Nat → Nat
  rest : ρ

/-- Register 31 reads as zero. -/
def Core.getX {ρ : Type} (c : Core ρ) (r : Nat) : Nat := if r = 31 then 0 else c.x r

/-- Register 31 ignores what is written to it. -/
def Core.setX {ρ : Type} (c : Core ρ) (r v : Nat) : Core ρ :=
  if r = 31 then c else { c with x := fun i => if i = r then v else c.x i }

def Core.setV {ρ : Type} (c : Core ρ) (r v : Nat) : Core ρ :=
  { c with v := fun i => if i = r then v else c.v i }

structure Cpu (ρ : Type) where
  pc : Nat
  core : Core ρ
  mem : Mem

/-- Where an instruction that is not decoded goes on: after itself, at an
address, or at an address with the link register set. -/
inductive Flow where
  | next
  | jump (a : Nat)
  | call (a : Nat)

structure Outcome (ρ : Type) where
  core : Core ρ
  mem : Mem
  flow : Flow

/-- What is left open: the conditions of the flags, and the instructions that
are not decoded. -/
structure Arch (ρ : Type) where
  holds : BitVec 4 → ρ → Bool
  exec : Word → Core ρ → Mem → Outcome ρ

variable {ρ : Type}

def Test.passes (A : Arch ρ) (c : Core ρ) : Test → Bool
  | .cond k _ => A.holds k c.rest
  | .zero wide nonzero t =>
      ((if wide then c.getX t else c.getX t % 2 ^ 32) != 0) == nonzero
  | .bit n set t => (c.getX t).testBit n == set

/-- The load of a literal at `a` into register `t`. -/
def LitKind.load (k : LitKind) (t : Nat) (m : Mem) (a : Nat) (c : Core ρ) :
    Core ρ :=
  match k with
  | .w => c.setX t (ByteMem.load m a 4)
  | .x => c.setX t (ByteMem.load m a 8)
  | .sw => c.setX t ((BitVec.ofNat 32 (ByteMem.load m a 4)).signExtend 64).toNat
  | .s => c.setV t (ByteMem.load m a 4)
  | .d => c.setV t (ByteMem.load m a 8)
  | .q => c.setV t (ByteMem.load m a 16)

theorem LitKind.load_congr {k : LitKind} {t : Nat} {m m' : Mem} {a a' : Nat}
    {c : Core ρ} (h : read m a k.size = read m' a' k.size) :
    k.load t m a c = k.load t m' a' c := by
  cases k <;> simp only [LitKind.load, ByteMem.load, LitKind.size] at h ⊢ <;> rw [h]

/-- On to the next instruction. -/
def Cpu.next (s : Cpu ρ) : Cpu ρ := { s with pc := wrap (s.pc + 4) }

def Cpu.exec (A : Arch ρ) (s : Cpu ρ) : Insn → Cpu ρ
  | .nop => s.next
  | .b link off =>
      { s with
        pc := wrap (s.pc + off)
        core := if link then s.core.setX 30 (wrap (s.pc + 4)) else s.core }
  | .branchIf c off =>
      if c.passes A s.core then { s with pc := wrap (s.pc + off) } else s.next
  | .ldr k t off =>
      { s.next with core := k.load t s.mem (wrap (s.pc + off)) s.core }
  | .prefetch => s.next
  | .adr d off => { s.next with core := s.core.setX d (wrap (s.pc + off)) }
  | .adrp d off =>
      { s.next with
        core := s.core.setX d (wrap ((s.pc / 4096 * 4096 : Nat) + off)) }
  | .br n => { s with pc := s.core.getX n }
  | .other w =>
      let r := A.exec w s.core s.mem
      match r.flow with
      | .next => { s.next with core := r.core, mem := r.mem }
      | .jump a => { pc := a, core := r.core, mem := r.mem }
      | .call a =>
          { pc := a, core := r.core.setX 30 (wrap (s.pc + 4)), mem := r.mem }

/-- An instruction that leaves its return address in the link register. -/
def Insn.Calls (A : Arch ρ) (c : Core ρ) (m : Mem) : Insn → Prop
  | .b link _ => link = true
  | .other w => ∃ a, (A.exec w c m).flow = .call a
  | _ => False

/-- The next instruction is such a one. -/
def Cpu.Calls (A : Arch ρ) (s : Cpu ρ) : Prop :=
  (decode (fetch s.mem s.pc)).Calls A s.core s.mem

/-- One instruction. -/
def step (A : Arch ρ) (s : Cpu ρ) : Cpu ρ := s.exec A (decode (fetch s.mem s.pc))

theorem step_of_decode {A : Arch ρ} {p : Nat} {c : Core ρ} {m : Mem} {i : Insn}
    (h : decode (fetch m p) = i) : step A ⟨p, c, m⟩ = Cpu.exec A ⟨p, c, m⟩ i := by
  rw [step, h]

/-! ## Code as decoded instructions and literals -/

inductive Item where
  | insn (i : Insn)
  | data (bs : List UInt8)

def Item.size : Item → Nat
  | .insn _ => 4
  | .data bs => bs.length

/-- The memory holds at `a` code that reads `items`. -/
def Means (m : Mem) : Nat → List Item → Prop
  | _, [] => True
  | a, .insn i :: items => decode (fetch m a) = i ∧ Means m (a + 4) items
  | a, .data bs :: items => Holds m a bs ∧ Means m (a + bs.length) items

/-- How many bytes the items take. -/
def extent (items : List Item) : Nat := (items.map Item.size).sum

theorem Means.congr {m m' : Mem} {a : Nat} {items : List Item} (h : Means m a items)
    (hm : ∀ x, a ≤ x → x < a + extent items → m x = m' x) : Means m' a items := by
  induction items generalizing a with
  | nil => trivial
  | cons it items ih =>
      have hext : extent (it :: items) = it.size + extent items := by simp [extent]
      rw [hext] at hm
      cases it with
      | insn i =>
          obtain ⟨hi, hrest⟩ := h
          rw [Item.size] at hm
          refine ⟨?_, ih hrest fun x h₁ h₂ => hm x (by omega) (by omega)⟩
          rw [← fetch_congr fun x h₁ h₂ => hm x h₁ (by omega)]
          exact hi
      | data bs =>
          obtain ⟨hbs, hrest⟩ := h
          rw [Item.size] at hm
          exact ⟨hbs.congr fun x h₁ h₂ => hm x h₁ (by omega),
            ih hrest fun x h₁ h₂ => hm x (by omega) (by omega)⟩

/-- A word at the head of held bytes is the item it decodes to. -/
theorem means_word {m : Mem} {a : Nat} {w : Word} {i : Insn} {bs : List UInt8}
    {items : List Item} (h : Holds m a (wordBytes w ++ bs)) (hw : decode w = i)
    (hrest : Holds m (a + 4) bs → Means m (a + 4) items) :
    Means m a (.insn i :: items) := by
  obtain ⟨hhead, htail⟩ := holds_append.mp h
  rw [length_wordBytes] at htail
  exact ⟨by rw [hhead.fetch_eq]; exact hw, hrest htail⟩

theorem means_data {m : Mem} {a : Nat} {bs : List UInt8} (h : Holds m a bs) :
    Means m a [.data bs] := ⟨h, trivial⟩

end A64
