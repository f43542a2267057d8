import Mathlib.Algebra.Group.Nat.Defs
import Mathlib.Data.List.Basic

/-!
# Byte-addressed memory

A memory is a total map from addresses to bytes. A block is read and written
as a list of bytes, and a scalar of `n` bytes is the little-endian reading of
such a block. Two facts carry every use of it: a block that was just written
reads back as it was written, and a block apart from it reads as it did
before. The scalar forms are those two facts under the little-endian codec.
-/

namespace ByteMem

/-- A memory: the byte held at each address. -/
abbrev Mem := Nat → UInt8

/-- The `n` bytes from address `a` on. -/
def read (m : Mem) (a n : Nat) : List UInt8 :=
  (List.range n).map fun i => m (a + i)

/-- `m` with the bytes `bs` put from address `a` on. -/
def write (m : Mem) (a : Nat) (bs : List UInt8) : Mem := fun x =>
  if x < a then m x else (bs[x - a]?).getD (m x)

/-- Two blocks, each given by address and length, have no byte in common. -/
def Apart (a n b k : Nat) : Prop := a + n ≤ b ∨ b + k ≤ a

/-- The little-endian spelling of `v` in `n` bytes. -/
def leBytes : Nat → Nat → List UInt8
  | 0, _ => []
  | n + 1, v => UInt8.ofNat v :: leBytes n (v / 256)

/-- The number a little-endian spelling denotes. -/
def leNat : List UInt8 → Nat
  | [] => 0
  | b :: bs => b.toNat + 256 * leNat bs

/-- The `n`-byte scalar at address `a`. -/
def load (m : Mem) (a n : Nat) : Nat := leNat (read m a n)

/-- `m` with the scalar `v` stored in the `n` bytes from address `a` on. -/
def store (m : Mem) (a n v : Nat) : Mem := write m a (leBytes n v)

/-! ## Blocks -/

@[simp] theorem length_read (m : Mem) (a n : Nat) : (read m a n).length = n := by
  simp [read]

theorem getElem_read {m : Mem} {a n i : Nat} (h : i < (read m a n).length) :
    (read m a n)[i] = m (a + i) := by
  simp [read]

/-- Two memories that agree on a block read it alike. -/
theorem read_congr {m m' : Mem} {a n : Nat}
    (h : ∀ x, a ≤ x → x < a + n → m x = m' x) : read m a n = read m' a n := by
  unfold read
  refine List.map_congr_left fun i hi => ?_
  have hi := List.mem_range.mp hi
  exact h (a + i) (by omega) (by omega)

theorem write_below {m : Mem} {a x : Nat} {bs : List UInt8} (h : x < a) :
    write m a bs x = m x := by
  rw [write, if_pos h]

theorem write_above {m : Mem} {a x : Nat} {bs : List UInt8}
    (h : a + bs.length ≤ x) : write m a bs x = m x := by
  rw [write, if_neg (by omega), List.getElem?_eq_none (by omega)]
  rfl

/-- Everything outside the written block is as it was. -/
theorem write_outside {m : Mem} {a x : Nat} {bs : List UInt8}
    (h : x < a ∨ a + bs.length ≤ x) : write m a bs x = m x := by
  rcases h with h | h
  · exact write_below h
  · exact write_above h

theorem write_inside {m : Mem} {a i : Nat} {bs : List UInt8}
    (h : i < bs.length) : write m a bs (a + i) = bs[i] := by
  rw [write, if_neg (by omega), Nat.add_sub_cancel_left,
    List.getElem?_eq_getElem h]
  rfl

theorem read_write_same (m : Mem) (a : Nat) (bs : List UInt8) :
    read (write m a bs) a bs.length = bs := by
  refine List.ext_getElem (by simp) fun i h₁ h₂ => ?_
  rw [getElem_read, write_inside h₂]

theorem read_write_apart {m : Mem} {a b n : Nat} {bs : List UInt8}
    (h : Apart a bs.length b n) : read (write m a bs) b n = read m b n := by
  refine read_congr fun x h₁ h₂ => write_outside ?_
  rcases h with h | h
  · exact Or.inr (by omega)
  · exact Or.inl (by omega)

/-! ## Scalars -/

@[simp] theorem length_leBytes (n v : Nat) : (leBytes n v).length = n := by
  induction n generalizing v with
  | zero => rfl
  | succ n ih => rw [leBytes, List.length_cons, ih]

theorem leNat_leBytes (n v : Nat) : leNat (leBytes n v) = v % 256 ^ n := by
  induction n generalizing v with
  | zero => rw [leBytes, leNat, Nat.pow_zero, Nat.mod_one]
  | succ n ih =>
      have hb : (UInt8.ofNat v).toNat = v % 256 := UInt8.toNat_ofNat'
      rw [leBytes, leNat, ih, hb, Nat.pow_succ', Nat.mod_mul]

theorem load_store_same (m : Mem) (a n v : Nat) :
    load (store m a n v) a n = v % 256 ^ n := by
  have h := read_write_same m a (leBytes n v)
  rw [length_leBytes] at h
  rw [load, store, h, leNat_leBytes]

theorem load_store_apart {m : Mem} {a n b k v : Nat} (h : Apart a n b k) :
    load (store m a n v) b k = load m b k := by
  rw [load, store, read_write_apart (by rw [length_leBytes]; exact h), load]

theorem load_congr {m m' : Mem} {a n : Nat}
    (h : ∀ x, a ≤ x → x < a + n → m x = m' x) : load m a n = load m' a n := by
  rw [load, load, read_congr h]

theorem store_outside {m : Mem} {a n v x : Nat} (h : x < a ∨ a + n ≤ x) :
    store m a n v x = m x :=
  write_outside (by rw [length_leBytes]; exact h)

theorem leBytes_leNat (bs : List UInt8) : leBytes bs.length (leNat bs) = bs := by
  induction bs with
  | nil => rfl
  | cons b bs ih =>
      have hb := b.toNat_lt
      have hlow : UInt8.ofNat (leNat (b :: bs)) = b := by
        refine UInt8.toNat.inj ?_
        rw [UInt8.toNat_ofNat', leNat]
        omega
      have hrest : leNat (b :: bs) / 256 = leNat bs := by
        rw [leNat]
        omega
      rw [List.length_cons, leBytes, hlow, hrest, ih]

/-- Strings of bytes of one length are told apart by what they denote. -/
theorem leNat_inj {bs bs' : List UInt8} (hlen : bs.length = bs'.length)
    (h : leNat bs = leNat bs') : bs = bs' := by
  rw [← leBytes_leNat bs, ← leBytes_leNat bs', hlen, h]

end ByteMem
