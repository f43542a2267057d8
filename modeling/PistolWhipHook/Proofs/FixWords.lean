import PistolWhipHook.Spec.Relocation
import PistolWhipHook.Model.And64InlineHook

/-!
# The words that the relocation reads and writes

`And64InlineHook.cpp` tells instructions apart by masks and computes their
targets by shifts. This file reads both as what `decode` makes of the word:
which encoding group a test admits, what the computed target is to the decoded
offset, and what a word decodes to that was put together out of an old one and
a new offset.

The targets are exact, the wrong ones too. `B` and `BL` extend the sign of
their field; the other five forms do not, so a target that lies backwards
comes out too large, by two to the width of the field or of the `uint32_t`.
-/

namespace PistolWhipHook

open ByteMem A64 BitFields

/-! ## Tests by masks -/

/-- A test of the bits 31..24 alone. -/
theorem and_eq_iff_top {w m c : Word} (a b : BitVec 8) (hm : m = a ++ 0#24)
    (hc : c = b ++ 0#24) : w &&& m = c ↔ top w &&& a = b := by
  subst hm hc
  constructor
  · intro h
    have htop := congrArg top h
    simp only [top, BitVec.extractLsb'_and, BitVec.extractLsb'_append_eq_left]
      at htop
    exact htop
  · intro h
    have hw : w = top w ++ w.extractLsb' 0 24 :=
      (@BitVec.extractLsb'_append_extractLsb' 8 24 w).symm
    rw [hw]
    show (top w ++ w.extractLsb' 0 24) &&& (a ++ 0#24) = b ++ 0#24
    rw [BitVec.and_append, h, BitVec.and_zero]

theorem top_or (x y : Word) : top (x ||| y) = top x ||| top y :=
  BitVec.extractLsb'_or

theorem top_and (x y : Word) : top (x &&& y) = top x &&& top y :=
  BitVec.extractLsb'_and

/-! ## The groups that the functions take -/

theorem group_of_b {ins : Word} (h : ins &&& 0xfc000000#32 = 0x14000000#32) :
    group (top ins) = .branch false := by
  have ht := (and_eq_iff_top 0xfc#8 0x14#8 (by decide) (by decide)).mp h
  rw [group, if_pos ht]

theorem group_of_bl {ins : Word} (h : ins &&& 0xfc000000#32 = 0x94000000#32) :
    group (top ins) = .branch true := by
  have ht := (and_eq_iff_top 0xfc#8 0x94#8 (by decide) (by decide)).mp h
  rw [group, if_neg (by rw [ht]; decide), if_pos ht]

theorem test_bcond {ins : Word} :
    ins &&& 0xff000010#32 = 0x54000000#32 ↔ top ins = 0x54#8 ∧
      ins.getLsbD 4 = false := by
  constructor
  · intro h
    have htop := congrArg top h
    have hones : top 0xff000010#32 = BitVec.allOnes 8 := by decide
    rw [top_and, hones, BitVec.and_allOnes] at htop
    have hbit := congrArg (fun x : Word => x.getLsbD 4) h
    have hset : (0xff000010#32).getLsbD 4 = true := by decide
    simp only [BitVec.getLsbD_and, hset, Bool.and_true] at hbit
    exact ⟨htop, hbit⟩
  · intro ⟨htop, hbit⟩
    have hsplit : 0xff000010#32 = 0xff000000#32 ||| 0x10#32 := by decide
    have hhigh : ins &&& 0xff000000#32 = 0x54000000#32 :=
      (and_eq_iff_top 0xff#8 0x54#8 (by decide) (by decide)).mpr
        (by rw [htop]; decide)
    have hzero : ins.extractLsb' 4 1 = 0#1 := by
      refine BitVec.eq_of_getLsbD_eq fun i hi => ?_
      have hi : i = 0 := by omega
      rw [hi, BitVec.getLsbD_extractLsb', hbit]
      simp
    have hlow : ins &&& 0x10#32 = 0#32 := by
      rw [and_field ins 4 1 (by decide), hzero]
      decide
    rw [hsplit, BitVec.and_or_distrib_left, hhigh, hlow, BitVec.or_zero]

/-- What `condMask` admits: `B.cond`, `CBZ` and `CBNZ` with one mask, `TBZ`
and `TBNZ` with the other. -/
theorem condMask_group {ins lmask : Word} (h : condMask ins = some lmask) :
    (lmask = 0xff00001f#32 ∧
      ((group (top ins) = .branchCond ∧ ins.getLsbD 4 = false) ∨
      ∃ wide nonzero, group (top ins) = .compareBranch wide nonzero)) ∨
    (lmask = 0xfff8001f#32 ∧ ∃ high set,
      group (top ins) = .testBranch high set) := by
  have hcb : ∀ t : BitVec 8, t &&& 0x7f#8 = 0x34#8 ∨ t &&& 0x7f#8 = 0x35#8 →
      group t = .compareBranch (t.getLsbD 7) (t.getLsbD 0) := by decide
  have htb : ∀ t : BitVec 8, t &&& 0x7f#8 = 0x36#8 ∨ t &&& 0x7f#8 = 0x37#8 →
      group t = .testBranch (t.getLsbD 7) (t.getLsbD 0) := by decide
  rw [condMask] at h
  split at h
  · next hb =>
      obtain ⟨ht, h4⟩ := test_bcond.mp hb
      have hg : group (top ins) = .branchCond := by rw [ht]; decide
      exact Or.inl ⟨(Option.some.inj h).symm, Or.inl ⟨hg, h4⟩⟩
  · simp only [] at h
    split at h
    · next _ hc =>
        have ht := Or.imp (and_eq_iff_top 0x7f#8 0x34#8 (by decide) (by decide)).mp
          (and_eq_iff_top 0x7f#8 0x35#8 (by decide) (by decide)).mp hc
        exact Or.inl ⟨(Option.some.inj h).symm, Or.inr ⟨_, _, hcb _ ht⟩⟩
    · split at h
      · next _ _ hc =>
          have ht :=
            Or.imp (and_eq_iff_top 0x7f#8 0x36#8 (by decide) (by decide)).mp
            (and_eq_iff_top 0x7f#8 0x37#8 (by decide) (by decide)).mp hc
          exact Or.inr ⟨(Option.some.inj h).symm, _, _, htb _ ht⟩
      · exact absurd h (by simp)

theorem group_of_prefetch {ins : Word} (h : ins &&& 0xff000000#32 = 0xd8000000#32) :
    group (top ins) = .prefetchLit := by
  have ht := (and_eq_iff_top 0xff#8 0xd8#8 (by decide) (by decide)).mp h
  have hall : 0xff#8 = BitVec.allOnes 8 := by decide
  rw [hall, BitVec.and_allOnes] at ht
  rw [ht]
  decide

/-- What `loadlitMask` admits: the literal loads, each with the mask that
keeps as much of the word as its form is told by, and the size of what is
copied less one; `LDRSW` copies eight bytes. Beside them there is the word
with the reserved size. -/
inductive LoadlitForm (t : BitVec 8) : Word → Nat → Prop where
  | w (h : t = 0x18#8) : LoadlitForm t 0xbf000000#32 3
  | x (h : t = 0x58#8) : LoadlitForm t 0xbf000000#32 7
  | s (h : t = 0x1c#8) : LoadlitForm t 0x3f000000#32 3
  | d (h : t = 0x5c#8) : LoadlitForm t 0x3f000000#32 7
  | q (h : t = 0x9c#8) : LoadlitForm t 0x3f000000#32 15
  | reserved (h : t = 0xdc#8) : LoadlitForm t 0x3f000000#32 7
  | sw (h : t = 0x98#8) : LoadlitForm t 0xff000000#32 7

/-- `loadlitMask`, by the bits 31..24 alone. -/
theorem loadlitMask_top (ins : Word) : loadlitMask ins =
    (let t := top ins
     let faligned := if t &&& 0x40#8 ≠ 0#8 then 7 else 3
     if t &&& 0xbf#8 = 0x18#8 then some (0xbf000000#32, faligned)
     else
       let faligned :=
         if faligned ≠ 7 then if t &&& 0x80#8 ≠ 0#8 then 15 else 3 else faligned
       if t &&& 0x3f#8 = 0x1c#8 then some (0x3f000000#32, faligned)
       else if t &&& 0xff#8 = 0x98#8 then some (0xff000000#32, 7)
       else none) := by
  have hzero : (0#32 : Word) = 0#8 ++ 0#24 := by decide
  have h30 : ins &&& 0x40000000#32 = 0#32 ↔ top ins &&& 0x40#8 = 0#8 :=
    and_eq_iff_top 0x40#8 0#8 (by decide) hzero
  have h31 : ins &&& 0x80000000#32 = 0#32 ↔ top ins &&& 0x80#8 = 0#8 :=
    and_eq_iff_top 0x80#8 0#8 (by decide) hzero
  have hldr : ins &&& 0xbf000000#32 = 0x18000000#32 ↔ top ins &&& 0xbf#8 = 0x18#8 :=
    and_eq_iff_top 0xbf#8 0x18#8 (by decide) (by decide)
  have hldrv : ins &&& 0x3f000000#32 = 0x1c000000#32 ↔
      top ins &&& 0x3f#8 = 0x1c#8 :=
    and_eq_iff_top 0x3f#8 0x1c#8 (by decide) (by decide)
  have hldrsw : ins &&& 0xff000000#32 = 0x98000000#32 ↔
      top ins &&& 0xff#8 = 0x98#8 :=
    and_eq_iff_top 0xff#8 0x98#8 (by decide) (by decide)
  simp only [loadlitMask, ne_eq, h30, h31, hldr, hldrv, hldrsw]

theorem loadlitMask_form {ins mask : Word} {faligned : Nat}
    (h : loadlitMask ins = some (mask, faligned)) :
    LoadlitForm (top ins) mask faligned := by
  have hldr : ∀ t : BitVec 8, t &&& 0xbf#8 = 0x18#8 → t = 0x18#8 ∨
      t = 0x58#8 := by decide
  have hldrv : ∀ t : BitVec 8, t &&& 0x3f#8 = 0x1c#8 →
      t = 0x1c#8 ∨ t = 0x5c#8 ∨ t = 0x9c#8 ∨ t = 0xdc#8 := by decide
  rw [loadlitMask_top] at h
  generalize top ins = t at h ⊢
  simp only [] at h
  split at h
  · next ht =>
      rcases hldr t ht with rfl | rfl
      · obtain ⟨rfl, rfl⟩ : 0xbf000000#32 = mask ∧ 3 = faligned := by simpa using h
        exact .w rfl
      · obtain ⟨rfl, rfl⟩ : 0xbf000000#32 = mask ∧ 7 = faligned := by simpa using h
        exact .x rfl
  · split at h
    · next _ ht =>
        rcases hldrv t ht with rfl | rfl | rfl | rfl
        · obtain ⟨rfl, rfl⟩ : 0x3f000000#32 = mask ∧ 3 = faligned := by
            simpa using h
          exact .s rfl
        · obtain ⟨rfl, rfl⟩ : 0x3f000000#32 = mask ∧ 7 = faligned := by
            simpa using h
          exact .d rfl
        · obtain ⟨rfl, rfl⟩ : 0x3f000000#32 = mask ∧ 15 = faligned := by
            simpa using h
          exact .q rfl
        · obtain ⟨rfl, rfl⟩ : 0x3f000000#32 = mask ∧ 7 = faligned := by
            simpa using h
          exact .reserved rfl
    · split at h
      · next _ _ ht =>
          have hall : 0xff#8 = BitVec.allOnes 8 := by decide
          rw [hall, BitVec.and_allOnes] at ht
          obtain ⟨rfl, rfl⟩ : 0xff000000#32 = mask ∧ 7 = faligned := by
            simpa using h
          exact .sw ht
      · exact absurd h (by simp)

theorem group_of_adr {ins : Word} (h : ins &&& 0x9f000000#32 = 0x10000000#32) :
    group (top ins) = .adr := by
  have hall : ∀ t : BitVec 8, t &&& 0x9f#8 = 0x10#8 → group t = .adr := by decide
  exact hall _ ((and_eq_iff_top 0x9f#8 0x10#8 (by decide) (by decide)).mp h)

theorem group_of_adrp {ins : Word} (h : ins &&& 0x9f000000#32 = 0x90000000#32) :
    group (top ins) = .adrp := by
  have hall : ∀ t : BitVec 8, t &&& 0x9f#8 = 0x90#8 → group t = .adrp := by decide
  exact hall _ ((and_eq_iff_top 0x9f#8 0x90#8 (by decide) (by decide)).mp h)

theorem condMask_none {ins : Word} (h : condMask ins = none) :
    ¬ (top ins = 0x54#8 ∧ ins.getLsbD 4 = false) ∧
      top ins &&& 0x7f#8 ≠ 0x34#8 ∧ top ins &&& 0x7f#8 ≠ 0x35#8 ∧
      top ins &&& 0x7f#8 ≠ 0x36#8 ∧ top ins &&& 0x7f#8 ≠ 0x37#8 := by
  rw [condMask] at h
  split at h
  · exact absurd h (by simp)
  · next hb =>
      simp only [] at h
      split at h
      · exact absurd h (by simp)
      · next hc =>
          split at h
          · exact absurd h (by simp)
          · next ht =>
              rw [test_bcond] at hb
              rw [and_eq_iff_top 0x7f#8 0x34#8 (by decide) (by decide),
                and_eq_iff_top 0x7f#8 0x35#8 (by decide) (by decide)] at hc
              rw [and_eq_iff_top 0x7f#8 0x36#8 (by decide) (by decide),
                and_eq_iff_top 0x7f#8 0x37#8 (by decide) (by decide)] at ht
              exact ⟨hb, fun h => hc (Or.inl h), fun h => hc (Or.inr h),
                fun h => ht (Or.inl h), fun h => ht (Or.inr h)⟩

/-- A word that no function takes is in the group without an offset, or it is
the one conditional branch that `condMask` passes over. -/
theorem group_of_plain {ins : Word}
    (hb : ¬ (ins &&& 0xfc000000#32 = 0x14000000#32 ∨
      ins &&& 0xfc000000#32 = 0x94000000#32))
    (hcond : condMask ins = none) (hprfm : ins &&& 0xff000000#32 ≠ 0xd8000000#32)
    (hlit : loadlitMask ins = none) (hadr : ins &&& 0x9f000000#32 ≠ 0x10000000#32)
    (hadrp : ins &&& 0x9f000000#32 ≠ 0x90000000#32) :
    group (top ins) = .rest ∨
    (group (top ins) = .branchCond ∧ ins.getLsbD 4 = true) := by
  obtain ⟨hbc, h34, h35, h36, h37⟩ := condMask_none hcond
  rw [and_eq_iff_top 0xfc#8 0x14#8 (by decide) (by decide),
    and_eq_iff_top 0xfc#8 0x94#8 (by decide) (by decide)] at hb
  rw [ne_eq, and_eq_iff_top 0xff#8 0xd8#8 (by decide) (by decide)] at hprfm
  rw [ne_eq, and_eq_iff_top 0x9f#8 0x10#8 (by decide) (by decide)] at hadr
  rw [ne_eq, and_eq_iff_top 0x9f#8 0x90#8 (by decide) (by decide)] at hadrp
  rw [loadlitMask_top] at hlit
  have hgroup : group (top ins) = .rest ∨ top ins = 0x54#8 := by
    generalize top ins = t at *
    clear hbc
    revert t
    decide +kernel
  rcases hgroup with hg | ht
  · exact Or.inl hg
  · refine Or.inr ⟨by rw [ht]; decide, ?_⟩
    by_cases h4 : ins.getLsbD 4 = true
    · exact h4
    · exact absurd ⟨ht, by simpa using h4⟩ hbc

/-! ## The targets -/

/-- A field read without its sign, which is what it is with it, or too much by
two to its width. -/
theorem toNat_field (w : Word) (lo len : Nat) :
    ((w.extractLsb' lo len).toNat : Int) =
      simm w lo len + if simm w lo len < 0 then 2 ^ len else 0 := by
  have hlt := (w.extractLsb' lo len).isLt
  have hpow : ((2 ^ len : Nat) : Int) = 2 ^ len := by push_cast; rfl
  rw [simm, BitVec.toInt_eq_toNat_cond, ← hpow]
  split <;> split <;> omega

theorem branchAddr_eq (ins : Word) (inp : Nat) :
    branchAddr ins inp = inp + 4 * simm ins 0 26 := by
  have hoff : ((ins <<< 6).sshiftRight 4).toInt = 4 * simm ins 0 26 := by
    have hlt := ins.isLt
    rw [simm, BitVec.toInt_sshiftRight, BitVec.toInt_shiftLeft, toInt_field,
      Int.shiftRight_eq_div_pow, Nat.shiftLeft_eq]
    simp only [Int.bmod_def]
    push_cast
    omega
  rw [branchAddr, hoff]

/-- The field behind a mask, shifted to count bytes. -/
theorem masked_toNat (ins : Word) {m : Word} {len : Nat}
    (hm : m = (BitVec.allOnes len).setWidth 32 <<< 5) (hlen : len ≤ 19) :
    ((ins &&& m) >>> 3).toNat = 4 * (ins.extractLsb' 5 len).toNat := by
  have hlt := (ins.extractLsb' 5 len).isLt
  have hpow : 2 ^ len ≤ 2 ^ 19 := Nat.pow_le_pow_right (by omega) hlen
  rw [and_field ins 5 len hm, BitVec.toNat_ushiftRight, BitVec.toNat_shiftLeft,
    BitVec.toNat_setWidth, Nat.shiftRight_eq_div_pow, Nat.shiftLeft_eq]
  omega

theorem condAddr_eq {ins lmask : Word} {len : Nat} (inp : Nat)
    (hm : ~~~lmask = (BitVec.allOnes len).setWidth 32 <<< 5) (hlen : len ≤ 19) :
    condAddr ins lmask inp =
      inp + 4 * simm ins 5 len + if simm ins 5 len < 0 then 4 * 2 ^ len else 0 := by
  rw [condAddr, masked_toNat ins hm hlen]
  push_cast
  rw [toNat_field]
  split <;> omega

/-- `(int32_t(ins << 8) >> 11) & ~3u`. -/
theorem shifted_imm19 (ins : Word) :
    (ins <<< 8).sshiftRight 11 &&& ~~~3#32 =
      BitVec.ofInt 32 (4 * simm ins 5 19) := by
  have hfield : ((ins <<< 8).sshiftRight 13).toInt = simm ins 5 19 := by
    have hlt := ins.isLt
    rw [simm, BitVec.toInt_sshiftRight, BitVec.toInt_shiftLeft, toInt_field,
      Int.shiftRight_eq_div_pow, Nat.shiftLeft_eq]
    simp only [Int.bmod_def]
    push_cast
    omega
  rw [and_not_three, ← BitVec.sshiftRight_add, shiftLeft_eq_ofInt, hfield]
  rfl

theorem simm_bounds (w : Word) (lo len : Nat) :
    -2 ^ (len - 1) ≤ simm w lo len ∧ simm w lo len < 2 ^ (len - 1) :=
  ⟨BitVec.le_toInt _, BitVec.toInt_lt⟩

theorem toNat_ofInt_word {v : Int} (hlo : -2 ^ 31 ≤ v) (hhi : v < 2 ^ 31) :
    ((BitVec.ofInt 32 v).toNat : Int) = v + if v < 0 then 2 ^ 32 else 0 := by
  rw [BitVec.toNat_ofInt]
  split <;> omega

theorem loadlitAddr_eq (ins : Word) (inp : Nat) :
    loadlitAddr ins inp =
      inp + 4 * simm ins 5 19 + if simm ins 5 19 < 0 then 2 ^ 32 else 0 := by
  obtain ⟨hlo, hhi⟩ := simm_bounds ins 5 19
  rw [loadlitAddr, shifted_imm19, toNat_ofInt_word (by omega) (by omega)]
  split <;> split <;> omega

theorem adrImm_eq (ins : Word) :
    adrImm ins = 4 * simm ins 5 19 + (ins.extractLsb' 29 2).toNat := by
  rw [adrImm, BitVec.toInt_append, simm]
  rfl

theorem adrImm_bounds (ins : Word) : -2 ^ 20 ≤ adrImm ins ∧ adrImm ins < 2 ^ 20 :=
  ⟨BitVec.le_toInt _, BitVec.toInt_lt⟩

theorem pcrelOffset_eq (ins : Word) :
    ((pcrelOffset ins).toNat : Int) = adrImm ins + if adrImm ins < 0 then 2 ^ 32
      else 0 := by
  obtain ⟨hlo, hhi⟩ := simm_bounds ins 5 19
  have hfour := toNat_ofInt_word (v := 4 * simm ins 5 19) (by omega) (by omega)
  have hlow : (((ins <<< 1) >>> 30 : Word).toNat) =
      (ins.extractLsb' 29 2).toNat := by
    have hlt := ins.isLt
    rw [BitVec.toNat_ushiftRight, BitVec.toNat_shiftLeft, BitVec.extractLsb'_toNat,
      Nat.shiftRight_eq_div_pow, Nat.shiftRight_eq_div_pow, Nat.shiftLeft_eq]
    omega
  have hbits := (ins.extractLsb' 29 2).isLt
  rw [pcrelOffset, shifted_imm19, toNat_or_low _ (by omega), hlow, adrImm_eq]
  · push_cast
    rw [hfour]
    split <;> split <;> omega
  · split at hfour <;> omega

theorem adrAddr_eq (ins : Word) (inp : Nat) :
    adrAddr ins inp = inp + adrImm ins + if adrImm ins < 0 then 2 ^ 32 else 0 := by
  rw [adrAddr, pcrelOffset_eq]
  omega

theorem adrpAddr_eq (ins : Word) (inp : Nat) :
    adrpAddr ins inp = (inp / 4096 * 4096 : Nat) + 4096 * adrImm ins +
      if adrImm ins < 0 then 2 ^ 32 else 0 := by
  obtain ⟨hlo, hhi⟩ := adrImm_bounds ins
  have hoff := pcrelOffset_eq ins
  have hlt := (pcrelOffset ins).isLt
  rw [adrpAddr, BitVec.toNat_shiftLeft, Nat.shiftLeft_eq]
  split at hoff <;> split <;> omega

/-! ## The words that are written -/

theorem decode_ldrX17 : decode ldrX17 = .ldr .x 17 8 := by decide
theorem decode_ldrX17Link : decode ldrX17Link = .ldr .x 17 12 := by decide
theorem decode_adrX30 : decode adrX30 = .adr 30 16 := by decide
theorem decode_brX17 : decode brX17 = .br 17 := by decide
theorem decode_a64Nop : decode a64Nop = .nop := by decide

/-- What `process_fix_map` adds is the distance in words. -/
theorem sshiftRight_two {d : Int} (hlo : -2 ^ 31 ≤ d) (hhi : d < 2 ^ 31) :
    (BitVec.ofInt 32 d).sshiftRight 2 = BitVec.ofInt 32 (d / 4) := by
  refine BitVec.eq_of_toInt_eq ?_
  have hd : (BitVec.ofInt 32 d).toInt = d :=
    BitVec.toInt_ofInt_eq_self (by omega) hlo hhi
  have hq : (BitVec.ofInt 32 (d / 4)).toInt = d / 4 :=
    BitVec.toInt_ofInt_eq_self (by omega) (by omega) (by omega)
  rw [BitVec.toInt_sshiftRight, hd, hq, Int.shiftRight_eq_div_pow]
  rfl

/-- `B` or `BL` with the offset `v`, in words. -/
def branchWord (link : Bool) (v : Int) : Word :=
  (if link then 0x94000000#32 else 0x14000000#32) |||
    (BitVec.ofInt 32 v &&& ~~~0xfc000000#32)

theorem decode_branchWord (link : Bool) {v : Int} (hlo : -2 ^ 25 ≤ v)
    (hhi : v < 2 ^ 25) :
    decode (branchWord link v) = .b link (4 * v) := by
  have hgroup : ∀ t : BitVec 8, group (0x14#8 ||| (t &&& 0x03#8)) = .branch false ∧
      group (0x94#8 ||| (t &&& 0x03#8)) = .branch true := by decide
  have hg : group (top (branchWord link v)) = .branch link := by
    rw [branchWord, top_or, top_and]
    cases link
    · exact (hgroup _).1
    · exact (hgroup _).2
  have hsimm : simm (branchWord link v) 0 26 = v := by
    have hzero : BitVec.extractLsb' 0 26 (if link then 0x94000000#32
        else 0x14000000#32) =
        0#26 := by cases link <;> decide
    have hones : BitVec.extractLsb' 0 26 (~~~0xfc000000#32) =
        BitVec.allOnes 26 := by decide
    have hfield := toInt_field_shiftLeft (v := v) (show 0 + 26 ≤ 32 by omega)
      (by omega) hlo hhi
    rw [BitVec.shiftLeft_zero] at hfield
    rw [simm, branchWord, BitVec.extractLsb'_or, BitVec.extractLsb'_and, hzero,
      hones, BitVec.and_allOnes, BitVec.zero_or, hfield]
  rw [decode_of_group hg, Group.decode, hsimm]

/-- A conditional branch with the offset `v`, in words, in place of its own. -/
def condWord (ins lmask : Word) (v : Int) : Word :=
  ((BitVec.ofInt 32 v <<< 5) &&& ~~~lmask) ||| (ins &&& lmask)

theorem condWord_eq (ins lmask : Word) (v : Int) :
    ((BitVec.ofInt 32 v <<< 5) &&& ~~~lmask) ||| (ins &&& lmask) =
      condWord ins lmask v := rfl

theorem simm_condWord (ins lmask : Word) (len : Nat) {v : Int} (hlen : 5 + len ≤ 32)
    (hpos : 0 < len) (hnew : (~~~lmask).extractLsb' 5 len = BitVec.allOnes len)
    (hold : lmask.extractLsb' 5 len = BitVec.ofNat len 0) (hlo : -2 ^ (len - 1) ≤ v)
    (hhi : v < 2 ^ (len - 1)) : simm (condWord ins lmask v) 5 len = v := by
  rw [simm, condWord, field_fst hnew hold]
  exact toInt_field_shiftLeft hlen hpos hlo hhi

/-- The fields that the mask keeps. -/
theorem field_condWord (ins lmask : Word) (v : Int) {lo len : Nat}
    (hnew : (~~~lmask).extractLsb' lo len = BitVec.ofNat len 0)
    (hold : lmask.extractLsb' lo len = BitVec.allOnes len) :
    (condWord ins lmask v).extractLsb' lo len = ins.extractLsb' lo len := by
  rw [condWord, field_snd hnew hold]

theorem getLsbD_of_field {w w' : Word} {i : Nat}
    (h : w.extractLsb' i 1 = w'.extractLsb' i 1) : w.getLsbD i = w'.getLsbD i := by
  have hbit := congrArg (fun x : BitVec 1 => x.getLsbD 0) h
  simpa using hbit

/-- A word that `condMask` takes is a conditional branch, and with another
offset in its place it is the same branch still. -/
theorem condMask_decode {ins lmask : Word} (h : condMask ins = some lmask) :
    ∃ c len, c.unhinted ∧ 14 ≤ len ∧ len ≤ 19 ∧
      ~~~lmask = (BitVec.allOnes len).setWidth 32 <<< 5 ∧
      (~~~lmask >>> 6).toNat + 1 = 2 ^ (len - 1) ∧
      decode ins = .branchIf c (4 * simm ins 5 len) ∧
      ∀ v, -2 ^ (len - 1) ≤ v → v < 2 ^ (len - 1) →
        decode (condWord ins lmask v) = .branchIf c (4 * v) := by
  rcases condMask_group h with ⟨rfl, hg⟩ | ⟨rfl, high, set, hg⟩
  · have hsimm : ∀ v, -2 ^ 18 ≤ v → v < 2 ^ 18 →
        simm (condWord ins 0xff00001f#32 v) 5 19 = v := fun v =>
      simm_condWord ins 0xff00001f#32 19 (by omega) (by omega) (by decide)
        (by decide)
    have htop : ∀ v, top (condWord ins 0xff00001f#32 v) = top ins := fun v =>
      field_condWord ins 0xff00001f#32 v (by decide) (by decide)
    rcases hg with ⟨hg, h4⟩ | ⟨wide, nonzero, hg⟩
    · have hcond : ∀ v, (condWord ins 0xff00001f#32 v).extractLsb' 0 4 =
          ins.extractLsb' 0 4 := fun v =>
        field_condWord ins 0xff00001f#32 v (by decide) (by decide)
      have hbit : ∀ v, (condWord ins 0xff00001f#32 v).getLsbD 4 = ins.getLsbD 4 :=
        fun v => getLsbD_of_field
          (field_condWord ins 0xff00001f#32 v (by decide) (by decide))
      refine ⟨.cond (ins.extractLsb' 0 4) false, 19, rfl, by omega, by omega,
        by decide, by decide, ?_, fun v hlo hhi => ?_⟩
      · rw [decode_of_group hg, Group.decode, h4]
      · rw [decode_of_group ((congrArg group (htop v)).trans hg), Group.decode,
          hcond, hbit, h4, hsimm v hlo hhi]
    · have hreg : ∀ v, reg (condWord ins 0xff00001f#32 v) 0 = reg ins 0 := fun v =>
        congrArg BitVec.toNat (field_condWord ins 0xff00001f#32 v (by decide)
          (by decide))
      refine ⟨.zero wide nonzero (reg ins 0), 19, trivial, by omega, by omega,
        by decide,
        by decide,
        ?_, fun v hlo hhi => ?_⟩
      · rw [decode_of_group hg, Group.decode]
      · rw [decode_of_group ((congrArg group (htop v)).trans hg), Group.decode,
          hreg, hsimm v hlo hhi]
  · have hsimm : ∀ v, -2 ^ 13 ≤ v → v < 2 ^ 13 →
        simm (condWord ins 0xfff8001f#32 v) 5 14 = v := fun v =>
      simm_condWord ins 0xfff8001f#32 14 (by omega) (by omega) (by decide)
        (by decide)
    have htop : ∀ v, top (condWord ins 0xfff8001f#32 v) = top ins := fun v =>
      field_condWord ins 0xfff8001f#32 v (by decide) (by decide)
    have hreg : ∀ v, reg (condWord ins 0xfff8001f#32 v) 0 = reg ins 0 := fun v =>
      congrArg BitVec.toNat (field_condWord ins 0xfff8001f#32 v (by decide)
        (by decide))
    have hbit : ∀ v, reg (condWord ins 0xfff8001f#32 v) 19 = reg ins 19 := fun v =>
      congrArg BitVec.toNat (field_condWord ins 0xfff8001f#32 v (by decide)
        (by decide))
    refine ⟨.bit ((if high then 32 else 0) + reg ins 19) set (reg ins 0), 14,
      trivial, by omega, by omega, by decide, by decide, ?_, fun v hlo hhi => ?_⟩
    · rw [decode_of_group hg, Group.decode]
    · rw [decode_of_group ((congrArg group (htop v)).trans hg), Group.decode,
        hreg, hbit, hsimm v hlo hhi]

/-- The low five bits of a word shifted left by five. -/
theorem low_shiftLeft (y : Word) : (y <<< 5).extractLsb' 0 5 = 0#5 := by
  refine BitVec.eq_of_getLsbD_eq fun i hi => ?_
  rw [BitVec.getLsbD_extractLsb', BitVec.getLsbD_shiftLeft]
  simp [hi]

/-- A literal load with the offset `v`, in words, in place of its own. Where
`mask` keeps less of the word than its form is told by, the sign of `v` can
reach the bits 30 and 31. -/
def litWord (ins mask : Word) (v : Int) : Word :=
  ((BitVec.ofInt 32 v <<< 5) &&& ~~~mask) ||| (ins &&& 0xff00001f#32)

theorem litWord_eq (ins mask : Word) (v : Int) :
    ((BitVec.ofInt 32 v <<< 5) &&& ~~~mask) ||| (ins &&& 0xff00001f#32) =
      litWord ins mask v :=
  rfl

theorem top_litWord (ins mask : Word) (v : Int) :
    top (litWord ins mask v) =
      (top (BitVec.ofInt 32 v <<< 5) &&& top (~~~mask)) ||| top ins := by
  have hones : top 0xff00001f#32 = BitVec.allOnes 8 := by decide
  rw [litWord, top_or, top_and, top_and, hones, BitVec.and_allOnes]

/-- An offset forward leaves the bits 31..24 alone. -/
theorem top_ofInt_zero {v : Int} (hlo : 0 ≤ v) (hhi : v < 2 ^ 18) :
    top (BitVec.ofInt 32 v <<< 5) = 0#8 := by
  refine BitVec.eq_of_toNat_eq ?_
  rw [top, BitVec.extractLsb'_toNat, BitVec.toNat_shiftLeft, BitVec.toNat_ofInt,
    Nat.shiftRight_eq_div_pow, Nat.shiftLeft_eq, BitVec.toNat_ofNat]
  omega

theorem decode_litWord {ins mask : Word} {k : LitKind} {v : Int}
    (hg : group (top ins) = .literal k)
    (hkeep : 0 ≤ v ∨ ∀ y : BitVec 8, (y &&& top (~~~mask)) ||| top ins = top ins)
    (hnew : (~~~mask).extractLsb' 5 19 = BitVec.allOnes 19)
    (hlo : -2 ^ 18 ≤ v) (hhi : v < 2 ^ 18) :
    decode (litWord ins mask v) = .ldr k (reg ins 0) (4 * v) := by
  have htop : top (litWord ins mask v) = top ins := by
    rw [top_litWord]
    rcases hkeep with hv | hy
    · rw [top_ofInt_zero hv hhi, BitVec.zero_and, BitVec.zero_or]
    · exact hy _
  have hsimm : simm (litWord ins mask v) 5 19 = v := by
    rw [simm, litWord, field_fst hnew (by decide)]
    exact toInt_field_shiftLeft (by omega) (by omega) hlo hhi
  have hreg : reg (litWord ins mask v) 0 = reg ins 0 := by
    have hones : (0xff00001f#32).extractLsb' 0 5 = BitVec.allOnes 5 := by decide
    rw [reg, litWord, field_mix, low_shiftLeft, hones, BitVec.zero_and,
      BitVec.zero_or, BitVec.and_allOnes, reg]
  rw [decode_of_group ((congrArg group htop).trans hg), Group.decode, hsimm, hreg]

/-- A word that `loadlitMask` takes, the reserved one apart, is a literal
load. With another offset in its place it is the same load still, unless the
offset is negative and the mask lets its sign through. -/
theorem loadlitMask_decode {ins mask : Word} {faligned : Nat}
    (h : loadlitMask ins = some (mask, faligned)) (hres : top ins ≠ 0xdc#8) :
    ∃ k, k.size ≤ faligned + 1 ∧
      decode ins = .ldr k (reg ins 0) (4 * simm ins 5 19) ∧
      ∀ v, -2 ^ 18 ≤ v → v < 2 ^ 18 → (0 ≤ v ∨ k = .x ∨ k = .sw) →
        decode (litWord ins mask v) = .ldr k (reg ins 0) (4 * v) := by
  cases loadlitMask_form h with
  | w ht =>
      have hg : group (top ins) = .literal .w := by rw [ht]; decide
      refine ⟨.w, by decide, by rw [decode_of_group hg, Group.decode],
        fun v hlo hhi hk => ?_⟩
      exact decode_litWord hg (Or.inl (by simpa using hk)) (by decide) hlo hhi
  | x ht =>
      have hg : group (top ins) = .literal .x := by rw [ht]; decide
      refine ⟨.x, by decide, by rw [decode_of_group hg, Group.decode],
        fun v hlo hhi _ => ?_⟩
      have hkeep : ∀ y : BitVec 8, (y &&& top (~~~0xbf000000#32)) ||| top ins =
          top ins := by
        rw [ht]
        decide
      exact decode_litWord hg (Or.inr hkeep) (by decide) hlo hhi
  | s ht =>
      have hg : group (top ins) = .literal .s := by rw [ht]; decide
      refine ⟨.s, by decide, by rw [decode_of_group hg, Group.decode],
        fun v hlo hhi hk => ?_⟩
      exact decode_litWord hg (Or.inl (by simpa using hk)) (by decide) hlo hhi
  | d ht =>
      have hg : group (top ins) = .literal .d := by rw [ht]; decide
      refine ⟨.d, by decide, by rw [decode_of_group hg, Group.decode],
        fun v hlo hhi hk => ?_⟩
      exact decode_litWord hg (Or.inl (by simpa using hk)) (by decide) hlo hhi
  | q ht =>
      have hg : group (top ins) = .literal .q := by rw [ht]; decide
      refine ⟨.q, by decide, by rw [decode_of_group hg, Group.decode],
        fun v hlo hhi hk => ?_⟩
      exact decode_litWord hg (Or.inl (by simpa using hk)) (by decide) hlo hhi
  | reserved ht => exact absurd ht hres
  | sw ht =>
      have hg : group (top ins) = .literal .sw := by rw [ht]; decide
      refine ⟨.sw, by decide, by rw [decode_of_group hg, Group.decode],
        fun v hlo hhi _ => ?_⟩
      have hkeep : ∀ y : BitVec 8, (y &&& top (~~~0xff000000#32)) ||| top ins =
          top ins := by
        rw [ht]
        decide
      exact decode_litWord hg (Or.inr hkeep) (by decide) hlo hhi

/-- The word with the reserved size is none of the decoded forms. -/
theorem decode_reserved {ins : Word} (h : top ins = 0xdc#8) :
    decode ins = .other ins := by
  have hg : group (top ins) = .rest := by rw [h]; decide
  have hnop : ins ≠ 0xd503201f#32 := by
    intro he
    rw [he] at h
    exact absurd h (by decide)
  have hbr : ins &&& 0xfffffc1f#32 ≠ 0xd61f0000#32 := by
    intro he
    have htop := congrArg top he
    rw [top_and, h] at htop
    exact absurd htop (by decide)
  rw [decode_of_group hg, Group.decode, if_neg hnop, if_neg hbr]

theorem loadlitMask_size {ins mask : Word} {faligned : Nat}
    (h : loadlitMask ins = some (mask, faligned)) :
    faligned = 3 ∨ faligned = 7 ∨ faligned = 15 := by
  cases loadlitMask_form h <;> omega

/-- The branch over a literal that is carried along. -/
theorem decode_branchOver {faligned : Nat}
    (h : faligned = 3 ∨ faligned = 7 ∨ faligned = 15) :
    decode (0x14000001#32 + BitVec.ofNat 32 ((faligned + 1) / 4)) =
      .b false (4 + (faligned + 1 : Nat)) := by
  rcases h with rfl | rfl | rfl <;> decide

/-- `ADR` with the offset `d` in place of its own. -/
def adrWord (ins : Word) (d : Int) : Word :=
  ((BitVec.ofInt 32 d <<< 3) &&& 0x00ffffff#32) ||| (ins &&& 0xff00001f#32)

theorem adrWord_eq (ins : Word) (d : Int) :
    ((BitVec.ofInt 32 d <<< 3) &&& 0x00ffffff#32) ||| (ins &&& 0xff00001f#32) =
      adrWord ins d := rfl

theorem decode_adrWord {ins : Word} (hg : group (top ins) = .adr)
    (hlow : ins.extractLsb' 29 2 = 0#2) {u : Int} (hlo : -2 ^ 18 ≤ u)
    (hhi : u < 2 ^ 18) :
    decode (adrWord ins (4 * u)) = .adr (reg ins 0) (4 * u) := by
  have hshift : BitVec.ofInt 32 (4 * u) <<< 3 = BitVec.ofInt 32 u <<< 5 := by
    have h4 : (BitVec.ofInt 32 (4 * u)).toInt = 4 * u :=
      BitVec.toInt_ofInt_eq_self (by omega) (by omega) (by omega)
    have h1 : (BitVec.ofInt 32 u).toInt = u :=
      BitVec.toInt_ofInt_eq_self (by omega) (by omega) (by omega)
    rw [shiftLeft_eq_ofInt, shiftLeft_eq_ofInt, h4, h1]
    congr 1
    omega
  rw [adrWord, hshift]
  generalize hw : ((BitVec.ofInt 32 u <<< 5) &&& 0x00ffffff#32) |||
    (ins &&& 0xff00001f#32) = w
  have htop : top w = top ins := by
    rw [← hw, top, field_snd (by decide) (by decide), top]
  have himm : adrImm w = 4 * u := by
    have hbits : w.extractLsb' 29 2 = 0#2 := by
      rw [← hw, field_snd (by decide) (by decide), hlow]
    have hsimm : simm w 5 19 = u := by
      rw [← hw, simm, field_fst (by decide) (by decide)]
      exact toInt_field_shiftLeft (by omega) (by omega) hlo hhi
    rw [adrImm_eq, hbits, hsimm]
    simp
  have hreg : reg w 0 = reg ins 0 := by
    have hones : (0xff00001f#32).extractLsb' 0 5 = BitVec.allOnes 5 := by decide
    rw [← hw, reg, field_mix, low_shiftLeft, hones, BitVec.zero_and, BitVec.zero_or,
      BitVec.and_allOnes, reg]
  rw [decode_of_group ((congrArg group htop).trans hg), Group.decode, himm, hreg]

/-- `LDR Xd, #0x8` for the register of an `ADR` or `ADRP`. -/
def ldrAddrWord (ins : Word) : Word :=
  0x58000000#32 ||| ((2#32 <<< 5) &&& ~~~0x9f000000#32) ||| (ins &&& 0x1f#32)

theorem decode_ldrAddrWord (ins : Word) : decode (ldrAddrWord ins) = .ldr .x
    (reg ins 0) 8 := by
  have hform : ldrAddrWord ins =
      (0x58000040#32 &&& 0xffffffe0#32) ||| (ins &&& 0x1f#32) := by
    rw [ldrAddrWord]
    congr 1
  have htop : top (ldrAddrWord ins) = 0x58#8 := by
    rw [hform, top, field_fst (by decide) (by decide)]
    decide
  have hg : group (top (ldrAddrWord ins)) = .literal .x := by rw [htop]; decide
  have hsimm : simm (ldrAddrWord ins) 5 19 = 2 := by
    rw [hform, simm, field_fst (by decide) (by decide)]
    decide
  have hreg : reg (ldrAddrWord ins) 0 = reg ins 0 := by
    rw [hform, reg, field_snd (by decide) (by decide), reg]
  rw [decode_of_group hg, Group.decode, hsimm, hreg]
  rfl

theorem decode_skipAddr : decode 0x14000003#32 = .b false 12 := by decide
theorem decode_skipFar : decode 0x14000005#32 = .b false 20 := by decide

/-! ## Where the references lead -/

/-- The address that is worked out for the target of a word, against the
machine's. A branch is right in both directions. Every other form is right
exactly when it does not go back; a conditional branch is then off by the
width of its field, the others by 2^32. -/
theorem fix_targets (ins : Word) (inp : Nat) :
    match decode ins with
    | .b _ off => branchAddr ins inp = inp + off
    | .branchIf c off => ∀ lmask, condMask ins = some lmask →
        condAddr ins lmask inp = inp + off + if off < 0 then overshoot c else 0
    | .ldr _ _ off => loadlitAddr ins inp = inp + off + if off < 0 then 2 ^ 32
        else 0
    | .adr _ off => adrAddr ins inp = inp + off + if off < 0 then 2 ^ 32 else 0
    | .adrp _ off => adrpAddr ins inp =
        (inp / 4096 * 4096 : Nat) + off + if off < 0 then 2 ^ 32 else 0
    | _ => True := by
  have hcond : ∀ {lmask : Word} {len : Nat} {d : Int},
      ~~~lmask = (BitVec.allOnes len).setWidth 32 <<< 5 → len ≤ 19 →
      d = 4 * 2 ^ len →
      condAddr ins lmask inp = inp + 4 * simm ins 5 len +
        if 4 * simm ins 5 len < 0 then d else 0 := by
    intro lmask len d hm hlen hd
    rw [condAddr_eq inp hm hlen, hd]
    split <;> split <;> omega
  rw [decode]
  cases hg : group (top ins) with
  | branch link => exact branchAddr_eq ins inp
  | branchCond =>
      intro lmask h
      rcases condMask_group h with ⟨rfl, _⟩ | ⟨_, _, _, hother⟩
      · exact hcond (by decide) (by omega) (by rfl)
      · exact absurd (hg.symm.trans hother) (by simp)
  | compareBranch wide nonzero =>
      intro lmask h
      rcases condMask_group h with ⟨rfl, _⟩ | ⟨_, _, _, hother⟩
      · exact hcond (by decide) (by omega) (by rfl)
      · exact absurd (hg.symm.trans hother) (by simp)
  | testBranch high set =>
      intro lmask h
      rcases condMask_group h with ⟨_, ⟨hother, _⟩ | ⟨_, _, hother⟩⟩ | ⟨rfl, _⟩
      · exact absurd (hg.symm.trans hother) (by simp)
      · exact absurd (hg.symm.trans hother) (by simp)
      · exact hcond (by decide) (by omega) (by rfl)
  | literal k =>
      show loadlitAddr ins inp = _
      rw [loadlitAddr_eq]
      split <;> split <;> omega
  | prefetchLit => trivial
  | adr => exact adrAddr_eq ins inp
  | adrp =>
      show adrpAddr ins inp = _
      rw [adrpAddr_eq]
      split <;> split <;> omega
  | rest =>
      by_cases hnop : ins = 0xd503201f#32
      · simp only [Group.decode, if_pos hnop]
      · by_cases hbr : ins &&& 0xfffffc1f#32 = 0xd61f0000#32
        · simp only [Group.decode, if_neg hnop, if_pos hbr]
        · simp only [Group.decode, if_neg hnop, if_neg hbr]

end PistolWhipHook
