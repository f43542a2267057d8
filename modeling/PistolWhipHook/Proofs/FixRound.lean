import PistolWhipHook.Proofs.FixEmit

/-!
# What a round writes stands for the instruction

`Serves` says what the piece of one round is good for, whatever the word was:
it is whole words, nine at most, and what waits in it waits for an instruction
further on. And where the word is one that can be moved, the piece is, once
settled, code that `Relocates` admits for it. There is one theorem for each of
the four functions of the source and one for the words that none of them
takes; each goes through the ways on that its function has.
-/

namespace PistolWhipHook

open ByteMem A64

/-- The move that is being made, as it stands before round `i`. -/
structure AtRound (v : Move) (i : Nat) (s : FixState) : Prop where
  lt : i < v.count
  inp : s.inp = v.base + 4 * i
  basep : s.ctx.basep = v.base
  endp : s.ctx.endp = (v.base : Int) + 4 * v.count
  ins : ∀ j, j < i → (s.ctx.dat j).ins = v.copy j
  mem : ∀ x, x < v.slot ∨ v.slot + v.room ≤ x → s.mem x = v.before x
  baseAligned : v.base % 4 = 0
  baseFits : v.base + 4 * v.count ≤ 2 ^ 62
  slotFits : v.slot + v.room ≤ 2 ^ 62
  apart : v.base + 4 * v.count ≤ v.slot ∨ v.slot + v.room ≤ v.base
  room : v.room ≤ 2 ^ 12
  fits : v.slot ≤ s.outp ∧ s.outp + 36 ≤ v.slot + v.room
  spread : ∀ j, j < v.count → v.copy j % 4 = 0 ∧ v.slot ≤ v.copy j ∧
    v.copy j ≤ v.slot + v.room

/-- The settled piece is code that stands for the instruction. -/
def Stands (v : Move) (i : Nat) (p : Piece) : Prop :=
  ∃ items, extent items = p.body.raw.length ∧
    v.Relocates (v.base + 4 * i) (v.copy i)
      (decode (fetch v.before (v.base + 4 * i))) items ∧
    ∀ m, Holds m (v.copy i) (p.body.settled v.copy (v.copy i)) →
      Means m (v.copy i) items

structure Serves (s : FixState) (p : Piece) : Prop where
  small : p.size ≤ 36
  whole : p.size % 4 = 0
  refs : ∀ w ref ls ad, p.body = .waits w ref ls ad →
    p.pad = 0 ∧ s.currentIdx < ref ∧ s.ctx.basep + 4 * ref < s.ctx.endp
  stands : ∀ v i, AtRound v i s → v.copy i = s.outp + 4 * p.pad → v.Relocatable i →
    Stands v i p

section

variable {v : Move} {i : Nat} {s : FixState}

theorem AtRound.currentIdx (h : AtRound v i s) : s.currentIdx = i := by
  rw [FixState.currentIdx, Context.getRefInsIndex, h.inp, h.basep]
  omega

theorem AtRound.fetch_eq (h : AtRound v i s) :
    fetch s.mem s.inp = fetch v.before (v.base + 4 * i) := by
  rw [h.inp]
  have hlt := h.lt
  refine fetch_congr fun x h₁ h₂ => h.mem x ?_
  rcases h.apart with ha | ha <;> omega

theorem AtRound.inside_iff (h : AtRound v i s) (a : Int) :
    s.ctx.isInFixingRange a = true ↔ (v.base : Int) ≤ a ∧
      a < v.base + 4 * v.count := by
  rw [Context.isInFixingRange, h.basep, h.endp]
  simp

theorem AtRound.outside (h : AtRound v i s) {a : Int}
    (ha : ¬ s.ctx.isInFixingRange a = true)
    (hlo : -(2 ^ 62) ≤ a) (hhi : a < 2 ^ 64) : v.Outside a := by
  rw [h.inside_iff] at ha
  exact ⟨hlo, hhi, by omega⟩

/-- The index of a reference into the block. -/
theorem AtRound.ref_eq (h : AtRound v i s) {a : Int}
    (ha : s.ctx.isInFixingRange a = true)
    (h4 : (a - v.base) % 4 = 0) :
    s.ctx.getRefInsIndex a < v.count ∧
    a = v.base + 4 * (s.ctx.getRefInsIndex a : Int) := by
  rw [h.inside_iff] at ha
  rw [Context.getRefInsIndex, h.basep]
  omega

/-- Where a reference back goes, or one of an instruction to itself. -/
theorem AtRound.ins_eq (h : AtRound v i s) {ref : Nat} (href : ref ≤ i)
    (hcopy : v.copy i = s.outp) :
    (if ref = i then s.outp else (s.ctx.dat ref).ins) = v.copy ref := by
  split
  · next he => rw [he, hcopy]
  · exact h.ins ref (by omega)

/-- A distance between copies is one that every form of branch reaches. -/
theorem AtRound.near (h : AtRound v i s) {j : Nat} (hj : j < v.count) :
    4 * (((v.copy j : Int) - v.copy i) / 4) = (v.copy j : Int) - v.copy i ∧
      -2 ^ 12 ≤ (v.copy j : Int) - v.copy i ∧
      (v.copy j : Int) - v.copy i ≤ 2 ^ 12 := by
  obtain ⟨hi4, hilo, hihi⟩ := h.spread i h.lt
  obtain ⟨hj4, hjlo, hjhi⟩ := h.spread j hj
  have hroom := h.room
  omega

end

/-- A reference waits for an instruction that is one of the block. -/
theorem ref_in_range {c : Context} {a : Int} (ha : c.isInFixingRange a = true) :
    c.basep + 4 * (c.getRefInsIndex a : Int) < c.endp := by
  rw [Context.isInFixingRange, Bool.and_eq_true, decide_eq_true_eq,
    decide_eq_true_eq] at ha
  rw [Context.getRefInsIndex]
  omega

/-- The same for the word that an unaligned address is in. -/
theorem ref_below {c : Context} {a : Int} (ha : c.isInFixingRange a = true) :
    c.basep + 4 * (c.getRefInsIndex (a / 4 * 4) : Int) < c.endp := by
  rw [Context.isInFixingRange, Bool.and_eq_true, decide_eq_true_eq,
    decide_eq_true_eq] at ha
  rw [Context.getRefInsIndex]
  omega

/-- A piece with nothing in it that waits. -/
theorem serves_code {s : FixState} {pad : Nat} {bs : List UInt8}
    (hsmall : 4 * pad + bs.length ≤ 36) (hwhole : bs.length % 4 = 0)
    (hstands : ∀ v i, AtRound v i s → v.copy i = s.outp + 4 * pad →
      v.Relocatable i → Stands v i { pad, body := .code bs }) :
    Serves s { pad, body := .code bs } := by
  refine ⟨hsmall, ?_, fun w ref ls ad hw => absurd hw (by simp), hstands⟩
  show (4 * pad + bs.length) % 4 = 0
  omega

/-- A single word that is settled. -/
theorem serves_word {s : FixState} {pad : Nat} {w : Word} (hpad : pad ≤ 8)
    (hstands : ∀ v i, AtRound v i s → v.copy i = s.outp + 4 * pad →
      v.Relocatable i → Stands v i { pad, body := .code (wordBytes w) }) :
    Serves s { pad, body := .code (wordBytes w) } := by
  refine serves_code ?_ ?_ hstands
  · rw [length_wordBytes]
    omega
  · rw [length_wordBytes]

/-- A single word that waits for an instruction further on in the block. -/
theorem serves_waits {s : FixState} {w : Word} {ref ls : Nat} {ad : Word}
    (hnext : s.currentIdx < ref) (hlast : s.ctx.basep + 4 * ref < s.ctx.endp)
    (hstands : ∀ v i, AtRound v i s → v.copy i = s.outp → v.Relocatable i →
      Stands v i { pad := 0, body := .waits w ref ls ad }) :
    Serves s { pad := 0, body := .waits w ref ls ad } := by
  refine ⟨by simp [Piece.size, Body.raw], by simp [Piece.size, Body.raw],
    fun w' ref' ls' ad' hw => ?_, hstands⟩
  obtain ⟨_, rfl, _⟩ := Body.waits.inj hw
  exact ⟨rfl, hnext, hlast⟩

/-- The two orders in which a function can end. -/
theorem advance_processFixMap (s : FixState) (k : Nat) :
    (s.processFixMap k).advance = s.advance.processFixMap k := rfl

section

variable {m : Mem} {p : Nat}

theorem means_one {w : Word} {i : Insn} (h : Holds m p (wordBytes w))
    (hw : decode w = i) :
    Means m p [.insn i] :=
  ⟨by rw [h.fetch_eq]; exact hw, trivial⟩

/-- `LDR X17, #0x8`, `BR X17` and the address. -/
def jumpBytes (a : Nat) : List UInt8 :=
  wordBytes ldrX17 ++ (wordBytes brX17 ++ leBytes 8 a)

/-- `LDR X17, #12`, `ADR X30, #16`, `BR X17` and the address. -/
def callBytes (a : Nat) : List UInt8 :=
  wordBytes ldrX17Link ++ (wordBytes adrX30 ++ (wordBytes brX17 ++ leBytes 8 a))

theorem emit_jumpBytes (s : FixState) (a : Int) :
    ((s.emitWord ldrX17).emitWord brX17).emitAddr a =
      s.emit (jumpBytes (wrap a)) := by
  simp only [FixState.emitWord, FixState.emitAddr, emit_emit, List.append_assoc,
    jumpBytes]

theorem emit_callBytes (s : FixState) (a : Int) :
    (((s.emitWord ldrX17Link).emitWord adrX30).emitWord brX17).emitAddr a =
      s.emit (callBytes (wrap a)) := by
  simp only [FixState.emitWord, FixState.emitAddr, emit_emit, List.append_assoc,
    callBytes]

theorem length_jumpBytes (a : Nat) : (jumpBytes a).length = 16 := by
  simp [jumpBytes]

theorem length_callBytes (a : Nat) : (callBytes a).length = 20 := by
  simp [callBytes]

theorem means_jumpBytes {a : Nat} (h : Holds m p (jumpBytes a)) :
    Means m p (farJump a) :=
  means_word h decode_ldrX17 fun h => means_word h decode_brX17 fun h =>
    means_data h

theorem means_callBytes {a : Nat} (h : Holds m p (callBytes a)) :
    Means m p (farCall a) :=
  means_word h decode_ldrX17Link fun h => means_word h decode_adrX30 fun h =>
    means_word h decode_brX17 fun h => means_data h

end

/-! ## `B` and `BL` -/

theorem branchWord_eq {opc : Word} {link : Bool}
    (h : opc = if link then 0x94000000#32 else 0x14000000#32) (v : Int) :
    opc ||| (BitVec.ofInt 32 v &&& ~~~0xfc000000#32) = branchWord link v := by
  rw [h, branchWord]

/-- A branch that waited has the offset it would have been given at once. -/
theorem fixed_branchWord (link : Bool) {p q : Nat} (hlo : -2 ^ 31 ≤ (q : Int) - p)
    (hhi : (q : Int) - p < 2 ^ 31) :
    FixInfo.fixed { bp := p, ls := 0, ad := 0x03ffffff#32 } q (branchWord link 0) =
      branchWord link (((q : Int) - p) / 4) := by
  have hmask : ~~~0xfc000000#32 = 0x03ffffff#32 := by decide
  have hzero : BitVec.ofInt 32 0 &&& 0x03ffffff#32 = 0#32 := by decide
  rw [FixInfo.fixed, sshiftRight_two hlo hhi, BitVec.shiftLeft_zero, branchWord,
    branchWord, hmask, hzero, BitVec.or_zero]

/-- The word is a `B` or `BL`, with its offset. -/
theorem decode_branch {ins : Word} {link : Bool}
    (h : ins &&& 0xfc000000#32 = if link then 0x94000000#32 else 0x14000000#32) :
    decode ins = .b link (4 * simm ins 0 26) := by
  cases link with
  | false => rw [decode_of_group (group_of_b h), Group.decode]
  | true => rw [decode_of_group (group_of_bl h), Group.decode]

section

variable {v : Move} {i : Nat} {s : FixState} {link : Bool}

/-- The target of a `B` or `BL`, as the machine has it. -/
theorem AtRound.branchAddr_eq (h : AtRound v i s) :
    branchAddr (fetch s.mem s.inp) s.inp =
      (v.base + 4 * i : Nat) + 4 * simm (fetch s.mem s.inp) 0 26 := by
  rw [PistolWhipHook.branchAddr_eq, h.inp]

/-- A branch into the block, whether it was settled at once or had to wait. -/
theorem stands_branch_inside (h : AtRound v i s) (hcopy : v.copy i = s.outp)
    (hopc : fetch s.mem s.inp &&& 0xfc000000#32 =
      if link then 0x94000000#32 else 0x14000000#32)
    (hin : s.ctx.isInFixingRange (branchAddr (fetch s.mem s.inp) s.inp) = true)
    (hrel : v.Relocatable i) {j : Nat}
    (hj : j = s.ctx.getRefInsIndex (branchAddr (fetch s.mem s.inp) s.inp))
    {b : Body} (hb : b = .code (wordBytes
      (branchWord link (((v.copy j : Int) - s.outp) / 4))) ∨
      b = .waits (branchWord link 0) j 0 0x03ffffff#32) :
    Stands v i { pad := 0, body := b } := by
  have hdec := decode_branch hopc
  have haddr := h.branchAddr_eq
  have hbase := h.baseAligned
  obtain ⟨hlt, htarget⟩ := h.ref_eq hin (by rw [haddr]; omega)
  rw [← hj] at hlt htarget
  rw [haddr] at htarget
  obtain ⟨hfour, hlo, hhi⟩ := h.near hlt
  rw [h.fetch_eq] at hdec htarget
  have hplain : link = false := by
    by_cases hl : link = true
    · simp only [Move.Relocatable, hdec] at hrel
      obtain ⟨_, _, hout⟩ := hrel hl
      omega
    · simpa using hl
  subst hplain
  have hraw : b.raw.length = 4 := by rcases hb with rfl | rfl <;> simp [Body.raw]
  have hsettled : b.settled v.copy (v.copy i) =
      wordBytes (branchWord false (((v.copy j : Int) - v.copy i) / 4)) := by
    rcases hb with rfl | rfl
    · rw [Body.settled, hcopy]
    · rw [Body.settled, fixed_branchWord false (by omega) (by omega)]
  refine ⟨[.insn (.b false (v.copy j - v.copy i))], by rw [hraw]; rfl, ?_,
    fun m hm => ?_⟩
  · rw [hdec]
    exact .branchInside _ j hlt htarget
  · rw [hsettled] at hm
    refine means_one hm ?_
    rw [decode_branchWord false (by omega) (by omega), hfour]

theorem AtRound.branch_outside (h : AtRound v i s)
    (hin : ¬ s.ctx.isInFixingRange (branchAddr (fetch s.mem s.inp) s.inp) = true) :
    v.Outside ((v.base + 4 * i : Nat) + 4 * simm (fetch s.mem s.inp) 0 26) := by
  have hfits := h.baseFits
  have hlt := h.lt
  obtain ⟨hlo, hhi⟩ := simm_bounds (fetch s.mem s.inp) 0 26
  rw [← h.branchAddr_eq]
  refine h.outside hin ?_ ?_ <;> rw [h.branchAddr_eq] <;> omega

theorem stands_branch_near (h : AtRound v i s)
    (hopc : fetch s.mem s.inp &&& 0xfc000000#32 =
      if link then 0x94000000#32 else 0x14000000#32)
    (hin : ¬ s.ctx.isInFixingRange (branchAddr (fetch s.mem s.inp) s.inp) = true)
    (hcopy : v.copy i = s.outp) {d : Int}
    (hd : d = (branchAddr (fetch s.mem s.inp) s.inp - s.outp) / 4)
    (hnear : d.natAbs < 0x1ffffff) :
    Stands v i { pad := 0, body := .code (wordBytes (branchWord link d)) } := by
  have hdec := decode_branch hopc
  have haddr := h.branchAddr_eq
  have hout := h.branch_outside hin
  have hbase := h.baseAligned
  have hcopy4 := (h.spread i h.lt).1
  rw [h.fetch_eq] at hdec haddr hout hd
  refine ⟨[.insn (.b link ((v.base + 4 * i : Nat) +
    4 * simm (fetch v.before (v.base + 4 * i)) 0 26 - v.copy i))], rfl, ?_,
    fun m hm => ?_⟩
  · rw [hdec]
    exact .branchNear link _ hout
  · have hoff : 4 * d = (v.base + 4 * i : Nat) +
        4 * simm (fetch v.before (v.base + 4 * i)) 0 26 - v.copy i := by omega
    refine means_one hm ?_
    rw [decode_branchWord link (by omega) (by omega), hoff]

theorem stands_branch_far (h : AtRound v i s) {pad : Nat}
    (hopc : fetch s.mem s.inp &&& 0xfc000000#32 =
      if link then 0x94000000#32 else 0x14000000#32)
    (hin : ¬ s.ctx.isInFixingRange (branchAddr (fetch s.mem s.inp) s.inp) = true) :
    Stands v i
      { pad
        body := .code
          (if link then callBytes (wrap (branchAddr (fetch s.mem s.inp) s.inp))
            else jumpBytes (wrap (branchAddr (fetch s.mem s.inp) s.inp))) } := by
  have hdec := decode_branch hopc
  have haddr := h.branchAddr_eq
  have hout := h.branch_outside hin
  rw [haddr]
  rw [h.fetch_eq] at hdec hout ⊢
  cases link with
  | false =>
      refine ⟨farJump _, rfl, ?_, fun m hm => means_jumpBytes hm⟩
      rw [hdec]
      exact .jumpFar _ hout
  | true =>
      refine ⟨farCall _, rfl, ?_, fun m hm => means_callBytes hm⟩
      rw [hdec]
      exact .callFar _ hout

end

theorem fixBranchImm_round {s s' : FixState} (h : fixBranchImm s = some s') :
    ∃ s₁, s' = s₁.advance.processFixMap s.currentIdx ∧
      ∃ p, Emits s.currentIdx s s₁ p ∧ Serves s p := by
  rw [fixBranchImm] at h
  simp only [] at h
  split at h
  · next hopc =>
      obtain rfl := Option.some.inj h
      refine ⟨_, rfl, ?_⟩
      obtain ⟨link, hopc⟩ : ∃ link : Bool, fetch s.mem s.inp &&& 0xfc000000#32 =
          if link then 0x94000000#32 else 0x14000000#32 := by
        rcases hopc with h | h
        · exact ⟨false, h⟩
        · exact ⟨true, h⟩
      have hfirst : (fetch s.mem s.inp &&& 0xfc000000#32 = 0x14000000#32) ↔
          link = false := by
        rw [hopc]
        cases link <;> decide
      simp only [FixState.getAndSetCurrentIndex, reset_outp, reset_inp,
        reset_inside, reset_ref, hfirst, branchWord_eq hopc]
      by_cases hin : s.ctx.isInFixingRange
        (branchAddr (fetch s.mem s.inp) s.inp) = true
      · simp only [hin, Bool.not_true, Bool.false_and, if_true,
          Bool.false_eq_true, if_false]
        obtain ⟨b, hemit, hb⟩ := emits_refer s.currentIdx s
          (s.ctx.getRefInsIndex (branchAddr (fetch s.mem s.inp) s.inp))
          0 0x03ffffff#32
          (fun off => branchWord link (off / 4))
        refine ⟨_, hemit, ?_⟩
        rcases hb with ⟨href, rfl⟩ | ⟨href, rfl⟩
        · refine serves_word (Nat.zero_le 8) fun v i hr hcopy hrel => ?_
          rw [hr.currentIdx] at href
          refine stands_branch_inside hr hcopy hopc hin hrel rfl (Or.inl ?_)
          rw [hr.currentIdx, hr.ins_eq href hcopy]
        · refine serves_waits href (ref_in_range hin) fun v i hr hcopy hrel => ?_
          exact stands_branch_inside hr hcopy hopc hin hrel rfl (Or.inr rfl)
      · simp only [hin, Bool.not_false, Bool.true_and, Bool.false_eq_true, if_false]
        split
        · split
          · next hl =>
              rw [emit_jumpBytes]
              refine ⟨_, emits_aligned s.currentIdx _ s _, ?_⟩
              refine serves_code ?_ ?_ fun v i hr hcopy hrel => ?_
              · rw [length_jumpBytes]
                split <;> omega
              · rw [length_jumpBytes]
              · subst hl
                exact stands_branch_far hr hopc hin
          · next hl =>
              rw [emit_callBytes]
              refine ⟨_, emits_aligned s.currentIdx _ s _, ?_⟩
              refine serves_code ?_ ?_ fun v i hr hcopy hrel => ?_
              · rw [length_callBytes]
                split <;> omega
              · rw [length_callBytes]
              · obtain rfl : link = true := by simpa using hl
                exact stands_branch_far hr hopc hin
        · next hnear =>
            refine ⟨_, emits_code s.currentIdx s _, ?_⟩
            refine serves_word (Nat.zero_le 8) fun v i hr hcopy hrel => ?_
            exact stands_branch_near hr hopc hin hcopy rfl (by simpa using hnear)
  · exact absurd h (by simp)

/-! ## The conditional branches -/

/-- A branch that waited has the offset it would have been given at once. -/
theorem fixed_condWord (ins lmask : Word) {p q : Nat}
    (hlo : -2 ^ 31 ≤ (q : Int) - p) (hhi : (q : Int) - p < 2 ^ 31) :
    FixInfo.fixed { bp := p, ls := 5, ad := ~~~lmask } q (condWord ins lmask 0) =
      condWord ins lmask (((q : Int) - p) / 4) := by
  have hzero : (BitVec.ofInt 32 0 <<< 5) &&& ~~~lmask = 0#32 := by simp
  rw [FixInfo.fixed, sshiftRight_two hlo hhi, condWord, condWord, hzero,
    BitVec.zero_or, BitVec.or_comm]

/-- A branch over a branch, and a jump to any address. -/
def testBytes (w : Word) (a : Nat) : List UInt8 :=
  wordBytes w ++ (wordBytes 0x14000005#32 ++ jumpBytes a)

theorem emit_testBytes (s : FixState) (w : Word) (a : Int) :
    ((((s.emitWord w).emitWord 0x14000005#32).emitWord ldrX17).emitWord
      brX17).emitAddr a =
      s.emit (testBytes w (wrap a)) := by
  rw [emit_jumpBytes]
  simp only [FixState.emitWord, emit_emit, List.append_assoc, testBytes]

theorem length_testBytes (w : Word) (a : Nat) : (testBytes w a).length = 24 := by
  simp [testBytes, length_jumpBytes]

section

variable {v : Move} {i : Nat} {s : FixState} {lmask : Word} {c : Test} {len : Nat}

/-- The target of a conditional branch that does not go back, as the machine
has it. -/
theorem AtRound.condAddr_eq (h : AtRound v i s) (hlen : len ≤ 19)
    (hmask : ~~~lmask = (BitVec.allOnes len).setWidth 32 <<< 5)
    (hpos : 0 ≤ 4 * simm (fetch s.mem s.inp) 5 len) :
    condAddr (fetch s.mem s.inp) lmask s.inp =
      (v.base + 4 * i : Nat) + 4 * simm (fetch s.mem s.inp) 5 len := by
  rw [PistolWhipHook.condAddr_eq s.inp hmask hlen, if_neg (by omega), h.inp,
    Int.add_zero]

/-- A conditional branch that can be moved is one, and does not go back. -/
theorem AtRound.cond_forward (h : AtRound v i s)
    (hdec : decode (fetch s.mem s.inp) =
      .branchIf c (4 * simm (fetch s.mem s.inp) 5 len))
    (hrel : v.Relocatable i) : 0 ≤ 4 * simm (fetch s.mem s.inp) 5 len := by
  rw [h.fetch_eq] at hdec ⊢
  simp only [Move.Relocatable, hdec] at hrel
  exact hrel.1

theorem AtRound.cond_outside (h : AtRound v i s) (hlen : len ≤ 19)
    (hmask : ~~~lmask = (BitVec.allOnes len).setWidth 32 <<< 5)
    (hpos : 0 ≤ 4 * simm (fetch s.mem s.inp) 5 len)
    (hin : ¬ s.ctx.isInFixingRange
      (condAddr (fetch s.mem s.inp) lmask s.inp) = true) :
    v.Outside ((v.base + 4 * i : Nat) + 4 * simm (fetch s.mem s.inp) 5 len) := by
  have hfits := h.baseFits
  have hlt := h.lt
  have hhi := (simm_bounds (fetch s.mem s.inp) 5 len).2
  have hpow : (2 : Int) ^ (len - 1) ≤ 2 ^ 18 := by
    exact_mod_cast Nat.pow_le_pow_right (by omega) (show len - 1 ≤ 18 by omega)
  rw [← h.condAddr_eq hlen hmask hpos]
  refine h.outside hin ?_ ?_ <;> rw [h.condAddr_eq hlen hmask hpos] <;> omega

/-- A branch into the block, whether it was settled at once or had to wait. -/
theorem stands_cond_inside (h : AtRound v i s) (hcopy : v.copy i = s.outp)
    (hmask : condMask (fetch s.mem s.inp) = some lmask)
    (hin : s.ctx.isInFixingRange (condAddr (fetch s.mem s.inp) lmask s.inp) = true)
    (hrel : v.Relocatable i) {j : Nat}
    (hj : j = s.ctx.getRefInsIndex (condAddr (fetch s.mem s.inp) lmask s.inp))
    {b : Body} (hb : b = .code (wordBytes (condWord (fetch s.mem s.inp) lmask
        (((v.copy j : Int) - s.outp) / 4))) ∨
      b = .waits (condWord (fetch s.mem s.inp) lmask 0) j 5 (~~~lmask)) :
    Stands v i { pad := 0, body := b } := by
  obtain ⟨c, len, _, hmin, hlen, hones, _, hdec, hword⟩ := condMask_decode hmask
  have hpos := h.cond_forward hdec hrel
  have haddr := h.condAddr_eq hlen hones hpos
  have hbase := h.baseAligned
  obtain ⟨hlt, htarget⟩ := h.ref_eq hin (by rw [haddr]; omega)
  rw [← hj] at hlt htarget
  rw [haddr] at htarget
  obtain ⟨hfour, hlo, hhi⟩ := h.near hlt
  have hpow : (2 : Int) ^ 13 ≤ 2 ^ (len - 1) := by
    exact_mod_cast Nat.pow_le_pow_right (by omega) (show 13 ≤ len - 1 by omega)
  have hraw : b.raw.length = 4 := by rcases hb with rfl | rfl <;> simp [Body.raw]
  have hsettled : b.settled v.copy (v.copy i) =
      wordBytes (condWord (fetch s.mem s.inp) lmask
        (((v.copy j : Int) - v.copy i) / 4)) := by
    rcases hb with rfl | rfl
    · rw [Body.settled, hcopy]
    · rw [Body.settled, fixed_condWord _ _ (by omega) (by omega)]
  refine ⟨[.insn (.branchIf c (v.copy j - v.copy i))], by rw [hraw]; rfl, ?_,
    fun m hm => ?_⟩
  · rw [← h.fetch_eq, hdec]
    exact .testInside c _ j hlt htarget
  · rw [hsettled] at hm
    refine means_one hm ?_
    rw [hword _ (by omega) (by omega), hfour]

theorem stands_cond_near (h : AtRound v i s) (hcopy : v.copy i = s.outp)
    (hmask : condMask (fetch s.mem s.inp) = some lmask)
    (hin : ¬ s.ctx.isInFixingRange
      (condAddr (fetch s.mem s.inp) lmask s.inp) = true)
    (hrel : v.Relocatable i) {d : Int}
    (hd : d = (condAddr (fetch s.mem s.inp) lmask s.inp - s.outp) / 4)
    (hnear : d.natAbs < (~~~lmask >>> 6).toNat) :
    Stands v i
      { pad := 0
        body := .code (wordBytes (condWord (fetch s.mem s.inp) lmask d)) } := by
  obtain ⟨c, len, _, hmin, hlen, hones, hreach, hdec, hword⟩ :=
    condMask_decode hmask
  have hpos := h.cond_forward hdec hrel
  have hout := h.cond_outside hlen hones hpos hin
  have hbase := h.baseAligned
  have hcopy4 := (h.spread i h.lt).1
  rw [h.condAddr_eq hlen hones hpos] at hd
  have hoff : 4 * d = (v.base + 4 * i : Nat) + 4 * simm (fetch s.mem s.inp) 5 len -
      v.copy i := by omega
  have hreach : ((~~~lmask >>> 6).toNat : Int) + 1 = 2 ^ (len - 1) := by
    exact_mod_cast hreach
  refine ⟨[.insn (.branchIf c ((v.base + 4 * i : Nat) +
    4 * simm (fetch s.mem s.inp) 5 len - v.copy i))], rfl, ?_, fun m hm => ?_⟩
  · rw [← h.fetch_eq, hdec]
    exact .testNear c _ hout
  · refine means_one hm ?_
    rw [hword d (by omega) (by omega), hoff]

theorem stands_cond_far (h : AtRound v i s) {pad : Nat}
    (hmask : condMask (fetch s.mem s.inp) = some lmask)
    (hin : ¬ s.ctx.isInFixingRange
      (condAddr (fetch s.mem s.inp) lmask s.inp) = true)
    (hrel : v.Relocatable i) :
    Stands v i
      { pad
        body := .code (testBytes (condWord (fetch s.mem s.inp) lmask 2)
          (wrap (condAddr (fetch s.mem s.inp) lmask s.inp))) } := by
  obtain ⟨c, len, _, hmin, hlen, hones, _, hdec, hword⟩ := condMask_decode hmask
  have hpos := h.cond_forward hdec hrel
  have hout := h.cond_outside hlen hones hpos hin
  have hpow : (2 : Int) ^ 13 ≤ 2 ^ (len - 1) := by
    exact_mod_cast Nat.pow_le_pow_right (by omega) (show 13 ≤ len - 1 by omega)
  rw [h.condAddr_eq hlen hones hpos]
  refine ⟨.insn (.branchIf c 8) :: .insn (.b false 20) ::
    farJump (wrap ((v.base + 4 * i : Nat) + 4 * simm (fetch s.mem s.inp) 5 len)),
    ?_, ?_, fun m hm => ?_⟩
  · rw [Body.raw, length_testBytes]
    rfl
  · rw [← h.fetch_eq, hdec]
    exact .testFar c _ hout
  · refine means_word hm (hword 2 (by omega) (by omega)) fun hm => ?_
    exact means_word hm decode_skipFar fun hm => means_jumpBytes hm

end

theorem fixCondCompTestBranch_round {s s' : FixState}
    (h : fixCondCompTestBranch s = some s') :
    ∃ s₁, s' = s₁.advance.processFixMap s.currentIdx ∧
      ∃ p, Emits s.currentIdx s s₁ p ∧ Serves s p := by
  rw [fixCondCompTestBranch] at h
  simp only [] at h
  split at h
  · exact absurd h (by simp)
  · next lmask hmask =>
      obtain rfl := Option.some.inj h
      refine ⟨_, rfl, ?_⟩
      have htwo : 2#32 = BitVec.ofInt 32 2 := by decide
      simp only [FixState.getAndSetCurrentIndex, reset_outp, reset_inp,
        reset_inside, reset_ref, htwo, condWord_eq]
      by_cases hin : s.ctx.isInFixingRange
        (condAddr (fetch s.mem s.inp) lmask s.inp) = true
      · simp only [hin, Bool.not_true, Bool.false_and, if_true,
          Bool.false_eq_true, if_false]
        obtain ⟨b, hemit, hb⟩ := emits_refer s.currentIdx s
          (s.ctx.getRefInsIndex (condAddr (fetch s.mem s.inp) lmask s.inp))
          5 (~~~lmask)
          (fun off => condWord (fetch s.mem s.inp) lmask (off / 4))
        refine ⟨_, hemit, ?_⟩
        rcases hb with ⟨href, rfl⟩ | ⟨href, rfl⟩
        · refine serves_word (Nat.zero_le 8) fun v i hr hcopy hrel => ?_
          rw [hr.currentIdx] at href
          refine stands_cond_inside hr hcopy hmask hin hrel rfl (Or.inl ?_)
          rw [hr.currentIdx, hr.ins_eq href hcopy]
        · refine serves_waits href (ref_in_range hin) fun v i hr hcopy hrel => ?_
          exact stands_cond_inside hr hcopy hmask hin hrel rfl (Or.inr rfl)
      · simp only [hin, Bool.not_false, Bool.true_and, Bool.false_eq_true, if_false]
        split
        · rw [emit_testBytes]
          refine ⟨_, emits_aligned s.currentIdx _ s _, ?_⟩
          refine serves_code ?_ ?_ fun v i hr _ hrel =>
            stands_cond_far hr hmask hin hrel
          · rw [length_testBytes]
            split <;> omega
          · rw [length_testBytes]
        · next hnear =>
            refine ⟨_, emits_code s.currentIdx s _, ?_⟩
            refine serves_word (Nat.zero_le 8) fun v i hr hcopy hrel => ?_
            exact stands_cond_near hr hcopy hmask hin hrel rfl
              (by simpa using hnear)

/-! ## The literal loads -/

theorem emit_nil (s : FixState) : s.emit [] = s := by
  have hmem : write s.mem s.outp [] = s.mem := by
    funext x
    exact write_outside (by simp; omega)
  rw [FixState.emit, hmem]
  rfl

/-- The `NOP`s in front of a literal that is carried along: as few as align
it, which from a word's address is three at most. -/
theorem padCopy_eq (s : FixState) {faligned : Nat}
    (hf : faligned = 3 ∨ faligned = 7 ∨ faligned = 15) (halign : s.outp % 4 = 0) :
    ∃ j ≤ 3, s.padCopy faligned 4 = s.emit (nopBytes j) ∧
      (s.outp + 4 * j + 8) % (faligned + 1) = 0 := by
  have hrun : ∀ n (s : FixState), ∃ j ≤ n, s.padCopy faligned n =
      s.emit (nopBytes j) ∧
      (∀ k < j, (s.outp + 4 * k + 8) % (faligned + 1) ≠ 0) ∧
      (j < n → (s.outp + 4 * j + 8) % (faligned + 1) = 0) := by
    intro n
    induction n with
    | zero => exact fun s => ⟨0, by omega, (emit_nil s).symm, by omega, by omega⟩
    | succ n ih =>
        intro s
        rw [FixState.padCopy]
        split
        · next hne =>
            obtain ⟨j, hj, heq, hbefore, hlast⟩ := ih (s.emitWord a64Nop)
            have hout : (s.emitWord a64Nop).outp = s.outp + 4 := by
              show s.outp + (wordBytes a64Nop).length = _
              rw [length_wordBytes]
            rw [hout] at hbefore hlast
            refine ⟨j + 1, by omega, ?_, fun k hk => ?_, fun hlt => ?_⟩
            · rw [heq, FixState.emitWord, emit_emit, nopBytes_succ]
            · cases k with
              | zero => exact hne
              | succ k =>
                  have := hbefore k (by omega)
                  rw [show s.outp + 4 * (k + 1) + 8 =
                    s.outp + 4 + 4 * k + 8 by omega]
                  exact this
            · rw [show s.outp + 4 * (j + 1) + 8 = s.outp + 4 + 4 * j + 8 by omega]
              exact hlast (by omega)
        · next heq =>
            exact ⟨0, by omega, (emit_nil s).symm, by omega,
              fun _ => by simpa using heq⟩
  obtain ⟨j, hj, heq, hbefore, hlast⟩ := hrun 4 s
  have h3 : j ≤ 3 := by
    by_cases h : j = 4
    · have h0 := hbefore 0 (by omega)
      have h1 := hbefore 1 (by omega)
      have h2 := hbefore 2 (by omega)
      have h3 := hbefore 3 (by omega)
      rcases hf with rfl | rfl | rfl <;> omega
    · omega
  exact ⟨j, h3, heq, hlast (by omega)⟩

/-- The `NOP`s in front of a literal load that stays one: fewer than the words
of the literal. -/
theorem padNear_eq (s : FixState) (a : Int) {faligned : Nat}
    (hf : faligned = 3 ∨ faligned = 7 ∨ faligned = 15) :
    ∃ j, 4 * j + 3 ≤ faligned ∧
      s.padNear a (faligned / 4) 4 = s.emit (nopBytes j) := by
  have hrun : ∀ n (s : FixState), ∃ j ≤ n, s.padNear a (faligned / 4) n =
      s.emit (nopBytes j) ∧
      (∀ k < j, (a - s.outp - 4 * k) / 4 % ((faligned / 4 : Nat) + 1) ≠ 0) := by
    intro n
    induction n with
    | zero => exact fun s => ⟨0, by omega, (emit_nil s).symm, by omega⟩
    | succ n ih =>
        intro s
        rw [FixState.padNear]
        split
        · next hne =>
            obtain ⟨j, hj, heq, hbefore⟩ := ih (s.emitWord a64Nop)
            have hout : (s.emitWord a64Nop).outp = s.outp + 4 := by
              show s.outp + (wordBytes a64Nop).length = _
              rw [length_wordBytes]
            rw [hout] at hbefore
            refine ⟨j + 1, by omega, ?_, fun k hk => ?_⟩
            · rw [heq, FixState.emitWord, emit_emit, nopBytes_succ]
            · cases k with
              | zero => simpa using hne
              | succ k =>
                  have := hbefore k (by omega)
                  rw [show a - s.outp - 4 * ((k + 1 : Nat) : Int) =
                    a - ((s.outp + 4 : Nat) : Int) - 4 * k by push_cast; omega]
                  exact this
        · exact ⟨0, by omega, (emit_nil s).symm, by omega⟩
  obtain ⟨j, hj, heq, hbefore⟩ := hrun 4 s
  refine ⟨j, ?_, heq⟩
  by_cases hle : 4 * j + 3 ≤ faligned
  · exact hle
  · -- among as many words in a row as the literal has, one is aligned
    have hround : ∀ k ≤ faligned / 4,
        (a - s.outp - 4 * k) / 4 % ((faligned / 4 : Nat) + 1) ≠ 0 := fun k hk =>
      hbefore k (by omega)
    rcases hf with rfl | rfl | rfl
    · have h0 := hround 0 (by omega)
      omega
    · have h0 := hround 0 (by omega)
      have h1 := hround 1 (by omega)
      omega
    · have h0 := hround 0 (by omega)
      have h1 := hround 1 (by omega)
      have h2 := hround 2 (by omega)
      have h3 := hround 3 (by omega)
      omega

/-- A literal load of the bytes that stand behind a branch over them. -/
def carriedBytes (w : Word) (faligned : Nat) (lit : List UInt8) : List UInt8 :=
  wordBytes w ++ (wordBytes
    (0x14000001#32 + BitVec.ofNat 32 ((faligned + 1) / 4)) ++ lit)

theorem emit_carriedBytes (s : FixState) (w : Word) (faligned : Nat)
    (lit : List UInt8) :
    ((s.emitWord w).emitWord
      (0x14000001#32 + BitVec.ofNat 32 ((faligned + 1) / 4))).emit lit =
      s.emit (carriedBytes w faligned lit) := by
  simp only [FixState.emitWord, emit_emit, List.append_assoc, carriedBytes]

theorem length_carriedBytes (w : Word) (faligned : Nat) (lit : List UInt8) :
    (carriedBytes w faligned lit).length = 8 + lit.length := by
  simp [carriedBytes]
  omega

/-- Bytes written from `outp` on change nothing outside the room. -/
theorem AtRound.emit_mem {v : Move} {i : Nat} {s s' : FixState} (h : AtRound v i s)
    (bs : List UInt8) (hs : s'.mem = write s.mem s.outp bs)
    (hlen : bs.length ≤ 36) (x : Nat)
    (hx : x < v.slot ∨ v.slot + v.room ≤ x) : s'.mem x = v.before x := by
  have hfits := h.fits
  rw [hs, write_outside (by omega)]
  exact h.mem x hx

section

variable {v : Move} {i : Nat} {s : FixState} {mask : Word} {faligned : Nat}
    {k : LitKind}

theorem AtRound.not_reserved (h : AtRound v i s) (hrel : v.Relocatable i) :
    top (fetch s.mem s.inp) ≠ 0xdc#8 := by
  intro htop
  have hdec := decode_reserved htop
  rw [h.fetch_eq] at hdec htop
  simp only [Move.Relocatable, hdec] at hrel
  exact hrel htop

/-- A literal load that can be moved does not load from before itself. -/
theorem AtRound.lit_forward (h : AtRound v i s) {ins : Word} {r : Nat}
    (hins : fetch s.mem s.inp = ins)
    (hdec : decode ins = .ldr k r (4 * simm ins 5 19))
    (hrel : v.Relocatable i) :
    ∃ off : Int, off = 4 * simm ins 5 19 ∧ 0 ≤ off ∧ off < 2 ^ 20 ∧
      loadlitAddr ins s.inp = (v.base + 4 * i : Nat) + off ∧
      ((v.base + 4 * i : Nat) + off + 16 ≤ v.slot ∨
        v.slot + v.room ≤ (v.base + 4 * i : Nat) + off) ∧
      (k = .x ∨ k = .sw ∨ v.slot + v.room ≤ (v.base + 4 * i : Nat) + off ∨
        (v.base + 4 * i : Nat) + off + 2 ^ 20 ≤ v.slot) := by
  have hbound := (simm_bounds ins 5 19).2
  simp only [Move.Relocatable, ← h.fetch_eq, hins, hdec] at hrel
  obtain ⟨hpos, hroom, hclose⟩ := hrel
  refine ⟨_, rfl, hpos, by omega, ?_, hroom, hclose⟩
  rw [loadlitAddr_eq, h.inp, if_neg (by omega), Int.add_zero]

theorem stands_lit_carried (h : AtRound v i s) {pad : Nat} {ins : Word}
    (hins : fetch s.mem s.inp = ins)
    (hmask : loadlitMask ins = some (mask, faligned))
    (hrel : v.Relocatable i) {m : Mem}
    (hm : ∀ x, x < v.slot ∨ v.slot + v.room ≤ x → m x = v.before x) :
    Stands v i
      { pad
        body := .code (carriedBytes (litWord ins mask 2) faligned
          (read m (wrap (loadlitAddr ins s.inp)) (faligned + 1))) } := by
  have hres := h.not_reserved hrel
  rw [hins] at hres
  have hsize := loadlitMask_size hmask
  obtain ⟨k, hk, hdec, hword⟩ := loadlitMask_decode hmask hres
  obtain ⟨off, hoff, hpos, hhi, haddr, hroom, _⟩ := h.lit_forward hins hdec hrel
  have hfits := h.baseFits
  have hlt := h.lt
  have hwrap : wrap ((v.base + 4 * i : Nat) + off) = v.base + 4 * i + off.toNat :=
    wrap_eq (by omega) (by omega)
  have hread : read m (wrap ((v.base + 4 * i : Nat) + off)) (faligned + 1) =
      read v.before (wrap ((v.base + 4 * i : Nat) + off)) (faligned + 1) := by
    refine read_congr fun x h₁ h₂ => hm x ?_
    rw [hwrap] at h₁ h₂
    omega
  rw [haddr, hread]
  refine ⟨loadCarried k (reg ins 0)
    (read v.before (wrap ((v.base + 4 * i : Nat) + off)) (faligned + 1)), ?_, ?_,
    fun m hm => ?_⟩
  · simp [Body.raw, carriedBytes, loadCarried, extent, Item.size]
  · rw [← h.fetch_eq, hins, hdec, ← hoff]
    exact .literalCarried k _ off _ hk
  · refine means_word hm (hword 2 (by omega) (by omega) (Or.inl (by omega)))
      fun hm => ?_
    refine means_word hm ?_ fun hm => means_data hm
    rw [decode_branchOver hsize, length_read]

theorem stands_lit_near (h : AtRound v i s) {pad : Nat} {ins : Word}
    (hins : fetch s.mem s.inp = ins)
    (hmask : loadlitMask ins = some (mask, faligned))
    (hin : ¬ s.ctx.isInFixingRange (loadlitAddr ins s.inp) = true)
    (hrel : v.Relocatable i) {d : Int} (hcopy : v.copy i = s.outp + 4 * pad)
    (hpad : 4 * pad + 3 ≤ faligned)
    (hd : d = (loadlitAddr ins s.inp - (s.outp + 4 * pad : Nat)) / 4)
    (hnear : ((loadlitAddr ins s.inp - s.outp) / 4).natAbs +
      (faligned + 1 - 4) / 4 < 0x3ffff) :
    Stands v i { pad, body := .code (wordBytes (litWord ins mask d)) } := by
  have hres := h.not_reserved hrel
  rw [hins] at hres
  have hsize := loadlitMask_size hmask
  obtain ⟨k, hk, hdec, hword⟩ := loadlitMask_decode hmask hres
  obtain ⟨off, hoff, hpos, hhi, haddr, hroom, hclose⟩ :=
    h.lit_forward hins hdec hrel
  have hfits := h.baseFits
  have hlt := h.lt
  have hbase := h.baseAligned
  have hcopy4 := (h.spread i h.lt).1
  obtain ⟨_, hlo, hcopyhi⟩ := h.spread i h.lt
  rw [h.inside_iff] at hin
  rw [haddr] at hin hd hnear
  have hwrap : wrap ((v.base + 4 * i : Nat) + off) = v.base + 4 * i + off.toNat :=
    wrap_eq (by omega) (by omega)
  have hdist : 4 * d = (v.base + 4 * i : Nat) + off - v.copy i := by omega
  have hksize : k.size ≤ 16 := by cases k <;> decide
  refine ⟨[.insn (.ldr k (reg ins 0) ((v.base + 4 * i : Nat) + off - v.copy i))],
    rfl, ?_,
    fun m hm => ?_⟩
  · rw [← h.fetch_eq, hins, hdec, ← hoff]
    refine .literalNear k _ off fun x h₁ h₂ hx => ?_
    rw [hwrap] at h₁ h₂
    rcases hx with ⟨_, hx⟩ | hx <;> omega
  · have hsign : 0 ≤ d ∨ k = .x ∨ k = .sw := by
      rcases hclose with hk | hk | hbelow | habove
      · exact Or.inr (Or.inl hk)
      · exact Or.inr (Or.inr hk)
      · exact Or.inl (by omega)
      · omega
    refine means_one hm ?_
    rw [hword d (by omega) (by omega) hsign, hdist]

end

theorem fixLoadlit_round {s s' : FixState} (halign : s.outp % 4 = 0)
    (h : fixLoadlit s = some s') :
    ∃ s₁, s' = s₁.advance.processFixMap s.currentIdx ∧
      ∃ p, Emits s.currentIdx s s₁ p ∧ Serves s p := by
  rw [fixLoadlit] at h
  simp only [] at h
  split at h
  · next hprfm =>
      obtain rfl := Option.some.inj h
      refine ⟨s.getAndSetCurrentIndex, rfl, { pad := 0, body := .code [] }, ?_, ?_⟩
      · have hemit := emits_code s.currentIdx s []
        rw [emit_nil] at hemit
        exact hemit
      · refine serves_code (by simp) rfl fun v i hr _ _ => ⟨[], rfl, ?_,
          fun m _ => trivial⟩
        rw [← hr.fetch_eq, decode_of_group (group_of_prefetch hprfm)]
        exact .prefetch
  · split at h
    · exact absurd h (by simp)
    · next mask faligned hmask =>
        obtain rfl := Option.some.inj h
        refine ⟨_, rfl, ?_⟩
        have hsize := loadlitMask_size hmask
        have htwo : 2#32 = BitVec.ofInt 32 2 := by decide
        have hreach : (~~~0xff00001f#32 >>> 6 : Word).toNat = 0x3ffff := by decide
        simp only [FixState.getAndSetCurrentIndex, reset_outp, reset_inp,
          reset_inside, hreach, htwo, litWord_eq]
        split
        · obtain ⟨j, hj, hpad, _⟩ :=
            padCopy_eq (s.resetCurrentIns s.currentIdx) hsize halign
          rw [hpad, emit_carriedBytes]
          refine ⟨_, emits_padded s.currentIdx j s _, ?_⟩
          refine serves_code ?_ ?_ fun v i hr hcopy hrel => ?_
          · rw [length_carriedBytes, length_read]
            omega
          · rw [length_carriedBytes, length_read]
            omega
          · refine stands_lit_carried hr rfl hmask hrel (hr.emit_mem
              (nopBytes j ++ (wordBytes (litWord (fetch s.mem s.inp) mask 2) ++
                wordBytes (0x14000001#32 + BitVec.ofNat 32 ((faligned + 1) / 4))))
              ?_ ?_)
            · simp only [FixState.emitWord, emit_emit]
              exact write_append s.mem s.outp (nopBytes j) _
            · simp [length_nopBytes]
              omega
        · next hnear =>
            obtain ⟨j, hj, hpad⟩ := padNear_eq (s.resetCurrentIns s.currentIdx)
              (loadlitAddr (fetch s.mem s.inp) s.inp) hsize
            have hout : ((s.resetCurrentIns s.currentIdx).emit (nopBytes j)).outp =
                s.outp + 4 * j := by
              show s.outp + (nopBytes j).length = _
              rw [length_nopBytes]
            rw [hpad, hout]
            refine ⟨_, emits_padded s.currentIdx j s _, ?_⟩
            simp only [Bool.or_eq_true, decide_eq_true_eq, not_or] at hnear
            refine serves_word (by omega) fun v i hr hcopy hrel => ?_
            exact stands_lit_near hr rfl hmask hnear.1 hrel hcopy hj rfl (by omega)

/-! ## `ADR` and `ADRP` -/

/-- `LDR Xd, #0x8`, a branch over the address, and the address. -/
def loadAddrBytes (ins : Word) (a : Nat) : List UInt8 :=
  wordBytes (ldrAddrWord ins) ++ (wordBytes 0x14000003#32 ++ leBytes 8 a)

theorem length_loadAddrBytes (ins : Word) (a : Nat) :
    (loadAddrBytes ins a).length = 16 := by
  simp [loadAddrBytes]

theorem emitLoadAddr_eq (s : FixState) (ins : Word) (a : Int) (idx : Nat) :
    s.emitLoadAddr ins a idx =
      (s.alignNop ((s.outp + 8) % 8 ≠ 0) idx).emit
        (loadAddrBytes ins (wrap a)) := by
  rw [FixState.emitLoadAddr]
  simp only [FixState.emitWord, FixState.emitAddr, emit_emit, List.append_assoc]
  rfl

theorem means_loadAddrBytes {m : Mem} {p a : Nat} {ins : Word}
    (h : Holds m p (loadAddrBytes ins a)) : Means m p (loadAddr (reg ins 0) a) :=
  means_word h (decode_ldrAddrWord ins) fun h =>
    means_word h decode_skipAddr fun h =>
    means_data h

section

variable {v : Move} {i : Nat} {s : FixState} {ins : Word}

/-- An `ADR` that can be moved: its target, as the machine has it, is not one
of the block. -/
theorem AtRound.adr_forward (h : AtRound v i s) (hins : fetch s.mem s.inp = ins)
    (hg : group (top ins) = .adr) (hrel : v.Relocatable i) :
    adrAddr ins s.inp = (v.base + 4 * i : Nat) + adrImm ins ∧
      ¬ s.ctx.isInFixingRange (adrAddr ins s.inp) = true ∧
      (adrImm ins % 4 = 0 ∨
        v.slot + v.room + 2 ^ 20 ≤ (v.base + 4 * i : Nat) + adrImm ins ∨
        (v.base + 4 * i : Nat) + adrImm ins + 2 ^ 20 ≤ v.slot) := by
  have hdec : decode ins = .adr (reg ins 0) (adrImm ins) := by
    rw [decode_of_group hg, Group.decode]
  simp only [Move.Relocatable, ← h.fetch_eq, hins, hdec] at hrel
  obtain ⟨hpos, ⟨_, _, hout⟩, hclose⟩ := hrel
  have haddr : adrAddr ins s.inp = (v.base + 4 * i : Nat) + adrImm ins := by
    rw [adrAddr_eq, if_neg (by omega), h.inp, Int.add_zero]
  refine ⟨haddr, ?_, hclose⟩
  rw [h.inside_iff, haddr]
  omega

/-- Likewise an `ADRP`. -/
theorem AtRound.adrp_forward (h : AtRound v i s) (hins : fetch s.mem s.inp = ins)
    (hg : group (top ins) = .adrp) (hrel : v.Relocatable i) :
    adrpAddr ins s.inp =
        ((v.base + 4 * i) / 4096 * 4096 : Nat) + 4096 * adrImm ins ∧
      ¬ s.ctx.isInFixingRange (adrpAddr ins s.inp) = true := by
  have hdec : decode ins = .adrp (reg ins 0) (4096 * adrImm ins) := by
    rw [decode_of_group hg, Group.decode]
  simp only [Move.Relocatable, ← h.fetch_eq, hins, hdec] at hrel
  obtain ⟨hpos, _, _, hout⟩ := hrel
  have haddr : adrpAddr ins s.inp =
      ((v.base + 4 * i) / 4096 * 4096 : Nat) + 4096 * adrImm ins := by
    rw [adrpAddr_eq, if_neg (by omega), h.inp, Int.add_zero]
  refine ⟨haddr, ?_⟩
  rw [h.inside_iff, haddr]
  omega

theorem stands_adr_far (h : AtRound v i s) {pad : Nat}
    (hins : fetch s.mem s.inp = ins)
    (hg : group (top ins) = .adr) (hrel : v.Relocatable i) :
    Stands v i
      { pad, body := .code (loadAddrBytes ins (wrap (adrAddr ins s.inp))) } := by
  obtain ⟨haddr, _, _⟩ := h.adr_forward hins hg hrel
  rw [haddr]
  refine ⟨loadAddr (reg ins 0) (wrap ((v.base + 4 * i : Nat) + adrImm ins)), ?_, ?_,
    fun m hm => means_loadAddrBytes hm⟩
  · rw [Body.raw, length_loadAddrBytes]
    rfl
  · rw [← h.fetch_eq, hins, decode_of_group hg, Group.decode]
    exact .adrFar _ _

theorem stands_adrp_far (h : AtRound v i s) {pad : Nat}
    (hins : fetch s.mem s.inp = ins)
    (hg : group (top ins) = .adrp) (hrel : v.Relocatable i) :
    Stands v i
      { pad, body := .code (loadAddrBytes ins (wrap (adrpAddr ins s.inp))) } := by
  obtain ⟨haddr, _⟩ := h.adrp_forward hins hg hrel
  rw [haddr]
  refine ⟨loadAddr (reg ins 0)
    (wrap (((v.base + 4 * i) / 4096 * 4096 : Nat) + 4096 * adrImm ins)), ?_, ?_,
    fun m hm => means_loadAddrBytes hm⟩
  · rw [Body.raw, length_loadAddrBytes]
    rfl
  · rw [← h.fetch_eq, hins, decode_of_group hg, Group.decode]
    exact .adrpFar _ _

theorem stands_adr_near (h : AtRound v i s) (hcopy : v.copy i = s.outp)
    (hins : fetch s.mem s.inp = ins) (hg : group (top ins) = .adr)
    (hrel : v.Relocatable i)
    {d : Int} (hd : d = adrAddr ins s.inp - s.outp) (hnear : d.natAbs < 0xfffff) :
    Stands v i { pad := 0, body := .code (wordBytes (adrWord ins d)) } := by
  obtain ⟨haddr, _, hclose⟩ := h.adr_forward hins hg hrel
  have hbase := h.baseAligned
  obtain ⟨hcopy4, hlo, hhi⟩ := h.spread i h.lt
  rw [haddr] at hd
  have h4 : adrImm ins % 4 = 0 := by omega
  have hlow : ins.extractLsb' 29 2 = 0#2 := by
    have hbits := (ins.extractLsb' 29 2).isLt
    rw [adrImm_eq] at h4
    refine BitVec.eq_of_toNat_eq ?_
    rw [BitVec.toNat_ofNat]
    omega
  have hquarter : d = 4 * (d / 4) := by omega
  refine ⟨[.insn (.adr (reg ins 0)
    ((v.base + 4 * i : Nat) + adrImm ins - v.copy i))], rfl, ?_, fun m hm =>
    means_one hm ?_⟩
  · rw [← h.fetch_eq, hins, decode_of_group hg, Group.decode]
    exact .adrNear _ _
  · have hdist : 4 * (d / 4) =
        (v.base + 4 * i : Nat) + adrImm ins - v.copy i := by omega
    rw [hquarter, decode_adrWord hg hlow (by omega) (by omega), hdist]

end

theorem fixPcreladdr_round {s s' : FixState} (h : fixPcreladdr s = some s') :
    ∃ s₁, s' = s₁.advance.processFixMap s.currentIdx ∧
      ∃ p, Emits s.currentIdx s s₁ p ∧ Serves s p := by
  rw [fixPcreladdr] at h
  simp only [] at h
  split at h
  · next hadr =>
      have hg := group_of_adr hadr
      obtain rfl := Option.some.inj h
      refine ⟨_, advance_processFixMap _ _, ?_⟩
      simp only [FixState.getAndSetCurrentIndex, reset_outp, reset_inp,
        reset_inside, reset_ref, adrWord_eq, emitLoadAddr_eq]
      by_cases hin : s.ctx.isInFixingRange
        (adrAddr (fetch s.mem s.inp) s.inp) = true
      · simp only [hin, Bool.not_true, Bool.false_and, if_true,
          Bool.false_eq_true, if_false]
        obtain ⟨b, hemit, hb⟩ := emits_refer s.currentIdx s
          (s.ctx.getRefInsIndex (adrAddr (fetch s.mem s.inp) s.inp / 4 * 4))
          5 0x00ffffff#32
          (fun off => adrWord (fetch s.mem s.inp) off)
        refine ⟨_, hemit, ?_⟩
        rcases hb with ⟨href, rfl⟩ | ⟨href, rfl⟩
        · refine serves_word (Nat.zero_le 8) fun v i hr _ hrel => ?_
          exact absurd hin (hr.adr_forward rfl hg hrel).2.1
        · refine serves_waits href (ref_below hin) fun v i hr _ hrel => ?_
          exact absurd hin (hr.adr_forward rfl hg hrel).2.1
      · simp only [hin, Bool.not_false, Bool.true_and, Bool.false_eq_true, if_false]
        split
        · refine ⟨_, emits_aligned s.currentIdx _ s _, ?_⟩
          refine serves_code ?_ ?_ fun v i hr _ hrel =>
            stands_adr_far hr rfl hg hrel
          · rw [length_loadAddrBytes]
            split <;> omega
          · rw [length_loadAddrBytes]
        · next hnear =>
            refine ⟨_, emits_code s.currentIdx s _, ?_⟩
            refine serves_word (Nat.zero_le 8) fun v i hr hcopy hrel => ?_
            exact stands_adr_near hr hcopy rfl hg hrel rfl (by simpa using hnear)
  · split at h
    · next hadrp =>
        have hg := group_of_adrp hadrp
        obtain rfl := Option.some.inj h
        refine ⟨_, advance_processFixMap _ _, ?_⟩
        simp only [FixState.getAndSetCurrentIndex, reset_inp, reset_inside,
          emitLoadAddr_eq]
        split
        · next hin =>
            refine ⟨_, emits_code s.currentIdx s _, ?_⟩
            refine serves_word (Nat.zero_le 8) fun v i hr _ hrel => ?_
            exact absurd hin (hr.adrp_forward rfl hg hrel).2
        · refine ⟨_, emits_aligned s.currentIdx _ s _, ?_⟩
          refine serves_code ?_ ?_ fun v i hr _ hrel =>
            stands_adrp_far hr rfl hg hrel
          · rw [length_loadAddrBytes]
            split <;> omega
          · rw [length_loadAddrBytes]
    · exact absurd h (by simp)

/-! ## The other words -/

theorem processFmap_fst (ins : Nat) (fmap : List FixInfo) (m m' : Mem) :
    (processFmap ins fmap m).1 = (processFmap ins fmap m').1 := by
  induction fmap generalizing m m' with
  | nil => rfl
  | cons f fs ih =>
      by_cases h : f.bp = 0
      · simp [processFmap, h]
      · simp only [processFmap, h, if_false]
        exact congrArg _ (ih _ _)

/-- A plain word is settled for before it is written; as nothing that waits
for it lies where it is written or read, that comes to the same. -/
theorem fixPlain_eq {s : FixState}
    (h : ∀ f ∈ live (s.ctx.dat s.currentIdx).fmap,
      Apart f.bp 4 s.outp 4 ∧ Apart f.bp 4 s.inp 4) :
    fixPlain s = ((s.resetCurrentIns s.currentIdx).emitWord
      (fetch s.mem s.inp)).advance.processFixMap s.currentIdx := by
  generalize hk : s.currentIdx = k at h
  have hd : (s.resetCurrentIns k).ctx.dat k = { s.ctx.dat k with ins := s.outp } :=
    dat_setDat_same
  have hfetch : fetch (processFmap s.outp (s.ctx.dat k).fmap s.mem).2 s.inp =
      fetch s.mem s.inp := by
    rw [processFmap_mem]
    refine fetch_congr fun x h₁ h₂ => settleAll_outside fun f hf => ?_
    rcases (h f hf).2 with ha | ha <;> omega
  have hmem : write (processFmap s.outp (s.ctx.dat k).fmap s.mem).2 s.outp
        (wordBytes (fetch s.mem s.inp)) =
      (processFmap s.outp (s.ctx.dat k).fmap
        (write s.mem s.outp (wordBytes (fetch s.mem s.inp)))).2 := by
    rw [processFmap_mem, processFmap_mem, settleAll_write]
    intro f hf
    rw [length_wordBytes]
    exact (h f hf).1
  have hfst := processFmap_fst s.outp (s.ctx.dat k).fmap s.mem
    (write s.mem s.outp (wordBytes (fetch s.mem s.inp)))
  rw [fixPlain]
  simp only [hk, FixState.getAndSetCurrentIndex, FixState.processFixMap,
    FixState.emitWord, FixState.emit, FixState.advance, hd, reset_inp, reset_outp,
    reset_mem]
  show _ = FixState.mk _ _ _ _
  rw [FixState.mk.injEq]
  refine ⟨rfl, rfl, ?_, ?_⟩
  · rw [hfst]
  · rw [← hmem, hfetch]

theorem serves_plain {s : FixState}
    (hg : group (top (fetch s.mem s.inp)) = .rest ∨
      (group (top (fetch s.mem s.inp)) = .branchCond ∧
        (fetch s.mem s.inp).getLsbD 4 = true)) :
    Serves s { pad := 0, body := .code (wordBytes (fetch s.mem s.inp)) } := by
  refine serves_word (Nat.zero_le 8) fun v i hr _ hrel => ?_
  refine ⟨[.insn (decode (fetch s.mem s.inp))], rfl, ?_,
    fun m hm => means_one hm rfl⟩
  rw [← hr.fetch_eq]
  rcases hg with hg | ⟨hg, h4⟩
  · rw [decode_of_group hg, Group.decode]
    split
    · exact .nop
    · split
      · exact .br _
      · exact .other _
  · have hdec := decode_of_group hg
    rw [Group.decode, h4] at hdec
    simp only [Move.Relocatable, ← hr.fetch_eq, hdec] at hrel
    exact absurd hrel.2 (by simp [Test.unhinted])

theorem fixBranchImm_none {s : FixState} (h : fixBranchImm s = none) :
    ¬ (fetch s.mem s.inp &&& 0xfc000000#32 = 0x14000000#32 ∨
      fetch s.mem s.inp &&& 0xfc000000#32 = 0x94000000#32) := by
  rw [fixBranchImm] at h
  simp only [] at h
  split at h
  · exact absurd h (by simp)
  · next hopc => exact hopc

theorem fixCond_none {s : FixState} (h : fixCondCompTestBranch s = none) :
    condMask (fetch s.mem s.inp) = none := by
  rw [fixCondCompTestBranch] at h
  simp only [] at h
  split at h
  · next hmask => exact hmask
  · exact absurd h (by simp)

theorem fixLoadlit_none {s : FixState} (h : fixLoadlit s = none) :
    fetch s.mem s.inp &&& 0xff000000#32 ≠ 0xd8000000#32 ∧
      loadlitMask (fetch s.mem s.inp) = none := by
  rw [fixLoadlit] at h
  simp only [] at h
  split at h
  · exact absurd h (by simp)
  · next hprfm =>
      split at h
      · next hmask => exact ⟨hprfm, hmask⟩
      · exact absurd h (by simp)

theorem fixPcreladdr_none {s : FixState} (h : fixPcreladdr s = none) :
    fetch s.mem s.inp &&& 0x9f000000#32 ≠ 0x10000000#32 ∧
      fetch s.mem s.inp &&& 0x9f000000#32 ≠ 0x90000000#32 := by
  rw [fixPcreladdr] at h
  simp only [] at h
  split at h
  · exact absurd h (by simp)
  · next hadr =>
      split at h
      · exact absurd h (by simp)
      · next hadrp => exact ⟨hadr, hadrp⟩

/-! ## The round -/

/-- One round of the loop: what is emitted, and then settled. -/
theorem fixOne_round {s : FixState} (halign : s.outp % 4 = 0)
    (h : ∀ f ∈ live (s.ctx.dat s.currentIdx).fmap,
      Apart f.bp 4 s.outp 4 ∧ Apart f.bp 4 s.inp 4) :
    ∃ s₁, fixOne s = s₁.advance.processFixMap s.currentIdx ∧
      ∃ p, Emits s.currentIdx s s₁ p ∧ Serves s p := by
  rw [fixOne]
  cases hbranch : fixBranchImm s with
  | some s' => exact fixBranchImm_round hbranch
  | none =>
      cases hcond : fixCondCompTestBranch s with
      | some s' => exact fixCondCompTestBranch_round hcond
      | none =>
          cases hlit : fixLoadlit s with
          | some s' => exact fixLoadlit_round halign hlit
          | none =>
              cases hpc : fixPcreladdr s with
              | some s' => exact fixPcreladdr_round hpc
              | none =>
                  obtain ⟨hprfm, hmask⟩ := fixLoadlit_none hlit
                  obtain ⟨hadr, hadrp⟩ := fixPcreladdr_none hpc
                  have hg :=
                    group_of_plain (fixBranchImm_none hbranch) (fixCond_none hcond)
                    hprfm hmask hadr hadrp
                  exact ⟨_, fixPlain_eq h, _, emits_code s.currentIdx s _,
                    serves_plain hg⟩

end PistolWhipHook
