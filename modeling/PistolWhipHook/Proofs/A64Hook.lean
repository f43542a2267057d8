import PistolWhipHook.Proofs.FixInstructions

/-!
# `A64HookFunction`, over whole runs

A call touches three places: the words of the function that it overwrites, the
caller's pointer, and the slot of the pool that it was given. `HookCall.leaves`
is the call with the slot known, `enter_mem` says that the slot is the next one
as long as there is one. Calls whose places are apart leave each other alone,
so what is true right after a call is true at the end of the run: the function
runs the replacement, and the pointer leads to a copy that runs as the
function did.
-/

namespace PistolWhipHook

open ByteMem A64 Simulation

/-! ## One call -/

/-- What the words of the function are overwritten with. -/
def patchBytes (symbol replace : Nat) : List UInt8 :=
  if hookFar symbol replace then
    nopBytes (if (symbol + 8) % 8 ≠ 0 then 1 else 0) ++ jumpBytes replace
  else wordBytes (branchWord false (((replace : Int) - symbol) / 4))

theorem length_patchBytes (symbol replace : Nat) :
    (patchBytes symbol replace).length = 4 * hookCount symbol replace := by
  rw [patchBytes, hookCount]
  split
  · rw [List.length_append, length_nopBytes, length_jumpBytes]
    split <;> rfl
  · exact length_wordBytes _

theorem hookCount_bounds (symbol replace : Nat) :
    1 ≤ hookCount symbol replace ∧ hookCount symbol replace ≤ 5 := by
  rw [hookCount]
  split
  · split <;> omega
  · omega

theorem store_word (m : Mem) (a : Nat) (w : Word) :
    store m a 4 w.toNat = write m a (wordBytes w) := rfl

theorem store_jump (m : Mem) (a replace : Nat) :
    store (store (store m a 4 ldrX17.toNat) (a + 4) 4 brX17.toNat)
      (a + 8) 8 replace =
      write m a (jumpBytes replace) := by
  have h₁ := write_append m a (wordBytes ldrX17) (wordBytes brX17)
  have h₂ := write_append m a (wordBytes ldrX17 ++ wordBytes brX17)
    (leBytes 8 replace)
  rw [length_wordBytes] at h₁
  rw [List.length_append, length_wordBytes, length_wordBytes, ← h₁] at h₂
  rw [jumpBytes, ← List.append_assoc, ← h₂, store_word, store_word, store]

theorem store_nop_jump (m : Mem) (a replace : Nat) :
    store (store (store (store m a 4 a64Nop.toNat) (a + 4) 4 ldrX17.toNat)
      (a + 4 + 4) 4 brX17.toNat) (a + 4 + 8) 8 replace =
        write m a (nopBytes 1 ++ jumpBytes replace) := by
  have hone : nopBytes 1 = wordBytes a64Nop := by simp [nopBytes]
  have h := write_append m a (wordBytes a64Nop) (jumpBytes replace)
  rw [length_wordBytes] at h
  rw [store_jump, store_word, hone, h]

/-- The memory with the function copied, if there is a place to copy it to. -/
def backedUp (symbol replace rwx : Nat) (m : Mem) : Mem :=
  if rwx ≠ 0 then fixInstructions symbol (hookCount symbol replace) rwx m else m

/-- `A64HookFunctionV`, with the room that `A64HookFunction` passes it. -/
theorem a64HookFunctionV_eq (rwxOk : Bool) (symbol replace rwx : Nat) (m : Mem) :
    a64HookFunctionV rwxOk symbol replace rwx 50 m =
      if rwxOk then
        (rwx, write (backedUp symbol replace rwx m) symbol
          (patchBytes symbol replace))
      else (0, backedUp symbol replace rwx m) := by
  rw [a64HookFunctionV, backedUp, hookCount, patchBytes]
  simp only []
  by_cases hfar : hookFar symbol replace
  · have hbig : (((replace : Int) - symbol) / 4).natAbs ≥ 0x1ffffff := hfar
    rw [if_pos hbig, if_pos hfar, if_pos hfar]
    by_cases hpad : (symbol + 8) % 8 ≠ 0
    · rw [if_pos hpad, if_pos hpad, if_neg (by omega), if_pos rfl]
      simp only [store_nop_jump]
    · have hnone : nopBytes 0 = [] := rfl
      have hfour : ¬ 4 = 5 := by omega
      have hroom : ¬ (rwx ≠ 0 ∧ 50 < 4 * 10) := by omega
      rw [if_neg hpad, if_neg hpad, if_neg hroom, if_neg hfour, hnone,
        List.nil_append]
      simp only [store_jump]
  · have hbig : ¬ (((replace : Int) - symbol) / 4).natAbs ≥ 0x1ffffff := hfar
    rw [if_neg hbig, if_neg hfar, if_neg hfar, if_neg (by omega), branchWord]
    have hmask : ~~~0xfc000000#32 = 0x03ffffff#32 := by decide
    rw [hmask]
    rfl

/-- The words that were written lead to the replacement. -/
theorem patch_diverts {ρ : Type} {A : Arch ρ} {symbol replace : Nat} {core : Core ρ}
    {t : Mem} (hsymbol : symbol % 4 = 0) (hreplace : replace % 4 = 0)
    (hfits : symbol + 20 ≤ 2 ^ 62) (hrfits : replace < 2 ^ 62)
    (h : Holds t symbol (patchBytes symbol replace)) :
    ∃ core', Move.ButX17 core core' ∧
      Reaches (step A) ⟨symbol, core, t⟩ ⟨replace, core', t⟩ := by
  rw [patchBytes] at h
  split at h
  · have hm := means_padded h fun h => means_jumpBytes h
    obtain ⟨hnops, hjump⟩ := means_append.mp hm
    have hpad : (if (symbol + 8) % 8 ≠ 0 then 1 else 0) ≤ 1 := by split <;> omega
    rw [extent_nops] at hjump
    refine ⟨core.setX 17 replace, Move.butX17_setX core replace, ?_⟩
    exact (reaches_nops hnops (by omega)).trans
      (reaches_farJump hjump (by omega) (by omega))
  · next hnear =>
      have hnear : (((replace : Int) - symbol) / 4).natAbs < 0x1ffffff :=
        Nat.not_le.mp hnear
      have hoff : 4 * (((replace : Int) - symbol) / 4) = replace - symbol := by
        omega
      have hdec : decode (fetch t symbol) = .b false (replace - symbol) := by
        rw [h.fetch_eq, decode_branchWord false (by omega) (by omega), hoff]
      refine ⟨core, Move.ButX17.refl core, Reaches.step_eq ?_⟩
      rw [step_b hdec, wrap_eq rfl (by omega)]

/-- The memory after a call that was given `slot`. -/
def HookCall.leaves (c : HookCall) (slot : Nat) (m : Mem) : Mem :=
  match c.result with
  | none => if c.rwxOk then write m c.symbol (patchBytes c.symbol c.replace) else m
  | some r =>
      if slot = 0 then store m r 8 0
      else
        let m := fixInstructions c.symbol c.count slot (store m r 8 slot)
        if c.rwxOk then write m c.symbol (patchBytes c.symbol c.replace)
          else store m r 8 0

theorem fastAllocateTrampoline_fst (pool : Nat) {n : Nat} {h : HookLib}
    (hn : h.index + 1#32 = BitVec.ofNat 32 n) (hlt : n < 2 ^ 32) :
    (fastAllocateTrampoline pool h).1 = slotAt pool n := by
  have hnat : (h.index + 1#32).toNat = n := by
    rw [hn, BitVec.toNat_ofNat, Nat.mod_eq_of_lt hlt]
  have hint : 0 ≤ (h.index + 1#32).toInt ∧ (h.index + 1#32).toInt < a64MaxBackups ↔
      n < a64MaxBackups := by
    rw [BitVec.toInt_eq_toNat_cond, hnat, a64MaxBackups]
    split <;> omega
  rw [fastAllocateTrampoline, slotAt]
  simp only [hint, hnat]

theorem enter_index (pool : Nat) (c : HookCall) (h : HookLib) :
    (c.enter pool h).index = if c.result.isSome then h.index + 1#32
      else h.index := by
  rw [HookCall.enter]
  cases c.result with
  | none => rfl
  | some r =>
      simp only [a64HookFunction, Option.isSome_some, if_true]
      split
      · rfl
      · split <;> rfl

theorem enter_mem {pool n : Nat} {h : HookLib}
    (hn : h.index + 1#32 = BitVec.ofNat 32 n) (hlt : n < 2 ^ 32) (c : HookCall) :
    (c.enter pool h).mem = c.leaves (slotAt pool n) h.mem := by
  have hslot := fastAllocateTrampoline_fst pool hn hlt
  have hmem : (fastAllocateTrampoline pool h).2.mem = h.mem := rfl
  rw [HookCall.enter, HookCall.leaves]
  cases c.result with
  | none =>
      simp only [a64HookFunction, a64HookFunctionV_eq, backedUp]
      split <;> rfl
  | some r =>
      simp only [a64HookFunction, hslot, hmem, a64HookFunctionV_eq, backedUp]
      by_cases hz : slotAt pool n = 0
      · simp only [hz, if_true]
      · simp only [hz, if_false, ne_eq, not_false_eq_true, if_true]
        cases c.rwxOk with
        | true => simp only [if_true, hz, if_false, HookCall.count]
        | false => simp only [Bool.false_eq_true, if_false, if_true, HookCall.count]

/-! ## Places apart -/

section

variable {pool n : Nat} {calls : List HookCall} {c : HookCall} {m : Mem} {x : Nat}

theorem slotAt_bounds (hslot : slotAt pool n ≠ 0) :
    slotAt pool n = pool + slotSize * n ∧ n < a64MaxBackups := by
  rw [slotAt] at hslot ⊢
  split at hslot
  · next h => exact ⟨if_pos h, h⟩
  · exact absurd rfl hslot

theorem HookCall.Sited.placed (h : c.Sited pool) (haligned : pool % 4 = 0)
    (hfits : pool + slotSize * a64MaxBackups ≤ 2 ^ 62) (hslot : slotAt pool n ≠ 0) :
    Placed c.symbol c.count (slotAt pool n) := by
  obtain ⟨heq, hlt⟩ := slotAt_bounds hslot
  obtain ⟨_, hcount⟩ := hookCount_bounds c.symbol c.replace
  have hblock := h.block
  have hsymbol := h.symbolFits
  have haligned' := h.symbolAligned
  change c.count ≤ 5 at hcount
  simp only [slotSize, a64MaxInstructions, a64MaxBackups] at heq hlt hfits hblock
  refine ⟨hcount, haligned', by omega, by omega, by omega, ?_, ?_⟩
  · simp only [slotSize, a64MaxInstructions]
    omega
  · simp only [slotSize, a64MaxInstructions]
    rcases hblock with h | h <;> omega

/-- What a call leaves as it was. -/
theorem HookCall.leaves_frame {slot : Nat}
    (hplaced : slot ≠ 0 → Placed c.symbol c.count slot)
    (hblock : x < c.symbol ∨ c.symbol + 4 * c.count ≤ x)
    (hcell : ∀ r, c.result = some r → x < r ∨ r + 8 ≤ x)
    (hslot : slot ≠ 0 → x < slot ∨ slot + slotSize ≤ x) :
    c.leaves slot m x = m x := by
  have hpatch : ∀ m, write m c.symbol (patchBytes c.symbol c.replace) x = m x := by
    intro m
    refine write_outside ?_
    rw [length_patchBytes]
    exact hblock
  rw [HookCall.leaves]
  cases hr : c.result with
  | none =>
      simp only []
      split
      · exact hpatch m
      · rfl
  | some r =>
      have hstore : ∀ m v, store m r 8 v x = m x :=
        fun m v => store_outside (hcell r hr)
      simp only []
      split
      · exact hstore m 0
      · next hne =>
          have hfix := fixInstructions_frame (hplaced hne) (store m r 8 slot)
            (hslot hne)
          split
          · rw [hpatch, hfix, hstore]
          · rw [hstore, hfix, hstore]

/-! ## Runs -/

theorem hookAll_cons (c : HookCall) (calls : List HookCall) (h : HookLib) :
    hookAll pool (c :: calls) h = hookAll pool calls (c.enter pool h) := rfl

theorem hookAll_append (pre post : List HookCall) (h : HookLib) :
    hookAll pool (pre ++ post) h = hookAll pool post (hookAll pool pre h) :=
  List.foldl_append

theorem enter_index_succ {h : HookLib} (hn : h.index + 1#32 = BitVec.ofNat 32 n) :
    (c.enter pool h).index + 1#32 = BitVec.ofNat 32 (n + allocations [c]) := by
  rw [enter_index, allocations, List.countP_singleton]
  split
  · rw [hn, BitVec.ofNat_add]
  · exact hn

theorem allocations_cons (c : HookCall) (calls : List HookCall) :
    allocations (c :: calls) = allocations [c] + allocations calls := by
  rw [allocations, allocations, allocations, ← List.countP_append,
    List.singleton_append]

theorem hookAll_index (pool : Nat) {h : HookLib}
    (hn : h.index + 1#32 = BitVec.ofNat 32 n)
    (calls : List HookCall) :
    (hookAll pool calls h).index + 1#32 =
      BitVec.ofNat 32 (n + allocations calls) := by
  induction calls generalizing h n with
  | nil => exact hn
  | cons c calls ih =>
      rw [hookAll_cons, ih (enter_index_succ hn), allocations_cons c calls,
        Nat.add_assoc]

/-- What a run leaves as it was: all that is none of its places. -/
theorem hookAll_frame {h : HookLib} (hn : h.index + 1#32 = BitVec.ofNat 32 n)
    (haligned : pool % 4 = 0) (hfits : pool + slotSize * a64MaxBackups ≤ 2 ^ 62)
    (hfew : n + allocations calls < 2 ^ 32) (hsited : ∀ c ∈ calls, c.Sited pool)
    (hblock : ∀ c ∈ calls, x < c.symbol ∨ c.symbol + 4 * c.count ≤ x)
    (hcell : ∀ c ∈ calls, ∀ r, c.result = some r → x < r ∨ r + 8 ≤ x)
    (hslot : x < pool + slotSize * n ∨ pool + slotSize * a64MaxBackups ≤ x) :
    (hookAll pool calls h).mem x = h.mem x := by
  induction calls generalizing h n with
  | nil => rfl
  | cons c calls ih =>
      rw [allocations_cons] at hfew
      have hone : n < 2 ^ 32 := by omega
      have hlater : x < pool + slotSize * (n + allocations [c]) ∨
          pool + slotSize * a64MaxBackups ≤ x := by
        rw [Nat.mul_add]
        omega
      rw [hookAll_cons, ih (enter_index_succ hn) (by omega)
        (fun c hc => hsited c (by simp [hc])) (fun c hc => hblock c (by simp [hc]))
        (fun c hc => hcell c (by simp [hc])) hlater, enter_mem hn hone]
      refine HookCall.leaves_frame (fun hne =>
        (hsited c (by simp)).placed haligned hfits hne)
        (hblock c (by simp)) (hcell c (by simp)) fun hne => ?_
      obtain ⟨heq, hlt⟩ := slotAt_bounds hne
      rw [heq]
      simp only [slotSize, a64MaxInstructions, a64MaxBackups] at hslot hlt ⊢
      omega

theorem HookCall.Clear.symm {c d : HookCall} (h : c.Clear d) : d.Clear c := by
  refine ⟨?_, h.right, h.left, fun r q hr hq => ?_⟩
  · rcases h.blocks with h | h
    · exact Or.inr h
    · exact Or.inl h
  · rcases h.cells q r hq hr with h | h
    · exact Or.inr h
    · exact Or.inl h

theorem HookCall.Clear.block {c d : HookCall} (h : c.Clear d) (hx : c.Own x) :
    x < d.symbol ∨ d.symbol + 4 * d.count ≤ x := by
  rcases hx with hx | ⟨r, hr, hx⟩
  · rcases h.blocks with h | h <;> omega
  · rcases h.left r hr with h | h <;> omega

theorem HookCall.Clear.cell {c d : HookCall} (h : c.Clear d) (hx : c.Own x)
    {q : Nat} (hq : d.result = some q) : x < q ∨ q + 8 ≤ x := by
  rcases hx with hx | ⟨r, hr, hx⟩
  · rcases h.right q hq with h | h <;> omega
  · rcases h.cells r q hr hq with h | h <;> omega

theorem HookCall.Sited.off_pool (h : c.Sited pool) (hx : c.Own x) :
    x < pool ∨ pool + slotSize * a64MaxBackups ≤ x := by
  rcases hx with hx | ⟨r, hr, hx⟩
  · rcases h.block with h | h <;> omega
  · rcases (h.cell r hr).2 with h | h <;> omega

theorem start_index (m : Mem) :
    (HookLib.start m).index + 1#32 = BitVec.ofNat 32 0 := by
  show BitVec.ofInt 32 (-1) + 1#32 = BitVec.ofNat 32 0
  decide

end

/-- Three functions: one close to its replacement, one far from it, and one
whose page stays write-protected. -/
def nearCall : HookCall :=
  { rwxOk := true, symbol := 0x10000, replace := 0x20000, result := some 0x30000 }

def farCall : HookCall :=
  { rwxOk := true, symbol := 0x11004, replace := 0x20000000,
    result := some 0x30008 }

def refusedCall : HookCall :=
  { rwxOk := false, symbol := 0x12000, replace := 0x21000, result := some 0x30010 }

/-- A machine on which the instructions that are not decoded do nothing. -/
def idle : Arch Unit :=
  { holds := fun _ _ => false,
    exec := fun _ core mem => { core, mem, flow := .next } }

def idleCore : Core Unit := { x := fun _ => 0, v := fun _ => 0, rest := () }

instance (a n b k : Nat) : Decidable (Apart a n b k) :=
  inferInstanceAs (Decidable (_ ∨ _))

theorem exampleRun : HookRun 0x40000 [nearCall, farCall, refusedCall] := by
  refine ⟨by omega, by omega, by decide, ?_, ?_, by decide⟩
  · simp only [List.forall_mem_cons, List.not_mem_nil, false_imp_iff,
      implies_true, and_true]
    refine ⟨⟨by decide, by decide, by decide, by decide, by decide, fun r hr => ?_⟩,
      ⟨by decide, by decide, by decide, by decide, by decide, fun r hr => ?_⟩,
      ⟨by decide, by decide, by decide, by decide, by decide, fun r hr => ?_⟩⟩ <;>
      · obtain rfl := Option.some.inj hr
        decide
  · simp only [List.pairwise_cons, List.forall_mem_cons, List.not_mem_nil,
      false_imp_iff, implies_true, and_true, List.Pairwise.nil]
    refine ⟨⟨?_, ?_⟩, ?_⟩ <;>
      · refine ⟨by decide, fun r hr => ?_, fun r hr => ?_, fun r q hr hq => ?_⟩
        · obtain rfl := Option.some.inj hr
          decide
        · obtain rfl := Option.some.inj hr
          decide
        · obtain rfl := Option.some.inj hr
          obtain rfl := Option.some.inj hq
          decide

section

variable {pool n : Nat} {pre post : List HookCall} {c : HookCall} {x : Nat}

theorem HookRun.split (h : HookRun pool (pre ++ c :: post)) :
    c.Sited pool ∧ (∀ d ∈ pre, d.Sited pool ∧ c.Clear d) ∧
      (∀ d ∈ post, d.Sited pool ∧ c.Clear d) ∧
      allocations pre + allocations [c] + allocations post < 2 ^ 32 := by
  obtain ⟨_, hcd, hcross⟩ := List.pairwise_append.mp h.clear
  have hfew := h.few
  have happ : allocations (pre ++ c :: post) =
      allocations pre + allocations (c :: post) :=
    List.countP_append
  rw [happ, allocations_cons, ← Nat.add_assoc] at hfew
  refine ⟨h.sited c (by simp), fun d hd => ⟨h.sited d (by simp [hd]), ?_⟩,
    fun d hd => ⟨h.sited d (by simp [hd]), ?_⟩, hfew⟩
  · exact (hcross d hd c (by simp)).symm
  · exact (List.pairwise_cons.mp hcd).1 d hd

/-- Up to its call, what belongs to it is as it was at the start. -/
theorem HookRun.before (h : HookRun pool (pre ++ c :: post)) (m : Mem)
    (hx : c.Own x) :
    (hookAll pool pre (.start m)).mem x = m x := by
  obtain ⟨hsited, hpre, _, hfew⟩ := h.split
  have hoff := hsited.off_pool hx
  exact hookAll_frame (start_index m) h.poolAligned h.poolFits (by omega)
    (fun d hd => (hpre d hd).1) (fun d hd => (hpre d hd).2.block hx)
    (fun d hd r hr => (hpre d hd).2.cell hx hr) (by omega)

/-- From its call on, what belongs to it is as the call left it, and so is the
slot that it was given. -/
theorem HookRun.after (h : HookRun pool (pre ++ c :: post)) (m : Mem)
    (hx : c.Own x ∨ slotAt pool (allocations pre) ≠ 0 ∧ c.result.isSome ∧
      slotAt pool (allocations pre) ≤ x ∧
      x < slotAt pool (allocations pre) + slotSize) :
    (hookAll pool (pre ++ c :: post) (.start m)).mem x =
      c.leaves (slotAt pool (allocations pre))
        (hookAll pool pre (.start m)).mem x := by
  obtain ⟨hsited, hpre, hpost, hfew⟩ := h.split
  have hn := hookAll_index pool (start_index m) pre
  rw [Nat.zero_add] at hn
  rw [hookAll_append, hookAll_cons, ← enter_mem hn (by omega)]
  have hlater : ∀ d ∈ post, (x < d.symbol ∨ d.symbol + 4 * d.count ≤ x) ∧
      ∀ r, d.result = some r → x < r ∨ r + 8 ≤ x := by
    intro d hd
    obtain ⟨hdsited, hclear⟩ := hpost d hd
    rcases hx with hx | ⟨hne, _, hlo, hhi⟩
    · exact ⟨hclear.block hx, fun r hr => hclear.cell hx hr⟩
    · obtain ⟨heq, hlt⟩ := slotAt_bounds hne
      rw [heq] at hlo hhi
      simp only [slotSize, a64MaxInstructions, a64MaxBackups] at hlo hhi hlt
      refine ⟨?_, fun r hr => ?_⟩
      · have hb := hdsited.block
        simp only [slotSize, a64MaxInstructions, a64MaxBackups] at hb
        rcases hb with hb | hb <;> omega
      · have hc := (hdsited.cell r hr).2
        simp only [slotSize, a64MaxInstructions, a64MaxBackups] at hc
        rcases hc with hc | hc <;> omega
  refine hookAll_frame (enter_index_succ hn) h.poolAligned h.poolFits hfew
    (fun d hd => (hpost d hd).1) (fun d hd => (hlater d hd).1)
    (fun d hd => (hlater d hd).2) ?_
  rcases hx with hx | ⟨hne, hsome, hlo, hhi⟩
  · have hoff := hsited.off_pool hx
    omega
  · obtain ⟨heq, hlt⟩ := slotAt_bounds hne
    have hone : allocations [c] = 1 := by simp [allocations, hsome]
    rw [heq] at hhi
    rw [hone, Nat.mul_add]
    omega

/-- Nothing is written but the words of the functions, the pointers and the
pool. -/
theorem hookAll_elsewhere {calls : List HookCall} (h : HookRun pool calls) (m : Mem)
    (hown : ∀ c ∈ calls, ¬ c.Own x)
    (hpool : x < pool ∨ pool + slotSize * a64MaxBackups ≤ x) :
    (hookAll pool calls (.start m)).mem x = m x := by
  have hfew := h.few
  refine hookAll_frame (start_index m) h.poolAligned h.poolFits (by omega) h.sited
    (fun c hc => ?_) (fun c hc r hr => ?_) (by omega)
  · have hblock : ¬ (c.symbol ≤ x ∧ x < c.symbol + 4 * c.count) := fun hx =>
      hown c hc (Or.inl hx)
    omega
  · have hcell : ¬ (r ≤ x ∧ x < r + 8) := fun hx => hown c hc (Or.inr ⟨r, hr, hx⟩)
    omega

theorem hookAll_elsewhere_run :
    (hookAll 0x40000 [nearCall, farCall, refusedCall] (.start nopMem)).mem 0 =
      nopMem 0 :=
  hookAll_elsewhere exampleRun nopMem
    (by
      simp only [List.forall_mem_cons, List.not_mem_nil, false_imp_iff,
        implies_true, and_true, HookCall.Own, not_or, not_exists, not_and,
        nearCall, farCall, refusedCall]
      refine ⟨⟨by omega, ?_⟩, ⟨by omega, ?_⟩, by omega, ?_⟩ <;>
        · intro r hr hle
          obtain rfl := Option.some.inj hr
          omega)
    (Or.inl (by omega))

/-- The function's words are the jump to the replacement. -/
theorem hookAll_patched (h : HookRun pool (pre ++ c :: post)) (m : Mem)
    (hok : c.rwxOk = true)
    (hslot : c.result.isSome → allocations pre < a64MaxBackups) :
    Holds (hookAll pool (pre ++ c :: post) (.start m)).mem c.symbol
      (patchBytes c.symbol c.replace) := by
  have hpatched : ∃ m', c.leaves (slotAt pool (allocations pre))
      (hookAll pool pre (.start m)).mem =
        write m' c.symbol (patchBytes c.symbol c.replace) := by
    rw [HookCall.leaves]
    cases hr : c.result with
    | none => exact ⟨_, by simp only [hok, if_true]; rfl⟩
    | some r =>
        have hlt := hslot (by rw [hr]; rfl)
        have hpos := h.poolPos
        have hne : slotAt pool (allocations pre) ≠ 0 := by
          rw [slotAt, if_pos hlt]
          omega
        exact ⟨_, by simp only [hne, hok, if_true, if_false]; rfl⟩
  obtain ⟨m', hm'⟩ := hpatched
  refine (holds_write m' c.symbol
    (patchBytes c.symbol c.replace)).congr fun x h₁ h₂ => ?_
  rw [length_patchBytes] at h₂
  rw [h.after m (Or.inl (Or.inl ⟨h₁, h₂⟩)), hm']

theorem HookCall.Sited.diverts {ρ : Type} {A : Arch ρ} {core : Core ρ} {t : Mem}
    (h : c.Sited pool) (ht : Holds t c.symbol (patchBytes c.symbol c.replace)) :
    ∃ core', Move.ButX17 core core' ∧
      Reaches (step A) ⟨c.symbol, core, t⟩ ⟨c.replace, core', t⟩ :=
  patch_diverts h.symbolAligned h.replaceAligned h.symbolFits h.replaceFits ht

/-- A function that was hooked runs its replacement, with no register but X17
changed, whatever else was hooked before and after. -/
theorem hookAll_diverts {ρ : Type} (A : Arch ρ) (core : Core ρ)
    (h : HookRun pool (pre ++ c :: post)) (m : Mem) (hok : c.rwxOk = true)
    (hslot : c.result.isSome → allocations pre < a64MaxBackups) :
    ∃ core', Move.ButX17 core core' ∧
      Reaches (step A)
        ⟨c.symbol, core, (hookAll pool (pre ++ c :: post) (.start m)).mem⟩
        ⟨c.replace, core', (hookAll pool (pre ++ c :: post) (.start m)).mem⟩ :=
  h.split.1.diverts (hookAll_patched h m hok hslot)

theorem hookAll_diverts_far :
    ∃ core', Move.ButX17 idleCore core' ∧
      Reaches (step idle)
        ⟨0x11004, idleCore,
          (hookAll 0x40000 [nearCall, farCall, refusedCall] (.start nopMem)).mem⟩
        ⟨0x20000000, core',
          (hookAll 0x40000 [nearCall, farCall, refusedCall] (.start nopMem)).mem⟩ :=
  hookAll_diverts idle idleCore
    (show HookRun 0x40000 ([nearCall] ++ farCall :: [refusedCall]) from exampleRun)
    nopMem rfl fun _ => by decide

theorem slotAt_lt (h : HookRun pool (pre ++ c :: post)) (n : Nat) :
    slotAt pool n < 256 ^ 8 := by
  have hfits := h.poolFits
  rw [slotAt]
  split
  · next hlt =>
      simp only [slotSize, a64MaxInstructions, a64MaxBackups] at hfits hlt ⊢
      omega
  · omega

/-- At the end of the run the caller's pointer is the slot of the call, or
`NULL` if there was none left or the function could not be overwritten. -/
theorem hookAll_result (h : HookRun pool (pre ++ c :: post)) (m : Mem) {r : Nat}
    (hr : c.result = some r) :
    ByteMem.load (hookAll pool (pre ++ c :: post) (.start m)).mem r 8 =
      if c.rwxOk = true then slotAt pool (allocations pre) else 0 := by
  obtain ⟨hsited, _⟩ := h.split
  have hlt := slotAt_lt h (allocations pre)
  have hsame : ByteMem.load (hookAll pool (pre ++ c :: post) (.start m)).mem r 8 =
      ByteMem.load (c.leaves (slotAt pool (allocations pre))
        (hookAll pool pre (.start m)).mem) r 8 :=
    load_congr fun x h₁ h₂ => h.after m (Or.inl (Or.inr ⟨r, hr, h₁, h₂⟩))
  obtain ⟨hblock, hpool⟩ := hsited.cell r hr
  have hpatch :
      ∀ m, ByteMem.load (write m c.symbol (patchBytes c.symbol c.replace)) r 8 =
      ByteMem.load m r 8 := by
    intro m
    refine load_congr fun x h₁ h₂ => write_outside ?_
    rw [length_patchBytes]
    change x < c.symbol ∨ c.symbol + 4 * c.count ≤ x
    rcases hblock with h | h <;> omega
  rw [hsame, HookCall.leaves, hr]
  simp only []
  split
  · next hz =>
      rw [load_store_same, hz]
      split <;> rfl
  · next hne =>
      obtain ⟨heq, hn⟩ := slotAt_bounds hne
      have hfix : ∀ m, ByteMem.load
          (fixInstructions c.symbol c.count (slotAt pool (allocations pre)) m)
          r 8 = ByteMem.load m r 8 := by
        intro m
        refine load_congr fun x h₁ h₂ => fixInstructions_frame
          (hsited.placed h.poolAligned h.poolFits hne) m ?_
        rw [heq]
        simp only [slotSize, a64MaxInstructions, a64MaxBackups] at hpool hn ⊢
        rcases hpool with h | h <;> omega
      split
      · rw [hpatch, hfix, load_store_same, Nat.mod_eq_of_lt hlt]
      · rw [load_store_same, Nat.zero_mod]

/-- A call that could not be carried out has left the function as it was. -/
theorem hookAll_untouched (h : HookRun pool (pre ++ c :: post)) (m : Mem)
    (hfail : c.rwxOk = false ∨ c.result.isSome ∧ a64MaxBackups ≤ allocations pre)
    (hx : c.symbol ≤ x ∧ x < c.symbol + 4 * c.count) :
    (hookAll pool (pre ++ c :: post) (.start m)).mem x = m x := by
  obtain ⟨hsited, _⟩ := h.split
  have hown : c.Own x := Or.inl hx
  have hstore : ∀ r, c.result = some r → ∀ m v, store m r 8 v x = m x := by
    intro r hr m v
    refine store_outside ?_
    rcases (hsited.cell r hr).1 with h | h <;> omega
  rw [h.after m (Or.inl hown), ← h.before m hown, HookCall.leaves]
  cases hr : c.result with
  | none =>
      rw [hr] at hfail
      have hfalse : ¬ c.rwxOk = true := by simpa using hfail
      simp only [hfalse, Bool.false_eq_true, if_false]
  | some r =>
      simp only []
      split
      · exact hstore r hr _ 0
      · next hne =>
          obtain ⟨heq, hn⟩ := slotAt_bounds hne
          have hfalse : ¬ c.rwxOk = true := by
            rcases hfail with hfalse | ⟨_, hfull⟩
            · simp [hfalse]
            · omega
          have hoff := hsited.off_pool hown
          rw [if_neg hfalse, hstore r hr, fixInstructions_frame
            (hsited.placed h.poolAligned h.poolFits hne), hstore r hr]
          rw [heq]
          simp only [slotSize, a64MaxInstructions, a64MaxBackups] at hoff hn ⊢
          omega

/-- All or nothing: either the pointer is `NULL` and the function is as it was,
or the pointer is a slot and the function runs its replacement. -/
theorem hookAll_all_or_nothing (h : HookRun pool (pre ++ c :: post)) (m : Mem)
    {r : Nat} (hr : c.result = some r) :
    (ByteMem.load (hookAll pool (pre ++ c :: post) (.start m)).mem r 8 = 0 ∧
      ∀ x, c.symbol ≤ x → x < c.symbol + 4 * c.count →
        (hookAll pool (pre ++ c :: post) (.start m)).mem x = m x) ∨
    (ByteMem.load (hookAll pool (pre ++ c :: post) (.start m)).mem r 8 ≠ 0 ∧
      ∀ {ρ : Type} (A : Arch ρ) (core : Core ρ), ∃ core', Move.ButX17 core core' ∧
        Reaches (step A)
          ⟨c.symbol, core, (hookAll pool (pre ++ c :: post) (.start m)).mem⟩
          ⟨c.replace, core',
            (hookAll pool (pre ++ c :: post) (.start m)).mem⟩) := by
  have hload := hookAll_result h m hr
  by_cases hdone : c.rwxOk = true ∧ allocations pre < a64MaxBackups
  · obtain ⟨hok, hlt⟩ := hdone
    have hpos := h.poolPos
    rw [if_pos hok, slotAt, if_pos hlt] at hload
    refine Or.inr ⟨by omega, fun A core => ?_⟩
    exact h.split.1.diverts (hookAll_patched h m hok fun _ => hlt)
  · refine Or.inl ⟨?_, fun x h₁ h₂ => hookAll_untouched h m ?_ ⟨h₁, h₂⟩⟩
    · rw [hload, slotAt]
      split
      · next hok => exact if_neg fun hlt => hdone ⟨hok, hlt⟩
      · rfl
    · by_cases hok : c.rwxOk = true
      · exact Or.inr ⟨by rw [hr]; rfl, Nat.not_lt.mp fun hlt => hdone ⟨hok, hlt⟩⟩
      · exact Or.inl (by simpa using hok)

theorem hookAll_all_or_nothing_refused :
    (ByteMem.load
        (hookAll 0x40000 [nearCall, farCall, refusedCall]
          (.start nopMem)).mem 0x30010 8 = 0 ∧
      ∀ x, refusedCall.symbol ≤ x → x < refusedCall.symbol + 4 * refusedCall.count →
        (hookAll 0x40000 [nearCall, farCall, refusedCall] (.start nopMem)).mem x =
          nopMem x) ∨
    (ByteMem.load
        (hookAll 0x40000 [nearCall, farCall, refusedCall]
          (.start nopMem)).mem 0x30010 8 ≠ 0 ∧
      ∀ {ρ : Type} (A : Arch ρ) (core : Core ρ), ∃ core', Move.ButX17 core core' ∧
        Reaches (step A)
          ⟨refusedCall.symbol, core,
            (hookAll 0x40000 [nearCall, farCall, refusedCall] (.start nopMem)).mem⟩
          ⟨refusedCall.replace, core',
            (hookAll 0x40000 [nearCall, farCall, refusedCall]
              (.start nopMem)).mem⟩) :=
  hookAll_all_or_nothing
    (show HookRun 0x40000 ([nearCall, farCall] ++ refusedCall :: []) from
      exampleRun) nopMem rfl

/-- No slot is handed out twice: of two pointers that are not `NULL` the later
one is a whole slot further on, and both are in the pool. -/
theorem hookAll_pointers {mid : List HookCall} {d : HookCall}
    (h : HookRun pool (pre ++ c :: (mid ++ d :: post))) (m : Mem) {r q : Nat}
    (hr : c.result = some r) (hq : d.result = some q)
    (hc : ByteMem.load
      (hookAll pool (pre ++ c :: (mid ++ d :: post)) (.start m)).mem r 8 ≠ 0)
    (hd : ByteMem.load
      (hookAll pool (pre ++ c :: (mid ++ d :: post)) (.start m)).mem q 8 ≠ 0) :
    pool ≤ ByteMem.load
        (hookAll pool (pre ++ c :: (mid ++ d :: post)) (.start m)).mem r 8 ∧
      ByteMem.load
          (hookAll pool (pre ++ c :: (mid ++ d :: post)) (.start m)).mem r 8 +
          slotSize ≤
        ByteMem.load
          (hookAll pool (pre ++ c :: (mid ++ d :: post)) (.start m)).mem q 8 ∧
      ByteMem.load
          (hookAll pool (pre ++ c :: (mid ++ d :: post)) (.start m)).mem q 8 +
          slotSize ≤ pool + slotSize * a64MaxBackups := by
  have hsplit : pre ++ c :: (mid ++ d :: post) =
      (pre ++ c :: mid) ++ d :: post := by simp
  have hfirst := hookAll_result h m hr
  have hsecond := hookAll_result (hsplit ▸ h) m hq
  rw [← hsplit] at hsecond
  have hmore : allocations pre < allocations (pre ++ c :: mid) := by
    have happ : allocations (pre ++ c :: mid) =
        allocations pre + allocations (c :: mid) :=
      List.countP_append
    have hone : allocations [c] = 1 := by simp [allocations, hr]
    rw [happ, allocations_cons, hone]
    omega
  rw [hfirst] at hc ⊢
  rw [hsecond] at hd ⊢
  split at hc
  · split at hd
    · next hok hok' =>
        obtain ⟨heq, hlt⟩ := slotAt_bounds hc
        obtain ⟨heq', hlt'⟩ := slotAt_bounds hd
        rw [if_pos hok, if_pos hok', heq, heq']
        simp only [slotSize, a64MaxInstructions, a64MaxBackups] at hlt hlt' ⊢
        omega
    · exact absurd rfl hd
  · exact absurd rfl hc

theorem hookAll_pointers_two :
    0x40000 ≤ ByteMem.load
        (hookAll 0x40000 [nearCall, farCall, refusedCall]
          (.start nopMem)).mem 0x30000 8 ∧
      ByteMem.load
          (hookAll 0x40000 [nearCall, farCall, refusedCall]
            (.start nopMem)).mem 0x30000 8 +
          slotSize ≤
        ByteMem.load
          (hookAll 0x40000 [nearCall, farCall, refusedCall]
            (.start nopMem)).mem 0x30008 8 ∧
      ByteMem.load
          (hookAll 0x40000 [nearCall, farCall, refusedCall]
            (.start nopMem)).mem 0x30008 8 +
          slotSize ≤ 0x40000 + slotSize * a64MaxBackups := by
  have hrun :
      HookRun 0x40000 ([] ++ nearCall :: ([] ++ farCall :: [refusedCall])) :=
    exampleRun
  have hsecond : HookRun 0x40000 ([nearCall] ++ farCall :: [refusedCall]) :=
    exampleRun
  have hfirst : (if nearCall.rwxOk = true then slotAt 0x40000 (allocations [])
      else 0) ≠ 0 := by
    decide
  have hnext : (if farCall.rwxOk = true then
      slotAt 0x40000 (allocations [nearCall]) else 0) ≠ 0 := by
    decide
  rw [← hookAll_result hrun nopMem rfl] at hfirst
  rw [← hookAll_result hsecond nopMem rfl] at hnext
  have hboth := hookAll_pointers hrun nopMem rfl rfl hfirst hnext
  simp only [List.nil_append] at hboth
  exact hboth

/-- The caller's pointer is the slot, where a copy of the words is laid out, and
the copy runs as the function did. A run of the function, had it not been
overwritten, that leaves the words that were is one of the copy, to the same
address and in the same state. -/
theorem hookAll_trampoline (h : HookRun pool (pre ++ c :: post)) (m : Mem) {r : Nat}
    (hr : c.result = some r) (hok : c.rwxOk = true)
    (hslot : allocations pre < a64MaxBackups) :
    ∃ start copy, ∀ v, v = c.move pool pre r m
        (hookAll pool (pre ++ c :: post) (.start m)).mem start copy →
      (∀ i < v.count, v.Relocatable i) →
      (ByteMem.load (hookAll pool (pre ++ c :: post) (.start m)).mem r 8 = v.slot ∧
        v.start 0 = v.slot ∧ v.Laid) ∧
      ∀ {ρ : Type} (A : Arch ρ) (core : Core ρ) (s t : Mem) (k : Nat), v.Twin s t →
        (∀ j ≤ k, v.Inside ((step A)^[j] ⟨c.symbol, core, s⟩).pc) →
        (∀ j ≤ k, v.Fit A ((step A)^[j] ⟨c.symbol, core, s⟩)) →
        ¬ v.Inside ((step A)^[k + 1] ⟨c.symbol, core, s⟩).pc →
        ∃ u, Reaches (step A)
            ⟨ByteMem.load (hookAll pool (pre ++ c :: post) (.start m)).mem r 8,
              core, t⟩ u ∧
          v.Departed (((step A)^[k] ⟨c.symbol, core, s⟩).Calls A)
            ((step A)^[k + 1] ⟨c.symbol, core, s⟩) u := by
  obtain ⟨hsited, _⟩ := h.split
  have hpos := h.poolPos
  have hne : slotAt pool (allocations pre) ≠ 0 := by
    rw [slotAt, if_pos hslot]
    omega
  have hplaced := hsited.placed h.poolAligned h.poolFits hne
  have hload := hookAll_result h m hr
  rw [if_pos hok] at hload
  obtain ⟨start, copy, hstart, hlaid⟩ := fixInstructions_laid hplaced
    (store (hookAll pool pre (.start m)).mem r 8 (slotAt pool (allocations pre)))
  refine ⟨start, copy, fun v hv hrel => ?_⟩
  have hfixed : ∀ x, slotAt pool (allocations pre) ≤ x →
      x < slotAt pool (allocations pre) + slotSize →
      (hookAll pool (pre ++ c :: post) (.start m)).mem x =
        fixInstructions c.symbol c.count (slotAt pool (allocations pre))
          (store (hookAll pool pre (.start m)).mem r 8
            (slotAt pool (allocations pre))) x := by
    intro x h₁ h₂
    rw [h.after m (Or.inr ⟨hne, by rw [hr]; rfl, h₁, h₂⟩), HookCall.leaves, hr]
    simp only [hne, hok, if_true, if_false]
    refine write_outside ?_
    rw [length_patchBytes]
    change x < c.symbol ∨ c.symbol + 4 * c.count ≤ x
    rcases hplaced.apart with h | h <;> omega
  have hv' := hlaid _ hfixed v hv (by rw [hv] at hrel ⊢; exact hrel)
  have hcount : 0 < c.count := (hookCount_bounds c.symbol c.replace).1
  subst hv
  refine ⟨⟨hload, hstart, hv'⟩, fun A core s t k htwin hin hfit hout => ?_⟩
  rw [hload]
  exact hv'.run ⟨⟨0, hcount, rfl, Or.inl hstart.symm⟩, rfl, htwin⟩ hin hfit hout

/-- A function that begins with a call, 128 megabytes back and out of reach
from the pool. -/
def linkCall : HookCall :=
  { rwxOk := true, symbol := 0x8010000, replace := 0x8020000,
    result := some 0x30000 }

def linkMem : Mem := store nopMem 0x8010000 4 0x96000000

theorem linkRun : HookRun 0x9000000 ([] ++ linkCall :: []) := by
  refine ⟨by omega, by omega, by decide, ?_, List.pairwise_singleton _ _, by decide⟩
  simp only [List.nil_append, List.forall_mem_singleton]
  refine ⟨by decide, by decide, by decide, by decide, by decide, fun r hr => ?_⟩
  obtain rfl := Option.some.inj hr
  decide

/-- The call, made from the copy: it goes where it went, and what it leaves in
the link register is behind what stands for it in the slot. -/
theorem hookAll_trampoline_link : ∃ start copy, start 0 = 0x9000000 ∧
    (linkCall.move 0x9000000 [] 0x30000 linkMem
      (hookAll 0x9000000 ([] ++ linkCall :: []) (.start linkMem)).mem
      start copy).Laid ∧
    ∃ u, Reaches (step idle)
        ⟨ByteMem.load (hookAll 0x9000000 ([] ++ linkCall :: [])
            (.start linkMem)).mem 0x30000 8, idleCore,
          (hookAll 0x9000000 ([] ++ linkCall :: []) (.start linkMem)).mem⟩ u ∧
      u.pc = 0x10000 ∧ u.core.x 30 = start 1 := by
  obtain ⟨start, copy, h⟩ := hookAll_trampoline linkRun linkMem rfl rfl (by decide)
  let v := linkCall.move 0x9000000 [] 0x30000 linkMem
    (hookAll 0x9000000 ([] ++ linkCall :: []) (.start linkMem)).mem start copy
  have htwin : v.Twin (v.restored v.after) v.after :=
    Move.twin_restored fun _ _ => rfl
  have hcount : v.count = 1 := show linkCall.count = 1 by decide
  have hbase : v.base + 4 * 0 = 0x8010000 := rfl
  have hbl : decode (fetch v.before 0x8010000) = .b true (-0x8000000) := by
    have hsame : fetch v.before 0x8010000 = fetch linkMem 0x8010000 :=
      fetch_congr fun x h₁ h₂ => store_outside (Or.inr (by omega))
    have hword : fetch linkMem 0x8010000 = 0x96000000#32 := by
      rw [fetch, linkMem, load_store_same]
      rfl
    rw [hsame, hword]
    decide
  have hold : decode (fetch (v.restored v.after) 0x8010000) =
      .b true (-0x8000000) := by
    have hfetch := htwin.fetch_old (show 0 < v.count by omega)
    rw [hbase] at hfetch
    rw [hfetch, hbl]
  have hstep : step idle ⟨0x8010000, idleCore, v.restored v.after⟩ =
      ⟨0x10000, idleCore.setX 30 0x8010004, v.restored v.after⟩ := by
    have hpc : wrap ((0x8010000 : Nat) + -0x8000000) = 0x10000 :=
      wrap_eq (by omega) (by omega)
    have hlink : wrap ((0x8010000 : Nat) + 4) = 0x8010004 :=
      wrap_eq (by omega) (by omega)
    rw [step_of_decode hold, Cpu.exec]
    show (⟨wrap ((0x8010000 : Nat) + -0x8000000), _, _⟩ : Cpu Unit) = _
    rw [hpc, hlink]
    rfl
  obtain ⟨⟨_, hstart, hlaid⟩, hrun⟩ := h v rfl fun i hi => by
    obtain rfl : i = 0 := by omega
    simp only [Move.Relocatable, hbase, hbl]
    intro _
    rw [Move.Outside, hcount]
    show -(2 ^ 62) ≤ ((0x8010000 : Nat) : Int) + -0x8000000 ∧ _ ∧
      (_ < ((0x8010000 : Nat) : Int) ∨ _)
    omega
  obtain ⟨u, hreach, hleft⟩ :=
    hrun idle idleCore (v.restored v.after) v.after 0 htwin
    (fun j hj => by
      obtain rfl : j = 0 := by omega
      refine ⟨Nat.le_refl _, ?_⟩
      rw [hcount]
      exact Nat.lt_add_of_pos_right (by omega))
    (fun j hj => by
      obtain rfl : j = 0 := by omega
      show v.Fit idle ⟨0x8010000, idleCore, v.restored v.after⟩
      simp only [Move.Fit, hold])
    (by
      show ¬ v.Inside (step idle ⟨0x8010000, idleCore, v.restored v.after⟩).pc
      rw [hstep, Move.Inside]
      show ¬ (0x8010000 ≤ 0x10000 ∧ _)
      omega)
  change v.Departed
    (Cpu.Calls idle ⟨0x8010000, idleCore, v.restored v.after⟩)
    (step idle ⟨0x8010000, idleCore, v.restored v.after⟩) u at hleft
  rw [hstep, Cpu.Calls, hold] at hleft
  obtain ⟨i, hi, _, hback⟩ := hleft.back rfl
  obtain rfl : i = 0 := by omega
  exact ⟨start, copy, hstart, hlaid, u, hreach, hleft.pc, hback⟩

end

end PistolWhipHook
