import PistolWhipHook.Proofs.FixRound
import PistolWhipHook.Proofs.Relocation
import PistolWhipHook.Spec.Hooks

/-!
# `__fix_instructions`

The loop, with its waiting words. The pieces that the rounds emit are laid out
one behind the other; `Fixing` says, after `k` rounds, that each piece so far
stands where it was laid, settled as far as it does not wait for an
instruction still to come, and that the maps hold exactly what waits. At the
end nothing waits, and the block is laid out in the room as `Move.Laid` has
it. Nothing outside the fifty words was written, whatever the words were.
-/

namespace PistolWhipHook

open ByteMem A64

/-! ## Pieces in a row -/

/-- Where piece `k` begins. -/
def startOf (slot : Nat) (ps : Nat → Piece) : Nat → Nat
  | 0 => slot
  | k + 1 => startOf slot ps k + (ps k).size

/-- Where its `NOP`s end. -/
def copyOf (slot : Nat) (ps : Nat → Piece) (k : Nat) : Nat :=
  startOf slot ps k + 4 * (ps k).pad

/-- What instruction `j` finds waiting after `k` rounds: an entry for each
word among the pieces so far that waits for it. -/
def waitingOf (slot : Nat) (ps : Nat → Piece) (j i : Nat) : Option FixInfo :=
  match (ps i).body with
  | .code _ => none
  | .waits _ ref ls ad =>
      if ref = j then some { bp := copyOf slot ps i, ls, ad } else none

def waiting (slot : Nat) (ps : Nat → Piece) (j k : Nat) : List FixInfo :=
  (List.range k).filterMap (waitingOf slot ps j)

/-- The body of piece `i` after `k` rounds. -/
def partly (slot : Nat) (ps : Nat → Piece) (k i : Nat) : List UInt8 :=
  match (ps i).body with
  | .code bs => bs
  | .waits w ref ls ad =>
      if ref < k then (Body.waits w ref ls ad).settled (copyOf slot ps)
        (copyOf slot ps i)
      else wordBytes w

section

variable {slot : Nat} {ps : Nat → Piece}

theorem startOf_mono (slot : Nat) (ps : Nat → Piece) {i k : Nat} (h : i ≤ k) :
    startOf slot ps i ≤ startOf slot ps k := by
  induction k with
  | zero =>
      have hi : i = 0 := by omega
      rw [hi]
  | succ k ih =>
      by_cases hi : i = k + 1
      · rw [hi]
      · have := ih (by omega)
        rw [startOf]
        omega

theorem length_partly (k i : Nat) :
    (partly slot ps k i).length = (ps i).body.raw.length := by
  rw [partly]
  split
  · next h => rw [h, Body.raw]
  · next h =>
      rw [h]
      split
      · exact Body.length_settled _ _ _
      · rfl

theorem copyOf_next (i : Nat) :
    startOf slot ps (i + 1) = copyOf slot ps i + (ps i).body.raw.length := by
  rw [startOf, copyOf, Piece.size, Nat.add_assoc]

/-- An entry, with the piece that it is about. -/
theorem mem_waiting {j k : Nat} {f : FixInfo} :
    f ∈ waiting slot ps j k ↔ ∃ i < k, ∃ w ls ad, (ps i).body = .waits w j ls ad ∧
      f = { bp := copyOf slot ps i, ls, ad } := by
  rw [waiting, List.mem_filterMap]
  constructor
  · intro ⟨i, hi, hf⟩
    rw [waitingOf] at hf
    split at hf
    · exact absurd hf (by simp)
    · next w ref ls ad hb =>
        split at hf
        · next href =>
            subst href
            exact ⟨i, List.mem_range.mp hi, w, ls, ad, hb,
              (Option.some.inj hf).symm⟩
        · exact absurd hf (by simp)
  · intro ⟨i, hi, w, ls, ad, hb, hf⟩
    refine ⟨i, List.mem_range.mpr hi, ?_⟩
    rw [waitingOf, hb, hf]
    simp

theorem waiting_succ (j k : Nat) :
    waiting slot ps j (k + 1) =
      waiting slot ps j k ++ (waitingOf slot ps j k).toList := by
  rw [waiting, List.range_succ, List.filterMap_append, waiting]
  congr 1

theorem length_waiting (slot : Nat) (ps : Nat → Piece) (j k : Nat) :
    (waiting slot ps j k).length ≤ k := by
  have h := List.length_filterMap_le (waitingOf slot ps j) (List.range k)
  rw [List.length_range] at h
  exact h

/-- Entries are about different words. -/
theorem waiting_apart (j k : Nat) :
    (waiting slot ps j k).Pairwise fun f g => Apart f.bp 4 g.bp 4 := by
  refine List.Pairwise.filterMap _ ?_ List.pairwise_lt_range
  intro i i' hlt f hf g hg
  rw [waitingOf] at hf hg
  split at hf
  · exact absurd hf (by simp)
  · next w ref ls ad hb =>
      split at hf
      · split at hg
        · exact absurd hg (by simp)
        · split at hg
          · obtain rfl := Option.some.inj hf
            obtain rfl := Option.some.inj hg
            have hmono := startOf_mono slot ps (show i + 1 ≤ i' by omega)
            rw [copyOf_next, hb, Body.raw, length_wordBytes] at hmono
            refine Or.inl ?_
            show copyOf slot ps i + 4 ≤ copyOf slot ps i'
            rw [copyOf] at hmono ⊢
            rw [copyOf]
            omega
          · exact absurd hg (by simp)
      · exact absurd hf (by simp)

end

/-- Inserting behind the entries in use, as long as there is room. -/
theorem insertFmap_append {g : FixInfo} {fs : List FixInfo} {n : Nat}
    (hfs : ∀ f ∈ fs, f.bp ≠ 0) (hn : 0 < n) :
    insertFmap g (fs ++ List.replicate n FixInfo.zero) =
      fs ++ [g] ++ List.replicate (n - 1) FixInfo.zero := by
  induction fs with
  | nil =>
      obtain ⟨d, rfl⟩ := Nat.exists_eq_add_of_le' hn
      simp [insertFmap, List.replicate_succ, FixInfo.zero]
  | cons f fs ih =>
      have hf := hfs f (by simp)
      have ih := ih fun f hf => hfs f (by simp [hf])
      simp only [List.cons_append, insertFmap, hf, if_false, ih]

theorem live_append {fs : List FixInfo} {n : Nat} (hfs : ∀ f ∈ fs, f.bp ≠ 0) :
    live (fs ++ List.replicate n FixInfo.zero) = fs := by
  have hzero : (List.replicate n FixInfo.zero).takeWhile (fun f =>
      decide (f.bp ≠ 0)) = [] := by
    cases n <;> simp [List.replicate_succ, FixInfo.zero]
  rw [live, List.takeWhile_append_of_pos (by simpa using hfs), hzero,
    List.append_nil]

/-! ## The loop -/

/-- After `k` rounds. -/
structure Fixing (base count slot : Nat) (m : Mem) (ps : Nat → Piece) (k : Nat)
    (s : FixState) : Prop where
  inp : s.inp = base + 4 * k
  outp : s.outp = startOf slot ps k
  basep : s.ctx.basep = base
  endp : s.ctx.endp = (base : Int) + 4 * count
  aligned : s.outp % 4 = 0
  small : s.outp ≤ slot + 36 * k
  ins : ∀ j < k, (s.ctx.dat j).ins = copyOf slot ps j
  fmap : ∀ j, k ≤ j → (s.ctx.dat j).fmap = waiting slot ps j k ++
    List.replicate (a64MaxReferences - (waiting slot ps j k).length) FixInfo.zero
  held : ∀ i < k, Holds s.mem (startOf slot ps i)
    (nopBytes (ps i).pad ++ partly slot ps k i)
  frame : ∀ x, x < slot ∨ startOf slot ps k ≤ x → s.mem x = m x

/-- The pieces so far are such as `Serves` says. -/
def Sound (base count : Nat) (ps : Nat → Piece) (k : Nat) : Prop :=
  ∀ i < k, (ps i).size ≤ 36 ∧ (ps i).size % 4 = 0 ∧
    ∀ w ref ls ad, (ps i).body = .waits w ref ls ad →
      (ps i).pad = 0 ∧ i < ref ∧ (base : Int) + 4 * ref < base + 4 * count

section

variable {base count slot k : Nat} {m : Mem} {ps : Nat → Piece} {s s₁ : FixState}

theorem Fixing.waiting_bounds (h : Fixing base count slot m ps k s)
    (hslot : 0 < slot) {j : Nat} {f : FixInfo} (hf : f ∈ waiting slot ps j k) :
    f.bp ≠ 0 ∧ slot ≤ f.bp ∧ f.bp + 4 ≤ s.outp := by
  obtain ⟨i, hi, w, ls, ad, hb, rfl⟩ := mem_waiting.mp hf
  have hfirst := startOf_mono slot ps (Nat.zero_le i)
  have hlast := startOf_mono slot ps (show i + 1 ≤ k by omega)
  rw [copyOf_next, hb, Body.raw, length_wordBytes, ← h.outp] at hlast
  rw [startOf] at hfirst
  rw [copyOf] at hlast ⊢
  show startOf slot ps i + 4 * (ps i).pad ≠ 0 ∧
    slot ≤ startOf slot ps i + 4 * (ps i).pad ∧
    startOf slot ps i + 4 * (ps i).pad + 4 ≤ s.outp
  omega

theorem Fixing.live_eq (h : Fixing base count slot m ps k s) (hslot : 0 < slot) :
    live (s.ctx.dat k).fmap = waiting slot ps k k := by
  rw [h.fmap k (Nat.le_refl k)]
  exact live_append fun f hf => (h.waiting_bounds hslot hf).1

theorem Fixing.currentIdx (h : Fixing base count slot m ps k s) :
    s.currentIdx = k := by
  rw [FixState.currentIdx, Context.getRefInsIndex, h.inp, h.basep]
  omega

theorem process_dat_ins (s : FixState) (k j : Nat) :
    ((s.processFixMap k).ctx.dat j).ins = (s.ctx.dat j).ins := by
  by_cases h : j = k
  · rw [h, FixState.processFixMap, dat_setDat_same]
  · exact congrArg InsnsInfo.ins (dat_setDat_other h)

theorem process_dat_fmap (s : FixState) {k j : Nat} (h : j ≠ k) :
    ((s.processFixMap k).ctx.dat j).fmap = (s.ctx.dat j).fmap :=
  congrArg InsnsInfo.fmap (dat_setDat_other h)

theorem process_mem (s : FixState) (k : Nat) : (s.processFixMap k).mem =
    (live (s.ctx.dat k).fmap).foldl (fun m f => settle (s.ctx.dat k).ins f m)
      s.mem :=
  processFmap_mem _ _ _

/-- What a round leaves of a piece that was there before it: the words that
waited for the round's instruction are settled. -/
theorem Fixing.held_before (h : Fixing base count slot m ps k s)
    (hsound : Sound base count ps k) (hemit : Emits k s s₁ (ps k))
    (hlive : live (s₁.ctx.dat k).fmap = waiting slot ps k k) {i : Nat}
    (hi : i < k) :
    Holds (s₁.processFixMap k).mem (startOf slot ps i)
      (nopBytes (ps i).pad ++ partly slot ps (k + 1) i) := by
  have hins : (s₁.ctx.dat k).ins = copyOf slot ps k := by
    rw [hemit.ins, h.outp, copyOf]
  have hlast := startOf_mono slot ps (show i + 1 ≤ k by omega)
  have hlen : startOf slot ps (i + 1) = startOf slot ps i +
      (nopBytes (ps i).pad ++ partly slot ps k i).length := by
    rw [List.length_append, length_nopBytes, length_partly, copyOf_next, copyOf,
      Nat.add_assoc]
  -- the piece as it was, under the write of the new one
  have hheld : Holds s₁.mem (startOf slot ps i)
      (nopBytes (ps i).pad ++ partly slot ps k i) := by
    refine (h.held i hi).congr fun x h₁ h₂ => ?_
    rw [hemit.mem, write_below]
    rw [h.outp]
    omega
  rw [process_mem, hlive, hins]
  by_cases hwait : ∃ w ls ad, (ps i).body = .waits w k ls ad
  · obtain ⟨w, ls, ad, hb⟩ := hwait
    obtain ⟨hpad, _, _⟩ := (hsound i hi).2.2 w k ls ad hb
    have hcopy : copyOf slot ps i = startOf slot ps i := by rw [copyOf, hpad]; omega
    have hpart : partly slot ps k i = wordBytes w := by
      rw [partly, hb]
      exact if_neg (Nat.lt_irrefl k)
    have hdone : partly slot ps (k + 1) i = wordBytes
        (FixInfo.fixed { bp := copyOf slot ps i, ls, ad } (copyOf slot ps k)
          w) := by
      rw [partly, hb]
      exact if_pos (Nat.lt_succ_self k)
    rw [hpad, hpart] at hheld
    have hfetch : fetch s₁.mem (copyOf slot ps i) = w := by
      rw [hcopy]
      exact Holds.fetch_eq hheld
    have hmem : { bp := copyOf slot ps i, ls, ad } ∈ waiting slot ps k k :=
      mem_waiting.mpr ⟨i, hi, w, ls, ad, hb, rfl⟩
    rw [hpad, hdone, ← hcopy, ← hfetch]
    exact settleAll_fetch hmem (waiting_apart k k)
  · have hsame : partly slot ps (k + 1) i = partly slot ps k i := by
      rw [partly, partly]
      split
      · rfl
      · next w ref ls ad hb =>
          have href : ref ≠ k := fun he => hwait ⟨w, ls, ad, he ▸ hb⟩
          by_cases hlt : ref < k
          · rw [if_pos hlt, if_pos (by omega)]
          · rw [if_neg hlt, if_neg (by omega)]
    rw [hsame]
    refine hheld.congr fun x h₁ h₂ => (settleAll_outside fun f hf => ?_).symm
    obtain ⟨i', hi', w, ls, ad, hb, rfl⟩ := mem_waiting.mp hf
    have hne : i' ≠ i := fun he => hwait ⟨w, ls, ad, he ▸ hb⟩
    have hend : startOf slot ps (i' + 1) = copyOf slot ps i' + 4 := by
      rw [copyOf_next, hb, Body.raw, length_wordBytes]
    have hbegin : startOf slot ps i' ≤ copyOf slot ps i' := Nat.le_add_right _ _
    show x < copyOf slot ps i' ∨ copyOf slot ps i' + 4 ≤ x
    rcases Nat.lt_or_gt_of_ne hne with hlt | hgt
    · have hmono := startOf_mono slot ps (show i' + 1 ≤ i by omega)
      exact Or.inr (by omega)
    · have hmono := startOf_mono slot ps (show i + 1 ≤ i' by omega)
      exact Or.inl (by omega)

/-- The new piece, and what waits for it settled below it. -/
theorem Fixing.held_new (h : Fixing base count slot m ps k s) (hslot : 0 < slot)
    (hsound : Sound base count ps (k + 1)) (hemit : Emits k s s₁ (ps k))
    (hlive : live (s₁.ctx.dat k).fmap = waiting slot ps k k) :
    Holds (s₁.processFixMap k).mem (startOf slot ps k)
      (nopBytes (ps k).pad ++ partly slot ps (k + 1) k) := by
  have hraw : partly slot ps (k + 1) k = (ps k).body.raw := by
    rw [partly]
    split
    · next hb => rw [hb, Body.raw]
    · next w ref ls ad hb =>
        obtain ⟨_, href, _⟩ := (hsound k (Nat.lt_succ_self k)).2.2 w ref ls ad hb
        rw [hb, Body.raw, if_neg (by omega)]
  have hheld : Holds s₁.mem (startOf slot ps k) (ps k).bytes := by
    rw [hemit.mem, h.outp]
    exact holds_write _ _ _
  rw [hraw, process_mem, hlive]
  refine hheld.congr fun x h₁ h₂ => (settleAll_outside fun f hf => Or.inr ?_).symm
  have hf := (h.waiting_bounds hslot hf).2.2
  rw [h.outp] at hf
  omega

/-- The maps after a round, of the instructions still to come. -/
theorem Fixing.fmap_next (h : Fixing base count slot m ps k s) (hslot : 0 < slot)
    (hk : k < a64MaxInstructions) (hemit : Emits k s s₁ (ps k)) {j : Nat}
    (hj : k + 1 ≤ j) :
    ((s₁.processFixMap k).ctx.dat j).fmap = waiting slot ps j (k + 1) ++
      List.replicate (a64MaxReferences - (waiting slot ps j (k + 1)).length)
        FixInfo.zero := by
  have hlen := length_waiting slot ps j k
  have hroom : k < a64MaxReferences := by
    rw [a64MaxReferences]
    omega
  rw [process_dat_fmap _ (by omega), hemit.fmap, h.fmap j (by omega), h.outp,
    waiting_succ, waitingOf]
  cases hb : (ps k).body with
  | code bs => simp [Body.entered]
  | waits w ref ls ad =>
      by_cases href : j = ref
      · subst href
        simp only [Body.entered, if_true, Option.toList_some]
        rw [insertFmap_append (fun f hf => (h.waiting_bounds hslot hf).1)
          (by omega)]
        simp only [List.length_append, List.length_singleton, List.append_assoc,
          Nat.sub_sub, copyOf]
      · have hne : ¬ ref = j := fun he => href he.symm
        simp [Body.entered, href, hne]

/-- One round keeps the invariant. -/
theorem Fixing.step (hp : Placed base count slot)
    (h : Fixing base count slot m ps k s)
    (hk : k < count) (hsound : Sound base count ps (k + 1))
    (hemit : Emits k s s₁ (ps k)) :
    Fixing base count slot m ps (k + 1) (s₁.advance.processFixMap k) := by
  have hslot := hp.slotPos
  have hmax : k < a64MaxInstructions := Nat.lt_of_lt_of_le hk hp.atMost
  obtain ⟨hsmall, hwhole, hrefs⟩ := hsound k (Nat.lt_succ_self k)
  have hentered : (s₁.ctx.dat k).fmap = (s.ctx.dat k).fmap := by
    rw [hemit.fmap]
    cases hb : (ps k).body with
    | code bs => rfl
    | waits w ref ls ad =>
        obtain ⟨_, href, _⟩ := hrefs w ref ls ad hb
        exact if_neg (by omega)
  have hlive : live (s₁.ctx.dat k).fmap = waiting slot ps k k := by
    rw [hentered]
    exact h.live_eq hslot
  have hout : s₁.outp = startOf slot ps (k + 1) := by
    rw [hemit.outp, h.outp, startOf]
  have haligned := h.aligned
  have hbound := h.small
  refine ⟨?_, hout, ?_, ?_, ?_, ?_, fun j hj => ?_, fun j hj => ?_, fun i hi => ?_,
    fun x hx => ?_⟩
  · show s₁.inp + 4 = _
    rw [hemit.inp, h.inp]
    omega
  · exact hemit.basep.trans h.basep
  · exact hemit.endp.trans h.endp
  · show s₁.outp % 4 = 0
    rw [hemit.outp]
    omega
  · show s₁.outp ≤ _
    rw [hemit.outp]
    omega
  · rw [process_dat_ins]
    by_cases hjk : j = k
    · rw [hjk]
      show (s₁.ctx.dat k).ins = _
      rw [hemit.ins, h.outp, copyOf]
    · exact (hemit.ins_other j hjk).trans (h.ins j (by omega))
  · exact h.fmap_next hslot hmax hemit hj
  · show Holds (s₁.processFixMap k).mem _ _
    by_cases hik : i = k
    · rw [hik]
      exact h.held_new hslot hsound hemit hlive
    · exact h.held_before (fun i hi => hsound i (by omega)) hemit hlive (by omega)
  · show (s₁.processFixMap k).mem x = m x
    have hgrow := startOf_mono slot ps (Nat.le_succ k)
    have hfirst := startOf_mono slot ps (Nat.zero_le k)
    rw [startOf] at hfirst
    rw [startOf] at hx
    have hwrite : s₁.mem x = m x := by
      rw [hemit.mem, write_outside, h.frame x (by omega)]
      rw [Piece.length_bytes, h.outp]
      omega
    rw [process_mem, hlive, settleAll_outside, hwrite]
    intro f hf
    obtain ⟨_, hlo, hhi⟩ := h.waiting_bounds hslot hf
    rw [h.outp] at hhi
    omega

end

theorem fixLoop_eq (n : Nat) (s : FixState) : fixLoop n s = fixOne^[n] s := by
  induction n generalizing s with
  | zero => rfl
  | succ n ih => exact ih (fixOne s)

/-- The pieces that the rounds emit, whichever state each begins in. -/
theorem exists_pieces (s₀ : FixState) : ∃ ps : Nat → Piece, ∀ k,
    (fixOne^[k] s₀).outp % 4 = 0 →
    (∀ f ∈ live ((fixOne^[k] s₀).ctx.dat (fixOne^[k] s₀).currentIdx).fmap,
      Apart f.bp 4 (fixOne^[k] s₀).outp 4 ∧ Apart f.bp 4 (fixOne^[k] s₀).inp 4) →
    ∃ s₁, fixOne^[k + 1] s₀ = s₁.advance.processFixMap (fixOne^[k] s₀).currentIdx ∧
      Emits (fixOne^[k] s₀).currentIdx (fixOne^[k] s₀) s₁ (ps k) ∧
      Serves (fixOne^[k] s₀) (ps k) := by
  have hround : ∀ k, ∃ p : Piece,
      (fixOne^[k] s₀).outp % 4 = 0 →
      (∀ f ∈ live ((fixOne^[k] s₀).ctx.dat (fixOne^[k] s₀).currentIdx).fmap,
        Apart f.bp 4 (fixOne^[k] s₀).outp 4 ∧ Apart f.bp 4 (fixOne^[k] s₀).inp 4) →
      ∃ s₁, fixOne^[k + 1] s₀ =
        s₁.advance.processFixMap (fixOne^[k] s₀).currentIdx ∧
        Emits (fixOne^[k] s₀).currentIdx (fixOne^[k] s₀) s₁ p ∧
        Serves (fixOne^[k] s₀) p := by
    intro k
    by_cases h : (fixOne^[k] s₀).outp % 4 = 0 ∧
        ∀ f ∈ live ((fixOne^[k] s₀).ctx.dat (fixOne^[k] s₀).currentIdx).fmap,
          Apart f.bp 4 (fixOne^[k] s₀).outp 4 ∧ Apart f.bp 4 (fixOne^[k] s₀).inp 4
    · obtain ⟨s₁, hstep, p, hemit, hserves⟩ := fixOne_round h.1 h.2
      refine ⟨p, fun _ _ => ⟨s₁, ?_, hemit, hserves⟩⟩
      rw [Function.iterate_succ_apply']
      exact hstep
    · exact ⟨{ pad := 0, body := .code [] }, fun h₁ h₂ => absurd ⟨h₁, h₂⟩ h⟩
  choose ps hps using hround
  exact ⟨ps, hps⟩

theorem fixing_start (hp : Placed base count slot) (m : Mem) (ps : Nat → Piece) :
    Fixing base count slot m ps 0 (FixState.start base count slot m) := by
  refine ⟨rfl, rfl, rfl, rfl, hp.slotAligned, Nat.le_refl _,
    fun j hj => absurd hj (by omega),
    fun j _ => rfl, fun i hi => absurd hi (by omega), fun x _ => rfl⟩

/-- The run lemma: after every number of rounds up to `count`. -/
theorem fixing_all (hp : Placed base count slot) (m : Mem) : ∃ ps, ∀ k ≤ count,
    Fixing base count slot m ps k (fixOne^[k] (FixState.start base count slot m)) ∧
      Sound base count ps k ∧
      ∀ i < k, Serves (fixOne^[i] (FixState.start base count slot m)) (ps i) := by
  obtain ⟨ps, hps⟩ := exists_pieces (FixState.start base count slot m)
  refine ⟨ps, fun k => ?_⟩
  induction k with
  | zero =>
      exact fun _ => ⟨fixing_start hp m ps, fun i hi => absurd hi (by omega),
        fun i hi => absurd hi (by omega)⟩
  | succ k ih =>
      intro hk
      obtain ⟨hfix, hsound, hserves⟩ := ih (by omega)
      have hidx := hfix.currentIdx
      have hmax := hp.atMost
      have hinp := hfix.inp
      have houtp := hfix.small
      have hlive : ∀ f ∈ live
          ((fixOne^[k] (FixState.start base count slot m)).ctx.dat
            (fixOne^[k] (FixState.start base count slot m)).currentIdx).fmap,
          Apart f.bp 4 (fixOne^[k] (FixState.start base count slot m)).outp 4 ∧
            Apart f.bp 4 (fixOne^[k] (FixState.start base count slot m)).inp 4 := by
        rw [hidx, hfix.live_eq hp.slotPos]
        intro f hf
        obtain ⟨_, hlo, hhi⟩ := hfix.waiting_bounds hp.slotPos hf
        have hapart := hp.apart
        simp only [slotSize, a64MaxInstructions] at hapart hmax
        refine ⟨Or.inl hhi, ?_⟩
        rcases hapart with h | h
        · exact Or.inr (by omega)
        · exact Or.inl (by omega)
      obtain ⟨s₁, hstep, hemit, hcopy⟩ := hps k hfix.aligned hlive
      rw [hidx] at hstep hemit
      have hsound' : Sound base count ps (k + 1) := by
        intro i hi
        by_cases hik : i = k
        · subst hik
          refine ⟨hcopy.small, hcopy.whole, fun w ref ls ad hb => ?_⟩
          have hrefs := hcopy.refs w ref ls ad hb
          rw [hidx, hfix.basep, hfix.endp] at hrefs
          exact hrefs
        · exact hsound i (by omega)
      refine ⟨?_, hsound', fun i hi => ?_⟩
      · rw [hstep]
        exact hfix.step hp (by omega) hsound' hemit
      · by_cases hik : i = k
        · rw [hik]
          exact hcopy
        · exact hserves i (by omega)

/-! ## The way back -/

/-- What is written behind the copied instructions. -/
theorem emitCallback_mem {s : FixState} (hinp : s.inp % 4 = 0)
    (hfits : s.inp ≤ 2 ^ 62) (houtp : s.outp % 4 = 0) :
    ∃ pad bs items, (emitCallback s).mem = write s.mem s.outp (nopBytes pad ++ bs) ∧
      4 * pad + bs.length ≤ 20 ∧ extent items = bs.length ∧
      (∀ v : Move, s.inp = v.base + 4 * v.count →
        v.Returns (s.outp + 4 * pad) items) ∧
      ∀ m, Holds m (s.outp + 4 * pad) bs → Means m (s.outp + 4 * pad) items := by
  rw [emitCallback]
  simp only []
  split
  · have hwrap : wrap s.inp = s.inp := wrap_eq rfl (by omega)
    have hlen := length_jumpBytes s.inp
    have hret : ∀ p, ∀ v : Move, s.inp = v.base + 4 * v.count →
        v.Returns p (farJump s.inp) :=
      fun p v hv => hv ▸ Move.Returns.far
    rw [emit_jumpBytes, hwrap]
    split
    · refine ⟨1, jumpBytes s.inp, farJump s.inp, ?_, by omega, ?_, hret _,
        fun m hm => means_jumpBytes hm⟩
      · have hone : nopBytes 1 = wordBytes a64Nop := by simp [nopBytes]
        rw [FixState.emitWord, emit_emit, hone]
        rfl
      · rw [hlen]
        rfl
    · refine ⟨0, jumpBytes s.inp, farJump s.inp, ?_, by omega, ?_, hret _,
        fun m hm => means_jumpBytes hm⟩
      · have hnone : nopBytes 0 = [] := rfl
        rw [hnone, List.nil_append]
        rfl
      · rw [hlen]
        rfl
  · next hnear =>
      refine ⟨0, wordBytes (branchWord false (((s.inp : Int) - s.outp) / 4)),
        [.insn (.b false (s.inp - (s.outp + 4 * 0 : Nat)))], rfl, by simp, rfl,
        fun v hv => ?_, fun m hm => means_one hm ?_⟩
      · rw [hv]
        exact Move.Returns.near
      · have hoff : 4 * (((s.inp : Int) - s.outp) / 4) =
            s.inp - ((s.outp + 4 * 0 : Nat) : Int) := by omega
        rw [decode_branchWord false (by omega) (by omega), hoff]

/-- Held bytes behind a row of `NOP`s. -/
theorem means_padded {m : Mem} {a n : Nat} {bs : List UInt8} {items : List Item}
    (h : Holds m a (nopBytes n ++ bs))
    (hrest : Holds m (a + 4 * n) bs → Means m (a + 4 * n) items) :
    Means m a (nops n ++ items) := by
  induction n generalizing a with
  | zero => exact hrest h
  | succ n ih =>
      rw [nopBytes_succ, List.append_assoc] at h
      have hend : a + 4 * (n + 1) = a + 4 + 4 * n := by omega
      rw [hend] at hrest
      exact means_word h decode_a64Nop fun h => ih h hrest

/-! ## The whole of it -/

/-- The move that was made, with the pieces it was made of. -/
def moveOf (base count slot : Nat) (before after : Mem) (ps : Nat → Piece) : Move :=
  { base, count, slot, room := slotSize, before, after, start := startOf slot ps,
    copy := copyOf slot ps }

section

variable {base count slot k : Nat} {m after : Mem} {ps : Nat → Piece} {s : FixState}

/-- The state of round `i`, as the lemmas about a single round ask for it. -/
theorem Fixing.atRound (hp : Placed base count slot)
    (hall : ∀ i ≤ count, Fixing base count slot m ps i
      (fixOne^[i] (FixState.start base count slot m)))
    {i : Nat} (hi : i < count) :
    AtRound (moveOf base count slot m after ps) i
      (fixOne^[i] (FixState.start base count slot m)) := by
  have hmax := hp.atMost
  have hat := hall i (by omega)
  have hsmall := hat.small
  have hfirst := startOf_mono slot ps (Nat.zero_le i)
  rw [startOf, ← hat.outp] at hfirst
  simp only [a64MaxInstructions] at hmax
  have hroom : slotSize = 200 := rfl
  refine ⟨hi, hat.inp, hat.basep, hat.endp, hat.ins, fun x hx => ?_, hp.baseAligned,
    hp.baseFits, hp.slotFits, hp.apart, ?_, ?_, fun j hj => ?_⟩
  · refine hat.frame x ?_
    rw [← hat.outp]
    change x < slot ∨ slot + slotSize ≤ x at hx
    omega
  · show slotSize ≤ 2 ^ 12
    omega
  · show slot ≤ _ ∧ _ ≤ slot + slotSize
    omega
  · change j < count at hj
    have hj' := hall j (by omega)
    have hnext := hall (j + 1) (by omega)
    have halign := hj'.aligned
    have hlast := hnext.small
    have hbegin := startOf_mono slot ps (Nat.zero_le j)
    have hgrow : copyOf slot ps j ≤ startOf slot ps (j + 1) := by
      rw [copyOf_next]
      exact Nat.le_add_right _ _
    rw [hj'.outp] at halign
    rw [hnext.outp] at hlast
    rw [startOf] at hbegin
    show copyOf slot ps j % 4 = 0 ∧ slot ≤ copyOf slot ps j ∧
      copyOf slot ps j ≤ slot + slotSize
    rw [copyOf] at hgrow ⊢
    omega

/-- What was written: the pieces, each settled, and the way back. -/
theorem fixInstructions_pieces (hp : Placed base count slot) (m : Mem) :
    ∃ ps pad bs items,
      startOf slot ps count + 4 * pad + bs.length ≤ slot + 36 * count + 20 ∧
      (∀ x, x < slot ∨ slot + 36 * count + 20 ≤ x →
        fixInstructions base count slot m x = m x) ∧
      (∀ i < count, Holds (fixInstructions base count slot m) (startOf slot ps i)
        (nopBytes (ps i).pad ++ (ps i).body.settled (copyOf slot ps)
          (copyOf slot ps i))) ∧
      Holds (fixInstructions base count slot m) (startOf slot ps count)
        (nopBytes pad ++ bs) ∧
      extent items = bs.length ∧
      (∀ v : Move, v.base = base → v.count = count →
        v.Returns (startOf slot ps count + 4 * pad) items) ∧
      (∀ m', Holds m' (startOf slot ps count + 4 * pad) bs →
        Means m' (startOf slot ps count + 4 * pad) items) ∧
      ∀ i < count, ∀ after, (moveOf base count slot m after ps).Relocatable i →
        Stands (moveOf base count slot m after ps) i (ps i) := by
  obtain ⟨ps, hall⟩ := fixing_all hp m
  obtain ⟨hfix, hsound, hserves⟩ := hall count (Nat.le_refl count)
  have hmax := hp.atMost
  have hsmall := hfix.small
  have hbase := hp.baseAligned
  have hfits := hp.baseFits
  have hinp := hfix.inp
  obtain ⟨pad, bs, items, hmem, hlen, hext, hret, hmeans⟩ :=
    emitCallback_mem (s := fixOne^[count] (FixState.start base count slot m))
      (by omega) (by omega) hfix.aligned
  have hrun : fixInstructions base count slot m =
      write (fixOne^[count] (FixState.start base count slot m)).mem
        (startOf slot ps count)
        (nopBytes pad ++ bs) := by
    rw [fixInstructions, fixLoop_eq, hmem, hfix.outp]
  have hbytes : (nopBytes pad ++ bs).length = 4 * pad + bs.length := by
    rw [List.length_append, length_nopBytes]
  rw [hfix.outp] at hsmall hret hmeans
  refine ⟨ps, pad, bs, items, by omega, fun x hx => ?_, fun i hi => ?_, ?_, hext,
    fun v hb hc => hret v (by rw [hinp, hb, hc]), hmeans, fun i hi after hrel => ?_⟩
  · have hfirst := startOf_mono slot ps (Nat.zero_le count)
    rw [startOf] at hfirst
    rw [hrun, write_outside (by omega), hfix.frame x (by omega)]
  · have hdone : partly slot ps count i =
        (ps i).body.settled (copyOf slot ps) (copyOf slot ps i) := by
      rw [partly]
      split
      · next hb => rw [hb, Body.settled]
      · next w ref ls ad hb =>
          obtain ⟨_, _, href⟩ := (hsound i hi).2.2 w ref ls ad hb
          rw [hb, if_pos (by omega)]
    have hend := startOf_mono slot ps (show i + 1 ≤ count by omega)
    rw [copyOf_next, copyOf] at hend
    rw [hrun, ← hdone]
    refine (hfix.held i hi).congr fun x h₁ h₂ => (write_below ?_).symm
    rw [List.length_append, length_nopBytes, length_partly] at h₂
    omega
  · rw [hrun]
    exact holds_write _ _ _
  · exact (hserves i hi).stands _ i
      (Fixing.atRound hp (fun i hi => (hall i hi).1) hi)
      (by rw [(hall i (by omega)).1.outp]; rfl) hrel

/-- Nothing but the fifty words of the slot is written. -/
theorem fixInstructions_frame (hp : Placed base count slot) (m : Mem) {x : Nat}
    (hx : x < slot ∨ slot + slotSize ≤ x) :
    fixInstructions base count slot m x = m x := by
  obtain ⟨_, _, _, _, _, hframe, _⟩ := fixInstructions_pieces hp m
  have hmax := hp.atMost
  simp only [slotSize, a64MaxInstructions] at hx hmax
  exact hframe x (by omega)

/-- Memory full of `NOP`s. -/
def nopMem : Mem := fun x => (wordBytes a64Nop).getD (x % 4) 0

theorem placed_five : Placed 0x10000 5 0x40000 := by
  refine ⟨by decide, by decide, by decide, by decide, by decide, by decide,
    by decide⟩

/-- Whatever the words of the block are, nine words for each and five for the
way back is all that is ever written. -/
theorem fixInstructions_extent (hp : Placed base count slot) (m : Mem) {x : Nat}
    (hx : x < slot ∨ slot + 36 * count + 20 ≤ x) :
    fixInstructions base count slot m x = m x := by
  obtain ⟨_, _, _, _, _, hframe, _⟩ := fixInstructions_pieces hp m
  exact hframe x hx

theorem fixInstructions_extent_five :
    fixInstructions 0x10000 5 0x40000 nopMem 0x400c8 = nopMem 0x400c8 :=
  fixInstructions_extent placed_five nopMem (Or.inr (by decide))

/-- If every instruction can be moved, the block has been laid out in the
slot. -/
theorem fixInstructions_laid (hp : Placed base count slot) (m : Mem) :
    ∃ start copy : Nat → Nat, start 0 = slot ∧
      ∀ after, (∀ x, slot ≤ x → x < slot + slotSize →
          after x = fixInstructions base count slot m x) →
        ∀ v : Move, v =
            { base, count, slot, room := slotSize, before := m, after, start,
              copy } →
          (∀ i < count, v.Relocatable i) → v.Laid := by
  obtain ⟨ps, pad, bs, items, hend, _, hheld, hback, hext, hret, hmeans, hstands⟩ :=
    fixInstructions_pieces hp m
  refine ⟨startOf slot ps, copyOf slot ps, rfl, fun after hafter v hv hrel => ?_⟩
  have hroom : slotSize = 200 := rfl
  have hmax := hp.atMost
  simp only [a64MaxInstructions] at hmax
  have hbase := hp.baseFits
  have hslot := hp.slotFits
  have hsame : ∀ a bs, slot ≤ a → a + bs.length ≤ slot + slotSize →
      Holds (fixInstructions base count slot m) a bs → Holds after a bs :=
    fun a bs h₁ h₂ h => h.congr fun x hx₁ hx₂ =>
      (hafter x (by omega) (by omega)).symm
  have hbegin : ∀ i, slot ≤ startOf slot ps i :=
    fun i => startOf_mono slot ps (Nat.zero_le i)
  subst hv
  refine ⟨by show base + 4 * count ≤ 2 ^ 63; omega,
    by show slot + slotSize ≤ 2 ^ 63; omega,
    Nat.le_refl slot, fun i hi => ?_, pad, items, hret _ rfl rfl, ?_, ?_⟩
  · change i < count at hi
    obtain ⟨items, hsize, hrelocates, hitems⟩ := hstands i hi after (hrel i hi)
    have hnext := startOf_mono slot ps (show i + 1 ≤ count by omega)
    rw [copyOf_next, copyOf] at hnext
    refine ⟨(ps i).pad, items, rfl, ?_,
      means_padded (hsame _ _ (hbegin i) ?_ (hheld i hi))
      (hitems after), hrelocates⟩
    · show startOf slot ps (i + 1) = _
      rw [copyOf_next, hsize]
    · show startOf slot ps i + _ ≤ _
      rw [List.length_append, length_nopBytes, Body.length_settled]
      omega
  · refine means_padded (hsame _ _ (hbegin count) ?_ hback) (hmeans after)
    show startOf slot ps count + _ ≤ _
    rw [List.length_append, length_nopBytes]
    omega
  · show startOf slot ps count + 4 * pad + extent items ≤ slot + slotSize
    omega

end

end PistolWhipHook
