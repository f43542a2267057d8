import PistolWhipHook.Proofs.FixWords

/-!
# One round of the relocation, as what it writes

Every `__fix_*` function does the same four things: it notes where the copy of
the instruction begins, writes some words, perhaps `NOP`s first, may note that
a word waits for an instruction further on, and settles what waited for this
one. `Piece` is what is written, and `Emits` the state before anything is
settled. The settling is a fold over the entries in use, described here on its
own: each waiting word gets its offset and nothing else changes.
-/

namespace PistolWhipHook

open ByteMem A64

/-! ## Writing -/

theorem write_append (m : Mem) (a : Nat) (bs cs : List UInt8) :
    write (write m a bs) (a + bs.length) cs = write m a (bs ++ cs) := by
  funext x
  by_cases h₁ : x < a
  · rw [write_below (by omega), write_below h₁, write_below h₁]
  · obtain ⟨d, rfl⟩ := Nat.exists_eq_add_of_le (Nat.le_of_not_lt h₁)
    by_cases h₂ : d < bs.length
    · rw [write_below (by omega), write_inside h₂,
        write_inside (by rw [List.length_append]; omega),
          List.getElem_append_left h₂]
    · obtain ⟨e, rfl⟩ := Nat.exists_eq_add_of_le (Nat.le_of_not_lt h₂)
      by_cases h₃ : e < cs.length
      · rw [← Nat.add_assoc, write_inside h₃, Nat.add_assoc,
          write_inside (by rw [List.length_append]; omega),
            List.getElem_append_right (by omega)]
        congr 1
        omega
      · rw [write_above (by omega), write_above (by omega),
          write_above (by rw [List.length_append]; omega)]

/-- Writes apart from each other can be made in any order. -/
theorem write_comm {m : Mem} {a b : Nat} {bs cs : List UInt8}
    (h : Apart a bs.length b cs.length) :
    write (write m a bs) b cs = write (write m b cs) a bs := by
  funext x
  by_cases hb : x < b ∨ b + cs.length ≤ x
  · rw [write_outside hb]
    by_cases ha : x < a ∨ a + bs.length ≤ x
    · rw [write_outside ha, write_outside ha, write_outside hb]
    · obtain ⟨d, rfl⟩ := Nat.exists_eq_add_of_le (show a ≤ x by omega)
      rw [write_inside (by omega), write_inside (by omega)]
  · have ha : x < a ∨ a + bs.length ≤ x := by
      rcases h with h | h <;> omega
    have hlast : write (write m b cs) a bs x = write m b cs x := write_outside ha
    rw [hlast]
    obtain ⟨d, rfl⟩ := Nat.exists_eq_add_of_le (show b ≤ x by omega)
    rw [write_inside (by omega), write_inside (by omega)]

theorem emit_emit (s : FixState) (bs cs : List UInt8) :
    (s.emit bs).emit cs = s.emit (bs ++ cs) := by
  rw [FixState.emit, FixState.emit, FixState.emit]
  simp only [write_append, List.length_append, Nat.add_assoc]

/-! ## Pieces -/

/-- What stands behind the `NOP`s: bytes that are settled, or one word that
waits for where instruction `ref` will begin. -/
inductive Body where
  | code (bs : List UInt8)
  | waits (w : Word) (ref ls : Nat) (ad : Word)

def Body.raw : Body → List UInt8
  | .code bs => bs
  | .waits w _ _ _ => wordBytes w

/-- The bytes at `p` once everything is settled. -/
def Body.settled (copy : Nat → Nat) (p : Nat) : Body → List UInt8
  | .code bs => bs
  | .waits w ref ls ad => wordBytes (FixInfo.fixed { bp := p, ls, ad } (copy ref) w)

/-- The entries of instruction `j` after the body was written at `p`. -/
def Body.entered (j p : Nat) (fmap : List FixInfo) : Body → List FixInfo
  | .code _ => fmap
  | .waits _ ref ls ad =>
      if j = ref then insertFmap { bp := p, ls, ad } fmap else fmap

structure Piece where
  pad : Nat
  body : Body

/-- A row of `NOP`s. -/
def nopBytes (n : Nat) : List UInt8 := (List.replicate n (wordBytes a64Nop)).flatten

theorem length_nopBytes (n : Nat) : (nopBytes n).length = 4 * n := by
  simp [nopBytes]
  omega

theorem nopBytes_succ (n : Nat) :
    nopBytes (n + 1) = wordBytes a64Nop ++ nopBytes n := by
  rw [nopBytes, List.replicate_succ, List.flatten_cons, nopBytes]

def Piece.bytes (p : Piece) : List UInt8 := nopBytes p.pad ++ p.body.raw

def Piece.size (p : Piece) : Nat := 4 * p.pad + p.body.raw.length

theorem Piece.length_bytes (p : Piece) : p.bytes.length = p.size := by
  rw [bytes, List.length_append, length_nopBytes, size]

theorem Body.length_settled (copy : Nat → Nat) (p : Nat) (b : Body) :
    (b.settled copy p).length = b.raw.length := by
  cases b <;> simp [settled, raw]

/-- `s'` is `s` after the piece for instruction `k` was written and entered. -/
structure Emits (k : Nat) (s s' : FixState) (p : Piece) : Prop where
  inp : s'.inp = s.inp
  outp : s'.outp = s.outp + p.size
  mem : s'.mem = write s.mem s.outp p.bytes
  basep : s'.ctx.basep = s.ctx.basep
  endp : s'.ctx.endp = s.ctx.endp
  ins : (s'.ctx.dat k).ins = s.outp + 4 * p.pad
  ins_other : ∀ j, j ≠ k → (s'.ctx.dat j).ins = (s.ctx.dat j).ins
  fmap : ∀ j, (s'.ctx.dat j).fmap =
    p.body.entered j (s.outp + 4 * p.pad) (s.ctx.dat j).fmap

section Reset

variable {s : FixState} {k j : Nat}

theorem dat_setDat_same {c : Context} {d : InsnsInfo} : (c.setDat k d).dat k = d :=
  if_pos rfl

theorem dat_setDat_other {c : Context} {d : InsnsInfo} (h : j ≠ k) :
    (c.setDat k d).dat j = c.dat j := if_neg h

theorem reset_ins : ((s.resetCurrentIns k).ctx.dat k).ins = s.outp := by
  rw [FixState.resetCurrentIns, dat_setDat_same]

theorem reset_ins_other (h : j ≠ k) :
    ((s.resetCurrentIns k).ctx.dat j).ins = (s.ctx.dat j).ins := by
  rw [FixState.resetCurrentIns, dat_setDat_other h]

theorem reset_fmap : ((s.resetCurrentIns k).ctx.dat j).fmap =
      (s.ctx.dat j).fmap := by
  by_cases h : j = k
  · rw [h, FixState.resetCurrentIns, dat_setDat_same]
  · rw [FixState.resetCurrentIns, dat_setDat_other h]

theorem reset_inp : (s.resetCurrentIns k).inp = s.inp := rfl

theorem reset_mem : (s.resetCurrentIns k).mem = s.mem := rfl

theorem reset_outp : (s.resetCurrentIns k).outp = s.outp := rfl

theorem reset_inside : (s.resetCurrentIns k).ctx.isInFixingRange =
      s.ctx.isInFixingRange :=
  rfl

theorem reset_ref : (s.resetCurrentIns k).ctx.getRefInsIndex =
      s.ctx.getRefInsIndex := rfl

theorem insert_ins {ref : Nat} {g : FixInfo} :
    ((s.insertFixMap ref g).ctx.dat j).ins = (s.ctx.dat j).ins := by
  by_cases h : j = ref
  · rw [h, FixState.insertFixMap, dat_setDat_same]
  · rw [FixState.insertFixMap, dat_setDat_other h]

theorem insert_fmap {ref : Nat} {g : FixInfo} :
    ((s.insertFixMap ref g).ctx.dat j).fmap =
      if j = ref then insertFmap g (s.ctx.dat j).fmap else (s.ctx.dat j).fmap := by
  split
  · next h => rw [h, FixState.insertFixMap, dat_setDat_same]
  · next h => rw [FixState.insertFixMap, dat_setDat_other h]

end Reset

/-- Settled bytes behind a number of `NOP`s, the beginning noted again behind
these. -/
theorem emits_padded (k n : Nat) (s : FixState) (bs : List UInt8) :
    Emits k s (((s.resetCurrentIns k).emit
      (nopBytes n)).resetCurrentIns k |>.emit bs)
      { pad := n, body := .code bs } := by
  refine ⟨rfl, ?_, ?_, rfl, rfl, ?_, fun j hj => ?_, fun j => ?_⟩
  · show s.outp + (nopBytes n).length + bs.length = _
    rw [length_nopBytes, Piece.size, Body.raw, Nat.add_assoc]
  · exact write_append s.mem s.outp (nopBytes n) bs
  · show ((FixState.resetCurrentIns _ k).ctx.dat k).ins = _
    rw [reset_ins]
    show s.outp + (nopBytes n).length = _
    rw [length_nopBytes]
  · show ((FixState.resetCurrentIns _ k).ctx.dat j).ins = _
    rw [reset_ins_other hj]
    exact reset_ins_other hj
  · show ((FixState.resetCurrentIns _ k).ctx.dat j).fmap = _
    rw [reset_fmap]
    exact reset_fmap

/-- Settled bytes at once. -/
theorem emits_code (k : Nat) (s : FixState) (bs : List UInt8) :
    Emits k s ((s.resetCurrentIns k).emit bs) { pad := 0, body := .code bs } := by
  refine ⟨rfl, ?_, rfl, rfl, rfl, ?_, fun j hj => ?_, fun j => ?_⟩
  · show s.outp + bs.length = s.outp + (4 * 0 + bs.length)
    omega
  · show ((s.resetCurrentIns k).ctx.dat k).ins = _
    rw [reset_ins]
    rfl
  · exact reset_ins_other hj
  · exact reset_fmap

/-- Settled bytes behind at most one `NOP`. -/
theorem emits_aligned (k : Nat) (b : Bool) (s : FixState) (bs : List UInt8) :
    Emits k s (((s.resetCurrentIns k).alignNop b k).emit bs)
      { pad := if b then 1 else 0, body := .code bs } := by
  cases b with
  | false => exact emits_code k s bs
  | true =>
      have hone : nopBytes 1 = wordBytes a64Nop := by simp [nopBytes]
      have h := emits_padded k 1 s bs
      rw [hone] at h
      exact h

/-- A word that waits. -/
theorem emits_waits (k : Nat) (s : FixState) (w : Word) (ref ls : Nat) (ad : Word) :
    Emits k s
      (((s.resetCurrentIns k).insertFixMap ref { bp := s.outp, ls, ad }).emitWord w)
      { pad := 0, body := .waits w ref ls ad } := by
  refine ⟨rfl, ?_, rfl, rfl, rfl, ?_, fun j hj => ?_, fun j => ?_⟩
  · show s.outp + (wordBytes w).length = s.outp + (4 * 0 + (wordBytes w).length)
    omega
  · show ((FixState.insertFixMap _ _ _).ctx.dat k).ins = _
    rw [insert_ins, reset_ins]
    rfl
  · show ((FixState.insertFixMap _ _ _).ctx.dat j).ins = _
    rw [insert_ins, reset_ins_other hj]
  · show ((FixState.insertFixMap _ _ _).ctx.dat j).fmap = _
    rw [insert_fmap, reset_fmap]
    rfl

/-- A reference into the block: settled where it goes back, or to itself, and
waiting where it goes on. -/
theorem emits_refer (k : Nat) (s : FixState) (ref ls : Nat) (ad : Word)
    (f : Int → Word) :
    ∃ b, Emits k s
        (((s.resetCurrentIns k).refer ref k ls ad).1.emitWord
          (f ((s.resetCurrentIns k).refer ref k ls ad).2))
        { pad := 0, body := b } ∧
      ((ref ≤ k ∧ b = .code (wordBytes (f
          (((if ref = k then s.outp
            else (s.ctx.dat ref).ins : Nat) : Int) - s.outp)))) ∨
        (k < ref ∧ b = .waits (f 0) ref ls ad)) := by
  by_cases h : ref ≤ k
  · have hins : ((s.resetCurrentIns k).ctx.dat ref).ins =
        if ref = k then s.outp else (s.ctx.dat ref).ins := by
      split
      · next hk => rw [hk, reset_ins]
      · next hk => exact reset_ins_other hk
    rw [← hins, FixState.refer, if_pos h]
    exact ⟨_, emits_code k s _, Or.inl ⟨h, rfl⟩⟩
  · rw [FixState.refer, if_neg h]
    exact ⟨_, emits_waits k s _ ref ls ad, Or.inr ⟨by omega, rfl⟩⟩

/-! ## Settling -/

/-- The entries in use, which the loops go through. -/
def live (fmap : List FixInfo) : List FixInfo := fmap.takeWhile fun f => f.bp ≠ 0

/-- The memory after one waiting word was settled. -/
def settle (ins : Nat) (f : FixInfo) (m : Mem) : Mem :=
  store m f.bp 4 (f.fixed ins (fetch m f.bp)).toNat

theorem processFmap_mem (ins : Nat) (fmap : List FixInfo) (m : Mem) :
    (processFmap ins fmap m).2 =
      (live fmap).foldl (fun m f => settle ins f m) m := by
  induction fmap generalizing m with
  | nil => rfl
  | cons f fs ih =>
      by_cases h : f.bp = 0
      · simp [processFmap, live, h]
      · simp only [processFmap, ih, live, List.takeWhile_cons, ne_eq, h,
          not_false_eq_true, decide_true, ite_true, List.foldl_cons]
        rfl

theorem settle_outside {ins : Nat} {f : FixInfo} {m : Mem} {x : Nat}
    (h : x < f.bp ∨ f.bp + 4 ≤ x) : settle ins f m x = m x := store_outside h

theorem settle_write {ins : Nat} {f : FixInfo} {m : Mem} {a : Nat} {bs : List UInt8}
    (h : Apart f.bp 4 a bs.length) :
    settle ins f (write m a bs) = write (settle ins f m) a bs := by
  have hf : fetch (write m a bs) f.bp = fetch m f.bp := by
    refine fetch_congr fun x h₁ h₂ => write_outside ?_
    rcases h with h | h <;> omega
  rw [settle, hf, settle, store, store]
  refine write_comm ?_
  rw [length_leBytes]
  rcases h with h | h
  · exact Or.inr h
  · exact Or.inl h

/-- Settling words and writing elsewhere can be done in either order. -/
theorem settleAll_write {ins : Nat} {fs : List FixInfo} {m : Mem} {a : Nat}
    {bs : List UInt8} (h : ∀ f ∈ fs, Apart f.bp 4 a bs.length) :
    fs.foldl (fun m f => settle ins f m) (write m a bs) =
      write (fs.foldl (fun m f => settle ins f m) m) a bs := by
  induction fs generalizing m with
  | nil => rfl
  | cons f fs ih =>
      rw [List.foldl_cons, List.foldl_cons, settle_write (h f (by simp))]
      exact ih fun g hg => h g (by simp [hg])

theorem settleAll_outside {ins : Nat} {fs : List FixInfo} {m : Mem} {x : Nat}
    (h : ∀ f ∈ fs, x < f.bp ∨ f.bp + 4 ≤ x) :
    fs.foldl (fun m f => settle ins f m) m x = m x := by
  induction fs generalizing m with
  | nil => rfl
  | cons f fs ih =>
      rw [List.foldl_cons, ih fun g hg => h g (by simp [hg])]
      exact settle_outside (h f (by simp))

/-- A word that waits is settled, whatever else waits apart from it. -/
theorem settleAll_fetch {ins : Nat} {fs : List FixInfo} {m : Mem} {f : FixInfo}
    (hf : f ∈ fs) (hapart : fs.Pairwise fun f g => Apart f.bp 4 g.bp 4) :
    Holds (fs.foldl (fun m f => settle ins f m) m) f.bp
      (wordBytes (f.fixed ins (fetch m f.bp))) := by
  induction fs generalizing m with
  | nil => simp at hf
  | cons g fs ih =>
      obtain ⟨hg, hrest⟩ := List.pairwise_cons.mp hapart
      rw [List.foldl_cons]
      rcases List.mem_cons.mp hf with rfl | hf
      · have hheld :
            Holds (settle ins f m) f.bp (wordBytes (f.fixed ins (fetch m f.bp))) :=
          holds_write m f.bp _
        refine hheld.congr fun x h₁ h₂ => (settleAll_outside fun g' hg' => ?_).symm
        rw [length_wordBytes] at h₂
        rcases hg g' hg' with h | h <;> omega
      · have hsame : fetch (settle ins g m) f.bp = fetch m f.bp := by
          refine fetch_congr fun x h₁ h₂ => settle_outside ?_
          rcases hg f hf with h | h <;> omega
        have := ih (m := settle ins g m) hf hrest
        rw [hsame] at this
        exact this

end PistolWhipHook
