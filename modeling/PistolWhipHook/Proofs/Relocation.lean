import PistolWhipHook.Spec.Relocation

/-!
# Running a moved block

The copy of a block does what the block did. The run of the block is followed
instruction by instruction: `Answered` says that after one step of it the run
of the copy can be brought abreast again, or out of the copy if the step left
the block. One lemma for each of the three ways on, falling through to the
next instruction, a jump inside the block and a jump out of it; then every
form that `Relocates` allows is one of these. The induction over the run is
the one of `Simulation`.
-/

namespace PistolWhipHook

open ByteMem A64 Simulation

namespace Move

variable {v : Move} {ρ : Type} {A : Arch ρ}

/-! ## The layout -/

theorem Laid.start_step (hv : v.Laid) {i : Nat} (hi : i < v.count) :
    v.start i ≤ v.copy i ∧ v.copy i ≤ v.start (i + 1) := by
  obtain ⟨pad, items, hcopy, hnext, _⟩ := hv.insn i hi
  omega

theorem Laid.start_mono (hv : v.Laid) {i j : Nat} (hij : i ≤ j) (hj : j ≤ v.count) :
    v.start i ≤ v.start j := by
  induction j with
  | zero =>
      have hi : i = 0 := by omega
      rw [hi]
  | succ j ih =>
      by_cases h : i = j + 1
      · rw [h]
      · have hstep := hv.start_step (show j < v.count by omega)
        have hle := ih (by omega) (by omega)
        omega

theorem Laid.start_bounds (hv : v.Laid) {i : Nat} (hi : i ≤ v.count) :
    v.slot ≤ v.start i ∧ v.start i ≤ v.slot + v.room := by
  have hbegin := hv.begins
  have hfirst := hv.start_mono (Nat.zero_le i) hi
  have hlast := hv.start_mono hi (Nat.le_refl _)
  obtain ⟨pad, items, _, _, hback⟩ := hv.back
  omega

theorem Laid.copy_lt (hv : v.Laid) {j : Nat} (hj : j < v.count) :
    v.copy j < 2 ^ 64 := by
  have hslot := hv.slotFits
  have hstep := hv.start_step hj
  have hle := (hv.start_bounds (show j + 1 ≤ v.count by omega)).2
  omega

theorem Laid.outside_wrap (hv : v.Laid) {a : Int} (ha : v.Outside a) :
    ¬ v.Inside (wrap a) := by
  have hfits := hv.baseFits
  obtain ⟨hlo, hhi, hout⟩ := ha
  rw [Inside, wrap]
  omega

/-- Code in the room is still there in a memory that kept the hidden bytes. -/
theorem Twin.means {s t : Mem} (h : v.Twin s t) {a : Nat} {items : List Item}
    (hm : Means v.after a items) (hlo : v.slot ≤ a)
    (hhi : a + extent items ≤ v.slot + v.room) : Means t a items :=
  hm.congr fun x h₁ h₂ => (h.new x (Or.inr ⟨by omega, by omega⟩)).symm

theorem Twin.fetch_old {s t : Mem} (h : v.Twin s t) {i : Nat} (hi : i < v.count) :
    fetch s (v.base + 4 * i) = fetch v.before (v.base + 4 * i) :=
  fetch_congr fun x h₁ h₂ => h.old x (Or.inl ⟨by omega, by omega⟩)

instance (a : Nat) : Decidable (v.Hidden a) :=
  inferInstanceAs (Decidable ((_ ∧ _) ∨ (_ ∧ _)))

/-- The memory with the block put back, and the room as it was. -/
def restored (v : Move) (t : Mem) : Mem :=
  fun a => if v.Hidden a then v.before a else t a

theorem twin_restored {t : Mem} (h : ∀ a, v.Hidden a → t a = v.after a) :
    v.Twin (v.restored t) t :=
  ⟨fun _ ha => (if_neg ha).symm, fun _ ha => if_pos ha, h⟩

/-! ## One step -/

/-- From `t` the copy can follow to where the block is at `s`, by a call or
otherwise. -/
def Answered (v : Move) (A : Arch ρ) (called : Prop) (s t : Cpu ρ) : Prop :=
  ∃ t', Reaches (step A) t t' ∧
    ((v.Inside s.pc → v.Abreast s t') ∧
      (¬ v.Inside s.pc → v.Departed called s t'))

variable {called : Prop}

theorem Answered.of_reaches {s t t' : Cpu ρ} (h : v.Answered A called s t')
    (hrun : Reaches (step A) t t') : v.Answered A called s t := by
  obtain ⟨u, hu, hrest⟩ := h
  exact ⟨u, hrun.trans hu, hrest⟩

theorem ButX17.refl (c : Core ρ) : ButX17 c c := ⟨fun _ _ => rfl, rfl, rfl⟩

theorem setX_x_other {c : Core ρ} {r k a : Nat} (h : k ≠ r) :
    (c.setX r a).x k = c.x k := by
  rw [Core.setX]
  split
  · rfl
  · exact if_neg h

theorem setX_x_same {c : Core ρ} {r a : Nat} (h : r ≠ 31) :
    (c.setX r a).x r = a := by
  rw [Core.setX, if_neg h]
  exact if_pos rfl

theorem setX_v {c : Core ρ} {r a : Nat} : (c.setX r a).v = c.v := by
  rw [Core.setX]
  split <;> rfl

theorem setX_rest {c : Core ρ} {r a : Nat} : (c.setX r a).rest = c.rest := by
  rw [Core.setX]
  split <;> rfl

theorem butX17_setX (c : Core ρ) (a : Nat) : ButX17 c (c.setX 17 a) :=
  ⟨fun _ hr => setX_x_other hr, setX_v, setX_rest⟩

/-- Out of the block, to one address, without a call. -/
theorem answered_outside (hcall : ¬ called) {a : Nat} {c c' : Core ρ} {s t : Mem}
    (ha : ¬ v.Inside a) (hc : ButX17 c c') (h : v.Twin s t) :
    v.Answered A called ⟨a, c, s⟩ ⟨a, c', t⟩ := by
  refine ⟨⟨a, c', t⟩, Reaches.refl _, fun hin => absurd hin ha, fun _ => ?_⟩
  exact ⟨rfl, fun r h17 _ => hc.x r h17, fun _ => hc.x 30 (by omega),
    fun hyes => absurd hyes hcall, hc.vec, hc.rest, h⟩

/-- Out of the block by a call, which left its return address. -/
theorem answered_call (hcall : called) {a i : Nat} {c c' : Core ρ} {s t : Mem}
    (ha : ¬ v.Inside a) (hi : i < v.count) (hc : ButX17 c c') (h : v.Twin s t) :
    v.Answered A called ⟨a, c.setX 30 (v.base + 4 * (i + 1)), s⟩
      ⟨a, c'.setX 30 (v.start (i + 1)), t⟩ := by
  refine ⟨_, Reaches.refl _, fun hin => absurd hin ha, fun _ => ?_⟩
  refine ⟨rfl, fun r h17 h30 => ?_, fun hno => absurd hcall hno,
    fun _ => ⟨i, hi, ?_, ?_⟩, ?_, ?_, h⟩
  · show (c'.setX 30 _).x r = (c.setX 30 _).x r
    rw [setX_x_other h30, setX_x_other h30, hc.x r h17]
  · exact setX_x_same (r := 30) (by omega)
  · exact setX_x_same (r := 30) (by omega)
  · show (c'.setX 30 _).v = (c.setX 30 _).v
    rw [setX_v, setX_v, hc.vec]
  · show (c'.setX 30 _).rest = (c.setX 30 _).rest
    rw [setX_rest, setX_rest, hc.rest]

theorem answered_inside {j : Nat} {c : Core ρ} {s t : Mem} (hj : j < v.count)
    (h : v.Twin s t) :
    v.Answered A called ⟨v.base + 4 * j, c, s⟩ ⟨v.copy j, c, t⟩ := by
  refine ⟨_, Reaches.refl _, fun _ => ?_, fun hout => absurd ?_ hout⟩
  · exact ⟨⟨j, hj, rfl, Or.inr rfl⟩, rfl, h⟩
  · exact ⟨Nat.le_add_right _ _, by show v.base + 4 * j < _; omega⟩

/-- From behind the last instruction the copy goes back behind the block. -/
theorem reaches_back (hv : v.Laid) {c : Core ρ} {s t : Mem} (h : v.Twin s t) :
    ∃ c', ButX17 c c' ∧ Reaches (step A) ⟨v.start v.count, c, t⟩
      ⟨v.base + 4 * v.count, c', t⟩ := by
  have hfits := hv.baseFits
  have hslot := hv.slotFits
  obtain ⟨hlo, _⟩ := hv.start_bounds (Nat.le_refl v.count)
  obtain ⟨pad, items, hret, hm, hroom⟩ := hv.back
  have hall : v.start v.count + extent (nops pad ++ items) ≤ v.slot + v.room := by
    rw [extent_append, extent_nops]
    omega
  obtain ⟨hpad, hitems⟩ := means_append.mp (h.means hm hlo hall)
  rw [extent_nops] at hitems
  have hskip : Reaches (step A) ⟨v.start v.count, c, t⟩
      ⟨v.start v.count + 4 * pad, c, t⟩ :=
    reaches_nops hpad (by omega)
  cases hret with
  | near =>
      refine ⟨c, ButX17.refl c, hskip.trans (Reaches.step_eq ?_)⟩
      rw [step_b hitems.1, wrap_eq rfl (by omega)]
  | far =>
      refine ⟨c.setX 17 (v.base + 4 * v.count), butX17_setX _ _, hskip.trans ?_⟩
      have hext : extent (farJump (v.base + 4 * v.count)) = 16 := rfl
      exact reaches_farJump hitems (by omega) (by omega)

theorem answered_next (hcall : ¬ called) (hv : v.Laid) {i : Nat} (hi : i < v.count)
    {c : Core ρ} {s t : Mem} (h : v.Twin s t) :
    v.Answered A called ⟨v.base + 4 * (i + 1), c, s⟩ ⟨v.start (i + 1), c, t⟩ := by
  by_cases hlast : i + 1 = v.count
  · rw [hlast]
    obtain ⟨c', hc, hrun⟩ := reaches_back (A := A) hv (c := c) h
    refine Answered.of_reaches (answered_outside hcall ?_ hc h) hrun
    rw [Inside]
    omega
  · have hlt : i + 1 < v.count := by omega
    refine ⟨_, Reaches.refl _, fun _ => ⟨⟨i + 1, hlt, rfl, Or.inl rfl⟩, rfl, h⟩,
      fun hout => absurd ?_ hout⟩
    exact ⟨Nat.le_add_right _ _, by show v.base + 4 * (i + 1) < _; omega⟩

/-- The step went on to the next instruction, and so did the copy. -/
theorem answered_fall (hcall : ¬ called) (hv : v.Laid) {i n : Nat}
    (hi : i < v.count)
    (hnext : v.start (i + 1) = v.copy i + n) {c c' : Core ρ} {s t t' : Mem}
    (hrun : Reaches (step A) ⟨v.copy i, c, t⟩ ⟨v.copy i + n, c', t'⟩)
    (h : v.Twin s t') :
    v.Answered A called ⟨wrap ((v.base + 4 * i : Nat) + 4), c', s⟩
      ⟨v.copy i, c, t⟩ := by
  have hfits := hv.baseFits
  have hpc : wrap ((v.base + 4 * i : Nat) + 4) = v.base + 4 * (i + 1) :=
    wrap_eq (by omega) (by omega)
  rw [hpc]
  rw [← hnext] at hrun
  exact Answered.of_reaches (answered_next hcall hv hi h) hrun

/-- A word of the copy that the machine falls through, as it did in place. -/
theorem reaches_one {p : Nat} {c c' : Core ρ} {m m' : Mem} {i : Insn}
    {its : List Item} (hm : Means m p (.insn i :: its)) (hlt : p + 4 < 2 ^ 64)
    (hexec : Cpu.exec A ⟨p, c, m⟩ i = ⟨wrap (p + 4), c', m'⟩) :
    Reaches (step A) ⟨p, c, m⟩ ⟨p + 4, c', m'⟩ := by
  refine Reaches.step_eq ?_
  rw [step_of_decode hm.1, hexec, wrap_eq (b := p + 4) (by omega) hlt]

theorem wrap_distance (p : Nat) (a : Int) : wrap (p + (a - p)) = wrap a := by
  congr 1
  omega

theorem read_prefix {m m' : Mem} {a a' k n : Nat} (hkn : k ≤ n)
    (h : read m a n = read m' a' n) : read m a k = read m' a' k := by
  obtain ⟨d, rfl⟩ := Nat.exists_eq_add_of_le hkn
  rw [read_add, read_add] at h
  exact (List.append_inj h (by simp)).1

theorem exec_branchIf_true {c : Test} {off : Int} {s : Cpu ρ}
    (h : c.passes A s.core = true) :
    Cpu.exec A s (.branchIf c off) = { s with pc := wrap (s.pc + off) } := by
  rw [Cpu.exec, if_pos h]

theorem exec_branchIf_false {c : Test} {off : Int} {s : Cpu ρ}
    (h : ¬ c.passes A s.core = true) : Cpu.exec A s (.branchIf c off) = s.next := by
  rw [Cpu.exec, if_neg h]

/-- A conditional branch: what the copy does when the test passes is given,
and when it does not the copy falls through. -/
theorem answered_branchIf (hcall : ¬ called) (hv : v.Laid) {i n : Nat}
    (hi : i < v.count)
    (hnext : v.start (i + 1) = v.copy i + n) {c : Core ρ} {s t : Mem}
    (h : v.Twin s t) {k : Test} {off : Int}
    (hfall : k.passes A c = false →
      Reaches (step A) ⟨v.copy i, c, t⟩ ⟨v.copy i + n, c, t⟩)
    (htaken : k.passes A c = true →
      v.Answered A called ⟨wrap ((v.base + 4 * i : Nat) + off), c, s⟩
        ⟨v.copy i, c, t⟩) :
    v.Answered A called (Cpu.exec A ⟨v.base + 4 * i, c, s⟩ (.branchIf k off))
      ⟨v.copy i, c, t⟩ := by
  by_cases hk : k.passes A c = true
  · rw [exec_branchIf_true hk]
    exact htaken hk
  · rw [exec_branchIf_false hk]
    exact answered_fall hcall hv hi hnext (hfall (by simpa using hk)) h

theorem answered_other (hv : v.Laid) {i : Nat} (hi : i < v.count)
    (hnext : v.start (i + 1) = v.copy i + 4)
    (hroom : v.copy i + 4 ≤ v.slot + v.room)
    {c : Core ρ} {s t : Mem} (h : v.Twin s t) {w : Word}
    (hm : Means t (v.copy i) [.insn (.other w)])
    (hflow : ∀ a, (A.exec w c s).flow = .jump a ∨ (A.exec w c s).flow = .call a →
      ¬ v.Inside a)
    (hexec : ∀ t, v.Twin s t → (A.exec w c t).core = (A.exec w c s).core ∧
      (A.exec w c t).flow = (A.exec w c s).flow ∧
      v.Twin (A.exec w c s).mem (A.exec w c t).mem) :
    v.Answered A ((Insn.other w).Calls A c s)
      (Cpu.exec A ⟨v.base + 4 * i, c, s⟩ (.other w))
      ⟨v.copy i, c, t⟩ := by
  have hbase := hv.baseFits
  have hslot := hv.slotFits
  obtain ⟨hcore, hsame, htwin⟩ := hexec t h
  have hpc : wrap ((v.copy i : Int) + 4) = v.start (i + 1) :=
    wrap_eq (by omega) (by omega)
  have hret : wrap ((v.base + 4 * i : Nat) + 4) = v.base + 4 * (i + 1) :=
    wrap_eq (by omega) (by omega)
  have hstep : Reaches (step A) ⟨v.copy i, c, t⟩
      (Cpu.exec A ⟨v.copy i, c, t⟩ (.other w)) :=
    Reaches.step_eq (step_of_decode hm.1)
  cases hf : (A.exec w c s).flow with
  | next =>
      have hcopy : Cpu.exec A ⟨v.copy i, c, t⟩ (.other w) =
          ⟨v.copy i + 4, (A.exec w c s).core, (A.exec w c t).mem⟩ := by
        simp only [Cpu.exec, hsame, hf, hcore, Cpu.next, hpc, hnext]
      rw [hcopy] at hstep
      simp only [Cpu.exec, hf, Cpu.next]
      refine answered_fall (fun hcall => ?_) hv hi hnext hstep htwin
      obtain ⟨a, ha⟩ := hcall
      rw [hf] at ha
      cases ha
  | jump a =>
      have hcopy : Cpu.exec A ⟨v.copy i, c, t⟩ (.other w) =
          ⟨a, (A.exec w c s).core, (A.exec w c t).mem⟩ := by
        simp only [Cpu.exec, hsame, hf, hcore]
      rw [hcopy] at hstep
      simp only [Cpu.exec, hf]
      refine (answered_outside (fun hcall => ?_) (hflow a (Or.inl hf))
        (ButX17.refl _) htwin).of_reaches hstep
      obtain ⟨b, hb⟩ := hcall
      rw [hf] at hb
      cases hb
  | call a =>
      have hcopy : Cpu.exec A ⟨v.copy i, c, t⟩ (.other w) =
          ⟨a, (A.exec w c s).core.setX 30 (v.start (i + 1)),
            (A.exec w c t).mem⟩ := by
        simp only [Cpu.exec, hsame, hf, hcore, hpc]
      rw [hcopy] at hstep
      simp only [Cpu.exec, hf, hret]
      exact (answered_call ⟨a, hf⟩ (hflow a (Or.inr hf)) hi (ButX17.refl _)
        htwin).of_reaches hstep

/-- Whatever form the copy of an instruction has, it answers the step that the
instruction makes in place. -/
theorem answered_of_relocates (hv : v.Laid) {i : Nat} (hi : i < v.count)
    {insn : Insn} {items : List Item}
    (hrel : v.Relocates (v.base + 4 * i) (v.copy i) insn items)
    (hnext : v.start (i + 1) = v.copy i + extent items)
    (hroom : v.copy i + extent items ≤ v.slot + v.room) {c : Core ρ} {s t : Mem}
    (hm : Means t (v.copy i) items)
    (hdec : decode (fetch s (v.base + 4 * i)) = insn)
    (hfit : v.Fit A ⟨v.base + 4 * i, c, s⟩) (h : v.Twin s t) :
    v.Answered A (insn.Calls A c s) (step A ⟨v.base + 4 * i, c, s⟩)
      ⟨v.copy i, c, t⟩ := by
  have hbase := hv.baseFits
  have hslot := hv.slotFits
  have hret : wrap ((v.base + 4 * i : Nat) + 4) = v.base + 4 * (i + 1) :=
    wrap_eq (by omega) (by omega)
  have hlit : ∀ {k t off}, insn = .ldr k t off →
      read s (wrap ((v.base + 4 * i : Nat) + off)) k.size =
        read v.before (wrap ((v.base + 4 * i : Nat) + off)) k.size := by
    intro k t off hk
    simp only [Fit, hdec, hk] at hfit
    exact read_congr fun x h₁ h₂ => hfit x h₁ h₂
  rw [step_of_decode hdec]
  cases hrel with
  | nop => exact answered_fall id hv hi hnext (reaches_one hm (by omega) rfl) h
  | prefetch => exact answered_fall id hv hi hnext (Reaches.refl _) h
  | br n =>
      simp only [Fit, hdec] at hfit
      have hstep : step A ⟨v.copy i, c, t⟩ = ⟨c.getX n, c, t⟩ := by
        rw [step_of_decode hm.1, Cpu.exec]
      exact (answered_outside id hfit (ButX17.refl c) h).of_reaches
        (Reaches.step_eq hstep)
  | other w =>
      simp only [Fit, hdec] at hfit
      exact answered_other hv hi hnext hroom h hm hfit.1 hfit.2
  | branchInside off j hj hoff =>
      have hgo : wrap ((v.base + 4 * i : Nat) + off) = v.base + 4 * j :=
        wrap_eq (by omega) (by omega)
      have hstep : step A ⟨v.copy i, c, t⟩ = ⟨v.copy j, c, t⟩ := by
        rw [step_b hm.1, wrap_eq rfl (hv.copy_lt hj)]
      rw [Cpu.exec, hgo]
      exact (answered_inside hj h).of_reaches (Reaches.step_eq hstep)
  | branchNear link off hout =>
      have hleft := hv.outside_wrap hout
      have hstep : step A ⟨v.copy i, c, t⟩ = ⟨wrap ((v.base + 4 * i : Nat) + off),
          if link then c.setX 30 (v.start (i + 1)) else c, t⟩ := by
        have hlink : wrap ((v.copy i : Int) + 4) = v.start (i + 1) :=
          wrap_eq (by rw [hnext]; rfl) (by rw [hnext]; omega)
        rw [step_of_decode hm.1, Cpu.exec]
        show (⟨wrap ((v.copy i : Int) + _), _, t⟩ : Cpu ρ) = _
        rw [wrap_distance, hlink]
      cases link with
      | false =>
          exact (answered_outside Bool.false_ne_true hleft (ButX17.refl c)
            h).of_reaches (Reaches.step_eq hstep)
      | true =>
          rw [Cpu.exec, hret]
          exact (answered_call rfl hleft hi (ButX17.refl c) h).of_reaches
            (Reaches.step_eq hstep)
  | jumpFar off hout =>
      have hrun := reaches_farJump (A := A) (c := c) hm (by rw [wrap]; omega)
        (show v.copy i + 16 < 2 ^ 64 by change v.copy i + 16 ≤ _ at hroom; omega)
      exact (answered_outside Bool.false_ne_true (hv.outside_wrap hout)
        (butX17_setX c _) h).of_reaches hrun
  | callFar off hout =>
      change v.copy i + 20 ≤ _ at hroom
      change _ = v.copy i + 20 at hnext
      have hrun := reaches_farCall (A := A) (c := c) hm (by rw [wrap]; omega)
        (show v.copy i + 20 < 2 ^ 64 by omega)
      rw [← hnext] at hrun
      rw [Cpu.exec, hret]
      exact (answered_call rfl (hv.outside_wrap hout) hi (butX17_setX c _)
        h).of_reaches hrun
  | testInside k off j hj hoff =>
      refine answered_branchIf id hv hi hnext h (fun hk => ?_) (fun hk => ?_)
      · exact reaches_one hm (by change v.copy i + 4 ≤ _ at hroom; omega)
          (exec_branchIf_false (by simp [hk]))
      · have hgo : wrap ((v.base + 4 * i : Nat) + off) = v.base + 4 * j :=
          wrap_eq (by omega) (by omega)
        have hstep : step A ⟨v.copy i, c, t⟩ = ⟨v.copy j, c, t⟩ := by
          rw [step_of_decode hm.1, exec_branchIf_true hk]
          show (⟨wrap ((v.copy i : Int) + _), c, t⟩ : Cpu ρ) = _
          rw [wrap_distance, wrap_eq rfl (hv.copy_lt hj)]
        rw [hgo]
        exact (answered_inside hj h).of_reaches (Reaches.step_eq hstep)
  | testNear k off hout =>
      refine answered_branchIf id hv hi hnext h (fun hk => ?_) (fun hk => ?_)
      · exact reaches_one hm (by change v.copy i + 4 ≤ _ at hroom; omega)
          (exec_branchIf_false (by simp [hk]))
      · have hstep : step A ⟨v.copy i, c, t⟩ =
            ⟨wrap ((v.base + 4 * i : Nat) + off), c, t⟩ := by
          rw [step_of_decode hm.1, exec_branchIf_true hk]
          show (⟨wrap ((v.copy i : Int) + _), c, t⟩ : Cpu ρ) = _
          rw [wrap_distance]
        exact (answered_outside id (hv.outside_wrap hout) (ButX17.refl c)
          h).of_reaches (Reaches.step_eq hstep)
  | testFar k off hout =>
      change v.copy i + 24 ≤ _ at hroom
      change _ = v.copy i + 24 at hnext
      obtain ⟨htest, hover, hfar⟩ := hm
      refine answered_branchIf id hv hi hnext h (fun hk => ?_) (fun hk => ?_)
      · -- not taken: the branch over the far jump
        have hskip : wrap (((v.copy i + 4 : Nat) : Int) + 20) = v.copy i + 24 :=
          wrap_eq (by omega) (by omega)
        refine reaches_next c htest (by omega) (exec_branchIf_false (by simp [hk]))
          (Reaches.step_eq ?_)
        rw [step_of_decode hover, Cpu.exec, hskip]
        rfl
      · have hgo : wrap ((v.copy i : Int) + 8) = v.copy i + 4 + 4 :=
          wrap_eq (by omega) (by omega)
        have hstep : step A ⟨v.copy i, c, t⟩ = ⟨v.copy i + 4 + 4, c, t⟩ := by
          rw [step_of_decode htest, exec_branchIf_true hk, hgo]
        have hrun := reaches_farJump (A := A) (c := c) hfar (by rw [wrap]; omega)
          (by omega)
        exact (answered_outside id (hv.outside_wrap hout) (butX17_setX c _)
          h).of_reaches ((Reaches.step_eq hstep).trans hrun)
  | literalNear k r off hclear =>
      have hsame : read t (wrap ((v.base + 4 * i : Nat) + off)) k.size =
          read s (wrap ((v.base + 4 * i : Nat) + off)) k.size :=
        read_congr fun x h₁ h₂ => h.shared x (hclear x h₁ h₂)
      refine answered_fall id hv hi hnext (reaches_one hm ?_ ?_) h
      · change v.copy i + 4 ≤ _ at hroom
        omega
      · rw [Cpu.exec, wrap_distance, LitKind.load_congr hsame]
        rfl
  | literalCarried k r off n hn =>
      have hsize : extent (loadCarried k r
          (read v.before (wrap ((v.base + 4 * i : Nat) + off)) n)) = 8 + n := by
        simp [extent, loadCarried, Item.size]
        omega
      rw [hsize] at hroom hnext
      have hheld := hm.2.2.1
      have hheld : read t (v.copy i + 4 + 4) n =
          read v.before (wrap ((v.base + 4 * i : Nat) + off)) n := by
        rw [Holds, length_read] at hheld
        exact hheld
      have hsame : read t (v.copy i + 8) k.size =
          read s (wrap ((v.base + 4 * i : Nat) + off)) k.size := by
        rw [hlit rfl]
        exact read_prefix hn hheld
      have hrun := reaches_loadCarried (A := A) (c := c) hm
        (by rw [length_read]; omega)
      rw [length_read, LitKind.load_congr hsame, Nat.add_assoc] at hrun
      exact answered_fall id hv hi hnext hrun h
  | adrNear d off =>
      refine answered_fall id hv hi hnext (reaches_one hm ?_ ?_) h
      · change v.copy i + 4 ≤ _ at hroom
        omega
      · rw [Cpu.exec, wrap_distance]
        rfl
  | adrFar d off =>
      change v.copy i + 16 ≤ _ at hroom
      exact answered_fall id hv hi hnext
        (reaches_loadAddr hm (by rw [wrap]; omega) (by omega)) h
  | adrpFar d off =>
      change v.copy i + 16 ≤ _ at hroom
      exact answered_fall id hv hi hnext
        (reaches_loadAddr hm (by rw [wrap]; omega) (by omega)) h

/-- The step lemma: abreast, the copy answers the next step of the block. -/
theorem answered_step (hv : v.Laid) {s t : Cpu ρ} (hfit : v.Fit A s)
    (hab : v.Abreast s t) : v.Answered A (s.Calls A) (step A s) t := by
  obtain ⟨⟨i, hi, hpc, hat⟩, hcore, htwin⟩ := hab
  obtain ⟨p, c, m⟩ := s
  obtain ⟨q, c', m'⟩ := t
  simp only at hpc hat hcore htwin
  subst hpc hcore
  have hslot := hv.slotFits
  obtain ⟨pad, items, hcopy, hnext, hm, hrel⟩ := hv.insn i hi
  have hlo := (hv.start_bounds (show i ≤ v.count by omega)).1
  have hhi := (hv.start_bounds (show i + 1 ≤ v.count by omega)).2
  have hall := htwin.means hm hlo (by rw [extent_append, extent_nops]; omega)
  obtain ⟨hpad, hitems⟩ := means_append.mp hall
  rw [extent_nops, ← hcopy] at hitems
  have hto : Reaches (step A) ⟨q, c', m'⟩ ⟨v.copy i, c', m'⟩ := by
    rcases hat with rfl | rfl
    · rw [hcopy]
      exact reaches_nops hpad (by omega)
    · exact Reaches.refl _
  refine Answered.of_reaches ?_ hto
  rw [Cpu.Calls, htwin.fetch_old hi]
  exact answered_of_relocates hv hi hrel hnext (by omega) hitems
    (by rw [htwin.fetch_old hi]) hfit htwin

/-- The run lemma: a run of the block that stays in it and then leaves is
answered by a run of the copy that leaves at the same address, in the same
state. -/
theorem Laid.run (hv : v.Laid) {s t : Cpu ρ} {n : Nat} (hab : v.Abreast s t)
    (hin : ∀ k ≤ n, v.Inside ((step A)^[k] s).pc)
    (hfit : ∀ k ≤ n, v.Fit A ((step A)^[k] s))
    (hout : ¬ v.Inside ((step A)^[n + 1] s).pc) :
    ∃ t', Reaches (step A) t t' ∧
      v.Departed (((step A)^[n] s).Calls A) ((step A)^[n + 1] s) t' := by
  have hmatched : Matched (step A) (step A) (fun s => v.Inside s.pc)
      v.Abreast (fun s t => v.Departed (s.Calls A) (step A s) t) (v.Fit A) :=
    fun s t _ hfit hab => answered_step hv hfit hab
  rw [Function.iterate_succ_apply']
  exact hmatched.run hab hin hfit hout

end Move

end PistolWhipHook
