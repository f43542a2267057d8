import PistolWhipHook.Proofs.Install
import PistolWhipHook.Proofs.A64Hook

/-!
# The mod's hooks, down to the machine

`InstallHooks` hands three functions to `A64HookFunction`. Here its run is put
together with the library's: what `enterAll` left in `hooked` is the list of
the calls. If the first of the mod's calls finds the game's library, the three
functions are apart from each other, so at the end each that could be made
writable runs the mod's function in its stead, with a slot of its own behind
its pointer, and each that could not is as it was.
-/

namespace PistolWhipHook

open ByteMem A64 Simulation

section

variable {pool : Nat} {B : LongLong} {ok : HookName → Bool}
    {fn cell : HookName → Nat}

/-- The call for one of the hooks. -/
def modCall (B : LongLong) (ok : HookName → Bool) (fn cell : HookName → Nat)
    (h : HookName) :
    HookCall :=
  { rwxOk := ok h, symbol := (B + h.addr).toNat, replace := fn h,
    result := some (cell h) }

/-- The calls for the three of them. -/
def modCalls (B : LongLong) (ok : HookName → Bool) (fn cell : HookName → Nat) :
    List HookCall :=
  [modCall B ok fn cell .loadBank, modCall B ok fn cell .soundEngineLoadBank1,
    modCall B ok fn cell .soundEngineLoadBank2]

theorem symbol_toNat (hp : ModPlaced pool B fn cell) (h : HookName) :
    (B + h.addr).toNat = B.toNat + h.addr.toNat ∧
      h.addr.toNat + 20 ≤ hookedExtent ∧ h.addr.toNat % 4 = 0 := by
  have hfits := hp.fits
  have haddr : h.addr.toNat + 20 ≤ hookedExtent ∧ h.addr.toNat % 4 = 0 := by
    cases h <;> decide
  refine ⟨?_, haddr⟩
  rw [BitVec.toNat_add]
  exact Nat.mod_eq_of_lt (by omega)

theorem modCall_sited (hp : ModPlaced pool B fn cell) (h : HookName) :
    (modCall B ok fn cell h).Sited pool := by
  obtain ⟨hsymbol, hext, h4⟩ := symbol_toNat hp h
  obtain ⟨_, hcount⟩ := hookCount_bounds (B + h.addr).toNat (fn h)
  change (modCall B ok fn cell h).count ≤ 5 at hcount
  have haligned := hp.aligned
  have hfits := hp.fits
  have hsym : (modCall B ok fn cell h).symbol = B.toNat + h.addr.toNat := hsymbol
  refine ⟨by omega, (hp.replacements h).1, by omega, (hp.replacements h).2, ?_,
    fun r hr => ?_⟩
  · rw [hsym]
    rcases hp.offPool with ho | ho
    · exact Or.inl (by omega)
    · exact Or.inr (by omega)
  · obtain rfl : cell h = r := Option.some.inj hr
    refine ⟨?_, (hp.offCells h).2⟩
    rw [hsym]
    rcases (hp.offCells h).1 with ho | ho
    · exact Or.inl (by omega)
    · exact Or.inr (by omega)

theorem modCall_clear (hp : ModPlaced pool B fn cell) {h h' : HookName}
    (hne : h ≠ h') :
    (modCall B ok fn cell h).Clear (modCall B ok fn cell h') := by
  obtain ⟨hsymbol, hext, _⟩ := symbol_toNat hp h
  obtain ⟨hsymbol', hext', _⟩ := symbol_toNat hp h'
  obtain ⟨_, hcount⟩ := hookCount_bounds (B + h.addr).toNat (fn h)
  obtain ⟨_, hcount'⟩ := hookCount_bounds (B + h'.addr).toNat (fn h')
  change (modCall B ok fn cell h).count ≤ 5 at hcount
  change (modCall B ok fn cell h').count ≤ 5 at hcount'
  have hsym : (modCall B ok fn cell h).symbol = B.toNat + h.addr.toNat := hsymbol
  have hsym' : (modCall B ok fn cell h').symbol = B.toNat + h'.addr.toNat :=
    hsymbol'
  have hfar : h.addr.toNat + 20 ≤ h'.addr.toNat ∨
      h'.addr.toNat + 20 ≤ h.addr.toNat := by
    revert hne
    cases h <;> cases h' <;> decide
  refine ⟨?_, fun r hr => ?_, fun r hr => ?_, fun r q hr hq => ?_⟩
  · rw [hsym, hsym']
    rcases hfar with ho | ho
    · exact Or.inl (by omega)
    · exact Or.inr (by omega)
  · obtain rfl : cell h = r := Option.some.inj hr
    rw [hsym']
    rcases (hp.offCells h).1 with ho | ho
    · exact Or.inl (by omega)
    · exact Or.inr (by omega)
  · obtain rfl : cell h' = r := Option.some.inj hr
    rw [hsym]
    rcases (hp.offCells h').1 with ho | ho
    · exact Or.inl (by omega)
    · exact Or.inr (by omega)
  · obtain rfl : cell h = r := Option.some.inj hr
    obtain rfl : cell h' = q := Option.some.inj hq
    exact hp.cells h h' hne

/-- The calls that the mod makes, whatever its later calls find. -/
theorem enterAll_calls {c : Call} (hB : B ≠ 0) (hfind : c.os.Finds B)
    (calls : List Call) :
    (enterAll (c :: calls)).calls ok fn cell = modCalls B ok fn cell := by
  rw [HookState.calls, enterAll_cons, (installHooks_start c.os).2,
    (Os.finds_iff hB).mp hfind]
  rfl

theorem allocations_modCalls (B : LongLong) (ok : HookName → Bool)
    (fn cell : HookName → Nat) : allocations (modCalls B ok fn cell) = 3 := rfl

theorem modCalls_run (hp : ModPlaced pool B fn cell) :
    HookRun pool (modCalls B ok fn cell) := by
  refine ⟨hp.poolPos, hp.poolAligned, hp.poolFits, ?_, ?_,
    by rw [allocations_modCalls]; omega⟩
  · simp only [modCalls, List.forall_mem_cons, List.not_mem_nil, false_imp_iff,
      implies_true, and_true]
    exact ⟨modCall_sited hp _, modCall_sited hp _, modCall_sited hp _⟩
  · simp only [modCalls, List.pairwise_cons, List.forall_mem_cons, List.not_mem_nil,
      false_imp_iff, implies_true, and_true, List.Pairwise.nil]
    exact ⟨⟨modCall_clear hp (by decide), modCall_clear hp (by decide)⟩,
      modCall_clear hp (by decide)⟩

/-- The hook, with the calls before and after it. -/
theorem modCalls_split (B : LongLong) (ok : HookName → Bool)
    (fn cell : HookName → Nat) (h : HookName) :
    ∃ pre post, modCalls B ok fn cell = pre ++ modCall B ok fn cell h :: post ∧
      allocations pre = h.order := by
  cases h with
  | loadBank => exact ⟨[], _, rfl, rfl⟩
  | soundEngineLoadBank1 => exact ⟨[_], _, rfl, rfl⟩
  | soundEngineLoadBank2 => exact ⟨[_, _], _, rfl, rfl⟩

/-- If the first of the mod's calls finds the library, then after any number
of them each of the three functions that could be made writable runs the mod's
function in its stead, with a slot of its own behind its pointer. The pointer
of one that could not is `NULL`, and its words are what they were. -/
theorem enterAll_hooks {c : Call} (calls : List Call) (hB : B ≠ 0)
    (hfind : c.os.Finds B)
    (hp : ModPlaced pool B fn cell) (ok : HookName → Bool) (m : Mem)
    (h : HookName) :
    (ok h = true →
      ByteMem.load (hookAll pool ((enterAll (c :: calls)).calls ok fn cell)
        (.start m)).mem (cell h) 8 = pool + slotSize * h.order ∧
        ∀ {ρ : Type} (A : Arch ρ) (core : Core ρ), ∃ core', Move.ButX17 core core' ∧
          Reaches (step A)
            ⟨(B + h.addr).toNat, core,
              (hookAll pool ((enterAll (c :: calls)).calls ok fn cell)
                (.start m)).mem⟩
            ⟨fn h, core',
              (hookAll pool ((enterAll (c :: calls)).calls ok fn cell)
                (.start m)).mem⟩) ∧
    (ok h = false →
      ByteMem.load (hookAll pool ((enterAll (c :: calls)).calls ok fn cell)
        (.start m)).mem (cell h) 8 = 0 ∧
        ∀ x, (B + h.addr).toNat ≤ x →
          x < (B + h.addr).toNat + 4 * hookCount (B + h.addr).toNat (fn h) →
          (hookAll pool ((enterAll (c :: calls)).calls ok fn cell)
            (.start m)).mem x = m x) := by
  have hrun : HookRun pool (modCalls B ok fn cell) := modCalls_run hp
  obtain ⟨pre, post, hsplit, horder⟩ := modCalls_split B ok fn cell h
  have hlt : h.order < a64MaxBackups := by cases h <;> decide
  rw [enterAll_calls hB hfind, hsplit]
  rw [hsplit] at hrun
  have hresult := hookAll_result hrun m rfl
  refine ⟨fun hok => ⟨?_, fun A core => ?_⟩, fun hfail => ⟨?_, fun x h₁ h₂ => ?_⟩⟩
  · have hdone : (modCall B ok fn cell h).rwxOk = true := hok
    rw [hresult, if_pos hdone, horder, slotAt, if_pos hlt]
  · refine (modCall_sited hp h).diverts (hookAll_patched hrun m hok fun _ => ?_)
    rw [horder]
    exact hlt
  · have hrefused : ¬ (modCall B ok fn cell h).rwxOk = true := by
      show ¬ ok h = true
      rw [hfail]
      exact Bool.false_ne_true
    rw [hresult, if_neg hrefused]
  · exact hookAll_untouched hrun m (Or.inl hfail) ⟨h₁, h₂⟩

end

/-- The mod's functions and pointers, behind the game's library. -/
def gameFn (h : HookName) : Nat := 0x7200000000 + 64 * h.order

def gameCell (h : HookName) : Nat := 0x7300000000 + 8 * h.order

theorem modPlaced_game : ModPlaced 0x7400000000 gameLine.addr gameFn gameCell := by
  have haddr : gameLine.addr.toNat = 0x7100000000 := by decide +kernel
  have hpool : slotSize * a64MaxBackups = 204800 := by decide
  have hext : hookedExtent = 14925884 := by decide
  have horder : ∀ h : HookName, h.order ≤ 2 := by intro h; cases h <;> decide
  refine ⟨by omega, by omega, by omega, by omega, by omega, Or.inl (by omega),
    fun h => ?_, fun h => ?_, fun h h' hne => ?_⟩
  · have := horder h
    rw [gameFn]
    omega
  · have := horder h
    rw [gameCell]
    exact ⟨Or.inr (by omega), Or.inl (by omega)⟩
  · have hdiff : h.order ≠ h'.order := by
      revert hne
      cases h <;> cases h' <;> decide
    rw [gameCell, gameCell, Apart]
    omega

/-- The system lets the first and the last function be written. -/
def gameOk : HookName → Bool
  | .soundEngineLoadBank1 => false
  | _ => true

/-- The calls of `A64HookFunction`, when the mod is entered twice. -/
def gameCalls : List HookCall :=
  (enterAll [⟨.libMain, osOfLines [heapLine, gameLine]⟩,
    ⟨.load, osOfLines [heapLine, gameLine]⟩]).calls gameOk gameFn gameCell

theorem enterAll_hooks_game :
    (ByteMem.load (hookAll 0x7400000000 gameCalls (.start nopMem)).mem
      (gameCell .loadBank) 8 =
        0x7400000000 + slotSize * HookName.loadBank.order ∧
      ∃ core', Move.ButX17 idleCore core' ∧
        Reaches (step idle)
          ⟨(gameLine.addr + HookName.loadBank.addr).toNat, idleCore,
            (hookAll 0x7400000000 gameCalls (.start nopMem)).mem⟩
          ⟨gameFn .loadBank, core',
            (hookAll 0x7400000000 gameCalls (.start nopMem)).mem⟩) ∧
    ByteMem.load (hookAll 0x7400000000 gameCalls (.start nopMem)).mem
      (gameCell .soundEngineLoadBank1) 8 = 0 := by
  have hB : gameLine.addr ≠ 0 := by decide +kernel
  have hooks := enterAll_hooks (c := ⟨.libMain, osOfLines [heapLine, gameLine]⟩)
    [⟨.load, osOfLines [heapLine, gameLine]⟩]
      hB finds_game modPlaced_game gameOk nopMem
  obtain ⟨hcell, hruns⟩ := (hooks .loadBank).1 rfl
  exact ⟨⟨hcell, hruns idle idleCore⟩, ((hooks .soundEngineLoadBank1).2 rfl).1⟩

end PistolWhipHook
