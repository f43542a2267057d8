import PistolWhipHook.Proofs.BaseAddr
import PistolWhipHook.Spec.Hooks

/-!
# Where and how often the hooks go in

Whatever its first call finds, `InstallHooks` hands all three hooks over and
sets `installed`, so every later call is a no-op and the first one decides:
`enterAll_cons`. The address it uses is the library's base when `baseAddr`
finds it and zero when it does not, and nothing between `baseAddr` and
`A64HookFunction` looks at which. So the hooks are where they should be
exactly in the runs whose first call already finds the library.
-/

namespace PistolWhipHook

open ByteMem CStr

/-! ## One call -/

theorem Call.enter_eq (c : Call) (s : HookState) :
    c.enter s = installHooks c.os s := by
  rw [Call.enter]
  cases c.entry <;> rfl

theorem installHooks_installed {os : Os} {s : HookState}
    (h : s.installed = true) : installHooks os s = s := by
  rw [installHooks, if_pos h]

/-- A null location is looked up again for each of the three hooks, with the
same answer each time; any other is kept. -/
theorem installHooks_start (os : Os) :
    (installHooks os .start).installed = true ∧
      (installHooks os .start).hooked =
        [(baseAddr os (some il2cppSoPath) + HookName.loadBank.addr, .loadBank),
          (baseAddr os (some il2cppSoPath) + HookName.soundEngineLoadBank1.addr,
            .soundEngineLoadBank1),
          (baseAddr os (some il2cppSoPath) + HookName.soundEngineLoadBank2.addr,
            .soundEngineLoadBank2)] := by
  refine ⟨rfl, ?_⟩
  by_cases hz : baseAddr os (some il2cppSoPath) = 0
  · simp [installHooks, installHook, getRealOffset, HookState.start, hz]
  · simp [installHooks, installHook, getRealOffset, HookState.start]

/-! ## A run -/

theorem foldl_enter_installed {s : HookState} (h : s.installed = true)
    (calls : List Call) : calls.foldl (fun s c => c.enter s) s = s := by
  induction calls with
  | nil => rfl
  | cons c calls ih =>
      rw [List.foldl_cons, Call.enter_eq, installHooks_installed h]
      exact ih

/-- The first call decides the run. -/
theorem enterAll_cons (c : Call) (calls : List Call) :
    enterAll (c :: calls) = installHooks c.os .start := by
  rw [enterAll, List.foldl_cons, Call.enter_eq]
  exact foldl_enter_installed (installHooks_start c.os).1 calls

theorem enterAll_cons_count (c : Call) (calls : List Call) (h : HookName) :
    ((enterAll (c :: calls)).hooked.map Prod.snd).count h = 1 := by
  rw [enterAll_cons, (installHooks_start c.os).2]
  cases h <;> rfl

theorem soPath_ne_nil : il2cppSoPath ≠ [] := by decide

theorem Os.finds_iff {os : Os} {B : LongLong} (hB : B ≠ 0) :
    os.Finds B ↔ baseAddr os (some il2cppSoPath) = B := by
  cases hopen : os.dlopen (some il2cppSoPath) with
  | false =>
      rw [baseAddr_dlopen_fails hopen]
      refine ⟨fun h => absurd h.1 (by simp [hopen]), fun h => absurd h.symm hB⟩
  | true =>
      cases hmaps : os.maps with
      | none =>
          rw [baseAddr_fopen_fails hmaps]
          refine ⟨?_, fun h => absurd h.symm hB⟩
          intro h
          obtain ⟨-, text, htext, -⟩ := h
          rw [hmaps] at htext
          cases htext
      | some text =>
          rw [baseAddr_eq soPath_ne_nil hopen hmaps]
          refine ⟨?_, ?_⟩
          · intro h
            obtain ⟨-, text', htext, hhead⟩ := h
            obtain rfl : text = text' := by
              rw [hmaps] at htext; exact Option.some.inj htext
            rw [hhead]
            rfl
          · intro h
            cases hhead :
              ((pieces 199 text).filterMap (shownBy il2cppSoPath)).head? with
            | none =>
                rw [hhead] at h
                exact absurd h.symm hB
            | some a =>
                rw [hhead] at h
                obtain rfl : a = B := h
                exact ⟨hopen, text, hmaps, hhead⟩

/-- Over a file of plain lines the library is found where it is mapped. -/
theorem Os.finds_iff_of_plain {os : Os} {B : LongLong} {ls : List MapsLine}
    (hmaps : os.maps = some (mapsText ls)) (hplain : ∀ l ∈ ls, l.Plain) :
    os.Finds B ↔ os.dlopen (some il2cppSoPath) = true ∧
      ∃ l, ls.find? (MapsLine.names il2cppSoPath) = some l ∧ l.addr = B := by
  have hhead := flatMap_shown_of_plain soPath_ne_nil hplain
  rw [← filterMap_pieces_mapsText soPath_ne_nil] at hhead
  refine and_congr_right fun _ => ⟨?_, ?_⟩
  · intro h
    obtain ⟨text, htext, hB⟩ := h
    obtain rfl : mapsText ls = text := by
      rw [hmaps] at htext; exact Option.some.inj htext
    rw [hhead, Option.map_eq_some_iff] at hB
    exact hB
  · intro h
    obtain ⟨l, hl, haddr⟩ := h
    exact ⟨mapsText ls, hmaps, by rw [hhead, hl, Option.map_some, haddr]⟩

/-- In every run, and for every base but the null address, the hooks are
placed as they should be exactly when the run makes no call or its first call
finds the library there. -/
theorem hooksPlaced_iff {B : LongLong} (hB : B ≠ 0) (calls : List Call) :
    HooksPlaced B calls ↔ ∀ c ∈ calls.head?, c.os.Finds B := by
  cases calls with
  | nil =>
      refine ⟨fun _ c hc => (by cases hc), fun _ => ⟨?_, ?_⟩⟩
      · intro e he
        cases he
      · intro k h
        obtain ⟨c, hc, -⟩ := h
        rw [List.take_nil] at hc
        cases hc
  | cons c calls =>
      have hhead : (∀ c' ∈ (c :: calls).head?, c'.os.Finds B) ↔ c.os.Finds B := by
        simp
      rw [hhead, Os.finds_iff hB]
      refine ⟨?_, ?_⟩
      · intro h
        have he := h.symbol (baseAddr c.os (some il2cppSoPath)
          + HookName.loadBank.addr, .loadBank) (by
            rw [enterAll_cons, (installHooks_start c.os).2]
            exact List.mem_cons_self)
        exact (BitVec.add_left_inj _).mp he
      · intro h
        refine ⟨fun e he => ?_, fun k hk h => ?_⟩
        · rw [enterAll_cons, (installHooks_start c.os).2] at he
          simp only [List.mem_cons, List.not_mem_nil, or_false] at he
          rcases he with rfl | rfl | rfl <;> exact congrArg (· + _) h
        · cases k with
          | zero =>
              obtain ⟨c', hc', -⟩ := hk
              cases hc'
          | succ k =>
              rw [List.take_succ_cons]
              exact enterAll_cons_count c _ h

/-- The system before the library is loaded: `dlopen` fails on it. -/
def osWithout : Os := { dlopen := fun _ => false, maps := some [] }

/-- The game's library is found behind a mapping without a pathname. -/
theorem finds_game : (osOfLines [heapLine, gameLine]).Finds gameLine.addr := by
  refine (Os.finds_iff_of_plain rfl (by decide +kernel)).mpr
    ⟨rfl, gameLine, ?_, rfl⟩
  rw [List.find?_cons_of_neg (by decide),
    List.find?_cons_of_pos (by decide +kernel)]

theorem hooksPlaced_game :
    HooksPlaced gameLine.addr
      [⟨.libMain, osOfLines [heapLine, gameLine]⟩,
        ⟨.load, osOfLines [heapLine, gameLine]⟩] :=
  (hooksPlaced_iff (by decide +kernel) _).mpr (by
    intro c hc
    obtain rfl := Option.some.inj hc
    exact finds_game)

/-- The mod is loaded first and the library after it: the first call hooks
the bare offsets, and the second, which could see the library, does nothing. -/
theorem hooksPlaced_fails_early :
    ¬ HooksPlaced gameLine.addr
      [⟨.libMain, osWithout⟩, ⟨.load, osOfLines [gameLine]⟩] := by
  intro h
  have he := h.symbol (HookName.loadBank.addr, .loadBank) (by decide +kernel)
  exact absurd he (by decide +kernel)

end PistolWhipHook
