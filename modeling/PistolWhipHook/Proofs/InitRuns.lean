import PistolWhipHook.Proofs.Init

/-!
# Which symbol each pointer holds

`Init` has a line for each pointer the header declares, and the line names the
symbol again. The lines and the declarations correspond one to one, and in all
of the lines but one the symbol is the declared name with the library's prefix.
The line of `gchandle_get_target` has a blank after it.

So once a `dlopen` has succeeded every other pointer is right for good, and
that one is right only if the two spellings resolve alike.
-/

namespace PistolWhipHook

open ByteMem

variable {env : Env} {w : Process}

theorem initTable_asked : ∀ row ∈ initTable, row.2 = row.1.asked := by
  decide +kernel

theorem asked_eq_exported {f : Fn} (hf : f ≠ .gchandleGetTarget) :
    f.asked = f.exported := by
  rw [Fn.asked]
  exact hf

/-! ## One call -/

theorem initStep_initialized (h : w.initialized = true) :
    initStep env () w = .ok w := by
  have hrun : (init env).run w = .ok ((), w) := if_pos h
  rw [initStep, Prog.exec, hrun]

theorem initStep_load (h : w.initialized = false) :
    initStep env () w = .ok (load env w) := by
  have hrun : (init env).run w = .ok ((), load env w) :=
    if_neg (by rw [h]; exact Bool.false_ne_true)
  rw [initStep, Prog.exec, hrun]

theorem load_failed (hd : env.dlopen w.dlopens = 0) :
    (load env w).pointer = w.pointer ∧
      (load env w).initialized = w.initialized := by
  rw [load]
  dsimp only
  rw [if_pos (show env.dlopen (w.logged _).dlopens = 0 from hd)]
  exact ⟨rfl, rfl⟩

theorem load_asked (hd : env.dlopen w.dlopens ≠ 0) (f : Fn) :
    (load env w).pointer f = env.dlsym f.asked :=
  load_pointer (· = env.dlsym f.asked) hd fun row hmem hrow => by
    rw [initTable_asked row hmem, hrow]

theorem load_exported_iff (hd : env.dlopen w.dlopens ≠ 0) :
    (∀ f : Fn, (load env w).pointer f = env.dlsym f.exported) ↔
      env.TakesBlank := by
  refine ⟨fun h => (load_asked hd _).symm.trans (h _), fun h f => ?_⟩
  rw [load_asked hd]
  by_cases hf : f = .gchandleGetTarget
  · rw [hf]
    exact h
  · rw [asked_eq_exported hf]

theorem initLaw_of_initialized (hexp : env.Exports) (h : w.initialized = true)
    (hheld : ∀ f : Fn, w.pointer f = env.dlsym f.exported) : InitLaw env w := by
  refine ⟨fun hinit => ?_, fun _ f => ⟨hheld f, ?_⟩, fun _ w' hw' => ?_⟩
  · rw [h] at hinit
    cases hinit
  · rw [hheld]
    exact hexp f
  · rw [initStep_initialized h] at hw'
    cases hw'
    exact ⟨rfl, h⟩

theorem initLaw_of_not_initialized (h : w.initialized = false) : InitLaw env w := by
  refine ⟨fun _ hd w' hw' => ?_, fun hinit => ?_, fun hinit => ?_⟩
  · rw [initStep_load h] at hw'
    cases hw'
    obtain ⟨hptr, hflag⟩ := load_failed hd
    exact ⟨hptr, hflag.trans h⟩
  all_goals
    rw [h] at hinit
    cases hinit

/-- A call keeps the law exactly when it is good where it is made. -/
theorem initStep_law_iff (hexp : env.Exports) (h : InitLaw env w) :
    Run.Sound (InitLaw env) (fun _ => False) (initStep env () w) ↔
      InitGood env () w := by
  by_cases hinit : w.initialized = true
  · rw [initStep_initialized hinit]
    exact ⟨fun _ => Or.inl hinit, fun _ => h⟩
  have hinit' := Bool.eq_false_iff.mpr hinit
  rw [initStep_load hinit', InitGood, or_iff_right hinit]
  by_cases hd : env.dlopen w.dlopens = 0
  · refine ⟨fun _ => Or.inl hd, fun _ => initLaw_of_not_initialized ?_⟩
    rw [(load_failed hd).2, hinit']
  · rw [or_iff_right hd, ← load_exported_iff hd]
    have hload := load_initialized hd
    refine ⟨fun hlaw f => (hlaw.held hload f).1, fun hheld => ?_⟩
    exact initLaw_of_initialized hexp hload hheld

/-! ## Runs -/

theorem meets_initGood_of_initialized {n : Nat} (h : w.initialized = true) :
    Run.Meets (initStep env) (InitGood env) (List.replicate n ()) w := by
  induction n with
  | zero => exact True.intro
  | succ n ih =>
      exact (Run.meets_cons_ok (initStep_initialized h)).mpr ⟨Or.inl h, ih⟩

/-- The first `dlopen` that succeeds decides. -/
theorem meets_initGood_iff {n : Nat} :
    ∀ {w : Process}, w.initialized = false →
      (Run.Meets (initStep env) (InitGood env) (List.replicate n ()) w ↔
        (∀ k < n, env.dlopen (w.dlopens + k) = 0) ∨ env.TakesBlank) := by
  induction n with
  | zero =>
      intro w _
      exact ⟨fun _ => Or.inl fun k hk => absurd hk (Nat.not_lt_zero k),
        fun _ => True.intro⟩
  | succ n ih =>
      intro w h
      have hinit : ¬ w.initialized = true := by rw [h]; exact Bool.false_ne_true
      rw [List.replicate_succ, Run.meets_cons_ok (initStep_load h), InitGood,
        or_iff_right hinit, Nat.forall_lt_succ_left, Nat.add_zero]
      by_cases hd : env.dlopen w.dlopens = 0
      · have hrest := ih (w := load env w) ((load_failed hd).2.trans h)
        rw [hrest, load_dlopens, and_iff_right (Or.inl hd), and_iff_right hd]
        simp only [Nat.succ_add, Nat.add_succ]
      · have hload : Run.Meets (initStep env) (InitGood env) (List.replicate n ())
            (load env w) := meets_initGood_of_initialized (load_initialized hd)
        rw [and_iff_left hload, or_iff_right hd]
        exact (or_iff_right fun hall => hd hall.1).symm

/-- Over any number of calls of `Init` and whatever each `dlopen` gives, the
law holds at every point exactly when no `dlopen` succeeded or the blank makes
no difference to the library. -/
theorem initRunLaw_iff (hexp : env.Exports) (n : Nat) (mem : Mem) :
    InitRunLaw env n mem ↔
      (∀ k < n, env.dlopen k = 0) ∨ env.TakesBlank := by
  have hstart : InitLaw env (Process.start mem) := initLaw_of_not_initialized rfl
  have hmeets : Run.Meets (initStep env) (InitGood env) (List.replicate n ())
      (Process.start mem) ↔ (∀ k < n, env.dlopen (0 + k) = 0) ∨ env.TakesBlank :=
    meets_initGood_iff rfl
  simp only [Nat.zero_add] at hmeets
  rw [← hmeets]
  exact Run.everywhere_iff_meets (fun _ _ h => initStep_law_iff hexp h)
    (fun _ h => h) hstart

/-- A library that pays no attention to blanks. -/
theorem initRunLaw_same_everywhere :
    InitRunLaw (Env.of Runtime.bare) 3 (fun _ => 0) :=
  (initRunLaw_iff (fun _ => Nat.one_ne_zero) 3 _).mpr (Or.inr rfl)

/-- The symbols of a library that exports no name with a blank. -/
def Env.strict : Env :=
  { Env.of Runtime.bare with
    dlsym := fun s => if s = Fn.asked .gchandleGetTarget then 0 else 1 }

theorem exported_ne_asked :
    ∀ row ∈ initTable, row.1.exported ≠ Fn.asked .gchandleGetTarget := by
  decide +kernel

theorem strict_exports : Env.strict.Exports := by
  intro f
  obtain ⟨row, hmem, rfl⟩ := List.mem_map.mp (initTable_complete f)
  show (if row.1.exported = Fn.asked .gchandleGetTarget then 0 else 1) ≠ 0
  rw [if_neg (exported_ne_asked row hmem)]
  exact Nat.one_ne_zero

/-- After one `Init` that succeeds, `gchandle_get_target` is null. -/
theorem initRunLaw_fails_gchandle :
    Env.strict.Exports ∧ ¬ InitRunLaw Env.strict 1 (fun _ => 0) := by
  refine ⟨strict_exports, fun h => ?_⟩
  have hd : Env.strict.dlopen (Process.start fun _ => 0).dlopens ≠ 0 :=
    Nat.one_ne_zero
  have hlaw : InitLaw Env.strict (load Env.strict (Process.start fun _ => 0)) := h 1
  refine (hlaw.held (load_initialized hd) .gchandleGetTarget).2 ?_
  rw [load_asked hd]
  show (if Fn.asked .gchandleGetTarget = Fn.asked .gchandleGetTarget then 0
    else 1) = 0
  exact if_pos rfl

end PistolWhipHook
