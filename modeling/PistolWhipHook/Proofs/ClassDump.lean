import PistolWhipHook.Proofs.Lookups
import PistolWhipHook.Spec.ClassGraph

/-!
# What the class dump puts in the log

`LogClass` prints one line that names the class it is about by its address,
the one on the element class; `dumped` reads those lines back. Everything
else it prints comes from programs that print no such line. Each of them is
shown here to come to its end, with the API loaded and the memory left as it
is, and to dump nothing: the lookups behind `TypeGetSimpleName`, the loops
over methods and generic arguments, and the loop over the fields, which ends
if the runtime's iteration over them does.
-/

namespace PistolWhipHook

open ByteMem CStr

variable {env : Env} {mem : Mem} {α β : Type} {k : α → Hook β}
  {Q : β → List LogLine → Prop}

/-! ## Output of a hook -/

/-- The API is loaded and the memory is `mem`. -/
def At (mem : Mem) (w : Process) : Prop := w.Loaded ∧ w.mem = mem

/-- Run at `mem` the hook answers, and `Q` holds of its answer and of the
lines it added to the log. -/
abbrev Prints (mem : Mem) (m : Hook α) (Q : α → List LogLine → Prop) : Prop :=
  Prog.Emits (At mem) Process.log m Q

theorem prints_log {level : LogLevel} {fmt : String} {args : List LogArg}
    {k : Unit → Hook β}
    (h : Prints mem (k ()) fun b lines => Q b (⟨level, fmt, args⟩ :: lines)) :
    Prints mem (log level fmt args >>= k) Q := by
  intro w hw
  have hlogged : At mem (w.logged ⟨level, fmt, args⟩) := hw
  obtain ⟨b, w', lines, hrun, hw', hlog, hq⟩ := h _ hlogged
  refine ⟨b, w', ⟨level, fmt, args⟩ :: lines, hrun, hw', ?_, hq⟩
  rw [hlog]
  exact List.append_assoc _ [(⟨level, fmt, args⟩ : LogLine)] lines

theorem prints_log_last {level : LogLevel} {fmt : String} {args : List LogArg}
    {Q : Unit → List LogLine → Prop} (h : Q () [⟨level, fmt, args⟩]) :
    Prints mem (log level fmt args) Q :=
  fun w hw => ⟨(), w.logged ⟨level, fmt, args⟩, [⟨level, fmt, args⟩], rfl, hw,
    rfl, h⟩

/-- A primitive that prints nothing and leaves the memory. -/
theorem prints_after {m : Hook α} {a : α}
    (hm : ∀ w, At mem w → ∃ w', m.run w = .ok (a, w') ∧ At mem w' ∧
      w'.log = w.log) (h : Prints mem (k a) Q) : Prints mem (m >>= k) Q := by
  intro w hw
  obtain ⟨w₁, hrun₁, hw₁, hlog₁⟩ := hm w hw
  obtain ⟨b, w', lines, hrun, hw', hlog, hq⟩ := h w₁ hw₁
  refine ⟨b, w', lines, (Prog.run_bind_ok hrun₁).trans hrun, hw', ?_, hq⟩
  rw [hlog, hlog₁]

theorem prints_init {k : Unit → Hook β} (h : Prints mem (k ()) Q) :
    Prints mem (init env >>= k) Q :=
  prints_after (fun w hw => ⟨w, run_init hw.1, hw, rfl⟩) h

theorem prints_query {f : Fn} {hf : f ≠ .gchandleGetTarget} {args : List Ptr}
    {body : Mem → α} (h : Prints mem (k (body mem)) Q) :
    Prints mem (query f hf args body >>= k) Q := by
  refine prints_after (fun w hw => ⟨w.called f args, ?_, hw, rfl⟩) h
  rw [run_query hw.1, hw.2]

theorem prints_query_last {f : Fn} {hf : f ≠ .gchandleGetTarget}
    {args : List Ptr} {body : Mem → α} {Q : α → List LogLine → Prop}
    (h : Q (body mem) []) : Prints mem (query f hf args body) Q := by
  intro w hw
  refine ⟨_, _, [], run_query hw.1, hw, (List.append_nil _).symm, ?_⟩
  rw [hw.2]
  exact h

theorem prints_deref {t : Pointee} {p : Ptr} {get : Ptr → Mem → α} (hp : p ≠ 0)
    (h : Prints mem (k (get p mem)) Q) : Prints mem (deref t p get >>= k) Q := by
  refine prints_after (fun w hw => ⟨w, ?_, hw, rfl⟩) h
  rw [run_deref hp, hw.2]

theorem prints_readText {buf s : Str} {k : Str → Hook β}
    (hs : cString? buf = some s) (h : Prints mem (k s) Q) :
    Prints mem (readText buf >>= k) Q :=
  prints_after (fun w hw => ⟨w, run_readText hs, hw, rfl⟩) h

theorem prints_readArg {f : Fn} {hf : f ≠ .gchandleGetTarget} {buf s : Str}
    {k : Str → Hook β} (hs : cString? buf = some s) (h : Prints mem (k s) Q) :
    Prints mem (readArg f hf buf >>= k) Q :=
  prints_after
    (fun w hw => ⟨w, (run_readArg hw.1).trans (run_readText hs), hw, rfl⟩) h

/-- What depends on more than the memory: the answer may be any. -/
theorem prints_ask {get : Process → α} (h : ∀ a, Prints mem (k a) Q) :
    Prints mem (Prog.ask get >>= k) Q := by
  intro w hw
  exact h (get w) w hw

/-! ## Dumped classes -/

@[simp] theorem dumped_nil : dumped [] = [] := rfl

@[simp] theorem dumped_append (lines lines' : List LogLine) :
    dumped (lines ++ lines') = dumped lines ++ dumped lines' :=
  List.filterMap_append

theorem dumped_cons {line : LogLine} {lines : List LogLine}
    (h : line.self? = none) : dumped (line :: lines) = dumped lines :=
  List.filterMap_cons_none h

theorem dumped_plain (lines : List LogLine) {level : LogLevel} {fmt : String} :
    dumped (⟨level, fmt, []⟩ :: lines) = dumped lines := rfl

theorem dumped_ptr (lines : List LogLine) {level : LogLevel} {fmt : String}
    {p : Ptr} : dumped (⟨level, fmt, [.ptr p]⟩ :: lines) = dumped lines := rfl

theorem dumped_self (lines : List LogLine) {level : LogLevel}
    {element klass : Ptr} :
    dumped (⟨level, "element class: %p (self = %p)",
      [.ptr element, .ptr klass]⟩ :: lines) = klass :: dumped lines :=
  rfl

/-- The hook comes to its end and dumps no class. -/
abbrev Quiet (mem : Mem) (m : Hook α) : Prop :=
  Prints mem m fun _ lines => dumped lines = []

theorem quiet_pure {a : α} : Quiet mem (pure a : Hook α) := Prog.emits_pure rfl

theorem Quiet.then {m : Hook α} (hm : Quiet mem m) (hk : ∀ a, Quiet mem (k a)) :
    Quiet mem (m >>= k) := by
  refine Prog.Emits.bind hm fun a lines hlines => ?_
  refine (hk a).mono fun b lines' hlines' => ?_
  rw [dumped_append, hlines, hlines', List.append_nil]

theorem quiet_log {level : LogLevel} {fmt : String} {args : List LogArg}
    (h : LogLine.self? ⟨level, fmt, args⟩ = none) :
    Quiet mem (log level fmt args) :=
  prints_log_last (dumped_cons h)

theorem quiet_log_then {level : LogLevel} {fmt : String} {args : List LogArg}
    {k : Unit → Hook β} (h : LogLine.self? ⟨level, fmt, args⟩ = none)
    (hk : Quiet mem (k ())) : Quiet mem (log level fmt args >>= k) :=
  (quiet_log h).then fun _ => hk

/-! ## Names of types -/

theorem quiet_classFromName {img : Ptr} {nameSpace typeName ns tn : Str}
    (hns : cString? nameSpace = some ns) (htn : cString? typeName = some tn) :
    Quiet mem (classFromName env img nameSpace typeName) :=
  prints_readArg hns (prints_readArg htn (prints_query_last rfl))

theorem quiet_searchAssemblies {nameSpace typeName ns tn : Str}
    (hns : cString? nameSpace = some ns) (htn : cString? typeName = some tn)
    (allAssemb : List Obj) :
    Quiet mem (searchAssemblies env nameSpace typeName allAssemb) := by
  induction allAssemb with
  | nil => exact quiet_pure
  | cons assemb allAssemb ih =>
      rw [searchAssemblies]
      refine prints_query ?_
      split
      · refine prints_deref assemb.2 ?_
        exact quiet_log_then rfl ih
      · refine (quiet_classFromName hns htn).then fun klass => ?_
        split
        · exact quiet_pure
        · exact ih

theorem quiet_getClassFromName {nameSpace typeName ns tn : Str}
    (hns : cString? nameSpace = some ns) (htn : cString? typeName = some tn) :
    Quiet mem (getClassFromName env nameSpace typeName) := by
  refine prints_init (prints_query ?_)
  split
  · exact quiet_log_then rfl quiet_pure
  · refine prints_query ?_
    refine Quiet.then (quiet_searchAssemblies hns htn _) fun klass => ?_
    split
    · exact quiet_pure
    · refine prints_readText hns (prints_readText htn ?_)
      exact quiet_log_then rfl quiet_pure

theorem quiet_setTypeMap {key : Int} {name : String} :
    Quiet mem (setTypeMap key name) :=
  fun w hw => ⟨(), _, [], rfl, hw, (List.append_nil w.log).symm, rfl⟩

theorem quiet_fillTypeMap {rows : List (String × String)}
    (hrows : ∀ row ∈ rows, (0 : UInt8) ∉ lit row.1) :
    Quiet mem (fillTypeMap env rows) := by
  induction rows with
  | nil => exact quiet_pure
  | cons row rows ih =>
      obtain ⟨hrow, hrows⟩ := List.forall_mem_cons.mp hrows
      have hkey : Quiet mem (getTypeEnum env (cstr "System") (cstr row.1)) := by
        refine Quiet.then ?_ fun klass => prints_query (prints_query_last rfl)
        exact quiet_getClassFromName (cString?_cstr (by decide))
          (cString?_cstr hrow)
      refine hkey.then fun key => ?_
      exact quiet_setTypeMap.then fun _ => ih hrows

theorem simpleNames_no_nul : ∀ row ∈ simpleNames, (0 : UInt8) ∉ lit row.1 := by
  decide

theorem quiet_typeGetSimpleName {type : Ptr} :
    Quiet mem (typeGetSimpleName env type) := by
  refine prints_ask fun filled => ?_
  refine Prog.emits_when (fun _ => quiet_fillTypeMap simpleNames_no_nul)
    (fun _ => rfl) fun lines hlines => ?_
  refine prints_query (prints_ask fun p => ?_)
  cases p with
  | some name => exact Prog.emits_pure (by rw [List.append_nil]; exact hlines)
  | none => exact prints_query_last (by rw [List.append_nil]; exact hlines)

/-! ## Members -/

theorem quiet_logField {field : Ptr} : Quiet mem (logField env field) := by
  refine prints_init (prints_query (prints_query ?_))
  refine quiet_typeGetSimpleName.then fun typeStr => ?_
  refine prints_query (prints_query ?_)
  exact quiet_log rfl

theorem quiet_logMethods {methods : List Ptr} :
    ∀ {i : Nat}, Quiet mem (logMethods env i methods) := by
  induction methods with
  | nil => intro i; exact quiet_pure
  | cons method methods ih =>
      intro i
      rw [logMethods]
      dsimp only
      split
      · next hmethod =>
          refine quiet_log_then rfl (prints_deref hmethod ?_)
          exact quiet_log_then rfl ih
      · exact quiet_log_then rfl ih

theorem quiet_logGenericArgs {types : List Ptr} :
    ∀ {i : Nat}, Quiet mem (logGenericArgs env i types) := by
  induction types with
  | nil => intro i; exact quiet_pure
  | cons typ types ih =>
      intro i
      refine quiet_typeGetSimpleName.then fun name => ?_
      exact quiet_log_then rfl ih

theorem quiet_logFields {klass : Ptr} {n : Nat} :
    ∀ {rounds : Nat} {iter : Ptr}, n ≤ rounds →
      FieldsEnd env.rt mem klass n iter →
      Quiet mem (logFields env klass rounds iter) := by
  induction n with
  | zero => intro rounds iter _ h; exact h.elim
  | succ n ih =>
      intro rounds iter hrounds h
      cases rounds with
      | zero => exact absurd hrounds (Nat.not_succ_le_zero n)
      | succ rounds =>
          refine prints_query ?_
          split
          · exact quiet_pure
          · next hnext =>
              refine quiet_logField.then fun _ => ?_
              exact ih (Nat.le_of_succ_le_succ hrounds) (h.resolve_left hnext)

end PistolWhipHook
