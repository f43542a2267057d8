import PistolWhipHook.Model.Api

/-!
# Runs of the API calls

What a primitive of the mod does to the process, by whether the API is
loaded. Under `Process.Loaded` a call goes through and leaves a trace in
`calls`, and `Init` does nothing. With every pointer still null, the first
call of a program is the one it dies on.
-/

namespace PistolWhipHook

open ByteMem CStr

variable {w : Process} {env : Env} {α : Type}

namespace Process

@[simp] theorem mem_withMem {mem : Mem} : (w.withMem mem).mem = mem := rfl

end Process

/-! ## Whatever is loaded -/

@[simp] theorem run_log {level : LogLevel} {fmt : String} {args : List LogArg} :
    (log level fmt args).run w = .ok ((), w.logged ⟨level, fmt, args⟩) := rfl

theorem run_deref_null {t : Pointee} {get : Ptr → Mem → α} :
    (deref t 0 get).run w = .error (.nullDeref t) := rfl

theorem run_deref {t : Pointee} {p : Ptr} {get : Ptr → Mem → α} (hp : p ≠ 0) :
    (deref t p get).run w = .ok (get p w.mem, w) := by
  rw [deref, if_neg hp]
  rfl

theorem run_readText {buf s : Str} (h : cString? buf = some s) :
    (readText buf).run w = .ok (s, w) := by
  rw [readText, h]
  rfl

theorem run_readText_unterminated {buf : Str} (h : cString? buf = none) :
    (readText buf).run w = .error .overread := by
  rw [readText, h]
  rfl

/-! ## With the API loaded -/

theorem run_init (hw : w.Loaded) : (init env).run w = .ok ((), w) :=
  if_pos hw.1

theorem run_act {f : Fn} {hf} {args : List Ptr} {body : Mem → α × Mem}
    (hw : w.Loaded) :
    (act f hf args body).run w =
      .ok ((body w.mem).1, (w.called f args).withMem (body w.mem).2) :=
  if_neg (hw.2 f hf)

theorem run_query {f : Fn} {hf} {args : List Ptr} {body : Mem → α}
    (hw : w.Loaded) :
    (query f hf args body).run w = .ok (body w.mem, w.called f args) :=
  run_act hw

theorem run_readArg {f : Fn} {hf} {buf : Str} (hw : w.Loaded) :
    (readArg f hf buf).run w = (readText buf).run w :=
  if_neg (hw.2 f hf)

/-! ## The API calls -/

theorem run_classGetName {klass : Ptr} (hw : w.Loaded) :
    (classGetName env klass).run w =
      .ok (env.rt.classGetName klass w.mem, w.called .classGetName [klass]) :=
  run_query hw

theorem run_objectGetClass {obj : Ptr} (hw : w.Loaded) :
    (objectGetClass env obj).run w =
      .ok (env.rt.objectGetClass obj w.mem, w.called .objectGetClass [obj]) :=
  run_query hw

theorem run_fieldGetValue {obj field : Ptr} (hw : w.Loaded) :
    (fieldGetValue env obj field).run w =
      .ok (env.rt.fieldGetValue obj field w.mem,
        w.called .fieldGetValue [obj, field]) :=
  run_query hw

theorem run_fieldStaticGetValue {field : Ptr} (hw : w.Loaded) :
    (fieldStaticGetValue env field).run w =
      .ok (env.rt.fieldStaticGetValue field w.mem,
        w.called .fieldStaticGetValue [field]) :=
  run_query hw

theorem run_formatException {exp : Ptr} {size : Nat} (hw : w.Loaded) :
    (formatException env exp size).run w =
      .ok (env.rt.formatException exp size w.mem,
        w.called .formatException [exp]) :=
  run_query hw

theorem run_objectNew {klass : Ptr} (hw : w.Loaded) :
    (objectNew env klass).run w =
      .ok ((env.rt.objectNew klass w.mem).1,
        (w.called .objectNew [klass]).withMem (env.rt.objectNew klass w.mem).2) :=
  run_act hw

theorem run_runtimeInvoke {method obj : Ptr} {params : List Ptr}
    (hw : w.Loaded) :
    (runtimeInvoke env method obj params).run w =
      .ok ((env.rt.runtimeInvoke method obj params w.mem).1,
        (w.called .runtimeInvoke (method :: obj :: params)).withMem
          (env.rt.runtimeInvoke method obj params w.mem).2) :=
  run_act hw

theorem run_fieldSetValue {obj field : Ptr} {value : Str} (hw : w.Loaded) :
    (fieldSetValue env obj field value).run w =
      .ok ((), (w.called .fieldSetValue [obj, field]).withMem
        (env.rt.fieldSetValue obj field value w.mem)) :=
  run_act hw

theorem run_fieldStaticSetValue {field : Ptr} {value : Str} (hw : w.Loaded) :
    (fieldStaticSetValue env field value).run w =
      .ok ((), (w.called .fieldStaticSetValue [field]).withMem
        (env.rt.fieldStaticSetValue field value w.mem)) :=
  run_act hw

theorem run_objectUnbox_null (hw : w.Loaded) :
    (objectUnbox env 0).run w = .error (.nullDeref .object) := by
  rw [objectUnbox, Prog.run_bind_ok (run_query hw)]
  exact run_deref_null

theorem run_classGetMethodFromName {klass : Ptr} {name n : Str} {argsCount : Int}
    (hw : w.Loaded) (hn : cString? name = some n) :
    (classGetMethodFromName env klass name argsCount).run w =
      .ok (env.rt.classGetMethodFromName klass n argsCount w.mem,
        w.called .classGetMethodFromName [klass]) := by
  rw [classGetMethodFromName]
  rw [Prog.run_bind_ok ((run_readArg hw).trans (run_readText hn)), run_query hw]

/-! ## With a pointer still null -/

theorem run_act_null {f : Fn} {hf} {args : List Ptr} {body : Mem → α × Mem}
    (h : w.pointer f = 0) :
    (act f hf args body).run w = .error (.nullCall f) :=
  if_pos h

theorem run_readArg_null {f : Fn} {hf} {buf : Str} (h : w.pointer f = 0) :
    (readArg f hf buf).run w = .error (.nullCall f) :=
  if_pos h

/-! ## A runtime to fill in

The concrete runs of the modules below are runs against `Runtime.bare`, with
the few functions each is about filled in. -/

/-- A runtime that knows of nothing and does nothing. -/
def Runtime.bare : Runtime where
  sizeOfArray := 0
  methodInfo := fun _ _ => ⟨[], []⟩
  classInfo := fun _ _ => ⟨0, 0, 0, [], none⟩
  assemblyName := fun _ _ => none
  objectKlass := fun _ _ => 0
  delegateMethodPtr := fun _ _ => 0
  callocMethodInfo := fun _ => 0
  putMethodInfo := fun _ _ m => m
  formatException := fun _ _ _ => []
  typeEquals := fun _ _ _ => false
  domainGet := fun _ => 0
  domainGetAssemblies := fun _ _ => ⟨[], by decide⟩
  assemblyGetImage := fun _ _ => 0
  classFromName := fun _ _ _ _ => 0
  classFromIl2cppType := fun _ _ => 0
  classFromSystemType := fun _ _ => 0
  classGetMethodFromName := fun _ _ _ _ => 0
  classGetFieldFromName := fun _ _ _ => 0
  classGetMethods := fun _ _ _ => (0, 0)
  classGetFields := fun _ _ _ => (0, 0)
  classGetName := fun _ _ => none
  classGetNamespace := fun _ _ => none
  classGetNameConst := fun _ _ => none
  classGetAssemblyname := fun _ _ => none
  classGetType := fun _ _ => 0
  classGetTypeConst := fun _ _ => 0
  classGetRank := fun _ _ => 0
  classGetTypeToken := fun _ _ => 0
  classGetFlags := fun _ _ => 0
  classIsGeneric := fun _ _ => false
  classIsAbstract := fun _ _ => false
  classGetDeclaringType := fun _ _ => 0
  classGetElementClass := fun _ _ => 0
  classGetParent := fun _ _ => 0
  objectGetClass := fun _ _ => 0
  objectUnbox := fun _ _ => 0
  typeGetType := fun _ _ => 0
  typeGetName := fun _ _ => none
  typeIsByref := fun _ _ => false
  methodGetFlags := fun _ _ => 0
  methodGetReturnType := fun _ _ => 0
  methodGetName := fun _ _ => none
  methodGetParamCount := fun _ _ => 0
  methodGetParam := fun _ _ _ => 0
  methodGetParamName := fun _ _ _ => none
  fieldGetFlags := fun _ _ => 0
  fieldGetType := fun _ _ => 0
  fieldGetName := fun _ _ => none
  fieldGetOffset := fun _ _ => 0
  fieldGetValue := fun _ _ _ => []
  fieldStaticGetValue := fun _ _ => []
  fieldSetValue := fun _ _ _ m => m
  fieldStaticSetValue := fun _ _ m => m
  typeGetObject := fun _ m => (0, m)
  arrayNewSpecific := fun _ _ m => (0, m)
  stringNewLen := fun _ m => (0, m)
  objectNew := fun _ m => (0, m)
  runtimeInvoke := fun _ _ _ m => (.void, m)

/-- The library is there whenever it is asked for. -/
def Env.of (rt : Runtime) : Env where
  dlopen := fun _ => 1
  dlsym := fun _ => 1
  dlerror := fun _ => none
  rt
  fuel := 8

/-- A process with the API loaded. -/
def Process.ready (mem : Mem) : Process where
  initialized := true
  pointer := fun _ => 1
  dlopens := 1
  typeMap := []
  log := []
  calls := []
  mem

theorem ready_loaded (mem : Mem) : (Process.ready mem).Loaded :=
  ⟨rfl, fun _ _ => Nat.one_ne_zero⟩

end PistolWhipHook
