import PistolWhipHook.Lib.Prog
import PistolWhipHook.Model.Utils
import PistolWhipHook.Model.Functions

/-!
# The process, its runtime, and calls through the function pointers

The mod runs inside the game. What it owns of the process is `Process`: the
`initialized` flag, the function pointers, the static `typeMap`, the log, the
calls made so far and the memory, which it shares with the runtime. What it
is given is `Env`: the outcome of every `dlopen` and `dlsym` of `Init`, and
the runtime. The runtime is not part of the repository, so `Runtime` lists
the functions the mod calls and says of none of them what it answers. A
query reads memory, and an action may change it.

A program of the mod is a `Hook`. It stops on a fault where the source would
call through a null function pointer, read through a null object, read past
a buffer or call `std::terminate`. Started with the API loaded it never calls
through a null pointer, and it carries the proof.
-/

namespace PistolWhipHook

open ByteMem CStr

/-- A pointer; zero is `nullptr`. -/
abbrev Ptr := Nat

/-- A pointer that is not null. -/
abbrev Obj := { p : Ptr // p ≠ 0 }

/-! ## Logging and faults -/

inductive LogLevel where
  | error
  | info
  | debug
  | critical
deriving DecidableEq

/-- An argument of a log line. `none` is a null `char*`. -/
inductive LogArg where
  | str (s : Option Str)
  | int (n : Int)
  | ptr (p : Ptr)
deriving DecidableEq

/-- `log(level, fmt, args...)`. -/
structure LogLine where
  level : LogLevel
  fmt : String
  args : List LogArg
deriving DecidableEq

/-- What a pointer was taken to point at. -/
inductive Pointee where
  | object
  | methodInfo
  | klass
  | delegate
  | assembly
  | text
deriving DecidableEq

inductive Fault where
  | nullCall (f : Fn)
  | nullDeref (t : Pointee)
  | overread
  | overrun
  | terminated
  /-- A signed integer went past its largest value. -/
  | overflow
  /-- A loop or a recursion went on past the rounds it was given. -/
  | stuck
deriving DecidableEq

def Fault.NoNullCall (e : Fault) : Prop := ∀ f, e ≠ .nullCall f

/-! ## The runtime -/

/-- The fields of a `MethodInfo` that the mod reads; `parameters_count` is
the number of parameter types. -/
structure MethodInfo where
  name : Str
  parameterTypes : List Ptr

/-- The fields of an `Il2CppClass` that the mod reads; `method_count` is the
number of methods, and `genericArgs` is the argument list of the class's
generic instance, if it is one. -/
structure ClassInfo where
  eventCount : Nat
  fieldCount : Nat
  propertyCount : Nat
  methods : List Ptr
  genericArgs : Option (List Ptr)

/-- The fields of the zeroed `MethodInfo` that `MakeAction` fills in. -/
structure FakeMethod where
  methodPointer : Ptr
  parametersCount : Nat
  slot : Nat
  isMarshaledFromNative : Bool
  flags : Nat

/-- What came of `runtime_invoke`: a boxed object, NULL from a void method, or
an exception stored in `*exc` and NULL returned. -/
inductive Invoked where
  | boxed (obj : Obj)
  | void
  | threw (exc : Obj)

/-- What `runtime_invoke` returned. -/
def Invoked.ret : Invoked → Ptr
  | .boxed obj => obj.1
  | .void => 0
  | .threw _ => 0

/-- `*exc` after the call, where it was `exp` before. -/
def Invoked.exc : Invoked → Ptr → Ptr
  | .boxed _, exp => exp
  | .void, exp => exp
  | .threw e, _ => e.1

/-- An exception was stored. -/
def Invoked.Threw : Invoked → Prop
  | .boxed _ => False
  | .void => False
  | .threw _ => True

/-- The assemblies of a domain. They are counted with an `int` where they are
searched. -/
abbrev Assemblies := { l : List Obj // l.length < 2 ^ 31 }

structure Runtime where
  -- the runtime's own structures, as they lie in memory
  sizeOfArray : Nat
  methodInfo : Ptr → Mem → MethodInfo
  classInfo : Ptr → Mem → ClassInfo
  assemblyName : Ptr → Mem → Option Str
  objectKlass : Ptr → Mem → Ptr
  delegateMethodPtr : Ptr → Mem → Ptr
  callocMethodInfo : Mem → Ptr
  putMethodInfo : Ptr → FakeMethod → Mem → Mem
  -- queries
  formatException : Ptr → Nat → Mem → Str
  typeEquals : Ptr → Ptr → Mem → Bool
  domainGet : Mem → Ptr
  domainGetAssemblies : Ptr → Mem → Assemblies
  assemblyGetImage : Ptr → Mem → Ptr
  classFromName : Ptr → Str → Str → Mem → Ptr
  classFromIl2cppType : Ptr → Mem → Ptr
  classFromSystemType : Ptr → Mem → Ptr
  classGetMethodFromName : Ptr → Str → Int → Mem → Ptr
  classGetFieldFromName : Ptr → Str → Mem → Ptr
  classGetMethods : Ptr → Ptr → Mem → Ptr × Ptr
  classGetFields : Ptr → Ptr → Mem → Ptr × Ptr
  classGetName : Ptr → Mem → Option Str
  classGetNamespace : Ptr → Mem → Option Str
  classGetNameConst : Ptr → Mem → Option Str
  classGetAssemblyname : Ptr → Mem → Option Str
  classGetType : Ptr → Mem → Ptr
  classGetTypeConst : Ptr → Mem → Ptr
  classGetRank : Ptr → Mem → Int
  classGetTypeToken : Ptr → Mem → Nat
  classGetFlags : Ptr → Mem → Int
  classIsGeneric : Ptr → Mem → Bool
  classIsAbstract : Ptr → Mem → Bool
  classGetDeclaringType : Ptr → Mem → Ptr
  classGetElementClass : Ptr → Mem → Ptr
  classGetParent : Ptr → Mem → Ptr
  objectGetClass : Ptr → Mem → Ptr
  objectUnbox : Ptr → Mem → Ptr
  typeGetType : Ptr → Mem → Int
  typeGetName : Ptr → Mem → Option Str
  typeIsByref : Ptr → Mem → Bool
  methodGetFlags : Ptr → Mem → Nat
  methodGetReturnType : Ptr → Mem → Ptr
  methodGetName : Ptr → Mem → Option Str
  methodGetParamCount : Ptr → Mem → Nat
  methodGetParam : Ptr → Nat → Mem → Ptr
  methodGetParamName : Ptr → Nat → Mem → Option Str
  fieldGetFlags : Ptr → Mem → Nat
  fieldGetType : Ptr → Mem → Ptr
  fieldGetName : Ptr → Mem → Option Str
  fieldGetOffset : Ptr → Mem → Nat
  fieldGetValue : Ptr → Ptr → Mem → Str
  fieldStaticGetValue : Ptr → Mem → Str
  -- actions
  fieldSetValue : Ptr → Ptr → Str → Mem → Mem
  fieldStaticSetValue : Ptr → Str → Mem → Mem
  typeGetObject : Ptr → Mem → Ptr × Mem
  arrayNewSpecific : Ptr → Nat → Mem → Ptr × Mem
  stringNewLen : Str → Mem → Ptr × Mem
  objectNew : Ptr → Mem → Ptr × Mem
  runtimeInvoke : Ptr → Ptr → List Ptr → Mem → Invoked × Mem

/-- What the process is run in. `fuel` is the number of rounds the model
gives a loop or a recursion of the source before it gives up on it. -/
structure Env where
  /-- The handle of the n-th `dlopen` of `Init`. -/
  dlopen : Nat → Ptr
  dlsym : String → Ptr
  dlerror : Nat → Option Str
  rt : Runtime
  fuel : Nat

/-! ## The state and the programs over it -/

/-- A call of an API function, with the pointers it was handed. -/
structure ApiCall where
  fn : Fn
  args : List Ptr
deriving DecidableEq

structure Process where
  initialized : Bool
  pointer : Fn → Ptr
  /-- How many times `Init` has called `dlopen`. -/
  dlopens : Nat
  typeMap : List (Int × String)
  log : List LogLine
  calls : List ApiCall
  mem : Mem

namespace Process

/-- The API is loaded. `Init` asks for `gchandle_get_target` under a name no
library exports, and nothing modelled here calls it. -/
def Loaded (w : Process) : Prop :=
  w.initialized = true ∧ ∀ f, f ≠ .gchandleGetTarget → w.pointer f ≠ 0

def logged (w : Process) (line : LogLine) : Process :=
  { w with log := w.log ++ [line] }

def called (w : Process) (fn : Fn) (args : List Ptr) : Process :=
  { w with calls := w.calls ++ [⟨fn, args⟩] }

def withMem (w : Process) (mem : Mem) : Process := { w with mem }

end Process

/-- A program of the mod. -/
abbrev Hook (α : Type) := Prog Process.Loaded Fault.NoNullCall α

/-- `log(level, fmt, args...)`. -/
def log (level : LogLevel) (fmt : String) (args : List LogArg) : Hook Unit :=
  Prog.act (fun w => ((), w.logged ⟨level, fmt, args⟩)) (fun _ h => h)

/-- Read a structure of the runtime through a pointer. -/
def deref {α : Type} (t : Pointee) (p : Ptr) (get : Ptr → Mem → α) : Hook α :=
  if p = 0 then Prog.fault (.nullDeref t) (fun _ h => by cases h)
  else Prog.ask fun w => get p w.mem

/-- The model's loops and recursions end here when their rounds run out. -/
def stuck {α : Type} : Hook α := Prog.fault .stuck (fun _ h => by cases h)

def overread {α : Type} : Hook α := Prog.fault .overread (fun _ h => by cases h)

def overrun {α : Type} : Hook α := Prog.fault .overrun (fun _ h => by cases h)

def overflow {α : Type} : Hook α := Prog.fault .overflow (fun _ h => by cases h)

/-- `std::terminate()`. -/
def terminate {α : Type} : Hook α :=
  Prog.fault .terminated (fun _ h => by cases h)

/-- `il2cpp_functions::f(args)`: a call through the pointer. -/
def act {α : Type} (f : Fn) (hf : f ≠ .gchandleGetTarget) (args : List Ptr)
    (body : Mem → α × Mem) : Hook α where
  run w :=
    if w.pointer f = 0 then .error (.nullCall f)
    else .ok ((body w.mem).1, (w.called f args).withMem (body w.mem).2)
  ends := by
    intro w a w' hw h
    split at h
    · cases h
    · cases h
      exact hw
  faults := by
    intro w e hw h
    split at h
    · next hnull => exact absurd hnull (hw.2 f hf)
    · cases h

/-- A call that only reads. -/
def query {α : Type} (f : Fn) (hf : f ≠ .gchandleGetTarget) (args : List Ptr)
    (body : Mem → α) : Hook α :=
  act f hf args fun m => (body m, m)

/-! ## `Init` -/

/-- One assignment of `Init` and the line logged after it. -/
def loadOne (env : Env) (w : Process) (row : Fn × String) : Process :=
  let w := { w with
    pointer := fun f => if f = row.1 then env.dlsym row.2 else w.pointer f }
  w.logged ⟨.info, loadedText row.1 row.2,
    if row.1 = .init then [.str (env.dlerror w.dlopens)] else []⟩

/-- What `Init` does to a process that is not initialized. -/
def load (env : Env) (w : Process) : Process :=
  let w := w.logged
    ⟨.info, "il2cpp_functions: Init: Initializing all IL2CPP Functions...", []⟩
  let imagehandle := env.dlopen w.dlopens
  let w := { w with dlopens := w.dlopens + 1 }
  if imagehandle = 0 then
    w.logged ⟨.error, "Failed to dlopen %s: %s!",
      [.str (some il2cppSoPath), .str (env.dlerror w.dlopens)]⟩
  else
    let w := initTable.foldl (loadOne env) w
    { w with initialized := true }.logged
      ⟨.info,
        "il2cpp_functions: Init: Successfully loaded all il2cpp functions!", []⟩

/-- `il2cpp_functions::Init()`. -/
def init (env : Env) : Hook Unit where
  run w := if w.initialized then .ok ((), w) else .ok ((), load env w)
  ends := by
    intro w a w' hw h
    rw [if_pos hw.1] at h
    cases h
    exact hw
  faults := by
    intro w e _ h
    split at h <;> cases h

end PistolWhipHook
