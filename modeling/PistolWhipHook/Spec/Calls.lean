import PistolWhipHook.Lib.Run
import PistolWhipHook.Model.Calls

/-!
# What calls may ask of `Init`

Every function pointer is null until an `Init` whose `dlopen` succeeds. No
operation may call through one before, and after it each pointer is that of
its own function.
-/

namespace PistolWhipHook

open ByteMem

/-! ## Null calls -/

/-- Every symbol the API is read from resolves, once there is a handle. -/
def Env.Resolves (env : Env) : Prop :=
  ∀ row ∈ initTable, row.1 ≠ .gchandleGetTarget → env.dlsym row.2 ≠ 0

/-- How many times a call runs `Init` before it first uses the API, as long as
nothing is loaded. `New` asks for the type of its first argument, and for a
number's type it looks a class up. -/
def Op.inits : Op → Nat
  | .exceptionToString _ => 0
  | .parameterMatch _ _ _ => 0
  | .getMethod _ _ _ => 0
  | .findField _ _ => 0
  | .makeAction _ _ _ _ _ => 0
  | .new _ args =>
      match args with
      | [] => 1
      | ⟨.object _, _⟩ :: _ => 1
      | _ :: _ => 2
  | .makeGenericType _ _ => 2
  | .makeGeneric _ _ => 2
  | _ => 1

/-- `ParameterMatch` settles on the counts, or there is nothing to compare. -/
def NothingToCompare (env : Env) (method : Ptr) (typeArr : List Ptr)
    (count : Int) (mem : Mem) : Prop :=
  let types := (env.rt.methodInfo method mem).parameterTypes
  (types.length : Int) ≠ count ∨ types = [] ∨ typeArr = []

/-- The call never gets to the API: a null it checks for ends it first, or the
object is already known to be of the class, or nothing is to be compared. -/
def Op.CallsNothing (env : Env) (mem : Mem) : Op → Prop
  | .parameterMatch method typeArr count =>
      method = 0 ∨ NothingToCompare env method typeArr count mem
  | .parameterMatchArgs method args =>
      method = 0 ∨ NothingToCompare env method args args.length mem
  | .getMethod klass _ _ => klass = 0
  | .runMethod _ _ _ method _ => method = 0
  | .runMethodVoid _ method _ => method = 0
  | .runMethodOfClass _ _ klass _ _ => klass = 0
  | .runMethodOfObject _ _ inst _ _ => inst = 0
  | .runMethodOfClassVoid klass _ _ => klass = 0
  | .runMethodOfObjectVoid inst _ _ => inst = 0
  | .findField klass _ => klass = 0
  | .getFieldValue _ _ field => field = 0
  | .getFieldValueOfClass _ klass _ => klass = 0
  | .getFieldValueOfObject _ inst _ => inst = 0
  | .getFieldPointer _ _ field => field = 0
  | .getFieldPointerOfClass _ klass _ => klass = 0
  | .getFieldPointerOfObject _ inst _ => inst = 0
  | .setFieldValue _ field _ => field = 0
  | .setFieldValueOfClass klass _ _ => klass = 0
  | .setFieldValueOfObject inst _ _ => inst = 0
  | .assertMatch source klass => source = 0 ∨ env.rt.objectKlass source mem = klass
  | _ => False

/-- What a call needs of the process it is made in: the API is loaded, or one
of the `Init`s before its first use of the API succeeds, or it has no use of
the API. -/
def Op.Ready (env : Env) (op : Op) (w : Process) : Prop :=
  w.initialized = true ∨
    (∃ k < op.inits, env.dlopen (w.dlopens + k) ≠ 0) ∨
    op.CallsNothing env w.mem

/-- From the start of the process no call of the run goes through a null
function pointer. -/
def CallsNoNull (env : Env) (ops : List Op) (mem : Mem) : Prop :=
  ∀ e, Run.run (opStep env) ops (Process.start mem) = .error e → e.NoNullCall

/-! ## Symbols -/

/-- The symbol of the API function that a pointer stands for. The two const
versions stand for the functions they are versions of. -/
def Fn.exported : Fn → String
  | .classGetTypeConst => "il2cpp_" ++ Fn.name .classGetType
  | .classGetNameConst => "il2cpp_" ++ Fn.name .classGetName
  | f => "il2cpp_" ++ f.name

/-- The symbol that its line of `Init` asks for. -/
def Fn.asked : Fn → String
  | .gchandleGetTarget => Fn.exported .gchandleGetTarget ++ " "
  | f => f.exported

/-- Every API function is exported under its name. -/
def Env.Exports (env : Env) : Prop := ∀ f : Fn, env.dlsym f.exported ≠ 0

/-- The spelling with the blank resolves like the one without. -/
def Env.TakesBlank (env : Env) : Prop :=
  env.dlsym (Fn.asked .gchandleGetTarget) =
    env.dlsym (Fn.exported .gchandleGetTarget)

/-- One call of `Init`. -/
def initStep (env : Env) (_ : Unit) (w : Process) : Except Fault Process :=
  (init env).exec w

/-- What is to hold of a process between two calls of `Init`. -/
structure InitLaw (env : Env) (w : Process) : Prop where
  /-- An attempt that fails changes no pointer and initializes nothing. -/
  failed : w.initialized = false → env.dlopen w.dlopens = 0 → ∀ w',
    initStep env () w = .ok w' →
      w'.pointer = w.pointer ∧ w'.initialized = false
  /-- Each pointer is that of its own function, and there is one. -/
  held : w.initialized = true → ∀ f : Fn,
    w.pointer f = env.dlsym f.exported ∧ w.pointer f ≠ 0
  /-- Later calls change none of them. -/
  kept : w.initialized = true → ∀ w', initStep env () w = .ok w' →
    w'.pointer = w.pointer ∧ w'.initialized = true

/-- Nothing is wrong at any point of so many calls of `Init`. -/
def InitRunLaw (env : Env) (n : Nat) (mem : Mem) : Prop :=
  Run.Everywhere (initStep env) (InitLaw env) (fun _ => False)
    (List.replicate n ()) (Process.start mem)

/-- What a call of `Init` needs. -/
def InitGood (env : Env) (_ : Unit) (w : Process) : Prop :=
  w.initialized = true ∨ env.dlopen w.dlopens = 0 ∨ env.TakesBlank

end PistolWhipHook
