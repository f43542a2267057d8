import PistolWhipHook.Model.Process

/-!
# The API functions the mod calls

One program for each function pointer that `il2cpp-utils` calls, named after
it. Each goes through its pointer and leaves the rest to the runtime. A
`const char*` is the buffer it points into, and is read where it is used: up
to its first NUL, and past its end if it has none.
-/

namespace PistolWhipHook

open ByteMem CStr

/-- A `const char*` that a log line prints. -/
def readText (buf : Str) : Hook Str :=
  match cString? buf with
  | some s => pure s
  | none => overread

/-- A `const char*` handed to `f`, which reads it. -/
def readArg (f : Fn) (hf : f ≠ .gchandleGetTarget) (buf : Str) : Hook Str where
  run w := if w.pointer f = 0 then .error (.nullCall f) else (readText buf).run w
  ends := by
    intro w a w' hw h
    split at h
    · cases h
    · exact (readText buf).ends hw h
  faults := by
    intro w e hw h
    split at h
    · next hnull => exact absurd hnull (hw.2 f hf)
    · exact (readText buf).faults hw h

variable (env : Env)

def domainGet : Hook Ptr := query .domainGet nofun [] env.rt.domainGet

/-- The assemblies and their number, as one list. -/
def domainGetAssemblies (dom : Ptr) : Hook (List Obj) :=
  query .domainGetAssemblies nofun [dom] fun m =>
    (env.rt.domainGetAssemblies dom m).1

def assemblyGetImage (assemb : Ptr) : Hook Ptr :=
  query .assemblyGetImage nofun [assemb] (env.rt.assemblyGetImage assemb)

def classFromName (img : Ptr) (nameSpace name : Str) : Hook Ptr := do
  let nameSpace ← readArg .classFromName nofun nameSpace
  let name ← readArg .classFromName nofun name
  query .classFromName nofun [img] (env.rt.classFromName img nameSpace name)

def classFromIl2cppType (type : Ptr) : Hook Ptr :=
  query .classFromIl2cppType nofun [type] (env.rt.classFromIl2cppType type)

def classFromSystemType (type : Ptr) : Hook Ptr :=
  query .classFromSystemType nofun [type] (env.rt.classFromSystemType type)

def classGetMethodFromName (klass : Ptr) (name : Str) (argsCount : Int) :
    Hook Ptr := do
  let name ← readArg .classGetMethodFromName nofun name
  query .classGetMethodFromName nofun [klass]
    (env.rt.classGetMethodFromName klass name argsCount)

def classGetFieldFromName (klass : Ptr) (name : Str) : Hook Ptr := do
  let name ← readArg .classGetFieldFromName nofun name
  query .classGetFieldFromName nofun [klass]
    (env.rt.classGetFieldFromName klass name)

/-- The next method and the iterator after it. -/
def classGetMethods (klass iter : Ptr) : Hook (Ptr × Ptr) :=
  query .classGetMethods nofun [klass, iter]
    (env.rt.classGetMethods klass iter)

/-- The next field and the iterator after it. -/
def classGetFields (klass iter : Ptr) : Hook (Ptr × Ptr) :=
  query .classGetFields nofun [klass, iter]
    (env.rt.classGetFields klass iter)

def classGetName (klass : Ptr) : Hook (Option Str) :=
  query .classGetName nofun [klass] (env.rt.classGetName klass)

def classGetNamespace (klass : Ptr) : Hook (Option Str) :=
  query .classGetNamespace nofun [klass] (env.rt.classGetNamespace klass)

def classGetNameConst (klass : Ptr) : Hook (Option Str) :=
  query .classGetNameConst nofun [klass] (env.rt.classGetNameConst klass)

def classGetAssemblyname (klass : Ptr) : Hook (Option Str) :=
  query .classGetAssemblyname nofun [klass]
    (env.rt.classGetAssemblyname klass)

def classGetType (klass : Ptr) : Hook Ptr :=
  query .classGetType nofun [klass] (env.rt.classGetType klass)

def classGetTypeConst (klass : Ptr) : Hook Ptr :=
  query .classGetTypeConst nofun [klass] (env.rt.classGetTypeConst klass)

def classGetRank (klass : Ptr) : Hook Int :=
  query .classGetRank nofun [klass] (env.rt.classGetRank klass)

def classGetTypeToken (klass : Ptr) : Hook Nat :=
  query .classGetTypeToken nofun [klass] (env.rt.classGetTypeToken klass)

def classGetFlags (klass : Ptr) : Hook Int :=
  query .classGetFlags nofun [klass] (env.rt.classGetFlags klass)

def classIsGeneric (klass : Ptr) : Hook Bool :=
  query .classIsGeneric nofun [klass] (env.rt.classIsGeneric klass)

def classIsAbstract (klass : Ptr) : Hook Bool :=
  query .classIsAbstract nofun [klass] (env.rt.classIsAbstract klass)

def classGetDeclaringType (klass : Ptr) : Hook Ptr :=
  query .classGetDeclaringType nofun [klass]
    (env.rt.classGetDeclaringType klass)

def classGetElementClass (klass : Ptr) : Hook Ptr :=
  query .classGetElementClass nofun [klass]
    (env.rt.classGetElementClass klass)

def classGetParent (klass : Ptr) : Hook Ptr :=
  query .classGetParent nofun [klass] (env.rt.classGetParent klass)

def objectGetClass (obj : Ptr) : Hook Ptr :=
  query .objectGetClass nofun [obj] (env.rt.objectGetClass obj)

/-- Undefined on NULL. -/
def objectUnbox (obj : Ptr) : Hook Ptr := do
  let payload ← query .objectUnbox nofun [obj] (env.rt.objectUnbox obj)
  deref .object obj fun _ _ => payload

def formatException (exp : Ptr) (size : Nat) : Hook Str :=
  query .formatException nofun [exp] (env.rt.formatException exp size)

def typeEquals (type other : Ptr) : Hook Bool :=
  query .typeEquals nofun [type, other] (env.rt.typeEquals type other)

def typeGetType (type : Ptr) : Hook Int :=
  query .typeGetType nofun [type] (env.rt.typeGetType type)

def typeGetName (type : Ptr) : Hook (Option Str) :=
  query .typeGetName nofun [type] (env.rt.typeGetName type)

def typeIsByref (type : Ptr) : Hook Bool :=
  query .typeIsByref nofun [type] (env.rt.typeIsByref type)

def methodGetFlags (method : Ptr) : Hook Nat :=
  query .methodGetFlags nofun [method] (env.rt.methodGetFlags method)

def methodGetReturnType (method : Ptr) : Hook Ptr :=
  query .methodGetReturnType nofun [method]
    (env.rt.methodGetReturnType method)

def methodGetName (method : Ptr) : Hook (Option Str) :=
  query .methodGetName nofun [method] (env.rt.methodGetName method)

def methodGetParamCount (method : Ptr) : Hook Nat :=
  query .methodGetParamCount nofun [method]
    (env.rt.methodGetParamCount method)

def methodGetParam (method : Ptr) (i : Nat) : Hook Ptr :=
  query .methodGetParam nofun [method] (env.rt.methodGetParam method i)

def methodGetParamName (method : Ptr) (i : Nat) : Hook (Option Str) :=
  query .methodGetParamName nofun [method]
    (env.rt.methodGetParamName method i)

def fieldGetFlags (field : Ptr) : Hook Nat :=
  query .fieldGetFlags nofun [field] (env.rt.fieldGetFlags field)

def fieldGetType (field : Ptr) : Hook Ptr :=
  query .fieldGetType nofun [field] (env.rt.fieldGetType field)

def fieldGetName (field : Ptr) : Hook (Option Str) :=
  query .fieldGetName nofun [field] (env.rt.fieldGetName field)

def fieldGetOffset (field : Ptr) : Hook Nat :=
  query .fieldGetOffset nofun [field] (env.rt.fieldGetOffset field)

/-- The bytes stored through the out-pointer. -/
def fieldGetValue (obj field : Ptr) : Hook Str :=
  query .fieldGetValue nofun [obj, field] (env.rt.fieldGetValue obj field)

def fieldStaticGetValue (field : Ptr) : Hook Str :=
  query .fieldStaticGetValue nofun [field]
    (env.rt.fieldStaticGetValue field)

/-- `value` is the bytes the `void*` argument stands for. -/
def fieldSetValue (obj field : Ptr) (value : Str) : Hook Unit :=
  act .fieldSetValue nofun [obj, field]
    fun m => ((), env.rt.fieldSetValue obj field value m)

def fieldStaticSetValue (field : Ptr) (value : Str) : Hook Unit :=
  act .fieldStaticSetValue nofun [field]
    fun m => ((), env.rt.fieldStaticSetValue field value m)

def typeGetObject (type : Ptr) : Hook Ptr :=
  act .typeGetObject nofun [type] (env.rt.typeGetObject type)

def arrayNewSpecific (klass : Ptr) (length : Nat) : Hook Ptr :=
  act .arrayNewSpecific nofun [klass] (env.rt.arrayNewSpecific klass length)

def stringNewLen (str : Str) : Hook Ptr :=
  act .stringNewLen nofun [] (env.rt.stringNewLen str)

def objectNew (klass : Ptr) : Hook Ptr :=
  act .objectNew nofun [klass] (env.rt.objectNew klass)

def runtimeInvoke (method obj : Ptr) (params : List Ptr) : Hook Invoked :=
  act .runtimeInvoke nofun (method :: obj :: params)
    (env.rt.runtimeInvoke method obj params)

end PistolWhipHook
