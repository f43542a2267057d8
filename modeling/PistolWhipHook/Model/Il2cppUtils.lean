import PistolWhipHook.Model.Api

/-!
# `il2cpp-utils`: lookups, objects, methods and fields

The functions of `namespace il2cpp_utils` over the API, each with the checks,
the log lines and the early exits of the source, in the source's order.
Overloads are told apart by a suffix. An out-parameter `TOut* out` is the
bytes of the variable it points at, taken as they were and given back as they
are after the call; a local that the source leaves uninitialised is a
parameter named for it, with the contents it happens to have.
-/

namespace PistolWhipHook

open ByteMem CStr

/-- A `std::string_view`: how many characters it has, and the buffer that
`data()` points into, which may go on past them. -/
structure StringView where
  data : Str
  length : Nat
  le : length ≤ data.length

def StringView.chars (v : StringView) : Str := v.data.take v.length

/-- A view of a whole string: what follows it is its NUL. -/
def StringView.whole (s : Str) : StringView :=
  { data := s ++ [0], length := s.length, le := by simp }

variable (env : Env)

/-! ## Exceptions, classes and signatures -/

/-- `EXCEPTION_MESSAGE_SIZE`. -/
def exceptionMessageSize : Nat := 4096

def exceptionToString (exp : Ptr) : Hook Str := do
  let msg ← formatException env exp exceptionMessageSize
  return untilNul msg

/-- The loop of `ParameterMatch`. -/
def matchTypes : List Ptr → List Ptr → Hook Bool
  | [], _ => return true
  | _ :: _, [] => overread
  | param :: params, type :: types => do
      let equal ← typeEquals env param type
      if !equal then return false
      else matchTypes params types

/-- `ParameterMatch(method, type_arr, count)`. -/
def parameterMatch (method : Ptr) (typeArr : List Ptr) (count : Int) :
    Hook Bool := do
  let method ← deref .methodInfo method env.rt.methodInfo
  if (method.parameterTypes.length : Int) ≠ count then return false
  else matchTypes env method.parameterTypes typeArr

/-- `ParameterMatch(method, args...)`. -/
def parameterMatchArgs (method : Ptr) (args : List Ptr) : Hook Bool := do
  init env
  parameterMatch env method args args.length

/-- The loop of `GetClassFromName`; null where it falls through. -/
def searchAssemblies (nameSpace typeName : Str) : List Obj → Hook Ptr
  | [] => return 0
  | assemb :: allAssemb => do
      let img ← assemblyGetImage env assemb.1
      if img = 0 then do
        let name ← deref .assembly assemb.1 env.rt.assemblyName
        log .error "Assembly with name: %s has a null image!" [.str name]
        searchAssemblies nameSpace typeName allAssemb
      else do
        let klass ← classFromName env img nameSpace typeName
        if klass ≠ 0 then return klass
        else searchAssemblies nameSpace typeName allAssemb

def getClassFromName (nameSpace typeName : Str) : Hook Ptr := do
  init env
  let dom ← domainGet env
  if dom = 0 then do
    log .error "GetClassFromName: Could not get domain!" []
    return 0
  else do
    let allAssemb ← domainGetAssemblies env dom
    let klass ← searchAssemblies env nameSpace typeName allAssemb
    if klass ≠ 0 then return klass
    else do
      let nameSpace ← readText nameSpace
      let typeName ← readText typeName
      log .error ("il2cpp_utils: GetClassFromName: Could not find class " ++
        "with namepace: %s and name: %s")
        [.str (some nameSpace), .str (some typeName)]
      return 0

/-! ## New objects -/

/-- The C++ types an argument of `New` may have; an object pointer's type is
that of the object. -/
inductive ArgKind where
  | int8
  | uint8
  | float
  | double
  | int16
  | int
  | int64
  | object (arg : Ptr)
deriving DecidableEq

/-- An argument of `New`: its type, and where it is. -/
structure Arg where
  kind : ArgKind
  addr : Ptr

/-- `class_get_type(GetClassFromName("System", name))`. -/
def systemType (name : String) : Hook Ptr := do
  let klass ← getClassFromName env (cstr "System") (cstr name)
  classGetType env klass

/-- `il2cpp_arg_type<T>::get(arg)`. -/
def argType : ArgKind → Hook Ptr
  | .object arg => do
      let klass ← objectGetClass env arg
      classGetType env klass
  | .int8 => systemType env "SByte"
  | .uint8 => systemType env "SByte" -- return System.Byte
  | .float => systemType env "Single"
  | .double => systemType env "Double"
  | .int16 => systemType env "Int16"
  | .int => systemType env "Int32"
  | .int64 => systemType env "Int64"

/-- `{ il2cpp_arg_type<decltype(args)>::get(args)... }`. -/
def argTypes : List Arg → Hook (List Ptr)
  | [] => return []
  | arg :: args => do
      let type ← argType env arg.kind
      let types ← argTypes args
      return type :: types

/-- The loop of `New` over the methods of the class. The name compared is
that of `ctor`, not of `current`. -/
def newLoop (klass : Ptr) (argarr : List Ptr) (count : Int) :
    Nat → Ptr → Ptr → Hook Ptr
  | 0, _, _ => stuck
  | rounds + 1, myIter, ctor => do
      let next ← classGetMethods env klass myIter
      let current := next.1
      if current = 0 then return ctor
      else do
        let isMatch ← parameterMatch env current argarr count
        if isMatch then do
          let method ← deref .methodInfo ctor env.rt.methodInfo
          if strEq method.name (lit ".ctor") then
            newLoop klass argarr count rounds next.2 current
          else newLoop klass argarr count rounds next.2 ctor
        else newLoop klass argarr count rounds next.2 ctor

/-- What `New` does with the constructor that came out of the loop. -/
def runCtor (obj : Ptr) (invokeParams : List Ptr) (ctor : Ptr) : Hook Ptr :=
  if ctor = 0 then do
    log .error
      "il2cpp_utils: New: Could not find constructor for provided class!" []
    return 0
  else do
    let method ← deref .methodInfo ctor env.rt.methodInfo
    if !strEq method.name (lit ".ctor") then do
      log .error ("il2cpp_utils: New: Found a method matching parameter " ++
        "count and types, but it is not a constructor!") []
      return 0
    else do
      let invoked ← runtimeInvoke env ctor obj invokeParams
      let exp := invoked.exc 0
      if exp ≠ 0 then do
        let msg ← exceptionToString env exp
        log .error "il2cpp_utils: New: Failed with exception: %s"
          [.str (some msg)]
        return 0
      else return obj

def new (klass : Ptr) (args : List Arg) : Hook Ptr := do
  init env
  let count := args.length
  let invokeParams := args.map Arg.addr
  let argarr ← argTypes env args
  let obj ← objectNew env klass
  let ctor ← newLoop env klass argarr count env.fuel 0 0
  runCtor env obj invokeParams ctor

/-- What `NewUnsafe` does once the constructor has run. `exp₀` is what the
uninitialised local `exp` holds. -/
def withCtor.afterCtor (exp₀ obj : Ptr) (invoked : Invoked) : Hook Ptr := do
  let exp := invoked.exc exp₀
  if exp ≠ 0 then do
    let msg ← exceptionToString env exp
    log .error "il2cpp_utils: New: Failed with exception: %s"
      [.str (some msg)]
    return 0
  else return obj

/-- What it does once it has looked the constructor up. -/
def withCtor (exp₀ obj : Ptr) (args : List Ptr) (ctor : Ptr) : Hook Ptr :=
  if ctor = 0 then do
    log .error
      "il2cpp_utils: New: Could not find constructor for provided class!" []
    return 0
  else do
    let invoked ← runtimeInvoke env ctor obj args
    withCtor.afterCtor env exp₀ obj invoked

def newUnsafe (exp₀ : Ptr) (klass : Ptr) (args : List Ptr) : Hook Ptr := do
  init env
  let obj ← objectNew env klass
  let count := args.length
  let name ← classGetName env klass
  log .debug ("Attempting to find .ctor with paramCount: %lu for class " ++
    "name: %s") [.int count, .str name]
  let ctor ← classGetMethodFromName env klass (cstr ".ctor") count
  withCtor env exp₀ obj args ctor

/-! ## Methods -/

/-- `GetMethod(klass, methodName, argsCount)`. -/
def getMethod (klass : Ptr) (methodName : StringView) (argsCount : Int) :
    Hook Ptr :=
  if klass = 0 then return 0
  else do
    let methodInfo ← classGetMethodFromName env klass methodName.data argsCount
    if methodInfo = 0 then do
      let name ← readText methodName.data
      let className ← classGetName env klass
      let nameSpace ← classGetNamespace env klass
      log .error ("could not find method %s with %i parameters in class %s " ++
        "(namespace '%s')!")
        [.str (some name), .int argsCount, .str className, .str nameSpace]
      return 0
    else return methodInfo

/-- `GetMethod(nameSpace, className, methodName, argsCount)`. -/
def getMethodByClassName (nameSpace className methodName : StringView)
    (argsCount : Int) : Hook Ptr := do
  let klass ← getClassFromName env nameSpace.data className.data
  getMethod env klass methodName argsCount

/-- What `TOut` is: a pointer, or a value type of so many bytes. -/
inductive OutType where
  | pointer
  | value (size : Nat)
deriving DecidableEq

/-- `*out = ...` in `RunMethod`, by the branch for `TOut`. -/
def storeResult (tout : OutType) (ret : Ptr) : Hook Str :=
  match tout with
  | .pointer => return leBytes 8 ret
  | .value size => do
      let payload ← objectUnbox env ret
      Prog.ask fun w => read w.mem payload size

/-- What `RunMethod` does once the method has run. -/
def afterInvoke (tout : OutType) (method : Ptr) (invoked : Invoked) :
    Hook (Bool × Str) := do
  let exp := invoked.exc 0
  let out ← storeResult env tout invoked.ret
  if exp ≠ 0 then do
    let name ← methodGetName env method
    let msg ← exceptionToString env exp
    log .error "il2cpp_utils: RunMethod: %s: Failed with exception: %s"
      [.str name, .str (some msg)]
    return (false, out)
  else return (true, out)

/-- `RunMethod(out, instance, method, params...)`. -/
def runMethod (tout : OutType) (out : Str) (inst method : Ptr)
    (params : List Ptr) : Hook (Bool × Str) := do
  init env
  if method = 0 then do
    log .error "il2cpp_utils: RunMethod: Null MethodInfo!" []
    return (false, out)
  else do
    let invoked ← runtimeInvoke env method inst params
    afterInvoke env tout method invoked

/-- `RunMethod(instance, method, params...)`, through a `void* out`. -/
def runMethodVoid (inst method : Ptr) (params : List Ptr) : Hook Bool := do
  let ran ← runMethod env .pointer (leBytes 8 0) inst method params
  return ran.1

/-- `RunMethod(out, klass, methodName, params...)`. -/
def runMethodOfClass (tout : OutType) (out : Str) (klass : Ptr)
    (methodName : StringView) (params : List Ptr) : Hook (Bool × Str) := do
  init env
  if klass = 0 then do
    log .error "il2cpp_utils: RunMethod: Null klass parameter!" []
    return (false, out)
  else do
    let method ← getMethod env klass methodName params.length
    if method = 0 then return (false, out)
    else runMethod env tout out 0 method params

/-- `RunMethod(out, instance, methodName, params...)`. -/
def runMethodOfObject (tout : OutType) (out : Str) (inst : Ptr)
    (methodName : StringView) (params : List Ptr) : Hook (Bool × Str) := do
  init env
  if inst = 0 then do
    log .error "il2cpp_utils: RunMethod: Null instance parameter!" []
    return (false, out)
  else do
    let klass ← objectGetClass env inst
    if klass = 0 then do
      log .error "il2cpp_utils: RunMethod: Could not get the object's class!" []
      return (false, out)
    else do
      let method ← getMethod env klass methodName params.length
      if method = 0 then return (false, out)
      else runMethod env tout out inst method params

/-- `RunMethod(klass, methodName, params...)`. -/
def runMethodOfClassVoid (klass : Ptr) (methodName : StringView)
    (params : List Ptr) : Hook Bool := do
  let ran ← runMethodOfClass env .pointer (leBytes 8 0) klass methodName params
  return ran.1

/-- `RunMethod(instance, methodName, params...)`. -/
def runMethodOfObjectVoid (inst : Ptr) (methodName : StringView)
    (params : List Ptr) : Hook Bool := do
  let ran ← runMethodOfObject env .pointer (leBytes 8 0) inst methodName params
  return ran.1

/-- `RuntimeInvoke(method, reference, exc, args...)`. -/
def runtimeInvokeArgs (method reference : Ptr) (args : List Ptr) :
    Hook Invoked := do
  init env
  runtimeInvoke env method reference args

/-! ## Fields -/

def findField (klass : Ptr) (fieldName : StringView) : Hook Ptr :=
  if klass = 0 then return 0
  else do
    let field ← classGetFieldFromName env klass fieldName.data
    if field = 0 then do
      let name ← readText fieldName.data
      let className ← classGetName env klass
      let nameSpace ← classGetNamespace env klass
      log .error "could not find field %s in class %s (namespace '%s')!"
        [.str (some name), .str className, .str nameSpace]
      return field
    else return field

/-- The runtime stores `bytes` at the start of the variable `out` points at. -/
def storeOut (out bytes : Str) : Hook Str :=
  if bytes.length ≤ out.length then return bytes ++ out.drop bytes.length
  else overrun

/-- `GetFieldValue(out, instance, field)`. -/
def getFieldValue (out : Str) (inst field : Ptr) : Hook (Bool × Str) := do
  init env
  if field = 0 then do
    log .error "il2cpp_utils: GetFieldValue: Null FieldInfo!" []
    return (false, out)
  else if inst ≠ 0 then do
    let bytes ← fieldGetValue env inst field
    let out ← storeOut out bytes
    return (true, out)
  else do -- Fallback to perform a static field set
    let bytes ← fieldStaticGetValue env field
    let out ← storeOut out bytes
    return (true, out)

/-- `GetFieldValue(out, klass, fieldName)`. -/
def getFieldValueOfClass (out : Str) (klass : Ptr) (fieldName : StringView) :
    Hook (Bool × Str) := do
  init env
  if klass = 0 then do
    log .error "il2cpp_utils: GetFieldValue: Could not find object class!" []
    return (false, out)
  else do
    let field ← findField env klass fieldName
    if field = 0 then return (false, out)
    else getFieldValue env out 0 field

/-- `GetFieldValue(out, instance, fieldName)`. -/
def getFieldValueOfObject (out : Str) (inst : Ptr) (fieldName : StringView) :
    Hook (Bool × Str) := do
  init env
  if inst = 0 then do
    log .error "il2cpp_utils: GetFieldValue: Null instance parameter!" []
    return (false, out)
  else do
    let klass ← objectGetClass env inst
    if klass = 0 then do
      log .error "il2cpp_utils: GetFieldValue: Could not find object class!" []
      return (false, out)
    else do
      let field ← findField env klass fieldName
      if field = 0 then return (false, out)
      else getFieldValue env out inst field

/-- `GetFieldValue(instance, field)`; `out₀` is what the uninitialised local
`out` holds. -/
def getFieldPointer (out₀ : Ptr) (inst field : Ptr) : Hook Ptr := do
  let got ← getFieldValue env (leBytes 8 out₀) inst field
  return leNat got.2

/-- `GetFieldValue(klass, fieldName)`. -/
def getFieldPointerOfClass (out₀ : Ptr) (klass : Ptr) (fieldName : StringView) :
    Hook Ptr := do
  let got ← getFieldValueOfClass env (leBytes 8 out₀) klass fieldName
  return leNat got.2

/-- `GetFieldValue(instance, fieldName)`. -/
def getFieldPointerOfObject (out₀ : Ptr) (inst : Ptr) (fieldName : StringView) :
    Hook Ptr := do
  let got ← getFieldValueOfObject env (leBytes 8 out₀) inst fieldName
  return leNat got.2

/-- `SetFieldValue(instance, field, value)`. -/
def setFieldValue (inst field : Ptr) (value : Str) : Hook Bool := do
  init env
  if field = 0 then do
    log .error "il2cpp_utils: SetFieldValue: Null field parameter!" []
    return false
  else if inst ≠ 0 then do
    fieldSetValue env inst field value
    return true
  else do -- Fallback to perform a static field set
    fieldStaticSetValue env field value
    return true

/-- `SetFieldValue(klass, fieldName, value)`. -/
def setFieldValueOfClass (klass : Ptr) (fieldName : StringView) (value : Str) :
    Hook Bool := do
  init env
  if klass = 0 then do
    log .error "il2cpp_utils: SetFieldValue: Null klass parameter!" []
    return false
  else do
    let field ← findField env klass fieldName
    if field = 0 then return false
    else setFieldValue env 0 field value

/-- `SetFieldValue(instance, fieldName, value)`. -/
def setFieldValueOfObject (inst : Ptr) (fieldName : StringView) (value : Str) :
    Hook Bool := do
  init env
  if inst = 0 then do
    log .error "il2cpp_utils: SetFieldValue: Null instance parameter!" []
    return false
  else do
    let klass ← objectGetClass env inst
    if klass = 0 then do
      log .error "il2cpp_utils: SetFieldValue: Could not find object class!" []
      return false
    else do
      let field ← findField env klass fieldName
      if field = 0 then return false
      else setFieldValue env inst field value

/-! ## Actions and generic types -/

/-- `METHOD_ATTRIBUTE_STATIC`, as ECMA-335 II.23.1.10 numbers it. -/
def methodAttributeStatic : Nat := 0x0010

/-- `kInvalidIl2CppMethodSlot`. -/
def kInvalidIl2cppMethodSlot : Nat := 65535

/-- Change memory without the runtime. -/
def poke (f : Mem → Mem) : Hook Unit :=
  Prog.act (fun w => ((), w.withMem (f w.mem))) (fun _ h => h)

/-- The end of `MakeAction`, with what `NewUnsafe` returned. -/
def checkAction (callback action : Ptr) : Hook Ptr := do
  let methodPtr ← deref .delegate action env.rt.delegateMethodPtr
  if methodPtr ≠ callback then do
    log .error "Created Action's method_ptr (%p) is incorrect (should be %p)!"
      [.ptr methodPtr, .ptr callback]
    return 0
  else return action

/-- `MakeAction(obj, callback, actionType)`. `slot` is the address of the
local `method` that `&method` takes, and `exp₀` is for `NewUnsafe`. -/
def makeAction (slot exp₀ : Ptr) (obj callback actionType : Ptr) :
    Hook Ptr := do
  let actionClass ← classFromIl2cppType env actionType
  let invoke ← classGetMethodFromName env actionClass (cstr "Invoke") (-1)
  let method ← Prog.ask fun w => env.rt.callocMethodInfo w.mem
  let invoke ← deref .methodInfo invoke env.rt.methodInfo
  poke (env.rt.putMethodInfo method
    { methodPointer := callback
      parametersCount := invoke.parameterTypes.length
      slot := kInvalidIl2cppMethodSlot
      isMarshaledFromNative := true
      flags := if obj = 0 then methodAttributeStatic else 0 })
  poke fun m => store m slot 8 method
  let action ← newUnsafe env exp₀ actionClass [obj, slot]
  checkAction env callback action

/-- What `MakeGenericType` does with what came of the invocation. -/
def genericTypeOf (invoked : Invoked) : Hook Ptr := do
  let exp := invoked.exc 0
  if exp ≠ 0 then do
    let msg ← exceptionToString env exp
    log .error "il2cpp_utils: MakeGenericType: Failed with exception: %s"
      [.str (some msg)]
    return 0
  else return invoked.ret

/-- `MakeGenericType(gt, types)`. -/
def makeGenericType (gt types : Ptr) : Hook Ptr := do
  init env
  let runtimeType ← getClassFromName env (cstr "System") (cstr "RuntimeType")
  if runtimeType = 0 then do
    log .error
      "il2cpp_utils: MakeGenericType: Failed to get System.RuntimeType!" []
    return 0
  else do
    let makeGenericMethod ←
      classGetMethodFromName env runtimeType (cstr "MakeGenericType") 2
    if makeGenericMethod = 0 then do
      log .error ("il2cpp_utils: MakeGenericType: Failed to get " ++
        "RuntimeType.MakeGenericType(param1, param2) method!") []
      return 0
    else do
      let invoked ← runtimeInvoke env makeGenericMethod 0 [gt, types]
      genericTypeOf env invoked

/-- `il2cpp_array_addr_with_size(array, size, idx)`, in pointer arithmetic. -/
def il2cppArrayAddrWithSize (array : Ptr) (size : Int) (idx : Nat) : Ptr :=
  ((array + env.rt.sizeOfArray + size * idx) % 2 ^ 64 : Int).toNat

/-- The loop of `MakeGeneric`; false where it returns early. The arguments are
as many as a `size_t` counts, and `i` is an `int`. -/
def fillArgs (a : Ptr) : Nat → List Ptr → Hook Bool
  | _, [] => return true
  | i, arg :: args => do
      let t ← classGetTypeConst env arg
      let o ← typeGetObject env t
      if o = 0 then do
        let name ← classGetNameConst env arg
        log .error "il2cpp_utils: MakeGeneric: Failed to get type for %s"
          [.str name]
        return false
      else do
        poke fun m => store m (il2cppArrayAddrWithSize env a 8 i) 8 o
        if i + 1 < 2 ^ 31 then fillArgs a (i + 1) args else overflow -- `i++`

/-- The end of `MakeGeneric`, with what `MakeGenericType` returned. -/
def classOfGeneric (reflectionType : Ptr) : Hook Ptr :=
  if reflectionType = 0 then do
    log .error ("il2cpp_utils: MakeGeneric: Failed to " ++
      "MakeGenericType from Il2CppReflectionType and Il2CppArray!") []
    return 0
  else do
    let ret ← classFromSystemType env reflectionType
    if ret = 0 then do
      log .error ("il2cpp_utils: MakeGeneric: Failed to get class " ++
        "from Il2CppReflectionType!") []
      return 0
    else do
      let name ← classGetName env ret
      log .debug "il2cpp_utils: MakeGeneric: returning %s" [.str name]
      return ret

/-- What follows the loop. -/
def finishGeneric (klassType a : Ptr) (filled : Bool) : Hook Ptr :=
  if !filled then return 0
  else do
    let reflectionType ← makeGenericType env klassType a
    classOfGeneric env reflectionType

/-- `MakeGeneric` with the array there. -/
def genericInto (args : List Ptr) (klassType a : Ptr) : Hook Ptr :=
  if a = 0 then do
    log .error ("il2cpp_utils: MakeGeneric: Failed to make new array " ++
      "with length: %zu") [.int args.length]
    return 0
  else do
    let filled ← fillArgs env a 0 args
    finishGeneric env klassType a filled

/-- With the type object of the class there. -/
def genericOf (args : List Ptr) (typ klassType : Ptr) : Hook Ptr :=
  if klassType = 0 then do
    log .error "il2cpp_utils: MakeGeneric: Failed to get class type object!" []
    return 0
  else do
    let a ← arrayNewSpecific env typ args.length
    genericInto env args klassType a

/-- With `System.Type` and its `GetType` looked up. -/
def genericBy (klass : Ptr) (args : List Ptr) (typ getType : Ptr) : Hook Ptr :=
  if getType = 0 then do
    log .error ("il2cpp_utils: MakeGeneric: Failed to get " ++
      "System.Type.GetType(param1) method!") []
    return 0
  else do
    let type ← classGetTypeConst env klass
    let klassType ← typeGetObject env type
    genericOf env args typ klassType

/-- With `System.Type` there. -/
def genericFrom (klass : Ptr) (args : List Ptr) (typ : Ptr) : Hook Ptr := do
  let getType ← classGetMethodFromName env typ (cstr "GetType") 1
  genericBy env klass args typ getType

/-- `MakeGeneric(klass, args)`. -/
def makeGeneric (klass : Ptr) (args : List Ptr) : Hook Ptr := do
  init env
  let typ ← getClassFromName env (cstr "System") (cstr "Type")
  if typ = 0 then return 0
  else genericFrom env klass args typ

/-! ## Strings and matches -/

/-- `createcsstr(inp)`. The length is cast to `uint32_t`. -/
def createcsstr (inp : StringView) : Hook Ptr := do
  init env
  stringNewLen env (inp.data.take (inp.length % 2 ^ 32))

/-- `Match(source, klass)`. -/
def matchClass (source klass : Ptr) : Hook Bool := do
  let sourceKlass ← deref .object source env.rt.objectKlass
  return sourceKlass == klass

def assertMatch (source klass : Ptr) : Hook Bool := do
  init env
  let isMatch ← matchClass env source klass
  if !isMatch then do
    let sourceKlass ← deref .object source env.rt.objectKlass
    let nameSpace ← classGetNamespace env sourceKlass
    let name ← classGetName env sourceKlass
    log .critical ("il2cpp_utils: AssertMatch: Unhandled subtype: " ++
      "namespace %s, class %s") [.str nameSpace, .str name]
    terminate
  else return true

end PistolWhipHook
