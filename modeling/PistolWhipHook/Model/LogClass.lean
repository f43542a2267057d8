import PistolWhipHook.Model.Il2cppUtils

/-!
# `il2cpp-utils`: type names and the class dump

`TypeGetSimpleName` fills the static `typeMap` the first time it is called,
and `LogMethod`, `LogField` and `LogClass` print what the runtime knows of a
member or a class. `LogClass` calls itself on the declaring type, the element
class and the parent; nothing in the source bounds how deep that goes, so the
recursion has `fuel` to spend and is `stuck` past it.
-/

namespace PistolWhipHook

open ByteMem CStr

variable (env : Env)

/-! ## Names of types -/

def getTypeEnum (nameSpace typeName : Str) : Hook Int := do
  let klass ← getClassFromName env nameSpace typeName
  let typ ← classGetType env klass
  typeGetType env typ

/-- The assignments of `TypeGetSimpleName`, in order. -/
def simpleNames : List (String × String) :=
  [("Boolean", "bool"), ("Byte", "byte"), ("SByte", "sbyte"), ("Char", "char"),
    ("Single", "float"), ("Double", "double"), ("Int16", "short"),
    ("UInt16", "ushort"), ("Int32", "int"), ("UInt32", "uint"),
    ("Int64", "long"), ("UInt64", "ulong"), ("Object", "object"),
    ("String", "string"), ("Void", "void")]

/-- `typeMap[key] = name`. -/
def setTypeMap (key : Int) (name : String) : Hook Unit :=
  Prog.act (fun w => ((),
      { w with typeMap := (key, name) :: w.typeMap.filter fun row =>
        row.1 != key }))
    (fun _ h => h)

def fillTypeMap : List (String × String) → Hook Unit
  | [] => return ()
  | (typeName, name) :: rows => do
      let key ← getTypeEnum env (cstr "System") (cstr typeName)
      setTypeMap key name
      fillTypeMap rows

def typeGetSimpleName (type : Ptr) : Hook (Option Str) := do
  let filled ← Prog.ask fun w => !w.typeMap.isEmpty
  if !filled then fillTypeMap env simpleNames
  let key ← typeGetType env type
  let p ← Prog.ask fun w => w.typeMap.lookup key
  match p with
  | some name => return some (lit name)
  | none => typeGetName env type

/-! ## Members -/

def noname : Str := lit "__noname__"

/-- `METHOD_ATTRIBUTE_VIRTUAL`, as ECMA-335 II.23.1.10 numbers it. -/
def methodAttributeVirtual : Nat := 0x0040

/-- `METHOD_ATTRIBUTE_ABSTRACT`, as ECMA-335 II.23.1.10 numbers it. -/
def methodAttributeAbstract : Nat := 0x0400

/-- `FIELD_ATTRIBUTE_STATIC`, as ECMA-335 II.23.1.5 numbers it. -/
def fieldAttributeStatic : Nat := 0x0010

/-- A flag's word, where the flag is set. -/
def flagWord (flags flag : Nat) (word : String) : Str :=
  if flags &&& flag = 0 then [] else lit word

/-- `stream << s`. -/
def streamed (s : Option Str) : Hook Str :=
  match s with
  | some s => pure s
  | none => Prog.fault (.nullDeref .text) (fun _ h => by cases h)

/-- The loop of `LogMethod` from parameter `i` on. -/
def paramText (method : Ptr) : Nat → Nat → Str → Hook Str
  | 0, _, _ => stuck
  | rounds + 1, i, paramStream => do
      let count ← methodGetParamCount env method
      if i < count then do
        let sep := if i > 0 then lit ", " else []
        let paramType ← methodGetParam env method i
        let byref ← typeIsByref env paramType
        let mark := if byref then lit "out/ref " else []
        let typeName ← typeGetSimpleName env paramType
        let typeName ← streamed typeName
        let name ← methodGetParamName env method i
        paramText method rounds (i + 1) (paramStream ++ sep ++ mark ++
          typeName ++ lit " " ++ name.getD noname)
      else return paramStream

def logMethod (method : Ptr) : Hook Unit := do
  init env
  let flags ← methodGetFlags env method
  let flagStr := flagWord flags methodAttributeStatic "static " ++
    flagWord flags methodAttributeVirtual "virtual " ++
    flagWord flags methodAttributeAbstract "abstract "
  let retType ← methodGetReturnType env method
  let retTypeStr ← typeGetSimpleName env retType
  let methodName ← methodGetName env method
  let paramStr ← paramText env method env.fuel 0 []
  log .debug "%s%s %s(%s);"
    [.str (some flagStr), .str retTypeStr, .str (some (methodName.getD noname)),
      .str (some paramStr)]

def logField (field : Ptr) : Hook Unit := do
  init env
  let flags ← fieldGetFlags env field
  let flagStr := flagWord flags fieldAttributeStatic "static "
  let type ← fieldGetType env field
  let typeStr ← typeGetSimpleName env type
  let name ← fieldGetName env field
  let offset ← fieldGetOffset env field
  log .debug "%s%s %s; // 0x%lx, flags: 0x%.4X"
    [.str (some flagStr), .str typeStr, .str (some (name.getD noname)),
      .int offset, .int flags]

/-! ## Classes -/

/-- The loop of `LogClass` over `methods`. -/
def logMethods : Nat → List Ptr → Hook Unit
  | _, [] => return ()
  | i, method :: methods => do
      if method ≠ 0 then do
        log .debug "Method %i:" [.int i]
        let method ← deref .methodInfo method env.rt.methodInfo
        log .debug "Name: %s Params: %i"
          [.str (some method.name), .int method.parameterTypes.length]
      else log .debug "Method: %i Does not exist!" [.int i]
      logMethods (i + 1) methods

/-- The loop of `LogClass` over the arguments of a generic instance. -/
def logGenericArgs : Nat → List Ptr → Hook Unit
  | _, [] => return ()
  | i, typ :: types => do
      let name ← typeGetSimpleName env typ
      log .debug " generic type %i: %s" [.int (i + 1), .str name]
      logGenericArgs (i + 1) types

/-- The loop of `LogClass` over the fields. -/
def logFields (klass : Ptr) : Nat → Ptr → Hook Unit
  | 0, _ => stuck
  | rounds + 1, myIter => do
      let next ← classGetFields env klass myIter
      if next.1 = 0 then return ()
      else do
        logField env next.1
        logFields klass rounds next.2

/-- `LogClass(klass, logParents)`, so deep at most. The inner calls take the
default `logParents = true`. -/
def logClass : Nat → Ptr → Bool → Hook Unit
  | 0, _, _ => stuck
  | depth + 1, klass, logParents => do
      init env
      let nameSpace ← classGetNamespace env klass
      let name ← classGetName env klass
      log .debug ("======================CLASS INFO FOR CLASS: %s::%s" ++
        "======================") [.str nameSpace, .str name]
      let assembly ← classGetAssemblyname env klass
      log .debug "Assembly Name: %s" [.str assembly]
      let rank ← classGetRank env klass
      log .debug "Rank: %i" [.int rank]
      let token ← classGetTypeToken env klass
      log .debug "Type Token: %i" [.int token]
      let flags ← classGetFlags env klass
      log .debug "Flags: 0x%.8X" [.int flags]
      let info ← deref .klass klass env.rt.classInfo
      log .debug "Event Count: %i" [.int info.eventCount]
      log .debug "Field Count: %i" [.int info.fieldCount]
      log .debug "Method Count: %i" [.int info.methods.length]
      log .debug "Property Count: %i" [.int info.propertyCount]
      let isGeneric ← classIsGeneric env klass
      log .debug "Is Generic: %i" [.int isGeneric.toInt]
      let isAbstract ← classIsAbstract env klass
      log .debug "Is Abstract: %i" [.int isAbstract.toInt]
      log .debug "=========METHODS=========" []
      logMethods env 0 info.methods
      logGenericArgs env 0 (info.genericArgs.getD [])
      let declaring ← classGetDeclaringType env klass
      log .debug "declaring type: %p" [.ptr declaring]
      if declaring ≠ 0 then logClass depth declaring true
      let element ← classGetElementClass env klass
      log .debug "element class: %p (self = %p)" [.ptr element, .ptr klass]
      if element ≠ 0 ∧ element ≠ klass then logClass depth element true
      log .debug "=========FIELDS=========" []
      logFields env klass env.fuel 0
      log .debug "=========END FIELDS=========" []
      let parent ← classGetParent env klass
      log .debug "parent: %p" [.ptr parent]
      if parent ≠ 0 ∧ logParents = true then logClass depth parent true
      log .debug ("=================================================" ++
        "=================================") []

end PistolWhipHook
