import PistolWhipHook.Model.LogClass

/-!
# Calls of the library

`Op` has one constructor for each function that `namespace il2cpp_utils`
declares and that can reach the API, with what it is called on; overloads are
constructors of their own. `opStep` is the step such a call takes of the
process. Between two calls the process keeps everything, so the calls of a
mod, in whatever order it makes them, are a run.
-/

namespace PistolWhipHook

open ByteMem CStr

inductive Op where
  | exceptionToString (exp : Ptr)
  | getClassFromName (nameSpace typeName : Str)
  | parameterMatch (method : Ptr) (typeArr : List Ptr) (count : Int)
  | parameterMatchArgs (method : Ptr) (args : List Ptr)
  | new (klass : Ptr) (args : List Arg)
  | newUnsafe (exp₀ klass : Ptr) (args : List Ptr)
  | getMethod (klass : Ptr) (methodName : StringView) (argsCount : Int)
  | getMethodByClassName (nameSpace className methodName : StringView)
      (argsCount : Int)
  | runMethod (tout : OutType) (out : Str) (inst method : Ptr)
      (params : List Ptr)
  | runMethodVoid (inst method : Ptr) (params : List Ptr)
  | runMethodOfClass (tout : OutType) (out : Str) (klass : Ptr)
      (methodName : StringView) (params : List Ptr)
  | runMethodOfObject (tout : OutType) (out : Str) (inst : Ptr)
      (methodName : StringView) (params : List Ptr)
  | runMethodOfClassVoid (klass : Ptr) (methodName : StringView)
      (params : List Ptr)
  | runMethodOfObjectVoid (inst : Ptr) (methodName : StringView)
      (params : List Ptr)
  | findField (klass : Ptr) (fieldName : StringView)
  | getFieldValue (out : Str) (inst field : Ptr)
  | getFieldValueOfClass (out : Str) (klass : Ptr) (fieldName : StringView)
  | getFieldValueOfObject (out : Str) (inst : Ptr) (fieldName : StringView)
  | getFieldPointer (out₀ inst field : Ptr)
  | getFieldPointerOfClass (out₀ klass : Ptr) (fieldName : StringView)
  | getFieldPointerOfObject (out₀ inst : Ptr) (fieldName : StringView)
  | setFieldValue (inst field : Ptr) (value : Str)
  | setFieldValueOfClass (klass : Ptr) (fieldName : StringView) (value : Str)
  | setFieldValueOfObject (inst : Ptr) (fieldName : StringView) (value : Str)
  | makeAction (slot exp₀ obj callback actionType : Ptr)
  | makeGenericType (gt types : Ptr)
  | makeGeneric (klass : Ptr) (args : List Ptr)
  | typeGetSimpleName (type : Ptr)
  | logMethod (method : Ptr)
  | logField (field : Ptr)
  | logClass (klass : Ptr) (logParents : Bool)
  | createcsstr (inp : StringView)
  | assertMatch (source klass : Ptr)
  | runtimeInvoke (method reference : Ptr) (args : List Ptr)

/-- The process after the call, whatever it returned. -/
def opStep (env : Env) : Op → Process → Except Fault Process
  | .exceptionToString exp => (exceptionToString env exp).exec
  | .getClassFromName nameSpace typeName =>
      (getClassFromName env nameSpace typeName).exec
  | .parameterMatch method typeArr count =>
      (parameterMatch env method typeArr count).exec
  | .parameterMatchArgs method args => (parameterMatchArgs env method args).exec
  | .new klass args => (new env klass args).exec
  | .newUnsafe exp₀ klass args => (newUnsafe env exp₀ klass args).exec
  | .getMethod klass methodName argsCount =>
      (getMethod env klass methodName argsCount).exec
  | .getMethodByClassName nameSpace className methodName argsCount =>
      (getMethodByClassName env nameSpace className methodName argsCount).exec
  | .runMethod tout out inst method params =>
      (runMethod env tout out inst method params).exec
  | .runMethodVoid inst method params =>
      (runMethodVoid env inst method params).exec
  | .runMethodOfClass tout out klass methodName params =>
      (runMethodOfClass env tout out klass methodName params).exec
  | .runMethodOfObject tout out inst methodName params =>
      (runMethodOfObject env tout out inst methodName params).exec
  | .runMethodOfClassVoid klass methodName params =>
      (runMethodOfClassVoid env klass methodName params).exec
  | .runMethodOfObjectVoid inst methodName params =>
      (runMethodOfObjectVoid env inst methodName params).exec
  | .findField klass fieldName => (findField env klass fieldName).exec
  | .getFieldValue out inst field => (getFieldValue env out inst field).exec
  | .getFieldValueOfClass out klass fieldName =>
      (getFieldValueOfClass env out klass fieldName).exec
  | .getFieldValueOfObject out inst fieldName =>
      (getFieldValueOfObject env out inst fieldName).exec
  | .getFieldPointer out₀ inst field =>
      (getFieldPointer env out₀ inst field).exec
  | .getFieldPointerOfClass out₀ klass fieldName =>
      (getFieldPointerOfClass env out₀ klass fieldName).exec
  | .getFieldPointerOfObject out₀ inst fieldName =>
      (getFieldPointerOfObject env out₀ inst fieldName).exec
  | .setFieldValue inst field value => (setFieldValue env inst field value).exec
  | .setFieldValueOfClass klass fieldName value =>
      (setFieldValueOfClass env klass fieldName value).exec
  | .setFieldValueOfObject inst fieldName value =>
      (setFieldValueOfObject env inst fieldName value).exec
  | .makeAction slot exp₀ obj callback actionType =>
      (makeAction env slot exp₀ obj callback actionType).exec
  | .makeGenericType gt types => (makeGenericType env gt types).exec
  | .makeGeneric klass args => (makeGeneric env klass args).exec
  | .typeGetSimpleName type => (typeGetSimpleName env type).exec
  | .logMethod method => (logMethod env method).exec
  | .logField field => (logField env field).exec
  | .logClass klass logParents =>
      (logClass env (env.fuel + 1) klass logParents).exec
  | .createcsstr inp => (createcsstr env inp).exec
  | .assertMatch source klass => (assertMatch env source klass).exec
  | .runtimeInvoke method reference args =>
      (runtimeInvokeArgs env method reference args).exec

/-- The process as it starts: nothing loaded, nothing cached. -/
def Process.start (mem : Mem) : Process where
  initialized := false
  pointer := fun _ => 0
  dlopens := 0
  typeMap := []
  log := []
  calls := []
  mem

end PistolWhipHook
