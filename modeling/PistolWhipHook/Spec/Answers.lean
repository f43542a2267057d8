import PistolWhipHook.Lib.Prog
import PistolWhipHook.Model.Il2cppUtils

/-!
# What an operation answers

Most operations only ask the runtime and log. Such a one answers with a value
and leaves a process that went `Onward`, or it comes to nothing in a fault.
The answers of the lookups that everything else builds on are functions of the
runtime and the memory.
-/

namespace PistolWhipHook

open ByteMem CStr

variable {α : Type}

/-- The methods invoked so far, each with its object and arguments. -/
def Process.invocations (w : Process) : List ApiCall :=
  w.calls.filter fun c => c.fn == .runtimeInvoke

/-- The process went on, and only logged and asked. -/
structure Process.Onward (w w' : Process) : Prop where
  loaded : w.Loaded → w'.Loaded
  mem : w'.mem = w.mem
  invocations : w'.invocations = w.invocations

/-- The program answers `a`, having only logged and asked. -/
abbrev Answers (m : Hook α) (w : Process) (a : α) : Prop :=
  Prog.Answers Process.Onward m w a

abbrev Fails (m : Hook α) (w : Process) (e : Fault) : Prop := Prog.Fails m w e

/-- The first class of that name among the assemblies that have an image. -/
def classAmong (rt : Runtime) (mem : Mem) (nameSpace typeName : Str) :
    List Obj → Ptr
  | [] => 0
  | assemb :: allAssemb =>
      let img := rt.assemblyGetImage assemb.1 mem
      if img = 0 then classAmong rt mem nameSpace typeName allAssemb
      else
        let klass := rt.classFromName img nameSpace typeName mem
        if klass ≠ 0 then klass
        else classAmong rt mem nameSpace typeName allAssemb

/-- The class of that name, null if there is none or there is no domain. -/
def classNamed (rt : Runtime) (mem : Mem) (nameSpace typeName : Str) : Ptr :=
  let dom := rt.domainGet mem
  if dom = 0 then 0
  else classAmong rt mem nameSpace typeName (rt.domainGetAssemblies dom mem).1

/-- The bytes that the field holds, read through the object or as a static. -/
def fieldBytes (rt : Runtime) (inst field : Ptr) (mem : Mem) : Str :=
  if inst ≠ 0 then rt.fieldGetValue inst field mem
  else rt.fieldStaticGetValue field mem

end PistolWhipHook
