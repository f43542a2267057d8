import PistolWhipHook.Spec.Answers

/-!
# What is owed of methods run and objects made

`RunMethod` reports failure and only failure. `New` runs the one constructor
that takes the arguments. An operation with an uninitialised local does not
depend on what it held, and `MakeAction` returns null or an action that stands
on something. With each goes the condition under which the code does so.
-/

namespace PistolWhipHook

open ByteMem CStr

variable {α : Type}

/-! ## `RunMethod` -/

/-- The program comes back, false exactly when `P`, and with `*out` as it was
whenever it is false. -/
def FalseWhen (P : Prop) (out : Str) (m : Hook (Bool × Str)) (w : Process) :
    Prop :=
  ∃ ran out' w', m.run w = .ok ((ran, out'), w') ∧ (ran = false ↔ P) ∧
    (ran = false → out' = out)

/-- The call comes back without touching a null object, and reports that there
is no method or that an exception was stored, and nothing else. -/
def ReportsFailure (env : Env) (w : Process) (tout : OutType) (out : Str)
    (inst method : Ptr) (params : List Ptr) : Prop :=
  FalseWhen
    (method = 0 ∨ (env.rt.runtimeInvoke method inst params w.mem).1.Threw) out
    (runMethod env tout out inst method params) w

/-- What the outcome has to be for its `TOut`. -/
def Invoked.Suits (tout : OutType) (out : Str) : Invoked → Prop
  | .boxed _ => True
  | .void => tout = .pointer
  | .threw _ => tout = .pointer ∧ out = leBytes 8 0

/-! ## `New` -/

/-- The type of `System`'s class of that name. -/
def systemTypeOf (rt : Runtime) (mem : Mem) (name : String) : Ptr :=
  rt.classGetType (classNamed rt mem (lit "System") (lit name)) mem

/-- What `il2cpp_arg_type` gives. -/
def argTypeOf (rt : Runtime) (mem : Mem) : ArgKind → Ptr
  | .object arg => rt.classGetType (rt.objectGetClass arg mem) mem
  | .int8 => systemTypeOf rt mem "SByte"
  | .uint8 => systemTypeOf rt mem "SByte"
  | .float => systemTypeOf rt mem "Single"
  | .double => systemTypeOf rt mem "Double"
  | .int16 => systemTypeOf rt mem "Int16"
  | .int => systemTypeOf rt mem "Int32"
  | .int64 => systemTypeOf rt mem "Int64"

/-- The C# counterpart of the argument's type. -/
def counterpart (rt : Runtime) (mem : Mem) : ArgKind → Ptr
  | .uint8 => systemTypeOf rt mem "Byte"
  | kind => argTypeOf rt mem kind

/-- `class_get_methods` hands the methods out one by one, then null. -/
inductive Enumerates (rt : Runtime) (klass : Ptr) (mem : Mem) :
    Ptr → List Ptr → Prop where
  | done {myIter : Ptr} (h : (rt.classGetMethods klass myIter mem).1 = 0) :
      Enumerates rt klass mem myIter []
  | next {myIter : Ptr} {methods : List Ptr}
      (h : (rt.classGetMethods klass myIter mem).1 ≠ 0)
      (rest : Enumerates rt klass mem (rt.classGetMethods klass myIter mem).2
        methods) :
      Enumerates rt klass mem myIter
        ((rt.classGetMethods klass myIter mem).1 :: methods)

/-- Two types are equal when they are one. -/
def Runtime.TypeEqualsIsEq (rt : Runtime) : Prop :=
  ∀ type other mem, rt.typeEquals type other mem = decide (type = other)

/-- The parameter types of the method are these. -/
def Takes (rt : Runtime) (mem : Mem) (types : List Ptr) (method : Ptr) : Prop :=
  (rt.methodInfo method mem).parameterTypes = types

instance (rt : Runtime) (mem : Mem) (types : List Ptr) (method : Ptr) :
    Decidable (Takes rt mem types method) := inferInstanceAs (Decidable (_ = _))

/-- The constructors among the methods that take these types. -/
def ctorsTaking (rt : Runtime) (mem : Mem) (types : List Ptr)
    (methods : List Ptr) : List Ptr :=
  methods.filter fun method =>
    strEq (rt.methodInfo method mem).name (lit ".ctor") &&
      decide (Takes rt mem types method)

/-- What `New` owes, of a class with these methods: the one constructor that
takes the arguments' counterparts is run on the new object, which is returned
unless it throws; and null is returned where there is no one such. -/
def Constructs (env : Env) (w : Process) (klass : Ptr) (args : List Arg)
    (methods : List Ptr) : Prop :=
  let made := env.rt.objectNew klass w.mem
  let invokeParams := args.map Arg.addr
  let types := args.map fun arg => counterpart env.rt w.mem arg.kind
  ∃ p w', (new env klass args).run w = .ok (p, w') ∧
    match ctorsTaking env.rt made.2 types methods with
    | [ctor] =>
        let invoked := (env.rt.runtimeInvoke ctor made.1 invokeParams made.2).1
        w'.invocations =
            w.invocations ++ [⟨.runtimeInvoke, ctor :: made.1 :: invokeParams⟩] ∧
          (invoked.Threw → p = 0) ∧ (¬ invoked.Threw → p = made.1)
    | _ => p = 0

/-- Null is the answer to give, and the loop gets there: no method of the
class, constructor or not, takes the types that `New` makes of its arguments,
and not one constructor alone takes their counterparts. -/
def NothingToRun (env : Env) (w : Process) (klass : Ptr) (args : List Arg)
    (methods : List Ptr) : Prop :=
  let mem := (env.rt.objectNew klass w.mem).2
  (∀ method ∈ methods, ¬ Takes env.rt mem
      (args.map fun arg => argTypeOf env.rt w.mem arg.kind) method) ∧
    (ctorsTaking env.rt mem
      (args.map fun arg => counterpart env.rt w.mem arg.kind) methods).length ≠ 1

/-! ## Uninitialised locals -/

/-- The constructor of that arity, null if there is none. -/
def ctorFor (rt : Runtime) (klass : Ptr) (args : List Ptr) (mem : Mem) : Ptr :=
  rt.classGetMethodFromName klass (lit ".ctor") args.length
    (rt.objectNew klass mem).2

/-- What comes of running the constructor on the new object. -/
def constructed (rt : Runtime) (klass : Ptr) (args : List Ptr) (mem : Mem) :
    Invoked :=
  (rt.runtimeInvoke (ctorFor rt klass args mem) (rt.objectNew klass mem).1 args
    (rt.objectNew klass mem).2).1

/-- The operations with an uninitialised local. -/
inductive Uninit where
  | newUnsafe (klass : Ptr) (args : List Ptr)
  | getFieldPointer (inst field : Ptr)
  | getFieldPointerOfClass (klass : Ptr) (fieldName : StringView)
  | getFieldPointerOfObject (inst : Ptr) (fieldName : StringView)

/-- The operation, where its local held `garbage`. -/
def Uninit.prog (env : Env) (op : Uninit) (garbage : Ptr) : Hook Ptr :=
  match op with
  | .newUnsafe klass args => PistolWhipHook.newUnsafe env garbage klass args
  | .getFieldPointer inst field =>
      PistolWhipHook.getFieldPointer env garbage inst field
  | .getFieldPointerOfClass klass fieldName =>
      PistolWhipHook.getFieldPointerOfClass env garbage klass fieldName
  | .getFieldPointerOfObject inst fieldName =>
      PistolWhipHook.getFieldPointerOfObject env garbage inst fieldName

/-- Any two runs are the same: the same answer or fault, along one path, and
with the same process at the end. -/
def Blind (m : Ptr → Hook α) (w : Process) : Prop :=
  ∀ g g', (m g).run w = (m g').run w

/-- There is a field, and it takes up all of a pointer. -/
def FillsOut (rt : Runtime) (inst field : Ptr) (mem : Mem) : Prop :=
  field ≠ 0 ∧ 8 ≤ (fieldBytes rt inst field mem).length

/-- The answer the operation owes, where it says what it owes. -/
def Uninit.Owes (rt : Runtime) (mem : Mem) : Uninit → Ptr → Prop
  | .newUnsafe klass args, p =>
      (ctorFor rt klass args mem ≠ 0 ∧ ¬ (constructed rt klass args mem).Threw →
        p = (rt.objectNew klass mem).1) ∧
      (ctorFor rt klass args mem = 0 ∨ (constructed rt klass args mem).Threw →
        p = 0)
  | .getFieldPointer _ field, p => field = 0 → p = 0
  | .getFieldPointerOfClass klass fieldName, p =>
      (klass = 0 ∨ ∃ n, cString? fieldName.data = some n ∧
        rt.classGetFieldFromName klass n mem = 0) → p = 0
  | .getFieldPointerOfObject inst fieldName, p =>
      (inst = 0 ∨ rt.objectGetClass inst mem = 0 ∨
        ∃ n, cString? fieldName.data = some n ∧
          rt.classGetFieldFromName (rt.objectGetClass inst mem) n mem = 0) → p = 0

/-- The two-run law: what the local held makes no difference, and the answer
is the one owed. -/
def TwoRunLaw (env : Env) (w : Process) (op : Uninit) : Prop :=
  Blind (op.prog env) w ∧
    ∀ g p w', (op.prog env g).run w = .ok (p, w') → op.Owes env.rt w.mem p

/-- No garbage is left to decide. -/
def Uninit.Decided (rt : Runtime) (mem : Mem) : Uninit → Prop
  | .newUnsafe klass args =>
      ctorFor rt klass args mem = 0 ∨ (constructed rt klass args mem).Threw
  | .getFieldPointer inst field => FillsOut rt inst field mem
  | .getFieldPointerOfClass klass fieldName =>
      klass ≠ 0 ∧ ∀ n, cString? fieldName.data = some n →
        FillsOut rt 0 (rt.classGetFieldFromName klass n mem) mem
  | .getFieldPointerOfObject inst fieldName =>
      inst ≠ 0 ∧ rt.objectGetClass inst mem ≠ 0 ∧
        ∀ n, cString? fieldName.data = some n →
          FillsOut rt inst
            (rt.classGetFieldFromName (rt.objectGetClass inst mem) n mem) mem

/-! ## `MakeAction` -/

end PistolWhipHook
