import PistolWhipHook.Spec.Answers

/-!
# What `MakeGeneric` is for

It fills an array with the type objects of its arguments, one element a round,
stops at the first argument that has none, and invokes `MakeGenericType` once
on the class's type object and the array. `fill` is the loop without the
logging: what the runtime answered for each argument in turn, and the memory
it leaves.
-/

namespace PistolWhipHook

open ByteMem CStr

/-! ## The array -/

/-- The type object of a class, null if it has none, and memory afterwards. -/
def typeObject (rt : Runtime) (klass : Ptr) (mem : Mem) : Ptr × Mem :=
  rt.typeGetObject (rt.classGetTypeConst klass mem) mem

/-- Where element `i` of the array starts. -/
def elemAddr (rt : Runtime) (a i : Nat) : Nat := a + rt.sizeOfArray + 8 * i

/-- Memory with the argument's type object in element `i`. -/
def putElem (rt : Runtime) (a : Ptr) (i : Nat) (arg : Ptr) (mem : Mem) : Mem :=
  store (typeObject rt arg mem).2 (elemAddr rt a i) 8 (typeObject rt arg mem).1

/-- The type objects of the arguments from `i` on, through the first null, and
the memory the loop leaves. -/
def fill (rt : Runtime) (a : Ptr) : Nat → List Ptr → Mem → List Ptr × Mem
  | _, [], m => ([], m)
  | i, arg :: args, m =>
      let made := typeObject rt arg m
      if made.1 = 0 then ([0], made.2)
      else
        let rest := fill rt a (i + 1) args (putElem rt a i arg m)
        (made.1 :: rest.1, rest.2)

/-- An array of `n` elements at `a`: its addresses do not wrap, and
`type_get_object` leaves it alone and returns addresses. -/
structure ArrayBlock (rt : Runtime) (a n : Nat) : Prop where
  noWrap : elemAddr rt a n ≤ 2 ^ 64
  kept : ∀ t m x, a ≤ x → x < elemAddr rt a n → (rt.typeGetObject t m).2 x = m x
  address : ∀ t m, (rt.typeGetObject t m).1 < 2 ^ 64

/-! ## The call -/

/-- `RuntimeType.MakeGenericType`, null if there is no such method. -/
def makeGenericMethod (rt : Runtime) (mem : Mem) : Ptr :=
  let runtimeType := classNamed rt mem (lit "System") (lit "RuntimeType")
  if runtimeType = 0 then 0
  else rt.classGetMethodFromName runtimeType (lit "MakeGenericType") 2 mem

/-- The method was invoked on these two, once, and nothing else was. -/
def InvokedOn (rt : Runtime) (gt types : Ptr) (w w' : Process) : Prop :=
  w'.invocations = w.invocations ++
      [⟨.runtimeInvoke, [makeGenericMethod rt w.mem, 0, gt, types]⟩] ∧
    w'.mem = (rt.runtimeInvoke (makeGenericMethod rt w.mem) 0 [gt, types] w.mem).2

/-- `System.Type`. -/
def typeClass (rt : Runtime) (mem : Mem) : Ptr :=
  classNamed rt mem (lit "System") (lit "Type")

/-- Its `GetType`. -/
def getTypeMethod (rt : Runtime) (mem : Mem) : Ptr :=
  rt.classGetMethodFromName (typeClass rt mem) (lit "GetType") 1 mem

/-- The new array, and memory with it. -/
def typeArray (rt : Runtime) (klass : Ptr) (args : List Ptr) (mem : Mem) :
    Ptr × Mem :=
  rt.arrayNewSpecific (typeClass rt mem) args.length (typeObject rt klass mem).2

/-- The type objects of the arguments, and memory with the array filled. -/
def filledArray (rt : Runtime) (klass : Ptr) (args : List Ptr) (mem : Mem) :
    List Ptr × Mem :=
  fill rt (typeArray rt klass args mem).1 0 args (typeArray rt klass args mem).2

/-- There is an array to fill. -/
structure HasArray (rt : Runtime) (klass : Ptr) (args : List Ptr) (mem : Mem) :
    Prop where
  typ : typeClass rt mem ≠ 0
  getType : getTypeMethod rt mem ≠ 0
  klassType : (typeObject rt klass mem).1 ≠ 0
  array : (typeArray rt klass args mem).1 ≠ 0

/-- Something on the way is missing: `System.Type`, its `GetType`, the type
object of the class or the array, or the type object of an argument. -/
def Missing (rt : Runtime) (klass : Ptr) (args : List Ptr) (mem : Mem) : Prop :=
  ¬ HasArray rt klass args mem ∨ (0 : Ptr) ∈ (filledArray rt klass args mem).1

/-- A call that returned `ret` and went on in `w'`. -/
structure MadeGeneric (rt : Runtime) (klass : Ptr) (args : List Ptr)
    (w : Process) (ret : Ptr) (w' : Process) : Prop where
  /-- If anything is missing the answer is null, and nothing was invoked. -/
  missing : Missing rt klass args w.mem →
    ret = 0 ∧ w'.invocations = w.invocations
  /-- That, or `MakeGenericType` was invoked once, on the class's type object
  and on the array, in the memory with the array filled. -/
  invoked : (ret = 0 ∧ w'.invocations = w.invocations) ∨
    (¬ Missing rt klass args w.mem ∧
      InvokedOn rt (typeObject rt klass w.mem).1 (typeArray rt klass args w.mem).1
        { w with mem := (filledArray rt klass args w.mem).2 } w')
  /-- There every element is the type object of its argument. -/
  elements : ¬ Missing rt klass args w.mem →
    (filledArray rt klass args w.mem).1.length = args.length ∧
      ∀ i o, (filledArray rt klass args w.mem).1[i]? = some o →
        ByteMem.load (filledArray rt klass args w.mem).2
          (elemAddr rt (typeArray rt klass args w.mem).1 i) 8 = o
  /-- Outside of the elements the array's filling changed nothing. -/
  frame : HasArray rt klass args w.mem → ∀ x,
    x < elemAddr rt (typeArray rt klass args w.mem).1 0 ∨
      elemAddr rt (typeArray rt klass args w.mem).1 args.length ≤ x →
    (∀ t m, (rt.typeGetObject t m).2 x = m x) →
      (filledArray rt klass args w.mem).2 x = (typeArray rt klass args w.mem).2 x
  /-- Where it stopped early, that is all that happened. -/
  stopped : HasArray rt klass args w.mem →
    (0 : Ptr) ∈ (filledArray rt klass args w.mem).1 →
      w'.mem = (filledArray rt klass args w.mem).2

/-- `MakeGeneric` returns, having done what it is for. -/
def GenericLaw (env : Env) (w : Process) (klass : Ptr) (args : List Ptr) : Prop :=
  ∃ ret w', (makeGeneric env klass args).run w = .ok (ret, w') ∧
    MadeGeneric env.rt klass args w ret w'

/-- The count of the arguments fits an `int`, or the loop stops before it
does not. -/
def CountFits (rt : Runtime) (klass : Ptr) (args : List Ptr) (mem : Mem) : Prop :=
  HasArray rt klass args mem → args.length < 2 ^ 31 ∨
    (0 : Ptr) ∈ (fill rt (typeArray rt klass args mem).1 0 (args.take (2 ^ 31))
      (typeArray rt klass args mem).2).1

end PistolWhipHook
