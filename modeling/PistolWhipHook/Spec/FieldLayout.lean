import PistolWhipHook.Model.Il2cppUtils

/-!
# Where fields are stored

An instance field has a slot in every object, a static field has one slot in
the static block of its class, and both are given by an offset. The offsets
of the two kinds overlap, so an offset on its own does not say whose byte it
is. A runtime stores by a layout when its four accessors go to the base they
are handed, or to the static block, plus the offset, and do not ask which
kind the field is of.
-/

namespace PistolWhipHook

open ByteMem CStr

/-- `sizeof(Il2CppObject)`: the class and the monitor. -/
def objectHeaderSize : Nat := 16

structure FieldLayout where
  isStatic : Ptr → Bool
  offset : Ptr → Nat
  size : Ptr → Nat
  /-- The static block of the class the field is declared in. -/
  statics : Ptr → Nat
  size_pos : ∀ f, 0 < size f
  header_le : ∀ f, isStatic f = false → objectHeaderSize ≤ offset f

namespace FieldLayout

variable (lay : FieldLayout)

/-- The base the field overloads go by, which is the object if there is one
and otherwise the static block. -/
def base (inst f : Ptr) : Nat := if inst ≠ 0 then inst else lay.statics f

/-- The base the field itself goes by. -/
def owner (inst f : Ptr) : Nat := if lay.isStatic f then lay.statics f else inst

/-- The address is one of the field's own. -/
def InSlot (inst f : Ptr) (x : Nat) : Prop :=
  lay.owner inst f + lay.offset f ≤ x ∧
    x < lay.owner inst f + lay.offset f + lay.size f

end FieldLayout

/-- The runtime keeps the values of fields by the layout, and what it knows
of a class is not kept in a field. -/
structure Runtime.StoresBy (rt : Runtime) (lay : FieldLayout) : Prop where
  set : ∀ obj f value m, value.length = lay.size f →
    rt.fieldSetValue obj f value m = write m (obj + lay.offset f) value
  staticSet : ∀ f value m, value.length = lay.size f →
    rt.fieldStaticSetValue f value m =
      write m (lay.statics f + lay.offset f) value
  get : ∀ obj f m,
    rt.fieldGetValue obj f m = read m (obj + lay.offset f) (lay.size f)
  staticGet : ∀ f m,
    rt.fieldStaticGetValue f m =
      read m (lay.statics f + lay.offset f) (lay.size f)
  find : ∀ klass name m m',
    rt.classGetFieldFromName klass name m = rt.classGetFieldFromName klass name m'
  header : ∀ obj m m',
    (∀ x, obj ≤ x → x < obj + objectHeaderSize → m x = m' x) →
      rt.objectGetClass obj m = rt.objectGetClass obj m'

/-! ## Fields by name -/

/-- The first argument of the overloads that take a field's name. -/
inductive Receiver where
  | ofClass (klass : Ptr)
  | ofObject (inst : Ptr)

namespace Receiver

/-- What the overload hands on as `instance`. -/
def inst : Receiver → Ptr
  | ofClass _ => 0
  | ofObject inst => inst

def klass (rt : Runtime) (mem : Mem) : Receiver → Ptr
  | ofClass klass => klass
  | ofObject inst => rt.objectGetClass inst mem

def isClass : Receiver → Bool
  | ofClass _ => true
  | ofObject _ => false

/-- `SetFieldValue(receiver, fieldName, value)`. -/
def set (env : Env) (fieldName : StringView) (value : Str) : Receiver → Hook Bool
  | ofClass klass => setFieldValueOfClass env klass fieldName value
  | ofObject inst => setFieldValueOfObject env inst fieldName value

/-- `GetFieldValue(out, receiver, fieldName)`. -/
def get (env : Env) (fieldName : StringView) (out : Str) :
    Receiver → Hook (Bool × Str)
  | ofClass klass => getFieldValueOfClass env out klass fieldName
  | ofObject inst => getFieldValueOfObject env out inst fieldName

/-- There is a receiver, and of its class the name is that of `f`. -/
def Names (rt : Runtime) (mem : Mem) (fieldName : StringView) (f : Ptr)
    (r : Receiver) : Prop :=
  (r.isClass = false → r.inst ≠ 0) ∧ r.klass rt mem ≠ 0 ∧ f ≠ 0 ∧
    ∃ n, cString? fieldName.data = some n ∧
      rt.classGetFieldFromName (r.klass rt mem) n mem = f

/-- Objects have all fields of their class, and the class its static ones. -/
def Holds (lay : FieldLayout) (f : Ptr) (r : Receiver) : Prop :=
  r.isClass = true → lay.isStatic f = true

end Receiver

/-- Every value set through the receiver and the name reaches the slot of the
field they name, leaves every other byte alone and is got back by them. A
receiver that does not hold the field is turned away. -/
def KeepsToField (env : Env) (lay : FieldLayout) (w : Process) (r : Receiver)
    (fieldName : StringView) : Prop :=
  ∀ f, r.Names env.rt w.mem fieldName f →
    ∀ value, value.length = lay.size f →
      ∃ ok w', (r.set env fieldName value).run w = .ok (ok, w') ∧
        (ok = true →
          (∀ x, ¬ lay.InSlot r.inst f x → w'.mem x = w.mem x) ∧
          ∀ out, out.length = lay.size f →
            ∃ w'', (r.get env fieldName out).run w' = .ok ((true, value), w'')) ∧
        (¬ r.Holds lay f → ok = false ∧ w'.mem = w.mem)

end PistolWhipHook
