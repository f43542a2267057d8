import Mathlib.Data.Finset.Defs
import Mathlib.Logic.Relation
import PistolWhipHook.Model.LogClass
import PistolWhipHook.Spec.Answers

/-!
# The class graph and the dumps of it

`LogClass` dumps a class and calls itself on the type that declares it, on
its element class unless that is the class itself, and, if `logParents`, on
its parent. These are the edges of a graph. A class counts as dumped by the
line on its element class, which names it by its address.
-/

namespace PistolWhipHook

open ByteMem CStr Relation

/-! ## The graph -/

/-- `d` declares the class `c`, or is its element class and another class. -/
def Nested (rt : Runtime) (mem : Mem) (c d : Ptr) : Prop :=
  d ≠ 0 ∧ (rt.classGetDeclaringType c mem = d ∨
    rt.classGetElementClass c mem = d ∧ d ≠ c)

/-- `d` is the parent of the class `c`. -/
def Parent (rt : Runtime) (mem : Mem) (c d : Ptr) : Prop :=
  d ≠ 0 ∧ rt.classGetParent c mem = d

/-- An edge of any of the three kinds. -/
def Related (rt : Runtime) (mem : Mem) (c d : Ptr) : Prop :=
  Nested rt mem c d ∨ Parent rt mem c d

/-- From `iter` on the runtime's iteration over the fields of the class ends
before its round `n`. -/
def FieldsEnd (rt : Runtime) (mem : Mem) (klass : Ptr) : Nat → Ptr → Prop
  | 0, _ => False
  | n + 1, iter =>
      let next := rt.classGetFields klass iter mem
      next.1 = 0 ∨ FieldsEnd rt mem klass n next.2

/-- The classes are a graph as the language makes them: no edge leaves them
or closes a cycle, and the fields of each can be gone through. -/
structure ClassGraph (rt : Runtime) (mem : Mem) (classes : Finset Ptr) :
    Prop where
  notNull : ∀ c ∈ classes, c ≠ 0
  closed : ∀ c ∈ classes, ∀ d, Related rt mem c d → d ∈ classes
  acyclic : ∀ c ∈ classes, ¬ TransGen (Related rt mem) c c
  fieldsEnd : ∀ c ∈ classes, ∃ n, FieldsEnd rt mem c n 0

/-- The parents of the classes nested below `klass` are nested below it
themselves. -/
def ParentsNested (rt : Runtime) (mem : Mem) (klass : Ptr) : Prop :=
  ∀ d p, TransGen (Nested rt mem) klass d → Parent rt mem d p →
    ReflTransGen (Nested rt mem) klass p

/-! ## The dump -/

/-- The class that a line on the element class is about. -/
def LogLine.self? (line : LogLine) : Option Ptr :=
  match line.args with
  | [.ptr _, .ptr klass] =>
      if line.fmt = "element class: %p (self = %p)" then some klass else none
  | _ => none

/-- The classes the lines dump, in order. -/
def dumped (lines : List LogLine) : List Ptr := lines.filterMap LogLine.self?

/-- What `LogClass` prints of the class before its methods. -/
def classHeader (rt : Runtime) (mem : Mem) (klass : Ptr) : List LogLine :=
  let info := rt.classInfo klass mem
  [⟨.debug, "======================CLASS INFO FOR CLASS: %s::%s" ++
      "======================",
      [.str (rt.classGetNamespace klass mem), .str (rt.classGetName klass mem)]⟩,
    ⟨.debug, "Assembly Name: %s", [.str (rt.classGetAssemblyname klass mem)]⟩,
    ⟨.debug, "Rank: %i", [.int (rt.classGetRank klass mem)]⟩,
    ⟨.debug, "Type Token: %i", [.int (rt.classGetTypeToken klass mem)]⟩,
    ⟨.debug, "Flags: 0x%.8X", [.int (rt.classGetFlags klass mem)]⟩,
    ⟨.debug, "Event Count: %i", [.int info.eventCount]⟩,
    ⟨.debug, "Field Count: %i", [.int info.fieldCount]⟩,
    ⟨.debug, "Method Count: %i", [.int info.methods.length]⟩,
    ⟨.debug, "Property Count: %i", [.int info.propertyCount]⟩,
    ⟨.debug, "Is Generic: %i", [.int (rt.classIsGeneric klass mem).toInt]⟩,
    ⟨.debug, "Is Abstract: %i", [.int (rt.classIsAbstract klass mem).toInt]⟩,
    ⟨.debug, "=========METHODS=========", []⟩]

/-- The lines dump the classes in `P` and no other. -/
structure Dumps (rt : Runtime) (mem : Mem) (P : Ptr → Prop)
    (lines : List LogLine) : Prop where
  classes : ∀ d, d ∈ dumped lines ↔ P d
  headers : ∀ d, P d → classHeader rt mem d <:+: lines

/-- The environment with other rounds to spend. -/
def Env.withFuel (env : Env) (fuel : Nat) : Env := { env with fuel := fuel }

/-- With rounds enough `LogClass(klass, logParents)` returns, and what it adds
to the log dumps the classes in `P` and no other. -/
def LogsExactly (env : Env) (w : Process) (klass : Ptr) (logParents : Bool)
    (P : Ptr → Prop) : Prop :=
  ∃ n, ∀ fuel, n ≤ fuel → ∃ w' lines,
    (logClass (env.withFuel fuel) (fuel + 1) klass logParents).run w =
        .ok ((), w') ∧
      w'.log = w.log ++ lines ∧ Dumps env.rt w.mem P lines

end PistolWhipHook
