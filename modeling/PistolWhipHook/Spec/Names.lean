import PistolWhipHook.Spec.Answers

/-!
# What is owed of names

A class or a member goes by a name. `Metadata` is what there is to be found:
the members of each class with their names. The lookups of the runtime are
exact on the strings they read, and an operation that takes a name is to act
on what the characters of its view name. A class is that of the first of the
loaded assemblies that defines it.
-/

namespace PistolWhipHook

open ByteMem CStr

variable {α : Type}

/-! ## Members -/

/-- `p` is a thing of exactly that name, or null where there is none. -/
def Finds (entries : List (Str × Obj)) (name : Str) (p : Ptr) : Prop :=
  (∃ o, (name, o) ∈ entries ∧ p = o.1) ∨ ((∀ o, (name, o) ∉ entries) ∧ p = 0)

/-- The methods of each class that take so many parameters, and its fields.
A member has one name. -/
structure Metadata where
  methods : Ptr → Int → List (Str × Obj)
  fields : Ptr → List (Str × Obj)
  method_name : ∀ {klass argsCount a b o}, (a, o) ∈ methods klass argsCount →
    (b, o) ∈ methods klass argsCount → a = b
  field_name : ∀ {klass a b o}, (a, o) ∈ fields klass →
    (b, o) ∈ fields klass → a = b

/-- The runtime looks a member up by exactly the string it is given. -/
structure Runtime.Reflects (rt : Runtime) (md : Metadata) : Prop where
  method : ∀ klass name argsCount mem, Finds (md.methods klass argsCount) name
    (rt.classGetMethodFromName klass name argsCount mem)
  field : ∀ klass name mem, Finds (md.fields klass) name
    (rt.classGetFieldFromName klass name mem)

/-- `data()` holds a C string, and it names what the view's characters name:
it is those characters, or neither names anything. -/
def ReadsRight (entries : List (Str × Obj)) (v : StringView) : Prop :=
  ∃ name, cString? v.data = some name ∧
    (name = v.chars ∨
      ((∀ o, (name, o) ∉ entries) ∧ ∀ o, (v.chars, o) ∉ entries))

/-- The call does to the member of that name what `onMember` does to it, and
answers `failed` with nothing done where there is no such member. -/
def ActsOnNamed (entries : List (Str × Obj)) (name : Str) (m : Hook α)
    (failed : α) (onMember : Ptr → Hook α) (w : Process) : Prop :=
  ∃ p w', w.Onward w' ∧ Finds entries name p ∧
    m.run w = (if p = 0 then pure failed else onMember p).run w'

/-- Members of a class are found and used by the characters of the view. -/
structure ByName (env : Env) (md : Metadata) (w : Process) (klass : Ptr)
    (v : StringView) (argsCount : Int) : Prop where
  getMethod : ∃ p, Answers (getMethod env klass v argsCount) w p ∧
    Finds (md.methods klass argsCount) v.chars p
  findField : ∃ p, Answers (findField env klass v) w p ∧
    Finds (md.fields klass) v.chars p
  runMethodOfClass : ∀ tout out params, params.length = argsCount →
    ActsOnNamed (md.methods klass argsCount) v.chars
      (runMethodOfClass env tout out klass v params) (false, out)
      (fun method => runMethod env tout out 0 method params) w
  runMethodOfObject : ∀ tout out inst params, params.length = argsCount →
    inst ≠ 0 → env.rt.objectGetClass inst w.mem = klass →
    ActsOnNamed (md.methods klass argsCount) v.chars
      (runMethodOfObject env tout out inst v params) (false, out)
      (fun method => runMethod env tout out inst method params) w
  getFieldValueOfClass : ∀ out,
    ActsOnNamed (md.fields klass) v.chars
      (getFieldValueOfClass env out klass v) (false, out)
      (fun field => getFieldValue env out 0 field) w
  getFieldValueOfObject : ∀ out inst,
    inst ≠ 0 → env.rt.objectGetClass inst w.mem = klass →
    ActsOnNamed (md.fields klass) v.chars
      (getFieldValueOfObject env out inst v) (false, out)
      (fun field => getFieldValue env out inst field) w
  setFieldValueOfClass : ∀ value,
    ActsOnNamed (md.fields klass) v.chars
      (setFieldValueOfClass env klass v value) false
      (fun field => setFieldValue env 0 field value) w
  setFieldValueOfObject : ∀ inst value,
    inst ≠ 0 → env.rt.objectGetClass inst w.mem = klass →
    ActsOnNamed (md.fields klass) v.chars
      (setFieldValueOfObject env inst v value) false
      (fun field => setFieldValue env inst field value) w

/-! ## Classes by name as well -/

/-- `p` is a method of the class of that name; null where there is no class. -/
def FindsIn (md : Metadata) (klass : Ptr) (argsCount : Int) (name : Str)
    (p : Ptr) : Prop :=
  if klass = 0 then p = 0 else Finds (md.methods klass argsCount) name p

/-- `GetMethod` by three names finds the method the views name, of the class
the views name. -/
def FoundByNames (env : Env) (md : Metadata) (w : Process)
    (nameSpace className v : StringView) (argsCount : Int) : Prop :=
  ∃ p, Answers (getMethodByClassName env nameSpace className v argsCount) w p ∧
    FindsIn md (classNamed env.rt w.mem nameSpace.chars className.chars)
      argsCount v.chars p

/-- There is no method of that name, or no class to have one. -/
def Lacks (md : Metadata) (klass : Ptr) (argsCount : Int) (name : Str) : Prop :=
  klass = 0 ∨ ∀ o, (name, o) ∉ md.methods klass argsCount

/-- The C strings are there as far as they are read, and name no method where
the views' characters name none; and where they name one, the views'
characters name it too, in the class they mean. -/
def NamedAlike (env : Env) (md : Metadata) (mem : Mem)
    (nameSpace className v : StringView) (argsCount : Int) : Prop :=
  let meant := classNamed env.rt mem nameSpace.chars className.chars
  env.rt.domainGet mem = 0 ∨
    ∃ ns cn, cString? nameSpace.data = some ns ∧
      cString? className.data = some cn ∧
      let taken := classNamed env.rt mem ns cn
      ((taken = 0 ∧ Lacks md meant argsCount v.chars) ∨
        (taken ≠ 0 ∧ ∃ n, cString? v.data = some n ∧
          ((Lacks md taken argsCount n ∧ Lacks md meant argsCount v.chars) ∨
            (meant ≠ 0 ∧ ∃ o, (v.chars, o) ∈ md.methods meant argsCount ∧
              env.rt.classGetMethodFromName taken n argsCount mem = o.1))))

/-! ## The class search -/

/-- The class of that name in the assembly's image. -/
def classIn (rt : Runtime) (mem : Mem) (ns tn : Str) (assemb : Obj) : Ptr :=
  rt.classFromName (rt.assemblyGetImage assemb.1 mem) ns tn mem

/-- The assembly has an image, and the image has a class of that name. -/
def Defines (rt : Runtime) (mem : Mem) (ns tn : Str) (assemb : Obj) : Prop :=
  rt.assemblyGetImage assemb.1 mem ≠ 0 ∧ classIn rt mem ns tn assemb ≠ 0

instance (rt : Runtime) (mem : Mem) (ns tn : Str) (assemb : Obj) :
    Decidable (Defines rt mem ns tn assemb) :=
  inferInstanceAs (Decidable (_ ∧ _))

/-- The same process with these assemblies loaded in its domain. -/
def Env.withAssemblies (env : Env) (l : Assemblies) : Env :=
  { env with rt := { env.rt with domainGetAssemblies := fun _ _ => l } }

/-- With these assemblies loaded, `GetClassFromName` returns `p`. -/
def FindsClass (env : Env) (w : Process) (nameSpace typeName : Str)
    (l : List Obj) (p : Ptr) : Prop :=
  ∃ (h : l.length < 2 ^ 31) (w' : Process),
    (getClassFromName (env.withAssemblies ⟨l, h⟩) nameSpace typeName).run w =
      .ok (p, w')

/-- The law of the search, of the names that the two buffers hold. The lists are
of fewer than 2^31 assemblies. -/
structure SearchLaw (env : Env) (w : Process) (nameSpace typeName : Str) :
    Prop where
  /-- The class is that of the earliest assembly that defines it. -/
  first : env.rt.domainGet w.mem ≠ 0 → ∀ before assemb after,
    (∀ b ∈ before,
      ¬ Defines env.rt w.mem (untilNul nameSpace) (untilNul typeName) b) →
    Defines env.rt w.mem (untilNul nameSpace) (untilNul typeName) assemb →
    (before ++ assemb :: after).length < 2 ^ 31 →
      FindsClass env w nameSpace typeName (before ++ assemb :: after)
        (classIn env.rt w.mem (untilNul nameSpace) (untilNul typeName) assemb)
  /-- It is null only if there is no domain or no such assembly. -/
  null : ∀ l : List Obj, l.length < 2 ^ 31 →
    (FindsClass env w nameSpace typeName l 0 ↔
      env.rt.domainGet w.mem = 0 ∨ ∀ a ∈ l,
        ¬ Defines env.rt w.mem (untilNul nameSpace) (untilNul typeName) a)
  /-- Assemblies that do not define it may come and go anywhere. -/
  insert : ∀ before useless after, (∀ u ∈ useless,
      ¬ Defines env.rt w.mem (untilNul nameSpace) (untilNul typeName) u) →
    (before ++ useless ++ after).length < 2 ^ 31 →
    ∀ p, FindsClass env w nameSpace typeName (before ++ useless ++ after) p ↔
      FindsClass env w nameSpace typeName (before ++ after) p
  /-- Where no two define it, their order does not matter. -/
  perm : ∀ l l' : List Obj, l.Perm l' → l.length < 2 ^ 31 → (∀ a ∈ l, ∀ b ∈ l,
      Defines env.rt w.mem (untilNul nameSpace) (untilNul typeName) a →
      Defines env.rt w.mem (untilNul nameSpace) (untilNul typeName) b → a = b) →
    ∀ p, FindsClass env w nameSpace typeName l p ↔
      FindsClass env w nameSpace typeName l' p

end PistolWhipHook
