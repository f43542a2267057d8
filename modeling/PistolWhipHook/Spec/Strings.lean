import PistolWhipHook.Lib.Run
import PistolWhipHook.Lib.Utf
import PistolWhipHook.Model.Il2cppUtils

/-!
# What is owed of strings

Text that goes into the game comes back as it went in. A string that is
written to stays one: its length within what was allocated, a zero in the cell
the length points at. And it shows what the view showed that was copied.
-/

namespace PistolWhipHook

open ByteMem CStr Utf

/-! ## Into the game and back -/

/-- `string_new_len` decodes UTF-8, and stores the units and their number. -/
def Runtime.DecodesUtf8 (rt : Runtime) : Prop :=
  ∀ (cs : List Char) (mem : Mem), (utf8 cs).length < 2 ^ 31 →
    let made := rt.stringNewLen (utf8 cs) mem
    (csstrtostr made.2 made.1).units made.2 = utf16 cs

/-- The text comes back as it went in. -/
def RoundTrips (env : Env) (w : Process) (inp : StringView) : Prop :=
  ∃ p w', (createcsstr env inp).run w = .ok (p, w') ∧
    toUtf8 ((csstrtostr w'.mem p).units w'.mem) = inp.chars

/-! ## The form of a string -/

/-- The view's length as the `int32_t` field keeps it. -/
def storedLength (str : U16View) : Int := (BitVec.ofNat 32 str.length).toInt

/-- A string as the runtime allocates it for `m` characters. -/
def Allocated (m p : Nat) (mem : Mem) : Prop :=
  strLength mem p = m ∧ unitAt mem (charsAddr p) m = 0

/-- A string allocated for `m` characters is in form, and since `mem₀` only
its length field and its `m + 1` cells have changed. -/
structure InForm (m p : Nat) (mem₀ mem : Mem) : Prop where
  nonneg : 0 ≤ strLength mem p
  le : strLength mem p ≤ m
  terminated : unitAt mem (charsAddr p) (strLength mem p).toNat = 0
  frame : ∀ x, x < lengthAddr p ∨ charsAddr p + 2 * (m + 1) ≤ x →
    mem x = mem₀ x

/-- What a call needs of its view and of the string before it: the length, as
it will be stored, lies within the allocation, and the cell it points at
holds a zero already. -/
def EndsAtZero (m p : Nat) (str : U16View) (mem : Mem) : Prop :=
  0 ≤ storedLength str ∧ storedLength str ≤ m ∧
    unitAt mem (charsAddr p) (storedLength str).toNat = 0

instance (m p : Nat) (str : U16View) (mem : Mem) :
    Decidable (EndsAtZero m p str mem) :=
  inferInstanceAs (Decidable (_ ∧ _))

/-- One call as a step of a run; it cannot fault. -/
def setStep (p : Nat) (str : U16View) (mem : Mem) : Except Empty Mem :=
  .ok (setcsstr mem p str)

/-! ## Copies -/

/-- No byte of the view is a byte of the string, which has `c` cells. -/
def U16View.Apart (str : U16View) (p c : Nat) : Prop :=
  ∀ x, str.data ≤ x → x < str.data + 2 * str.length →
    x < p ∨ charsAddr p + 2 * c ≤ x

/-- The view shows cells of the string's own buffer. -/
def U16View.Inside (str : U16View) (p c : Nat) : Prop :=
  charsAddr p ≤ str.data ∧
    str.data + 2 * str.length ≤ charsAddr p + 2 * c

/-- The string shows in `m'` what the view showed in `m`, and its cells past
that are as they were. -/
def Copies (p c : Nat) (str : U16View) (m m' : Mem) : Prop :=
  (csstrtostr m' p).units m' = str.units m ∧
    ∀ i, str.length ≤ i → i < c →
      unitAt m' (charsAddr p) i = unitAt m (charsAddr p) i

end PistolWhipHook
