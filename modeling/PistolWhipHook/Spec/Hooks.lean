import PistolWhipHook.Model.And64InlineHook
import PistolWhipHook.Model.Install
import PistolWhipHook.Spec.MapsText
import PistolWhipHook.Spec.Relocation

/-!
# What is owed of the hooks

The mod owes each of its hooks once, at its place in the game's library. A run
of `A64HookFunction` calls is one about functions that lie apart, each with a
pointer of its own; `HookCall.move` is the move of code that a call amounts
to. The two come together where the mod's calls make a run.
-/

namespace PistolWhipHook

open ByteMem CStr A64

/-! ## The mod -/

/-- The library is loaded and `/proc/self/maps` has it at `B`. -/
def Os.MappedAt (os : Os) (B : LongLong) : Prop :=
  os.dlopen (some il2cppSoPath) = true ∧
    ∃ ls l, os.maps = some (mapsText ls) ∧
      ls.find? (MapsLine.names il2cppSoPath) = some l ∧ l.addr = B

/-- `dlopen` succeeds, and the first start that a piece of the file shows for
the library's path is `B`. -/
def Os.Finds (os : Os) (B : LongLong) : Prop :=
  os.dlopen (some il2cppSoPath) = true ∧ ∃ text, os.maps = some text ∧
    ((pieces 199 text).filterMap (shownBy il2cppSoPath)).head? = some B

/-- What a run owes: each symbol handed over is the base plus the hook's own
offset, and from the first call on that is made while the library is mapped,
each hook has been handed over exactly once. -/
structure HooksPlaced (B : LongLong) (calls : List Call) : Prop where
  symbol : ∀ e ∈ (enterAll calls).hooked, e.1 = B + e.2.addr
  once : ∀ k, (∃ c ∈ calls.take k, c.os.MappedAt B) →
    ∀ h : HookName, ((enterAll (calls.take k)).hooked.map Prod.snd).count h = 1

/-! ## A run of calls -/

/-- The block, and fifty words apart from it to copy it to. -/
structure Placed (base count slot : Nat) : Prop where
  atMost : count ≤ a64MaxInstructions
  baseAligned : base % 4 = 0
  slotAligned : slot % 4 = 0
  slotPos : 0 < slot
  baseFits : base + 4 * count ≤ 2 ^ 62
  slotFits : slot + slotSize ≤ 2 ^ 62
  apart : base + 4 * count ≤ slot ∨ slot + slotSize ≤ base

/-- The distance at which the jump is one through a register. -/
def hookFar (symbol replace : Nat) : Prop :=
  (((replace : Int) - symbol) / 4).natAbs ≥ 0x1ffffff

instance (symbol replace : Nat) : Decidable (hookFar symbol replace) :=
  inferInstanceAs (Decidable (_ ≥ _))

/-- How many instructions are copied; so many words are overwritten. -/
def hookCount (symbol replace : Nat) : Nat :=
  if hookFar symbol replace then if (symbol + 8) % 8 ≠ 0 then 5 else 4 else 1

/-- The slot that the call after `n` others gets, 0 when there is none left. -/
def slotAt (pool n : Nat) : Nat :=
  if n < a64MaxBackups then pool + slotSize * n else 0

def HookCall.count (c : HookCall) : Nat := hookCount c.symbol c.replace

/-- The code that a call is about, and where its pointer is. -/
structure HookCall.Sited (pool : Nat) (c : HookCall) : Prop where
  symbolAligned : c.symbol % 4 = 0
  replaceAligned : c.replace % 4 = 0
  symbolFits : c.symbol + 20 ≤ 2 ^ 62
  replaceFits : c.replace < 2 ^ 62
  block : Apart c.symbol (4 * c.count) pool (slotSize * a64MaxBackups)
  cell : ∀ r, c.result = some r →
    Apart r 8 c.symbol (4 * c.count) ∧ Apart r 8 pool (slotSize * a64MaxBackups)

/-- Two calls that have no place in common. -/
structure HookCall.Clear (c d : HookCall) : Prop where
  blocks : Apart c.symbol (4 * c.count) d.symbol (4 * d.count)
  left : ∀ r, c.result = some r → Apart r 8 d.symbol (4 * d.count)
  right : ∀ r, d.result = some r → Apart r 8 c.symbol (4 * c.count)
  cells : ∀ r q, c.result = some r → d.result = some q → Apart r 8 q 8

/-- How many of the calls ask for a slot. -/
def allocations (calls : List HookCall) : Nat :=
  calls.countP fun c => c.result.isSome

/-- A run of calls about different functions, with pointers of their own. -/
structure HookRun (pool : Nat) (calls : List HookCall) : Prop where
  poolPos : 0 < pool
  poolAligned : pool % 4 = 0
  poolFits : pool + slotSize * a64MaxBackups ≤ 2 ^ 62
  sited : ∀ c ∈ calls, c.Sited pool
  clear : calls.Pairwise HookCall.Clear
  few : allocations calls < 2 ^ 32

/-- What belongs to the call: the words that it overwrites, and its pointer. -/
def HookCall.Own (c : HookCall) (x : Nat) : Prop :=
  (c.symbol ≤ x ∧ x < c.symbol + 4 * c.count) ∨
    ∃ r, c.result = some r ∧ r ≤ x ∧ x < r + 8

/-- The move that the call made: the function as it was, into the slot. -/
def HookCall.move (pool : Nat) (pre : List HookCall) (c : HookCall) (r : Nat)
    (m t : Mem) (start copy : Nat → Nat) : Move :=
  { base := c.symbol
    count := c.count
    slot := slotAt pool (allocations pre)
    room := slotSize
    before :=
      store (hookAll pool pre (.start m)).mem r 8 (slotAt pool (allocations pre))
    after := t
    start
    copy }

/-! ## The mod's run -/

/-- Which of the calls a hook is. -/
def HookName.order : HookName → Nat
  | .loadBank => 0
  | .soundEngineLoadBank1 => 1
  | .soundEngineLoadBank2 => 2

/-- The calls of `A64HookFunction` that were made, with `fn` the addresses of
the `hook_##name` and `cell` those of the pointers `name`. `ok` is whether the
`mprotect` in each of them succeeds. -/
def HookState.calls (s : HookState) (ok : HookName → Bool)
    (fn cell : HookName → Nat) :
    List HookCall :=
  s.hooked.map fun e =>
    { rwxOk := ok e.2, symbol := e.1.toNat, replace := fn e.2,
      result := some (cell e.2) }

/-- The bytes of the library up to behind the last word that is overwritten. -/
def hookedExtent : Nat := 0xE3C028 + 20

/-- The library at `B`, the pool and the three pointers are apart. -/
structure ModPlaced (pool : Nat) (B : LongLong) (fn cell : HookName → Nat) :
    Prop where
  aligned : B.toNat % 4 = 0
  fits : B.toNat + hookedExtent ≤ 2 ^ 62
  poolPos : 0 < pool
  poolAligned : pool % 4 = 0
  poolFits : pool + slotSize * a64MaxBackups ≤ 2 ^ 62
  offPool : Apart B.toNat hookedExtent pool (slotSize * a64MaxBackups)
  replacements : ∀ h, fn h % 4 = 0 ∧ fn h < 2 ^ 62
  offCells : ∀ h, Apart (cell h) 8 B.toNat hookedExtent ∧
    Apart (cell h) 8 pool (slotSize * a64MaxBackups)
  cells : ∀ h h', h ≠ h' → Apart (cell h) 8 (cell h') 8

end PistolWhipHook
