import PistolWhipHook.Lib.A64

/-!
# `And64InlineHook.cpp`

The arm64 inline hook. `A64HookFunction` takes a slot of fifty words out of a
pool, copies into it the first instructions of the function that is hooked,
each made to mean there what it meant where it stood, ends the copy with a
jump back behind them, and only then overwrites them with a jump to the
replacement.

The copying is `__fix_instructions`: one pass over at most five instructions,
with a `context` that knows where the copy of each one begins and which words
written so far still wait for that. A pointer is the number of its address,
`NULL` is 0, and an `int64_t` that holds an address is an `Int`: the addresses
are those of user space, far from the ends of the type. `x & (2^k - 1)` is
written `x % 2^k` on these, `>> 2` is division by 4. The words are bit
vectors, with the source's masks and shifts.
-/

namespace PistolWhipHook

open ByteMem A64

/-- `A64_MAX_INSTRUCTIONS`. -/
def a64MaxInstructions : Nat := 5

/-- `A64_MAX_REFERENCES`. -/
def a64MaxReferences : Nat := a64MaxInstructions * 2

/-- `A64_NOP`. -/
def a64Nop : Word := 0xd503201f#32

/-- `LDR X17, #0x8`, `LDR X17, #12`, `ADR X30, #16` and `BR X17`. -/
def ldrX17 : Word := 0x58000051#32
def ldrX17Link : Word := 0x58000071#32
def adrX30 : Word := 0x1000009e#32
def brX17 : Word := 0xd61f0220#32

/-! ## The context -/

/-- `fix_info`: a word at `bp` that waits for an address. -/
structure FixInfo where
  bp : Nat
  ls : Nat
  ad : Word
deriving DecidableEq

def FixInfo.zero : FixInfo := { bp := 0, ls := 0, ad := 0#32 }

/-- `insns_info`: where the copy of an instruction begins, and what waits for
it. -/
structure InsnsInfo where
  ins : Nat
  fmap : List FixInfo

/-- `context`. `dat` has `A64_MAX_INSTRUCTIONS` entries; it is read and written
at the indices of the instructions that are copied. -/
structure Context where
  basep : Int
  endp : Int
  dat : Nat → InsnsInfo

/-- The variables of `__fix_instructions` that the four `__fix_*` functions
are handed by reference, with the memory. -/
structure FixState where
  inp : Nat
  outp : Nat
  ctx : Context
  mem : Mem

def Context.isInFixingRange (c : Context) (absoluteAddr : Int) : Bool :=
  c.basep ≤ absoluteAddr && absoluteAddr < c.endp

def Context.getRefInsIndex (c : Context) (absoluteAddr : Int) : Nat :=
  ((absoluteAddr - c.basep) / 4).toNat

/-- `dat[idx] = d`. -/
def Context.setDat (c : Context) (idx : Nat) (d : InsnsInfo) : Context :=
  { c with dat := fun j => if j = idx then d else c.dat j }

/-- `reset_current_ins(idx, outp)`. -/
def FixState.resetCurrentIns (s : FixState) (idx : Nat) : FixState :=
  { s with ctx := s.ctx.setDat idx { s.ctx.dat idx with ins := s.outp } }

/-- `get_ref_ins_index(inp)`. -/
def FixState.currentIdx (s : FixState) : Nat := s.ctx.getRefInsIndex s.inp

/-- `get_and_set_current_index(inp, outp)`. -/
def FixState.getAndSetCurrentIndex (s : FixState) : FixState :=
  s.resetCurrentIns s.currentIdx

/-- The loop of `insert_fix_map`: the first entry not in use is taken. -/
def insertFmap (g : FixInfo) : List FixInfo → List FixInfo
  | [] => []
  | f :: fs => if f.bp = 0 then g :: fs else f :: insertFmap g fs

/-- `insert_fix_map(idx, bp, ls, ad)`. -/
def FixState.insertFixMap (s : FixState) (idx : Nat) (g : FixInfo) : FixState :=
  let d := s.ctx.dat idx
  { s with ctx := s.ctx.setDat idx { d with fmap := insertFmap g d.fmap } }

/-- `*(f.bp) | (((int32_t(ins - f.bp) >> 2) << f.ls) & f.ad)`. -/
def FixInfo.fixed (f : FixInfo) (ins : Nat) (w : Word) : Word :=
  w ||| (((BitVec.ofInt 32 ((ins : Int) - f.bp)).sshiftRight 2 <<< f.ls) &&& f.ad)

/-- The loop of `process_fix_map`, which ends at the first entry not in use. -/
def processFmap (ins : Nat) : List FixInfo → Mem → List FixInfo × Mem
  | [], m => ([], m)
  | f :: fs, m =>
      if f.bp = 0 then (f :: fs, m)
      else
        let m := store m f.bp 4 (f.fixed ins (fetch m f.bp)).toNat
        let (fs, m) := processFmap ins fs m
        ({ f with bp := 0 } :: fs, m)

/-- `process_fix_map(idx)`. -/
def FixState.processFixMap (s : FixState) (idx : Nat) : FixState :=
  let d := s.ctx.dat idx
  let (fmap, mem) := processFmap d.ins d.fmap s.mem
  { s with ctx := s.ctx.setDat idx { d with fmap }, mem }

/-! ## What is written -/

/-- Bytes put at `outp`, which is moved behind them. -/
def FixState.emit (s : FixState) (bs : List UInt8) : FixState :=
  { s with outp := s.outp + bs.length, mem := write s.mem s.outp bs }

/-- `*(*outpp)++ = w`. -/
def FixState.emitWord (s : FixState) (w : Word) : FixState := s.emit (wordBytes w)

/-- `memcpy` of an `int64_t` address. -/
def FixState.emitAddr (s : FixState) (absoluteAddr : Int) : FixState :=
  s.emit (leBytes 8 (wrap absoluteAddr))

/-- `++(*inpp)`. -/
def FixState.advance (s : FixState) : FixState := { s with inp := s.inp + 4 }

/-- One `A64_NOP` to align what follows, where `pad` says so. -/
def FixState.alignNop (s : FixState) (pad : Bool) (idx : Nat) : FixState :=
  if pad then (s.emitWord a64Nop).resetCurrentIns idx else s

/-- A reference into the copied block: the address it has now where that is
known, and an entry in the map of the instruction where it is not. -/
def FixState.refer (s : FixState) (ref idx : Nat) (ls : Nat) (ad : Word) :
    FixState × Int :=
  if ref ≤ idx then (s, (s.ctx.dat ref).ins - s.outp)
  else (s.insertFixMap ref { bp := s.outp, ls, ad }, 0)

/-! ## `__fix_branch_imm` -/

/-- `absolute_addr` of a `B` or `BL`. -/
def branchAddr (ins : Word) (inp : Nat) : Int :=
  inp + ((ins <<< 6).sshiftRight 4).toInt

def fixBranchImm (s : FixState) : Option FixState :=
  let ins := fetch s.mem s.inp
  let opc := ins &&& 0xfc000000#32
  if opc = 0x14000000#32 ∨ opc = 0x94000000#32 then
    let idx := s.currentIdx
    let s := s.getAndSetCurrentIndex
    let absoluteAddr := branchAddr ins s.inp
    let newPcOffset := (absoluteAddr - s.outp) / 4
    let specialFixType := s.ctx.isInFixingRange absoluteAddr
    let bAligned : Bool := (s.outp + 8) % 8 = 0
    let s :=
      if !specialFixType && newPcOffset.natAbs ≥ 0x1ffffff then
        if opc = 0x14000000#32 then
          let s := s.alignNop (!bAligned) idx
          ((s.emitWord ldrX17).emitWord brX17).emitAddr absoluteAddr
        else
          let s := s.alignNop bAligned idx
          (((s.emitWord ldrX17Link).emitWord adrX30).emitWord brX17).emitAddr
            absoluteAddr
      else
        let (s, newPcOffset) :=
          if specialFixType then
            let (s, off) :=
              s.refer (s.ctx.getRefInsIndex absoluteAddr) idx 0 0x03ffffff#32
            (s, off / 4)
          else (s, newPcOffset)
        s.emitWord (opc ||| (BitVec.ofInt 32 newPcOffset &&& ~~~0xfc000000#32))
    some (s.advance.processFixMap idx)
  else none

/-! ## `__fix_cond_comp_test_branch` -/

/-- `lmask` of `B.cond`, `CBZ` and `CBNZ`, or of `TBZ` and `TBNZ`; none for
any other word. -/
def condMask (ins : Word) : Option Word :=
  if ins &&& 0xff000010#32 = 0x54000000#32 then some 0xff00001f#32
  else
    let opc := ins &&& 0x7f000000#32
    if opc = 0x34000000#32 ∨ opc = 0x35000000#32 then some 0xff00001f#32
    else if opc = 0x36000000#32 ∨ opc = 0x37000000#32 then some 0xfff8001f#32
    else none

/-- `absolute_addr` of a conditional branch. -/
def condAddr (ins lmask : Word) (inp : Nat) : Int :=
  inp + ((ins &&& ~~~lmask) >>> 3).toNat

def fixCondCompTestBranch (s : FixState) : Option FixState :=
  let ins := fetch s.mem s.inp
  match condMask ins with
  | none => none
  | some lmask =>
      let idx := s.currentIdx
      let s := s.getAndSetCurrentIndex
      let absoluteAddr := condAddr ins lmask s.inp
      let newPcOffset := (absoluteAddr - s.outp) / 4
      let specialFixType := s.ctx.isInFixingRange absoluteAddr
      let s :=
        if !specialFixType && newPcOffset.natAbs ≥ (~~~lmask >>> 6).toNat then
          let s := s.alignNop ((s.outp + 16) % 8 ≠ 0) idx
          -- B.C #0x8
          let s := s.emitWord (((2#32 <<< 5) &&& ~~~lmask) ||| (ins &&& lmask))
          let s := s.emitWord 0x14000005#32 -- B #0x14
          ((s.emitWord ldrX17).emitWord brX17).emitAddr absoluteAddr
        else
          let (s, newPcOffset) :=
            if specialFixType then
              let (s, off) :=
                s.refer (s.ctx.getRefInsIndex absoluteAddr) idx 5 (~~~lmask)
              (s, off / 4)
            else (s, newPcOffset)
          s.emitWord (((BitVec.ofInt 32 newPcOffset <<< 5) &&& ~~~lmask) |||
            (ins &&& lmask))
      some (s.advance.processFixMap idx)

/-! ## `__fix_loadlit` -/

/-- `mask` and `faligned` of a literal load; none for any other word. -/
def loadlitMask (ins : Word) : Option (Word × Nat) :=
  let faligned := if ins &&& 0x40000000#32 ≠ 0#32 then 7 else 3
  if ins &&& 0xbf000000#32 = 0x18000000#32 then some (0xbf000000#32, faligned)
  else
    let faligned :=
      if faligned ≠ 7 then if ins &&& 0x80000000#32 ≠ 0#32 then 15 else 3
        else faligned
    if ins &&& 0x3f000000#32 = 0x1c000000#32 then some (0x3f000000#32, faligned)
    else if ins &&& 0xff000000#32 = 0x98000000#32 then some (0xff000000#32, 7)
    else none

/-- `absolute_addr` of a literal load. The mask `~3u` makes the offset
unsigned before it is widened. -/
def loadlitAddr (ins : Word) (inp : Nat) : Int :=
  inp + ((ins <<< 8).sshiftRight 11 &&& ~~~3#32).toNat

/-- `while ((outp + 2) & faligned) *outp++ = A64_NOP`, in at most `n` rounds.
A round moves `outp` by one word, so from a word's address at most three are
made. -/
def FixState.padCopy (faligned : Nat) : Nat → FixState → FixState
  | 0, s => s
  | n + 1, s =>
      if (s.outp + 8) % (faligned + 1) ≠ 0 then
        (s.emitWord a64Nop).padCopy faligned n
      else s

/-- `while (new_pc_offset & faligned) ..`, in at most `n` rounds; a round makes
`new_pc_offset` one less, so at most three are made. -/
def FixState.padNear (absoluteAddr : Int) (faligned : Nat) :
    Nat → FixState → FixState
  | 0, s => s
  | n + 1, s =>
      if (absoluteAddr - s.outp) / 4 % (faligned + 1) ≠ 0 then
        (s.emitWord a64Nop).padNear absoluteAddr faligned n
      else s

def fixLoadlit (s : FixState) : Option FixState :=
  let ins := fetch s.mem s.inp
  -- memory prefetch, which is skipped
  if ins &&& 0xff000000#32 = 0xd8000000#32 then
    let idx := s.currentIdx
    some (s.getAndSetCurrentIndex.processFixMap idx).advance
  else
    match loadlitMask ins with
    | none => none
    | some (mask, faligned) =>
        let idx := s.currentIdx
        let s := s.getAndSetCurrentIndex
        let absoluteAddr := loadlitAddr ins s.inp
        let newPcOffset := (absoluteAddr - s.outp) / 4
        let specialFixType := s.ctx.isInFixingRange absoluteAddr
        let s :=
          if specialFixType ||
              newPcOffset.natAbs + (faligned + 1 - 4) / 4 ≥
                (~~~0xff00001f#32 >>> 6).toNat then
            let s := (s.padCopy faligned 4).resetCurrentIns idx
            let ns := (faligned + 1) / 4
            let s := s.emitWord (((2#32 <<< 5) &&& ~~~mask) |||
              (ins &&& 0xff00001f#32))
            let s := s.emitWord (0x14000001#32 + BitVec.ofNat 32 ns)
            s.emit (read s.mem (wrap absoluteAddr) (faligned + 1))
          else
            let s := (s.padNear absoluteAddr (faligned / 4) 4).resetCurrentIns idx
            let newPcOffset := (absoluteAddr - s.outp) / 4
            s.emitWord
              (((BitVec.ofInt 32 newPcOffset <<< 5) &&& ~~~mask) |||
                (ins &&& 0xff00001f#32))
        some (s.advance.processFixMap idx)

/-! ## `__fix_pcreladdr` -/

/-- `((int32_t(ins << msb) >> (msb + lsb - 2u)) & ~3u) | lsb_bytes`. -/
def pcrelOffset (ins : Word) : Word :=
  ((ins <<< 8).sshiftRight 11 &&& ~~~3#32) ||| ((ins <<< 1) >>> 30)

/-- `absolute_addr` of an `ADR`. -/
def adrAddr (ins : Word) (inp : Nat) : Int := inp + (pcrelOffset ins).toNat

/-- `absolute_addr` of an `ADRP`: the shift by twelve is one of 32 bits. -/
def adrpAddr (ins : Word) (inp : Nat) : Int :=
  (inp / 4096 * 4096 : Nat) + (pcrelOffset ins <<< 12).toNat

/-- `LDR Xd, #0x8`, `B #0xc` and the address, for `ADR` and `ADRP`. -/
def FixState.emitLoadAddr (s : FixState) (ins : Word) (absoluteAddr : Int)
    (idx : Nat) : FixState :=
  let s := s.alignNop ((s.outp + 8) % 8 ≠ 0) idx
  let s := s.emitWord
    (0x58000000#32 ||| ((2#32 <<< 5) &&& ~~~0x9f000000#32) ||| (ins &&& 0x1f#32))
  (s.emitWord 0x14000003#32).emitAddr absoluteAddr

def fixPcreladdr (s : FixState) : Option FixState :=
  let ins := fetch s.mem s.inp
  if ins &&& 0x9f000000#32 = 0x10000000#32 then
    let idx := s.currentIdx
    let s := s.getAndSetCurrentIndex
    let absoluteAddr := adrAddr ins s.inp
    let newPcOffset := absoluteAddr - s.outp
    let specialFixType := s.ctx.isInFixingRange absoluteAddr
    let s :=
      if !specialFixType && newPcOffset.natAbs ≥ 0xfffff then
        s.emitLoadAddr ins absoluteAddr idx
      else
        let (s, newPcOffset) :=
          if specialFixType then
            s.refer (s.ctx.getRefInsIndex (absoluteAddr / 4 * 4))
              idx 5 0x00ffffff#32
          else (s, newPcOffset)
        s.emitWord
          (((BitVec.ofInt 32 newPcOffset <<< 3) &&& 0x00ffffff#32) |||
            (ins &&& 0xff00001f#32))
    some (s.processFixMap idx).advance
  else if ins &&& 0x9f000000#32 = 0x90000000#32 then
    let idx := s.currentIdx
    let s := s.getAndSetCurrentIndex
    let absoluteAddr := adrpAddr ins s.inp
    let s :=
      if s.ctx.isInFixingRange absoluteAddr then s.emitWord ins
      else s.emitLoadAddr ins absoluteAddr idx
    some (s.processFixMap idx).advance
  else none

/-! ## `__fix_instructions` -/

/-- A word without a PC-relative offset. -/
def fixPlain (s : FixState) : FixState :=
  let idx := s.currentIdx
  let s := s.getAndSetCurrentIndex.processFixMap idx
  (s.emitWord (fetch s.mem s.inp)).advance

/-- One round of the loop. -/
def fixOne (s : FixState) : FixState :=
  ((fixBranchImm s).orElse fun _ =>
    (fixCondCompTestBranch s).orElse fun _ =>
      (fixLoadlit s).orElse fun _ => fixPcreladdr s).getD (fixPlain s)

/-- `while (--count >= 0)`. -/
def fixLoop : Nat → FixState → FixState
  | 0, s => s
  | n + 1, s => fixLoop n (fixOne s)

/-- The jump behind the copied instructions. -/
def emitCallback (s : FixState) : FixState :=
  let callback : Int := s.inp
  let pcOffset := (callback - s.outp) / 4
  if pcOffset.natAbs ≥ 0x1ffffff then
    let s := if (s.outp + 8) % 8 ≠ 0 then s.emitWord a64Nop else s
    ((s.emitWord ldrX17).emitWord brX17).emitAddr callback
  else s.emitWord (0x14000000#32 ||| (BitVec.ofInt 32 pcOffset &&& 0x03ffffff#32))

/-- The state that the loop begins in. -/
def FixState.start (inp count outp : Nat) (m : Mem) : FixState :=
  { inp
    outp
    ctx :=
      { basep := inp
        endp := (inp : Int) + 4 * count
        dat := fun _ =>
          { ins := 0, fmap := List.replicate a64MaxReferences FixInfo.zero } }
    mem := m }

/-- `__fix_instructions(inp, count, outp)`. -/
def fixInstructions (inp count outp : Nat) (m : Mem) : Mem :=
  (emitCallback (fixLoop count (FixState.start inp count outp m))).mem

/-! ## The hook -/

/-- `A64_MAX_BACKUPS`. -/
def a64MaxBackups : Nat := 1024

/-- The bytes of one `__insns_pool[i]`. -/
def slotSize : Nat := a64MaxInstructions * 10 * 4

/-- `A64HookFunctionV(symbol, replace, rwx, rwx_size)`: the trampoline it
returns, and the memory. `rwxOk` is whether the `mprotect` of `__make_rwx`
succeeds. -/
def a64HookFunctionV (rwxOk : Bool) (symbol replace rwx rwxSize : Nat) (m : Mem) :
    Nat × Mem :=
  let pcOffset := ((replace : Int) - symbol) / 4
  if pcOffset.natAbs ≥ 0x1ffffff then
    let count := if (symbol + 8) % 8 ≠ 0 then 5 else 4
    if rwx ≠ 0 ∧ rwxSize < count * 10 then (0, m)
    else
      let m := if rwx ≠ 0 then fixInstructions symbol count rwx m else m
      if rwxOk then
        let (m, original) :=
          if count = 5 then (store m symbol 4 a64Nop.toNat, symbol + 4)
            else (m, symbol)
        let m := store m original 4 ldrX17.toNat
        let m := store m (original + 4) 4 brX17.toNat
        (rwx, store m (original + 8) 8 replace)
      else (0, m)
  else
    if rwx ≠ 0 ∧ rwxSize < 1 * 10 then (0, m)
    else
      let m := if rwx ≠ 0 then fixInstructions symbol 1 rwx m else m
      if rwxOk then
        let w := 0x14000000#32 ||| (BitVec.ofInt 32 pcOffset &&& 0x03ffffff#32)
        (rwx, store m symbol 4 w.toNat)
      else (0, m)

/-- What outlives a call: the static `__index`, an `int32_t`, and the memory. -/
structure HookLib where
  index : BitVec 32
  mem : Mem

/-- `FastAllocateTrampoline()`, with `__insns_pool` at `pool`. -/
def fastAllocateTrampoline (pool : Nat) (h : HookLib) : Nat × HookLib :=
  let i := h.index + 1#32
  (if 0 ≤ i.toInt ∧ i.toInt < a64MaxBackups then pool + slotSize * i.toNat else 0,
    { h with index := i })

/-- `A64HookFunction(symbol, replace, result)`, with `result` the address of
the caller's pointer, or `none` for `NULL`. -/
def a64HookFunction (pool : Nat) (rwxOk : Bool) (symbol replace : Nat)
    (result : Option Nat) (h : HookLib) : HookLib :=
  match result with
  | none => { h with mem := (a64HookFunctionV rwxOk symbol replace 0 50 h.mem).2 }
  | some result =>
      let (trampoline, h) := fastAllocateTrampoline pool h
      let h := { h with mem := store h.mem result 8 trampoline }
      if trampoline = 0 then h
      else
        let (trampoline, mem) :=
          a64HookFunctionV rwxOk symbol replace trampoline 50 h.mem
        let h := { h with mem }
        if trampoline = 0 then { h with mem := store h.mem result 8 0 } else h

/-- The library as it is loaded, into the memory `m`. -/
def HookLib.start (m : Mem) : HookLib := { index := BitVec.ofInt 32 (-1), mem := m }

/-- A call of `A64HookFunction`, and whether its `mprotect` succeeds. -/
structure HookCall where
  rwxOk : Bool
  symbol : Nat
  replace : Nat
  result : Option Nat

def HookCall.enter (pool : Nat) (c : HookCall) (h : HookLib) : HookLib :=
  a64HookFunction pool c.rwxOk c.symbol c.replace c.result h

/-- A run of the library: the calls, one after another. -/
def hookAll (pool : Nat) (calls : List HookCall) (h : HookLib) : HookLib :=
  calls.foldl (fun h c => c.enter pool h) h

end PistolWhipHook
