import PistolWhipHook.Lib.Mem
import PistolWhipHook.Lib.CStr
import Mathlib.Data.BitVec

/-!
# `utils.cpp`

The base address of a library, read out of `/proc/self/maps`, and the
conversions between the game's strings and the mod's.

What the operating system answers is the record `Os`. The parser is kept in
the source's own steps: one `fgets` at a time, seven `strtok_r` steps on what
it stored, the trim from the right and the comparison of the tail. The
strings of the game live in memory, laid out as `il2cpp-object-internals.h`
has them: a 16-byte object header, the `int32_t` length, the UTF-16 units.
-/

namespace PistolWhipHook

open ByteMem CStr

/-- A `long long`, and the 64-bit address it is cast to. -/
abbrev LongLong := BitVec 64

/-! ## The library's base address -/

/-- What the operating system answers while `baseAddr` runs. -/
structure Os where
  /-- `dlopen(soname, RTLD_LOCAL | RTLD_LAZY)` gives a handle. -/
  dlopen : Option Str → Bool
  /-- The text of `/proc/self/maps`, or `none` where `fopen` fails on it. -/
  maps : Option Str

/-- The delimiters of the first `strtok_r` step, `"-"`. -/
def isDash (c : UInt8) : Bool := c == 0x2d

/-- The delimiters of the six steps after it, `"\t "`. -/
def isBlank (c : UInt8) : Bool := c == 0x09 || c == 0x20

/-- What the path field is trimmed of on its right. -/
def isTrimmed (c : UInt8) : Bool :=
  c == 0x20 || c == 0x0d || c == 0x0a || c == 0x09

/-- The start field and the path field of one stored piece, by the seven
`strtok_r` steps. -/
def mapsFields (piece : Str) : Option Str × Option Str :=
  let line := untilNul piece
  let (tok, state) := strtokR isDash (some line)
  let baseAddr := tok
  let (_, state) := strtokR isBlank state
  let (_, state) := strtokR isBlank state -- "r-xp" field
  let (_, state) := strtokR isBlank state -- "0000000" field
  let (_, state) := strtokR isBlank state -- "01:02" field
  let (_, state) := strtokR isBlank state -- "133224" field
  let (tok, _) := strtokR isBlank state -- path field
  (baseAddr, tok)

/-- The path field with its trailing blanks taken off. -/
def trimPath (tok : Str) : Str := tok.rdropWhile isTrimmed

/-- The trimmed field is not empty and its tail is `soname`. -/
def namesSo (soname tok : Str) : Bool :=
  decide (tok.length > 0) && (decide (tok.length ≥ soname.length) &&
    strEq (tok.drop (tok.length - soname.length)) soname)

/-- The body of the loop: the address it returns, if it returns. -/
def scanPiece (soname piece : Str) : Option LongLong :=
  match mapsFields piece with
  | (some baseAddr, some tok) =>
      if namesSo soname (trimPath tok) then
        some (BitVec.ofInt 64 (strtoll16 baseAddr))
      else none
  | _ => none

/-- `while (fgets(line, 199, f) != NULL)`, for so many rounds at most. -/
def scanMaps (soname : Str) : Nat → Str → LongLong
  | 0, _ => 0
  | rounds + 1, file =>
      match fgets 199 file with
      | none => 0
      | some (piece, file') =>
          match scanPiece soname piece with
          | some addr => addr
          | none => scanMaps soname rounds file'

/-- `baseAddr(soname)`. Each round of the loop takes at least one character
of the file, so the length of the file bounds their number. -/
def baseAddr (os : Os) (soname : Option Str) : LongLong :=
  let imagehandle := os.dlopen soname
  match soname with
  | none => 0
  | some soname =>
      if !imagehandle then 0
      else
        match os.maps with
        | none => 0
        | some text => scanMaps soname text.length text

/-- `IL2CPP_SO_PATH`. -/
def il2cppSoPath : Str :=
  lit "/data/app/com.cloudheadgames.pistolwhip-1/lib/arm64/libil2cpp.so"

/-- `getRealOffset(offset)`: the address, and the cached `location` after. -/
def getRealOffset (os : Os) (location offset : LongLong) :
    LongLong × LongLong :=
  let location :=
    if location = 0 then baseAddr os (some il2cppSoPath) else location
  (location + offset, location)

/-! ## Strings -/

/-- A `u16string_view`: where its units start and how many there are. -/
structure U16View where
  data : Nat
  length : Nat
deriving DecidableEq

/-- The unit at index `i` of a buffer of units. -/
def unitAt (m : Mem) (data i : Nat) : UInt16 :=
  UInt16.ofNat (load m (data + 2 * i) 2)

/-- The units a view shows. -/
def U16View.units (v : U16View) (m : Mem) : List UInt16 :=
  (List.range v.length).map fun i => unitAt m v.data i

/-- `&in->length`. -/
def lengthAddr (p : Nat) : Nat := p + 16

/-- `in->chars`. -/
def charsAddr (p : Nat) : Nat := p + 20

/-- `in->length`, an `int32_t`. -/
def strLength (m : Mem) (p : Nat) : Int :=
  (BitVec.ofNat 32 (load m (lengthAddr p) 4)).toInt

/-- The loop of `setcsstr` from index `i` on, for so many rounds at most. The
bound is read again in every round, as the source reads it. -/
def setcsstrLoop (p : Nat) (str : U16View) : Nat → Nat → Mem → Mem
  | 0, _, m => m
  | rounds + 1, i, m =>
      if (i : Int) < strLength m p then
        setcsstrLoop p str rounds (i + 1)
          (store m (charsAddr p + 2 * i) 2 (unitAt m str.data i).toNat)
      else m

/-- `setcsstr(in, str)`. The stored length is the view's, cut to 32 bits. -/
def setcsstr (m : Mem) (p : Nat) (str : U16View) : Mem :=
  let m := store m (lengthAddr p) 4 str.length
  setcsstrLoop p str (strLength m p).toNat 0 m

/-- `csstrtostr(in)`: the length goes through `static_cast<uint32_t>`. -/
def csstrtostr (m : Mem) (p : Nat) : U16View :=
  { data := charsAddr p, length := load m (lengthAddr p) 4 }

/-- `to_utf8(view)`: each unit cast to `char` into a buffer one longer, a NUL
after them, and the C string at the start of the buffer. -/
def toUtf8 (view : List UInt16) : Str :=
  let dat := view.map fun utf16Char => utf16Char.toUInt8
  untilNul (dat ++ [0])

/-- `to_utf16(view)`, the same way up. Plain `char` is unsigned on arm64-v8a,
so a byte is widened with zeros. -/
def toUtf16 (view : Str) : List UInt16 :=
  let dat := view.map fun standardChar => standardChar.toUInt16
  (dat ++ [0]).takeWhile fun c => c != 0

end PistolWhipHook
