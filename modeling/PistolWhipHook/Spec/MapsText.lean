import PistolWhipHook.Model.Utils

/-!
# What `/proc/self/maps` says

A line of the file is `start-end perms offset dev inode`, then blanks and a
pathname where the mapping has one, then a newline. `MapsLine` is such a line
with its shape as fields, so a line that is not well formed cannot be built,
and `mapsText` is the file a list of lines spells.

The question `baseAddr` is asked of such a file is put here without its
parser: the start address of the first line whose pathname ends with the
library's name, and zero when there is none (`FindsFirst`).

`baseAddr` has a buffer of 199 characters, though, and to it a pathname ends
at its first blank. What it can see of a line is `MapsLine.shown`, and
`SeenRight` is that this loses nothing for the name in question. `Plain` is
the everyday reason for it.
-/

namespace PistolWhipHook

open ByteMem CStr

/-- A field of a line: not empty, and none of its characters ends it. -/
def IsField (s : Str) : Prop :=
  s ≠ [] ∧ ∀ c ∈ s, isBlank c = false ∧ c ≠ 0x0a ∧ c ≠ 0

/-- A gap between fields. -/
def IsGap (s : Str) : Prop := s ≠ [] ∧ ∀ c ∈ s, isBlank c = true

/-- A pathname as it stands in a line: blanks may be inside it, but it
starts at the character that is none. -/
def IsPathname (s : Str) : Prop :=
  (∃ c ∈ s.head?, isBlank c = false) ∧ ∀ c ∈ s, c ≠ 0x0a ∧ c ≠ 0

instance (s : Str) : Decidable (IsField s) :=
  @instDecidableAnd _ _ _ (List.decidableBAll _ s)

instance (s : Str) : Decidable (IsGap s) :=
  @instDecidableAnd _ _ _ (List.decidableBAll _ s)

instance (s : Str) : Decidable (IsPathname s) :=
  @instDecidableAnd _ _ _ (List.decidableBAll _ s)

/-- The end of a line that has a pathname. -/
structure MapsPath where
  gap : Str
  name : Str
  gap_ok : IsGap gap
  name_ok : IsPathname name

/-- A well-formed line. -/
structure MapsLine where
  start : Str
  stop : Str
  perms : Str
  offset : Str
  dev : Str
  inode : Str
  path : Option MapsPath
  start_ok : IsHex start ∧ hexPrefix 0 start < 2 ^ 63
  stop_ok : IsField stop
  perms_ok : IsField perms
  offset_ok : IsField offset
  dev_ok : IsField dev
  inode_ok : IsField inode

namespace MapsLine

/-- What follows the inode. -/
def tail (l : MapsLine) : Str :=
  match l.path with
  | none => []
  | some p => p.gap ++ p.name

/-- The line without its newline. -/
def body (l : MapsLine) : Str :=
  l.start ++ 0x2d :: (l.stop ++ 0x20 :: (l.perms ++ 0x20 :: (l.offset ++
    0x20 :: (l.dev ++ 0x20 :: (l.inode ++ l.tail)))))

def render (l : MapsLine) : Str := l.body ++ [0x0a]

/-- The start address. -/
def addr (l : MapsLine) : LongLong := BitVec.ofNat 64 (hexPrefix 0 l.start)

/-- The pathname ends with `soname`. -/
def names (soname : Str) (l : MapsLine) : Bool :=
  match l.path with
  | none => false
  | some p => decide (soname <:+ p.name)

end MapsLine

/-- The file a list of lines spells. -/
def mapsText (ls : List MapsLine) : Str := ls.flatMap MapsLine.render

/-- `r` is the start address of the first line whose pathname ends with
`soname`, and it is zero exactly when there is no such line. -/
structure FindsFirst (ls : List MapsLine) (soname : Str) (r : LongLong) :
    Prop where
  first : ∀ l, ls.find? (MapsLine.names soname) = some l → r = l.addr
  zero : r = 0 ↔ ∀ l ∈ ls, l.names soname = false

/-! ## What can be seen of a line -/

/-- The pathname up to its first blank, less the carriage returns at the end. -/
def MapsLine.word (l : MapsLine) : Str :=
  match l.path with
  | none => []
  | some p => (p.name.takeWhile fun c => !isBlank c).rdropWhile fun c => c == 0x0d

/-- A text that is taken for a line. Behind leading dashes and up to the next
dash it has its start, and the sixth word after that is its pathname, the line
end taken off: the start, where the pathname ends with `soname`. -/
def shownBy (soname text : Str) : Option LongLong :=
  let line := (untilNul text).dropWhile isDash
  let start := line.takeWhile fun c => !isDash c
  match (words isBlank (line.dropWhile fun c => !isDash c).tail)[5]? with
  | none => none
  | some path =>
      if soname <:+ path.rdropWhile fun c => c == 0x0a || c == 0x0d then
        some (BitVec.ofInt 64 (strtoll16 start))
      else none

/-- The starts that a line is seen to have for `soname`. A line of at most 198
characters has its own, if its pathname as far as it is seen ends with
`soname`. A longer line comes in pieces, and each is taken for a line. -/
def MapsLine.shown (soname : Str) (l : MapsLine) : List LongLong :=
  if l.render.length ≤ 198 then
    if soname <:+ l.word then [l.addr] else []
  else (pieces 199 l.render).filterMap (shownBy soname)

/-- Of the lines whose pathname ends with `soname` or is seen to, the first is
one whose pathname does, is seen to at its own start, and does not start at
the null address. -/
def SeenRight (soname : Str) (ls : List MapsLine) : Prop :=
  ∀ l, ls.find? (fun l => l.names soname || !(l.shown soname).isEmpty) = some l →
    l.names soname = true ∧ (l.shown soname).head? = some l.addr ∧ l.addr ≠ 0

/-- The starts seen for `soname` are not null, and no start seen at one line
is that of another. Mappings that are each seen at their own start are so,
since they do not overlap. -/
def ShownApart (soname : Str) (ls : List MapsLine) : Prop :=
  ∀ l ∈ ls, ∀ a ∈ l.shown soname, a ≠ 0 ∧ ∀ l' ∈ ls, l'.addr = a → l' = l

/-- A line the buffer holds with its newline, with a pathname that is one word
without carriage returns. -/
def MapsLine.Plain (l : MapsLine) : Prop :=
  l.render.length ≤ 198 ∧
    ∀ p ∈ l.path, ∀ c ∈ p.name, isBlank c = false ∧ c ≠ 0x0d

instance (l : MapsLine) : Decidable l.Plain :=
  inferInstanceAs (Decidable (_ ∧ ∀ p ∈ l.path, _))

end PistolWhipHook
