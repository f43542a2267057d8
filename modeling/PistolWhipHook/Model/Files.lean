import PistolWhipHook.Model.Process

/-!
# `utils.cpp`: whole files

`readfile` and `writefile` go through the C library's streams. `FileOs` is what
the library and the allocator answer, and says of them what their manuals do:
`fwrite` may report fewer bytes than it was given, a block from `malloc` has
the size asked for, and what is in it is anything. `Disk` is what the files
hold.
-/

namespace PistolWhipHook

open CStr

/-- The bytes of each file, if there is such a file. -/
abbrev Disk := Str → Option Str

structure FileOs where
  /-- `fopen(filename, "w")` succeeds. -/
  opensWrite : Str → Disk → Bool
  /-- `fopen(filename, "r")` is allowed on a file that is there. -/
  opensRead : Str → Disk → Bool
  /-- How many of the bytes `fwrite` reports as written. -/
  fwrite : Str → Nat
  fwrite_le : ∀ data, fwrite data ≤ data.length
  /-- The contents of the block `malloc` returns, if it does not return NULL. -/
  malloc : Nat → Option Str
  malloc_length : ∀ {n content}, malloc n = some content → content.length = n

variable (os : FileOs)

/-- `fopen(filename, "r")`: what there is to read, or `none` for NULL. -/
def fopenRead (filename : Str) (disk : Disk) : Option Str :=
  if os.opensRead filename disk then disk filename else none

/-- `fread(content, 1, size, fp)` with the whole of the file still to read. -/
def fread (content : Str) (size : Nat) (file : Str) : Str :=
  file.take size ++ content.drop (file.take size).length

/-- `readfile(filename)`: the block it returns, or `none` for NULL. -/
def readfile (filename : Str) (disk : Disk) : Except Fault (Option Str) :=
  match fopenRead os filename disk with
  | none => .ok none
  | some file =>
      let size := file.length
      match os.malloc size with
      | some content => .ok (some (fread content size file))
      | none => if size = 0 then .ok none else .error (.nullDeref .text)

/-- `writefile(filename, text)`: what it returns, and the files after it. -/
def writefile (filename text : Str) (disk : Disk) : Int × Disk :=
  if os.opensWrite filename disk then
    let data := untilNul text -- `strlen(text)` bytes of it
    let file := data.take (os.fwrite data)
    (0, fun name => if name = filename then some file else disk name)
  else (-1, disk)

end PistolWhipHook
