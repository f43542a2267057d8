import PistolWhipHook.Model.Files
import PistolWhipHook.Model.Logging

/-!
# What is owed of text that passes through

A text that was written to a file is read back, and the messages that are
logged for a stream are the stream.
-/

namespace PistolWhipHook

open CStr

/-- A text that was written is read back, all of it and within the block, and
a file that cannot be opened is NULL. -/
def FilesAgree (os : FileOs) (disk : Disk) (filename text : Str) : Prop :=
  ((writefile os filename text disk).1 = 0 →
    ∃ content, readfile os filename (writefile os filename text disk).2 =
        .ok (some content) ∧ cString? content = some text) ∧
    ∀ disk', fopenRead os filename disk' = none →
      readfile os filename disk' = .ok none

/-- The kernel hands a stream over in reads of one to `count` bytes. -/
structure Splits (count : Nat) (stream : Str) (reads : List Str) : Prop where
  whole : reads.flatten = stream
  sizes : ∀ chunk ∈ reads, 1 ≤ chunk.length ∧ chunk.length ≤ count

/-- The message, with the newline put back if the read ended with one. -/
def putBack (chunk msg : Str) : Str :=
  if chunk.getLast? = some 0x0a then msg ++ [0x0a] else msg

/-- There is a message for every read, and together they are the stream. -/
def LogsAll (buf : Str) (reads : List Str) (stream : Str) : Prop :=
  ∃ msgs, threadFunc buf reads = .ok msgs ∧ msgs.length = reads.length ∧
    (List.zipWith putBack reads msgs).flatten = stream

end PistolWhipHook
