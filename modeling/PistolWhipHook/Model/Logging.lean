import PistolWhipHook.Model.Process

/-!
# `logging.h`: the thread that logs what is printed

Whatever the process prints goes into a pipe, and `thread_func` reads the pipe
into a buffer of `STD_BUFFER_SIZE` bytes and logs what each `read` brought.
The buffer is never cleared, so its contents are a parameter here, and stay
from one round to the next. How the kernel cuts the stream into reads is a
list of what each of them stored.
-/

namespace PistolWhipHook

open CStr

/-- How many bytes a `read` asks for: `sizeof buf - 1`. -/
def readCount (buf : Str) : Nat := buf.length - 1

/-- `buf` after a `read` that stored `chunk` in it. -/
def readInto (buf chunk : Str) : Str := chunk ++ buf.drop chunk.length

/-- `buf[i]`. -/
def charAt (buf : Str) (i : Nat) : Except Fault UInt8 :=
  match buf[i]? with
  | some c => .ok c
  | none => .error .overread

/-- `buf[i] = c`. -/
def setChar (buf : Str) (i : Nat) (c : UInt8) : Except Fault Str :=
  if i < buf.length then .ok (buf.set i c) else .error .overrun

/-- `__android_log_write(ANDROID_LOG_INFO, TAG, buf)`: the message it sees. -/
def androidLogWrite (buf : Str) : Except Fault Str :=
  match cString? buf with
  | some msg => .ok msg
  | none => .error .overread

/-- The body of the loop: the message logged, and the buffer after it. -/
def logRead (buf chunk : Str) : Except Fault (Str × Str) := do
  let buf := readInto buf chunk
  let rdsz := chunk.length
  let last ← charAt buf (rdsz - 1)
  let rdsz := if last = 0x0a then rdsz - 1 else rdsz
  let buf ← setChar buf rdsz 0
  let msg ← androidLogWrite buf
  return (msg, buf)

/-- `thread_func`: the messages it logs until a `read` brings nothing. -/
def threadFunc (buf : Str) : List Str → Except Fault (List Str)
  | [] => return []
  | chunk :: reads =>
      if chunk.length = 0 then return []
      else do
        let (msg, buf) ← logRead buf chunk
        let msgs ← threadFunc buf reads
        return msg :: msgs

end PistolWhipHook
