import PistolWhipHook.Model.Utils

/-!
# `main.cpp`: installing the hooks

Both ways into the mod, the constructor `lib_main` and the exported `load`,
call `InstallHooks`, which hooks three functions of the game at the address
`getRealOffset` gives for each. The state is the three statics that outlive a
call: the `installed` flag, the cached `location` and, for the vendored
`A64HookFunction`, the list of what it was handed.
-/

namespace PistolWhipHook

open ByteMem CStr

/-- The hooks that `InstallHooks` installs. -/
inductive HookName where
  | loadBank
  | soundEngineLoadBank1
  | soundEngineLoadBank2
deriving DecidableEq

/-- `addr_##name`, the offset `MAKE_HOOK` is given. -/
def HookName.addr : HookName → LongLong
  | .loadBank => 0xE3C028
  | .soundEngineLoadBank1 => 0xD4C178
  | .soundEngineLoadBank2 => 0xD5FE20

structure HookState where
  installed : Bool
  location : LongLong
  /-- The symbol and the hook of each call of `A64HookFunction`. -/
  hooked : List (LongLong × HookName)
  log : List String
deriving DecidableEq

/-- The statics as the library is loaded. -/
def HookState.start : HookState :=
  { installed := false, location := 0, hooked := [], log := [] }

/-- `INSTALL_HOOK(name)`, and the line logged after it. -/
def installHook (os : Os) (name : HookName) (done : String) (s : HookState) :
    HookState :=
  let (symbol, location) := getRealOffset os s.location name.addr
  { s with
    location
    hooked := s.hooked ++ [(symbol, name)]
    log := s.log ++ ["Installing 64 bit hook!", done] }

/-- `InstallHooks()`. -/
def installHooks (os : Os) (s : HookState) : HookState :=
  if s.installed then s
  else
    let s := installHook os .loadBank "Installed LoadBank hook!" s
    let s := installHook os .soundEngineLoadBank1
      "Installed AkSoundEngine.LoadBank1 hook!" s
    let s := installHook os .soundEngineLoadBank2
      "Installed AkSoundEngine.LoadBank2 hook!" s
    { s with log := s.log ++ ["Installed HashMod!"], installed := true }

/-- The two ways in. -/
inductive Entry where
  | libMain
  | load
deriving DecidableEq

/-- One call, and what the operating system answers during it. -/
structure Call where
  entry : Entry
  os : Os

def Call.enter (c : Call) (s : HookState) : HookState :=
  match c.entry with
  | .libMain => installHooks c.os s
  | .load => installHooks c.os s

/-- A run: the calls, one after another, from the start. -/
def enterAll (calls : List Call) : HookState :=
  calls.foldl (fun s c => c.enter s) HookState.start

end PistolWhipHook
