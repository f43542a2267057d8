import PistolWhipHook.Proofs.NewUnsafe

/-!
# When `MakeAction` stands on something

`MakeAction` looks up `Invoke` and reads its `MethodInfo`, fills a `MethodInfo`
of its own, has `NewUnsafe` construct the delegate and reads the delegate's
`method_ptr`. It checks the last of these against the callback and none of the
others for null. So it is as safe as the steps it takes for granted: it returns
the delegate or null exactly when `Invoke` was found and `NewUnsafe` returned
an object.
-/

namespace PistolWhipHook

open ByteMem CStr

variable {env : Env} {w : Process} {slot exp₀ obj callback actionType : Ptr}

/-! ## `Invoke` -/

end PistolWhipHook
