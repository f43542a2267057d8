import PistolWhipHook.Lib.Run
import PistolWhipHook.Lib.Prog
import PistolWhipHook.Lib.Mem
import PistolWhipHook.Lib.CStr
import PistolWhipHook.Lib.Utf
import PistolWhipHook.Lib.Descent
import PistolWhipHook.Lib.BitFields
import PistolWhipHook.Lib.Simulation
import PistolWhipHook.Lib.A64
import PistolWhipHook.Lib.Veneer
import PistolWhipHook.Model.Utils
import PistolWhipHook.Model.Install
import PistolWhipHook.Model.Functions
import PistolWhipHook.Model.Process
import PistolWhipHook.Model.Api
import PistolWhipHook.Model.Il2cppUtils
import PistolWhipHook.Model.LogClass
import PistolWhipHook.Model.Calls
import PistolWhipHook.Model.Logging
import PistolWhipHook.Model.Files
import PistolWhipHook.Model.And64InlineHook
import PistolWhipHook.Spec.MapsText
import PistolWhipHook.Spec.Calls
import PistolWhipHook.Spec.Answers
import PistolWhipHook.Spec.Strings
import PistolWhipHook.Spec.FieldLayout
import PistolWhipHook.Spec.Construction
import PistolWhipHook.Spec.Names
import PistolWhipHook.Spec.MakeGeneric
import PistolWhipHook.Spec.ClassGraph
import PistolWhipHook.Spec.Streams
import PistolWhipHook.Spec.Relocation
import PistolWhipHook.Spec.Hooks
import PistolWhipHook.Proofs.BaseAddr
import PistolWhipHook.Proofs.Install
import PistolWhipHook.Proofs.Setcsstr
import PistolWhipHook.Proofs.ApiRuns
import PistolWhipHook.Proofs.Init
import PistolWhipHook.Proofs.Createcsstr
import PistolWhipHook.Proofs.Lookups
import PistolWhipHook.Proofs.Fields
import PistolWhipHook.Proofs.RunMethod
import PistolWhipHook.Proofs.New
import PistolWhipHook.Proofs.ByName
import PistolWhipHook.Proofs.TwoRuns
import PistolWhipHook.Proofs.StringCopy
import PistolWhipHook.Proofs.Conversions
import PistolWhipHook.Proofs.ClassSearch
import PistolWhipHook.Proofs.Logging
import PistolWhipHook.Proofs.Files
import PistolWhipHook.Proofs.InitRuns
import PistolWhipHook.Proofs.NewUnsafe
import PistolWhipHook.Proofs.MakeAction
import PistolWhipHook.Proofs.MakeGeneric
import PistolWhipHook.Proofs.ClassDump
import PistolWhipHook.Proofs.LogClass
import PistolWhipHook.Proofs.Relocation
import PistolWhipHook.Proofs.FixWords
import PistolWhipHook.Proofs.FixEmit
import PistolWhipHook.Proofs.FixRound
import PistolWhipHook.Proofs.FixInstructions
import PistolWhipHook.Proofs.A64Hook
import PistolWhipHook.Proofs.ModHooks
