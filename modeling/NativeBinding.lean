import NativeBinding.Main
import NativeBinding.Module.Surface
import NativeBinding.Project.Tree
import NativeBinding.Proofs.Binding.Strictness
import NativeBinding.Proofs.Header.Canonical
import NativeBinding.Proofs.Header.Cuts
import NativeBinding.Proofs.Header.Defaults
import NativeBinding.Proofs.Header.OptionalInt
import NativeBinding.Proofs.Header.Spelling
import NativeBinding.Proofs.Marshal.Bounds
import NativeBinding.Proofs.Marshal.Frame
import NativeBinding.Proofs.Marshal.Text
import NativeBinding.Proofs.Model.CharPointer
import NativeBinding.Proofs.Model.Expansion
import NativeBinding.Proofs.Model.VoidParams
import NativeBinding.Proofs.Module.Chunks
import NativeBinding.Proofs.Module.ItemNames
import NativeBinding.Proofs.Module.RootFile
import NativeBinding.Proofs.Module.Surface
import NativeBinding.Proofs.Module.Verbatim
import NativeBinding.Proofs.Project.Actions
import NativeBinding.Proofs.Project.Generation
import NativeBinding.Proofs.Session.DefaultLiterals
import NativeBinding.Proofs.Session.Fingerprint
import NativeBinding.Proofs.Session.Interface
import NativeBinding.Proofs.Session.Optional
import NativeBinding.Proofs.Session.Refusal
import NativeBinding.Proofs.Session.Surplus
import NativeBinding.Proofs.Session.Turns
import NativeBinding.Proofs.Source.Functions
import NativeBinding.Proofs.Trader.Echo
import NativeBinding.Session.Action
import NativeBinding.Session.Rehearsal
import NativeBinding.Session.Run
import NativeBinding.Trader.Library
