import NativeBinding.Native.Value

/-! # Native libraries

What a session needs of a native library: factories and instances that take marshaled arguments and
may invoke callbacks while they work. What an instance does after it is entered is a tree; at each
callback the library's state is handed over and comes back with the answer, since the callback may
enter the library again.
-/

set_option autoImplicit false

namespace NativeBinding.Session

structure NativeFault where
  code : Option Int32 := none
  message : String
  deriving DecidableEq

/-- What a library does after it is entered, over library states `σ`. -/
inductive NativeRun (σ : Type) where
  | answer (native : σ) (reply : Except NativeFault NativeArg)
  /-- Invokes a hook through a sink, or through none if none is registered. -/
  | invoke (native : σ) (sink : Option Nat) (hook : String) (args : List NativeArg)
      (next : σ → NativeArg → NativeRun σ)

/-- The entry points of a library. Instances are numbered in the order of their creation, and a sink
is known by the number of its bridge. Factories, static methods and registration invoke nothing. -/
structure NativeLibrary (σ : Type) where
  create : σ → String → String → List NativeArg → σ × Except NativeFault Unit
  callStatic : σ → String → String → List NativeArg → σ × Except NativeFault NativeArg
  register : σ → Nat → Nat → σ × Except NativeFault Unit
  init : σ → Nat → NativeRun σ
  release : σ → Nat → NativeRun σ
  call : σ → Nat → String → List NativeArg → NativeRun σ
  /-- The sink that an instance calls into now. -/
  sink? : σ → Nat → Option Nat
  /-- Takes the next work that an instance does on its own. -/
  work? : σ → Option (Nat × NativeRun σ)

end NativeBinding.Session
