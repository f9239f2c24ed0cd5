import NativeBinding.Text.Quoted
import NativeBinding.Text.Utf8

/-! # SHA-256

The FIPS 180-4 digest of an octet sequence, as a fold over its padded blocks of sixteen words.
-/

set_option autoImplicit false

namespace NativeBinding.Digest.Sha256

structure Words where
  a : UInt32
  b : UInt32
  c : UInt32
  d : UInt32
  e : UInt32
  f : UInt32
  g : UInt32
  h : UInt32
  deriving DecidableEq

def initial : Words :=
  ⟨0x6a09e667, 0xbb67ae85, 0x3c6ef372, 0xa54ff53a, 0x510e527f, 0x9b05688c, 0x1f83d9ab, 0x5be0cd19⟩

def roundConstants : Array UInt32 :=
  #[0x428a2f98, 0x71374491, 0xb5c0fbcf, 0xe9b5dba5, 0x3956c25b, 0x59f111f1, 0x923f82a4, 0xab1c5ed5,
    0xd807aa98, 0x12835b01, 0x243185be, 0x550c7dc3, 0x72be5d74, 0x80deb1fe, 0x9bdc06a7, 0xc19bf174,
    0xe49b69c1, 0xefbe4786, 0x0fc19dc6, 0x240ca1cc, 0x2de92c6f, 0x4a7484aa, 0x5cb0a9dc, 0x76f988da,
    0x983e5152, 0xa831c66d, 0xb00327c8, 0xbf597fc7, 0xc6e00bf3, 0xd5a79147, 0x06ca6351, 0x14292967,
    0x27b70a85, 0x2e1b2138, 0x4d2c6dfc, 0x53380d13, 0x650a7354, 0x766a0abb, 0x81c2c92e, 0x92722c85,
    0xa2bfe8a1, 0xa81a664b, 0xc24b8b70, 0xc76c51a3, 0xd192e819, 0xd6990624, 0xf40e3585, 0x106aa070,
    0x19a4c116, 0x1e376c08, 0x2748774c, 0x34b0bcb5, 0x391c0cb3, 0x4ed8aa4a, 0x5b9cca4f, 0x682e6ff3,
    0x748f82ee, 0x78a5636f, 0x84c87814, 0x8cc70208, 0x90befffa, 0xa4506ceb, 0xbef9a3f7, 0xc67178f2]

def rotateRight (x n : UInt32) : UInt32 :=
  (x >>> n) ||| (x <<< (32 - n))

def extend (schedule : Array UInt32) : Array UInt32 :=
  let i := schedule.size
  let w15 := schedule.getD (i - 15) 0
  let w2 := schedule.getD (i - 2) 0
  let s0 := rotateRight w15 7 ^^^ rotateRight w15 18 ^^^ (w15 >>> 3)
  let s1 := rotateRight w2 17 ^^^ rotateRight w2 19 ^^^ (w2 >>> 10)
  schedule.push (schedule.getD (i - 16) 0 + s0 + schedule.getD (i - 7) 0 + s1)

def step (w : Words) (constant word : UInt32) : Words :=
  let s1 := rotateRight w.e 6 ^^^ rotateRight w.e 11 ^^^ rotateRight w.e 25
  let choice := (w.e &&& w.f) ^^^ (~~~w.e &&& w.g)
  let t1 := w.h + s1 + choice + constant + word
  let s0 := rotateRight w.a 2 ^^^ rotateRight w.a 13 ^^^ rotateRight w.a 22
  let majority := (w.a &&& w.b) ^^^ (w.a &&& w.c) ^^^ (w.b &&& w.c)
  ⟨t1 + s0 + majority, w.a, w.b, w.c, w.d + t1, w.e, w.f, w.g⟩

def compress (state : Words) (block : Array UInt32) : Words :=
  let schedule := (List.range 48).foldl (fun s _ => extend s) block
  let w := (List.range 64).foldl
    (fun w i => step w (roundConstants.getD i 0) (schedule.getD i 0)) state
  ⟨state.a + w.a, state.b + w.b, state.c + w.c, state.d + w.d,
    state.e + w.e, state.f + w.f, state.g + w.g, state.h + w.h⟩

/-- The most significant octets of a number first, `count` of them. -/
def bigEndian (count n : Nat) : List UInt8 :=
  (List.range count).map fun i => UInt8.ofNat (n / Nat.pow 256 (count - 1 - i))

/-- A one bit, zeros up to eight octets before a block's end, and the length in bits. -/
def padding (length : Nat) : List UInt8 :=
  0x80 :: List.replicate ((119 - length % 64) % 64) 0 ++ bigEndian 8 (8 * length)

def absorb : Words → Array UInt32 → List UInt8 → Words
  | state, block, a :: b :: c :: d :: rest =>
    let word := (a.toUInt32 <<< 24) ||| (b.toUInt32 <<< 16) ||| (c.toUInt32 <<< 8) ||| d.toUInt32
    let block := block.push word
    if block.size == 16 then absorb (compress state block) #[] rest else absorb state block rest
  | state, _, _ => state

def Words.toList (w : Words) : List UInt32 :=
  [w.a, w.b, w.c, w.d, w.e, w.f, w.g, w.h]

def digest (octets : List UInt8) : List UInt8 :=
  (absorb initial #[] (octets ++ padding octets.length)).toList.flatMap
    fun word => bigEndian 4 word.toNat

def hex (octets : List UInt8) : String :=
  String.ofList ((digest octets).flatMap Text.Quoted.hexByte)

/-- The digest of a text's UTF-8 octets, in lower-case hexadecimal. -/
def ofText (text : String) : String :=
  hex (Text.Utf8.ofString text)

end NativeBinding.Digest.Sha256
