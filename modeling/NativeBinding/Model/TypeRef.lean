import NativeBinding.Ieee.Text
import NativeBinding.Text.Blank

/-! # Resolved types

What a declared type means to the binding: a scalar, text, a struct, a class, nothing, or a type
that cannot be carried across and is kept with its spelling.
-/

set_option autoImplicit false

namespace NativeBinding

/-- Scalar kinds, with C sizes and natural alignment. -/
inductive ScalarKind where
  | bool
  | char
  | i8
  | i16
  | i32
  | i64
  | u8
  | u16
  | u32
  | u64
  | f32
  | f64
  deriving DecidableEq, Inhabited, Repr

namespace ScalarKind

/-- The kind of a canonical C spelling. A `long` has 32 bits. -/
def ofSpelling? : String → Option ScalarKind
  | "bool" => some bool
  | "_Bool" => some bool
  | "char" => some char
  | "signed char" => some i8
  | "int8_t" => some i8
  | "unsigned char" => some u8
  | "uint8_t" => some u8
  | "short" => some i16
  | "int16_t" => some i16
  | "unsigned short" => some u16
  | "uint16_t" => some u16
  | "int" => some i32
  | "long" => some i32
  | "int32_t" => some i32
  | "unsigned int" => some u32
  | "unsigned long" => some u32
  | "uint32_t" => some u32
  | "long long" => some i64
  | "int64_t" => some i64
  | "unsigned long long" => some u64
  | "uint64_t" => some u64
  | "size_t" => some u64
  | "float" => some f32
  | "double" => some f64
  | _ => none

/-- Spellings of scalars whose size differs between platforms; they are known but not carried. -/
def isPlatformSized (spelling : String) : Bool :=
  spelling == "long double" || spelling == "wchar_t"

/-- Size in octets, which is also the alignment. -/
def size : ScalarKind → Nat
  | bool | char | i8 | u8 => 1
  | i16 | u16 => 2
  | i32 | u32 | f32 => 4
  | i64 | u64 | f64 => 8

def align (kind : ScalarKind) : Nat :=
  kind.size

def isInteger : ScalarKind → Bool
  | bool | f32 | f64 => false
  | _ => true

def isFloat : ScalarKind → Bool
  | f32 | f64 => true
  | _ => false

/-- The least and greatest integer of an integer kind. -/
def range? : ScalarKind → Option (Int × Int)
  | char | u8 => some (0, 255)
  | i8 => some (-128, 127)
  | i16 => some (-32768, 32767)
  | u16 => some (0, 65535)
  | i32 => some (-2147483648, 2147483647)
  | u32 => some (0, 4294967295)
  | i64 => some (-9223372036854775808, 9223372036854775807)
  | u64 => some (0, 18446744073709551615)
  | bool | f32 | f64 => none

def sourceName : ScalarKind → String
  | bool => "bool"
  | char => "u8"
  | i8 => "i8"
  | i16 => "i16"
  | i32 => "i32"
  | i64 => "i64"
  | u8 => "u8"
  | u16 => "u16"
  | u32 => "u32"
  | u64 => "u64"
  | f32 => "f32"
  | f64 => "f64"

def name : ScalarKind → String
  | char => "char"
  | kind => kind.sourceName

def all : List ScalarKind :=
  [bool, char, i8, i16, i32, i64, u8, u16, u32, u64, f32, f64]

def ofName? (text : String) : Option ScalarKind :=
  all.find? fun kind => kind.name == text

end ScalarKind

inductive TypeRef where
  | scalar (kind : ScalarKind)
  /-- A `char` array carried as text of at most that many octets. -/
  | fixedText (width : Nat)
  /-- A struct of the model, by value or by pointer. -/
  | struct (name : String)
  /-- A pointer to a class of the model. -/
  | object (name : String)
  /-- A pointer to text that ends at a NUL. -/
  | cString
  | void
  /-- A known type without a marshaling rule. -/
  | unsupported (spelling : String)
  deriving DecidableEq, Inhabited

namespace TypeRef

def render : TypeRef → String
  | scalar kind => kind.name
  | fixedText width => "char[" ++ Text.natural width ++ "]"
  | struct name => "struct " ++ name
  | object name => name ++ "*"
  | cString => "char*"
  | void => "void"
  | unsupported spelling => "unsupported(" ++ spelling ++ ")"

/-- Whether a value of the type has a size of its own, so that it may be a struct field. -/
def isFixedLayout : TypeRef → Bool
  | scalar _ | fixedText _ | struct _ => true
  | _ => false

def structName? : TypeRef → Option String
  | struct name => some name
  | _ => none

end TypeRef

end NativeBinding
