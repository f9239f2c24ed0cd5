import NativeBinding.Text.Blank

/-! # Templates

Texts with placeholders, a dollar sign and a key each. Keys are replaced one after another over the
whole text, longer ones first, so that a key never takes the beginning of a longer one.
-/

set_option autoImplicit false

namespace NativeBinding.Source

/-- Replaces every occurrence of a pattern from the left. The first argument counts characters of
the last occurrence that are still to be dropped. -/
def replaceFrom (pattern value : List Char) : Nat → List Char → List Char
  | _, [] => []
  | skip + 1, _ :: rest => replaceFrom pattern value skip rest
  | 0, c :: rest =>
    if pattern.isPrefixOf (c :: rest) then
      value ++ replaceFrom pattern value (pattern.length - 1) rest
    else c :: replaceFrom pattern value 0 rest

def comesFirst (a b : String × String) : Bool :=
  b.1.utf8ByteSize < a.1.utf8ByteSize || (a.1.utf8ByteSize == b.1.utf8ByteSize && !(b.1 < a.1))

/-- Fills a template. Text that one key put in is open to the keys after it. -/
def fill (template : String) (values : List (String × String)) : String :=
  String.ofList
    ((values.mergeSort comesFirst).foldl
      (fun text entry => replaceFrom ('$' :: entry.1.toList) entry.2.toList 0 text)
      template.toList)

def lines (texts : List String) : String :=
  String.join (texts.map (· ++ "\n"))

/-- The lines that bring names into the scope of a file. -/
def importLines : List String :=
  ["use std::sync::Arc;",
   "",
   "use spibind_bridge::\x7bApiObject, BridgeError, CallError, LoadedModule, ScriptObject, SpiObject\x7d;",
   "use spibind_marshal::\x7bRecord, Value\x7d;",
   ""]

def moduleTemplate : String :=
  lines
    (["//! Bindings for the `$library` native library, module `$module_name`.",
      "//!",
      "//! Generated by spibind $generator_version from declarations $model_fingerprint.",
      "//! Do not edit: regenerate with `spibind generate`.",
      "",
      "#![allow(dead_code, unused_imports, non_upper_case_globals, clippy::all)]",
      ""] ++ importLines ++
     ["$includes",
      "",
      "$classes_generator_definitions",
      "",
      "$module_body"])

def chunkTemplate : String :=
  lines
    (["//! Part of module `$module_name`. Generated by spibind; do not edit.",
      ""] ++ importLines ++
     ["$classes_generator_definitions"])

end NativeBinding.Source
