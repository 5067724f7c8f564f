import CargoStylus.CLang.Syntax
import CargoStylus.ExportAbi
import CargoStylus.Rust.Bytes
import CargoStylus.Rust.Grouping
import Mathlib.Data.List.Lex

/-!
# C bindings

`cGen` writes a header and a router for the ABI of a contract. The functions of one name are
sorted by signature, the first is declared in C under its name, and each of the others under
its name and its index. The header has a macro with the selector of each function and declares
the function, and the router compares the selector of a call with the macros, one after the
other.
-/

namespace CargoStylus

open Rust
open CLang (parenthesized)

/-! ## The ABI -/

/-- A function of an ABI, with the types of its inputs as its signature has them. -/
structure AbiFunction where
  name : Text
  inputs : List Text
  stateMutability : StateMutability
deriving DecidableEq

/-- `Function::signature`. -/
def AbiFunction.signature (f : AbiFunction) : Text :=
  f.name ++ '(' :: join [','] f.inputs ++ [')']

/-- `Function::selector`, by the signature and as a number. -/
abbrev SelectorOf := Text → U32

/-- `methods`, the functions by their names. -/
def collectMethods (abi : List AbiFunction) : List (Text × List AbiFunction) :=
  groupEntries AbiFunction.name abi

/-- The order of text, which is the order of its characters. -/
def signatureLe (f g : AbiFunction) : Bool :=
  f.signature.map Char.toNat ≤ g.signature.map Char.toNat

/-- `overloads.sort_by_key(|a| a.signature())`. -/
def sortOverloads (overloads : List AbiFunction) : List AbiFunction :=
  overloads.mergeSort signatureLe

/-- The name in C of the overload at an index : the first has the name itself. -/
def cName (simpleName : Text) : ℕ → Text
  | 0 => simpleName
  | x => simpleName ++ '_' :: showNat x

/-- A function and the name it has in C. -/
structure Method where
  cName : Text
  overload : AbiFunction
deriving DecidableEq

/-- The overloads of a name in the order of their signatures, with their names in C. -/
def overloadMethods (simpleName : Text) (overloads : List AbiFunction) : List Method :=
  (sortOverloads overloads).zipIdx.map fun (overload, index) =>
    ⟨CargoStylus.cName simpleName index, overload⟩

/-- The functions in the order in which they are written. -/
def generated (methods : List (Text × List AbiFunction)) : List Method :=
  methods.flatMap fun (simpleName, overloads) => overloadMethods simpleName overloads

/-! ## Parameters and arguments -/

/-- The types of the parameters. -/
inductive CType where
  | constVoidPtr
  | voidPtr
  | bytePtr
  | size
  | bebi32
deriving DecidableEq

/-- A parameter, as it is written. -/
def CType.param : CType → Text
  | constVoidPtr => "const void *storage".toList
  | voidPtr => "void *storage".toList
  | bytePtr => "uint8_t *input".toList
  | size => "size_t len".toList
  | bebi32 => "bebi32 value".toList

/-- The arguments of the calls in the router. -/
inductive CArg where
  | null
  | input
  | len
  | value
deriving DecidableEq

/-- An argument, as it is written. -/
def CArg.text : CArg → Text
  | null => "NULL".toList
  | input => "input".toList
  | len => "len".toList
  | value => "value".toList

namespace StateMutability

/-- The parameters in the header, by what the function may do. -/
def hdrParams : StateMutability → List CType
  | pure => [.bytePtr, .size]
  | view => [.constVoidPtr, .bytePtr, .size]
  | nonPayable => [.voidPtr, .bytePtr, .size]
  | payable => [.voidPtr, .bytePtr, .size, .bebi32]

/-- The arguments that the router calls the function with. -/
def callParams : StateMutability → List CArg
  | pure => [.input, .len]
  | view => [.null, .input, .len]
  | nonPayable => [.null, .input, .len]
  | payable => [.null, .input, .len, .value]

/-- Whether Ether may be sent. -/
def isPayable : StateMutability → Bool
  | payable => true
  | _ => false

end StateMutability

/-! ## The files -/

/-- `SELECTOR_` and the name. -/
def selectorMacro (cName : Text) : Text :=
  ['S', 'E', 'L', 'E', 'C', 'T', 'O', 'R', '_'] ++ cName

/-- `default_func`. -/
def defaultFunc : Text :=
  ['d', 'e', 'f', 'a', 'u', 'l', 't', '_', 'f', 'u', 'n', 'c']

/-- The name of the contract and `_entry`. -/
def contractEntry (contract : Text) : Text :=
  contract ++ ['_', 'e', 'n', 't', 'r', 'y']

/-- The selector's macro and the declaration, with the signature as a comment. -/
def Method.header (selectorOf : SelectorOf) (m : Method) : Text :=
  let sig := m.overload.signature
  "#define ".toList ++ selectorMacro m.cName ++ " 0x".toList ++
    hexEncode (be 4 (selectorOf sig)) ++ " // ".toList ++ sig ++
  "\nArbResult ".toList ++ m.cName ++
    parenthesized (m.overload.stateMutability.hdrParams.map CType.param) ++
    "; // ".toList ++ sig ++ ['\n']

/-- The branch of the router that calls the function. -/
def Method.router (m : Method) : Text :=
  "    if (selector==".toList ++ selectorMacro m.cName ++ ") \x7b\n".toList ++
  (if m.overload.stateMutability.isPayable then []
    else "        if (!bebi32_is_zero(value)) revert();\n".toList) ++
  "        return ".toList ++ m.cName ++
    parenthesized (m.overload.stateMutability.callParams.map CArg.text) ++
    ";\n    \x7d\n".toList

/-- The template of the header. -/
def headerFile (uniq body : Text) : Text :=
  " // autogenerated by cargo-stylus\n#ifndef ".toList ++ uniq ++ "\n#define ".toList ++ uniq ++
  ("\n\n#include <stylus_types.h>\n#include <bebi.h>\n\n" ++
    "#ifdef __cplusplus\nextern \"C\" \x7b\n#endif\n\nArbResult ").toList ++
  defaultFunc ++ "(void *storage, uint8_t *input, size_t len, bebi32 value);\n\n".toList ++ body ++
  "\n\n#ifdef __cplusplus\n\x7d\n#endif\n\n#endif // ".toList ++ uniq ++ ['\n']

/-- The template of the router. -/
def routerFile (contract body : Text) : Text :=
  " // autogenerated by cargo-stylus\n\n#include \"".toList ++ contract ++
  (".h\"\n#include <stylus_types.h>\n#include <stylus_entry.h>\n#include <bebi.h>\n\n\n" ++
    "ArbResult ").toList ++ contractEntry contract ++
  ("(uint8_t *input, size_t len) \x7b\n    bebi32 value;\n    msg_value(value);\n" ++
    "    if (len < 4) \x7b\n        return ").toList ++ defaultFunc ++
  ("(NULL, input, len, value);\n    \x7d\n    uint32_t selector = bebi_get_u32(input, 0);\n" ++
    "    input +=4;\n    len -=4;\n").toList ++ body ++
  "\n    input -=4;\n    len +=4;\n    return ".toList ++ defaultFunc ++
  "(NULL, input, len, value);\n\x7d\n\nENTRYPOINT(".toList ++ contractEntry contract ++
  ")\n".toList

/-- The header and the router, each if there is something to write in it. The lines for the
storage layout are `storage`, and the include guard is `uniq`. -/
def cGen (selectorOf : SelectorOf) (contract uniq storage : Text)
    (methods : List (Text × List AbiFunction)) : Option Text × Option Text :=
  let declarations := (generated methods).flatMap (Method.header selectorOf)
  let header := (if declarations = [] then [] else declarations ++ ['\n']) ++ storage
  let router := (generated methods).flatMap Method.router
  (if header = [] then none else some (headerFile uniq header),
    if router = [] then none else some (routerFile contract router))

end CargoStylus
