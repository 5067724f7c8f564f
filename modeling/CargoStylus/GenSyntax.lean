import CargoStylus.GenNames
import CargoStylus.StorageLayout

/-!
# The bindings as C

The header and the router of a contract, item by item (`headerItems`, `routerItems`). Their
text is what `cGen` writes, each file if there is something to write in it (`cGen_eq`).
-/

namespace CargoStylus

open Rust CLang

variable {selectorOf : SelectorOf} {methods : List (Text × List AbiFunction)}

/-! ## Names -/

/-- The type `ArbResult` of results. -/
def arbResult : Text :=
  ['A', 'r', 'b', 'R', 'e', 's', 'u', 'l', 't']

/-- The type `bebi32` of words. -/
def bebi32 : Text :=
  ['b', 'e', 'b', 'i', '3', '2']

/-- The variable `input`. -/
def inputVar : Text :=
  ['i', 'n', 'p', 'u', 't']

/-- The variable `len`. -/
def lenVar : Text :=
  ['l', 'e', 'n']

/-- The variable `value`. -/
def valueVar : Text :=
  ['v', 'a', 'l', 'u', 'e']

/-- The variable `selector`. -/
def selectorVar : Text :=
  ['s', 'e', 'l', 'e', 'c', 't', 'o', 'r']

/-- The constant `NULL`. -/
def nullName : Text :=
  ['N', 'U', 'L', 'L']

/-- The function `msg_value`, which sets a word to the value that is sent. -/
def msgValueName : Text :=
  ['m', 's', 'g', '_', 'v', 'a', 'l', 'u', 'e']

/-- The function `bebi32_is_zero`. -/
def bebi32IsZero : Text :=
  ['b', 'e', 'b', 'i', '3', '2', '_', 'i', 's', '_', 'z', 'e', 'r', 'o']

/-- The function `revert`, which does not return. -/
def revertName : Text :=
  ['r', 'e', 'v', 'e', 'r', 't']

/-- The function `bebi_get_u32`, which reads four bytes. -/
def bebiGetU32 : Text :=
  ['b', 'e', 'b', 'i', '_', 'g', 'e', 't', '_', 'u', '3', '2']

/-- The macro `ENTRYPOINT`. -/
def entrypoint : Text :=
  ['E', 'N', 'T', 'R', 'Y', 'P', 'O', 'I', 'N', 'T']

/-- The macro `__cplusplus` of other compilers. -/
def cplusplus : Text :=
  ['_', '_', 'c', 'p', 'l', 'u', 's', 'p', 'l', 'u', 's']

/-! ## Declarations and calls -/

/-- The parameter that `CType.param` is the text of. -/
def CType.toParam : CType → Param
  | constVoidPtr => ⟨⟨true, "void".toList, true⟩, "storage".toList⟩
  | voidPtr => ⟨⟨false, "void".toList, true⟩, "storage".toList⟩
  | bytePtr => ⟨⟨false, "uint8_t".toList, true⟩, inputVar⟩
  | size => ⟨⟨false, "size_t".toList, false⟩, lenVar⟩
  | bebi32 => ⟨⟨false, CargoStylus.bebi32, false⟩, valueVar⟩

theorem CType.text_toParam : ∀ t : CType, t.toParam.text = t.param
  | constVoidPtr => by decide
  | voidPtr => by decide
  | bytePtr => by decide
  | size => by decide
  | bebi32 => by decide

/-- The argument that `CArg.text` is the text of. -/
def CArg.toAtom : CArg → Atom
  | null => .name nullName
  | input => .name inputVar
  | len => .name lenVar
  | value => .name valueVar

theorem CArg.text_toAtom : ∀ a : CArg, a.toAtom.text = a.text
  | null => rfl
  | input => rfl
  | len => rfl
  | value => rfl

/-- The declaration of a function that takes what functions of the mutability take. -/
def prototypeOf (name : Text) (mutability : StateMutability) : Prototype :=
  ⟨arbResult, name, mutability.hdrParams.map CType.toParam⟩

/-- The call of such a function. -/
def callOf (name : Text) (mutability : StateMutability) : Call :=
  ⟨name, mutability.callParams.map CArg.toAtom⟩

theorem text_prototypeOf (name : Text) (mutability : StateMutability) :
    (prototypeOf name mutability).text = "ArbResult ".toList ++ name ++
      parenthesized (mutability.hdrParams.map CType.param) := by
  have hparams : (mutability.hdrParams.map CType.toParam).map Param.text =
      mutability.hdrParams.map CType.param := by
    rw [List.map_map]
    exact List.map_congr_left fun t _ => t.text_toParam
  have hresult : "ArbResult ".toList = arbResult ++ [' '] := by decide
  rw [Prototype.text, prototypeOf, hparams, hresult]

theorem text_callOf (name : Text) (mutability : StateMutability) :
    (callOf name mutability).text = name ++
      parenthesized (mutability.callParams.map CArg.text) := by
  have hargs : (mutability.callParams.map CArg.toAtom).map Atom.text =
      mutability.callParams.map CArg.text := by
    rw [List.map_map]
    exact List.map_congr_left fun a _ => a.text_toAtom
  rw [Call.text, callOf, hargs]

/-! ## The header -/

/-- The declaration of a function. -/
def Method.prototype (m : Method) : Prototype :=
  prototypeOf m.cName m.overload.stateMutability

/-- The macro with the selector, and the declaration. -/
def Method.headerItems (selectorOf : SelectorOf) (m : Method) : List Item :=
  [.define (selectorMacro m.cName ++ " 0x".toList ++
      hexEncode (be 4 (selectorOf m.overload.signature))) (some m.overload.signature),
    .prototype m.prototype (some m.overload.signature)]

theorem Method.text_headerItems (selectorOf : SelectorOf) (m : Method) :
    fileText (m.headerItems selectorOf) = m.header selectorOf := by
  unfold Method.headerItems Method.header Method.prototype
  simp only [fileText_cons, fileText_nil, Item.text, lineEnd, text_prototypeOf,
    String.reduceToList, List.append_assoc, List.cons_append, List.nil_append, List.append_nil]

/-- The macro for a part of the storage layout. -/
def StorageMacro.toItem (m : StorageMacro) : Item :=
  .define (m.name ++ [' '] ++ m.value) (some m.valType)

theorem StorageMacro.text_toItem (m : StorageMacro) : m.toItem.text = m.text := by
  unfold StorageMacro.toItem StorageMacro.text
  simp only [Item.text, lineEnd, String.reduceToList, List.append_assoc, List.cons_append,
    List.nil_append]

/-- What the header has of the functions and of the storage layout. -/
def bodyItems (selectorOf : SelectorOf) (storage : List StorageMacro) (ms : List Method) :
    List Item :=
  (if ms = [] then [] else ms.flatMap (Method.headerItems selectorOf) ++ [.blank]) ++
    storage.map StorageMacro.toItem

/-- What stands between `#ifdef __cplusplus` and `#endif`. -/
def forCplusplus (text : Text) : List Item :=
  [.ifdef cplusplus, .linkage text, .endif none]

/-- The first lines of both files say this. -/
def generatedBy : Text :=
  "autogenerated by cargo-stylus".toList

/-- What the header has before its declarations. -/
def headerTop : List Item :=
  [.blank, .inclusion "<stylus_types.h>".toList, .inclusion "<bebi.h>".toList, .blank] ++
    forCplusplus "extern \"C\" \x7b".toList ++ [.blank]

/-- What the header has behind its declarations. -/
def headerBottom : List Item :=
  [.blank, .blank] ++ forCplusplus "\x7d".toList ++ [.blank]

/-- The whole header. -/
def headerItems (selectorOf : SelectorOf) (uniq : Text) (storage : List StorageMacro)
    (ms : List Method) : List Item :=
  [.comment generatedBy, .ifndef uniq, .define uniq none] ++ headerTop ++
    [.prototype (prototypeOf defaultFunc .payable) none, .blank] ++
    bodyItems selectorOf storage ms ++ headerBottom ++ [.endif (some uniq)]

/-! ## The router -/

/-- `if (!bebi32_is_zero(value)) revert();` -/
def revertUnlessZero : Simple :=
  .guarded (.not ⟨bebi32IsZero, [.name valueVar]⟩) ⟨revertName, []⟩

/-- The branch of a function. -/
def Method.branch (m : Method) : Stmt :=
  .block (.equal (.name selectorVar) (.name (selectorMacro m.cName)))
    ((if m.overload.stateMutability.isPayable then [] else [revertUnlessZero]) ++
      [.ret (callOf m.cName m.overload.stateMutability)])

theorem Method.text_branch (m : Method) : m.branch.text = m.router := by
  have hif : "    if (selector==".toList = indent ++ ['i', 'f', ' ', '('] ++ selectorVar ++
      ['=', '='] := by decide
  have hbrace : ") \x7b\n".toList = [')', ' ', '{', '\n'] := by decide
  have hrevert : "        if (!bebi32_is_zero(value)) revert();\n".toList =
      indent ++ indent ++ revertUnlessZero.text ++ ['\n'] := by decide
  have hreturn : "        return ".toList = indent ++ indent ++
      ['r', 'e', 't', 'u', 'r', 'n', ' '] := by decide
  have hend : ";\n    \x7d\n".toList = [';'] ++ ['\n'] ++ indent ++ ['}', '\n'] := by decide
  unfold Method.branch Method.router
  rw [hif, hbrace, hrevert, hreturn, hend, Stmt.text, Cond.text,
    Atom.text, Atom.text, List.flatMap_append, List.flatMap_singleton, Simple.text, text_callOf]
  cases m.overload.stateMutability.isPayable <;>
    simp only [if_true, if_false, Bool.false_eq_true, List.flatMap_singleton, List.flatMap_nil,
      List.append_assoc, List.nil_append]

/-- The call of the fallback. -/
def defaultCall : Call :=
  callOf defaultFunc .payable

/-- What the router does before its branches. -/
def routerStart : List Stmt :=
  [.declare CType.bebi32.toParam, .simple (.call ⟨msgValueName, [.name valueVar]⟩),
    .block (.less (.name lenVar) (.number 4)) [.ret defaultCall],
    .init ⟨⟨false, "uint32_t".toList, false⟩, selectorVar⟩
      ⟨bebiGetU32, [.name inputVar, .number 0]⟩,
    .add inputVar 4, .sub lenVar 4]

/-- What the router does if no branch is taken. -/
def routerEnd : List Stmt :=
  [.blank, .sub inputVar 4, .add lenVar 4, .simple (.ret defaultCall)]

/-- The body of the router's function. -/
def routerBody (ms : List Method) : List Stmt :=
  routerStart ++ ms.map Method.branch ++ routerEnd

/-- The header, as the router includes it. -/
def headerInclusion (contract : Text) : Text :=
  "\"".toList ++ contract ++ ".h\"".toList

/-- What the router includes behind the header. -/
def routerTop : List Item :=
  [.inclusion "<stylus_types.h>".toList, .inclusion "<stylus_entry.h>".toList,
    .inclusion "<bebi.h>".toList, .blank, .blank]

/-- The whole router. -/
def routerItems (contract : Text) (ms : List Method) : List Item :=
  [.comment generatedBy, .blank, .inclusion (headerInclusion contract)] ++ routerTop ++
    [.function (prototypeOf (contractEntry contract) .pure) (routerBody ms), .blank,
      .invoke entrypoint (contractEntry contract)]

/-! ## The text -/

theorem text_bodyItems (storage : List StorageMacro) (ms : List Method) :
    fileText (bodyItems selectorOf storage ms) =
      (if ms.flatMap (Method.header selectorOf) = [] then []
        else ms.flatMap (Method.header selectorOf) ++ ['\n']) ++
      storage.flatMap StorageMacro.text := by
  have hmethods : fileText (ms.flatMap (Method.headerItems selectorOf)) =
      ms.flatMap (Method.header selectorOf) := by
    unfold fileText
    rw [List.flatMap_assoc]
    exact List.flatMap_congr fun m _ => m.text_headerItems selectorOf
  have hstorage : fileText (storage.map StorageMacro.toItem) =
      storage.flatMap StorageMacro.text := by
    unfold fileText
    rw [List.flatMap_map]
    exact List.flatMap_congr fun m _ => m.text_toItem
  have hblank : Item.blank.text = ['\n'] := by decide
  unfold bodyItems
  rw [fileText_append, hstorage]
  simp only [flatMap_header_eq_nil_iff]
  split_ifs
  · rw [fileText_nil]
  · rw [fileText_append, hmethods, fileText_cons, fileText_nil, List.append_nil, hblank]

theorem text_headerItems (uniq : Text) (storage : List StorageMacro) (ms : List Method) :
    fileText (headerItems selectorOf uniq storage ms) =
      headerFile uniq (fileText (bodyItems selectorOf storage ms)) := by
  have hifndef : " // autogenerated by cargo-stylus\n#ifndef ".toList =
      (Item.comment generatedBy).text ++ ['#', 'i', 'f', 'n', 'd', 'e', 'f', ' '] := by decide
  have hdefine : "\n#define ".toList =
      ['\n'] ++ ['#', 'd', 'e', 'f', 'i', 'n', 'e', ' '] := by decide
  have htop : ("\n\n#include <stylus_types.h>\n#include <bebi.h>\n\n" ++
      "#ifdef __cplusplus\nextern \"C\" \x7b\n#endif\n\nArbResult ").toList =
      ['\n'] ++ fileText headerTop ++ arbResult ++ [' '] := by decide
  have hdefault : "(void *storage, uint8_t *input, size_t len, bebi32 value);\n\n".toList =
      parenthesized (StateMutability.payable.hdrParams.map CType.param) ++ [';'] ++ ['\n'] ++
        Item.blank.text := by decide
  have hbottom : "\n\n#ifdef __cplusplus\n\x7d\n#endif\n\n#endif // ".toList =
      fileText headerBottom ++ ['#', 'e', 'n', 'd', 'i', 'f'] ++ [' ', '/', '/', ' '] := by decide
  have hresult : "ArbResult ".toList = arbResult ++ [' '] := by decide
  unfold headerItems headerFile
  rw [hifndef, hdefine, htop, hdefault, hbottom]
  simp only [fileText_append, fileText_cons, fileText_nil]
  rw [Item.text_ifndef, Item.text_define, Item.text_prototype, Item.text_endif, lineEnd, lineEnd,
    text_prototypeOf, hresult]
  simp only [List.append_assoc, List.append_nil]

set_option maxRecDepth 2000 in
theorem text_routerItems (contract : Text) (ms : List Method) :
    fileText (routerItems contract ms) = routerFile contract (ms.flatMap Method.router) := by
  have hbranches : (ms.map Method.branch).flatMap Stmt.text = ms.flatMap Method.router := by
    rw [List.flatMap_map]
    exact List.flatMap_congr fun m _ => m.text_branch
  have hinclude : " // autogenerated by cargo-stylus\n\n#include \"".toList =
      (Item.comment generatedBy).text ++ Item.blank.text ++
        ['#', 'i', 'n', 'c', 'l', 'u', 'd', 'e', ' '] ++ "\"".toList := by decide
  have htop :
      (".h\"\n#include <stylus_types.h>\n#include <stylus_entry.h>\n#include <bebi.h>\n\n\n" ++
        "ArbResult ").toList =
      ".h\"".toList ++ ['\n'] ++ fileText routerTop ++ arbResult ++ [' '] := by decide
  have hparams : ("(uint8_t *input, size_t len) \x7b\n    bebi32 value;\n    msg_value(value);\n" ++
      "    if (len < 4) \x7b\n        return ").toList ++ defaultFunc ++
      ("(NULL, input, len, value);\n    \x7d\n    uint32_t selector = bebi_get_u32(input, 0);\n" ++
        "    input +=4;\n    len -=4;\n").toList =
      parenthesized (StateMutability.pure.hdrParams.map CType.param) ++ [' ', '{', '\n'] ++
        routerStart.flatMap Stmt.text := by decide
  have hend : "\n    input -=4;\n    len +=4;\n    return ".toList ++ defaultFunc ++
      "(NULL, input, len, value);\n\x7d\n\nENTRYPOINT(".toList =
      routerEnd.flatMap Stmt.text ++ ['}', '\n'] ++ Item.blank.text ++ entrypoint ++ ['('] := by
    decide
  have hsplit : ∀ a b c d e f g h i j : Text, a ++ contract ++ b ++ e ++ c ++ f ++ d ++ g ++ h ++
      f ++ i ++ e ++ j = a ++ contract ++ b ++ e ++ (c ++ f ++ d) ++ g ++ (h ++ f ++ i) ++ e ++
        j := by
    intro a b c d e f g h i j
    simp only [List.append_assoc]
  unfold routerItems routerFile routerBody
  rw [hsplit, hinclude, htop, hparams, hend]
  simp only [fileText_append, fileText_cons, fileText_nil]
  have hresult : "ArbResult ".toList = arbResult ++ [' '] := by decide
  have hinvoke : ")\n".toList = [')', '\n'] := by decide
  rw [Item.text_inclusion, Item.text_function, Item.text_invoke, text_prototypeOf, hresult, hinvoke,
    headerInclusion, List.flatMap_append, List.flatMap_append, hbranches]
  simp only [List.append_assoc, List.append_nil]

/-- The header is the text of its items, and so is the router. There is a header if there are
functions or storage macros, and a router if there are functions. -/
theorem cGen_eq (contract uniq : Text) (storage : List StorageMacro) :
    cGen selectorOf contract uniq (storage.flatMap StorageMacro.text) methods =
      (if generated methods = [] ∧ storage = [] then none
        else some (fileText (headerItems selectorOf uniq storage (generated methods))),
        if generated methods = [] then none
        else some (fileText (routerItems contract (generated methods)))) := by
  have hstorage : storage.flatMap StorageMacro.text = [] ↔ storage = [] := by
    refine ⟨fun h => List.eq_nil_iff_forall_not_mem.2 fun m hm => ?_, fun h => by rw [h]; rfl⟩
    have hmacro := List.flatMap_eq_nil_iff.1 h m hm
    unfold StorageMacro.text at hmacro
    exact absurd (List.append_eq_nil_iff.1 hmacro).2 (List.cons_ne_nil _ _)
  have hbody : (if (generated methods).flatMap (Method.header selectorOf) = [] then []
      else (generated methods).flatMap (Method.header selectorOf) ++ ['\n']) ++
        storage.flatMap StorageMacro.text = [] ↔ generated methods = [] ∧ storage = [] := by
    rw [List.append_eq_nil_iff, hstorage, ← @flatMap_header_eq_nil_iff selectorOf]
    refine and_congr_left' ?_
    split_ifs with hnil
    · exact iff_of_true rfl hnil
    · exact iff_of_false (by simp) hnil
  unfold cGen
  dsimp only
  simp only [hbody, flatMap_router_eq_nil_iff]
  rw [text_headerItems, text_bodyItems, text_routerItems]

end CargoStylus
