import CargoStylus.GenUnit

/-!
# What is compiled of the bindings

The lines of a contract are those of its header and its router, and the names that are macros
are the guard, the macros for selectors and those of the storage layout (`isMacro_iff`). The
lines compile if no name in C is that of a macro, a local variable of the router or something
that is defined elsewhere, and only if (`compiles_of_namesMeanFunctions`,
`namesMeanFunctions_of_compiles`). The name of the fallback is for a function that is declared
like it.
-/

namespace CargoStylus

open Rust CLang

/-! ## The unit of a contract -/

variable (ident : CIdentifier) (sdk : Sdk) (libs : GenLibs) (file contract : String)
  (storageArr : List Json.Value) (ms : List Method)

/-- The router of a contract with its header. -/
def contractUnit : List Item :=
  unitItems libs.selectorOf (uniqueIdentifier libs file contract) contract.toList
    (layoutMacros libs.keccak256 storageArr) ms

/-- The lines of it that are compiled. -/
def contractLines : List Line :=
  preprocess ident sdk.names [] 0 (contractUnit libs file contract storageArr ms)

/-- The macros that the router sees. -/
def contractMacros : Macros :=
  unitMacros ident libs.selectorOf (uniqueIdentifier libs file contract)
    (layoutMacros libs.keccak256 storageArr) ms

/-- The lines that are compiled if the guard is free. -/
def keptLines : List Line :=
  preprocess ident sdk.names [] 0 (keptItems libs.selectorOf (uniqueIdentifier libs file contract)
      (layoutMacros libs.keccak256 storageArr) ms) ++
    (entryItems contract.toList ms).map
      (Line.mk (contractMacros ident libs file contract storageArr ms))

/-- The names that are macros, if the functions have the names in C that `named` has. -/
inductive IsMacro (named : AbiFunction → Text → Prop) : Text → Prop
  | guard : IsMacro named (directiveIdent ident (uniqueIdentifier libs file contract))
  | selector {f : AbiFunction} {c : Text} : named f c → IsMacro named (selectorMacro c)
  | storage {m : StorageMacro} : m ∈ layoutMacros libs.keccak256 storageArr →
    IsMacro named (directiveIdent ident m.name)

/-- The function is written under the name. -/
def Written (f : AbiFunction) (c : Text) : Prop :=
  ⟨c, f⟩ ∈ ms

theorem written_generated {abi : List AbiFunction} {methods : List (Text × List AbiFunction)}
    (h : methods.Perm (collectMethods abi)) : Written (generated methods) = CNameOf abi :=
  funext fun _ => funext fun _ => propext (mem_generated h)

variable {ident sdk libs file contract storageArr ms}

/-! ## Names -/

theorem isIdent_blank : ident.isIdent ' ' = false :=
  ident.ascii ' ' (by decide) (by decide)

theorem directiveIdent_append_blank (name rest : Text) :
    directiveIdent ident (name ++ ' ' :: rest) = directiveIdent ident name :=
  takeWhile_append_cons_of_neg isIdent_blank name rest

theorem directiveIdent_of_chars {name : Text} (h : ∀ c ∈ name, ident.isIdent c = true) :
    directiveIdent ident name = name :=
  List.takeWhile_eq_self_iff.2 h

theorem take_two_directiveIdent {a b : Char} (ha : ident.isIdent a = true)
    (hb : ident.isIdent b = true) (rest : Text) :
    (directiveIdent ident (a :: b :: rest)).take 2 = [a, b] := by
  rw [directiveIdent, List.takeWhile_cons_of_pos ha, List.takeWhile_cons_of_pos hb]
  rfl

theorem isIdent_of_isDigit {c : Char} (h : c.isDigit) : ident.isIdent c = true := by
  have hbound : c.toNat ≤ 57 := (Char.isDigit_iff_toNat.1 h).2
  have hne : c ≠ '$' := by
    rintro rfl
    exact absurd h (by decide)
  rw [ident.ascii c (by omega) hne, Char.isAlphanum, h, Bool.or_true, Bool.true_or]

/-- The name of a function in C is a name. -/
theorem isName_cName {name : Text} (h : IsName ident name) :
    ∀ index, IsName ident (cName name index)
  | 0 => h
  | index + 1 => by
    have hdigits : ∀ c ∈ showNat (index + 1), c.isDigit := fun c hc => isDigit_of_mem_showNat hc
    have hne : showNat (index + 1) ≠ [] := by
      intro hnil
      have hread := readNat_showNat (index + 1)
      rw [hnil] at hread
      cases hread
    refine h.append (fun c hc => ?_) fun k hk hending => ?_
    · rcases List.mem_cons.1 hc with rfl | hc
      · exact ident.isIdent_underscore
      · exact isIdent_of_isDigit (hdigits c hc)
    · have hkeyword : ∀ k ∈ keywords, k.toList.getLast?.all (!·.isDigit) = true := by decide
      obtain ⟨start, hstart⟩ := hending
      have hlast : (showNat (index + 1)).getLast hne ∈ k.toList.getLast? := by
        rw [← hstart, List.getLast?_append, List.getLast?_cons, List.getLast?_eq_some_getLast hne]
        rfl
      have hall := hkeyword k hk
      rw [Option.mem_def.1 hlast, Option.all_some, hdigits _ (List.getLast_mem hne)] at hall
      cases hall

theorem isName_contractEntry {name : Text} (h : IsName ident name) :
    IsName ident (contractEntry name) := by
  have hkeyword : ∀ k ∈ keywords, ¬['_', 'e', 'n', 't', 'r', 'y'] <:+ k.toList := by decide
  exact h.append (fun c hc => ident.isIdent_of_mem (by decide) hc) hkeyword

theorem isName_defaultFunc : IsName ident defaultFunc where
  start := ⟨'d', rfl, by decide⟩
  chars c hc := ident.isIdent_of_mem (by decide) hc
  notKeyword := by decide

/-! ## The macros of a contract -/

/-- What stands for a selector in its macro. -/
def selectorText (selector : U32) : Text :=
  " 0x".toList ++ hexEncode (be 4 selector)

/-- The number in the macro of a selector. -/
theorem readHexNumber_selectorText (selector : U32) :
    readHexNumber (selectorText selector) = some selector.toNat := by
  have htext : selectorText selector = ' ' :: '0' :: 'x' :: hexEncode (be 4 selector) := rfl
  have hlt : selector.toNat < 256 ^ 4 := lt_of_lt_of_eq selector.isLt (by norm_num)
  have hvalue : ofBe (be 4 selector) = selector.toNat :=
    (ofBe_toBe 4 selector.toNat).trans (Nat.mod_eq_of_lt hlt)
  rw [htext, readHexNumber, hexDecode_hexEncode, Option.map_some, hvalue]

/-- The macro that is defined for a selector. -/
theorem macro_selector {c : Text} (hc : ∀ x ∈ c, ident.isIdent x = true) (selector : U32)
    (comment : Option Text) :
    (Item.define (selectorMacro c ++ " 0x".toList ++
      hexEncode (be 4 selector)) comment).definedMacro ident =
        some (selectorMacro c, selectorText selector) := by
  have hname : ∀ x ∈ selectorMacro c, ident.isIdent x = true := by
    intro x hx
    rcases List.mem_append.1 hx with hx | hx
    · exact ident.isIdent_of_mem (by decide) hx
    · exact hc x hx
  have hbody : selectorMacro c ++ " 0x".toList ++ hexEncode (be 4 selector) =
      selectorMacro c ++ ' ' :: (['0', 'x'] ++ hexEncode (be 4 selector)) :=
    List.append_assoc _ _ _
  have hrest : (selectorMacro c ++ ' ' :: (['0', 'x'] ++ hexEncode (be 4 selector))).dropWhile
      ident.isIdent = selectorText selector := by
    rw [List.dropWhile_append_of_pos hname, List.dropWhile_cons_of_neg (by simp [isIdent_blank])]
    rfl
  rw [hbody, Item.definedMacro, directiveIdent_append_blank, directiveIdent_of_chars hname, hrest]

/-- All functions have names that are C identifiers. -/
def Named (ident : CIdentifier) (ms : List Method) : Prop :=
  ∀ m ∈ ms, IsName ident m.cName

/-- The macro of a function, with its selector. -/
def Method.selectorEntry (selectorOf : SelectorOf) (m : Method) : Text × Text :=
  (selectorMacro m.cName, selectorText (selectorOf m.overload.signature))

/-- The macros are the guard, those of the selectors and those of the storage layout. -/
theorem mem_contractMacros (hnamed : Named ident ms) {d : Text × Text} :
    d ∈ contractMacros ident libs file contract storageArr ms ↔
      d = (directiveIdent ident (uniqueIdentifier libs file contract),
          (uniqueIdentifier libs file contract).dropWhile ident.isIdent) ∨
        (∃ m ∈ ms, d = m.selectorEntry libs.selectorOf) ∨
          ∃ m ∈ layoutMacros libs.keccak256 storageArr, m.toItem.definedMacro ident = some d := by
  have hselector : ∀ m ∈ ms, (∃ item ∈ m.headerItems libs.selectorOf,
      item.definedMacro ident = some d) ↔ d = m.selectorEntry libs.selectorOf := by
    intro m hm
    have hmacro := macro_selector (hnamed m hm).chars (libs.selectorOf m.overload.signature)
      (some m.overload.signature)
    refine ⟨fun h => ?_, fun h => ⟨_, List.mem_cons_self, hmacro.trans (congrArg some h.symm)⟩⟩
    obtain ⟨item, hitem, hd⟩ := h
    simp only [Method.headerItems, List.mem_cons, List.not_mem_nil, or_false] at hitem
    rcases hitem with rfl | rfl
    · exact Option.some.inj (hd.symm.trans hmacro)
    · cases hd
  unfold contractMacros
  rw [mem_unitMacros]
  exact or_congr_right (or_congr_left (exists_congr fun m => and_congr_right fun hm =>
    hselector m hm))

theorem directiveIdent_toItem (ident : CIdentifier) (m : StorageMacro) : ∃ value,
    m.toItem.definedMacro ident = some (directiveIdent ident m.name, value) := by
  refine ⟨_, congrArg some (Prod.ext ?_ rfl)⟩
  have hbody : m.name ++ [' '] ++ m.value = m.name ++ ' ' :: m.value := List.append_assoc _ _ _
  exact (congrArg (directiveIdent ident) hbody).trans (directiveIdent_append_blank _ _)

/-- A name is a macro if it is that of the guard, a selector or a part of the layout. -/
theorem isMacro_iff (hnamed : Named ident ms) {n : Text} :
    IsMacro ident libs file contract storageArr (Written ms) n ↔
      n ∈ (contractMacros ident libs file contract storageArr ms).map Prod.fst := by
  rw [List.mem_map]
  refine ⟨fun h => ?_, fun h => ?_⟩
  · cases h with
    | guard => exact ⟨_, (mem_contractMacros hnamed).2 (.inl rfl), rfl⟩
    | @selector f c hm => exact ⟨_, (mem_contractMacros hnamed).2 (.inr (.inl ⟨_, hm, rfl⟩)), rfl⟩
    | @storage m hm =>
      obtain ⟨value, hvalue⟩ := directiveIdent_toItem ident m
      exact ⟨_, (mem_contractMacros hnamed).2 (.inr (.inr ⟨m, hm, hvalue⟩)), rfl⟩
  · obtain ⟨d, hd, rfl⟩ := h
    rcases (mem_contractMacros hnamed).1 hd with rfl | ⟨m, hm, rfl⟩ | ⟨m, hm, hd⟩
    · exact .guard
    · exact .selector (f := m.overload) hm
    · obtain ⟨value, hvalue⟩ := directiveIdent_toItem ident m
      rw [Option.some.inj (hd.symm.trans hvalue)]
      exact .storage hm

theorem take_two_storageMacro {m : StorageMacro}
    (hm : m ∈ layoutMacros libs.keccak256 storageArr) :
    (directiveIdent ident m.name).take 2 = ['S', 'T'] := by
  obtain ⟨v, -, hm⟩ := List.mem_flatMap.1 hm
  have hstart : ∃ rest, m.name = 'S' :: 'T' :: rest := by
    rcases name_of_mem_storageMacros hm with h | h | h <;> exact ⟨_, h⟩
  obtain ⟨rest, hrest⟩ := hstart
  rw [hrest]
  exact take_two_directiveIdent (ident.ascii 'S' (by decide) (by decide))
    (ident.ascii 'T' (by decide) (by decide)) rest

theorem take_two_guard : (directiveIdent ident (uniqueIdentifier libs file contract)).take 2 =
    ['_', '_'] := by
  have hguard : beginning ident (uniqueIdentifier libs file contract) = _ :=
    beginning_uniqueIdentifier
  rw [directiveIdent, ← beginning, hguard]
  rfl

theorem take_two_of_isMacro {named : AbiFunction → Text → Prop} {n : Text}
    (h : IsMacro ident libs file contract storageArr named n) : n.take 2 ∈ macroStarts := by
  cases h with
  | guard => rw [take_two_guard]; decide
  | selector h => simp [selectorMacro, macroStarts]
  | storage hm => rw [take_two_storageMacro hm]; decide

theorem not_isMacro_of_fixed {named : AbiFunction → Text → Prop} {n : Text} (h : n ∈ fixedNames) :
    ¬IsMacro ident libs file contract storageArr named n :=
  fun hmacro => take_two_fixedNames h (take_two_of_isMacro hmacro)

/-- There are no lower case letters in a guard. -/
theorem ne_cplusplus_of_isMacro {named : AbiFunction → Text → Prop} {n : Text}
    (h : IsMacro ident libs file contract storageArr named n) : n ≠ cplusplus := by
  intro heq
  cases h with
  | guard =>
    have hmem : 'c' ∈ directiveIdent ident (uniqueIdentifier libs file contract) := by
      rw [heq]
      decide
    exact not_lower_of_mem_uniqueIdentifier (List.takeWhile_subset _ hmem) (by decide)
  | selector h =>
    have htwo := congrArg (List.take 2) heq
    simp [selectorMacro, cplusplus] at htwo
  | storage hm =>
    have htwo := congrArg (List.take 2) heq
    rw [take_two_storageMacro hm] at htwo
    exact absurd htwo (by decide)

/-! ## The lines of a contract -/

/-- What is compiled if the guard is free. -/
theorem contractLines_eq
    (hguard : directiveIdent ident (uniqueIdentifier libs file contract) ∉ sdk.names)
    (hnamed : Named ident ms) : contractLines ident sdk libs file contract storageArr ms =
      keptLines ident sdk libs file contract storageArr ms := by
  refine preprocess_unitItems hguard fun hmem => ?_
  rcases List.mem_append.1 hmem with hmem | hmem
  · exact ne_cplusplus_of_isMacro ((isMacro_iff hnamed).2 hmem) rfl
  · exact sdk.noCplusplus hmem

section

variable {lines : List Line} (hlines : lines = keptLines ident sdk libs file contract storageArr ms)

include hlines

theorem mem_contractLines {line : Line} (h : line ∈ lines) :
    (line.item ∈ keptItems libs.selectorOf (uniqueIdentifier libs file contract)
        (layoutMacros libs.keccak256 storageArr) ms ∨ line.item ∈ entryItems contract.toList ms) ∧
      line.macros ⊆ contractMacros ident libs file contract storageArr ms := by
  subst hlines
  rcases List.mem_append.1 h with h | h
  · obtain ⟨hitem, hmacros⟩ := mem_preprocess isPlain_keptItems h
    exact ⟨.inl hitem, hmacros⟩
  · obtain ⟨item, hitem, rfl⟩ := List.mem_map.1 h
    exact ⟨.inr hitem, List.Subset.refl _⟩

theorem filterMap_contractLines {β : Type} {read : Item → Option β}
    (hread : ∀ body c, read (.define body c) = none) :
    lines.filterMap (fun line => read line.item) =
      (keptItems libs.selectorOf (uniqueIdentifier libs file contract)
        (layoutMacros libs.keccak256 storageArr) ms).filterMap read ++
        (entryItems contract.toList ms).filterMap read := by
  subst hlines
  rw [keptLines, List.filterMap_append, filterMap_preprocess hread isPlain_keptItems,
    List.filterMap_map]
  rfl

/-- The fallback, the router and the functions are declared. -/
theorem mem_declarations {p : Prototype} : p ∈ declarations lines ↔
    p = prototypeOf defaultFunc .payable ∨
      p = prototypeOf (contractEntry contract.toList) .pure ∨ ∃ m ∈ ms, p = m.prototype := by
  have hstart : unitStart.filterMap Item.declared = [] := rfl
  have htop : (Item.blank :: routerTop).filterMap Item.declared = [] := rfl
  have hstorage : ∀ storage : List StorageMacro,
      (storage.map StorageMacro.toItem).filterMap Item.declared = [] := by
    intro storage
    rw [List.filterMap_map, List.filterMap_eq_nil_iff]
    exact fun _ _ => rfl
  have hmethods : ∀ selectorOf : SelectorOf,
      (ms.flatMap (Method.headerItems selectorOf)).filterMap Item.declared =
        ms.map Method.prototype := by
    intro selectorOf
    rw [List.filterMap_flatMap, List.map_eq_flatMap]
    rfl
  unfold declarations
  rw [filterMap_contractLines hlines fun _ _ => rfl, keptItems, List.filterMap_append,
    List.filterMap_append, List.filterMap_append, hstart, htop, guardedBody,
    List.filterMap_append, List.filterMap_append, filterMap_bodyItems rfl, hmethods, hstorage]
  simp only [guardedStart, entryItems, Item.declared, List.filterMap_cons, List.filterMap_nil,
    List.nil_append, List.append_nil, List.mem_append, List.mem_cons, List.not_mem_nil, or_false,
    List.mem_map]
  constructor
  · rintro ((rfl | ⟨m, hm, rfl⟩) | rfl)
    · exact .inl rfl
    · exact .inr (.inr ⟨m, hm, rfl⟩)
    · exact .inr (.inl rfl)
  · rintro (rfl | rfl | ⟨m, hm, rfl⟩)
    · exact .inl (.inl rfl)
    · exact .inr rfl
    · exact .inl (.inr ⟨m, hm, rfl⟩)

/-- The router is the only function with a body. -/
theorem definitions_eq : definitions lines =
    [(prototypeOf (contractEntry contract.toList) .pure, routerBody ms)] := by
  have hkept : (keptItems libs.selectorOf (uniqueIdentifier libs file contract)
      (layoutMacros libs.keccak256 storageArr) ms).filterMap Item.defined = [] := by
    rw [List.filterMap_eq_nil_iff]
    intro item hitem
    rcases code_keptItems hitem with hcode | rfl | ⟨m, -, rfl⟩
    · cases item with
      | function p body => cases hcode
      | _ => rfl
    · rfl
    · rfl
  unfold definitions
  rw [filterMap_contractLines hlines fun _ _ => rfl, hkept]
  rfl

end

/-! ## When the lines compile -/

theorem calls_branch (m : Method) : m.branch.calls =
    (if m.overload.stateMutability.isPayable then []
      else [⟨bebi32IsZero, [.name valueVar]⟩, ⟨revertName, []⟩]) ++
    [callOf m.cName m.overload.stateMutability] := by
  have hcalls : m.branch.calls = ((if m.overload.stateMutability.isPayable then []
      else [revertUnlessZero]) ++ [Simple.ret (callOf m.cName m.overload.stateMutability)]).flatMap
        Simple.calls := rfl
  rw [hcalls, List.flatMap_append]
  split_ifs <;> rfl

theorem flatMap_calls : (routerBody ms).flatMap Stmt.calls =
    [⟨msgValueName, [.name valueVar]⟩, defaultCall, ⟨bebiGetU32, [.name inputVar, .number 0]⟩] ++
      ms.flatMap (fun m => m.branch.calls) ++ [defaultCall] := by
  rw [routerBody, List.flatMap_append, List.flatMap_append, List.flatMap_map]
  rfl

/-- The router calls the SDK, the fallback and the functions. -/
theorem mem_calls {call : Call} (h : call ∈ (routerBody ms).flatMap Stmt.calls) :
    call.function ∈ [msgValueName, bebi32IsZero, revertName, bebiGetU32] ∨ call = defaultCall ∨
      ∃ m ∈ ms, call = callOf m.cName m.overload.stateMutability := by
  rw [flatMap_calls, List.mem_append, List.mem_append] at h
  rcases h with (h | h) | h
  · simp only [List.mem_cons, List.not_mem_nil, or_false] at h
    rcases h with rfl | rfl | rfl
    · exact .inl (by decide)
    · exact .inr (.inl rfl)
    · exact .inl (by decide)
  · obtain ⟨m, hm, h⟩ := List.mem_flatMap.1 h
    rw [calls_branch, List.mem_append] at h
    rcases h with h | h
    · split_ifs at h
      · cases h
      · simp only [List.mem_cons, List.not_mem_nil, or_false] at h
        rcases h with rfl | rfl <;> exact .inl (by decide)
    · exact .inr (.inr ⟨m, hm, List.mem_singleton.1 h⟩)
  · exact .inr (.inl (List.mem_singleton.1 h))

theorem callOf_mem_calls {m : Method} (hm : m ∈ ms) :
    callOf m.cName m.overload.stateMutability ∈ (routerBody ms).flatMap Stmt.calls := by
  rw [flatMap_calls]
  refine List.mem_append_left _ (List.mem_append_right _ (List.mem_flatMap.2 ⟨m, hm, ?_⟩))
  rw [calls_branch]
  exact List.mem_append_right _ (List.mem_singleton_self _)

theorem defaultCall_mem_calls : defaultCall ∈ (routerBody ms).flatMap Stmt.calls := by
  rw [flatMap_calls]
  exact List.mem_append_right _ (List.mem_singleton_self _)

/-- The names in a declaration. -/
theorem names_prototypeOf {name n : Text} {mutability : StateMutability}
    (h : n ∈ (prototypeOf name mutability).names) : n ∈ fixedNames ∨ n = name := by
  have hparams : ∀ mutability : StateMutability, ∀ n ∈ (mutability.hdrParams.map
      CType.toParam).flatMap Param.names, n ∈ fixedNames := by
    rintro (_ | _ | _ | _) <;> decide
  have hresult : arbResult ∈ fixedNames := by decide
  rcases List.mem_cons.1 h with rfl | h
  · exact .inl hresult
  · rcases List.mem_cons.1 h with rfl | h
    · exact .inr rfl
    · exact .inl (hparams mutability n h)

theorem names_routerBody {n : Text} (h : n ∈ (routerBody ms).flatMap Stmt.names) :
    n ∈ fixedNames ∨ ∃ m ∈ ms, n = m.cName := by
  have hstart : ∀ n ∈ routerStart.flatMap Stmt.names, n ∈ fixedNames := by decide
  have hend : ∀ n ∈ routerEnd.flatMap Stmt.names, n ∈ fixedNames := by decide
  rw [routerBody, List.flatMap_append, List.flatMap_append, List.mem_append, List.mem_append] at h
  rcases h with (h | h) | h
  · exact .inl (hstart n h)
  · rw [List.flatMap_map] at h
    obtain ⟨m, hm, h⟩ := List.mem_flatMap.1 h
    have hnames : m.branch.names = m.branch.calls.map Call.function := rfl
    rw [hnames, calls_branch, List.map_append, List.mem_append] at h
    rcases h with h | h
    · refine .inl ?_
      split_ifs at h
      · cases h
      · have hcalls : ∀ n ∈ [bebi32IsZero, revertName], n ∈ fixedNames := by decide
        exact hcalls n h
    · exact .inr ⟨m, hm, List.mem_singleton.1 h⟩
  · exact .inl (hend n h)

/-- The names in the lines of a contract. -/
theorem names_unit {selectorOf : SelectorOf} {uniq entry : Text} {storage : List StorageMacro}
    {item : Item} {n : Text}
    (hitem : item ∈ keptItems selectorOf uniq storage ms ∨ item ∈ entryItems entry ms)
    (h : n ∈ item.names) :
    n ∈ fixedNames ∨ n = contractEntry entry ∨ ∃ m ∈ ms, n = m.cName := by
  rcases hitem with hitem | hitem
  · rcases code_keptItems hitem with hcode | rfl | ⟨m, hm, rfl⟩
    · rw [Item.names_of_not_isCode hcode] at h
      cases h
    · rcases names_prototypeOf h with h | rfl
      · exact .inl h
      · exact .inl (by decide)
    · rcases names_prototypeOf h with h | rfl
      · exact .inl h
      · exact .inr (.inr ⟨m, hm, rfl⟩)
  · simp only [entryItems, List.mem_cons, List.not_mem_nil, or_false] at hitem
    rcases hitem with rfl | rfl | rfl
    · rcases List.mem_append.1 h with h | h
      · exact (names_prototypeOf h).imp_right .inl
      · exact (names_routerBody h).imp_right .inr
    · cases h
    · simp only [Item.names, List.mem_cons, List.not_mem_nil, or_false] at h
      rcases h with rfl | rfl
      · exact .inl (by decide)
      · exact .inr (.inl rfl)

/-- The parameters and local variables of the router. -/
def routerScope : List Param :=
  [CType.bytePtr.toParam, CType.size.toParam, CType.bebi32.toParam,
    ⟨⟨false, "uint32_t".toList, false⟩, selectorVar⟩]

theorem scope_routerBody (entry : Text) : scope (prototypeOf entry .pure) (routerBody ms) =
    routerScope := by
  have hbranches : (ms.map Method.branch).flatMap Stmt.locals = [] := by
    rw [List.flatMap_eq_nil_iff]
    intro s hs
    obtain ⟨m, -, rfl⟩ := List.mem_map.1 hs
    rfl
  rw [scope, routerBody, List.flatMap_append, List.flatMap_append, hbranches]
  rfl

/-- The arguments that the router passes fit the parameters that are declared. -/
theorem callParams_fit (m : StateMutability) :
    List.Forall₂ (Atom.Fits [nullName] routerScope) (m.callParams.map CArg.toAtom)
      ((m.hdrParams.map CType.toParam).map Param.ty) := by
  have hnull : Atom.Fits [nullName] routerScope CArg.null.toAtom CType.voidPtr.toParam.ty :=
    .null List.mem_cons_self rfl
  have hnullConst : Atom.Fits [nullName] routerScope CArg.null.toAtom
      CType.constVoidPtr.toParam.ty :=
    .null List.mem_cons_self rfl
  have hinput : Atom.Fits [nullName] routerScope CArg.input.toAtom CType.bytePtr.toParam.ty :=
    .variable (by decide)
  have hlen : Atom.Fits [nullName] routerScope CArg.len.toAtom CType.size.toParam.ty :=
    .variable (by decide)
  have hvalue : Atom.Fits [nullName] routerScope CArg.value.toAtom CType.bebi32.toParam.ty :=
    .variable (by decide)
  cases m with
  | pure => exact .cons hinput (.cons hlen .nil)
  | view => exact .cons hnullConst (.cons hinput (.cons hlen .nil))
  | nonPayable => exact .cons hnull (.cons hinput (.cons hlen .nil))
  | payable => exact .cons hnull (.cons hinput (.cons hlen (.cons hvalue .nil)))

/-- The parameters tell mutabilities apart. -/
theorem params_injective {a b : StateMutability}
    (h : (a.hdrParams.map CType.toParam).map Param.ty =
      (b.hdrParams.map CType.toParam).map Param.ty) : a = b := by
  have hall : ∀ a b : StateMutability, (a.hdrParams.map CType.toParam).map Param.ty =
      (b.hdrParams.map CType.toParam).map Param.ty → a = b := by
    rintro (_ | _ | _ | _) (_ | _ | _ | _) <;> decide
  exact hall a b h

theorem contractEntry_ne_defaultFunc (name : Text) : contractEntry name ≠ defaultFunc := by
  intro h
  have hlast := congrArg List.getLast? h
  simp [defaultFunc, contractEntry] at hlast

/-- The local variables of the router. -/
def routerLocals : List Text :=
  routerScope.map Param.name

/-- With the names in C that `named` has, no name stands for something else where it is used. -/
structure NamesMeanFunctions (ident : CIdentifier) (sdk : Sdk) (libs : GenLibs)
    (file contract : String) (storageArr : List Json.Value)
    (named : AbiFunction → Text → Prop) : Prop where
  entry : contractEntry contract.toList ∉ sdk.names ∧
    ¬IsMacro ident libs file contract storageArr named (contractEntry contract.toList)
  free {f : AbiFunction} {c : Text} : named f c →
    c ∉ routerLocals ∧ c ∉ sdk.names ∧ c ≠ contractEntry contract.toList
  noMacro {f : AbiFunction} {c : Text} : named f c →
    ¬IsMacro ident libs file contract storageArr named c
  default {f : AbiFunction} : named f defaultFunc → f.stateMutability = .payable

section

variable {lines : List Line} (hlines : lines = keptLines ident sdk libs file contract storageArr ms)

include hlines

/-- If the lines compile, no name in C stands for something else. -/
theorem namesMeanFunctions_of_compiles (hnamed : Named ident ms)
    (h : Compiles ident sdk.names [nullName] lines)
    (hdefined : ∀ m ∈ ms, ∀ f ∈ definitions lines, f.1.name ≠ m.cName) :
    NamesMeanFunctions ident sdk libs file contract storageArr (Written ms) := by
  have hfunction : ⟨contractMacros ident libs file contract storageArr ms, .function
      (prototypeOf (contractEntry contract.toList) .pure) (routerBody ms)⟩ ∈ lines := by
    rw [hlines]
    exact List.mem_append_right _ (List.mem_map_of_mem List.mem_cons_self)
  have hnoMacro : ∀ n ∈ (Item.function (prototypeOf (contractEntry contract.toList) .pure)
      (routerBody ms)).names, ¬IsMacro ident libs file contract storageArr (Written ms) n :=
    fun n hn hmacro => h.noMacro _ hfunction n hn ((isMacro_iff hnamed).1 hmacro)
  have hcalls : ∀ call ∈ (routerBody ms).flatMap Stmt.calls, call.function ∉ routerLocals := by
    intro call hcall
    have hscope := (h.calls _ (definitions_eq hlines ▸ List.mem_singleton_self _) call hcall).1
    rwa [scope_routerBody] at hscope
  refine ⟨⟨?_, hnoMacro _ ?_⟩, fun {f c} hm => ⟨?_, ?_, ?_⟩, fun {f c} hm => hnoMacro c ?_,
    fun {f} hm => ?_⟩
  · exact (h.free _ ((mem_declarations hlines).2 (.inr (.inl rfl)))).2
  · exact List.mem_append_left _ (List.mem_cons_of_mem _ List.mem_cons_self)
  · exact hcalls _ (callOf_mem_calls hm)
  · exact (h.free _ ((mem_declarations hlines).2 (.inr (.inr ⟨_, hm, rfl⟩)))).2
  · exact (hdefined _ hm _ (definitions_eq hlines ▸ List.mem_singleton_self _)).symm
  · refine List.mem_append_right _ ?_
    obtain ⟨s, hs, hcall⟩ := List.mem_flatMap.1 (callOf_mem_calls hm)
    exact List.mem_flatMap.2 ⟨s, hs, List.mem_append_right _ (List.mem_map_of_mem hcall)⟩
  · have hagree := h.agree _ ((mem_declarations hlines).2 (.inr (.inr ⟨_, hm, rfl⟩))) _
      ((mem_declarations hlines).2 (.inl rfl)) rfl
    exact params_injective hagree.2

/-- Declarations of one name are the same. -/
theorem eq_of_mem_declarations (hnodup : (ms.map Method.cName).Nodup)
    (h : NamesMeanFunctions ident sdk libs file contract storageArr (Written ms)) {p q : Prototype}
    (hp : p ∈ declarations lines) (hq : q ∈ declarations lines) (hname : p.name = q.name) :
    p = q := by
  have hentry := contractEntry_ne_defaultFunc contract.toList
  have hdefault : ∀ m ∈ ms, m.cName = defaultFunc →
      m.prototype = prototypeOf defaultFunc .payable := by
    rintro ⟨c, f⟩ hm rfl
    exact congrArg (prototypeOf defaultFunc) (h.default hm)
  rcases (mem_declarations hlines).1 hp with rfl | rfl | ⟨m, hm, rfl⟩ <;>
    rcases (mem_declarations hlines).1 hq with rfl | rfl | ⟨m', hm', rfl⟩
  · rfl
  · exact absurd hname.symm hentry
  · exact (hdefault m' hm' hname.symm).symm
  · exact absurd hname hentry
  · rfl
  · exact absurd hname.symm (h.free (f := m'.overload) hm').2.2
  · exact hdefault m hm hname
  · exact absurd hname (h.free (f := m.overload) hm).2.2
  · rw [List.inj_on_of_nodup_map hnodup hm hm' hname]

/-- With different names in C that stand for nothing else the lines compile. -/
theorem compiles_of_namesMeanFunctions (hnamed : Named ident ms)
    (hcontract : IsName ident contract.toList) (hnodup : (ms.map Method.cName).Nodup)
    (h : NamesMeanFunctions ident sdk libs file contract storageArr (Written ms)) :
    Compiles ident sdk.names [nullName] lines where
  noMacro line hline n hn hmem := by
    obtain ⟨hitem, hmacros⟩ := mem_contractLines hlines hline
    have hmacro := (isMacro_iff hnamed).2 (List.map_subset _ hmacros hmem)
    rcases names_unit hitem hn with hfixed | rfl | ⟨m, hm, rfl⟩
    · exact not_isMacro_of_fixed hfixed hmacro
    · exact h.entry.2 hmacro
    · exact h.noMacro (f := m.overload) hm hmacro
  noLinkage line hline t ht := by
    obtain ⟨hitem, -⟩ := mem_contractLines hlines hline
    rw [ht] at hitem
    rcases hitem with hitem | hitem
    · rcases code_keptItems hitem with hcode | hcode | ⟨m, -, hcode⟩ <;> cases hcode
    · simp [entryItems] at hitem
  free p hp := by
    rcases (mem_declarations hlines).1 hp with rfl | rfl | ⟨m, hm, rfl⟩
    · exact ⟨isName_defaultFunc, sdk.noDefaultFunc⟩
    · exact ⟨isName_contractEntry hcontract, h.entry.1⟩
    · exact ⟨hnamed m hm, (h.free (f := m.overload) hm).2.1⟩
  agree p hp q hq hname := by
    rw [eq_of_mem_declarations hlines hnodup h hp hq hname]
    exact ⟨rfl, rfl⟩
  calls f hf call hcall := by
    rw [definitions_eq hlines, List.mem_singleton] at hf
    subst hf
    rw [scope_routerBody]
    rcases mem_calls hcall with hsdk | rfl | ⟨m, hm, rfl⟩
    · have hused : ∀ n ∈ [msgValueName, bebi32IsZero, revertName, bebiGetU32], n ∈ sdkNames := by
        decide
      refine ⟨?_, .inl (sdk.used _ (hused _ hsdk))⟩
      have hlocal : ∀ n ∈ [msgValueName, bebi32IsZero, revertName, bebiGetU32],
        n ∉ routerScope.map Param.name := by decide
      exact hlocal _ hsdk
    · refine ⟨by decide, .inr ⟨_, (mem_declarations hlines).2 (.inl rfl), rfl, ?_⟩⟩
      exact callParams_fit .payable
    · refine ⟨(h.free (f := m.overload) hm).1, .inr ⟨_, (mem_declarations hlines).2
        (.inr (.inr ⟨m, hm, rfl⟩)), rfl, ?_⟩⟩
      exact callParams_fit m.overload.stateMutability

end

end CargoStylus
