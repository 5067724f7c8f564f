import CargoStylus.GenGuards
import CargoStylus.GenSyntax

/-!
# The bindings as a compiler reads them

The router includes its header. If the guard of the header is free the preprocessor keeps both,
apart from what is for C++ (`preprocess_unitItems`), and the macros are the guard, the selectors
and those of the storage layout (`mem_unitMacros`). If it is not, nothing of the header is kept
(`preprocess_guarded`).
-/

namespace CargoStylus

open Rust CLang

/-! ## The names the files use -/

/-- What the files use of the included ones. -/
def sdkNames : List Text :=
  [arbResult, "uint8_t".toList, "uint32_t".toList, "size_t".toList, bebi32, nullName, msgValueName,
    bebi32IsZero, revertName, bebiGetU32, entrypoint]

/-- The names that the compiler, `stylus_types.h`, `stylus_entry.h` and `bebi.h` define. The
files are compiled as C. -/
structure Sdk where
  names : List Text
  used : ∀ n ∈ sdkNames, n ∈ names
  noDefaultFunc : defaultFunc ∉ names
  noCplusplus : cplusplus ∉ names

/-- The names that are in the files of every contract. -/
def fixedNames : List Text :=
  [arbResult, "void".toList, "uint8_t".toList, "uint32_t".toList, "size_t".toList, bebi32,
    "storage".toList, inputVar, lenVar, valueVar, selectorVar, msgValueName, bebi32IsZero,
    revertName, bebiGetU32, entrypoint, defaultFunc]

/-- How the names of macros begin. -/
def macroStarts : List Text :=
  [['_', '_'], ['S', 'E'], ['S', 'T']]

theorem take_two_fixedNames {n : Text} (h : n ∈ fixedNames) : n.take 2 ∉ macroStarts := by
  have hall : ∀ n ∈ fixedNames, n.take 2 ∉ macroStarts := by decide
  exact hall n h

/-! ## The unit -/

variable (selectorOf : SelectorOf) (uniq contract : Text) (storage : List StorageMacro)
  (ms : List Method)

/-- The router with the header that it includes. -/
def unitItems : List Item :=
  includeHeader (headerInclusion contract) (headerItems selectorOf uniq storage ms)
    (routerItems contract ms)

/-- The lines before the guard. -/
def unitStart : List Item :=
  [.comment generatedBy, .blank, .comment generatedBy]

/-- The lines behind the guard that are for C. -/
def guardedStart : List Item :=
  [.define uniq none, .blank, .inclusion "<stylus_types.h>".toList,
    .inclusion "<bebi.h>".toList, .blank]

/-- The declarations. -/
def guardedBody : List Item :=
  [.blank, .prototype (prototypeOf defaultFunc .payable) none, .blank] ++
    bodyItems selectorOf storage ms ++ [.blank, .blank]

/-- What is kept before the function of the router. -/
def keptItems : List Item :=
  unitStart ++ (guardedStart uniq ++ (guardedBody selectorOf storage ms ++ .blank :: routerTop))

/-- The function of the router, and the macro it is handed to. -/
def entryItems : List Item :=
  [.function (prototypeOf (contractEntry contract) .pure) (routerBody ms), .blank,
    .invoke entrypoint (contractEntry contract)]

/-- The header stands where the router includes it. -/
theorem unitItems_eq : unitItems selectorOf uniq contract storage ms =
    [.comment generatedBy, .blank] ++ headerItems selectorOf uniq storage ms ++
      (routerTop ++ entryItems contract ms) := by
  have hhead : ∀ item ∈ routerTop, ∀ file, item = .inclusion file → file.head? = some '<' := by
    simp [routerTop]
  have htop : ∀ item ∈ routerTop, item ≠ .inclusion (headerInclusion contract) := by
    intro item hitem heq
    have hquote := hhead item hitem _ heq
    simp [headerInclusion] at hquote
  have hrouter : routerItems contract ms = [.comment generatedBy, .blank] ++
      .inclusion (headerInclusion contract) :: (routerTop ++ entryItems contract ms) := rfl
  rw [unitItems, hrouter]
  refine includeHeader_once (fun item hitem => ?_) fun item hitem => ?_
  · simp only [List.mem_cons, List.not_mem_nil, or_false] at hitem
    rcases hitem with rfl | rfl <;> exact Item.noConfusion
  · rcases List.mem_append.1 hitem with hitem | hitem
    · exact htop item hitem
    · simp only [entryItems, List.mem_cons, List.not_mem_nil, or_false] at hitem
      rcases hitem with rfl | rfl | rfl <;> exact Item.noConfusion

variable {selectorOf uniq contract storage ms}

/-- The items of functions and of the storage layout. -/
theorem mem_bodyItems {item : Item} (h : item ∈ bodyItems selectorOf storage ms) :
    item = .blank ∨ (∃ m ∈ ms, item ∈ m.headerItems selectorOf) ∨
      ∃ m ∈ storage, m.toItem = item := by
  rcases List.mem_append.1 h with h | h
  · split_ifs at h
    · cases h
    · rcases List.mem_append.1 h with h | h
      · obtain ⟨m, hm, h⟩ := List.mem_flatMap.1 h
        exact .inr (.inl ⟨m, hm, h⟩)
      · exact .inl (List.mem_singleton.1 h)
  · exact .inr (.inr (List.mem_map.1 h))

theorem isPlain_bodyItems : ∀ item ∈ bodyItems selectorOf storage ms, item.isPlain := by
  intro item hitem
  rcases mem_bodyItems hitem with rfl | ⟨m, -, hitem⟩ | ⟨m, -, rfl⟩
  · rfl
  · simp only [Method.headerItems, List.mem_cons, List.not_mem_nil, or_false] at hitem
    rcases hitem with rfl | rfl <;> rfl
  · rfl

theorem isPlain_unitStart : ∀ item ∈ unitStart, item.isPlain := by
  decide

theorem isPlain_guardedStart : ∀ item ∈ guardedStart uniq, item.isPlain := by
  simp [guardedStart, Item.isPlain]

theorem isPlain_guardedBody : ∀ item ∈ guardedBody selectorOf storage ms, item.isPlain := by
  intro item hitem
  simp only [guardedBody, List.mem_append, List.mem_cons, List.not_mem_nil, or_false] at hitem
  rcases hitem with (hitem | hitem) | hitem
  · rcases hitem with rfl | rfl | rfl <;> rfl
  · exact isPlain_bodyItems item hitem
  · rcases hitem with rfl | rfl <;> rfl

theorem isPlain_routerTop : ∀ item ∈ .blank :: routerTop, item.isPlain := by
  decide

theorem isPlain_keptItems : ∀ item ∈ keptItems selectorOf uniq storage ms, item.isPlain := by
  intro item hitem
  simp only [keptItems, List.mem_append] at hitem
  rcases hitem with hitem | hitem | hitem | hitem
  · exact isPlain_unitStart item hitem
  · exact isPlain_guardedStart item hitem
  · exact isPlain_guardedBody item hitem
  · exact isPlain_routerTop item hitem

theorem isPlain_entryItems : ∀ item ∈ entryItems contract ms, item.isPlain := by
  intro item hitem
  simp only [entryItems, List.mem_cons, List.not_mem_nil, or_false] at hitem
  rcases hitem with rfl | rfl | rfl <;> rfl

/-- The code in the header : the declaration of the fallback, and those of the functions. -/
theorem code_keptItems {item : Item} (h : item ∈ keptItems selectorOf uniq storage ms) :
    item.isCode = false ∨ item = .prototype (prototypeOf defaultFunc .payable) none ∨
      ∃ m ∈ ms, item = .prototype m.prototype (some m.overload.signature) := by
  have hstart : ∀ item ∈ unitStart ++ .blank :: routerTop, item.isCode = false := by decide
  simp only [keptItems, guardedStart, guardedBody, List.mem_append, List.mem_cons,
    List.not_mem_nil, or_false] at h
  rcases h with h | h | ((h | h) | h) | h
  · exact .inl (hstart item (List.mem_append_left _ h))
  · rcases h with rfl | rfl | rfl | rfl | rfl <;> exact .inl rfl
  · rcases h with rfl | rfl | rfl
    · exact .inl rfl
    · exact .inr (.inl rfl)
    · exact .inl rfl
  · rcases mem_bodyItems h with rfl | ⟨m, hm, h⟩ | ⟨m, -, rfl⟩
    · exact .inl rfl
    · simp only [Method.headerItems, List.mem_cons, List.not_mem_nil, or_false] at h
      rcases h with rfl | rfl
      · exact .inl rfl
      · exact .inr (.inr ⟨m, hm, rfl⟩)
    · exact .inl rfl
  · rcases h with rfl | rfl <;> exact .inl rfl
  · exact .inl (hstart item (List.mem_append_right _ (List.mem_cons.2 h)))

/-! ## The macros -/

variable {ident : CIdentifier}

/-- The macros behind the header. -/
def unitMacros (ident : CIdentifier) (selectorOf : SelectorOf) (uniq : Text)
    (storage : List StorageMacro) (ms : List Method) : Macros :=
  macrosAfter ident [] (keptItems selectorOf uniq storage ms)

theorem filterMap_bodyItems {β : Type} {read : Item → Option β} (hblank : read .blank = none) :
    (bodyItems selectorOf storage ms).filterMap read =
      (ms.flatMap (Method.headerItems selectorOf)).filterMap read ++
        (storage.map StorageMacro.toItem).filterMap read := by
  have hnone : [Item.blank].filterMap read = [] := by
    rw [List.filterMap_cons, hblank]
    rfl
  unfold bodyItems
  rw [List.filterMap_append]
  congr 1
  split_ifs with hnil
  · rw [hnil]
    rfl
  · rw [List.filterMap_append, hnone, List.append_nil]

/-- The macros that are defined, in order. -/
theorem filterMap_keptItems :
    (keptItems selectorOf uniq storage ms).filterMap (Item.definedMacro ident) =
    (directiveIdent ident uniq, uniq.dropWhile ident.isIdent) ::
      ((ms.flatMap (Method.headerItems selectorOf)).filterMap (Item.definedMacro ident) ++
        (storage.map StorageMacro.toItem).filterMap (Item.definedMacro ident)) := by
  have hstart : unitStart.filterMap (Item.definedMacro ident) = [] := rfl
  have hguard : (guardedStart uniq).filterMap (Item.definedMacro ident) =
      [(directiveIdent ident uniq, uniq.dropWhile ident.isIdent)] := rfl
  have hdefault : [Item.blank, .prototype (prototypeOf defaultFunc .payable) none, .blank].filterMap
      (Item.definedMacro ident) = [] := rfl
  have hblank : [Item.blank, .blank].filterMap (Item.definedMacro ident) = [] := rfl
  have htop : (Item.blank :: routerTop).filterMap (Item.definedMacro ident) = [] := rfl
  rw [keptItems, guardedBody, List.filterMap_append, List.filterMap_append, List.filterMap_append,
    List.filterMap_append, List.filterMap_append, hstart, hguard, hdefault, hblank, htop,
    filterMap_bodyItems rfl]
  simp only [List.nil_append, List.append_nil, List.singleton_append]

/-- No macro is lost where the preprocessor leaves lines out. -/
theorem filterMap_unitItems :
    (unitItems selectorOf uniq contract storage ms).filterMap (Item.definedMacro ident) =
      (keptItems selectorOf uniq storage ms).filterMap (Item.definedMacro ident) := by
  have hstart : [Item.comment generatedBy, .blank].filterMap (Item.definedMacro ident) = [] := rfl
  have hguard : [Item.comment generatedBy, .ifndef uniq, .define uniq none].filterMap
      (Item.definedMacro ident) = [(directiveIdent ident uniq, uniq.dropWhile ident.isIdent)] := rfl
  have htop : headerTop.filterMap (Item.definedMacro ident) = [] := rfl
  have hdefault : [Item.prototype (prototypeOf defaultFunc .payable) none, .blank].filterMap
      (Item.definedMacro ident) = [] := rfl
  have hbottom : headerBottom.filterMap (Item.definedMacro ident) = [] := rfl
  have hend : [Item.endif (some uniq)].filterMap (Item.definedMacro ident) = [] := rfl
  have hrouter : (routerTop ++ entryItems contract ms).filterMap (Item.definedMacro ident) = [] :=
    rfl
  rw [filterMap_keptItems, unitItems_eq, headerItems, List.filterMap_append, List.filterMap_append,
    List.filterMap_append, List.filterMap_append, List.filterMap_append, List.filterMap_append,
    List.filterMap_append, hstart, hguard, htop, hdefault, hbottom, hend, hrouter,
    filterMap_bodyItems rfl]
  simp only [List.nil_append, List.append_nil, List.singleton_append]

/-- The guard, the selectors and the macros of the storage layout are all macros. -/
theorem mem_unitMacros {d : Text × Text} : d ∈ unitMacros ident selectorOf uniq storage ms ↔
    d = (directiveIdent ident uniq, uniq.dropWhile ident.isIdent) ∨
      (∃ m ∈ ms, ∃ item ∈ m.headerItems selectorOf, item.definedMacro ident = some d) ∨
        ∃ m ∈ storage, m.toItem.definedMacro ident = some d := by
  unfold unitMacros macrosAfter
  rw [List.append_nil, List.mem_reverse, filterMap_keptItems, List.mem_cons, List.mem_append,
    List.mem_filterMap, List.mem_filterMap]
  refine or_congr_right (or_congr ?_ ?_)
  · constructor
    · rintro ⟨item, hitem, hd⟩
      obtain ⟨m, hm, hitem⟩ := List.mem_flatMap.1 hitem
      exact ⟨m, hm, item, hitem, hd⟩
    · rintro ⟨m, hm, item, hitem, hd⟩
      exact ⟨item, List.mem_flatMap.2 ⟨m, hm, hitem⟩, hd⟩
  · constructor
    · rintro ⟨item, hitem, hd⟩
      obtain ⟨m, hm, rfl⟩ := List.mem_map.1 hitem
      exact ⟨m, hm, hd⟩
    · rintro ⟨m, hm, hd⟩
      exact ⟨_, List.mem_map_of_mem hm, hd⟩

/-! ## What is kept -/

theorem unitItems_eq_append : unitItems selectorOf uniq contract storage ms =
    unitStart ++ .ifndef uniq :: (guardedStart uniq ++
      (forCplusplus ("extern \"C\" \x7b".toList) ++ (guardedBody selectorOf storage ms ++
        (forCplusplus "\x7d".toList ++ .blank :: .endif (some uniq) ::
          (routerTop ++ entryItems contract ms))))) := by
  rw [unitItems_eq]
  unfold headerItems headerTop headerBottom unitStart guardedStart guardedBody
  simp only [List.append_assoc, List.cons_append, List.nil_append]

variable {names : List Text}

theorem directiveIdent_cplusplus : directiveIdent ident cplusplus = cplusplus :=
  List.takeWhile_eq_self_iff.2 fun c hc => ident.isIdent_of_mem (by decide) hc

/-- The preprocessor keeps what is not for C++, if the guard is not defined before. -/
theorem preprocess_unitItems (hguard : directiveIdent ident uniq ∉ names)
    (hcpp : cplusplus ∉ (unitMacros ident selectorOf uniq storage ms).map Prod.fst ++ names) :
    preprocess ident names [] 0 (unitItems selectorOf uniq contract storage ms) =
      preprocess ident names [] 0 (keptItems selectorOf uniq storage ms) ++
        (entryItems contract ms).map (Line.mk (unitMacros ident selectorOf uniq storage ms)) := by
  have hskip : ∀ {macros : Macros} {t : Text} {items : List Item},
      (∀ d ∈ macros, d ∈ unitMacros ident selectorOf uniq storage ms) →
      preprocess ident names macros 0 (forCplusplus t ++ items) =
        preprocess ident names macros 0 items := by
    intro macros t items hsubset
    refine preprocess_ifdef rfl fun hmem => hcpp ?_
    rw [directiveIdent_cplusplus] at hmem
    rcases List.mem_append.1 hmem with hmem | hmem
    · exact List.mem_append_left _ (List.map_subset _ hsubset hmem)
    · exact List.mem_append_right _ hmem
  have hafter : unitMacros ident selectorOf uniq storage ms =
      macrosAfter ident (macrosAfter ident (macrosAfter ident (macrosAfter ident [] unitStart)
        (guardedStart uniq)) (guardedBody selectorOf storage ms)) (.blank :: routerTop) := by
    rw [unitMacros, keptItems, macrosAfter_append, macrosAfter_append, macrosAfter_append]
  have hundefined : ¬isDefined ident names (macrosAfter ident [] unitStart) uniq :=
    fun hdefined => hguard (isDefined_iff.1 hdefined)
  calc preprocess ident names [] 0 (unitItems selectorOf uniq contract storage ms)
      = preprocess ident names [] 0 (unitStart ++ (guardedStart uniq ++
          (guardedBody selectorOf storage ms ++ (.blank :: routerTop ++
            entryItems contract ms)))) := by
        rw [unitItems_eq_append]
        refine preprocess_append_congr isPlain_unitStart ?_
        rw [preprocess, if_neg hundefined]
        refine preprocess_append_congr isPlain_guardedStart ?_
        rw [hskip]
        · refine preprocess_append_congr isPlain_guardedBody ?_
          rw [hskip]
          · rfl
          · rw [hafter]
            exact macros_subset_macrosAfter _ _
        · rw [hafter]
          exact List.Subset.trans (macros_subset_macrosAfter _ _) (macros_subset_macrosAfter _ _)
    _ = preprocess ident names [] 0 (keptItems selectorOf uniq storage ms ++
          entryItems contract ms) := by
        rw [keptItems]
        simp only [List.append_assoc]
    _ = _ := by
        rw [preprocess_append isPlain_keptItems]
        rfl

/-- Nothing of the header is kept if its guard is defined before. -/
theorem preprocess_guarded (hguard : directiveIdent ident uniq ∈ names) :
    preprocess ident names [] 0 (unitItems selectorOf uniq contract storage ms) =
      preprocess ident names [] 0 (unitStart ++ (routerTop ++ entryItems contract ms)) := by
  have hskip : ∀ {macros : Macros} {t : Text} (items : List Item),
      preprocess ident names macros 1 (forCplusplus t ++ items) =
        preprocess ident names macros 1 items := fun _ => rfl
  have hdefined : isDefined ident names (macrosAfter ident [] unitStart) uniq :=
    isDefined_iff.2 hguard
  rw [unitItems_eq_append]
  refine preprocess_append_congr isPlain_unitStart ?_
  rw [preprocess, if_pos hdefined, preprocess_skip isPlain_guardedStart, hskip,
    preprocess_skip isPlain_guardedBody, hskip]
  rfl

end CargoStylus
