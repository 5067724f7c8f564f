import CargoStylus.Gen
import CargoStylus.Json
import CargoStylus.Opts

/-!
# Macros for the storage layout

For each variable of the storage layout the header has a macro with its slot, and then one
more : the base of the elements of a dynamic array, which is the hash of the slot, or the end
of a value, counted from the other end of the slot. Entries that cannot be read are skipped.

The macros are named after the label of the variable only. So they are defined once, and mean
what they are for, exactly if no two variables that are written have the same label
(`storageMacros_wellDefined_iff`).
-/

namespace CargoStylus

open Rust Json

/-! ## The entries -/

/-- A variable of the layout, as far as it is read. -/
structure StorageVar where
  label : Text
  slot : U64
  valType : Text
  /-- Where in the slot it begins, from the low end. -/
  offset : Fin 33
deriving DecidableEq

/-- A field that is a string. -/
def stringField (fields : Fields) (key missing : String) : Except String Text :=
  match Fields.get? fields key with
  | some (.string s) => .ok s.toList
  | _ => .error missing

/-- A field that is a number. -/
def numberField (fields : Fields) (key missing : String) : Except String Number :=
  match Fields.get? fields key with
  | some (.number n) => .ok n
  | _ => .error missing

theorem toNat_lt {num : ℤ} (h : 0 ≤ num ∧ num ≤ 32) : num.toNat < 33 := by
  omega

/-- The variable of an entry, or why the entry is skipped. -/
def readStorageVar : Value → Except String StorageVar
  | .object storageObj => do
    let label ← stringField storageObj "label" "no label.."
    let slot ← stringField storageObj "slot" "no slot.."
    let slot ← (parseU64 slot).mapError fun _ => "slot not u64.."
    let valType ← stringField storageObj "type" "no type.."
    let readOffset ← numberField storageObj "offset" "no offset.."
    let num ← readOffset.asI64.elim (.error "unexpected offset..") .ok
    if h : 0 ≤ num ∧ num ≤ 32 then return ⟨label, slot, valType, num.toNat, toNat_lt h⟩
    else .error "unexpected offset.."
  | _ => .error "not an object.."

/-- The variables that are written. -/
def storageVars (storageArr : List Value) : List StorageVar :=
  storageArr.filterMap fun storageVal => (readStorageVar storageVal).toOption

/-! ## The macros -/

/-- `#define`, with the type as a comment. -/
structure StorageMacro where
  name : Text
  value : Text
  valType : Text
deriving DecidableEq

/-- The line of a macro. -/
def StorageMacro.text (m : StorageMacro) : Text :=
  "#define ".toList ++ m.name ++ [' '] ++ m.value ++ " // ".toList ++ m.valType ++ ['\n']

/-- Bytes as the initializer of an array in C. -/
def cBytearrayInitializer (val : Bytes) : Text :=
  '{' :: join [',', ' '] (val.map fun byte => '0' :: 'x' :: hexEncode [byte]) ++ ['}']

/-- The macro of a variable's slot. -/
def slotMacro (label : Text) : Text :=
  ['S', 'T', 'O', 'R', 'A', 'G', 'E', '_', 'S', 'L', 'O', 'T', '_'] ++ label

/-- The macro of the slot that a dynamic array starts at. -/
def baseMacro (label : Text) : Text :=
  ['S', 'T', 'O', 'R', 'A', 'G', 'E', '_', 'B', 'A', 'S', 'E', '_'] ++ label

/-- The macro of the offset that a variable ends at. -/
def endOffsetMacro (label : Text) : Text :=
  ['S', 'T', 'O', 'R', 'A', 'G', 'E', '_', 'E', 'N', 'D', '_', 'O', 'F', 'F', 'S', 'E', 'T', '_'] ++
    label

/-- The slot as a number of 32 bytes. -/
def slotBuf (slot : U64) : Bytes :=
  List.replicate (32 - 8) 0 ++ be 8 slot

/-- An array type, by how its name starts. -/
def isArrayType (valType : Text) : Bool :=
  "t_array(".toList.isPrefixOf valType

/-- A dynamic type, by how its name ends. -/
def isDynStorage (valType : Text) : Bool :=
  ")dyn_storage".toList.isSuffixOf valType

/-- A mapping, by how its name starts. -/
def isMappingType (valType : Text) : Bool :=
  "t_mapping".toList.isPrefixOf valType

variable (keccak256 : Bytes → FixedBytes 32)

/-- The macros of a variable. -/
def storageMacros (v : StorageVar) : List StorageMacro :=
  ⟨slotMacro v.label, cBytearrayInitializer (slotBuf v.slot), v.valType⟩ ::
  if isArrayType v.valType then
    if isDynStorage v.valType then
      [⟨baseMacro v.label, cBytearrayInitializer (keccak256 (slotBuf v.slot)).1, v.valType⟩]
    else []
  else if isMappingType v.valType then []
  else [⟨endOffsetMacro v.label, showNat (32 - v.offset), v.valType⟩]

/-- The macros of a layout. -/
def layoutMacros (storageArr : List Value) : List StorageMacro :=
  (storageVars storageArr).flatMap (storageMacros keccak256)

/-- The lines of the header for a layout. -/
def storageLines (storageArr : List Value) : Text :=
  (layoutMacros keccak256 storageArr).flatMap StorageMacro.text

/-! ## What the macros mean -/

/-- The definition of a macro that counts, which is the last. -/
def lastDefinition (name : Text) : List StorageMacro → Option Text
  | [] => none
  | m :: ms => (lastDefinition name ms).or (if m.name = name then some m.value else none)

/-- The bytes of an initializer behind its opening brace. -/
def readElements : Text → Option Bytes
  | ['0', 'x', hi, lo, '}'] => hexDecode [hi, lo]
  | '0' :: 'x' :: hi :: lo :: ',' :: ' ' :: rest => do
    let byte ← hexDecode [hi, lo]
    let bytes ← readElements rest
    return byte ++ bytes
  | _ => none

/-- The bytes that an initializer of a byte array stands for. -/
def readInitializer : Text → Option Bytes
  | '{' :: rest => readElements rest
  | _ => none

/-- In `macros` the macro is an initializer of the bytes. -/
def MeansBytes (macros : List StorageMacro) (name : Text) (bytes : Bytes) : Prop :=
  ∃ value, lastDefinition name macros = some value ∧ readInitializer value = some bytes

/-- In `macros` the macro is the number. -/
def MeansNumber (macros : List StorageMacro) (name : Text) (n : ℕ) : Prop :=
  ∃ value, lastDefinition name macros = some value ∧ readNat value = some n

/-- No macro is defined twice, and the macros of each variable mean its slot, the hash of its
slot for a dynamic array, and the end of a value. -/
structure WellDefined (vars : List StorageVar) (macros : List StorageMacro) : Prop where
  once : (macros.map StorageMacro.name).Nodup
  slot : ∀ v ∈ vars, MeansBytes macros (slotMacro v.label) (toBe 32 v.slot.toNat)
  base : ∀ v ∈ vars, isArrayType v.valType = true → isDynStorage v.valType = true →
    MeansBytes macros (baseMacro v.label) (keccak256 (toBe 32 v.slot.toNat)).1
  endOffset : ∀ v ∈ vars, isArrayType v.valType = false → isMappingType v.valType = false →
    MeansNumber macros (endOffsetMacro v.label) (32 - v.offset)

variable {keccak256} {vars : List StorageVar} {macros : List StorageMacro}

/-! ## Bytes -/

theorem toBe_add (k : ℕ) : ∀ {n x : ℕ}, x < 256 ^ n →
    toBe (k + n) x = List.replicate k 0 ++ toBe n x
  | 0, x, h => by
    obtain rfl : x = 0 := Nat.lt_one_iff.1 h
    rw [Nat.add_zero, toBe, List.append_nil]
    induction k with
    | zero => rfl
    | succ k ih => rw [toBe, Nat.zero_div, ih, List.replicate_succ']; rfl
  | n + 1, x, h => by
    have hdiv : x / 256 < 256 ^ n := by
      rw [pow_succ] at h
      exact Nat.div_lt_of_lt_mul (by omega)
    rw [← Nat.add_assoc, toBe, toBe, toBe_add k hdiv, List.append_assoc]

/-- The slot is written as 32 bytes, big-endian. -/
theorem slotBuf_eq (slot : U64) : slotBuf slot = toBe 32 slot.toNat := by
  have hlt : slot.toNat < 256 ^ 8 := lt_of_lt_of_eq slot.isLt (by norm_num)
  exact (toBe_add 24 hlt).symm

theorem readElements_join (byte : UInt8) : ∀ bytes : Bytes,
    readElements (join [',', ' '] ((byte :: bytes).map fun b => '0' :: 'x' :: hexEncode [b]) ++
      ['}']) = some (byte :: bytes)
  | [] => by
    rw [← hexDecode_hexEncode [byte]]
    rfl
  | byte' :: bytes => by
    have hrest := readElements_join byte' bytes
    have hbyte : hexDecode (hexEncode [byte]) = some [byte] := hexDecode_hexEncode [byte]
    have hjoin : join [',', ' '] ((byte :: byte' :: bytes).map
        fun b => '0' :: 'x' :: hexEncode [b]) ++ ['}'] =
        '0' :: 'x' :: (byte.toNat / 16).digitChar :: (byte.toNat % 16).digitChar :: ',' :: ' ' ::
          (join [',', ' '] ((byte' :: bytes).map fun b => '0' :: 'x' :: hexEncode [b]) ++
            ['}']) := by
      rw [join, List.map_cons, List.map_cons, List.intercalate_cons_cons, List.append_assoc,
        List.append_assoc]
      rfl
    rw [hjoin, readElements, hrest]
    change (hexDecode (hexEncode [byte]) >>= fun b => _) = _
    rw [hbyte]
    rfl

theorem readInitializer_cBytearrayInitializer {bytes : Bytes} (hne : bytes ≠ []) :
    readInitializer (cBytearrayInitializer bytes) = some bytes := by
  obtain ⟨byte, bytes, rfl⟩ := List.exists_cons_of_ne_nil hne
  exact readElements_join byte bytes

/-! ## Names -/

theorem slotMacro_ne_baseMacro (label label' : Text) : slotMacro label ≠ baseMacro label' := by
  intro h
  have hletter := congrArg (·[8]?) h
  simp [slotMacro, baseMacro] at hletter

theorem slotMacro_ne_endOffsetMacro (label label' : Text) :
    slotMacro label ≠ endOffsetMacro label' := by
  intro h
  have hletter := congrArg (·[8]?) h
  simp [slotMacro, endOffsetMacro] at hletter

theorem baseMacro_ne_endOffsetMacro (label label' : Text) :
    baseMacro label ≠ endOffsetMacro label' := by
  intro h
  have hletter := congrArg (·[8]?) h
  simp [baseMacro, endOffsetMacro] at hletter

/-- The macros of a variable : that of its slot, and at most one more. -/
theorem storageMacros_cases (keccak256 : Bytes → FixedBytes 32) (v : StorageVar) :
    ∃ more, storageMacros keccak256 v =
        ⟨slotMacro v.label, cBytearrayInitializer (slotBuf v.slot), v.valType⟩ :: more ∧
      (more = [] ∨ ∃ value, more = [⟨baseMacro v.label, value, v.valType⟩] ∨
        more = [⟨endOffsetMacro v.label, value, v.valType⟩]) := by
  unfold storageMacros
  split_ifs
  · exact ⟨_, rfl, .inr ⟨_, .inl rfl⟩⟩
  · exact ⟨_, rfl, .inl rfl⟩
  · exact ⟨_, rfl, .inl rfl⟩
  · exact ⟨_, rfl, .inr ⟨_, .inr rfl⟩⟩

theorem name_of_mem_storageMacros {v : StorageVar} {m : StorageMacro}
    (h : m ∈ storageMacros keccak256 v) : m.name = slotMacro v.label ∨
      m.name = baseMacro v.label ∨ m.name = endOffsetMacro v.label := by
  obtain ⟨more, hmacros, hmore⟩ := storageMacros_cases keccak256 v
  rw [hmacros] at h
  rcases List.mem_cons.1 h with rfl | h
  · exact .inl rfl
  · rcases hmore with rfl | ⟨value, rfl | rfl⟩
    · cases h
    · obtain rfl := List.mem_singleton.1 h
      exact .inr (.inl rfl)
    · obtain rfl := List.mem_singleton.1 h
      exact .inr (.inr rfl)

theorem nodup_names_storageMacros (keccak256 : Bytes → FixedBytes 32) (v : StorageVar) :
    ((storageMacros keccak256 v).map StorageMacro.name).Nodup := by
  obtain ⟨more, hmacros, hmore⟩ := storageMacros_cases keccak256 v
  rw [hmacros]
  rcases hmore with rfl | ⟨value, rfl | rfl⟩
  · exact List.nodup_singleton _
  · exact List.nodup_cons.2 ⟨fun h => slotMacro_ne_baseMacro _ _ (List.mem_singleton.1 h),
      List.nodup_singleton _⟩
  · exact List.nodup_cons.2 ⟨fun h => slotMacro_ne_endOffsetMacro _ _ (List.mem_singleton.1 h),
      List.nodup_singleton _⟩

/-- A macro has the label of its variable in its name. -/
theorem label_eq_of_name {v w : StorageVar} {m n : StorageMacro}
    (hm : m ∈ storageMacros keccak256 v) (hn : n ∈ storageMacros keccak256 w)
    (h : m.name = n.name) : v.label = w.label := by
  rcases name_of_mem_storageMacros hm with hv | hv | hv <;>
    rcases name_of_mem_storageMacros hn with hw | hw | hw <;> rw [hv, hw] at h
  · exact List.append_cancel_left h
  · exact absurd h (slotMacro_ne_baseMacro _ _)
  · exact absurd h (slotMacro_ne_endOffsetMacro _ _)
  · exact absurd h.symm (slotMacro_ne_baseMacro _ _)
  · exact List.append_cancel_left h
  · exact absurd h (baseMacro_ne_endOffsetMacro _ _)
  · exact absurd h.symm (slotMacro_ne_endOffsetMacro _ _)
  · exact absurd h.symm (baseMacro_ne_endOffsetMacro _ _)
  · exact List.append_cancel_left h

theorem slotMacros_sublist (keccak256 : Bytes → FixedBytes 32) : ∀ vars : List StorageVar,
    List.Sublist (vars.map fun v => slotMacro v.label)
      ((vars.flatMap (storageMacros keccak256)).map StorageMacro.name)
  | [] => .slnil
  | v :: vars => by
    obtain ⟨more, hmacros, -⟩ := storageMacros_cases keccak256 v
    rw [List.map_cons, List.flatMap_cons, hmacros, List.cons_append, List.map_cons,
      List.map_append]
    exact ((slotMacros_sublist keccak256 vars).trans (List.sublist_append_right _ _)).cons_cons _

/-- The macros have different names exactly if the variables have different labels. -/
theorem nodup_macros_iff_labels :
    ((vars.flatMap (storageMacros keccak256)).map StorageMacro.name).Nodup ↔
      (vars.map StorageVar.label).Nodup := by
  refine ⟨fun h => ?_, fun h => ?_⟩
  · have hslots := h.sublist (slotMacros_sublist keccak256 vars)
    have hmap : vars.map (fun v => slotMacro v.label) =
        (vars.map StorageVar.label).map slotMacro := by
      rw [List.map_map]
      rfl
    rw [hmap] at hslots
    exact hslots.of_map
  · rw [List.map_flatMap, List.nodup_flatMap]
    refine ⟨fun v _ => nodup_names_storageMacros keccak256 v, ?_⟩
    refine (List.pairwise_map.1 h).imp fun hne name hv hw => hne ?_
    obtain ⟨m, hm, rfl⟩ := List.mem_map.1 hv
    obtain ⟨n, hn, heq⟩ := List.mem_map.1 hw
    exact label_eq_of_name hm hn heq.symm

/-! ## Meaning -/

theorem lastDefinition_of_not_mem {name : Text} : ∀ {macros : List StorageMacro},
    name ∉ macros.map StorageMacro.name → lastDefinition name macros = none
  | [], _ => rfl
  | m :: macros, h => by
    rw [List.map_cons, List.mem_cons, not_or] at h
    rw [lastDefinition, lastDefinition_of_not_mem h.2, Option.none_or, if_neg (Ne.symm h.1)]

theorem lastDefinition_of_mem {m : StorageMacro} : ∀ {macros : List StorageMacro},
    (macros.map StorageMacro.name).Nodup → m ∈ macros →
      lastDefinition m.name macros = some m.value
  | n :: macros, hnodup, hmem => by
    rw [List.map_cons, List.nodup_cons] at hnodup
    rw [lastDefinition]
    rcases List.mem_cons.1 hmem with rfl | hmem
    · rw [lastDefinition_of_not_mem hnodup.1, Option.none_or, if_pos rfl]
    · rw [lastDefinition_of_mem hnodup.2 hmem, Option.some_or]

/-- A macro that is defined once and is an initializer of bytes means these. -/
theorem meansBytes_of_mem {name valType : Text} {bytes : Bytes}
    (hnodup : (macros.map StorageMacro.name).Nodup) (hne : bytes ≠ [])
    (hmem : ⟨name, cBytearrayInitializer bytes, valType⟩ ∈ macros) :
    MeansBytes macros name bytes :=
  ⟨_, lastDefinition_of_mem hnodup hmem, readInitializer_cBytearrayInitializer hne⟩

theorem wellDefined_of_nodup (h : (vars.map StorageVar.label).Nodup) :
    WellDefined keccak256 vars (vars.flatMap (storageMacros keccak256)) := by
  have hnodup : ((vars.flatMap (storageMacros keccak256)).map StorageMacro.name).Nodup :=
    nodup_macros_iff_labels.2 h
  have hmem : ∀ {v m}, v ∈ vars → m ∈ storageMacros keccak256 v →
      m ∈ vars.flatMap (storageMacros keccak256) :=
    fun hv hm => List.mem_flatMap.2 ⟨_, hv, hm⟩
  refine ⟨hnodup, fun v hv => ?_, fun v hv harray hdyn => ?_, fun v hv harray hmapping => ?_⟩
  · rw [← slotBuf_eq]
    refine meansBytes_of_mem hnodup ?_ (hmem hv List.mem_cons_self)
    exact List.ne_nil_of_length_pos (by simp [slotBuf])
  · have hbase : ⟨baseMacro v.label, cBytearrayInitializer (keccak256 (slotBuf v.slot)).1,
        v.valType⟩ ∈ storageMacros keccak256 v := by
      refine List.mem_cons_of_mem _ ?_
      rw [if_pos harray, if_pos hdyn]
      exact List.mem_singleton_self _
    have hlen : (keccak256 (slotBuf v.slot)).1.length = 32 := (keccak256 (slotBuf v.slot)).2
    rw [← slotBuf_eq]
    exact meansBytes_of_mem hnodup (List.ne_nil_of_length_pos (by omega)) (hmem hv hbase)
  · have hend : ⟨endOffsetMacro v.label, showNat (32 - v.offset), v.valType⟩ ∈
        storageMacros keccak256 v := by
      refine List.mem_cons_of_mem _ ?_
      rw [if_neg (by simp [harray]), if_neg (by simp [hmapping])]
      exact List.mem_singleton_self _
    exact ⟨_, lastDefinition_of_mem hnodup (hmem hv hend), readNat_showNat _⟩

/-- The macros of a layout are well defined exactly if no two variables with a slot below
`2 ^ 64` and an offset of at most 32 have the same label. -/
theorem storageMacros_wellDefined_iff (keccak256 : Bytes → FixedBytes 32)
    (storageArr : List Value) :
    WellDefined keccak256 (storageVars storageArr) (layoutMacros keccak256 storageArr) ↔
      ((storageVars storageArr).map StorageVar.label).Nodup :=
  ⟨fun h => nodup_macros_iff_labels.1 h.once, wellDefined_of_nodup⟩

/-- A variable of a contract, as it stands in a layout. -/
def uintEntry (slot : String) : Value :=
  .object [("label", .string "x"), ("slot", .string slot), ("type", .string "t_uint256"),
    ("offset", .number (.posInt 0))]

/-- The layout of a contract with a private variable `x` that inherits another one. -/
def inheritedLayout : List Value :=
  [uintEntry "0", uintEntry "1"]

theorem inheritedLayout_vars :
    (storageVars inheritedLayout).map StorageVar.label = [['x'], ['x']] := by
  decide

/-- Its macros are defined twice. -/
theorem inheritedLayout_not_wellDefined : ¬WellDefined (fun _ => filled 32 0)
    (storageVars inheritedLayout) (layoutMacros (fun _ => filled 32 0) inheritedLayout) := by
  intro h
  have hlabels := nodup_macros_iff_labels.1 h.once
  rw [inheritedLayout_vars] at hlabels
  exact absurd hlabels (by decide)

end CargoStylus
