import CargoStylus.Rust.Bytes

/-!
# The binary format of WebAssembly, section by section

A module is a preamble and a list of sections, each an identifier, the length of its payload
and the payload. Numbers are written in LEB128, seven bits to a byte, and a reader accepts
longer spellings of a number than a writer uses. So a list of sections has many spellings,
`ModuleOf` relates a byte string to the list it spells, which is unique (`ModuleOf.unique`),
and `encodeModule` is one spelling of every list that has one (`moduleOf_encodeModule`).

A custom section is a section with identifier 0, whose payload starts with its name.
-/

namespace Wasm

open Rust (Bytes)

/-! ## LEB128 -/

/-- A number in at most `k` bytes. -/
def leb : ℕ → ℕ → Bytes
  | 0, _ => []
  | k + 1, n =>
    if n < 128 then [UInt8.ofNat n] else UInt8.ofNat (128 + n % 128) :: leb k (n / 128)

/-- The number at the start of a byte string, in at most `k` bytes, and what follows it. -/
def readLeb : ℕ → Bytes → Option (ℕ × Bytes)
  | 0, _ => none
  | _ + 1, [] => none
  | k + 1, x :: b =>
    if x.toNat < 128 then some (x.toNat, b)
    else (readLeb k b).map fun (n, rest) => (x.toNat - 128 + 128 * n, rest)

theorem readLeb_leb : ∀ (k n : ℕ) (rest : Bytes), n < 128 ^ (k + 1) →
    readLeb (k + 1) (leb (k + 1) n ++ rest) = some (n, rest)
  | k, n, rest, h => by
    rcases Nat.lt_or_ge n 128 with hn | hn
    · have hbyte : (UInt8.ofNat n).toNat = n := by
        rw [UInt8.toNat_ofNat']
        omega
      simp [leb, readLeb, hn, hbyte]
    · have hbyte : (UInt8.ofNat (128 + n % 128)).toNat = 128 + n % 128 := by
        rw [UInt8.toNat_ofNat']
        omega
      cases k with
      | zero =>
        rw [zero_add, pow_one] at h
        omega
      | succ k =>
        have hdiv : n / 128 < 128 ^ (k + 1) := by
          rw [pow_succ'] at h
          exact Nat.div_lt_of_lt_mul h
        have hrest := readLeb_leb k (n / 128) rest hdiv
        rw [leb, if_neg (by omega), List.cons_append, readLeb, hbyte, if_neg (by omega), hrest]
        simp only [Option.map_some, Nat.add_sub_cancel_left, Nat.mod_add_div]

/-- What follows a number does not change it. -/
theorem readLeb_append : ∀ {k : ℕ} {b rest : Bytes} {n : ℕ} (after : Bytes),
    readLeb k b = some (n, rest) → readLeb k (b ++ after) = some (n, rest ++ after)
  | 0, _, _, _, _, h => by simp [readLeb] at h
  | _ + 1, [], _, _, _, h => by simp [readLeb] at h
  | k + 1, x :: b, rest, n, after, h => by
    rw [readLeb] at h
    rw [List.cons_append, readLeb]
    split_ifs at h ⊢ with hx
    · obtain ⟨rfl, rfl⟩ := Prod.mk.inj (Option.some.inj h)
      rfl
    · obtain ⟨⟨m, r⟩, hm, h⟩ := Option.map_eq_some_iff.1 h
      obtain ⟨rfl, rfl⟩ := Prod.mk.inj h
      rw [readLeb_append after hm]
      rfl

/-- What follows a number is the end of what it was read from. -/
theorem readLeb_suffix : ∀ {k : ℕ} {b rest : Bytes} {n : ℕ}, readLeb k b = some (n, rest) →
    rest <:+ b
  | 0, _, _, _, h => by simp [readLeb] at h
  | _ + 1, [], _, _, h => by simp [readLeb] at h
  | k + 1, x :: b, rest, n, h => by
    rw [readLeb] at h
    split_ifs at h with hx
    · obtain ⟨-, rfl⟩ := Prod.mk.inj (Option.some.inj h)
      exact List.suffix_cons x b
    · obtain ⟨⟨m, r⟩, hm, h⟩ := Option.map_eq_some_iff.1 h
      obtain ⟨-, rfl⟩ := Prod.mk.inj h
      exact (readLeb_suffix hm).trans (List.suffix_cons x b)

/-- Write a `u32`. -/
def writeVarU32 (n : ℕ) : Bytes :=
  leb 5 n

/-- Read a `u32`. -/
def readVarU32 (b : Bytes) : Option (ℕ × Bytes) :=
  (readLeb 5 b).filter fun p => p.1 < 2 ^ 32

theorem readVarU32_writeVarU32 {n : ℕ} (h : n < 2 ^ 32) (rest : Bytes) :
    readVarU32 (writeVarU32 n ++ rest) = some (n, rest) := by
  have hread := readLeb_leb 4 n rest (by omega)
  rw [readVarU32, writeVarU32, hread]
  exact Option.filter_some_pos (by simpa using h)

theorem readVarU32_append {b rest : Bytes} {n : ℕ} (after : Bytes)
    (h : readVarU32 b = some (n, rest)) :
    readVarU32 (b ++ after) = some (n, rest ++ after) := by
  obtain ⟨hread, hn⟩ := Option.filter_eq_some_iff.1 h
  rw [readVarU32, readLeb_append after hread]
  simpa using hn

theorem readVarU32_suffix {b rest : Bytes} {n : ℕ} (h : readVarU32 b = some (n, rest)) :
    rest <:+ b :=
  readLeb_suffix (Option.filter_eq_some_iff.1 h).1

/-! ## Sections -/

/-- A section : its identifier, and its contents. -/
structure Section where
  id : UInt8
  payload : Bytes
deriving DecidableEq

/-- Custom sections have the byte zero. -/
def Section.IsCustom (s : Section) : Prop :=
  s.id = 0

instance (s : Section) : Decidable s.IsCustom :=
  inferInstanceAs (Decidable (s.id = 0))

/-- The sections without the custom ones. -/
def withoutCustom (sections : List Section) : List Section :=
  sections.filter fun s => ¬s.IsCustom

theorem not_isCustom_of_mem_withoutCustom {sections : List Section} :
    ∀ s ∈ withoutCustom sections, ¬s.IsCustom := by
  intro s hs
  simpa using (List.mem_filter.1 hs).2

@[simp] theorem withoutCustom_withoutCustom (sections : List Section) :
    withoutCustom (withoutCustom sections) = withoutCustom sections :=
  List.filter_eq_self.2 fun s hs => by simpa using not_isCustom_of_mem_withoutCustom s hs

/-- `body` spells these sections. -/
inductive SectionsOf : Bytes → List Section → Prop where
  | nil : SectionsOf [] []
  | cons {id : UInt8} {b rest : Bytes} {len : ℕ} {sections : List Section} :
    readVarU32 b = some (len, rest) → len ≤ rest.length → SectionsOf (rest.drop len) sections →
    SectionsOf (id :: b) (⟨id, rest.take len⟩ :: sections)

theorem SectionsOf.unique {body : Bytes} {sections sections' : List Section}
    (h : SectionsOf body sections) (h' : SectionsOf body sections') : sections = sections' := by
  induction h generalizing sections' with
  | nil =>
    cases h'
    rfl
  | cons hlen _ _ ih =>
    cases h' with
    | cons hlen' _ htail =>
      obtain ⟨rfl, rfl⟩ := Prod.mk.inj (Option.some.inj (hlen.symm.trans hlen'))
      rw [ih htail]

theorem SectionsOf.append {body body' : Bytes} {sections sections' : List Section}
    (h : SectionsOf body sections) (h' : SectionsOf body' sections') :
    SectionsOf (body ++ body') (sections ++ sections') := by
  induction h with
  | nil => exact h'
  | @cons id b rest len sections hlen hle _ ih =>
    have hread := readVarU32_append body' hlen
    have htake : (rest ++ body').take len = rest.take len := List.take_append_of_le_length hle
    have hdrop : (rest ++ body').drop len = rest.drop len ++ body' :=
      List.drop_append_of_le_length hle
    rw [List.cons_append, List.cons_append, ← htake]
    refine .cons hread ?_ ?_
    · rw [List.length_append]
      omega
    · rw [hdrop]
      exact ih

/-- Write a section. -/
def encodeSection (s : Section) : Bytes :=
  s.id :: (writeVarU32 s.payload.length ++ s.payload)

theorem sectionsOf_encodeSection {s : Section} (h : s.payload.length < 2 ^ 32) :
    SectionsOf (encodeSection s) [s] := by
  have hread := readVarU32_writeVarU32 h s.payload
  have hrest : SectionsOf (s.payload.drop s.payload.length) [] := by
    rw [List.drop_length]
    exact .nil
  have hcons : SectionsOf (encodeSection s) [⟨s.id, s.payload.take s.payload.length⟩] :=
    .cons hread le_rfl hrest
  rwa [List.take_length] at hcons

theorem sectionsOf_flatMap : ∀ {sections : List Section},
    (∀ s ∈ sections, s.payload.length < 2 ^ 32) →
    SectionsOf (sections.flatMap encodeSection) sections
  | [], _ => .nil
  | s :: sections, h => by
    have hs := sectionsOf_encodeSection (h s List.mem_cons_self)
    have htail := sectionsOf_flatMap fun t ht => h t (List.mem_cons_of_mem s ht)
    exact hs.append htail

/-- A section that was read has a length that can be written. -/
theorem SectionsOf.length_lt {body : Bytes} {sections : List Section}
    (h : SectionsOf body sections) : ∀ s ∈ sections, s.payload.length < 2 ^ 32 := by
  induction h with
  | nil => simp
  | cons hlen hle _ ih =>
    have hlt := (Option.filter_eq_some_iff.1 hlen).2
    intro s hs
    rcases List.mem_cons.1 hs with rfl | hs
    · rw [List.length_take, Nat.min_eq_left hle]
      simpa using hlt
    · exact ih s hs

/-! ## Modules -/

/-- The magic number and the version of a module. -/
def preamble : Bytes :=
  [0x00, 0x61, 0x73, 0x6d, 0x01, 0x00, 0x00, 0x00]

/-- `b` is a module of these sections. -/
def ModuleOf (b : Bytes) (sections : List Section) : Prop :=
  ∃ body, b = preamble ++ body ∧ SectionsOf body sections

theorem ModuleOf.unique {b : Bytes} {sections sections' : List Section}
    (h : ModuleOf b sections) (h' : ModuleOf b sections') : sections = sections' := by
  obtain ⟨body, rfl, h⟩ := h
  obtain ⟨body', heq, h'⟩ := h'
  obtain rfl := List.append_cancel_left heq
  exact h.unique h'

/-- Write a module. -/
def encodeModule (sections : List Section) : Bytes :=
  preamble ++ sections.flatMap encodeSection

theorem moduleOf_encodeModule {sections : List Section}
    (h : ∀ s ∈ sections, s.payload.length < 2 ^ 32) :
    ModuleOf (encodeModule sections) sections :=
  ⟨_, rfl, sectionsOf_flatMap h⟩

theorem ModuleOf.length_lt {b : Bytes} {sections : List Section} (h : ModuleOf b sections) :
    ∀ s ∈ sections, s.payload.length < 2 ^ 32 := by
  obtain ⟨body, -, h⟩ := h
  exact h.length_lt

/-- A section written behind a module is its last section. -/
theorem ModuleOf.append_section {b : Bytes} {sections : List Section} {s : Section}
    (h : ModuleOf b sections) (hs : s.payload.length < 2 ^ 32) :
    ModuleOf (b ++ encodeSection s) (sections ++ [s]) := by
  obtain ⟨body, rfl, h⟩ := h
  exact ⟨_, List.append_assoc _ _ _, h.append (sectionsOf_encodeSection hs)⟩

/-! ## Custom sections -/

/-- The payload of a custom section. -/
def encodeCustom (name data : Bytes) : Bytes :=
  writeVarU32 name.length ++ (name ++ data)

/-- The name and the data of a custom section's payload. -/
def readCustom (payload : Bytes) : Option (Bytes × Bytes) :=
  (readVarU32 payload).bind fun (len, rest) =>
    if len ≤ rest.length then some (rest.take len, rest.drop len) else none

theorem readCustom_encodeCustom {name : Bytes} (h : name.length < 2 ^ 32) (data : Bytes) :
    readCustom (encodeCustom name data) = some (name, data) := by
  rw [readCustom, encodeCustom, readVarU32_writeVarU32 h]
  simp

/-- The data of a section, if it is custom and has this name. -/
def Section.customData? (name : Bytes) (s : Section) : Option Bytes :=
  if s.IsCustom then
    ((readCustom s.payload).filter fun custom => custom.1 = name).map Prod.snd
  else none

/-- The data of the custom sections of this name, in order. -/
def customData (name : Bytes) (sections : List Section) : List Bytes :=
  sections.filterMap (Section.customData? name)

theorem customData_eq_nil {name : Bytes} {sections : List Section}
    (h : ∀ s ∈ sections, ¬s.IsCustom) : customData name sections = [] := by
  refine List.filterMap_eq_nil_iff.2 fun s hs => ?_
  rw [Section.customData?, if_neg (h s hs)]

end Wasm
