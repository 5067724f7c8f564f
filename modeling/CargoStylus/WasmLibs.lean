import CargoStylus.Rust.Codec
import CargoStylus.Rust.Text
import CargoStylus.Rust.Utf8
import CargoStylus.Wasm.Binary

/-!
# The WebAssembly libraries

What the program uses of the libraries that read and write WebAssembly. The parser gives one
payload for each section, with the range of bytes its contents take, one more for each
function body of the code section, and one at either end of the module (`PayloadsOf`). The
laws of `WasmLibs` are that this is how it reads valid modules, that a valid module can be
printed and read back, that binary input is not read as text, and that sections are written
in the binary format.

`sectionLibs` is an instance that knows modules by their sections : its parser
(`parseSections`) reads their boundaries and identifiers, and takes every section whose
identifier is known for valid.
-/

namespace CargoStylus

open Rust Wasm

/-- The sections whose contents the parser reads, without the code section. -/
inductive SectionKind where
  | typeSection
  | importSection
  | functionSection
  | tableSection
  | memorySection
  | globalSection
  | exportSection
  | startSection
  | elementSection
  | dataSection
  | dataCountSection
  | tagSection
deriving DecidableEq

/-- The byte that stands for a kind of section. -/
def SectionKind.id : SectionKind → UInt8
  | typeSection => 1
  | importSection => 2
  | functionSection => 3
  | tableSection => 4
  | memorySection => 5
  | globalSection => 6
  | exportSection => 7
  | startSection => 8
  | elementSection => 9
  | dataSection => 11
  | dataCountSection => 12
  | tagSection => 13

/-- The byte that stands for the code section. -/
def codeSectionId : UInt8 := 10

/-- What the parser finds. -/
inductive Payload where
  | version
  | knownSection (kind : SectionKind) (range : Range)
  | codeSectionStart (range : Range)
  | codeSectionEntry
  | customSection (name data : Bytes) (range : Range)
  | unknownSection (id : UInt8) (range : Range)
  | moduleEnd
deriving DecidableEq

/-- The section a payload stands for, if it does. -/
def Payload.asSection : Payload → Option (UInt8 × Range)
  | version => none
  | knownSection kind range => some (kind.id, range)
  | codeSectionStart range => some (codeSectionId, range)
  | codeSectionEntry => none
  | customSection _ _ range => some (0, range)
  | unknownSection id range => some (id, range)
  | moduleEnd => none

theorem SectionKind.not_isCustom (kind : SectionKind) (data : Bytes) :
    ¬(Section.mk kind.id data).IsCustom := by
  change kind.id ≠ 0
  cases kind <;> decide

/-- The payloads of a module `bytes` with these sections, after its version. -/
inductive PayloadsOf (bytes : Bytes) : List Section → List Payload → Prop where
  | nil : PayloadsOf bytes [] [.moduleEnd]
  | known {kind : SectionKind} {range : Range} {data : Bytes} {sections : List Section}
    {payloads : List Payload} :
    (sliceRange bytes range : Outcome String Bytes) = .ok data →
    PayloadsOf bytes sections payloads →
    PayloadsOf bytes (⟨kind.id, data⟩ :: sections) (.knownSection kind range :: payloads)
  | code {range : Range} {data : Bytes} {entries : ℕ} {sections : List Section}
    {payloads : List Payload} :
    (sliceRange bytes range : Outcome String Bytes) = .ok data →
    PayloadsOf bytes sections payloads →
    PayloadsOf bytes (⟨codeSectionId, data⟩ :: sections)
      (.codeSectionStart range :: (List.replicate entries .codeSectionEntry ++ payloads))
  | custom {name data contents : Bytes} {range : Range} {sections : List Section}
    {payloads : List Payload} :
    readCustom data = some (name, contents) → PayloadsOf bytes sections payloads →
    PayloadsOf bytes (⟨0, data⟩ :: sections) (.customSection name contents range :: payloads)

/-- `s` is the custom section `name` with this data. -/
def IsCustomOf (name : Text) (data : Bytes) (s : Section) : Prop :=
  s = ⟨0, encodeCustom (utf8 name) data⟩ ∧ s.payload.length < 2 ^ 32

/-- The libraries that read and write WebAssembly, and the compressor. -/
structure WasmLibs where
  /-- `wasmprinter::print_bytes`. -/
  printBytes : Bytes → Except String Bytes
  /-- `wasmer::wat2wasm`. -/
  wat2wasm : Bytes → Except String Bytes
  /-- `wasmparser::Parser::parse_all` : the payloads, the last of which may be an error. -/
  parseAll : Bytes → List (Except String Payload)
  /-- `wasm_gen::write_custom_section` : the bytes with the section behind them. -/
  writeCustomSection : Bytes → Text → Bytes → Bytes
  /-- `wasm_encoder::RawSection`, as the bytes it adds to a module. -/
  rawSection : UInt8 → Bytes → Outcome String Bytes
  /-- `BrotliEncoder` at a compression level. -/
  brotli : ℕ → Bytes → Except String Bytes
  /-- Validity of a core module. -/
  Valid : Bytes → Prop
  valid_parseAll : ∀ {b : Bytes}, Valid b → ∃ sections payloads, ModuleOf b sections ∧
    PayloadsOf b sections payloads ∧ parseAll b = .ok .version :: payloads.map .ok
  valid_print : ∀ {b : Bytes}, Valid b →
    ∃ text b', printBytes b = .ok text ∧ wat2wasm text = .ok b' ∧ Valid b'
  wat2wasm_binary : ∀ {b : Bytes}, preamble.take 4 <+: b → wat2wasm b = .ok b
  /-- Custom sections, of which there may be any, do not matter for validity. The names of new ones
  are not too long for the reader. -/
  valid_custom : ∀ {b b' : Bytes} {sections sections' : List Section}, Valid b →
    ModuleOf b sections → ModuleOf b' sections' →
    withoutCustom sections' = withoutCustom sections →
    (∀ s ∈ sections', s.IsCustom → s ∈ sections ∨
      ∃ name data, (utf8 name).length ≤ 100000 ∧ IsCustomOf name data s) → Valid b'
  writeCustomSection_eq : ∀ {b : Bytes} {name : Text} {data : Bytes} {s : Section},
    IsCustomOf name data s → writeCustomSection b name data = b ++ encodeSection s
  rawSection_eq : ∀ {id : UInt8} {data : Bytes}, rawSection id data =
    if data.length < 2 ^ 32 then .ok (encodeSection ⟨id, data⟩)
    else .panic "assertion failed: *self <= u32::MAX as usize"

/-! ## A reader of sections -/

/-- The kind that a byte stands for, if the reader knows it. -/
def SectionKind.ofId? (id : UInt8) : Option SectionKind :=
  [typeSection, importSection, functionSection, tableSection, memorySection, globalSection,
    exportSection, startSection, elementSection, dataSection, dataCountSection,
    tagSection].find? fun kind => kind.id = id

theorem SectionKind.id_of_ofId? {id : UInt8} {kind : SectionKind} (h : ofId? id = some kind) :
    kind.id = id := by
  simpa using List.find?_some h

/-- The payloads of one section. -/
def payloadsAt (s : Section) (range : Range) : Option (List Payload) :=
  if s.id = 0 then
    (readCustom s.payload).map fun custom => [.customSection custom.1 custom.2 range]
  else if s.id = codeSectionId then
    (readVarU32 s.payload).map fun count =>
      .codeSectionStart range :: List.replicate count.1 .codeSectionEntry
  else (SectionKind.ofId? s.id).map fun kind => [.knownSection kind range]

/-- The payloads of the sections at `offset`. -/
def parseSections : ℕ → ℕ → Bytes → Option (List Payload)
  | _, _, [] => some [.moduleEnd]
  | 0, _, _ :: _ => none
  | fuel + 1, offset, id :: b =>
    (readVarU32 b).bind fun (len, rest) =>
      if len ≤ rest.length then
        let start := offset + 1 + (b.length - rest.length)
        (payloadsAt ⟨id, rest.take len⟩ ⟨start, start + len⟩).bind fun here =>
          (parseSections fuel (start + len) (rest.drop len)).map (here ++ ·)
      else none

/-- A section the reader knows, wherever it stands. -/
def Known (s : Section) : Prop :=
  ∀ range, (payloadsAt s range).isSome

/-- The payloads of a section stand for it. -/
theorem payloadsOf_append {bytes : Bytes} {s : Section} {range : Range}
    {here payloads : List Payload} {sections : List Section}
    (hslice : (sliceRange bytes range : Outcome String Bytes) = .ok s.payload)
    (hhere : payloadsAt s range = some here) (h : PayloadsOf bytes sections payloads) :
    PayloadsOf bytes (s :: sections) (here ++ payloads) := by
  obtain ⟨id, data⟩ := s
  unfold payloadsAt at hhere
  split_ifs at hhere with hcustom hcode
  · obtain ⟨⟨name, contents⟩, hread, rfl⟩ := Option.map_eq_some_iff.1 hhere
    obtain rfl : id = 0 := hcustom
    exact .custom hread h
  · obtain ⟨count, -, rfl⟩ := Option.map_eq_some_iff.1 hhere
    obtain rfl : id = codeSectionId := hcode
    exact .code hslice h
  · obtain ⟨kind, hkind, rfl⟩ := Option.map_eq_some_iff.1 hhere
    obtain rfl : kind.id = id := SectionKind.id_of_ofId? hkind
    exact .known hslice h

/-- The sections of a module, if they are known, are found where they stand. -/
theorem parseSections_of_sectionsOf {body : Bytes} {sections : List Section}
    (h : SectionsOf body sections) (hknown : ∀ s ∈ sections, Known s) :
    ∀ {fuel : ℕ} (before : Bytes), body.length ≤ fuel →
      ∃ payloads, parseSections fuel before.length body = some payloads ∧
        PayloadsOf (before ++ body) sections payloads := by
  induction h with
  | nil => exact fun before _ => ⟨[.moduleEnd], by simp [parseSections], .nil⟩
  | @cons id b rest len sections hlen hle _ ih =>
    intro fuel before hfuel
    obtain ⟨spelled, rfl⟩ := readVarU32_suffix hlen
    cases fuel with
    | zero => simp at hfuel
    | succ fuel =>
      have hstart : before.length + 1 + ((spelled ++ rest).length - rest.length) =
          (before ++ id :: spelled).length := by
        simp only [List.length_append, List.length_cons]
        omega
      have htake : (rest.take len).length = len := by
        rw [List.length_take, Nat.min_eq_left hle]
      have hstop : (before ++ id :: spelled ++ rest.take len).length =
          (before ++ id :: spelled).length + len := by
        rw [List.length_append, htake]
      have hbytes : before ++ id :: (spelled ++ rest) =
          before ++ id :: spelled ++ rest.take len ++ rest.drop len := by
        simp
      have hslice : (sliceRange (before ++ id :: (spelled ++ rest))
          ⟨(before ++ id :: spelled).length, (before ++ id :: spelled).length + len⟩ :
            Outcome String Bytes) = .ok (rest.take len) := by
        rw [hbytes]
        exact sliceRange_append rfl (by rw [htake])
      obtain ⟨here, hhere⟩ := Option.isSome_iff_exists.1 (hknown _ List.mem_cons_self
        ⟨(before ++ id :: spelled).length, (before ++ id :: spelled).length + len⟩)
      have hrest : (rest.drop len).length ≤ fuel := by
        simp only [List.length_cons, List.length_append, List.length_drop] at hfuel ⊢
        omega
      obtain ⟨payloads, htail, hpayloads⟩ := ih (fun s hs => hknown s (List.mem_cons_of_mem _ hs))
        (before ++ id :: spelled ++ rest.take len) hrest
      rw [← hbytes] at hpayloads
      rw [hstop] at htail
      refine ⟨here ++ payloads, ?_, payloadsOf_append hslice hhere hpayloads⟩
      simp only [parseSections, hlen, Option.bind_some, if_pos hle, hstart, hhere, htail,
        Option.map_some]

theorem payloadsAt_isSome {s : Section} (range : Range) (h : (payloadsAt s range).isSome) :
    Known s := by
  intro range'
  unfold payloadsAt at h ⊢
  split_ifs at h ⊢ <;> simpa using h

theorem known_of_isCustomOf {s : Section} {name : Text} {data : Bytes}
    (h : IsCustomOf name data s) : Known s := by
  obtain ⟨rfl, hlen⟩ := h
  have hname : (utf8 name).length < 2 ^ 32 := by
    simp only [encodeCustom, List.length_append] at hlen
    omega
  intro range
  simp [payloadsAt, readCustom_encodeCustom hname]

/-- The module `(module (memory 1))`. -/
def memoryModule : Bytes :=
  preamble ++ [0x05, 0x03, 0x01, 0x00, 0x01]

/-- The text that module is printed as. -/
def memoryModuleText : Bytes :=
  utf8 "(module\n  (memory (;0;) 1)\n)\n".toList

/-- A short byte string as a Brotli stream of one uncompressed block. -/
def storedBrotli (b : Bytes) : Except String Bytes :=
  if 0 < b.length ∧ b.length ≤ 2 ^ 16 then
    .ok ((toBe 3 (0x80000b + 128 * (b.length - 1))).reverse ++ b ++ [0x03])
  else .error "not a short byte string"

/-- The payloads of a module, by a reader that knows all these kinds. -/
def parseModule (b : Bytes) : Option (List Payload) :=
  if preamble <+: b then parseSections b.length preamble.length (b.drop 8) else none

/-- A module of known sections. -/
def IsKnownModule (b : Bytes) : Prop :=
  ∃ sections, ModuleOf b sections ∧ ∀ s ∈ sections, Known s

theorem parseModule_of_moduleOf {b : Bytes} {sections : List Section} (h : ModuleOf b sections)
    (hknown : ∀ s ∈ sections, Known s) :
    ∃ payloads, parseModule b = some payloads ∧ PayloadsOf b sections payloads := by
  obtain ⟨body, rfl, h⟩ := h
  have hdrop : (preamble ++ body).drop 8 = body := List.drop_left' rfl
  have hfuel : body.length ≤ (preamble ++ body).length := by
    rw [List.length_append]
    omega
  rw [parseModule, if_pos (List.prefix_append _ _), hdrop]
  exact parseSections_of_sectionsOf h hknown preamble hfuel

/-- Libraries that know modules by their sections, and the text of `memoryModule`. Any other
module they print as it is. -/
def sectionLibs : WasmLibs where
  printBytes b := .ok (if b = memoryModule then memoryModuleText else b)
  wat2wasm text :=
    if preamble.take 4 <+: text then .ok text
    else if text = memoryModuleText then .ok memoryModule
    else .error "expected `(`"
  parseAll b :=
    match parseModule b with
    | some payloads => .ok .version :: payloads.map .ok
    | none => [.error "malformed module"]
  writeCustomSection b name data := b ++ encodeSection ⟨0, encodeCustom (utf8 name) data⟩
  rawSection id data :=
    if data.length < 2 ^ 32 then .ok (encodeSection ⟨id, data⟩)
    else .panic "assertion failed: *self <= u32::MAX as usize"
  brotli _ b := storedBrotli b
  Valid := IsKnownModule
  valid_parseAll := by
    intro b hvalid
    obtain ⟨sections, hmodule, hknown⟩ := hvalid
    obtain ⟨payloads, hparse, hpayloads⟩ := parseModule_of_moduleOf hmodule hknown
    exact ⟨sections, payloads, hmodule, hpayloads, by rw [hparse]⟩
  valid_print := by
    intro b hvalid
    have hmagic : preamble.take 4 <+: b := by
      obtain ⟨sections, ⟨body, rfl, -⟩, -⟩ := hvalid
      exact (List.take_prefix 4 preamble).trans (List.prefix_append preamble body)
    by_cases hb : b = memoryModule
    · subst hb
      exact ⟨memoryModuleText, memoryModule, rfl, rfl, hvalid⟩
    · exact ⟨b, b, by rw [if_neg hb], by rw [if_pos hmagic], hvalid⟩
  wat2wasm_binary := fun h => if_pos h
  valid_custom := by
    intro b b' sections sections' hvalid hmodule hmodule' hsame hcustom
    obtain ⟨sections'', hmodule'', hknown⟩ := hvalid
    obtain rfl := hmodule.unique hmodule''
    refine ⟨sections', hmodule', fun s hs => ?_⟩
    by_cases hs' : s.IsCustom
    · rcases hcustom s hs hs' with hold | ⟨name, data, -, hnew⟩
      · exact hknown s hold
      · exact known_of_isCustomOf hnew
    · have hmem : s ∈ withoutCustom sections' := List.mem_filter.2 ⟨hs, by simpa using hs'⟩
      rw [hsame] at hmem
      exact hknown s (List.mem_filter.1 hmem).1
  writeCustomSection_eq := fun h => by rw [h.1]
  rawSection_eq := rfl

theorem sectionLibs_valid_memoryModule : sectionLibs.Valid memoryModule := by
  have hmodule : ModuleOf (encodeModule [⟨5, [0x01, 0x00, 0x01]⟩]) [⟨5, [0x01, 0x00, 0x01]⟩] :=
    moduleOf_encodeModule (by simp)
  refine ⟨_, hmodule, fun s hs => ?_⟩
  obtain rfl := List.mem_singleton.1 hs
  exact payloadsAt_isSome ⟨0, 0⟩ rfl

end CargoStylus
