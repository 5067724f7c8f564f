import CargoStylus.Config
import CargoStylus.WasmLibs

/-!
# From the build artifact to the contract code

`compressWasm` prepares a module for deployment. It goes through the text format and back,
adds the project hash in a custom section unless there is one, strips the custom sections,
and compresses what is left.

Stripping writes the sections that are not custom, in order (`stripUserMetadata_of_valid`),
and no more, so it keeps the program (`stripUserMetadata_keeps_program`), and no custom section
is in the final module, whatever the artifact (`compressWasm_withoutCustom`). On a valid
module the pipeline returns (`compressWasm_of_valid`), and the hash it added is gone : it
reaches the code of no contract (`not_hashReaches`).
-/

namespace CargoStylus

open Rust Wasm

/-- The name of the section with the project hash. -/
def projectHashSectionName : Text :=
  "project_hash".toList

/-- `EOF_PREFIX_NO_DICT`, in hex. -/
def eofPrefixNoDict : Text :=
  "EFF00000".toList

/-- `BROTLI_COMPRESSION_LEVEL`. -/
def brotliCompressionLevel : ℕ := 11

/-! ## The stages -/

/-- Look for the project hash among the payloads. -/
def findProjectHash : List (Except String Payload) → Outcome String Bool
  | [] => .ok false
  | payload :: payloads => do
    match ← .ofExcept payload with
    | .customSection name _ _ =>
      if name = utf8 projectHashSectionName then return true else findProjectHash payloads
    | _ => findProjectHash payloads

/-- Whether the module has a section with a project hash. -/
def hasProjectHashSection (libs : WasmLibs) (wasmFileBytes : Bytes) : Outcome String Bool :=
  findProjectHash (libs.parseAll wasmFileBytes)

/-- The module with the hash in a section behind it. -/
def addCustomSection (libs : WasmLibs) (wasmFileBytes : Bytes) (projectHash : FixedBytes 32) :
    Bytes :=
  libs.writeCustomSection wasmFileBytes projectHashSectionName projectHash.1

/-- Add the hash of the project's source files as a custom section, unless there is one. -/
def addProjectHashToWasmFile (libs : WasmLibs) (wasmFileBytes : Bytes)
    (projectHash : FixedBytes 32) : Outcome String Bytes := do
  let sectionExists ← hasProjectHashSection libs wasmFileBytes
  if sectionExists then return wasmFileBytes
  else return addCustomSection libs wasmFileBytes projectHash

/-- What a payload adds to the stripped module. -/
def strippedSection (libs : WasmLibs) (wasmFileBytes : Bytes) :
    Payload → Outcome String Bytes
  | .customSection .. => .ok []
  | .unknownSection .. => .ok []
  | item =>
    match item.asSection with
    | some (id, range) => do
      let dataSlice ← sliceRange wasmFileBytes range
      libs.rawSection id dataSlice
    | none => .ok []

/-- Add what each payload adds to `module`. -/
def stripPayloads (libs : WasmLibs) (wasmFileBytes module : Bytes) :
    List (Except String Payload) → Outcome String Bytes
  | [] => .ok module
  | payload :: payloads => do
    let payload ← .ofExcept payload
    let raw ← strippedSection libs wasmFileBytes payload
    stripPayloads libs wasmFileBytes (module ++ raw) payloads

/-- The module without its custom and its unknown sections. -/
def stripUserMetadata (libs : WasmLibs) (wasmFileBytes : Bytes) : Outcome String Bytes :=
  stripPayloads libs wasmFileBytes preamble (libs.parseAll wasmFileBytes)

/-- Read a WASM file, with the contents `file`, and return the module to deploy and the code
of the contract. -/
def compressWasm (libs : WasmLibs) (path : PathBuf) (file : Except String Bytes)
    (projectHash : FixedBytes 32) : Outcome String (Bytes × Bytes) := do
  let wasm ← .wrapErr ("failed to read Wasm " ++ String.ofList (fromUtf8Lossy path))
    (.ofExcept file)
  -- through the text format and back, which removes mentions of reference types
  let watStr ← .mapErr ("failed to convert Wasm to Wat: " ++ ·) (.ofExcept (libs.printBytes wasm))
  let wasm ← .mapErr ("failed to convert Wat to Wasm: " ++ ·) (.ofExcept (libs.wat2wasm watStr))
  let wasm ← .wrapErr "failed to add project hash to wasm file as custom section"
    (addProjectHashToWasmFile libs wasm projectHash)
  let wasm ← .wrapErr "failed to strip user metadata from wasm file" (stripUserMetadata libs wasm)
  let wasm ← .wrapErr "failed to parse Wasm" (.ofExcept (libs.wat2wasm wasm))
  let compressedBytes ← .wrapErr "failed to compress WASM bytes"
    (.ofExcept (libs.brotli brotliCompressionLevel wasm))
  let contractCode ← .unwrap "invalid hex" (hexDecode eofPrefixNoDict)
  return (wasm, contractCode ++ compressedBytes)

/-! ## What stripping leaves -/

variable {libs : WasmLibs} {bytes module out : Bytes} {sections : List Section}
  {payloads : List Payload}

/-- A payload adds nothing, or a section that is not custom. -/
theorem strippedSection_eq_ok {payload : Payload} {raw : Bytes}
    (h : strippedSection libs bytes payload = .ok raw) :
    ∃ sections : List Section, (∀ s ∈ sections, ¬s.IsCustom) ∧
      (∀ s ∈ sections, s.payload.length < 2 ^ 32) ∧ raw = sections.flatMap encodeSection := by
  have written : ∀ {id : UInt8} {range : Range}, (∀ data, ¬(Section.mk id data).IsCustom) →
      (sliceRange bytes range >>= fun data => libs.rawSection id data) = .ok raw →
      ∃ sections : List Section, (∀ s ∈ sections, ¬s.IsCustom) ∧
        (∀ s ∈ sections, s.payload.length < 2 ^ 32) ∧ raw = sections.flatMap encodeSection := by
    intro id range hid h
    obtain ⟨data, -, h⟩ := Outcome.bind_eq_ok.1 h
    rw [libs.rawSection_eq] at h
    split_ifs at h with hlen
    obtain rfl := Outcome.ok.inj h
    exact ⟨[⟨id, data⟩], by simpa using hid data, by simpa using hlen, by simp⟩
  have nothing : (.ok [] : Outcome String Bytes) = .ok raw →
      ∃ sections : List Section, (∀ s ∈ sections, ¬s.IsCustom) ∧
        (∀ s ∈ sections, s.payload.length < 2 ^ 32) ∧ raw = sections.flatMap encodeSection := by
    intro h
    obtain rfl := Outcome.ok.inj h
    exact ⟨[], by simp, by simp, rfl⟩
  cases payload with
  | version | codeSectionEntry | customSection | unknownSection | moduleEnd => exact nothing h
  | knownSection kind range => exact written kind.not_isCustom h
  | codeSectionStart range => exact written (fun _ => show codeSectionId ≠ 0 by decide) h

/-- Whatever the parser finds, no custom section is written. -/
theorem stripPayloads_eq_ok : ∀ {payloads : List (Except String Payload)} {module : Bytes},
    stripPayloads libs bytes module payloads = .ok out →
    ∃ sections : List Section, (∀ s ∈ sections, ¬s.IsCustom) ∧
      (∀ s ∈ sections, s.payload.length < 2 ^ 32) ∧
      out = module ++ sections.flatMap encodeSection
  | [], module, h => by
    obtain rfl := Outcome.ok.inj h
    exact ⟨[], by simp, by simp, by simp⟩
  | payload :: payloads, module, h => by
    obtain ⟨payload, -, h⟩ := Outcome.bind_eq_ok.1 h
    obtain ⟨raw, hraw, h⟩ := Outcome.bind_eq_ok.1 h
    obtain ⟨here, hhere, hlen, rfl⟩ := strippedSection_eq_ok hraw
    obtain ⟨rest, hrest, hlen', rfl⟩ := stripPayloads_eq_ok h
    refine ⟨here ++ rest, ?_, ?_, ?_⟩
    · exact fun s hs => (List.mem_append.1 hs).elim (hhere s) (hrest s)
    · exact fun s hs => (List.mem_append.1 hs).elim (hlen s) (hlen' s)
    · rw [List.flatMap_append, List.append_assoc]

/-- The payloads of a module add its sections that are not custom, in order. -/
theorem stripPayloads_of_payloadsOf (libs : WasmLibs) (h : PayloadsOf bytes sections payloads)
    (hlen : ∀ s ∈ sections, s.payload.length < 2 ^ 32) (module : Bytes) :
    stripPayloads libs bytes module (payloads.map .ok) =
      .ok (module ++ (withoutCustom sections).flatMap encodeSection) := by
  induction h generalizing module with
  | nil => simp [stripPayloads, strippedSection, Payload.asSection, withoutCustom]
  | @known kind range data sections payloads hslice _ ih =>
    have hdata := hlen _ List.mem_cons_self
    have hrest := ih fun s hs => hlen s (List.mem_cons_of_mem _ hs)
    have hkeep : withoutCustom (⟨kind.id, data⟩ :: sections) =
        ⟨kind.id, data⟩ :: withoutCustom sections :=
      List.filter_cons_of_pos (by simpa using kind.not_isCustom data)
    simp only [List.map_cons, stripPayloads, Outcome.ofExcept_ok, Outcome.ok_bind,
      strippedSection, Payload.asSection, hslice, libs.rawSection_eq, if_pos hdata, hrest, hkeep,
      List.flatMap_cons, List.append_assoc]
  | @code range data entries sections payloads hslice _ ih =>
    have hdata := hlen _ List.mem_cons_self
    have hrest := ih fun s hs => hlen s (List.mem_cons_of_mem _ hs)
    have hkeep : withoutCustom (⟨codeSectionId, data⟩ :: sections) =
        ⟨codeSectionId, data⟩ :: withoutCustom sections :=
      List.filter_cons_of_pos rfl
    have hentries : ∀ (n : ℕ) (module : Bytes), stripPayloads libs bytes module
        ((List.replicate n Payload.codeSectionEntry ++ payloads).map .ok) =
          stripPayloads libs bytes module (payloads.map .ok) := by
      intro n module
      induction n with
      | zero => rfl
      | succ n ihn =>
        rw [List.replicate_succ, List.cons_append, List.map_cons, stripPayloads]
        simpa [strippedSection, Payload.asSection] using ihn
    simp only [List.map_cons, stripPayloads, Outcome.ofExcept_ok, Outcome.ok_bind,
      strippedSection, Payload.asSection, hslice, libs.rawSection_eq, if_pos hdata, hentries,
      hrest, hkeep, List.flatMap_cons, List.append_assoc]
  | @custom name data contents range sections payloads _ _ ih =>
    have hrest := ih fun s hs => hlen s (List.mem_cons_of_mem _ hs)
    have hdrop : withoutCustom (⟨0, data⟩ :: sections) = withoutCustom sections :=
      List.filter_cons_of_neg (by simp [Section.IsCustom])
    simp only [List.map_cons, stripPayloads, Outcome.ofExcept_ok, Outcome.ok_bind,
      strippedSection, List.append_nil, hrest, hdrop]

/-- Stripping keeps the sections of a valid module that are not custom. -/
theorem stripUserMetadata_of_valid (hvalid : libs.Valid bytes) (hmodule : ModuleOf bytes sections) :
    stripUserMetadata libs bytes = .ok (encodeModule (withoutCustom sections)) := by
  obtain ⟨sections', payloads, hmodule', hpayloads, hparse⟩ := libs.valid_parseAll hvalid
  obtain rfl := hmodule.unique hmodule'
  have hstrip := stripPayloads_of_payloadsOf libs hpayloads hmodule.length_lt preamble
  rw [stripUserMetadata, hparse, stripPayloads, encodeModule, ← hstrip]
  simp [strippedSection, Payload.asSection]

/-- Stripping keeps the program : the sections that are not custom are the sections of the
result, in order, stripping the result leaves it as it is, and a module that differs in its
custom sections is stripped to the same bytes. -/
theorem stripUserMetadata_keeps_program (libs : WasmLibs) {bytes : Bytes}
    (hvalid : libs.Valid bytes) :
    ∃ sections stripped, ModuleOf bytes sections ∧ stripUserMetadata libs bytes = .ok stripped ∧
      ModuleOf stripped (withoutCustom sections) ∧ (∀ s ∈ withoutCustom sections, ¬s.IsCustom) ∧
      stripUserMetadata libs stripped = .ok stripped ∧
      ∀ bytes' sections', libs.Valid bytes' → ModuleOf bytes' sections' →
        withoutCustom sections' = withoutCustom sections →
        stripUserMetadata libs bytes' = .ok stripped := by
  obtain ⟨sections, payloads, hmodule, -, -⟩ := libs.valid_parseAll hvalid
  have hcustom : ∀ s ∈ withoutCustom sections, ¬s.IsCustom := not_isCustom_of_mem_withoutCustom
  have hmodule' : ModuleOf (encodeModule (withoutCustom sections)) (withoutCustom sections) :=
    moduleOf_encodeModule fun s hs => hmodule.length_lt s (List.mem_filter.1 hs).1
  have hidem : withoutCustom (withoutCustom sections) = withoutCustom sections :=
    withoutCustom_withoutCustom sections
  have hvalid' : libs.Valid (encodeModule (withoutCustom sections)) :=
    libs.valid_custom hvalid hmodule hmodule' hidem fun s hs h => absurd h (hcustom s hs)
  have hagain := stripUserMetadata_of_valid hvalid' hmodule'
  rw [hidem] at hagain
  refine ⟨sections, _, hmodule, stripUserMetadata_of_valid hvalid hmodule, hmodule', hcustom,
    hagain, fun bytes' sections' hvalid'' hmodule'' hsame => ?_⟩
  rw [stripUserMetadata_of_valid hvalid'' hmodule'', hsame]

/-- A module with one custom section. -/
def namedModule : Bytes :=
  encodeModule [⟨0, encodeCustom (utf8 "name".toList) [0x01, 0x02]⟩, ⟨5, [0x01, 0x00, 0x01]⟩]

theorem sectionLibs_valid_namedModule : sectionLibs.Valid namedModule := by
  refine ⟨_, moduleOf_encodeModule ?_, ?_⟩
  · decide
  · intro s hs
    rcases List.mem_cons.1 hs with rfl | hs
    · exact payloadsAt_isSome ⟨0, 0⟩ (by decide)
    · obtain rfl := List.mem_singleton.1 hs
      exact payloadsAt_isSome ⟨0, 0⟩ rfl

theorem stripUserMetadata_namedModule :
    sectionLibs.Valid namedModule ∧
      ∃ sections stripped, ModuleOf namedModule sections ∧
        stripUserMetadata sectionLibs namedModule = .ok stripped ∧
        ModuleOf stripped (withoutCustom sections) ∧ (∀ s ∈ withoutCustom sections, ¬s.IsCustom) ∧
        stripUserMetadata sectionLibs stripped = .ok stripped ∧
        ∀ bytes' sections', sectionLibs.Valid bytes' → ModuleOf bytes' sections' →
          withoutCustom sections' = withoutCustom sections →
          stripUserMetadata sectionLibs bytes' = .ok stripped :=
  ⟨sectionLibs_valid_namedModule,
    stripUserMetadata_keeps_program sectionLibs sectionLibs_valid_namedModule⟩

/-! ## What compressing returns -/

variable {path : PathBuf} {file : Except String Bytes} {projectHash : FixedBytes 32}
  {wasm final code : Bytes}

theorem wat2wasm_module (libs : WasmLibs) (sections : List Section) :
    libs.wat2wasm (encodeModule sections) = .ok (encodeModule sections) := by
  refine libs.wat2wasm_binary ?_
  have hmagic : preamble.take 4 <+: preamble := List.take_prefix 4 preamble
  exact hmagic.trans (List.prefix_append preamble _)

/-- Whatever the file, the final module has no custom sections. -/
theorem compressWasm_withoutCustom
    (h : compressWasm libs path file projectHash = .ok (final, code)) :
    ∃ sections, ModuleOf final sections ∧ ∀ s ∈ sections, ¬s.IsCustom := by
  obtain ⟨wasm, -, h⟩ := Outcome.bind_eq_ok.1 h
  obtain ⟨text, -, h⟩ := Outcome.bind_eq_ok.1 h
  obtain ⟨parsed, -, h⟩ := Outcome.bind_eq_ok.1 h
  obtain ⟨hashed, -, h⟩ := Outcome.bind_eq_ok.1 h
  obtain ⟨stripped, hstripped, h⟩ := Outcome.bind_eq_ok.1 h
  obtain ⟨reparsed, hreparsed, h⟩ := Outcome.bind_eq_ok.1 h
  obtain ⟨compressed, -, h⟩ := Outcome.bind_eq_ok.1 h
  obtain ⟨contractCode, -, h⟩ := Outcome.bind_eq_ok.1 h
  obtain ⟨rfl, -⟩ := Prod.mk.inj (Outcome.ok.inj h)
  obtain ⟨sections, hcustom, hlen, rfl⟩ := stripPayloads_eq_ok (Outcome.wrapErr_eq_ok.1 hstripped)
  have hbinary := wat2wasm_module libs sections
  rw [encodeModule] at hbinary
  rw [hbinary] at hreparsed
  obtain rfl := Outcome.ok.inj hreparsed
  exact ⟨sections, moduleOf_encodeModule hlen, hcustom⟩

/-! ## What becomes of the project hash -/

/-- The scan finds a project hash exactly if the module has one. -/
theorem findProjectHash_of_payloadsOf (h : PayloadsOf bytes sections payloads) :
    findProjectHash (payloads.map .ok) =
      .ok (customData (utf8 projectHashSectionName) sections ≠ [] : Bool) := by
  have skip : ∀ {s : Section} {sections : List Section},
      s.customData? (utf8 projectHashSectionName) = none →
      customData (utf8 projectHashSectionName) (s :: sections) =
        customData (utf8 projectHashSectionName) sections :=
    fun hs => List.filterMap_cons_none hs
  induction h with
  | nil => rfl
  | @known kind range data sections payloads _ _ ih =>
    have hs : (Section.mk kind.id data).customData? (utf8 projectHashSectionName) = none :=
      if_neg (kind.not_isCustom data)
    rw [skip hs, ← ih]
    rfl
  | @code range data entries sections payloads _ _ ih =>
    have hs : (Section.mk codeSectionId data).customData? (utf8 projectHashSectionName) = none :=
      if_neg (show codeSectionId ≠ 0 by decide)
    have hentries : ∀ n : ℕ, findProjectHash
        ((List.replicate n Payload.codeSectionEntry ++ payloads).map .ok) =
          findProjectHash (payloads.map .ok) := by
      intro n
      induction n with
      | zero => rfl
      | succ n ihn =>
        rw [← ihn]
        rfl
    rw [skip hs, ← ih, ← hentries entries]
    rfl
  | @custom name data contents range sections payloads hread _ ih =>
    have hs : (Section.mk 0 data).customData? (utf8 projectHashSectionName) =
        if name = utf8 projectHashSectionName then some contents else none := by
      have hcustom : (Section.mk 0 data).IsCustom := rfl
      rw [Section.customData?, if_pos hcustom, hread]
      split_ifs with hname <;> simp [hname]
    rw [List.map_cons, findProjectHash]
    by_cases hname : name = utf8 projectHashSectionName
    · rw [if_pos hname] at hs
      have hfound := List.filterMap_cons_some (l := sections) hs
      simp [hname, customData, hfound]
    · rw [if_neg hname] at hs
      rw [skip hs, ← ih]
      simp [hname]

/-- Adding the project hash keeps a module valid, and adds custom sections only. -/
theorem addProjectHashToWasmFile_of_valid (hvalid : libs.Valid bytes)
    (hmodule : ModuleOf bytes sections) (projectHash : FixedBytes 32) :
    ∃ hashed sections', addProjectHashToWasmFile libs bytes projectHash = .ok hashed ∧
      libs.Valid hashed ∧ ModuleOf hashed sections' ∧
      customData (utf8 projectHashSectionName) sections' ≠ [] ∧
      withoutCustom sections' = withoutCustom sections := by
  obtain ⟨sections', payloads, hmodule', hpayloads, hparse⟩ := libs.valid_parseAll hvalid
  obtain rfl := hmodule.unique hmodule'
  have hfind : hasProjectHashSection libs bytes =
      .ok (customData (utf8 projectHashSectionName) sections ≠ [] : Bool) := by
    rw [hasProjectHashSection, hparse, ← findProjectHash_of_payloadsOf hpayloads]
    rfl
  by_cases hhash : customData (utf8 projectHashSectionName) sections = []
  · have hcustom : IsCustomOf projectHashSectionName projectHash.1
        ⟨0, encodeCustom (utf8 projectHashSectionName) projectHash.1⟩ := by
      refine ⟨rfl, ?_⟩
      simp only [encodeCustom, List.length_append, projectHash.2]
      decide
    have hmodule'' := hmodule.append_section hcustom.2
    rw [← libs.writeCustomSection_eq hcustom] at hmodule''
    have hdrop : withoutCustom
        (sections ++ [⟨0, encodeCustom (utf8 projectHashSectionName) projectHash.1⟩]) =
          withoutCustom sections := by
      simp [withoutCustom, Section.IsCustom]
    refine ⟨_, _, ?_, libs.valid_custom hvalid hmodule hmodule'' hdrop ?_, hmodule'', ?_, hdrop⟩
    · simp [addProjectHashToWasmFile, addCustomSection, hfind, hhash]
    · intro s hs _
      rcases List.mem_append.1 hs with hs | hs
      · exact Or.inl hs
      · exact Or.inr ⟨_, _, by decide, List.mem_singleton.1 hs ▸ hcustom⟩
    · have hname : (utf8 projectHashSectionName).length < 2 ^ 32 := by decide
      have hread := readCustom_encodeCustom hname projectHash.1
      simp [customData, Section.customData?, Section.IsCustom, hread]
  · exact ⟨bytes, sections, by simp [addProjectHashToWasmFile, hfind, hhash], hvalid, hmodule,
      hhash, rfl⟩

/-- On a valid module the pipeline returns what the compressor returns for the module without
its custom sections. -/
theorem compressWasm_of_valid (hvalid : libs.Valid wasm) (path : PathBuf)
    (projectHash : FixedBytes 32) :
    ∃ text parsed sections, libs.printBytes wasm = .ok text ∧ libs.wat2wasm text = .ok parsed ∧
      ModuleOf parsed sections ∧
      compressWasm libs path (.ok wasm) projectHash =
        (fun compressedBytes => (encodeModule (withoutCustom sections),
            [0xef, 0xf0, 0x00, 0x00] ++ compressedBytes)) <$>
          .wrapErr "failed to compress WASM bytes" (.ofExcept (libs.brotli brotliCompressionLevel
            (encodeModule (withoutCustom sections)))) := by
  obtain ⟨text, parsed, hprint, hparse, hvalid'⟩ := libs.valid_print hvalid
  obtain ⟨sections, payloads, hmodule, -, -⟩ := libs.valid_parseAll hvalid'
  obtain ⟨hashed, sections', hadd, hvalid'', hmodule', -, hsame⟩ :=
    addProjectHashToWasmFile_of_valid hvalid' hmodule projectHash
  have hstrip := stripUserMetadata_of_valid hvalid'' hmodule'
  have hbinary := wat2wasm_module libs (withoutCustom sections)
  rw [hsame] at hstrip
  refine ⟨text, parsed, sections, hprint, hparse, hmodule, ?_⟩
  simp only [compressWasm, hprint, hparse, hadd, hstrip, hbinary, Outcome.ofExcept_ok,
    Outcome.wrapErr, Outcome.mapErr, Outcome.ok_bind]
  cases libs.brotli brotliCompressionLevel (encodeModule (withoutCustom sections)) <;> rfl

/-- The final sections have the project hash that `module` has, or else the one added. -/
def HashEmbedded (module final : List Section) (projectHash : FixedBytes 32) : Prop :=
  (customData (utf8 projectHashSectionName) module = [] →
    customData (utf8 projectHashSectionName) final = [projectHash.1]) ∧
  ∀ data ∈ customData (utf8 projectHashSectionName) module,
    data ∈ customData (utf8 projectHashSectionName) final

/-- The project hash reaches the final module, and with it the contract code. -/
def HashReaches (libs : WasmLibs) (path : PathBuf) (wasm : Bytes) (projectHash : FixedBytes 32) :
    Prop :=
  ∃ sections final finalSections code, ModuleOf wasm sections ∧
    compressWasm libs path (.ok wasm) projectHash = .ok (final, code) ∧
    ModuleOf final finalSections ∧ HashEmbedded sections finalSections projectHash

/-- No custom section can hold a project hash. -/
theorem not_hashEmbedded {sections finalSections : List Section} (projectHash : FixedBytes 32)
    (h : ∀ s ∈ finalSections, ¬s.IsCustom) : ¬HashEmbedded sections finalSections projectHash := by
  rintro ⟨hadded, hkept⟩
  rw [customData_eq_nil h] at hadded hkept
  cases hfound : customData (utf8 projectHashSectionName) sections with
  | nil => cases hadded hfound
  | cons data rest => cases hkept data (hfound ▸ List.mem_cons_self)

/-- The hash of a project reaches the code of no contract. -/
theorem not_hashReaches (libs : WasmLibs) (path : PathBuf) (wasm : Bytes)
    (projectHash : FixedBytes 32) : ¬HashReaches libs path wasm projectHash := by
  rintro ⟨sections, final, finalSections, code, -, hcompress, hfinal, hembedded⟩
  obtain ⟨sections', hfinal', hcustom⟩ := compressWasm_withoutCustom hcompress
  obtain rfl := hfinal.unique hfinal'
  exact not_hashEmbedded projectHash hcustom hembedded

/-- A valid module without a project hash goes through the pipeline, and the final module has
none either. -/
theorem memoryModule_not_hashReaches :
    sectionLibs.Valid memoryModule ∧
      compressWasm sectionLibs [] (.ok memoryModule) (filled 32 0xab) =
        .ok (memoryModule, [0xef, 0xf0, 0x00, 0x00, 0x0b, 0x06, 0x80] ++ memoryModule ++ [0x03]) ∧
      ¬HashReaches sectionLibs [] memoryModule (filled 32 0xab) := by
  have hcompress : compressWasm sectionLibs [] (.ok memoryModule) (filled 32 0xab) =
      .ok (memoryModule, [0xef, 0xf0, 0x00, 0x00, 0x0b, 0x06, 0x80] ++ memoryModule ++ [0x03]) :=
    rfl
  refine ⟨sectionLibs_valid_memoryModule, hcompress, ?_⟩
  rintro ⟨sections, final, finalSections, code, -, hfinal, hmodule, hembedded⟩
  obtain ⟨finalSections', hmodule', hcustom⟩ := compressWasm_withoutCustom hfinal
  obtain rfl := hmodule.unique hmodule'
  exact not_hashEmbedded _ hcustom hembedded

end CargoStylus
