import CargoStylus.Build

/-!
# The toolchain channel

The channel of a project is in its toolchain file. A generic channel is an error, since it
does not fix a version, and the channel that is returned has only the characters that
channels have. The channel in the file is compared with the generic ones before the other
characters are taken out. So a generic channel is returned if there are other characters in
it, and exactly then the channel does not stand for a version
(`extractToolchainChannel_specific_iff`).
-/

namespace CargoStylus

open Rust

/-! ## The file -/

/-- What reading a toolchain file works with. -/
structure ToolchainLibs where
  /-- `toml::from_str`. -/
  fromStr : Text → Except String TomlValue
  /-- `char::is_alphanumeric`, of which only the ASCII characters are written out. -/
  isAlphanumeric : Char → Bool
  isAlphanumeric_ascii : ∀ c : Char, c.toNat < 128 → isAlphanumeric c = c.isAlphanum

variable (libs : ToolchainLibs)

/-- The channels that are not specific. -/
def genericChannels : List Text :=
  ["stable".toList, "nightly".toList, "beta".toList]

/-- The characters that channels have. -/
def ToolchainLibs.isChannelChar (c : Char) : Bool :=
  libs.isAlphanumeric c || c = '-' || c = '.'

/-- The channel of the file with these contents, if it can be read. -/
def extractToolchainChannel (toolchainFileContents : Except String Text) :
    Outcome String Text := do
  let toolchainFileContents ← .wrapErr ("expected to find a rust-toolchain.toml file in " ++
    "project directory to specify your Rust toolchain for reproducible verification. The " ++
    "channel in your project's rust-toolchain.toml's toolchain section must be a specific " ++
    "version e.g., '1.80.0' or 'nightly-YYYY-MM-DD'. To ensure reproducibility, it cannot be " ++
    "a generic channel like 'stable', 'nightly', or 'beta'. Read more about the toolchain " ++
    "file in https://rust-lang.github.io/rustup/overrides.html#the-toolchain-file or see the " ++
    "file in https://github.com/OffchainLabs/stylus-hello-world for an example")
    (.ofExcept toolchainFileContents)
  let toolchainToml ← .wrapErr "failed to parse rust-toolchain.toml"
    (.ofExcept (libs.fromStr toolchainFileContents))
  let toolchain ← .ofOption "toolchain section not found in rust-toolchain.toml"
    (toolchainToml.get? "toolchain".toList)
  let channel ← .ofOption "could not find channel in rust-toolchain.toml's toolchain section"
    (toolchain.get? "channel".toList)
  let channel ← .ofOption "channel in rust-toolchain.toml's toolchain section is not a string"
    channel.asStr
  if genericChannels.contains channel then
    .err ("the channel in your project's rust-toolchain.toml's toolchain section must be a " ++
      "specific version e.g., '1.80.0' or 'nightly-YYYY-MM-DD'. To ensure reproducibility, " ++
      "it cannot be a generic channel like 'stable', 'nightly', or 'beta'")
  else
    return channel.filter libs.isChannelChar

/-- The channel that a toolchain file has. -/
def fileChannel (text : Text) : Option Text := do
  let toolchainToml ← (libs.fromStr text).toOption
  let toolchain ← toolchainToml.get? "toolchain".toList
  let channel ← toolchain.get? "channel".toList
  channel.asStr

variable {libs} {text channel c : Text}

theorem extractToolchainChannel_eq_ok :
    extractToolchainChannel libs (.ok text) = .ok c ↔
      ∃ channel, fileChannel libs text = some channel ∧ channel ∉ genericChannels ∧
        channel.filter libs.isChannelChar = c := by
  have hparse : ∀ v, (libs.fromStr text).toOption = some v ↔ libs.fromStr text = .ok v := by
    intro v
    cases libs.fromStr text <;> simp [Except.toOption]
  simp only [extractToolchainChannel, fileChannel, Outcome.bind_eq_ok, Outcome.wrapErr_eq_ok,
    Outcome.ofExcept_eq_ok, Outcome.ofOption_eq_ok, Except.ok.injEq, exists_eq_left',
    Option.bind_eq_bind, Option.bind_eq_some_iff, hparse]
  refine ⟨fun h => ?_, fun h => ?_⟩
  · obtain ⟨toml, htoml, toolchain, htoolchain, value, hvalue, channel, hchannel, h⟩ := h
    split_ifs at h with hgeneric
    exact ⟨channel, ⟨toml, htoml, toolchain, htoolchain, value, hvalue, hchannel⟩,
      fun hmem => hgeneric (List.contains_iff_mem.2 hmem), Outcome.ok.inj h⟩
  · obtain ⟨channel, ⟨toml, htoml, toolchain, htoolchain, value, hvalue, hchannel⟩, hgeneric,
      rfl⟩ := h
    exact ⟨toml, htoml, toolchain, htoolchain, value, hvalue, channel, hchannel,
      if_neg fun hcontains => hgeneric (List.contains_iff_mem.1 hcontains)⟩

/-! ## Names with other characters in them -/

/-- `padded` is `name` with characters in it that are not kept. -/
inductive Padded (keep : Char → Bool) : Text → Text → Prop
  | nil : Padded keep [] []
  | kept {c : Char} {name padded : Text} : keep c = true → Padded keep name padded →
      Padded keep (c :: name) (c :: padded)
  | added {c : Char} {name padded : Text} : keep c = false → Padded keep name padded →
      Padded keep name (c :: padded)

/-- The name is what is left of it. -/
theorem padded_iff {keep : Char → Bool} {name padded : Text} :
    Padded keep name padded ↔ padded.filter keep = name := by
  refine ⟨fun h => ?_, fun h => ?_⟩
  · induction h with
    | nil => rfl
    | kept hkeep _ ih => rw [List.filter_cons_of_pos hkeep, ih]
    | added hdrop _ ih => rw [List.filter_cons_of_neg (by simp [hdrop]), ih]
  · induction padded generalizing name with
    | nil =>
      rw [List.filter_nil] at h
      exact h ▸ .nil
    | cons c padded ih =>
      cases hkeep : keep c with
      | true =>
        rw [List.filter_cons_of_pos hkeep] at h
        exact h ▸ .kept hkeep (ih rfl)
      | false =>
        rw [List.filter_cons_of_neg (by simp [hkeep])] at h
        exact .added hkeep (ih h)

theorem isChannelChar_of_mem {name : Text} (hname : name ∈ genericChannels) {c : Char}
    (hc : c ∈ name) : libs.isChannelChar c = true := by
  have hall : (genericChannels.all fun name =>
      name.all fun c => decide (c.toNat < 128 ∧ c.isAlphanum = true)) = true := by
    decide
  have hlower := List.all_eq_true.1 (List.all_eq_true.1 hall name hname) c hc
  obtain ⟨hascii, halpha⟩ := of_decide_eq_true hlower
  rw [ToolchainLibs.isChannelChar, libs.isAlphanumeric_ascii c hascii, halpha, Bool.true_or,
    Bool.true_or]

theorem filter_genericChannel {name : Text} (hname : name ∈ genericChannels) :
    name.filter libs.isChannelChar = name :=
  List.filter_eq_self.2 fun _ hc => isChannelChar_of_mem hname hc

/-! ## When the channel is specific -/

/-- A channel that is returned is not generic, has only characters that channels have, and is
returned again for a file with that channel. -/
def SpecificChannel (libs : ToolchainLibs) (text : Text) : Prop :=
  ∀ c, extractToolchainChannel libs (.ok text) = .ok c →
    c ∉ genericChannels ∧
    (∀ x ∈ c, libs.isAlphanumeric x = true ∨ x = '-' ∨ x = '.') ∧
    ∀ text', fileChannel libs text' = some c → extractToolchainChannel libs (.ok text') = .ok c

/-- The channel that is returned is specific exactly if the one in the file is not a generic
channel with other characters in it. -/
theorem extractToolchainChannel_specific_iff (libs : ToolchainLibs) (text : Text) :
    SpecificChannel libs text ↔ ∀ channel, fileChannel libs text = some channel →
      ∀ name ∈ genericChannels, Padded libs.isChannelChar name channel → channel = name := by
  refine ⟨fun hspecific channel hchannel name hname hpadded => ?_, fun h c hc => ?_⟩
  · have hfilter := padded_iff.1 hpadded
    by_cases hgeneric : channel ∈ genericChannels
    · exact (filter_genericChannel hgeneric).symm.trans hfilter
    · have hok := extractToolchainChannel_eq_ok.2 ⟨channel, hchannel, hgeneric, hfilter⟩
      exact absurd hname (hspecific name hok).1
  · obtain ⟨channel, hchannel, hgeneric, hfilter⟩ := extractToolchainChannel_eq_ok.1 hc
    have hnot : c ∉ genericChannels := fun hmem =>
      hgeneric (h channel hchannel c hmem (padded_iff.2 hfilter) ▸ hmem)
    have hchars : ∀ x ∈ c, libs.isChannelChar x = true := fun x hx =>
      (List.mem_filter.1 (hfilter ▸ hx)).2
    refine ⟨hnot, fun x hx => ?_, fun text' htext' => ?_⟩
    · simpa [ToolchainLibs.isChannelChar, or_assoc] using hchars x hx
    · exact extractToolchainChannel_eq_ok.2 ⟨c, htext', hnot, List.filter_eq_self.2 hchars⟩

/-- A toolchain file whose channel has a space at its end. -/
def spacedText : Text :=
  "[toolchain]\nchannel = \"stable \"\n".toList

/-- Libraries that read this file. -/
def spacedLibs : ToolchainLibs where
  fromStr text :=
    if text = spacedText then
      .ok (.table [("toolchain".toList,
        .table [("channel".toList, .string "stable ".toList)])])
    else .error "expected an equals"
  isAlphanumeric := Char.isAlphanum
  isAlphanumeric_ascii _ _ := rfl

/-- The channel that is returned for it is `stable`. -/
theorem spacedText_not_specific : ¬SpecificChannel spacedLibs spacedText := by
  intro h
  have hok : extractToolchainChannel spacedLibs (.ok spacedText) = .ok "stable".toList :=
    extractToolchainChannel_eq_ok.2 ⟨"stable ".toList, rfl, by decide, by decide⟩
  exact (h _ hok).1 (by decide)

/-- A file with a specific channel. -/
def fixedText : Text :=
  "[toolchain]\nchannel = \"1.80.0\"\n".toList

/-- Libraries that read this file. -/
def fixedLibs : ToolchainLibs :=
  { spacedLibs with
    fromStr := fun text =>
      if text = fixedText then
        .ok (.table [("toolchain".toList,
          .table [("channel".toList, .string "1.80.0".toList)])])
      else .error "expected an equals" }

/-- The channel that is returned for it. -/
def fixedChannel : Text :=
  "1.80.0".toList

theorem extractToolchainChannel_fixedText :
    extractToolchainChannel fixedLibs (.ok fixedText) = .ok fixedChannel :=
  extractToolchainChannel_eq_ok.2 ⟨fixedChannel, rfl, by decide, by decide⟩

end CargoStylus
