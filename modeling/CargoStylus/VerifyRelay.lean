import CargoStylus.Relay

/-!
# Running `verify` in a container

`verify` too runs itself again in a container, with the words of its rendered
configuration, and both read `CommonConfig` the same way. The container joins the source
patterns to one, so it hashes other files as soon as there are two patterns
(`parseVerify_verifyCommands`). It verifies with the same configuration exactly when no
text in it has a space and there is at most one pattern (`verify_relayed_iff`).
-/

namespace CargoStylus

open Rust Cli

variable {clap : ArgParser} {cfg : VerifyConfig}

/-! ## Rendering and reading -/

/-- `impl Display for VerifyConfig`. -/
def VerifyConfig.display (cfg : VerifyConfig) : Text :=
  join [' '] <|
    [cfg.commonCfg.display] ++
    ["--deployment-tx=".toList ++ cfg.deploymentTx] ++
    flagPart "--no-verify".toList cfg.noVerify ++
    optionalPart "--cargo-stylus-version=".toList cfg.cargoStylusVersion

/-- The command that runs `verify` in a container. -/
def verifyCommands (cfg : VerifyConfig) : List Text :=
  ["verify".toList, "--no-verify".toList] ++ splitWords cfg.display

/-- What the command line sets of `VerifyConfig`. -/
def VerifyConfig.fromArgMatches (m : Matches) : Outcome String VerifyConfig := do
  let deploymentTx ← .ofOption "the argument --deployment-tx is required"
    (m.one "deployment-tx".toList)
  pure
    { commonCfg := CommonConfig.fromArgMatches m, deploymentTx,
      noVerify := m.flag "no-verify".toList,
      cargoStylusVersion := m.one "cargo-stylus-version".toList }

/-- The arguments of `verify`. The hash of the transaction is required. -/
def verifyCommand : Command where
  args :=
    [("endpoint".toList, .single), ("verbose".toList, .flag),
      ("source-files-for-project-hash".toList, .many), ("max-fee-per-gas-gwei".toList, .single),
      ("features".toList, .single), ("deployment-tx".toList, .single),
      ("no-verify".toList, .flag), ("cargo-stylus-version".toList, .single)]
  groups := [["deployment-tx".toList]]
  nodup := by decide
  noEquals := by decide

/-- `Opts` of a command line, where it is one of `verify`. -/
def parseVerify (clap : ArgParser) : List Text → Outcome String VerifyConfig
  | [] => .err "no subcommand"
  | command :: words =>
    if command = "verify".toList ∨ command = "v".toList then do
      let m ← .ofExcept (clap.parse verifyCommand words)
      VerifyConfig.fromArgMatches m
    else .err "another subcommand"

/-! ## The words of a configuration -/

/-- No text of the configuration has a space. -/
structure VerifySpaceFree (cfg : VerifyConfig) : Prop where
  endpoint : ' ' ∉ cfg.commonCfg.endpoint
  patterns : ∀ p ∈ cfg.commonCfg.sourceFilesForProjectHash, ' ' ∉ p
  fee : ∀ text ∈ cfg.commonCfg.maxFeePerGasGwei, ' ' ∉ text
  features : ∀ text ∈ cfg.commonCfg.features, ' ' ∉ text
  deploymentTx : ' ' ∉ cfg.deploymentTx
  version : ∀ text ∈ cfg.cargoStylusVersion, ' ' ∉ text

/-- The arguments of the command line but the last, with `--no-verify` set. -/
def verifySettings (cfg : VerifyConfig) : List Setting :=
  [.flag "no-verify".toList true,
    .value "endpoint".toList (some cfg.commonCfg.endpoint),
    .flag "verbose".toList cfg.commonCfg.verbose,
    .value "source-files-for-project-hash".toList
      (joinedPatterns cfg.commonCfg.sourceFilesForProjectHash),
    .value "max-fee-per-gas-gwei".toList cfg.commonCfg.maxFeePerGasGwei,
    .value "features".toList cfg.commonCfg.features,
    .value "deployment-tx".toList (some cfg.deploymentTx)]

/-- The version, which is set behind the other settings. -/
def versionSetting (cfg : VerifyConfig) : Setting :=
  .value "cargo-stylus-version".toList cfg.cargoStylusVersion

theorem verifySettings_nodup (cfg : VerifyConfig) :
    ((verifySettings cfg ++ [versionSetting cfg]).map Setting.name).Nodup := by
  have hnames : (verifySettings cfg ++ [versionSetting cfg]).map Setting.name =
      ["no-verify", "endpoint", "verbose", "source-files-for-project-hash",
        "max-fee-per-gas-gwei", "features", "deployment-tx",
        "cargo-stylus-version"].map String.toList :=
    rfl
  rw [hnames]
  exact List.Nodup.map (fun _ _ => String.toList_injective) (by decide)

/-- The arguments are a command line of `verify`. -/
theorem verifySettings_isLine (cfg : VerifyConfig) :
    verifyCommand.IsLine (occurrencesOf (verifySettings cfg ++ [versionSetting cfg])) := by
  refine isLine_occurrencesOf ?_ (verifySettings_nodup cfg) ?_
  · simp only [verifySettings, versionSetting, List.cons_append, List.nil_append,
      List.forall_mem_cons, List.not_mem_nil, IsEmpty.forall_iff, implies_true,
      Setting.DeclaredBy]
    simp [verifyCommand, -String.reduceToList]
  · simp [verifySettings, Setting.IsRest]

/-- A configuration without spaces is rendered as its arguments. -/
theorem verifyCommands_eq (hfree : VerifySpaceFree cfg) (hverify : cfg.noVerify = false) :
    verifyCommands cfg =
      "verify".toList :: settingWords (verifySettings cfg ++ [versionSetting cfg]) := by
  have hcommon := splitWords_common hfree.endpoint hfree.patterns hfree.fee hfree.features
  have h1 := splitWords_value "--deployment-tx=".toList "deployment-tx".toList rfl (by decide)
    hfree.deploymentTx
  have h2 := splitWords_optionalPart "--cargo-stylus-version=".toList
    "cargo-stylus-version".toList rfl (by decide) hfree.version
  have hunset : (flagPart "--no-verify".toList false).flatMap splitWords = [] := rfl
  have hset : ["--no-verify".toList] =
      (Setting.flag "no-verify".toList true).occurrences.flatMap Occurrence.words :=
    rfl
  have hcommand : verifyCommands cfg =
      "verify".toList :: (["--no-verify".toList] ++ splitWords cfg.display) :=
    rfl
  rw [hcommand, hset, VerifyConfig.display, splitWords_join]
  simp only [List.flatMap_append, List.flatMap_singleton, hcommon, h1, h2, hverify, hunset,
    settingWords_append, settingWords_cons, settingWords_nil, verifySettings, versionSetting,
    List.append_assoc, List.append_nil, List.nil_append]

/-! ## What is read back -/

/-- What the command line of the container sets. -/
def verifyMatches (cfg : VerifyConfig) : Matches :=
  matchesOf (occurrencesOf (verifySettings cfg ++ [versionSetting cfg]))

theorem verify_one {name : Text} {value : Option Text}
    (h : Setting.value name value ∈ verifySettings cfg) : (verifyMatches cfg).one name = value :=
  one_matchesOf (verifySettings_nodup cfg) (List.mem_append_left _ h)

theorem verify_flag {name : Text} {on : Bool} (h : Setting.flag name on ∈ verifySettings cfg) :
    (verifyMatches cfg).flag name = on :=
  flag_matchesOf (verifySettings_nodup cfg) (List.mem_append_left _ h)

/-- The patterns come back as one. -/
theorem verify_patterns : (verifyMatches cfg).values "source-files-for-project-hash".toList =
    (joinedPatterns cfg.commonCfg.sourceFilesForProjectHash).toList := by
  have hmem : Setting.value "source-files-for-project-hash".toList
      (joinedPatterns cfg.commonCfg.sourceFilesForProjectHash) ∈
        verifySettings cfg ++ [versionSetting cfg] :=
    List.mem_append_left _ (by simp [verifySettings, -String.reduceToList])
  have hvalues := values_matchesOf (verifySettings_nodup cfg) hmem
  rw [Setting.name] at hvalues
  rw [verifyMatches, hvalues]
  rcases joinedPatterns cfg.commonCfg.sourceFilesForProjectHash <;>
    simp [Setting.occurrences, Occurrence.valuesOf]

/-- The configuration the container reads. -/
def verifyRelayed (cfg : VerifyConfig) : VerifyConfig :=
  { cfg with
    commonCfg := { cfg.commonCfg with
      sourceFilesForProjectHash :=
        (joinedPatterns cfg.commonCfg.sourceFilesForProjectHash).toList }
    noVerify := true }

theorem fromArgMatches_verifyMatches (cfg : VerifyConfig) :
    VerifyConfig.fromArgMatches (verifyMatches cfg) = .ok (verifyRelayed cfg) := by
  have h1 : (verifyMatches cfg).one "endpoint".toList = some cfg.commonCfg.endpoint :=
    verify_one (by simp [verifySettings, -String.reduceToList])
  have h2 : (verifyMatches cfg).flag "verbose".toList = cfg.commonCfg.verbose :=
    verify_flag (by simp [verifySettings, -String.reduceToList])
  have h3 : (verifyMatches cfg).one "max-fee-per-gas-gwei".toList =
      cfg.commonCfg.maxFeePerGasGwei :=
    verify_one (by simp [verifySettings, -String.reduceToList])
  have h4 : (verifyMatches cfg).one "features".toList = cfg.commonCfg.features :=
    verify_one (by simp [verifySettings, -String.reduceToList])
  have h5 : (verifyMatches cfg).one "deployment-tx".toList = some cfg.deploymentTx :=
    verify_one (by simp [verifySettings, -String.reduceToList])
  have h6 : (verifyMatches cfg).flag "no-verify".toList = true :=
    verify_flag (by simp [verifySettings, -String.reduceToList])
  have h7 : (verifyMatches cfg).one "cargo-stylus-version".toList = cfg.cargoStylusVersion :=
    one_matchesOf (verifySettings_nodup cfg) (List.mem_append_right _ (List.mem_singleton.2 rfl))
  simp only [VerifyConfig.fromArgMatches, CommonConfig.fromArgMatches, h1, h2, h3, h4, h5, h6, h7,
    verify_patterns, Option.getD_some, Outcome.ofOption, Outcome.ok_bind, Outcome.pure_eq,
    verifyRelayed]

theorem groupsHold_verify : verifyCommand.GroupsHold
    (occurrencesOf (verifySettings cfg ++ [versionSetting cfg])) := by
  have hmem : "deployment-tx".toList ∈ (occurrencesOf
      (verifySettings cfg ++ [versionSetting cfg])).map Occurrence.name :=
    (mem_names_iff (verifySettings_nodup cfg) (v := some cfg.deploymentTx)
      (List.mem_append_left _ (by simp [verifySettings, -String.reduceToList]))).2 rfl
  rw [Command.GroupsHold, verifyCommand, List.forall_mem_singleton]
  simp only [List.filter_cons, List.filter_nil, hmem, decide_true, if_true, List.length_singleton]

/-- The command line of the container is read as the configuration with its patterns joined. -/
theorem parseVerify_verifyCommands (clap : ArgParser) (hfree : VerifySpaceFree cfg)
    (hverify : cfg.noVerify = false) :
    parseVerify clap (verifyCommands cfg) = .ok (verifyRelayed cfg) := by
  have hm : clap.parse verifyCommand
      (settingWords (verifySettings cfg ++ [versionSetting cfg])) = .ok (verifyMatches cfg) :=
    (clap.parse_line (verifySettings_isLine cfg)).2 ⟨groupsHold_verify, rfl⟩
  rw [verifyCommands_eq hfree hverify, parseVerify, if_pos (Or.inl rfl), hm,
    Outcome.ofExcept_ok, Outcome.ok_bind]
  exact fromArgMatches_verifyMatches cfg

/-- A verification read from words without spaces has none. -/
theorem verifySpaceFree_of_words {words : List Text} (h : parseVerify clap words = .ok cfg)
    (hwords : ∀ word ∈ words, ' ' ∉ word) : VerifySpaceFree cfg := by
  rcases words with _ | ⟨command, words⟩
  · cases h
  rw [parseVerify] at h
  split_ifs at h
  obtain ⟨m, hm, hread⟩ := Outcome.bind_eq_ok.1 h
  have hspace : ∀ {name text : Text}, text ∈ m.values name → ' ' ∉ text := by
    intro name text htext hspace
    obtain ⟨word, hword, hsuffix⟩ := clap.value_suffix (Outcome.ofExcept_eq_ok.1 hm) htext
    exact hwords word (List.mem_cons_of_mem _ hword) (hsuffix.subset hspace)
  have hone : ∀ {name : Text}, ∀ text ∈ m.one name, ' ' ∉ text :=
    fun text htext => hspace (mem_values_of_one htext)
  obtain ⟨deploymentTx, htx, hread⟩ := Outcome.bind_eq_ok.1 hread
  obtain rfl := Outcome.ok.inj hread
  refine
    { endpoint := ?_, patterns := fun _ => hspace, fee := hone, features := hone,
      deploymentTx := hone _ (Outcome.ofOption_eq_ok.1 htx), version := hone }
  change ' ' ∉ (m.one "endpoint".toList).getD defaultEndpoint
  rcases hendpoint : m.one "endpoint".toList with _ | text
  · rw [Option.getD_none]
    decide
  · exact hone text hendpoint

theorem noSpace_verifyCommands (cfg : VerifyConfig) : ∀ word ∈ verifyCommands cfg, ' ' ∉ word := by
  refine List.forall_mem_append.2 ⟨by decide, fun word hword => ?_⟩
  exact not_mem_of_mem_splitWords hword

/-- What the container reads has no spaces. -/
theorem verifySpaceFree_of_parseVerify {cfg' : VerifyConfig}
    (h : parseVerify clap (verifyCommands cfg) = .ok cfg') : VerifySpaceFree cfg' :=
  verifySpaceFree_of_words h (noSpace_verifyCommands cfg)

/-! ## When the container verifies the same -/

/-- The configurations that a container verifies as they are. -/
structure VerifyRelayable (cfg : VerifyConfig) : Prop where
  spaceFree : VerifySpaceFree cfg
  patterns : cfg.commonCfg.sourceFilesForProjectHash.length ≤ 1

/-- `verify` in a container has the configuration it was started with, up to
`--no-verify`, exactly if no text in it has a space and there is at most one source
pattern. -/
theorem verify_relayed_iff (clap : ArgParser) (cfg : VerifyConfig)
    (hverify : cfg.noVerify = false) :
    parseVerify clap (verifyCommands cfg) = .ok { cfg with noVerify := true } ↔
      VerifyRelayable cfg := by
  refine ⟨fun h => ?_, fun h => ?_⟩
  · have hfree' := verifySpaceFree_of_parseVerify h
    have hfree : VerifySpaceFree cfg := { hfree' with }
    have hsame := (parseVerify_verifyCommands clap hfree hverify).symm.trans h
    have hpatterns := congrArg (fun c : VerifyConfig => c.commonCfg.sourceFilesForProjectHash)
      (Outcome.ok.inj hsame)
    exact ⟨hfree, joinedPatterns_toList_eq_iff.1 hpatterns⟩
  · have hpatterns := joinedPatterns_toList_eq_iff.2 h.patterns
    rw [parseVerify_verifyCommands clap h.spaceFree hverify, verifyRelayed, hpatterns]

/-- A verification with two source patterns. -/
def twoPatterns : VerifyConfig where
  commonCfg :=
    { endpoint := defaultEndpoint, verbose := false,
      sourceFilesForProjectHash := ["src/lib.rs".toList, "src/main.rs".toList],
      maxFeePerGasGwei := none, features := none }
  deploymentTx := "0x01".toList
  noVerify := false
  cargoStylusVersion := none

/-- The same verification with one pattern. -/
def onePattern : VerifyConfig :=
  { twoPatterns with commonCfg := { twoPatterns.commonCfg with
      sourceFilesForProjectHash := ["src/lib.rs".toList] } }

theorem twoPatterns_spaceFree : VerifySpaceFree twoPatterns where
  endpoint := by decide
  patterns := by decide
  fee := by decide
  features := by decide
  deploymentTx := by decide
  version := by decide

theorem onePattern_relayed : VerifyRelayable onePattern ∧
    parseVerify longOptions (verifyCommands onePattern) =
      .ok { onePattern with noVerify := true } := by
  have hfree : VerifySpaceFree onePattern :=
    { twoPatterns_spaceFree with patterns := by decide }
  have hrelayable : VerifyRelayable onePattern := ⟨hfree, by decide⟩
  exact ⟨hrelayable, (verify_relayed_iff longOptions onePattern rfl).2 hrelayable⟩

/-- The container hashes the files of one pattern with a comma in it. -/
theorem twoPatterns_not_relayed : twoPatterns.noVerify = false ∧
    parseVerify longOptions (verifyCommands twoPatterns) =
      .ok { twoPatterns with
        commonCfg := { twoPatterns.commonCfg with
          sourceFilesForProjectHash := ["src/lib.rs,src/main.rs".toList] }
        noVerify := true } ∧
    parseVerify longOptions (verifyCommands twoPatterns) ≠
      .ok { twoPatterns with noVerify := true } := by
  have hread := parseVerify_verifyCommands longOptions twoPatterns_spaceFree rfl
  have hjoined : verifyRelayed twoPatterns = { twoPatterns with
      commonCfg := { twoPatterns.commonCfg with
        sourceFilesForProjectHash := ["src/lib.rs,src/main.rs".toList] }
      noVerify := true } := by
    decide
  refine ⟨rfl, hread.trans (congrArg Outcome.ok hjoined), fun h => ?_⟩
  have hpatterns := congrArg (fun c : VerifyConfig => c.commonCfg.sourceFilesForProjectHash)
    (Outcome.ok.inj (hread.symm.trans h))
  exact absurd hpatterns (by decide)

end CargoStylus
