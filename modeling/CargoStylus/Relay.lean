import Mathlib.Data.Nat.ModEq
import Mathlib.Tactic.NormNum.GCD
import CargoStylus.Cli.LongOptions
import CargoStylus.HexText
import CargoStylus.Opts

/-!
# Running `deploy` in a container

`deploy` runs itself again in a container, with the words of its rendered configuration. The
words are what they are rendered from as long as the texts in it have no spaces
(`splitWords_display`), and then the command line reads back with the source patterns joined,
the value in wei read as ether, the signature in quotes and the empty constructor arguments
lost (`parseDeploy_deployCommands`). A text with a space is cut, and no text that was read has
one. So the container deploys with the same configuration exactly under the conditions of
`Relayable` (`relayed_iff`).
-/

namespace CargoStylus

open Rust Cli

variable {clap : ArgParser} {alloy : AlloyText} {cfg : DeployConfig}

/-! ## Configurations without spaces -/

/-- A path that is text, without spaces and not empty. -/
def PlainPath (path : PathBuf) : Prop :=
  ∃ text : Text, path = utf8 text ∧ text ≠ [] ∧ ' ' ∉ text

/-- No text of the configuration has a space, and its paths are plain. -/
structure SpaceFree (cfg : DeployConfig) : Prop where
  endpoint : ' ' ∉ cfg.checkConfig.commonCfg.endpoint
  patterns : ∀ p ∈ cfg.checkConfig.commonCfg.sourceFilesForProjectHash, ' ' ∉ p
  fee : ∀ text ∈ cfg.checkConfig.commonCfg.maxFeePerGasGwei, ' ' ∉ text
  features : ∀ text ∈ cfg.checkConfig.commonCfg.features, ' ' ∉ text
  wasmFile : ∀ path ∈ cfg.checkConfig.wasmFile, PlainPath path
  privateKeyPath : ∀ path ∈ cfg.auth.privateKeyPath, PlainPath path
  privateKey : ∀ text ∈ cfg.auth.privateKey, ' ' ∉ text
  keystorePath : ∀ text ∈ cfg.auth.keystorePath, ' ' ∉ text
  keystorePasswordPath : ∀ path ∈ cfg.auth.keystorePasswordPath, PlainPath path
  version : ∀ text ∈ cfg.cargoStylusVersion, ' ' ∉ text
  signature : ∀ text ∈ cfg.constructorSignature, ' ' ∉ text
  args : ∀ arg ∈ cfg.constructorArgs, ' ' ∉ arg

/-! ## What is rendered -/

/-- A signature in quotes. -/
def quoted (signature : Text) : Text :=
  "'".toList ++ (signature ++ "'".toList)

/-- The patterns as one value. -/
def joinedPatterns (patterns : List Text) : Option Text :=
  if patterns ≠ [] then some (join [','] patterns) else none

/-- The arguments of the command line, with `--no-verify` set. -/
def relaySettings (alloy : AlloyText) (cfg : DeployConfig) : List Setting :=
  [.flag "no-verify".toList true,
    .value "endpoint".toList (some cfg.checkConfig.commonCfg.endpoint),
    .flag "verbose".toList cfg.checkConfig.commonCfg.verbose,
    .value "source-files-for-project-hash".toList
      (joinedPatterns cfg.checkConfig.commonCfg.sourceFilesForProjectHash),
    .value "max-fee-per-gas-gwei".toList cfg.checkConfig.commonCfg.maxFeePerGasGwei,
    .value "features".toList cfg.checkConfig.commonCfg.features,
    .value "data-fee-bump-percent".toList
      (some (showNat cfg.checkConfig.dataFee.dataFeeBumpPercent.toNat)),
    .value "wasm-file".toList (cfg.checkConfig.wasmFile.map displayPath),
    .value "contract-address".toList (cfg.checkConfig.contractAddress.map alloy.showAddress),
    .value "private-key-path".toList (cfg.auth.privateKeyPath.map displayPath),
    .value "private-key".toList cfg.auth.privateKey,
    .value "keystore-path".toList cfg.auth.keystorePath,
    .value "keystore-password-path".toList (cfg.auth.keystorePasswordPath.map displayPath),
    .flag "estimate-gas".toList cfg.estimateGas,
    .value "cargo-stylus-version".toList cfg.cargoStylusVersion,
    .flag "no-activate".toList cfg.noActivate,
    .value "deployer-address".toList (some (alloy.showAddress cfg.deployerAddress)),
    .value "deployer-salt".toList (some (alloy.showB256 cfg.deployerSalt)),
    .value "constructor-value".toList (some (showNat cfg.constructorValue.toNat)),
    .value "constructor-signature".toList (cfg.constructorSignature.map quoted)]

/-- The constructor arguments, without the empty ones. -/
def argsSetting (cfg : DeployConfig) : Setting :=
  .rest "constructor-args".toList
    (if cfg.constructorArgs ≠ [] then some (cfg.constructorArgs.filter (· ≠ [])) else none)

/-- The names of the arguments, each once. -/
theorem relaySettings_nodup (alloy : AlloyText) (cfg : DeployConfig) :
    ((relaySettings alloy cfg ++ [argsSetting cfg]).map Setting.name).Nodup := by
  have hnames : (relaySettings alloy cfg ++ [argsSetting cfg]).map Setting.name =
      ["no-verify", "endpoint", "verbose",
        "source-files-for-project-hash", "max-fee-per-gas-gwei",
        "features", "data-fee-bump-percent", "wasm-file",
        "contract-address", "private-key-path", "private-key",
        "keystore-path", "keystore-password-path", "estimate-gas",
        "cargo-stylus-version", "no-activate", "deployer-address",
        "deployer-salt", "constructor-value", "constructor-signature",
        "constructor-args"].map String.toList :=
    rfl
  rw [hnames]
  exact List.Nodup.map (fun _ _ => String.toList_injective) (by decide)

/-- The arguments are a command line of `deploy`. -/
theorem relaySettings_isLine (alloy : AlloyText) (cfg : DeployConfig) :
    deployCommand.IsLine (occurrencesOf (relaySettings alloy cfg ++ [argsSetting cfg])) := by
  refine isLine_occurrencesOf ?_ (relaySettings_nodup alloy cfg) ?_
  · simp only [relaySettings, argsSetting, List.cons_append, List.nil_append,
      List.forall_mem_cons, List.not_mem_nil, IsEmpty.forall_iff, implies_true,
      Setting.DeclaredBy]
    simp [deployCommand, -String.reduceToList]
  · simp [relaySettings, Setting.IsRest]

/-! ## The words of a configuration -/

/-- A flag is one word, if it is set. -/
theorem splitWords_flagPart (text name : Text) (htext : text = '-' :: '-' :: name)
    (hname : ' ' ∉ name) (on : Bool) :
    (flagPart text on).flatMap splitWords =
      (Setting.flag name on).occurrences.flatMap Occurrence.words := by
  subst htext
  cases on with
  | false => rfl
  | true =>
    have hword : ' ' ∉ '-' :: '-' :: name := by simp [hname]
    simp [flagPart, Setting.occurrences, Occurrence.words, splitWords_of_not_mem hword]

/-- An argument with a value is one word, if it is there. -/
theorem splitWords_optionalPart (start name : Text) (hstart : start = '-' :: '-' :: (name ++ ['=']))
    (hname : ' ' ∉ name) {value : Option Text} (hvalue : ∀ text ∈ value, ' ' ∉ text) :
    (optionalPart start value).flatMap splitWords =
      (Setting.value name value).occurrences.flatMap Occurrence.words := by
  subst hstart
  cases value with
  | none => rfl
  | some text =>
    have htext := hvalue text rfl
    have hword : ' ' ∉ '-' :: '-' :: (name ++ '=' :: text) := by simp [hname, htext]
    simp [optionalPart, Setting.occurrences, Occurrence.words, splitWords_of_not_mem hword]

theorem splitWords_value (start name : Text) (hstart : start = '-' :: '-' :: (name ++ ['=']))
    (hname : ' ' ∉ name) {text : Text} (htext : ' ' ∉ text) :
    splitWords (start ++ text) =
      (Setting.value name (some text)).occurrences.flatMap Occurrence.words := by
  rw [← splitWords_optionalPart start name hstart hname (by simpa using htext)]
  simp [optionalPart]

/-- Arguments without spaces are read as they are, but for empty ones. -/
theorem splitWords_args {args : List Text} (h : ∀ arg ∈ args, ' ' ∉ arg) :
    args.flatMap splitWords = args.filter (· ≠ []) := by
  induction args with
  | nil => rfl
  | cons arg args ih =>
    have htail := ih fun a ha => h a (List.mem_cons_of_mem arg ha)
    rw [List.flatMap_cons, htail]
    by_cases hne : arg = []
    · simp [hne, splitWords_nil]
    · rw [splitWords_of_not_mem (h arg List.mem_cons_self) hne,
        List.filter_cons_of_pos (by simpa using hne), List.singleton_append]

theorem noSpace_showNat (n : ℕ) : ' ' ∉ showNat n :=
  fun h => absurd (isDigit_of_mem_showNat h) (by decide)

theorem noSpace_join : ∀ {parts : List Text}, (∀ p ∈ parts, ' ' ∉ p) → ' ' ∉ join [','] parts
  | [], _ => List.not_mem_nil
  | [part], h => by simpa [join] using h part List.mem_cons_self
  | part :: part' :: parts, h => by
    have hpart := h part List.mem_cons_self
    have htail := noSpace_join fun p hp => h p (List.mem_cons_of_mem part hp)
    rw [join, List.intercalate_cons_cons]
    simp only [List.mem_append, not_or]
    exact ⟨⟨hpart, by decide⟩, htail⟩

theorem noSpace_joinedPatterns {patterns : List Text} (h : ∀ p ∈ patterns, ' ' ∉ p) :
    ∀ text ∈ joinedPatterns patterns, ' ' ∉ text := by
  intro text htext
  unfold joinedPatterns at htext
  split_ifs at htext with hne
  · obtain rfl := Option.some.inj htext
    exact noSpace_join h
  · cases htext

theorem displayPath_plain {text : Text} : displayPath (utf8 text) = text :=
  fromUtf8Lossy_utf8 text

theorem noSpace_displayPath {path : Option PathBuf} (h : ∀ p ∈ path, PlainPath p) :
    ∀ text ∈ path.map displayPath, ' ' ∉ text := by
  intro text htext
  obtain ⟨p, hp, rfl⟩ := Option.map_eq_some_iff.1 htext
  obtain ⟨s, rfl, -, hs⟩ := h p hp
  rwa [displayPath_plain]

theorem noSpace_quoted {signature : Option Text} (h : ∀ text ∈ signature, ' ' ∉ text) :
    ∀ text ∈ signature.map quoted, ' ' ∉ text := by
  intro text htext
  obtain ⟨s, hs, rfl⟩ := Option.map_eq_some_iff.1 htext
  simp [quoted, h s hs]

/-- The words of settings. -/
def settingWords (settings : List Setting) : List Text :=
  (occurrencesOf settings).flatMap Occurrence.words

theorem settingWords_cons (s : Setting) (settings : List Setting) :
    settingWords (s :: settings) =
      s.occurrences.flatMap Occurrence.words ++ settingWords settings :=
  List.flatMap_append

theorem settingWords_nil : settingWords [] = [] :=
  rfl

theorem settingWords_append (settings settings' : List Setting) :
    settingWords (settings ++ settings') = settingWords settings ++ settingWords settings' := by
  rw [settingWords, occurrencesOf, List.flatMap_append, List.flatMap_append]
  rfl

theorem splitWords_common {common : CommonConfig} (hendpoint : ' ' ∉ common.endpoint)
    (hpatterns : ∀ p ∈ common.sourceFilesForProjectHash, ' ' ∉ p)
    (hfee : ∀ text ∈ common.maxFeePerGasGwei, ' ' ∉ text)
    (hfeatures : ∀ text ∈ common.features, ' ' ∉ text) :
    splitWords common.display = settingWords
      [.value "endpoint".toList (some common.endpoint), .flag "verbose".toList common.verbose,
        .value "source-files-for-project-hash".toList
          (joinedPatterns common.sourceFilesForProjectHash),
        .value "max-fee-per-gas-gwei".toList common.maxFeePerGasGwei,
        .value "features".toList common.features] := by
  have hfiles : (if common.sourceFilesForProjectHash ≠ [] then
      ["--source-files-for-project-hash=".toList ++
        join [','] common.sourceFilesForProjectHash] else []) =
      optionalPart "--source-files-for-project-hash=".toList
        (joinedPatterns common.sourceFilesForProjectHash) := by
    unfold joinedPatterns
    split_ifs <;> rfl
  have h1 := splitWords_value "--endpoint=".toList "endpoint".toList rfl (by decide) hendpoint
  have h2 := splitWords_flagPart "--verbose".toList "verbose".toList rfl (by decide) common.verbose
  have h3 := splitWords_optionalPart "--source-files-for-project-hash=".toList
    "source-files-for-project-hash".toList rfl (by decide) (noSpace_joinedPatterns hpatterns)
  have h4 := splitWords_optionalPart "--max-fee-per-gas-gwei=".toList
    "max-fee-per-gas-gwei".toList rfl (by decide) hfee
  have h5 := splitWords_optionalPart "--features=".toList "features".toList rfl (by decide)
    hfeatures
  rw [CommonConfig.display, splitWords_join, hfiles]
  simp only [List.flatMap_append, List.flatMap_singleton, h1, h2, h3, h4, h5, settingWords_cons,
    settingWords_nil, List.append_assoc, List.append_nil]

theorem splitWords_check (alloy : AlloyText) {check : CheckConfig} {common : List Setting}
    (hwasm : ∀ path ∈ check.wasmFile, PlainPath path)
    (hcommon : splitWords check.commonCfg.display = settingWords common) :
    splitWords (check.display alloy) = settingWords (common ++
      [.value "data-fee-bump-percent".toList
          (some (showNat check.dataFee.dataFeeBumpPercent.toNat)),
        .value "wasm-file".toList (check.wasmFile.map displayPath),
        .value "contract-address".toList (check.contractAddress.map alloy.showAddress)]) := by
  have haddress : ∀ text ∈ check.contractAddress.map alloy.showAddress, ' ' ∉ text := by
    intro text htext
    obtain ⟨address, -, rfl⟩ := Option.map_eq_some_iff.1 htext
    exact alloy.noSpace_showAddress address
  have h1 := splitWords_value "--data-fee-bump-percent=".toList "data-fee-bump-percent".toList
    rfl (by decide) (noSpace_showNat check.dataFee.dataFeeBumpPercent.toNat)
  have h2 := splitWords_optionalPart "--wasm-file=".toList "wasm-file".toList rfl (by decide)
    (noSpace_displayPath hwasm)
  have h3 := splitWords_optionalPart "--contract-address=".toList "contract-address".toList rfl
    (by decide) haddress
  rw [CheckConfig.display, splitWords_join]
  unfold DataFeeOpts.display
  simp only [List.flatMap_append, List.flatMap_singleton, hcommon, h1, h2, h3,
    settingWords_append, settingWords_cons, settingWords_nil, List.append_assoc, List.append_nil]

theorem splitWords_auth {auth : AuthOpts}
    (hkeyPath : ∀ path ∈ auth.privateKeyPath, PlainPath path)
    (hkey : ∀ text ∈ auth.privateKey, ' ' ∉ text)
    (hkeystore : ∀ text ∈ auth.keystorePath, ' ' ∉ text)
    (hpassword : ∀ path ∈ auth.keystorePasswordPath, PlainPath path) :
    splitWords auth.display = settingWords
      [.value "private-key-path".toList (auth.privateKeyPath.map displayPath),
        .value "private-key".toList auth.privateKey,
        .value "keystore-path".toList auth.keystorePath,
        .value "keystore-password-path".toList (auth.keystorePasswordPath.map displayPath)] := by
  have h1 := splitWords_optionalPart "--private-key-path=".toList "private-key-path".toList rfl
    (by decide) (noSpace_displayPath hkeyPath)
  have h2 := splitWords_optionalPart "--private-key=".toList "private-key".toList rfl (by decide)
    hkey
  have h3 := splitWords_optionalPart "--keystore-path=".toList "keystore-path".toList rfl
    (by decide) hkeystore
  have h4 := splitWords_optionalPart "--keystore-password-path=".toList
    "keystore-password-path".toList rfl (by decide) (noSpace_displayPath hpassword)
  rw [AuthOpts.display, splitWords_join]
  simp only [List.flatMap_append, h1, h2, h3, h4, settingWords_cons, settingWords_nil,
    List.append_assoc, List.append_nil]

/-- A configuration without spaces is rendered as its arguments. -/
theorem splitWords_display (hfree : SpaceFree cfg) (hverify : cfg.noVerify = false) :
    "--no-verify".toList :: splitWords (cfg.display alloy) =
      settingWords (relaySettings alloy cfg ++ [argsSetting cfg]) := by
  have hcheck := splitWords_check alloy hfree.wasmFile
    (splitWords_common hfree.endpoint hfree.patterns hfree.fee hfree.features)
  have hauth := splitWords_auth hfree.privateKeyPath hfree.privateKey hfree.keystorePath
    hfree.keystorePasswordPath
  have hsignature : optionalPart "--constructor-signature='".toList
      (cfg.constructorSignature.map fun signature => signature ++ "'".toList) =
      optionalPart "--constructor-signature=".toList (cfg.constructorSignature.map quoted) := by
    have hstart : "--constructor-signature='".toList =
        "--constructor-signature=".toList ++ "'".toList := by decide
    cases cfg.constructorSignature <;> simp [optionalPart, quoted, hstart]
  have hargs : (if cfg.constructorArgs ≠ [] then
      "--constructor-args".toList :: cfg.constructorArgs else []).flatMap splitWords =
      (argsSetting cfg).occurrences.flatMap Occurrence.words := by
    unfold argsSetting
    split_ifs with hne
    · have hname : splitWords "--constructor-args".toList = ["--constructor-args".toList] :=
        splitWords_of_not_mem (by decide) (by decide)
      rw [List.flatMap_cons, hname, splitWords_args hfree.args]
      simp [Setting.occurrences, Occurrence.words]
    · rfl
  have h1 := splitWords_flagPart "--estimate-gas".toList "estimate-gas".toList rfl (by decide)
    cfg.estimateGas
  have h2 := splitWords_optionalPart "--cargo-stylus-version=".toList
    "cargo-stylus-version".toList rfl (by decide) hfree.version
  have h3 := splitWords_flagPart "--no-activate".toList "no-activate".toList rfl (by decide)
    cfg.noActivate
  have h4 := splitWords_value "--deployer-address=".toList "deployer-address".toList rfl
    (by decide) (alloy.noSpace_showAddress cfg.deployerAddress)
  have h5 := splitWords_value "--deployer-salt=".toList "deployer-salt".toList rfl (by decide)
    (alloy.noSpace_showB256 cfg.deployerSalt)
  have h6 := splitWords_value "--constructor-value=".toList "constructor-value".toList rfl
    (by decide) (noSpace_showNat cfg.constructorValue.toNat)
  have h7 := splitWords_optionalPart "--constructor-signature=".toList
    "constructor-signature".toList rfl (by decide) (noSpace_quoted hfree.signature)
  have hunset : (flagPart "--no-verify".toList false).flatMap splitWords = [] := rfl
  have h0 : "--no-verify".toList :: splitWords (cfg.display alloy) =
      (Setting.flag "no-verify".toList true).occurrences.flatMap Occurrence.words ++
        splitWords (cfg.display alloy) :=
    rfl
  rw [h0, DeployConfig.display, splitWords_join, hsignature]
  simp only [List.flatMap_append, List.flatMap_singleton, hcheck, hauth, h1, h2, h3, h4, h5, h6, h7,
    hverify, hunset, hargs, settingWords_append, settingWords_cons, settingWords_nil,
    relaySettings, List.append_assoc, List.append_nil, List.nil_append]

/-! ## What is read back -/

/-- What the command line of the container sets. -/
def relayMatches (alloy : AlloyText) (cfg : DeployConfig) : Matches :=
  matchesOf (occurrencesOf (relaySettings alloy cfg ++ [argsSetting cfg]))

/-- The value of an argument is read back. -/
theorem relay_one {name : Text} {value : Option Text}
    (h : Setting.value name value ∈ relaySettings alloy cfg) :
    (relayMatches alloy cfg).one name = value :=
  one_matchesOf (relaySettings_nodup alloy cfg) (List.mem_append_left _ h)

/-- A flag is read back. -/
theorem relay_flag {name : Text} {on : Bool} (h : Setting.flag name on ∈ relaySettings alloy cfg) :
    (relayMatches alloy cfg).flag name = on :=
  flag_matchesOf (relaySettings_nodup alloy cfg) (List.mem_append_left _ h)

theorem relay_values {s : Setting} (h : s ∈ relaySettings alloy cfg ++ [argsSetting cfg]) :
    (relayMatches alloy cfg).values s.name =
      s.occurrences.flatMap (Occurrence.valuesOf s.name) :=
  values_matchesOf (relaySettings_nodup alloy cfg) h

/-- The patterns come back as one. -/
theorem relay_patterns : (relayMatches alloy cfg).values "source-files-for-project-hash".toList =
    (joinedPatterns cfg.checkConfig.commonCfg.sourceFilesForProjectHash).toList := by
  have hmem : Setting.value "source-files-for-project-hash".toList
      (joinedPatterns cfg.checkConfig.commonCfg.sourceFilesForProjectHash) ∈
        relaySettings alloy cfg ++ [argsSetting cfg] :=
    List.mem_append_left _ (by simp [relaySettings, -String.reduceToList])
  have hvalues := relay_values hmem
  rw [Setting.name] at hvalues
  rw [hvalues]
  cases joinedPatterns cfg.checkConfig.commonCfg.sourceFilesForProjectHash <;>
    simp [Setting.occurrences, Occurrence.valuesOf]

/-- The constructor arguments come back without the empty ones. -/
theorem relay_args : (relayMatches alloy cfg).values "constructor-args".toList =
    cfg.constructorArgs.filter (· ≠ []) := by
  have hmem : argsSetting cfg ∈ relaySettings alloy cfg ++ [argsSetting cfg] := by simp
  have hvalues := relay_values hmem
  rw [argsSetting, Setting.name] at hvalues
  rw [hvalues]
  split_ifs with hne
  · simp [Setting.occurrences, Occurrence.valuesOf]
  · simp [Setting.occurrences, not_not.1 hne]

theorem optional_path {m : Matches} {name : Text} {path : Option PathBuf}
    (hplain : ∀ p ∈ path, PlainPath p) (h : m.one name = path.map displayPath) :
    optional m name readPath = .ok path := by
  rw [optional, h]
  cases path with
  | none => rfl
  | some p =>
    obtain ⟨text, rfl, hne, -⟩ := hplain p rfl
    simp [displayPath_plain, readPath, hne]

/-- The configuration the container reads, with the value `wei`. -/
def relayed (cfg : DeployConfig) (wei : U256) : DeployConfig :=
  { cfg with
    checkConfig := { cfg.checkConfig with
      commonCfg := { cfg.checkConfig.commonCfg with
        sourceFilesForProjectHash :=
          (joinedPatterns cfg.checkConfig.commonCfg.sourceFilesForProjectHash).toList } }
    noVerify := true
    constructorArgs := cfg.constructorArgs.filter (· ≠ [])
    constructorValue := wei
    constructorSignature := cfg.constructorSignature.map quoted }

/-- The common options are read back. -/
theorem common_relay : CommonConfig.fromArgMatches (relayMatches alloy cfg) =
    { cfg.checkConfig.commonCfg with
      sourceFilesForProjectHash :=
        (joinedPatterns cfg.checkConfig.commonCfg.sourceFilesForProjectHash).toList } := by
  have h1 : (relayMatches alloy cfg).one "endpoint".toList =
      some cfg.checkConfig.commonCfg.endpoint :=
    relay_one (by simp [relaySettings, -String.reduceToList])
  have h2 : (relayMatches alloy cfg).flag "verbose".toList = cfg.checkConfig.commonCfg.verbose :=
    relay_flag (by simp [relaySettings, -String.reduceToList])
  have h3 : (relayMatches alloy cfg).one "max-fee-per-gas-gwei".toList =
      cfg.checkConfig.commonCfg.maxFeePerGasGwei :=
    relay_one (by simp [relaySettings, -String.reduceToList])
  have h4 : (relayMatches alloy cfg).one "features".toList = cfg.checkConfig.commonCfg.features :=
    relay_one (by simp [relaySettings, -String.reduceToList])
  simp only [CommonConfig.fromArgMatches, h1, h2, h3, h4, relay_patterns, Option.getD_some]

theorem check_relay (alloy : AlloyText)
    (hwasm : ∀ path ∈ cfg.checkConfig.wasmFile, PlainPath path) :
    CheckConfig.fromArgMatches alloy (relayMatches alloy cfg) =
      .ok { cfg.checkConfig with
        commonCfg := { cfg.checkConfig.commonCfg with
          sourceFilesForProjectHash :=
            (joinedPatterns cfg.checkConfig.commonCfg.sourceFilesForProjectHash).toList } } := by
  have h1 : (relayMatches alloy cfg).one "data-fee-bump-percent".toList =
      some (showNat cfg.checkConfig.dataFee.dataFeeBumpPercent.toNat) :=
    relay_one (by simp [relaySettings, -String.reduceToList])
  have h2 : optional (relayMatches alloy cfg) "wasm-file".toList readPath =
      .ok cfg.checkConfig.wasmFile :=
    optional_path hwasm (relay_one (by simp [relaySettings, -String.reduceToList]))
  have h3 : (relayMatches alloy cfg).one "contract-address".toList =
      cfg.checkConfig.contractAddress.map alloy.showAddress :=
    relay_one (by simp [relaySettings, -String.reduceToList])
  have haddress : optional (relayMatches alloy cfg) "contract-address".toList alloy.readAddress =
      .ok cfg.checkConfig.contractAddress := by
    rw [optional, h3]
    cases cfg.checkConfig.contractAddress <;> simp [alloy.readAddress_showAddress]
  simp only [CheckConfig.fromArgMatches, DataFeeOpts.fromArgMatches, withDefault, h1,
    Option.getD_some, parseU64_showNat, h2, haddress, common_relay, Outcome.ofExcept_ok,
    Outcome.ok_bind, Outcome.pure_eq]

/-- The options of a wallet are read back. -/
theorem auth_relay (alloy : AlloyText)
    (hkeyPath : ∀ path ∈ cfg.auth.privateKeyPath, PlainPath path)
    (hpassword : ∀ path ∈ cfg.auth.keystorePasswordPath, PlainPath path) :
    AuthOpts.fromArgMatches (relayMatches alloy cfg) = .ok cfg.auth := by
  have h1 : optional (relayMatches alloy cfg) "private-key-path".toList readPath =
      .ok cfg.auth.privateKeyPath :=
    optional_path hkeyPath (relay_one (by simp [relaySettings, -String.reduceToList]))
  have h2 : optional (relayMatches alloy cfg) "keystore-password-path".toList readPath =
      .ok cfg.auth.keystorePasswordPath :=
    optional_path hpassword (relay_one (by simp [relaySettings, -String.reduceToList]))
  have h3 : (relayMatches alloy cfg).one "private-key".toList = cfg.auth.privateKey :=
    relay_one (by simp [relaySettings, -String.reduceToList])
  have h4 : (relayMatches alloy cfg).one "keystore-path".toList = cfg.auth.keystorePath :=
    relay_one (by simp [relaySettings, -String.reduceToList])
  simp only [AuthOpts.fromArgMatches, h1, h2, h3, h4, Outcome.ok_bind, Outcome.pure_eq]

/-- The configuration is read back, if its value is read as ether. -/
theorem fromArgMatches_relay (hfree : SpaceFree cfg) {cfg' : DeployConfig} :
    DeployConfig.fromArgMatches alloy (relayMatches alloy cfg) = .ok cfg' ↔
      ∃ wei, alloy.parseEther (showNat cfg.constructorValue.toNat) = .ok wei ∧
        cfg' = relayed cfg wei := by
  have h1 : (relayMatches alloy cfg).one "deployer-address".toList =
      some (alloy.showAddress cfg.deployerAddress) :=
    relay_one (by simp [relaySettings, -String.reduceToList])
  have h2 : (relayMatches alloy cfg).one "deployer-salt".toList =
      some (alloy.showB256 cfg.deployerSalt) :=
    relay_one (by simp [relaySettings, -String.reduceToList])
  have h3 : (relayMatches alloy cfg).one "constructor-value".toList =
      some (showNat cfg.constructorValue.toNat) :=
    relay_one (by simp [relaySettings, -String.reduceToList])
  have h4 : (relayMatches alloy cfg).flag "estimate-gas".toList = cfg.estimateGas :=
    relay_flag (by simp [relaySettings, -String.reduceToList])
  have h5 : (relayMatches alloy cfg).flag "no-verify".toList = true :=
    relay_flag (by simp [relaySettings, -String.reduceToList])
  have h6 : (relayMatches alloy cfg).one "cargo-stylus-version".toList = cfg.cargoStylusVersion :=
    relay_one (by simp [relaySettings, -String.reduceToList])
  have h7 : (relayMatches alloy cfg).flag "no-activate".toList = cfg.noActivate :=
    relay_flag (by simp [relaySettings, -String.reduceToList])
  have h8 : (relayMatches alloy cfg).one "constructor-signature".toList =
      cfg.constructorSignature.map quoted :=
    relay_one (by simp [relaySettings, -String.reduceToList])
  have hcheck := check_relay alloy hfree.wasmFile
  have hauth := auth_relay alloy hfree.privateKeyPath hfree.keystorePasswordPath
  simp only [DeployConfig.fromArgMatches, withDefault, withDefaultValue, hcheck, hauth, h1, h2,
    h3, h4, h5, h6, h7, h8, relay_args, Option.getD_some, alloy.readAddress_showAddress,
    alloy.readB256_showB256, Outcome.ofExcept_ok, Outcome.ok_bind, Outcome.bind_eq_ok,
    Outcome.ofExcept_eq_ok, Outcome.pure_eq, Outcome.ok.injEq]
  refine exists_congr fun wei => and_congr_right fun _ => ?_
  exact eq_comm

/-- One of the ways to give a key is used. -/
def AuthOpts.OneKey (auth : AuthOpts) : Prop :=
  [auth.privateKeyPath.isSome, auth.privateKey.isSome, auth.keystorePath.isSome].count true = 1

instance (auth : AuthOpts) : Decidable auth.OneKey :=
  inferInstanceAs (Decidable (_ = _))

theorem groupsHold_relay : deployCommand.GroupsHold
    (occurrencesOf (relaySettings alloy cfg ++ [argsSetting cfg])) ↔ cfg.auth.OneKey := by
  have hmem : ∀ {name : Text} {value : Option Text},
      Setting.value name value ∈ relaySettings alloy cfg →
      (name ∈ (occurrencesOf (relaySettings alloy cfg ++ [argsSetting cfg])).map Occurrence.name ↔
        value.isSome) :=
    fun hs => mem_names_iff (relaySettings_nodup alloy cfg) (List.mem_append_left _ hs)
  have h1 : "private-key-path".toList ∈ (occurrencesOf
      (relaySettings alloy cfg ++ [argsSetting cfg])).map Occurrence.name ↔
        (cfg.auth.privateKeyPath.map displayPath).isSome :=
    hmem (by simp [relaySettings, -String.reduceToList])
  have h2 : "private-key".toList ∈ (occurrencesOf
      (relaySettings alloy cfg ++ [argsSetting cfg])).map Occurrence.name ↔
        cfg.auth.privateKey.isSome :=
    hmem (by simp [relaySettings, -String.reduceToList])
  have h3 : "keystore-path".toList ∈ (occurrencesOf
      (relaySettings alloy cfg ++ [argsSetting cfg])).map Occurrence.name ↔
        cfg.auth.keystorePath.isSome :=
    hmem (by simp [relaySettings, -String.reduceToList])
  rw [Command.GroupsHold, deployCommand, List.forall_mem_singleton, AuthOpts.OneKey]
  simp only [List.filter_cons, List.filter_nil, h1, h2, h3, Option.isSome_map]
  cases cfg.auth.privateKeyPath.isSome <;> cases cfg.auth.privateKey.isSome <;>
    cases cfg.auth.keystorePath.isSome <;> decide

/-- The command line of the container is read as the configuration with its patterns joined,
its value taken for ether, its signature in quotes and its empty arguments lost. -/
theorem parseDeploy_deployCommands (hfree : SpaceFree cfg) (hverify : cfg.noVerify = false)
    {cfg' : DeployConfig} :
    parseDeploy clap alloy (deployCommands alloy cfg) = .ok cfg' ↔
      cfg.auth.OneKey ∧
        ∃ wei, alloy.parseEther (showNat cfg.constructorValue.toNat) = .ok wei ∧
          cfg' = relayed cfg wei := by
  have hwords : deployCommands alloy cfg = "deploy".toList ::
      settingWords (relaySettings alloy cfg ++ [argsSetting cfg]) := by
    rw [← splitWords_display hfree hverify]
    rfl
  rw [hwords, parseDeploy, if_pos (Or.inl rfl), Outcome.bind_eq_ok]
  refine ⟨fun h => ?_, fun h => ?_⟩
  · obtain ⟨m, hm, hread⟩ := h
    obtain ⟨hgroups, rfl⟩ :=
      (clap.parse_line (relaySettings_isLine alloy cfg)).1 (Outcome.ofExcept_eq_ok.1 hm)
    exact ⟨groupsHold_relay.1 hgroups, (fromArgMatches_relay hfree).1 hread⟩
  · obtain ⟨hkey, hread⟩ := h
    have hm := (clap.parse_line (relaySettings_isLine alloy cfg)).2
      ⟨groupsHold_relay.2 hkey, rfl⟩
    exact ⟨_, Outcome.ofExcept_eq_ok.2 hm, (fromArgMatches_relay hfree).2 hread⟩

/-! ## What can be read at all -/

/-- A text that was read has no space, if the words had none. -/
theorem noSpace_of_values {words : List Text} {m : Matches}
    (h : clap.parse deployCommand words = .ok m) (hwords : ∀ word ∈ words, ' ' ∉ word)
    {name text : Text} (htext : text ∈ m.values name) : ' ' ∉ text := by
  obtain ⟨word, hword, hsuffix⟩ := clap.value_suffix h htext
  exact fun hspace => hwords word hword (hsuffix.subset hspace)

theorem mem_values_of_one {m : Matches} {name text : Text} (h : m.one name = some text) :
    text ∈ m.values name :=
  List.mem_of_mem_head? h

theorem plainPath_of_optional {m : Matches} {name : Text} {path : Option PathBuf}
    (hspace : ∀ text ∈ m.values name, ' ' ∉ text)
    (h : optional m name readPath = .ok path) : ∀ p ∈ path, PlainPath p := by
  intro p hp
  obtain rfl : path = some p := hp
  unfold optional at h
  cases hone : m.one name with
  | none => simp [hone] at h
  | some text =>
    simp only [hone] at h
    obtain ⟨p', hread, hp'⟩ := Outcome.map_eq_ok.1 h
    obtain rfl := Option.some.inj hp'
    rw [Outcome.ofExcept_eq_ok, readPath] at hread
    split_ifs at hread with hne
    obtain rfl := Except.ok.inj hread
    exact ⟨text, rfl, hne, hspace text (mem_values_of_one hone)⟩

/-- A configuration read from words without spaces has none. -/
theorem spaceFree_of_fromArgMatches {m : Matches}
    (hspace : ∀ {name text : Text}, text ∈ m.values name → ' ' ∉ text)
    (h : DeployConfig.fromArgMatches alloy m = .ok cfg) : SpaceFree cfg := by
  have hone : ∀ {name : Text}, ∀ text ∈ m.one name, ' ' ∉ text :=
    fun text htext => hspace (mem_values_of_one htext)
  obtain ⟨check, hcheck, h⟩ := Outcome.bind_eq_ok.1 h
  obtain ⟨auth, hauth, h⟩ := Outcome.bind_eq_ok.1 h
  obtain ⟨deployerAddress, -, h⟩ := Outcome.bind_eq_ok.1 h
  obtain ⟨deployerSalt, -, h⟩ := Outcome.bind_eq_ok.1 h
  obtain ⟨constructorValue, -, h⟩ := Outcome.bind_eq_ok.1 h
  obtain rfl := Outcome.ok.inj h
  obtain ⟨dataFee, -, hcheck⟩ := Outcome.bind_eq_ok.1 hcheck
  obtain ⟨wasmFile, hwasm, hcheck⟩ := Outcome.bind_eq_ok.1 hcheck
  obtain ⟨contractAddress, -, hcheck⟩ := Outcome.bind_eq_ok.1 hcheck
  obtain rfl := Outcome.ok.inj hcheck
  obtain ⟨privateKeyPath, hkeyPath, hauth⟩ := Outcome.bind_eq_ok.1 hauth
  obtain ⟨passwordPath, hpassword, hauth⟩ := Outcome.bind_eq_ok.1 hauth
  obtain rfl := Outcome.ok.inj hauth
  refine
    { endpoint := ?_, patterns := fun _ => hspace, fee := hone, features := hone,
      wasmFile := plainPath_of_optional (fun _ => hspace) hwasm,
      privateKeyPath := plainPath_of_optional (fun _ => hspace) hkeyPath,
      privateKey := hone, keystorePath := hone,
      keystorePasswordPath := plainPath_of_optional (fun _ => hspace) hpassword,
      version := hone, signature := hone, args := fun _ => hspace }
  change ' ' ∉ (m.one "endpoint".toList).getD defaultEndpoint
  cases hendpoint : m.one "endpoint".toList with
  | none =>
    rw [Option.getD_none]
    decide
  | some text => exact hone text hendpoint

/-- What the container reads has no spaces. -/
theorem spaceFree_of_parseDeploy {cfg' : DeployConfig}
    (h : parseDeploy clap alloy (deployCommands alloy cfg) = .ok cfg') : SpaceFree cfg' := by
  have hwords : ∀ word ∈ "--no-verify".toList :: splitWords (cfg.display alloy), ' ' ∉ word := by
    intro word hword
    rcases List.mem_cons.1 hword with rfl | hword
    · decide
    · exact not_mem_of_mem_splitWords hword
  rw [deployCommands, List.cons_append, parseDeploy, if_pos (Or.inl rfl), Outcome.bind_eq_ok] at h
  obtain ⟨m, hm, hread⟩ := h
  exact spaceFree_of_fromArgMatches
    (noSpace_of_values (Outcome.ofExcept_eq_ok.1 hm) hwords) hread

/-! ## When the container deploys the same -/

/-- The configurations that a container deploys as they are. -/
structure Relayable (cfg : DeployConfig) : Prop where
  spaceFree : SpaceFree cfg
  patterns : cfg.checkConfig.commonCfg.sourceFilesForProjectHash.length ≤ 1
  args : ∀ arg ∈ cfg.constructorArgs, arg ≠ []
  value : cfg.constructorValue = 0
  signature : cfg.constructorSignature = none
  key : cfg.auth.OneKey

theorem joinedPatterns_toList_eq_iff {patterns : List Text} :
    (joinedPatterns patterns).toList = patterns ↔ patterns.length ≤ 1 := by
  match patterns with
  | [] => simp [joinedPatterns]
  | [pattern] => simp [joinedPatterns, join]
  | first :: second :: rest => simp [joinedPatterns]

theorem map_quoted_eq_iff {signature : Option Text} :
    signature.map quoted = signature ↔ signature = none := by
  cases signature with
  | none => simp
  | some text =>
    have hne : quoted text ≠ text := by
      intro h
      have hlen := congrArg List.length h
      simp [quoted] at hlen
      omega
    simp [hne]

/-- An amount in wei that is the same number of ether is zero. -/
theorem eq_zero_of_ether {value : U256} (h : value = BitVec.ofNat 256 (value.toNat * 10 ^ 18)) :
    value = 0 := by
  have hmod : value.toNat ≡ value.toNat * 10 ^ 18 [MOD 2 ^ 256] := by
    have hnat := congrArg BitVec.toNat h
    rw [BitVec.toNat_ofNat] at hnat
    exact (Nat.mod_eq_of_lt value.isLt).trans hnat
  have hdvd : 2 ^ 256 ∣ value.toNat * (10 ^ 18 - 1) := by
    rw [Nat.mul_sub_one]
    exact (Nat.modEq_iff_dvd' (Nat.le_mul_of_pos_right _ (by norm_num))).1 hmod
  have hcoprime : Nat.Coprime (2 ^ 256) (10 ^ 18 - 1) := Nat.Coprime.pow_left 256 (by norm_num)
  have hzero := Nat.eq_zero_of_dvd_of_lt (hcoprime.dvd_of_dvd_mul_right hdvd) value.isLt
  exact BitVec.eq_of_toNat_eq hzero

/-- `deploy` in a container has the configuration it was started with, up to `--no-verify`,
exactly if no text in it has a space, there is at most one source pattern, no constructor
argument is empty, no value and no signature is given, and one key is. -/
theorem relayed_iff (clap : ArgParser) (alloy : AlloyText) (cfg : DeployConfig)
    (hverify : cfg.noVerify = false) :
    parseDeploy clap alloy (deployCommands alloy cfg) = .ok { cfg with noVerify := true } ↔
      Relayable cfg := by
  refine ⟨fun h => ?_, fun h => ?_⟩
  · have hfree' := spaceFree_of_parseDeploy h
    have hfree : SpaceFree cfg := { hfree' with }
    obtain ⟨hkey, wei, hwei, hsame⟩ := (parseDeploy_deployCommands hfree hverify).1 h
    have hpatterns := congrArg
      (fun c : DeployConfig => c.checkConfig.commonCfg.sourceFilesForProjectHash) hsame
    have hargs := congrArg DeployConfig.constructorArgs hsame
    have hvalue := congrArg DeployConfig.constructorValue hsame
    have hsignature := congrArg DeployConfig.constructorSignature hsame
    exact
      { spaceFree := hfree
        patterns := joinedPatterns_toList_eq_iff.1 hpatterns.symm
        args := by simpa using List.filter_eq_self.1 hargs.symm
        value := eq_zero_of_ether (hvalue.trans (alloy.eq_of_parseEther hwei))
        signature := map_quoted_eq_iff.1 hsignature.symm
        key := hkey }
  · have hwei : alloy.parseEther (showNat cfg.constructorValue.toNat) = .ok 0 := by
      rw [h.value]
      exact parseEther_zero alloy
    refine (parseDeploy_deployCommands h.spaceFree hverify).2 ⟨h.key, 0, hwei, ?_⟩
    have hpatterns := joinedPatterns_toList_eq_iff.2 h.patterns
    have hargs : cfg.constructorArgs.filter (· ≠ []) = cfg.constructorArgs :=
      List.filter_eq_self.2 fun arg harg => by simpa using h.args arg harg
    have hsignature := map_quoted_eq_iff.2 h.signature
    simp only [relayed, hpatterns, hargs, hsignature, h.value]

/-- A deployment of a contract that counts, with a constructor of two arguments. -/
def counterDeploy : DeployConfig where
  checkConfig :=
    { commonCfg :=
        { endpoint := defaultEndpoint, verbose := false,
          sourceFilesForProjectHash := ["src/*.rs".toList], maxFeePerGasGwei := none,
          features := some "a,b".toList }
      dataFee := { dataFeeBumpPercent := 20 }
      wasmFile := some (utf8 "counter.wasm".toList), contractAddress := none }
  auth :=
    { privateKeyPath := none, privateKey := some "0x01".toList, keystorePath := none,
      keystorePasswordPath := none }
  estimateGas := false
  noVerify := false
  cargoStylusVersion := none
  noActivate := true
  deployerAddress := stylusDeployerAddress
  deployerSalt := filled 32 0
  constructorArgs := ["7".toList, "--no-activate".toList]
  constructorValue := 0
  constructorSignature := none

theorem counterDeploy_spaceFree : SpaceFree counterDeploy where
  endpoint := by decide
  patterns := by decide
  fee := by decide
  features := by decide
  wasmFile := by
    intro path hpath
    exact ⟨"counter.wasm".toList, (Option.some.inj hpath).symm, by decide, by decide⟩
  privateKeyPath := fun _ h => by cases h
  privateKey := by decide
  keystorePath := by decide
  keystorePasswordPath := fun _ h => by cases h
  version := by decide
  signature := by decide
  args := by decide

theorem counterDeploy_relayed : Relayable counterDeploy ∧
    parseDeploy longOptions hexText (deployCommands hexText counterDeploy) =
      .ok { counterDeploy with noVerify := true } := by
  have hrelayable : Relayable counterDeploy :=
    { spaceFree := counterDeploy_spaceFree, patterns := by decide, args := by decide,
      value := rfl, signature := rfl, key := by decide }
  exact ⟨hrelayable, (relayed_iff longOptions hexText counterDeploy rfl).2 hrelayable⟩

/-- The same deployment with a value of one wei. -/
def weiDeploy : DeployConfig :=
  { counterDeploy with constructorValue := 1 }

/-- The container takes one wei for one ether. -/
theorem weiDeploy_not_relayed : weiDeploy.noVerify = false ∧
    parseDeploy longOptions hexText (deployCommands hexText weiDeploy) =
      .ok { weiDeploy with noVerify := true, constructorValue := BitVec.ofNat 256 (10 ^ 18) } ∧
    parseDeploy longOptions hexText (deployCommands hexText weiDeploy) ≠
      .ok { weiDeploy with noVerify := true } := by
  have hfree : SpaceFree weiDeploy := { counterDeploy_spaceFree with }
  have hether : hexText.parseEther (showNat 1) = .ok (BitVec.ofNat 256 (1 * 10 ^ 18)) :=
    hexText.parseEther_showNat (by norm_num)
  have hread : parseDeploy longOptions hexText (deployCommands hexText weiDeploy) =
      .ok { weiDeploy with noVerify := true, constructorValue := BitVec.ofNat 256 (10 ^ 18) } :=
    (parseDeploy_deployCommands hfree rfl).2 ⟨by decide, _, hether, rfl⟩
  refine ⟨rfl, hread, fun h => ?_⟩
  have hvalue := congrArg DeployConfig.constructorValue (Outcome.ok.inj (hread.symm.trans h))
  exact absurd hvalue (by decide)

end CargoStylus
