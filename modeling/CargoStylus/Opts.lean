import CargoStylus.Display
import CargoStylus.Rust.Outcome

/-!
# Reading the arguments of a command

`deployCommand` is what the command line of `deploy` may have, and `fromArgMatches` reads the
fields of each structure from what was found there. Text is taken as it is, a path is its
bytes and is not empty, and the other values are read from their text. Where nothing is found
the defaults are taken, each of which passes its own check (`fromArgMatches_nil`).
-/

namespace CargoStylus

open Rust Cli

/-- `DEFAULT_ENDPOINT`. -/
def defaultEndpoint : Text :=
  "http://localhost:8547".toList

/-- `STYLUS_DEPLOYER_ADDRESS`. -/
def stylusDeployerAddress : Address :=
  ⟨[0xce, 0xcb, 0xa2, 0xf1, 0xdc, 0x23, 0x4f, 0x70, 0xdd, 0x89, 0xf2, 0x04, 0x10, 0x29, 0x80,
    0x7f, 0x8d, 0x03, 0xa9, 0x90], rfl⟩

/-- `u64::from_str`. -/
def parseU64 (text : Text) : Except String U64 :=
  match readNat (stripPrefix ['+'] text) with
  | some n => if n < 2 ^ 64 then .ok (BitVec.ofNat 64 n)
    else .error "number too large to fit in target type"
  | none => if text = [] then .error "cannot parse integer from empty string"
    else .error "invalid digit found in string"

theorem parseU64_showNat (n : U64) : parseU64 (showNat n.toNat) = .ok n := by
  have hplain : stripPrefix ['+'] (showNat n.toNat) = showNat n.toNat := by
    refine stripPrefix_of_not_prefix fun hprefix => ?_
    have hmem : '+' ∈ showNat n.toNat := hprefix.subset (List.mem_singleton.2 rfl)
    exact absurd (isDigit_of_mem_showNat hmem) (by decide)
  rw [parseU64, hplain, readNat_showNat]
  simp only [n.isLt, if_true, BitVec.ofNat_toNat, BitVec.setWidth_eq]

/-- A path on the command line. -/
def readPath (text : Text) : Except String PathBuf :=
  if text = [] then .error "a value is required but none was supplied" else .ok (utf8 text)

variable {α : Type}

/-- An optional argument, read by `read`. -/
def optional (m : Matches) (name : Text) (read : Text → Except String α) :
    Outcome String (Option α) :=
  match m.one name with
  | some text => some <$> .ofExcept (read text)
  | none => .ok none

/-- An argument with a default text, read by `read`. -/
def withDefault (m : Matches) (name default : Text) (read : Text → Except String α) :
    Outcome String α :=
  .ofExcept (read ((m.one name).getD default))

/-- An argument with a default value, read by `read`. -/
def withDefaultValue (m : Matches) (name : Text) (default : α) (read : Text → Except String α) :
    Outcome String α :=
  match m.one name with
  | some text => .ofExcept (read text)
  | none => .ok default

/-- What the command line sets of `CommonConfig`. -/
def CommonConfig.fromArgMatches (m : Matches) : CommonConfig where
  endpoint := (m.one "endpoint".toList).getD defaultEndpoint
  verbose := m.flag "verbose".toList
  sourceFilesForProjectHash := m.values "source-files-for-project-hash".toList
  maxFeePerGasGwei := m.one "max-fee-per-gas-gwei".toList
  features := m.one "features".toList

/-- What the command line sets of `DataFeeOpts`, or 20 percent. -/
def DataFeeOpts.fromArgMatches (m : Matches) : Outcome String DataFeeOpts := do
  let dataFeeBumpPercent ← withDefault m "data-fee-bump-percent".toList "20".toList parseU64
  return { dataFeeBumpPercent }

/-- What the command line sets of `CheckConfig`. -/
def CheckConfig.fromArgMatches (alloy : AlloyText) (m : Matches) : Outcome String CheckConfig := do
  let dataFee ← DataFeeOpts.fromArgMatches m
  let wasmFile ← optional m "wasm-file".toList readPath
  let contractAddress ← optional m "contract-address".toList alloy.readAddress
  return { commonCfg := CommonConfig.fromArgMatches m, dataFee, wasmFile, contractAddress }

/-- What the command line sets of `AuthOpts`. -/
def AuthOpts.fromArgMatches (m : Matches) : Outcome String AuthOpts := do
  let privateKeyPath ← optional m "private-key-path".toList readPath
  let keystorePasswordPath ← optional m "keystore-password-path".toList readPath
  pure
    { privateKeyPath, privateKey := m.one "private-key".toList,
      keystorePath := m.one "keystore-path".toList, keystorePasswordPath }

/-- What the command line sets of `DeployConfig`, with the defaults. -/
def DeployConfig.fromArgMatches (alloy : AlloyText) (m : Matches) :
    Outcome String DeployConfig := do
  let checkConfig ← CheckConfig.fromArgMatches alloy m
  let auth ← AuthOpts.fromArgMatches m
  let deployerAddress ← withDefaultValue m "deployer-address".toList stylusDeployerAddress
    alloy.readAddress
  let deployerSalt ← withDefaultValue m "deployer-salt".toList (filled 32 0)
    alloy.readB256
  let constructorValue ← withDefault m "constructor-value".toList "0".toList alloy.parseEther
  pure
    { checkConfig, auth, estimateGas := m.flag "estimate-gas".toList,
      noVerify := m.flag "no-verify".toList,
      cargoStylusVersion := m.one "cargo-stylus-version".toList,
      noActivate := m.flag "no-activate".toList, deployerAddress, deployerSalt,
      constructorArgs := m.values "constructor-args".toList, constructorValue,
      constructorSignature := m.one "constructor-signature".toList }

theorem parseEther_zero (alloy : AlloyText) : alloy.parseEther (showNat 0) = .ok 0 :=
  alloy.parseEther_showNat (by norm_num)

/-- Every default passes its own check. -/
theorem fromArgMatches_nil (alloy : AlloyText) :
    DeployConfig.fromArgMatches alloy (matchesOf []) = .ok
      { checkConfig :=
          { commonCfg :=
              { endpoint := defaultEndpoint, verbose := false, sourceFilesForProjectHash := [],
                maxFeePerGasGwei := none, features := none }
            dataFee := { dataFeeBumpPercent := 20 }
            wasmFile := none, contractAddress := none }
        auth :=
          { privateKeyPath := none, privateKey := none, keystorePath := none,
            keystorePasswordPath := none }
        estimateGas := false, noVerify := false, cargoStylusVersion := none, noActivate := false,
        deployerAddress := stylusDeployerAddress, deployerSalt := filled 32 0,
        constructorArgs := [], constructorValue := 0, constructorSignature := none } := by
  have hfee : withDefault (matchesOf []) "data-fee-bump-percent".toList "20".toList parseU64 =
      .ok 20 :=
    congrArg Outcome.ofExcept (parseU64_showNat 20)
  have hvalue : withDefault (matchesOf []) "constructor-value".toList "0".toList
      alloy.parseEther = .ok 0 :=
    congrArg Outcome.ofExcept (parseEther_zero alloy)
  rw [DeployConfig.fromArgMatches, CheckConfig.fromArgMatches, DataFeeOpts.fromArgMatches, hfee,
    hvalue]
  rfl

/-- The arguments of `deploy`. -/
def deployCommand : Command where
  args :=
    [("endpoint".toList, .single), ("verbose".toList, .flag),
      ("source-files-for-project-hash".toList, .many), ("max-fee-per-gas-gwei".toList, .single),
      ("features".toList, .single), ("data-fee-bump-percent".toList, .single),
      ("wasm-file".toList, .single), ("contract-address".toList, .single),
      ("private-key-path".toList, .single), ("private-key".toList, .single),
      ("keystore-path".toList, .single), ("keystore-password-path".toList, .single),
      ("estimate-gas".toList, .flag), ("no-verify".toList, .flag),
      ("cargo-stylus-version".toList, .single), ("no-activate".toList, .flag),
      ("deployer-address".toList, .single), ("deployer-salt".toList, .single),
      ("constructor-args".toList, .rest), ("constructor-value".toList, .single),
      ("constructor-signature".toList, .single)]
  groups := [["private-key-path".toList, "private-key".toList, "keystore-path".toList]]
  nodup := by decide
  noEquals := by decide

/-- `Opts` of a command line, where it is one of `deploy`. -/
def parseDeploy (clap : ArgParser) (alloy : AlloyText) : List Text → Outcome String DeployConfig
  | [] => .err "no subcommand"
  | command :: words =>
    if command = "deploy".toList ∨ command = "d".toList then do
      let m ← .ofExcept (clap.parse deployCommand words)
      DeployConfig.fromArgMatches alloy m
    else .err "another subcommand"

end CargoStylus
