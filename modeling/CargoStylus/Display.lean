import CargoStylus.Cli.CommandLine
import CargoStylus.Config
import CargoStylus.Rust.Utf8

/-!
# How the arguments of a command are rendered

`Display` writes the arguments of a command as they would be typed. Each structure joins its
parts by spaces and is itself a part of the next. So the words of a whole are those of its
parts, and the words of `DeployConfig` those of its single arguments (`splitWords_display`).

`AlloyText` has how addresses, salts and amounts are written and read.
-/

namespace CargoStylus

open Rust Cli

/-- How the values of the blockchain library are written and read. An amount is read as a
decimal number of ether, and is in wei. -/
structure AlloyText where
  /-- `Debug` of `Address`. -/
  showAddress : Address → Text
  /-- `Display` of `B256`. -/
  showB256 : B256 → Text
  /-- `Address::from_str`. -/
  readAddress : Text → Except String Address
  /-- `B256::from_str`. -/
  readB256 : Text → Except String B256
  /-- `parse_ether`. -/
  parseEther : Text → Except String U256
  noSpace_showAddress : ∀ address, ' ' ∉ showAddress address
  noSpace_showB256 : ∀ b, ' ' ∉ showB256 b
  readAddress_showAddress : ∀ address, readAddress (showAddress address) = .ok address
  readB256_showB256 : ∀ b, readB256 (showB256 b) = .ok b
  /-- An amount that fits is read. -/
  parseEther_showNat : ∀ {n : ℕ}, n * 10 ^ 18 < 2 ^ 256 →
    parseEther (showNat n) = .ok (BitVec.ofNat 256 (n * 10 ^ 18))
  /-- One that does not is an error, or wraps around. -/
  eq_of_parseEther : ∀ {n : ℕ} {wei : U256},
    parseEther (showNat n) = .ok wei → wei = BitVec.ofNat 256 (n * 10 ^ 18)

/-- `path.display()`. -/
def displayPath (path : PathBuf) : Text :=
  fromUtf8Lossy path

/-- The part for an optional argument. -/
def optionalPart (start : Text) : Option Text → List Text
  | some text => [start ++ text]
  | none => []

/-- A flag that is set. -/
def flagPart (text : Text) (on : Bool) : List Text :=
  if on then [text] else []

/-- `impl Display for DataFeeOpts`. -/
def DataFeeOpts.display (opts : DataFeeOpts) : Text :=
  "--data-fee-bump-percent=".toList ++ showNat opts.dataFeeBumpPercent.toNat

/-- `impl Display for CommonConfig`. -/
def CommonConfig.display (cfg : CommonConfig) : Text :=
  join [' '] <|
    ["--endpoint=".toList ++ cfg.endpoint] ++
    flagPart "--verbose".toList cfg.verbose ++
    (if cfg.sourceFilesForProjectHash ≠ [] then
      ["--source-files-for-project-hash=".toList ++ join [','] cfg.sourceFilesForProjectHash]
    else []) ++
    optionalPart "--max-fee-per-gas-gwei=".toList cfg.maxFeePerGasGwei ++
    optionalPart "--features=".toList cfg.features

/-- `impl Display for CheckConfig`. -/
def CheckConfig.display (alloy : AlloyText) (cfg : CheckConfig) : Text :=
  join [' '] <|
    [cfg.commonCfg.display] ++
    [cfg.dataFee.display] ++
    optionalPart "--wasm-file=".toList (cfg.wasmFile.map displayPath) ++
    optionalPart "--contract-address=".toList (cfg.contractAddress.map alloy.showAddress)

/-- `impl Display for AuthOpts`. -/
def AuthOpts.display (opts : AuthOpts) : Text :=
  join [' '] <|
    optionalPart "--private-key-path=".toList (opts.privateKeyPath.map displayPath) ++
    optionalPart "--private-key=".toList opts.privateKey ++
    optionalPart "--keystore-path=".toList opts.keystorePath ++
    optionalPart "--keystore-password-path=".toList (opts.keystorePasswordPath.map displayPath)

/-- `impl Display for DeployConfig`. -/
def DeployConfig.display (alloy : AlloyText) (cfg : DeployConfig) : Text :=
  join [' '] <|
    [cfg.checkConfig.display alloy] ++
    [cfg.auth.display] ++
    flagPart "--estimate-gas".toList cfg.estimateGas ++
    flagPart "--no-verify".toList cfg.noVerify ++
    optionalPart "--cargo-stylus-version=".toList cfg.cargoStylusVersion ++
    flagPart "--no-activate".toList cfg.noActivate ++
    ["--deployer-address=".toList ++ alloy.showAddress cfg.deployerAddress] ++
    ["--deployer-salt=".toList ++ alloy.showB256 cfg.deployerSalt] ++
    ["--constructor-value=".toList ++ showNat cfg.constructorValue.toNat] ++
    optionalPart "--constructor-signature='".toList
      (cfg.constructorSignature.map fun signature => signature ++ "'".toList) ++
    -- constructor args must be last
    (if cfg.constructorArgs ≠ [] then "--constructor-args".toList :: cfg.constructorArgs else [])

/-- The command that runs `deploy` in a container. -/
def deployCommands (alloy : AlloyText) (cfg : DeployConfig) : List Text :=
  ["deploy".toList, "--no-verify".toList] ++ splitWords (cfg.display alloy)

end CargoStylus
