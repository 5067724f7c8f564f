import CargoStylus.Rust.Text
import CargoStylus.Trace

/-!
# The arguments of a command

What the command line sets, one structure for each group of arguments : `CommonConfig` and
`DataFeeOpts` are part of `CheckConfig`, which with `AuthOpts` is part of `DeployConfig`.
A path is the bytes the operating system has for it, which need not be text.
-/

namespace CargoStylus

open Rust

/-- `PathBuf`, the bytes of a path. -/
abbrev PathBuf := Bytes

/-- How much is paid beyond the data fee that is quoted. -/
structure DataFeeOpts where
  dataFeeBumpPercent : U64
deriving DecidableEq

/-- What all commands that build a project take. -/
structure CommonConfig where
  endpoint : Text
  verbose : Bool
  sourceFilesForProjectHash : List Text
  maxFeePerGasGwei : Option Text
  features : Option Text
deriving DecidableEq

/-- The arguments of `check`. -/
structure CheckConfig where
  commonCfg : CommonConfig
  dataFee : DataFeeOpts
  wasmFile : Option PathBuf
  contractAddress : Option Address
deriving DecidableEq

/-- Where the key of the wallet comes from. -/
structure AuthOpts where
  privateKeyPath : Option PathBuf
  privateKey : Option Text
  keystorePath : Option Text
  keystorePasswordPath : Option PathBuf
deriving DecidableEq

/-- The arguments of `deploy`. -/
structure DeployConfig where
  checkConfig : CheckConfig
  auth : AuthOpts
  estimateGas : Bool
  noVerify : Bool
  cargoStylusVersion : Option Text
  noActivate : Bool
  deployerAddress : Address
  deployerSalt : B256
  constructorArgs : List Text
  constructorValue : U256
  constructorSignature : Option Text
deriving DecidableEq

/-- The arguments of `verify`. -/
structure VerifyConfig where
  commonCfg : CommonConfig
  deploymentTx : Text
  noVerify : Bool
  cargoStylusVersion : Option Text
deriving DecidableEq

end CargoStylus
