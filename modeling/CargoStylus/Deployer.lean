import CargoStylus.Config
import CargoStylus.Deploy
import CargoStylus.ExportAbi

/-!
# Deploying with a constructor

A contract with a constructor is created by the deployer contract, in one call that passes
the init code, the call that initialises the contract, the value sent with that call and a
salt. `parseConstructorArgs` builds the call from the command line.

How values are written as bytes is not this program's business : `Abi` has what it uses of
the ABI library, with a codec for the deployer call and one for the arguments of each
constructor. `IsDeployment` says which byte strings deploy a project, and
`parseConstructorArgs_isDeployment` that the ones built here do.
-/

namespace CargoStylus

open Rust

/-- A call of `StylusDeployer.deploy`. -/
structure DeployCall where
  bytecode : Bytes
  initData : Bytes
  initValue : U256
  salt : B256
deriving DecidableEq

/-- The ABI library : parameters of type `Param` and values of type `Value`. -/
structure Abi (Param Value : Type) where
  /-- Calls of the deployer, selector included. -/
  deployCall : Codec DeployCall
  /-- The arguments of a constructor, without a selector. -/
  input : Constructor Param → Codec (List Value)
  /-- The type of a parameter, as the reader of its values. -/
  resolve : Param → Except String (Text → Except String Value)
  /-- Read a constructor's signature. -/
  parse : Text → Except String (Constructor Param)
  showParam : Param → String
  showValue : Value → String
  showAddress : Address → String

/-- `stylus_constructorCall::SELECTOR`, the selector of `stylus_constructor()`. -/
def stylusConstructorSelector : Bytes :=
  [0x55, 0x85, 0x25, 0x8d]

/-- What a call of the deployer is sent with. -/
structure DeployerArgs where
  /-- Factory address -/
  address : Address
  /-- Value to be sent in the tx -/
  txValue : U256
  /-- Calldata to be sent in the tx -/
  txCalldata : Bytes

variable {Param Value : Type}

/-- The values of the arguments, each read by the type of its parameter. -/
def coerceArgs (abi : Abi Param Value) (args : List (Text × Param)) :
    Outcome String (List Value) :=
  args.mapM fun (arg, param) => do
    let coerceStr ← .wrapErr s!"could not resolve constructor arg: {abi.showParam param}"
      (.ofExcept (abi.resolve param))
    .wrapErr s!"could not parse constructor arg: {abi.showParam param}" (.ofExcept (coerceStr arg))

/-- Parses the constructor arguments and returns the data to deploy the contract using the
deployer. A call too long to be written is a panic. -/
def parseConstructorArgs (abi : Abi Param Value) (connect : Text → Except String Unit)
    (cfg : DeployConfig) (constructor : Constructor Param) (contract : ContractCheck) :
    Outcome String DeployerArgs := do
  let constructorValue := cfg.constructorValue
  if constructor.stateMutability ≠ .payable ∧ constructorValue ≠ 0 then
    .err "attempting to send Ether to non-payable constructor"
  else
    let txValue := contract.suggestFee + constructorValue
    let args := cfg.constructorArgs
    let params := constructor.inputs
    if args.length ≠ params.length then
      .err s!"mismatch number of constructor arguments (want {params.length}; got {args.length})"
    else
      let argValues ← coerceArgs abi (args.zip params)
      let calldataArgs ← .ofExcept ((abi.input constructor).encode argValues)
      let constructorCalldata := stylusConstructorSelector ++ calldataArgs
      let bytecode := contractDeploymentCalldata contract.code
      .ofExcept (connect cfg.checkConfig.commonCfg.endpoint)
      let txCalldata ← .expect "capacity overflow" (abi.deployCall.encode
        { bytecode, initData := constructorCalldata, initValue := constructorValue,
          salt := cfg.deployerSalt })
      return { address := cfg.deployerAddress, txValue, txCalldata }

/-- Read a call of the deployer. -/
def decodeDeployCall (abi : Abi Param Value) (calldata : Bytes) : Except String DeployCall :=
  abi.deployCall.decode calldata

/-! ## Which calldata deploys a project -/

/-- `calldata` calls the deployer with the init code of `code`, and initialises the contract
with a call of `selector` and arguments for `constructor`. -/
def IsDeployment (abi : Abi Param Value) (constructor : Constructor Param)
    (code selector calldata : Bytes) : Prop :=
  ∃ args encoded initValue salt, (abi.input constructor).encode args = .ok encoded ∧
    abi.deployCall.encode
      { bytecode := contractDeploymentCalldata code, initData := selector ++ encoded,
        initValue, salt } = .ok calldata

variable {abi : Abi Param Value} {connect : Text → Except String Unit} {cfg : DeployConfig}
  {constructor : Constructor Param} {contract : ContractCheck} {out : DeployerArgs}

/-- What `parseConstructorArgs` returns calls the deployer for this project, with the value
and the salt of the command line, and sends Ether only to a payable constructor. -/
theorem parseConstructorArgs_eq_ok
    (h : parseConstructorArgs abi connect cfg constructor contract = .ok out) :
    (constructor.stateMutability = .payable ∨ cfg.constructorValue = 0) ∧
      cfg.constructorArgs.length = constructor.inputs.length ∧
      out.address = cfg.deployerAddress ∧
      out.txValue = contract.suggestFee + cfg.constructorValue ∧
      ∃ args encoded, coerceArgs abi (cfg.constructorArgs.zip constructor.inputs) = .ok args ∧
        (abi.input constructor).encode args = .ok encoded ∧
        abi.deployCall.encode
          { bytecode := contractDeploymentCalldata contract.code,
            initData := stylusConstructorSelector ++ encoded,
            initValue := cfg.constructorValue, salt := cfg.deployerSalt } = .ok out.txCalldata := by
  dsimp only [parseConstructorArgs] at h
  split_ifs at h with hpay hlen
  obtain ⟨args, hargs, h⟩ := Outcome.bind_eq_ok.1 h
  obtain ⟨encoded, hencoded, h⟩ := Outcome.bind_eq_ok.1 h
  obtain ⟨-, -, h⟩ := Outcome.bind_eq_ok.1 h
  obtain ⟨calldata, hcalldata, h⟩ := Outcome.bind_eq_ok.1 h
  obtain rfl := Outcome.ok.inj h
  refine ⟨?_, not_not.1 hlen, rfl, rfl, args, encoded, hargs, ?_, ?_⟩
  · tauto
  · exact Outcome.ofExcept_eq_ok.1 hencoded
  · exact Outcome.expect_eq_ok.1 hcalldata

theorem parseConstructorArgs_isDeployment
    (h : parseConstructorArgs abi connect cfg constructor contract = .ok out) :
    IsDeployment abi constructor contract.code stylusConstructorSelector out.txCalldata := by
  obtain ⟨-, -, -, -, args, encoded, -, hencoded, hcalldata⟩ := parseConstructorArgs_eq_ok h
  exact ⟨args, encoded, _, _, hencoded, hcalldata⟩

end CargoStylus
