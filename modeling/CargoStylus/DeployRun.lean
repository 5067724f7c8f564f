import CargoStylus.Provider

/-!
# The deploy command

`deploy` finds out whether the contract has a constructor, and then deploys it in one call of
the deployer, or creates it and activates it if that is needed. What it asks of the node is
asked through the provider, and what it reads elsewhere is in `DeployEnv` : the check of the
contract, what the export binary prints and the wallet.

What is printed is left out. Nothing that is printed can fail.
-/

namespace CargoStylus

open Rust Rust.Interaction Rust.Interaction.Prog

/-! ## Parts that the commands share -/

/-- `AuthOpts::alloy_wallet`, as the address of the signer. A key of the wrong length is a
panic. -/
abbrev AlloyWallet := AuthOpts → U64 → Outcome String Address

/-- What `deploy` reads besides the responses of the node. -/
structure DeployEnv (Param Value : Type) where
  abi : Abi Param Value
  check : CheckConfig → Except String ContractCheck
  /-- What the export binary of the local project prints. -/
  output : Except String Text
  /-- Whether the connection for the deployer call is made. -/
  connect : Text → Except String Unit
  alloyWallet : AlloyWallet
  convertGweiToWei : Text → Except String U128
  /-- `Address::create`. -/
  create : Address → U64 → Address

theorem length_arbWasmAddress : (List.replicate 19 (0 : UInt8) ++ [0x71]).length = 20 :=
  rfl

/-- Address of the ArbWasm precompile. -/
def arbWasmAddress : Address :=
  ⟨List.replicate 19 0 ++ [0x71], length_arbWasmAddress⟩

/-- The selector of `activateProgram(address)`. -/
def activateProgramSelector : Bytes :=
  [0x58, 0xc7, 0x80, 0xc2]

/-- A call of `activateProgram`. -/
def activateProgramCall (program : Address) : Bytes :=
  activateProgramSelector ++ List.replicate 12 0 ++ program.1

/-- Connect with the wallet, once the chain is known, and get the sender. -/
def connectWallet (alloyWallet : AlloyWallet) (endpoint : Text) (auth : AuthOpts) :
    Rpc Address := do
  ask (Request.connect endpoint)
  let chainId ← ask Request.getChainId
  let fromAddress ← lift (alloyWallet auth chainId)
  ask (Request.connect endpoint)
  return fromAddress

variable {Param Value : Type}

/-- The fee of the configuration, or the gas price of the node. -/
def calculateFeePerGas (env : DeployEnv Param Value) (config : CommonConfig) (gasPrice : U128) :
    Outcome String U128 :=
  match config.maxFeePerGasGwei with
  | some fee => .ofExcept (env.convertGweiToWei fee)
  | none => .ok gasPrice

/-! ## The constructor -/

/-- The constructor, from the signature given with `--wasm-file` or from the project. -/
def findConstructor (env : DeployEnv Param Value) (cfg : DeployConfig) :
    Outcome String (Option (Constructor Param)) :=
  if cfg.checkConfig.wasmFile.isSome then
    match cfg.constructorSignature with
    | some signature => some <$> .ofExcept (env.abi.parse signature)
    | none => .ok none
  else if cfg.constructorSignature.isSome then
    .err "cannot set constructor signature without --wasm-file"
  else .ofExcept (getConstructorSignature env.abi.parse env.output)

/-- The deployer call, if there is a constructor. -/
def deployerArgs (env : DeployEnv Param Value) (cfg : DeployConfig) (contract : ContractCheck)
    (constructor : Option (Constructor Param)) : Outcome String (Option DeployerArgs) :=
  match constructor with
  | some constructor =>
    some <$> parseConstructorArgs env.abi env.connect cfg constructor contract
  | none =>
    if cfg.constructorArgs ≠ [] then
      .err "constructor arguments set but constructor was not found"
    else .ok none

/-! ## The transactions -/

/-- The creation of a contract with this code. -/
def createTx (sender : Address) (code : Bytes) : TransactionRequest where
  sender := some sender
  kind := some .create
  input := some (contractDeploymentCalldata code)

/-- The activation of a contract, which pays the data fee. -/
def activationTx (sender contractAddr : Address) (dataFee : U256) : TransactionRequest where
  sender := some sender
  kind := some (.call arbWasmAddress)
  value := some dataFee
  input := some (activateProgramCall contractAddr)

/-- The call of the deployer. -/
def deployerTx (sender : Address) (deployer : DeployerArgs) : TransactionRequest where
  sender := some sender
  kind := some (.call deployer.address)
  value := some deployer.txValue
  input := some deployer.txCalldata

/-- The address that a creation returns, which for an estimate is the one it would have. -/
def deployContract (env : DeployEnv Param Value) (cfg : DeployConfig) (code : Bytes)
    (sender : Address) : Rpc Address := do
  let tx := createTx sender code
  let gas ← ask (Request.estimateGas tx)
  let gasPrice ← ask Request.getGasPrice
  if cfg.estimateGas then
    let nonce ← ask (Request.getTransactionCount sender)
    return env.create sender nonce
  else
    let feePerGas ← lift (calculateFeePerGas env cfg.checkConfig.commonCfg gasPrice)
    let receipt ← runTx "deploy" tx (some gas) feePerGas
    lift (.ofOption "missing address" receipt.contractAddress)

/-- Activates the contract, also for an estimate. -/
def activate (env : DeployEnv Param Value) (cfg : DeployConfig) (sender contractAddr : Address)
    (dataFee : U256) : Rpc Unit := do
  let tx := activationTx sender contractAddr dataFee
  let gas ← askWith (Request.estimateGas tx) fun gas =>
    .mapErr (fun e => s!"did not estimate correctly: {e}") (.ofExcept gas)
  let gasPrice ← ask Request.getGasPrice
  let feePerGas ← lift (calculateFeePerGas env cfg.checkConfig.commonCfg gasPrice)
  let _ ← runTx "activate" tx (some gas) feePerGas
  return ()

/-- The hash of `ContractDeployed(address)`. -/
def contractDeployedSignatureHash : Bytes :=
  [0x8f, 0xfc, 0xdc, 0x15, 0xa2, 0x83, 0xd7, 0x06, 0xd3, 0x82, 0x81, 0xf5, 0x00, 0x27, 0x0d, 0x8b,
    0x5a, 0x65, 0x69, 0x18, 0xf5, 0x55, 0xde, 0x09, 0x13, 0xd7, 0x45, 0x5e, 0x3e, 0x6b, 0xc1, 0xbf]

theorem length_contractDeployedSignatureHash : contractDeployedSignatureHash.length = 32 :=
  rfl

theorem length_addressOfWord {word : Bytes} (h : word.length = 32) :
    (word.drop 12).length = 20 := by
  rw [List.length_drop, h]

/-- The address in the first event of the deployer. -/
def getAddressFromLogs : List EventLog → Outcome String Address
  | [] => .err "contract address not found in receipt"
  | log :: logs =>
    match log.topics with
    | [] => getAddressFromLogs logs
    | topic :: _ =>
      if topic.1 = contractDeployedSignatureHash then
        if h : log.data.length = 32 then .ok ⟨log.data.drop 12, length_addressOfWord h⟩
        else .err "address missing from ContractDeployed log"
      else getAddressFromLogs logs

/-- The address of the new contract, in the logs of the receipt. -/
def getAddressFromReceipt (receipt : TransactionReceipt) : Outcome String Address :=
  getAddressFromLogs receipt.logs

/-- Deploys, activates, and initializes the contract using the Stylus deployer. -/
def deployWithDeployer (env : DeployEnv Param Value) (cfg : DeployConfig)
    (deployer : DeployerArgs) (sender : Address) : Rpc Unit := do
  let tx := deployerTx sender deployer
  let gas ← askWith (Request.estimateGas tx) fun gas =>
    .wrapErr "deployment failed during gas estimation" (.ofExcept gas)
  let gasPrice ← ask Request.getGasPrice
  if cfg.estimateGas then
    return ()
  else
    let feePerGas ← lift (calculateFeePerGas env cfg.checkConfig.commonCfg gasPrice)
    let receipt ← runTx "deploy_activate_init" tx (some gas) feePerGas
    let _ ← lift (getAddressFromReceipt receipt)
    return ()

/-! ## The command -/

/-- The colour of warnings. -/
def yellow : String := "\x1b[33;1m"

/-- A contract that is to be activated needs the data fee, if it is not an estimate. -/
def checkBalance (env : DeployEnv Param Value) (cfg : DeployConfig) (contract : ContractCheck)
    (fromAddress : Address) (dataFee : U256) : Rpc Unit :=
  match contract with
  | .ready _ _ => do
    let balance ← askWith (Request.getBalance fromAddress) (.expect "failed to get balance")
    if balance < dataFee ∧ cfg.estimateGas = false then
      lift (.err (s!"not enough funds in account {red}{env.abi.showAddress fromAddress}{clear}" ++
        s!" to pay for data fee\nbalance {red}{balance.toNat}{clear} < " ++
        s!"{red}{dataFee.toNat} wei{clear}\n" ++
        "please see the Quickstart guide for funding new accounts:\n" ++
        s!"{yellow}https://docs.arbitrum.io/stylus/stylus-quickstart{clear}"))
    else
      return ()
  | .active _ => return ()

/-- Create the contract, and activate it if that is needed and wanted. -/
def deployWithoutConstructor (env : DeployEnv Param Value) (cfg : DeployConfig)
    (contract : ContractCheck) (fromAddress : Address) (dataFee : U256) : Rpc Unit := do
  let contractAddr ← deployContract env cfg contract.code fromAddress
  if cfg.estimateGas then
    return ()
  else
    match contract with
    | .ready _ _ =>
      if cfg.noActivate then return () else activate env cfg fromAddress contractAddr dataFee
    | .active _ => return ()

/-- Deploys a stylus contract, activating if needed. -/
def deploy (env : DeployEnv Param Value) (cfg : DeployConfig) : Rpc Unit := do
  let contract ← lift (.expect "cargo stylus check failed" (env.check cfg.checkConfig))
  let constructor ← lift (findConstructor env cfg)
  let deployer ← lift (deployerArgs env cfg contract constructor)
  let fromAddress ←
    connectWallet env.alloyWallet cfg.checkConfig.commonCfg.endpoint cfg.auth
  let dataFee := contract.suggestFee + cfg.constructorValue
  checkBalance env cfg contract fromAddress dataFee
  match deployer with
  | some deployer => deployWithDeployer env cfg deployer fromAddress
  | none => deployWithoutConstructor env cfg contract fromAddress dataFee

end CargoStylus
