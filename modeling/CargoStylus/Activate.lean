import CargoStylus.EtherAccounting

/-!
# Estimates

`deploy` and `activate` both take a flag to estimate gas only. A run of `deploy` with the flag
sends nothing. A run of `activate` prints the estimate and goes on, so it sends the activation
as it does without the flag. So the runs of a command with the flag never send anything
exactly if the command is `deploy` or there is no wallet to send with
(`estimate_sends_nothing_iff`).
-/

namespace CargoStylus

open Rust Rust.Interaction Rust.Interaction.Prog

/-! ## Activating a contract -/

/-- The arguments of `cargo stylus activate`. -/
structure ActivateConfig where
  commonCfg : CommonConfig
  dataFee : DataFeeOpts
  auth : AuthOpts
  address : Address
  estimateGas : Bool

/-- What `activate` reads besides the responses of the node. -/
structure ActivateEnv where
  alloyWallet : AlloyWallet
  /-- `Address::random`. -/
  randomAddress : Address

/-- The data fee with the bump, in percent. -/
def bumpedFee (dataFee : U256) (opts : DataFeeOpts) : U256 :=
  dataFee * (100 + opts.dataFeeBumpPercent).setWidth 256 / 100

/-- The data fee in what `activateProgram` returns, which is behind the version. -/
def decodeDataFee (returned : Bytes) : Except String U256 :=
  if returned.length < 64 then .error "ABI decoding failed: buffer overrun while deserializing"
  else .ok (readWord (returned.drop 32))

theorem decodeDataFee_of_le (returned : Bytes) (h : 64 ≤ returned.length) :
    decodeDataFee returned = .ok (readWord (returned.drop 32)) :=
  if_neg h.not_gt

/-- The text of an error that says why the contract cannot be activated, if it is known. -/
def activationError (e : String) : String :=
  if e.toList.tails.any ("pay_for_memory_grow".toList.isPrefixOf ·) then
    "Contract could not be activated as it is missing an entrypoint. Please ensure that your " ++
      "contract has an #[entrypoint] defined on your main struct"
  else e

/-- Checks contract activation, returning the data fee. -/
def checkActivate (env : ActivateEnv) (code : Bytes) (address : Address) (opts : DataFeeOpts) :
    Rpc U256 := do
  let activeCall := activationTx env.randomAddress address (BitVec.ofNat 256 (10 ^ 18))
  let dataFee ← askWith (Request.callWithCode activeCall address code) fun returned =>
    .mapErr activationError (.ofExcept (returned >>= decodeDataFee))
  return bumpedFee dataFee opts

/-- What the activation would cost is asked if it is to be printed. -/
def printEstimate (estimateGas : Bool) (activateCall : TransactionRequest) : Rpc Unit :=
  if estimateGas then do
    let _ ← ask (Request.estimateGas activateCall)
    let _ ← ask Request.getGasPrice
    return ()
  else return ()

/-- Activates an already deployed Stylus contract by address. -/
def activateContract (env : ActivateEnv) (cfg : ActivateConfig) : Rpc Unit := do
  let fromAddress ← connectWallet env.alloyWallet cfg.commonCfg.endpoint cfg.auth
  let code ← ask (Request.getCodeAt cfg.address)
  let dataFee ← checkActivate env code cfg.address cfg.dataFee
  let activateCall := activationTx fromAddress cfg.address dataFee
  printEstimate cfg.estimateGas activateCall
  let txHash ← ask (Request.sendTransaction activateCall)
  let _ ← ask (Request.getReceipt txHash)
  return ()

/-! ## What an activation sends -/

variable {env : ActivateEnv} {cfg : ActivateConfig}

theorem quiet_activateContract
    (hwallet : ∀ chainId, ¬(env.alloyWallet cfg.auth chainId).IsOk) :
    Quiet (activateContract env cfg) := by
  refine quiet_connectWallet.bind_of_returns returns_connectWallet fun sender h => ?_
  obtain ⟨chainId, hsender⟩ := h
  exact absurd ⟨sender, hsender⟩ (hwallet chainId)

theorem reaches_checkActivate (env : ActivateEnv) (code : Bytes) (address : Address)
    (opts : DataFeeOpts) :
    ∃ dataFee, Reaches (checkActivate env code address opts) [] dataFee := by
  refine ⟨bumpedFee (readWord ((List.replicate 64 0).drop 32)) opts, ?_⟩
  have hdecode := decodeDataFee_of_le (List.replicate 64 0) (by simp)
  exact .askWith_bind (.callWithCode _ address code) (.ok (List.replicate 64 0))
    (congrArg (fun r => Outcome.mapErr activationError (.ofExcept r)) hdecode) (reaches_lift rfl)

theorem reaches_printEstimate {estimateGas : Bool} {activateCall : TransactionRequest} :
    Reaches (printEstimate estimateGas activateCall) [] () := by
  unfold printEstimate
  split_ifs
  · exact .ask_bind (.estimateGas _) 0 (.ask_bind .getGasPrice 0 (reaches_lift rfl))
  · exact reaches_lift rfl

/-- With a wallet the activation is sent in some run, with the flag or without. -/
theorem reaches_activateContract (env : ActivateEnv) (cfg : ActivateConfig) {chainId : U64}
    {sender : Address} (hwallet : env.alloyWallet cfg.auth chainId = .ok sender) :
    ∃ dataFee, Reaches (activateContract env cfg) [activationTx sender cfg.address dataFee] () := by
  obtain ⟨dataFee, hdataFee⟩ := reaches_checkActivate env [] cfg.address cfg.dataFee
  refine ⟨dataFee, (reaches_connectWallet hwallet).bind (.ask_bind (.getCodeAt _) [] ?_)⟩
  refine hdataFee.bind (reaches_printEstimate.bind ?_)
  refine .ask_bind (.sendTransaction _) (filled 32 0) ?_
  exact .ask_bind (.getReceipt _) (deployedReceipt sender) (reaches_lift rfl)

/-! ## Estimates -/

/-- The commands that take the flag. -/
inductive EstimateCommand where
  | deploy (cfg : DeployConfig)
  | activate (cfg : ActivateConfig)

namespace EstimateCommand

/-- Whether `--estimate-gas` is given. -/
def estimateGas : EstimateCommand → Bool
  | deploy cfg => cfg.estimateGas
  | activate cfg => cfg.estimateGas

variable {Param Value : Type}

/-- The run of the command. -/
def run (deployEnv : DeployEnv Param Value) (env : ActivateEnv) : EstimateCommand → Rpc Unit
  | deploy cfg => CargoStylus.deploy deployEnv cfg
  | activate cfg => activateContract env cfg

/-- The command is `deploy`, or has no wallet. -/
def CannotSend (env : ActivateEnv) : EstimateCommand → Prop
  | deploy _ => True
  | activate cfg => ∀ chainId, ¬(env.alloyWallet cfg.auth chainId).IsOk

end EstimateCommand

theorem deploy_estimate_sends_nothing {Param Value : Type} {deployEnv : DeployEnv Param Value}
    {cfg : DeployConfig} (hest : cfg.estimateGas = true) {log : RpcLog} {o : Outcome String Unit}
    (h : Runs (deploy deployEnv cfg) log o) : sent log = [] := by
  rcases (deploy_plan deployEnv cfg h).1 with hsent | ⟨-, -, hest', -⟩ | ⟨-, -, hest', -⟩ |
    ⟨-, -, -, hest', -⟩
  · exact hsent
  all_goals exact absurd (hest.symm.trans hest') (Ne.symm Bool.false_ne_true)

/-- A command that only estimates never sends anything exactly if it is `deploy`, or has no
wallet. -/
theorem estimate_sends_nothing_iff {Param Value : Type} (deployEnv : DeployEnv Param Value)
    (env : ActivateEnv) (command : EstimateCommand) (hest : command.estimateGas = true) :
    (∀ log o, Runs (command.run deployEnv env) log o → sent log = []) ↔
      command.CannotSend env := by
  rcases command with cfg | cfg
  · exact ⟨fun _ => trivial, fun _ log o hrun => deploy_estimate_sends_nothing hest hrun⟩
  · refine ⟨fun hall chainId hwallet => ?_, fun hwallet log o hrun => ?_⟩
    · obtain ⟨sender, hsender⟩ := hwallet
      obtain ⟨dataFee, log, hsent, hrun⟩ := reaches_activateContract env cfg hsender
      have hnil := hall log _ hrun
      rw [hsent] at hnil
      cases hnil
    · exact sent_eq_nil (wp_iff_runs.1 (quiet_activateContract hwallet) log o hrun)

/-- The arguments of `cargo stylus activate --estimate-gas`. -/
def estimateConfig : ActivateConfig where
  commonCfg := (wasmFileConfig 0).checkConfig.commonCfg
  dataFee := { dataFeeBumpPercent := 20 }
  auth := (wasmFileConfig 0).auth
  address := filled 20 2
  estimateGas := true

/-- A wallet that always opens. -/
def keystoreEnv : ActivateEnv where
  alloyWallet _ _ := .ok (filled 20 1)
  randomAddress := filled 20 3

/-- An estimate that sends the activation. -/
theorem activate_estimate_sends :
    ¬∀ log o, Runs ((EstimateCommand.activate estimateConfig).run readyEnv keystoreEnv) log o →
      sent log = [] := by
  intro hall
  have hwallet : keystoreEnv.alloyWallet estimateConfig.auth 0 = .ok (filled 20 1) := rfl
  obtain ⟨dataFee, log, hsent, hrun⟩ := reaches_activateContract keystoreEnv estimateConfig hwallet
  have hnil := hall log _ hrun
  rw [hsent] at hnil
  cases hnil

theorem estimate_sends_nothing_iff_estimateConfig :
    (∀ log o, Runs ((EstimateCommand.activate estimateConfig).run readyEnv keystoreEnv) log o →
        sent log = []) ↔ (EstimateCommand.activate estimateConfig).CannotSend keystoreEnv :=
  estimate_sends_nothing_iff readyEnv keystoreEnv (.activate estimateConfig) rfl

end CargoStylus
