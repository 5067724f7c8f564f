import CargoStylus.DeployRun

/-!
# What a deployment sends

Whatever the node responds, a run of `deploy` sends nothing, or the creation, or the creation
and then the activation, or the deployer call, and nothing comes after a response that fails
(`deploy_plan`). The activation is of the address in the receipt of the creation.

Each part of the command is followed once : a part that asks questions only is `Quiet`, and
the others have at most their transaction (`deployContract_spec`, `sendsAtMost_activate`,
`sendsAtMost_deployWithDeployer`). The other way round, each part can send what it is for, and
so there is a run of `deploy` that sends all that is planned (`reaches_deploy`).
-/

namespace CargoStylus

open Rust Rust.Interaction Rust.Interaction.Prog

variable {Param Value : Type} {env : DeployEnv Param Value} {cfg : DeployConfig}

/-! ## The parts that send nothing -/

theorem quiet_connectWallet {alloyWallet : AlloyWallet} {endpoint : Text} {auth : AuthOpts} :
    Quiet (connectWallet alloyWallet endpoint auth) := by
  refine (avoids_ask nofun).bind fun _ => (avoids_ask nofun).bind fun chainId => ?_
  refine (quiet_lift _).bind fun fromAddress => (avoids_ask nofun).bind fun _ => ?_
  exact quiet_lift (.ok fromAddress)

theorem quiet_checkBalance {contract : ContractCheck} {fromAddress : Address} {dataFee : U256} :
    Quiet (checkBalance env cfg contract fromAddress dataFee) := by
  unfold checkBalance
  rcases contract with code | ⟨code, fee⟩
  · exact quiet_lift (.ok ())
  · refine (avoids_askWith nofun _).bind fun balance => ?_
    split_ifs
    · exact quiet_lift _
    · exact quiet_lift (.ok ())

/-! ## The parts that send a transaction -/

/-- The creation is sent, and an address that is returned is the one in its receipt. -/
def Created (sender : Address) (code : Bytes) (log : RpcLog) (o : Outcome String Address) :
    Prop :=
  ∃ gas fee, sent log = [(createTx sender code).withFee gas fee] ∧
    ∀ address, o = .ok address → ∃ before txHash receipt, sent before = [] ∧
      log = before ++ [⟨.sendTransaction ((createTx sender code).withFee gas fee), .ok txHash⟩,
        ⟨.getReceipt txHash, .ok receipt⟩] ∧
      receipt.status = true ∧ receipt.contractAddress = some address

/-- Either nothing is sent, and an address is that of an estimate, or the creation is. -/
def CreatedIf (estimateGas : Bool) (sender : Address) (code : Bytes) (log : RpcLog)
    (o : Outcome String Address) : Prop :=
  sent log = [] ∧ (o.IsOk → estimateGas = true) ∨
    estimateGas = false ∧ Created sender code log o

theorem quietClosed_createdIf (estimateGas : Bool) (sender : Address) (code : Bytes) :
    QuietClosed (CreatedIf estimateGas sender code) where
  nothing hsent hok := .inl ⟨hsent, fun h => absurd h hok⟩
  prepend {log _ _} hsent h := by
    rcases h with ⟨hnil, hest⟩ | ⟨hest, gas, fee, hone, hok⟩
    · exact .inl ⟨by rw [sent_append, hsent, hnil, List.nil_append], hest⟩
    · refine .inr ⟨hest, gas, fee, by rw [sent_append, hsent, hone, List.nil_append], ?_⟩
      rintro address ho
      obtain ⟨before, txHash, receipt, hbefore, rfl, h⟩ := hok address ho
      refine ⟨log ++ before, txHash, receipt, ?_, (List.append_assoc _ _ _).symm, h⟩
      rw [sent_append, hsent, hbefore, List.nil_append]

/-- A creation is an estimate, or one transaction with the address in its receipt. -/
theorem deployContract_spec {code : Bytes} {sender : Address} :
    wp (deployContract env cfg code sender) (CreatedIf cfg.estimateGas sender code) := by
  have hQ := quietClosed_createdIf cfg.estimateGas sender code
  unfold deployContract
  refine hQ.bind (avoids_ask nofun) fun gas => hQ.bind (avoids_ask nofun) fun gasPrice => ?_
  rcases hest : cfg.estimateGas with _ | _
  · rw [hest] at hQ
    refine hQ.lift_bind fun fee _ => wp_bind_of runTx_spec (fun log receipt h => ?_)
      (fun _ _ h => .inr ⟨rfl, some gas, fee, h.1, nofun⟩)
      (fun _ _ h => .inr ⟨rfl, some gas, fee, h.1, nofun⟩)
    obtain ⟨hstatus, txHash, rfl⟩ := h.2 receipt rfl
    refine .inr ⟨rfl, some gas, fee, rfl, fun address haddress => ?_⟩
    exact ⟨[], txHash, receipt, rfl, rfl, hstatus, Outcome.ofOption_eq_ok.1 haddress⟩
  · rw [hest] at hQ
    exact hQ.bind (avoids_ask nofun) fun nonce => .inl ⟨rfl, fun _ => rfl⟩

/-- An activation sends one transaction at most. -/
theorem sendsAtMost_activate {sender contractAddr : Address} {dataFee : U256} :
    SendsAtMost (activationTx sender contractAddr dataFee)
      (activate env cfg sender contractAddr dataFee) := by
  refine .quiet_bind (avoids_askWith nofun _) fun gas => .quiet_bind (avoids_ask nofun) ?_
  refine fun gasPrice => .quiet_bind (quiet_lift _) fun feePerGas => ?_
  exact sendsAtMost_runTx_bind fun receipt => quiet_lift (.ok ())

/-- A call of the deployer is the only transaction. -/
theorem sendsAtMost_deployWithDeployer {deployer : DeployerArgs} {sender : Address}
    (hest : cfg.estimateGas = false) :
    SendsAtMost (deployerTx sender deployer) (deployWithDeployer env cfg deployer sender) := by
  unfold deployWithDeployer
  simp only [hest, Bool.false_eq_true, if_false]
  refine .quiet_bind (avoids_askWith nofun _) fun gas => .quiet_bind (avoids_ask nofun) ?_
  refine fun gasPrice => .quiet_bind (quiet_lift _) fun feePerGas => ?_
  exact sendsAtMost_runTx_bind fun receipt => (quiet_lift _).bind fun _ => quiet_lift (.ok ())

/-- An estimate sends nothing. -/
theorem quiet_deployWithDeployer {deployer : DeployerArgs} {sender : Address}
    (hest : cfg.estimateGas = true) : Quiet (deployWithDeployer env cfg deployer sender) := by
  unfold deployWithDeployer
  simp only [hest, if_true]
  refine (avoids_askWith nofun _).bind fun gas => (avoids_ask nofun).bind fun gasPrice => ?_
  exact quiet_lift (.ok ())

/-! ## The plan -/

/-- What a run of `deploy` may have sent : nothing, the creation, the creation and the
activation, or the deployer call. -/
inductive DeployPlan (env : DeployEnv Param Value) (cfg : DeployConfig) (log : RpcLog) : Prop
  | nothing (hsent : sent log = [])
  | create {contract : ContractCheck} {sender : Address} {gas : Option U64} {maxFee : U128}
      (hcheck : env.check cfg.checkConfig = .ok contract)
      (hnone : findConstructor env cfg = .ok none) (hest : cfg.estimateGas = false)
      (hsent : sent log = [(createTx sender contract.code).withFee gas maxFee])
  | createAndActivate {code : Bytes} {fee : U256} {sender address : Address}
      {gas gas' : Option U64} {maxFee maxFee' : U128} {before after : RpcLog} {txHash : B256}
      {receipt : TransactionReceipt}
      (hcheck : env.check cfg.checkConfig = .ok (.ready code fee))
      (hnone : findConstructor env cfg = .ok none) (hest : cfg.estimateGas = false)
      (hactivate : cfg.noActivate = false)
      (hlog : log = before ++
        ⟨.sendTransaction ((createTx sender code).withFee gas maxFee), .ok txHash⟩ ::
        ⟨.getReceipt txHash, .ok receipt⟩ :: after)
      (hbefore : sent before = []) (hstatus : receipt.status = true)
      (haddress : receipt.contractAddress = some address)
      (hafter : sent after = [(activationTx sender address
        (fee + cfg.constructorValue)).withFee gas' maxFee'])
  | callDeployer {contract : ContractCheck} {constructor : Constructor Param}
      {deployer : DeployerArgs} {sender : Address} {gas : Option U64} {maxFee : U128}
      (hcheck : env.check cfg.checkConfig = .ok contract)
      (hfind : findConstructor env cfg = .ok (some constructor))
      (hparse : parseConstructorArgs env.abi env.connect cfg constructor contract = .ok deployer)
      (hest : cfg.estimateGas = false)
      (hsent : sent log = [(deployerTx sender deployer).withFee gas maxFee])

theorem quietClosed_deployPlan (env : DeployEnv Param Value) (cfg : DeployConfig) :
    QuietClosed fun log (_ : Outcome String Unit) => DeployPlan env cfg log where
  nothing hsent _ := .nothing hsent
  prepend {log log' _} hlog h := by
    have hsent : sent (log ++ log') = sent log' := by rw [sent_append, hlog, List.nil_append]
    rcases h with h | ⟨hcheck, hnone, hest, h⟩ |
      ⟨hcheck, hnone, hest, hactivate, rfl, hbefore, hstatus, haddress, hafter⟩ |
      ⟨hcheck, hfind, hparse, hest, h⟩
    · exact .nothing (hsent.trans h)
    · exact .create hcheck hnone hest (hsent.trans h)
    · refine .createAndActivate hcheck hnone hest hactivate (List.append_assoc _ _ _).symm ?_
        hstatus haddress hafter
      rw [sent_append, hlog, hbefore, List.nil_append]
    · exact .callDeployer hcheck hfind hparse hest (hsent.trans h)

theorem deployPlan_of_created {contract : ContractCheck} {sender : Address} {log : RpcLog}
    {o : Outcome String Address} (hcheck : env.check cfg.checkConfig = .ok contract)
    (hnone : findConstructor env cfg = .ok none)
    (h : CreatedIf cfg.estimateGas sender contract.code log o) : DeployPlan env cfg log := by
  rcases h with ⟨hsent, -⟩ | ⟨hest, gas, fee, hsent, -⟩
  · exact .nothing hsent
  · exact .create hcheck hnone hest hsent

theorem deployPlan_of_activation {code : Bytes} {fee : U256} {sender address : Address}
    {log log' : RpcLog} (hcheck : env.check cfg.checkConfig = .ok (.ready code fee))
    (hnone : findConstructor env cfg = .ok none) (hest : cfg.estimateGas = false)
    (hactivate : cfg.noActivate = false) (h : Created sender code log (.ok address))
    (h' : sent log' = [] ∨ ∃ gas maxFee, sent log' =
      [(activationTx sender address (fee + cfg.constructorValue)).withFee gas maxFee]) :
    DeployPlan env cfg (log ++ log') := by
  obtain ⟨gas, maxFee, hone, hok⟩ := h
  rcases h' with h' | ⟨gas', maxFee', h'⟩
  · have hsent : sent (log ++ log') = [(createTx sender code).withFee gas maxFee] := by
      rw [sent_append, h', hone, List.append_nil]
    exact .create hcheck hnone hest hsent
  · obtain ⟨before, txHash, receipt, hbefore, rfl, hstatus, haddress⟩ := hok address rfl
    exact .createAndActivate hcheck hnone hest hactivate (List.append_assoc _ _ _) hbefore hstatus
      haddress h'

/-- Without a constructor the plan is kept to. -/
theorem deployWithoutConstructor_plan {contract : ContractCheck} {sender : Address}
    (hcheck : env.check cfg.checkConfig = .ok contract)
    (hnone : findConstructor env cfg = .ok none) :
    wp (deployWithoutConstructor env cfg contract sender
      (contract.suggestFee + cfg.constructorValue)) fun log _ => DeployPlan env cfg log := by
  refine wp_bind_of deployContract_spec (fun log address h => ?_)
    (fun _ _ h => deployPlan_of_created hcheck hnone h)
    (fun _ _ h => deployPlan_of_created hcheck hnone h)
  have hdone : wp (pure () : Rpc Unit) fun log' _ => DeployPlan env cfg (log ++ log') := by
    simpa using deployPlan_of_created hcheck hnone h
  rcases hest : cfg.estimateGas with _ | _
  · rw [hest] at h
    rcases h with ⟨-, h⟩ | ⟨-, hcreated⟩
    · exact absurd (h (Outcome.isOk_ok address)) Bool.false_ne_true
    · rcases contract with code | ⟨code, fee⟩
      · exact hdone
      · rcases hactivate : cfg.noActivate with _ | _
        · exact wp_mono sendsAtMost_activate fun _ _ h' =>
            deployPlan_of_activation hcheck hnone hest hactivate hcreated h'
        · exact hdone
  · exact hdone

/-- When the deployer is called. -/
theorem deployerArgs_eq_some {contract : ContractCheck} {deployer : DeployerArgs}
    {constructor : Option (Constructor Param)}
    (h : deployerArgs env cfg contract constructor = .ok (some deployer)) :
    ∃ c, constructor = some c ∧
      parseConstructorArgs env.abi env.connect cfg c contract = .ok deployer := by
  unfold deployerArgs at h
  rcases constructor with _ | c
  · dsimp only at h
    split_ifs at h
    cases Outcome.ok.inj h
  · obtain ⟨d, hd, hsome⟩ := Outcome.map_eq_ok.1 h
    exact ⟨c, rfl, Option.some.inj hsome ▸ hd⟩

/-- When the contract is created directly. -/
theorem deployerArgs_eq_none {contract : ContractCheck} {constructor : Option (Constructor Param)} :
    deployerArgs env cfg contract constructor = .ok none ↔
      constructor = none ∧ cfg.constructorArgs = [] := by
  unfold deployerArgs
  rcases constructor with _ | c
  · dsimp only
    split_ifs with hargs
    · simp [hargs]
    · simpa using hargs
  · simp [Outcome.map_eq_ok]

/-- Every run of `deploy` sends what the plan has. -/
theorem deploy_sends : wp (deploy env cfg) fun log _ => DeployPlan env cfg log := by
  have hQ := quietClosed_deployPlan env cfg
  refine hQ.lift_bind fun contract hcheck => hQ.lift_bind fun constructor hfind => ?_
  refine hQ.lift_bind fun deployer hdeployer => hQ.bind quiet_connectWallet fun fromAddress => ?_
  refine hQ.bind quiet_checkBalance fun _ => ?_
  have hcheck := Outcome.expect_eq_ok.1 hcheck
  rcases deployer with _ | deployer
  · obtain ⟨rfl, -⟩ := deployerArgs_eq_none.1 hdeployer
    exact deployWithoutConstructor_plan hcheck hfind
  · obtain ⟨c, rfl, hparse⟩ := deployerArgs_eq_some hdeployer
    rcases hest : cfg.estimateGas with _ | _
    · refine wp_mono (sendsAtMost_deployWithDeployer hest) fun log _ h => ?_
      rcases h with h | ⟨gas, maxFee, h⟩
      · exact .nothing h
      · exact .callDeployer hcheck hfind hparse hest h
    · exact wp_mono (quiet_deployWithDeployer hest) fun _ _ h => .nothing (sent_eq_nil h)

/-! ## Nothing after a failure -/

theorem stops_connectWallet {alloyWallet : AlloyWallet} {endpoint : Text} {auth : AuthOpts} :
    Stops Fails (connectWallet alloyWallet endpoint auth) := by
  refine (stops_ask nofun).bind fun _ => (stops_ask nofun).bind fun chainId => ?_
  refine (stops_lift _).bind fun fromAddress => (stops_ask nofun).bind fun _ => ?_
  exact stops_lift (.ok fromAddress)

theorem stops_checkBalance {contract : ContractCheck} {fromAddress : Address} {dataFee : U256} :
    Stops Fails (checkBalance env cfg contract fromAddress dataFee) := by
  unfold checkBalance
  rcases contract with code | ⟨code, fee⟩
  · exact stops_lift (.ok ())
  · refine (stops_askWith fun balance hfails => ?_).bind fun balance => ?_
    · rcases balance with e | balance
      · exact Outcome.not_isOk_panic _
      · exact hfails.elim
    · split_ifs
      · exact stops_lift _
      · exact stops_lift (.ok ())

theorem stops_deployContract {code : Bytes} {sender : Address} :
    Stops Fails (deployContract env cfg code sender) := by
  refine (stops_ask nofun).bind fun gas => (stops_ask nofun).bind fun gasPrice => ?_
  split_ifs
  · exact (stops_ask nofun).bind fun nonce => stops_lift (.ok _)
  · exact (stops_lift _).bind fun fee => stops_runTx.bind fun receipt => stops_lift _

theorem stops_activate {sender contractAddr : Address} {dataFee : U256} :
    Stops Fails (activate env cfg sender contractAddr dataFee) := by
  refine (stops_askWith fun gas hfails => ?_).bind fun gas => (stops_ask nofun).bind fun price => ?_
  · rcases gas with e | gas
    · exact Outcome.not_isOk_err _
    · exact hfails.elim
  · exact (stops_lift _).bind fun fee => stops_runTx.bind fun receipt => stops_lift (.ok ())

theorem stops_deployWithoutConstructor {contract : ContractCheck} {sender : Address}
    {dataFee : U256} : Stops Fails (deployWithoutConstructor env cfg contract sender dataFee) := by
  refine stops_deployContract.bind fun contractAddr => ?_
  rcases contract with code | ⟨code, fee⟩
  · dsimp only
    split_ifs
    · exact stops_lift (.ok ())
    · exact stops_lift (.ok ())
  · dsimp only
    split_ifs
    · exact stops_lift (.ok ())
    · exact stops_lift (.ok ())
    · exact stops_activate

theorem stops_deployWithDeployer {deployer : DeployerArgs} {sender : Address} :
    Stops Fails (deployWithDeployer env cfg deployer sender) := by
  refine (stops_askWith fun gas hfails => ?_).bind fun gas => (stops_ask nofun).bind fun price => ?_
  · rcases gas with e | gas
    · exact Outcome.not_isOk_err _
    · exact hfails.elim
  · split_ifs
    · exact stops_lift (.ok ())
    · refine (stops_lift _).bind fun fee => stops_runTx.bind fun receipt => ?_
      exact (stops_lift _).bind fun _ => stops_lift (.ok ())

/-- A request that fails is the last one. -/
theorem stops_deploy : Stops Fails (deploy env cfg) := by
  refine (stops_lift _).bind fun contract => (stops_lift _).bind fun constructor => ?_
  refine (stops_lift _).bind fun deployer => stops_connectWallet.bind fun fromAddress => ?_
  refine stops_checkBalance.bind fun _ => ?_
  rcases deployer with _ | deployer
  · exact stops_deployWithoutConstructor
  · exact stops_deployWithDeployer

/-! ## Runs that send their plan -/

/-- There is a wallet, and what a transaction costs is known. -/
structure CanPay (env : DeployEnv Param Value) (cfg : DeployConfig) : Prop where
  wallet : ∃ chainId sender, env.alloyWallet cfg.auth chainId = .ok sender
  maxFee : ∃ gasPrice maxFee,
    calculateFeePerGas env cfg.checkConfig.commonCfg gasPrice = .ok maxFee

/-- Without a constructor the creation is sent, and the activation if it is due. -/
def planned (cfg : DeployConfig) (contract : ContractCheck)
    (constructor : Option (Constructor Param)) : ℕ :=
  match constructor, contract with
  | some _, _ => 1
  | none, .ready _ _ => if cfg.noActivate then 1 else 2
  | none, .active _ => 1

/-- A creation that ends well has sent one transaction. -/
theorem counts_deployContract {code : Bytes} {sender : Address} (hest : cfg.estimateGas = false) :
    Counts 1 (deployContract env cfg code sender) := by
  refine .quiet_bind (avoids_ask nofun) fun gas => .quiet_bind (avoids_ask nofun) fun price => ?_
  simp only [hest, Bool.false_eq_true, if_false]
  exact .quiet_bind (quiet_lift _) fun maxFee => counts_runTx_bind fun receipt => quiet_lift _

theorem counts_activate {sender contractAddr : Address} {dataFee : U256} :
    Counts 1 (activate env cfg sender contractAddr dataFee) := by
  refine .quiet_bind (avoids_askWith nofun _) fun gas => .quiet_bind (avoids_ask nofun) ?_
  refine fun price => .quiet_bind (quiet_lift _) fun maxFee => ?_
  exact counts_runTx_bind fun receipt => quiet_lift (.ok ())

theorem counts_deployWithDeployer {deployer : DeployerArgs} {sender : Address}
    (hest : cfg.estimateGas = false) :
    Counts 1 (deployWithDeployer env cfg deployer sender) := by
  refine .quiet_bind (avoids_askWith nofun _) fun gas => .quiet_bind (avoids_ask nofun) ?_
  intro price
  simp only [hest, Bool.false_eq_true, if_false]
  refine .quiet_bind (quiet_lift _) fun maxFee => counts_runTx_bind fun receipt => ?_
  exact (quiet_lift _).bind fun _ => quiet_lift (.ok ())

theorem counts_deployWithoutConstructor {contract : ContractCheck} {sender : Address}
    {dataFee : U256} (hest : cfg.estimateGas = false) :
    Counts (planned cfg contract (none : Option (Constructor Param)))
      (deployWithoutConstructor env cfg contract sender dataFee) := by
  unfold deployWithoutConstructor
  simp only [hest, Bool.false_eq_true, if_false]
  rcases contract with code | ⟨code, fee⟩
  · exact (counts_deployContract hest).bind fun _ => .of_quiet (quiet_lift (.ok ()))
  · unfold planned
    dsimp only
    split_ifs
    · exact (counts_deployContract hest).bind fun _ => .of_quiet (quiet_lift (.ok ()))
    · exact (counts_deployContract hest).bind fun _ => counts_activate

/-- A run that returns has sent all that is planned. -/
theorem counts_deploy {contract : ContractCheck} {constructor : Option (Constructor Param)}
    (hcheck : env.check cfg.checkConfig = .ok contract)
    (hfind : findConstructor env cfg = .ok constructor) (hest : cfg.estimateGas = false) :
    Counts (planned cfg contract constructor) (deploy env cfg) := by
  refine .lift_bind fun contract' hcontract => .lift_bind fun constructor' hconstructor => ?_
  obtain rfl := Except.ok.inj (hcheck.symm.trans (Outcome.expect_eq_ok.1 hcontract))
  obtain rfl := Outcome.ok.inj (hfind.symm.trans hconstructor)
  refine .lift_bind fun deployer hdeployer => .quiet_bind quiet_connectWallet fun sender => ?_
  refine .quiet_bind quiet_checkBalance fun _ => ?_
  rcases deployer with _ | deployer
  · obtain ⟨rfl, -⟩ := deployerArgs_eq_none.1 hdeployer
    exact counts_deployWithoutConstructor hest
  · obtain ⟨c, rfl, -⟩ := deployerArgs_eq_some hdeployer
    exact counts_deployWithDeployer hest

theorem reaches_connectWallet {alloyWallet : AlloyWallet} {endpoint : Text} {auth : AuthOpts}
    {chainId : U64} {sender : Address} (h : alloyWallet auth chainId = .ok sender) :
    Reaches (connectWallet alloyWallet endpoint auth) [] sender := by
  refine .ask_bind (.connect endpoint) () (.ask_bind .getChainId chainId (.lift_bind h ?_))
  exact .ask_bind (.connect endpoint) () (reaches_lift rfl)

theorem reaches_checkBalance {contract : ContractCheck} {fromAddress : Address} {dataFee : U256} :
    Reaches (checkBalance env cfg contract fromAddress dataFee) [] () := by
  unfold checkBalance
  rcases contract with code | ⟨code, fee⟩
  · exact reaches_lift rfl
  · refine .askWith_bind (.getBalance fromAddress) (.ok dataFee) rfl ?_
    rw [if_neg fun h => BitVec.lt_irrefl dataFee h.1]
    exact reaches_lift rfl

/-- The receipt of a transaction that deployed a contract, in either way. -/
def deployedReceipt (address : Address) : TransactionReceipt where
  status := true
  contractAddress := some address
  logs := [⟨[⟨contractDeployedSignatureHash, length_contractDeployedSignatureHash⟩],
    List.replicate 12 0 ++ address.1⟩]

theorem getAddressFromReceipt_deployedReceipt (address : Address) :
    getAddressFromReceipt (deployedReceipt address) = .ok address := by
  obtain ⟨bytes, hbytes⟩ := address
  simp [getAddressFromReceipt, deployedReceipt, getAddressFromLogs, hbytes]

theorem reaches_deployContract (code : Bytes) (sender address : Address)
    (hest : cfg.estimateGas = false) (hpay : CanPay env cfg) :
    ∃ gas maxFee, Reaches (deployContract env cfg code sender)
      [(createTx sender code).withFee gas maxFee] address := by
  obtain ⟨gasPrice, maxFee, hfee⟩ := hpay.maxFee
  refine ⟨some 0, maxFee, .ask_bind (.estimateGas _) 0 (.ask_bind .getGasPrice gasPrice ?_)⟩
  simp only [hest, Bool.false_eq_true, if_false]
  refine .lift_bind hfee ?_
  exact (reaches_runTx (deployedReceipt address) rfl).bind (reaches_lift rfl)

theorem reaches_activate (sender contractAddr : Address) (dataFee : U256)
    (hpay : CanPay env cfg) :
    ∃ gas maxFee, Reaches (activate env cfg sender contractAddr dataFee)
      [(activationTx sender contractAddr dataFee).withFee gas maxFee] () := by
  obtain ⟨gasPrice, maxFee, hfee⟩ := hpay.maxFee
  refine ⟨some 0, maxFee, .askWith_bind (.estimateGas _) (.ok 0) rfl ?_⟩
  refine .ask_bind .getGasPrice gasPrice (.lift_bind hfee ?_)
  exact (reaches_runTx (deployedReceipt sender) rfl).bind (reaches_lift rfl)

theorem reaches_deployWithDeployer (deployer : DeployerArgs) (sender : Address)
    (hest : cfg.estimateGas = false) (hpay : CanPay env cfg) :
    ∃ gas maxFee, Reaches (deployWithDeployer env cfg deployer sender)
      [(deployerTx sender deployer).withFee gas maxFee] () := by
  obtain ⟨gasPrice, maxFee, hfee⟩ := hpay.maxFee
  refine ⟨some 0, maxFee, .askWith_bind (.estimateGas _) (.ok 0) rfl ?_⟩
  refine .ask_bind .getGasPrice gasPrice ?_
  simp only [hest, Bool.false_eq_true, if_false]
  refine .lift_bind hfee ?_
  refine (reaches_runTx (deployedReceipt sender) rfl).bind ?_
  exact .lift_bind (getAddressFromReceipt_deployedReceipt sender) (reaches_lift rfl)

theorem reaches_deployWithoutConstructor (contract : ContractCheck) (sender : Address)
    (dataFee : U256) (hest : cfg.estimateGas = false) (hpay : CanPay env cfg) :
    ∃ txs, txs.length = planned cfg contract (none : Option (Constructor Param)) ∧
      Reaches (deployWithoutConstructor env cfg contract sender dataFee) txs () := by
  obtain ⟨gas, maxFee, hcreate⟩ :=
    reaches_deployContract contract.code sender sender hest hpay
  unfold deployWithoutConstructor
  simp only [hest, Bool.false_eq_true, if_false]
  rcases contract with code | ⟨code, fee⟩
  · exact ⟨_, rfl, hcreate.bind (reaches_lift rfl)⟩
  · rcases hactivate : cfg.noActivate with _ | _
    · obtain ⟨gas', maxFee', hactivation⟩ := reaches_activate sender sender dataFee hpay
      refine ⟨_, ?_, hcreate.bind hactivation⟩
      simp [planned, hactivate]
    · refine ⟨_, ?_, hcreate.bind (reaches_lift rfl)⟩
      simp [planned, hactivate]

/-- If the arguments are accepted and transactions can be paid, all are sent in some run. -/
theorem reaches_deploy {contract : ContractCheck} {constructor : Option (Constructor Param)}
    (hcheck : env.check cfg.checkConfig = .ok contract)
    (hfind : findConstructor env cfg = .ok constructor)
    (hargs : (deployerArgs env cfg contract constructor).IsOk)
    (hest : cfg.estimateGas = false) (hpay : CanPay env cfg) :
    ∃ txs, txs.length = planned cfg contract constructor ∧ Reaches (deploy env cfg) txs () := by
  obtain ⟨deployer, hdeployer⟩ := hargs
  obtain ⟨chainId, sender, hwallet⟩ := hpay.wallet
  have hcheck : (.expect "cargo stylus check failed" (env.check cfg.checkConfig) :
      Outcome String ContractCheck) = .ok contract :=
    Outcome.expect_eq_ok.2 hcheck
  rcases deployer with _ | deployer
  · obtain ⟨rfl, -⟩ := deployerArgs_eq_none.1 hdeployer
    obtain ⟨txs, hlen, h⟩ := reaches_deployWithoutConstructor contract sender
      (contract.suggestFee + cfg.constructorValue) hest hpay
    refine ⟨txs, hlen, .lift_bind hcheck (.lift_bind hfind (.lift_bind hdeployer ?_))⟩
    exact (reaches_connectWallet hwallet).bind (reaches_checkBalance.bind h)
  · obtain ⟨c, rfl, -⟩ := deployerArgs_eq_some hdeployer
    obtain ⟨gas, maxFee, h⟩ := reaches_deployWithDeployer deployer sender hest hpay
    refine ⟨[(deployerTx sender deployer).withFee gas maxFee], rfl, ?_⟩
    refine .lift_bind hcheck (.lift_bind hfind (.lift_bind hdeployer ?_))
    exact (reaches_connectWallet hwallet).bind (reaches_checkBalance.bind h)

/-- Whatever the node responds, `deploy` sends nothing, or the creation, or the creation and
then the activation of the address in its receipt, or the deployer call, and a response that
fails is the last. -/
theorem deploy_plan (env : DeployEnv Param Value) (cfg : DeployConfig) {log : RpcLog}
    {o : Outcome String Unit} (h : Runs (deploy env cfg) log o) :
    DeployPlan env cfg log ∧ StopsAt Fails log o :=
  ⟨wp_iff_runs.1 deploy_sends log o h, wp_iff_runs.1 stops_deploy log o h⟩

/-- The arguments of `cargo stylus deploy --wasm-file`, without a constructor. -/
def wasmFileConfig (constructorValue : U256) : DeployConfig where
  checkConfig :=
    { commonCfg :=
        { endpoint := [], verbose := false, sourceFilesForProjectHash := [],
          maxFeePerGasGwei := none, features := none },
      dataFee := { dataFeeBumpPercent := 20 }, wasmFile := some [0x61], contractAddress := none }
  auth := { privateKeyPath := none, privateKey := none, keystorePath := some [],
            keystorePasswordPath := none }
  estimateGas := false
  noVerify := false
  cargoStylusVersion := none
  noActivate := false
  deployerAddress := filled 20 0
  deployerSalt := filled 32 0
  constructorArgs := []
  constructorValue := constructorValue
  constructorSignature := none

/-- A contract of one byte, not activated yet, and a keystore for any chain. -/
def readyEnv : DeployEnv NamedParam U256 where
  abi := uintAbi
  check _ := .ok (.ready [0x61] 5)
  output := .error "not a project"
  connect _ := .ok ()
  alloyWallet _ _ := .ok (filled 20 1)
  convertGweiToWei _ := .error "not a number"
  create sender _ := sender

theorem canPay_readyEnv (constructorValue : U256) :
    CanPay readyEnv (wasmFileConfig constructorValue) where
  wallet := ⟨0, filled 20 1, rfl⟩
  maxFee := ⟨0, 0, rfl⟩

theorem check_readyEnv (cfg : CheckConfig) : readyEnv.check cfg = .ok (.ready [0x61] 5) :=
  rfl

theorem findConstructor_readyEnv (constructorValue : U256) :
    findConstructor readyEnv (wasmFileConfig constructorValue) = .ok none :=
  rfl

theorem reaches_readyEnv (constructorValue : U256) :
    ∃ txs, txs.length = 2 ∧ Reaches (deploy readyEnv (wasmFileConfig constructorValue)) txs () :=
  reaches_deploy (check_readyEnv _) (findConstructor_readyEnv constructorValue) ⟨none, rfl⟩ rfl
    (canPay_readyEnv constructorValue)

/-- A run that sends two transactions. -/
theorem deploy_plan_readyEnv : ∃ log : RpcLog, (sent log).length = 2 ∧
    DeployPlan readyEnv (wasmFileConfig 0) log ∧
    StopsAt Fails log (.ok () : Outcome String Unit) := by
  obtain ⟨txs, hlen, log, rfl, hrun⟩ := reaches_readyEnv 0
  exact ⟨log, hlen, deploy_plan readyEnv (wasmFileConfig 0) hrun⟩

end CargoStylus
