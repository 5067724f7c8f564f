import CargoStylus.DeployPlan

/-!
# The Ether of a deployment

A deployment is to send the data fee if the contract is to be activated, and the value for
the constructor if there is one, in a deployer call that forwards it, and is not to start with
a value or arguments that no constructor takes. `EtherAccounted` says that a run does so.

The value for a constructor is added to the data fee whether or not there is a constructor,
and the deployer call has the data fee whether or not the contract is to be activated. So a
deployment is accounted for in every run exactly if nothing can be sent, or the two amounts
fit (`etherAccounted_iff`) : there is no value without a constructor, and with one no data fee
that is not due and no sum above a word. Runs that return have sent all that is planned
(`counts_deploy`), and there is such a run if there is any that sends something.
-/

namespace CargoStylus

open Rust Rust.Interaction Rust.Interaction.Prog

variable {Param Value : Type} {env : DeployEnv Param Value} {cfg : DeployConfig}
  {contract : ContractCheck} {constructor : Option (Constructor Param)}

/-! ## When anything is sent -/

/-- The arguments are accepted, and transactions can be paid. -/
structure CanSend (env : DeployEnv Param Value) (cfg : DeployConfig) (contract : ContractCheck)
    (constructor : Option (Constructor Param)) : Prop where
  args : (deployerArgs env cfg contract constructor).IsOk
  pay : CanPay env cfg

/-- A wallet that is connected was opened on some chain. -/
theorem returns_connectWallet {alloyWallet : AlloyWallet} {endpoint : Text} {auth : AuthOpts} :
    Returns (fun sender => ∃ chainId, alloyWallet auth chainId = .ok sender)
      (connectWallet alloyWallet endpoint auth) := by
  refine .bind_of_forall fun _ => .bind_of_forall fun chainId => ?_
  refine returns_done.bind fun sender hsender => .bind_of_forall fun _ => ?_
  rintro _ ⟨⟩
  exact ⟨chainId, hsender⟩

section NoFee

variable (hfee : ¬∃ gasPrice maxFee,
  calculateFeePerGas env cfg.checkConfig.commonCfg gasPrice = .ok maxFee)

include hfee

theorem quiet_calculateFeePerGas_bind {β : Type} {gasPrice : U128} {f : U128 → Rpc β} :
    Quiet (lift (calculateFeePerGas env cfg.checkConfig.commonCfg gasPrice) >>= f) :=
  quiet_lift_bind fun maxFee h => absurd ⟨gasPrice, maxFee, h⟩ hfee

theorem quiet_deployContract_of_noFee {code : Bytes} {sender : Address} :
    Quiet (deployContract env cfg code sender) := by
  refine (avoids_ask nofun).bind fun gas => (avoids_ask nofun).bind fun gasPrice => ?_
  split_ifs
  · exact (avoids_ask nofun).bind fun nonce => quiet_lift (.ok _)
  · exact quiet_calculateFeePerGas_bind hfee

theorem quiet_activate_of_noFee {sender contractAddr : Address} {dataFee : U256} :
    Quiet (activate env cfg sender contractAddr dataFee) := by
  refine (avoids_askWith nofun _).bind fun gas => (avoids_ask nofun).bind fun gasPrice => ?_
  exact quiet_calculateFeePerGas_bind hfee

theorem quiet_deployWithDeployer_of_noFee {deployer : DeployerArgs} {sender : Address} :
    Quiet (deployWithDeployer env cfg deployer sender) := by
  refine (avoids_askWith nofun _).bind fun gas => (avoids_ask nofun).bind fun gasPrice => ?_
  split_ifs
  · exact quiet_lift (.ok ())
  · exact quiet_calculateFeePerGas_bind hfee

theorem quiet_deployWithoutConstructor_of_noFee {sender : Address} {dataFee : U256} :
    Quiet (deployWithoutConstructor env cfg contract sender dataFee) := by
  refine (quiet_deployContract_of_noFee hfee).bind fun contractAddr => ?_
  rcases contract with code | ⟨code, fee⟩
  · dsimp only
    split_ifs
    · exact quiet_lift (.ok ())
    · exact quiet_lift (.ok ())
  · dsimp only
    split_ifs
    · exact quiet_lift (.ok ())
    · exact quiet_lift (.ok ())
    · exact quiet_activate_of_noFee hfee

end NoFee

theorem quiet_deploy (hcheck : env.check cfg.checkConfig = .ok contract)
    (hfind : findConstructor env cfg = .ok constructor)
    (hcan : ¬CanSend env cfg contract constructor) : Quiet (deploy env cfg) := by
  refine quiet_lift_bind fun contract' hcontract => quiet_lift_bind fun constructor' hctor => ?_
  obtain rfl := Except.ok.inj (hcheck.symm.trans (Outcome.expect_eq_ok.1 hcontract))
  obtain rfl := Outcome.ok.inj (hfind.symm.trans hctor)
  refine quiet_lift_bind fun deployer hdeployer => ?_
  refine quiet_connectWallet.bind_of_returns returns_connectWallet fun sender hwallet => ?_
  refine quiet_checkBalance.bind fun _ => ?_
  obtain ⟨chainId, hwallet⟩ := hwallet
  have hfee : ¬∃ gasPrice maxFee,
      calculateFeePerGas env cfg.checkConfig.commonCfg gasPrice = .ok maxFee :=
    fun hfee => hcan ⟨⟨deployer, hdeployer⟩, ⟨chainId, sender, hwallet⟩, hfee⟩
  rcases deployer with _ | deployer
  · exact quiet_deployWithoutConstructor_of_noFee hfee
  · exact quiet_deployWithDeployer_of_noFee hfee

/-- Something is sent only if it can be. -/
theorem canSend_of_sent {log : RpcLog} {o : Outcome String Unit}
    (hcheck : env.check cfg.checkConfig = .ok contract)
    (hfind : findConstructor env cfg = .ok constructor) (h : Runs (deploy env cfg) log o)
    (hsent : sent log ≠ []) : CanSend env cfg contract constructor := by
  by_contra hcan
  exact hsent (sent_eq_nil (wp_iff_runs.1 (quiet_deploy hcheck hfind hcan) log o h))

/-! ## The value of what is sent -/

/-- The Wei a transaction sends along. -/
def TransactionRequest.wei (tx : TransactionRequest) : ℕ :=
  (tx.value.getD 0).toNat

@[simp] theorem withFee_value (tx : TransactionRequest) (gas : Option U64) (maxFee : U128) :
    (tx.withFee gas maxFee).value = tx.value := by
  rcases gas with _ | gas <;> rfl

@[simp] theorem withFee_wei (tx : TransactionRequest) (gas : Option U64) (maxFee : U128) :
    (tx.withFee gas maxFee).wei = tx.wei := by
  rw [TransactionRequest.wei, withFee_value, TransactionRequest.wei]

@[simp] theorem withFee_input (tx : TransactionRequest) (gas : Option U64) (maxFee : U128) :
    (tx.withFee gas maxFee).input = tx.input := by
  rcases gas with _ | gas <;> rfl

@[simp] theorem withFee_kind (tx : TransactionRequest) (gas : Option U64) (maxFee : U128) :
    (tx.withFee gas maxFee).kind = tx.kind := by
  rcases gas with _ | gas <;> rfl

/-- The data fee, if the contract is to be activated. -/
def dueFee (cfg : DeployConfig) : ContractCheck → ℕ
  | .ready _ fee => if cfg.noActivate then 0 else fee.toNat
  | .active _ => 0

/-- The value for the constructor, if there is one. -/
def dueValue (cfg : DeployConfig) (constructor : Option (Constructor Param)) : ℕ :=
  if constructor.isSome then cfg.constructorValue.toNat else 0

/-- The transaction is a deployer call that forwards the value for the constructor. -/
def ForwardsValue (env : DeployEnv Param Value) (cfg : DeployConfig) (tx : TransactionRequest) :
    Prop :=
  tx.kind = some (.call cfg.deployerAddress) ∧ ∃ call calldata, tx.input = some calldata ∧
    env.abi.deployCall.encode call = .ok calldata ∧ call.initValue = cfg.constructorValue

/-- What is sent in a run is what is due, the value for the constructor goes to the deployer
only, and nothing is sent if there is no constructor for the value or the arguments. -/
structure EtherAccounted (env : DeployEnv Param Value) (cfg : DeployConfig)
    (contract : ContractCheck) (constructor : Option (Constructor Param)) (log : RpcLog) :
    Prop where
  total : (sent log).length = planned cfg contract constructor →
    ((sent log).map TransactionRequest.wei).sum = dueFee cfg contract + dueValue cfg constructor
  forwarded : ∀ tx ∈ sent log,
    ForwardsValue env cfg tx ∨ tx.value = none ∨ tx.value = some contract.suggestFee
  rejected : constructor = none → cfg.constructorValue ≠ 0 ∨ cfg.constructorArgs ≠ [] →
    sent log = []

/-- Without a constructor there is no value for it. With one, no data fee is left over that
is not due, and the sum of fee and value is a word. -/
def ValueFits (cfg : DeployConfig) (contract : ContractCheck)
    (constructor : Option (Constructor Param)) : Prop :=
  match constructor, contract with
  | none, _ => cfg.constructorValue = 0
  | some _, .active _ => True
  | some _, .ready _ fee =>
    if cfg.noActivate then fee = 0 else fee.toNat + cfg.constructorValue.toNat < 2 ^ 256

theorem planned_pos : 0 < planned cfg contract constructor := by
  unfold planned
  rcases constructor with _ | c
  · rcases contract with code | ⟨code, fee⟩
    · exact Nat.one_pos
    · dsimp only
      split_ifs
      · exact Nat.one_pos
      · exact Nat.two_pos
  · exact Nat.one_pos

/-- The value of the deployer call is what is due exactly if it fits. -/
theorem deployerValue_eq_iff {c : Constructor Param} :
    (contract.suggestFee + cfg.constructorValue).toNat =
        dueFee cfg contract + dueValue cfg (some c) ↔ ValueFits cfg contract (some c) := by
  have hvalue := cfg.constructorValue.isLt
  rcases contract with code | ⟨code, fee⟩
  · simp [ContractCheck.suggestFee, dueFee, dueValue, ValueFits]
  · have hfee := fee.isLt
    have hzero : fee = 0 ↔ fee.toNat = 0 := by
      rw [← BitVec.toNat_inj]
      rfl
    simp only [ContractCheck.suggestFee, dueFee, dueValue, ValueFits, BitVec.toNat_add,
      Option.isSome_some, if_true]
    split_ifs
    · rw [hzero]
      omega
    · omega

theorem wei_createTx {sender : Address} {code : Bytes} : (createTx sender code).wei = 0 :=
  rfl

theorem wei_activationTx {sender address : Address} {dataFee : U256} :
    (activationTx sender address dataFee).wei = dataFee.toNat :=
  rfl

/-- Nothing is sent, so nothing is to be accounted for. -/
theorem etherAccounted_of_nothing {log : RpcLog} (h : sent log = []) :
    EtherAccounted env cfg contract constructor log where
  total hlen := by
    rw [h, List.length_nil] at hlen
    exact absurd hlen.symm planned_pos.ne'
  forwarded := by simp [h]
  rejected _ _ := h

theorem args_eq_nil_of_canSend (h : CanSend env cfg contract (none : Option (Constructor Param))) :
    cfg.constructorArgs = [] := by
  obtain ⟨deployer, hdeployer⟩ := h.args
  rcases deployer with _ | deployer
  · exact (deployerArgs_eq_none.1 hdeployer).2
  · obtain ⟨c, hc, -⟩ := deployerArgs_eq_some hdeployer
    cases hc

/-- If the creation is all that is planned, no data fee is due. -/
theorem dueFee_of_planned
    (h : planned cfg contract (none : Option (Constructor Param)) = 1) :
    dueFee cfg contract = 0 := by
  rcases contract with code | ⟨code, fee⟩
  · rfl
  · unfold planned at h
    unfold dueFee
    dsimp only at h ⊢
    split_ifs at h ⊢
    · rfl
    · omega

/-- Without a value for a missing constructor, the data fee is all that is paid. -/
theorem etherAccounted_of_noConstructor {log : RpcLog} {sender : Address} {code : Bytes}
    {gas : Option U64} {maxFee : U128} {rest : List TransactionRequest}
    (hvalue : cfg.constructorValue = 0) (hargs : cfg.constructorArgs = [])
    (hsent : sent log = (createTx sender code).withFee gas maxFee :: rest)
    (htotal : rest.length + 1 = planned cfg contract (none : Option (Constructor Param)) →
      (rest.map TransactionRequest.wei).sum = dueFee cfg contract)
    (hrest : ∀ tx ∈ rest, tx.value = some contract.suggestFee) :
    EtherAccounted env cfg contract (none : Option (Constructor Param)) log where
  total hlen := by
    rw [hsent, List.length_cons] at hlen
    rw [hsent, List.map_cons, List.sum_cons, withFee_wei, wei_createTx, htotal hlen, Nat.zero_add]
    rfl
  forwarded tx htx := by
    rw [hsent] at htx
    rcases List.mem_cons.1 htx with rfl | htx
    · exact .inr (.inl (withFee_value _ gas maxFee))
    · exact .inr (.inr (hrest tx htx))
  rejected _ h := by
    rcases h with h | h
    · exact absurd hvalue h
    · exact absurd hargs h

/-- A call of the deployer carries what it is for. -/
theorem etherAccounted_of_deployer {log : RpcLog} {sender : Address} {c : Constructor Param}
    {deployer : DeployerArgs} {gas : Option U64} {maxFee : U128}
    (hparse : parseConstructorArgs env.abi env.connect cfg c contract = .ok deployer)
    (hsent : sent log = [(deployerTx sender deployer).withFee gas maxFee])
    (hfits : ValueFits cfg contract (some c)) :
    EtherAccounted env cfg contract (some c) log := by
  obtain ⟨-, -, haddress, hvalue, args, encoded, -, -, hcalldata⟩ :=
    parseConstructorArgs_eq_ok hparse
  refine ⟨fun _ => ?_, fun tx htx => .inl ?_, fun h => absurd h (Option.some_ne_none c)⟩
  · have hwei : (deployerTx sender deployer).wei = deployer.txValue.toNat := rfl
    rw [hsent, List.map_singleton, List.sum_singleton, withFee_wei, hwei, hvalue,
      deployerValue_eq_iff.2 hfits]
  · rw [hsent, List.mem_singleton] at htx
    subst htx
    refine ⟨?_, _, deployer.txCalldata, withFee_input _ gas maxFee, hcalldata, rfl⟩
    rw [withFee_kind, ← haddress]
    rfl

/-- A plan without a value for a missing constructor, and with a value that fits, is paid
for to the Wei. -/
theorem etherAccounted_of_plan {log : RpcLog} (hcheck : env.check cfg.checkConfig = .ok contract)
    (hfind : findConstructor env cfg = .ok constructor) (hplan : DeployPlan env cfg log)
    (hcan : sent log ≠ [] → CanSend env cfg contract constructor)
    (hfits : CanSend env cfg contract constructor → ValueFits cfg contract constructor) :
    EtherAccounted env cfg contract constructor log := by
  by_cases hnil : sent log = []
  · exact etherAccounted_of_nothing hnil
  have hsend := hcan hnil
  have hfits := hfits hsend
  rcases hplan with h | @⟨contract', sender, gas, maxFee, hcheck', hnone, -, h⟩ |
    @⟨code, fee, sender, address, gas, gas', maxFee, maxFee', before, after, txHash, receipt,
      hcheck', hnone, -, hactivate, rfl, hbefore, -, -, hafter⟩ |
    ⟨hcheck', hsome, hparse, -, h⟩
  · exact absurd h hnil
  · obtain rfl := Outcome.ok.inj (hfind.symm.trans hnone)
    refine etherAccounted_of_noConstructor hfits (args_eq_nil_of_canSend hsend) h ?_ (by simp)
    exact fun hlen => (dueFee_of_planned hlen.symm).symm
  · obtain rfl := Outcome.ok.inj (hfind.symm.trans hnone)
    obtain rfl := Except.ok.inj (hcheck.symm.trans hcheck')
    have hvalue : cfg.constructorValue = 0 := hfits
    have hdataFee : fee + cfg.constructorValue = fee := by
      rw [hvalue]
      exact BitVec.add_zero fee
    rw [hdataFee] at hafter
    have hsent : sent (before ++
        ⟨.sendTransaction ((createTx sender code).withFee gas maxFee), .ok txHash⟩ ::
        ⟨.getReceipt txHash, .ok receipt⟩ :: after) = (createTx sender code).withFee gas maxFee ::
        [(activationTx sender address fee).withFee gas' maxFee'] := by
      simp [hbefore, hafter, Request.sends]
    refine etherAccounted_of_noConstructor hvalue (args_eq_nil_of_canSend hsend) hsent
      (fun _ => ?_) (fun tx htx => ?_)
    · simp [dueFee, hactivate, wei_activationTx]
    · obtain rfl := List.mem_singleton.1 htx
      exact withFee_value _ gas' maxFee'
  · obtain rfl := Outcome.ok.inj (hfind.symm.trans hsome)
    obtain rfl := Except.ok.inj (hcheck.symm.trans hcheck')
    exact etherAccounted_of_deployer hparse h hfits

/-- A value that is accounted for did not wrap. -/
theorem valueFits_of_etherAccounted (hcheck : env.check cfg.checkConfig = .ok contract)
    (hfind : findConstructor env cfg = .ok constructor) (hest : cfg.estimateGas = false)
    (hall : ∀ log o, Runs (deploy env cfg) log o →
      EtherAccounted env cfg contract constructor log)
    (hcan : CanSend env cfg contract constructor) : ValueFits cfg contract constructor := by
  obtain ⟨_, hlen, log, rfl, hrun⟩ := reaches_deploy hcheck hfind hcan.args hest hcan.pay
  have haccounted := hall log _ hrun
  have hnil : sent log ≠ [] := by
    rw [← List.length_pos_iff, hlen]
    exact planned_pos
  rcases constructor with _ | c
  · by_contra hvalue
    exact hnil (haccounted.rejected rfl (.inl hvalue))
  · refine deployerValue_eq_iff.1 ?_
    rw [← haccounted.total hlen]
    rcases (deploy_plan env cfg hrun).1 with h | ⟨-, hnone, -, -⟩ | ⟨-, hnone, -, -, -⟩ |
      ⟨hcheck', hsome, hparse, -, h⟩
    · exact absurd h hnil
    · cases hfind.symm.trans hnone
    · cases hfind.symm.trans hnone
    · obtain rfl := Option.some.inj (Outcome.ok.inj (hfind.symm.trans hsome))
      obtain rfl := Except.ok.inj (hcheck.symm.trans hcheck')
      rw [h, List.map_singleton, List.sum_singleton, withFee_wei,
        ← (parseConstructorArgs_eq_ok hparse).2.2.2.1]
      rfl

/-- In every run that is no estimate the Ether is accounted for exactly if nothing can be
sent, or the value for the constructor fits. -/
theorem etherAccounted_iff (env : DeployEnv Param Value) (cfg : DeployConfig)
    {contract : ContractCheck} {constructor : Option (Constructor Param)}
    (hcheck : env.check cfg.checkConfig = .ok contract)
    (hfind : findConstructor env cfg = .ok constructor) (hest : cfg.estimateGas = false) :
    (∀ log o, Runs (deploy env cfg) log o →
        EtherAccounted env cfg contract constructor log) ↔
      (CanSend env cfg contract constructor → ValueFits cfg contract constructor) := by
  refine ⟨valueFits_of_etherAccounted hcheck hfind hest, fun hfits log o hrun => ?_⟩
  exact etherAccounted_of_plan hcheck hfind (deploy_plan env cfg hrun).1
    (canSend_of_sent hcheck hfind hrun) hfits

/-- A value for a constructor that the contract does not have is sent all the same. -/
theorem readyEnv_not_accounted : ¬∀ log o, Runs (deploy readyEnv (wasmFileConfig 1)) log o →
    EtherAccounted readyEnv (wasmFileConfig 1) (.ready [0x61] 5)
      (none : Option (Constructor NamedParam)) log := by
  intro hall
  have hfits := valueFits_of_etherAccounted (check_readyEnv _) (findConstructor_readyEnv 1) rfl hall
    ⟨⟨none, rfl⟩, canPay_readyEnv 1⟩
  cases hfits

theorem etherAccounted_iff_readyEnv :
    (∀ log o, Runs (deploy readyEnv (wasmFileConfig 1)) log o →
        EtherAccounted readyEnv (wasmFileConfig 1) (.ready [0x61] 5)
          (none : Option (Constructor NamedParam)) log) ↔
      (CanSend readyEnv (wasmFileConfig 1) (.ready [0x61] 5)
          (none : Option (Constructor NamedParam)) →
        ValueFits (wasmFileConfig 1) (.ready [0x61] 5)
          (none : Option (Constructor NamedParam))) :=
  etherAccounted_iff readyEnv (wasmFileConfig 1) (check_readyEnv _) (findConstructor_readyEnv 1) rfl

end CargoStylus
