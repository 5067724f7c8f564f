import CargoStylus.LoneRun

/-!
# What the commands leave on the chain

Whatever the others do, a deployment that ends well leaves the compiled code at the address of its
receipt, and the code is active (`deploy_deploys`). So for that code no deployment pays a data fee
again (`active_pays_nothing`). `activate_contract` does not look at the status of its receipt, and
so it may end well without an active contract : there is one if the transaction was not reverted
(`activateContract_live_iff`).
-/

namespace CargoStylus

open Rust Rust.Interaction Rust.Interaction.Prog

variable {env : ChainEnv} {Lapses : B256 → Prop} {s t u : ChainState} {tx : TransactionRequest}
  {receipt : TransactionReceipt}

/-! ## What a run has confirmed -/

/-- The transaction went through, with what it costs filled in. -/
def Confirmed (log : RpcLog) (tx : TransactionRequest) (receipt : TransactionReceipt) : Prop :=
  receipt.status = true ∧ ∃ gas maxFee, Receipted log (tx.withFee gas maxFee) receipt

theorem Confirmed.mono {log log' : RpcLog} (h : Confirmed log tx receipt) (hsub : log ⊆ log') :
    Confirmed log' tx receipt := by
  obtain ⟨hstatus, gas, maxFee, hreceipted⟩ := h
  exact ⟨hstatus, gas, maxFee, hreceipted.mono hsub⟩

/-- A value that is returned is in `R`, as the responses were. -/
abbrev Ends {α : Type} (R : RpcLog → α → Prop) (p : Rpc α) : Prop :=
  Yields (fun _ => False) R p

theorem ends_true {α : Type} (p : Rpc α) : Ends (fun _ _ => True) p :=
  wp_iff_runs.2 fun _ _ _ => ⟨fun _ _ => not_false, fun _ _ => trivial⟩

/-- What is still so when something was asked before. -/
theorem ends_bind {α β : Type} {p : Rpc α} {f : α → Rpc β} {R : α → Prop}
    {S : RpcLog → β → Prop} (hS : ∀ log log' b, S log' b → S (log ++ log') b)
    (hp : Ends (fun _ a => R a) p) (hf : ∀ a, R a → Ends S (f a)) : Ends S (p >>= f) := by
  refine hp.bind fun log a ha => wp_mono (hf a ha) fun log' o h => ?_
  exact ⟨h.1, fun b hb => hS log log' b (h.2 b hb)⟩

section

variable {Param Value : Type} {deployEnv : DeployEnv Param Value} {cfg : DeployConfig}

/-- A transaction that ends well has a receipt. -/
theorem runTx_confirms {name : String} {gas : Option U64} {maxFee : U128} :
    Ends (fun log receipt => Confirmed log tx receipt) (runTx name tx gas maxFee) := by
  refine wp_mono runTx_spec fun log o h => ⟨fun _ _ => not_false, fun receipt ho => ?_⟩
  obtain ⟨hstatus, hash, rfl⟩ := h.2 receipt ho
  exact ⟨hstatus, gas, maxFee, hash, List.mem_cons_self,
    List.mem_cons_of_mem _ (List.mem_singleton_self _)⟩

/-- A creation that ends well has a receipt with the address. -/
theorem deployContract_confirms {code : Bytes} {sender : Address} (hest : cfg.estimateGas = false) :
    Ends (fun log address => ∃ receipt, Confirmed log (createTx sender code) receipt ∧
      receipt.contractAddress = some address) (deployContract deployEnv cfg code sender) := by
  refine wp_mono deployContract_spec fun log o h => ⟨fun _ _ => not_false, ?_⟩
  rintro address rfl
  rcases h with ⟨-, h⟩ | ⟨-, gas, maxFee, -, h⟩
  · exact absurd (hest.symm.trans (h (Outcome.isOk_ok address))) Bool.false_ne_true
  · obtain ⟨before, hash, receipt, -, rfl, hstatus, haddress⟩ := h address rfl
    exact ⟨receipt, ⟨hstatus, gas, maxFee, hash, by simp, by simp⟩, haddress⟩

/-- The receipt of an activation. -/
theorem activate_confirms {sender address : Address} {dataFee : U256} :
    Ends (fun log _ => ∃ receipt, Confirmed log (activationTx sender address dataFee) receipt)
      (activate deployEnv cfg sender address dataFee) := by
  refine (ends_true _).bind fun _ gas _ => (ends_true _).bind fun _ gasPrice _ => ?_
  refine (ends_true _).bind fun _ maxFee _ => runTx_confirms.bind fun log receipt h => ?_
  exact yields_done fun _ _ => ⟨receipt, h.mono fun _ hentry => by simp [hentry]⟩

/-- The code was created at an address, and activated there if the check has not found it active. -/
def DeployConfirmed (contract : ContractCheck) (log : RpcLog) : Prop :=
  ∃ sender receipt address, Confirmed log (createTx sender contract.code) receipt ∧
    receipt.contractAddress = some address ∧ ∀ code fee, contract = .ready code fee →
      ∃ dataFee receipt', Confirmed log (activationTx sender address dataFee) receipt'

theorem DeployConfirmed.mono {contract : ContractCheck} {log log' : RpcLog}
    (h : DeployConfirmed contract log) (hsub : log ⊆ log') : DeployConfirmed contract log' := by
  obtain ⟨sender, receipt, address, hcreated, haddress, hactivated⟩ := h
  refine ⟨sender, receipt, address, hcreated.mono hsub, haddress, fun code fee hready => ?_⟩
  obtain ⟨dataFee, receipt', hconfirmed⟩ := hactivated code fee hready
  exact ⟨dataFee, receipt', hconfirmed.mono hsub⟩

theorem deployWithoutConstructor_confirms {contract : ContractCheck} {sender : Address}
    {dataFee : U256} (hest : cfg.estimateGas = false) (hactivate : cfg.noActivate = false) :
    Ends (fun log _ => DeployConfirmed contract log)
      (deployWithoutConstructor deployEnv cfg contract sender dataFee) := by
  refine (deployContract_confirms hest).bind fun log address h => ?_
  obtain ⟨receipt, hcreated, haddress⟩ := h
  rw [hest, if_neg Bool.false_ne_true]
  rcases contract with code | ⟨code, fee⟩
  · refine yields_done fun _ _ => ⟨sender, receipt, address, hcreated.mono (by simp), haddress, ?_⟩
    exact nofun
  · dsimp only
    rw [hactivate, if_neg Bool.false_ne_true]
    refine wp_mono activate_confirms fun log' o h => ⟨h.1, fun a ho => ?_⟩
    obtain ⟨receipt', hactivated⟩ := h.2 a ho
    exact ⟨sender, receipt, address, hcreated.mono (by simp), haddress,
      fun _ _ _ => ⟨dataFee, receipt', hactivated.mono (by simp)⟩⟩

/-- A deployment that ends well has receipts of all it sent. -/
theorem deploy_confirms (hest : cfg.estimateGas = false) (hactivate : cfg.noActivate = false)
    (hnone : findConstructor deployEnv cfg = .ok none) :
    Ends (fun log _ => ∃ contract, deployEnv.check cfg.checkConfig = .ok contract ∧
      DeployConfirmed contract log) (deploy deployEnv cfg) := by
  have hprepend : ∀ (log log' : RpcLog) (_ : Unit), (∃ contract,
      deployEnv.check cfg.checkConfig = .ok contract ∧ DeployConfirmed contract log') →
      ∃ contract, deployEnv.check cfg.checkConfig = .ok contract ∧
        DeployConfirmed contract (log ++ log') := by
    rintro log log' - ⟨contract, hcheck, hconfirmed⟩
    exact ⟨contract, hcheck, hconfirmed.mono (List.subset_append_right log log')⟩
  refine ends_bind hprepend (yields_done fun _ h => h) fun contract hcontract => ?_
  refine ends_bind hprepend (yields_done fun _ h => h) fun constructor hconstructor => ?_
  refine ends_bind hprepend (yields_done fun _ h => h) fun deployer hdeployer => ?_
  refine ends_bind hprepend (ends_true _) fun sender _ => ?_
  refine ends_bind hprepend (ends_true _) fun _ _ => ?_
  obtain rfl := Outcome.ok.inj (hnone.symm.trans hconstructor)
  rcases deployer with _ | deployer
  · refine wp_mono (deployWithoutConstructor_confirms hest hactivate) fun log o h => ⟨h.1, ?_⟩
    exact fun a ho => ⟨contract, Outcome.expect_eq_ok.1 hcontract, h.2 a ho⟩
  · obtain ⟨c, hc, -⟩ := deployerArgs_eq_some hdeployer
    cases hc

end

/-! ## What is left on the chain -/

/-- The code of a contract that was created. -/
theorem TookEffect.code_eq {sender address : Address} {code : Bytes} {gas : Option U64}
    {maxFee : U128}
    (h : TookEffect env Lapses s ((createTx sender code).withFee gas maxFee) receipt)
    (haddress : receipt.contractAddress = some address) (hlen : code.length < 2 ^ 64) :
    s.code address = some code := by
  obtain ⟨init, data, address', hinput, haddress', hcode, hruns⟩ := h.created (withFee_kind _ _ _)
  obtain rfl := Option.some.inj (haddress.symm.trans haddress')
  obtain rfl := Option.some.inj (hinput.symm.trans (withFee_input _ _ _))
  rcases hruns _ _ (executes_contractDeploymentCalldata code hlen) with hdata | ⟨opcode, hdata⟩
  · rw [hcode, Evm.Halt.returned.inj hdata]
  · cases hdata

/-- The code of a contract that was activated is active. -/
theorem TookEffect.active {sender address : Address} {dataFee : U256} {gas : Option U64}
    {maxFee : U128}
    (h : TookEffect env Lapses s ((activationTx sender address dataFee).withFee gas maxFee)
      receipt) : ∃ code, s.code address = some code ∧
      (¬Lapses (env.keccak256 code) → env.keccak256 code ∈ s.active) :=
  h.activated address ⟨withFee_kind _ _ _, withFee_input _ _ _⟩

namespace Chain

variable {p : NodeRpc Unit} {log : NodeLog} {o : Outcome String Unit}

/-! ## What a deployment leaves -/

section

variable {Param Value : Type} {deployEnv : DeployEnv Param Value} {cfg : DeployConfig}

/-- What a deployment that ends well has found and confirmed. -/
theorem deploy_yields (hest : cfg.estimateGas = false) (hactivate : cfg.noActivate = false)
    (hnone : findConstructor deployEnv cfg = .ok none) (env : ChainEnv)
    (h : Runs (deploy env deployEnv cfg) log (.ok ())) : ∃ contract,
      Found env cfg.checkConfig log contract ∧ DeployConfirmed contract (nodeLog log) := by
  have hyields : wp (deploy env deployEnv cfg) fun log o => o = .ok () → ∃ contract,
      Found env cfg.checkConfig log contract ∧ DeployConfirmed contract (nodeLog log) := by
    refine wp_attempt_bind check_yields (fun log result h => ?_) (fun log m _ => nofun)
    refine wp_mono (wp_ofRpc (deploy_confirms hest hactivate hnone)) fun log' o h' ho => ?_
    obtain ⟨contract, rfl, hconfirmed⟩ := h'.2 () ho
    refine ⟨contract, (h.2 contract rfl).mono (List.subset_append_left log log'), ?_⟩
    rw [nodeLog_append]
    exact hconfirmed.mono (List.subset_append_right _ _)
  exact wp_iff_runs.1 hyields log _ h rfl

/-- What was found is the compiled code, and it was said to be active unless there is a fee. -/
theorem Found.cases {contract : ContractCheck} {checkCfg : CheckConfig}
    (h : Found env checkCfg log contract) : env.compile checkCfg = .ok contract.code ∧
      (Said env contract.code true log ∨ ∃ fee, contract = .ready contract.code fee) := by
  cases h with
  | active hcompile hsaid => exact ⟨hcompile, .inl hsaid⟩
  | ready hcompile => exact ⟨hcompile, .inr ⟨_, rfl⟩⟩

/-- A deployment that ends well has created a contract, and leaves the compiled code at the address
of the receipt, and active. -/
theorem deploy_deploys (h : RunsShared env Lapses s t (deploy env deployEnv cfg) log (.ok ()))
    (hs : s.Consistent env Lapses) (hest : cfg.estimateGas = false)
    (hactivate : cfg.noActivate = false) (hnone : findConstructor deployEnv cfg = .ok none)
    (hlen : ∀ code, env.compile cfg.checkConfig = .ok code → code.length < 2 ^ 64) :
    ∃ code sender receipt address, env.compile cfg.checkConfig = .ok code ∧
      Confirmed (nodeLog log) (createTx sender code) receipt ∧
      receipt.contractAddress = some address ∧ Live env Lapses t code address := by
  obtain ⟨contract, hfound, hconfirmed⟩ := deploy_yields hest hactivate hnone env h.1
  obtain ⟨sender, receipt, address, hcreation, haddress, hactivated⟩ := hconfirmed
  obtain ⟨hstatus, gas, maxFee, hreceipted⟩ := hcreation
  obtain ⟨hcompile, hactive⟩ := hfound.cases
  have hcreated : t.code address = some contract.code :=
    (h.tookEffect hs hreceipted hstatus).code_eq haddress (hlen _ hcompile)
  refine ⟨contract.code, sender, receipt, address, hcompile, ⟨hstatus, gas, maxFee, hreceipted⟩,
    haddress, hcreated, ?_⟩
  rcases hactive with hsaid | ⟨fee, hready⟩
  · exact h.active_of_said hsaid
  · obtain ⟨dataFee, receipt', hstatus', gas', maxFee', hreceipted'⟩ := hactivated _ fee hready
    obtain ⟨code, hcode, hactive⟩ := (h.tookEffect hs hreceipted' hstatus').active
    obtain rfl := Option.some.inj (hcreated.symm.trans hcode)
    exact hactive

end

/-- A deployment of the letter to a chain where nothing is. -/
theorem alone_letterEnv : ∃ t txs, txs.length = 2 ∧
    Alone letterEnv (fun _ => False) .empty t (deploy letterEnv readyEnv (wasmFileConfig 0)) txs
      () := by
  have hdecode : letterEnv.decodeArbWasmErrors [0x6f, 0x80, 0x9c, 0x4e] =
      some .programNotActivated :=
    rfl
  have hcheck : Alone letterEnv (fun _ => False) .empty .empty
      (check letterEnv (wasmFileConfig 0).checkConfig) [] _ :=
    alone_check_inactive (by decide) rfl hdecode (by decide) (Set.notMem_empty _) 100
  let found := ContractCheck.ready [0x61] (bumpedFee 100 ⟨20⟩)
  have hpay : CanPay (readyEnv.withCheck (.ok found)) (wasmFileConfig 0) :=
    ⟨⟨0, filled 20 1, rfl⟩, 0, 0, rfl⟩
  obtain ⟨gas, maxFee, hcreate⟩ := @alone_deployContract letterEnv (fun _ => False) .empty _ _ _ _
    (filled 32 1) [0x61] (filled 20 1) (filled 20 9) rfl hpay (by decide) rfl rfl rfl
  let created := (ChainState.empty.take (filled 32 1) ((createTx (filled 20 1) [0x61]).withFee gas
    maxFee)).create (filled 20 9) [0x61]
  let mined := created.withReceipt (filled 32 1) (deployedReceipt (filled 20 9))
  have htaken : mined.taken (filled 32 2) = none := rfl
  have hnone : mined.receipts (filled 32 2) = none := rfl
  have hcode : mined.code (filled 20 9) = some [0x61] := rfl
  obtain ⟨gas', maxFee', hactivate⟩ := @alone_activate letterEnv (fun _ => False) mined _ _ _ _
    (filled 32 2) [0x61] (filled 20 1) (filled 20 9) (found.suggestFee + 0) hpay htaken hnone hcode
  have hdeploy := @alone_deploy letterEnv (fun _ => False) _ _ _ _ _ _ found 0 (filled 20 1) _ rfl
    rfl rfl rfl (hcreate.ofRpc_bind hactivate)
  exact ⟨_, _, rfl, hcheck.attempt.bind hdeploy⟩

theorem deploy_deploys_letterEnv : ∃ t log code sender receipt address,
    letterEnv.compile (wasmFileConfig 0).checkConfig = .ok code ∧
      Confirmed (nodeLog log) (createTx sender code) receipt ∧
      receipt.contractAddress = some address ∧ Live letterEnv (fun _ => False) t code address := by
  obtain ⟨t, txs, -, halone⟩ := alone_letterEnv
  obtain ⟨log, -, hruns⟩ := halone.runsShared
  have hlen : ∀ code, letterEnv.compile (wasmFileConfig 0).checkConfig = .ok code →
      code.length < 2 ^ 64 := by
    rintro _ ⟨⟩
    decide
  exact ⟨t, log, deploy_deploys hruns (ChainState.consistent_empty _ _) rfl rfl rfl hlen⟩

section

variable {Param Value : Type} {deployEnv : DeployEnv Param Value} {cfg : DeployConfig}

/-- Where a code is active and does not lapse, a deployment of it pays no data fee, and nothing is
sent to ArbWasm. -/
theorem active_pays_nothing {env' : ChainEnv} {code : Bytes}
    (h : RunsShared env Lapses s t (deploy env' deployEnv cfg) log o) (hsame : SameChain env env')
    (hcompile : env'.compile cfg.checkConfig = .ok code)
    (hactive : env.keccak256 code ∈ s.active) (hstays : ¬Lapses (env.keccak256 code)) :
    ∀ tx ∈ sentBy log, Pays cfg (.active code) tx := by
  intro tx htx
  obtain ⟨contract, hfound, hpays⟩ := wp_iff_runs.1 deploy_sends_found log o h.1 tx htx
  cases hfound with
  | active hcompile' =>
    obtain rfl := Except.ok.inj (hcompile.symm.trans hcompile')
    exact hpays
  | ready hcompile' hsaid =>
    obtain rfl := Except.ok.inj (hcompile.symm.trans hcompile')
    exact absurd hsaid (h.not_said hsame hactive hstays)

end

/-- A chain on which the letter is active. -/
def letterChain : ChainState :=
  { ChainState.empty with active := {letterEnv.keccak256 [0x61]} }

theorem alone_letterChain : ∃ t txs, txs.length = 1 ∧ Alone letterEnv (fun _ => False) letterChain t
    (deploy letterEnv readyEnv (wasmFileConfig 0)) txs () := by
  have hcheck : Alone letterEnv (fun _ => False) letterChain letterChain
      (check letterEnv (wasmFileConfig 0).checkConfig) [] _ :=
    alone_check_active (by decide) rfl (Set.mem_singleton _)
  have hpay : CanPay (readyEnv.withCheck (.ok (.active [0x61]))) (wasmFileConfig 0) :=
    ⟨⟨0, filled 20 1, rfl⟩, 0, 0, rfl⟩
  obtain ⟨gas, maxFee, hcreate⟩ := @alone_deployContract letterEnv (fun _ => False) letterChain
    _ _ _ _ (filled 32 1) [0x61] (filled 20 1) (filled 20 9) rfl hpay (by decide) rfl rfl rfl
  have hdeploy := @alone_deploy letterEnv (fun _ => False) _ _ _ _ _ _ (.active [0x61]) 0
    (filled 20 1) _ rfl rfl rfl rfl (hcreate.ofRpc_bind (alone_lift rfl))
  exact ⟨_, _, rfl, hcheck.attempt.bind hdeploy⟩

theorem active_pays_nothing_letterChain : ∃ log, (sentBy log).length = 1 ∧
    ∀ tx ∈ sentBy log, Pays (wasmFileConfig 0) (.active [0x61]) tx := by
  obtain ⟨t, txs, hlen, halone⟩ := alone_letterChain
  obtain ⟨log, rfl, hruns⟩ := halone.runsShared
  exact ⟨log, hlen, active_pays_nothing hruns ⟨rfl, rfl⟩ rfl (Set.mem_singleton _) not_false⟩

/-! ## What an activation leaves -/

/-- The request is for a receipt. -/
def IsReceipt : Request → Prop
  | .getReceipt _ => True
  | _ => False

/-- Each receipt is of an activation of the address that was sent. -/
def Receives (address : Address) (log : RpcLog) : Prop :=
  ∀ hash receipt, ⟨.getReceipt hash, .ok receipt⟩ ∈ log → ∃ sender dataFee,
    ⟨.sendTransaction (activationTx sender address dataFee), .ok hash⟩ ∈ log

section

variable {cfg : ActivateConfig} {aenv : ActivateEnv}

theorem receives_of_avoids {log : RpcLog} {address : Address}
    (h : ∀ entry ∈ log, ¬IsReceipt entry.1) : Receives address log :=
  fun _ _ hmem => absurd trivial (h _ hmem)

theorem receives_bind {α β : Type} {p : Rpc α} {f : α → Rpc β} {address : Address}
    (hp : Avoids IsReceipt p) (hf : ∀ a, wp (f a) fun log _ => Receives address log) :
    wp (p >>= f) fun log _ => Receives address log := by
  refine wp_bind_of hp (fun log a hlog => wp_mono (hf a) fun log' o h => ?_)
    (fun log e hlog => receives_of_avoids hlog) (fun log m hlog => receives_of_avoids hlog)
  intro hash receipt hmem
  rcases List.mem_append.1 hmem with hmem | hmem
  · exact absurd trivial (hlog _ hmem)
  · obtain ⟨sender, dataFee, hsent⟩ := h hash receipt hmem
    exact ⟨sender, dataFee, List.mem_append_right _ hsent⟩

theorem activateContract_receives :
    wp (activateContract aenv cfg) fun log _ => Receives cfg.address log := by
  have hconnect : Avoids IsReceipt
      (connectWallet aenv.alloyWallet cfg.commonCfg.endpoint cfg.auth) := by
    refine (avoids_ask not_false).bind fun _ => (avoids_ask not_false).bind fun chainId => ?_
    exact (avoids_done _).bind fun sender => (avoids_ask not_false).bind fun _ => avoids_done _
  have hprint : ∀ tx, Avoids IsReceipt (printEstimate cfg.estimateGas tx) := by
    intro tx
    unfold printEstimate
    split_ifs
    · exact (avoids_ask not_false).bind fun _ => (avoids_ask not_false).bind fun _ => avoids_done _
    · exact avoids_done _
  refine receives_bind hconnect fun sender => receives_bind (avoids_ask not_false) fun code => ?_
  refine receives_bind ((avoids_askWith not_false _).bind fun _ => avoids_done _)
    fun dataFee => receives_bind (hprint _) fun _ => ?_
  have hsend : ∀ response : Except String B256, Receives cfg.address
      [⟨.sendTransaction (activationTx sender cfg.address dataFee), response⟩] :=
    fun response => receives_of_avoids (List.forall_mem_singleton.2 not_false)
  rintro (e | hash)
  · exact hsend (.error e)
  · have hreceived : ∀ response : Except String TransactionReceipt, Receives cfg.address
        [⟨.sendTransaction (activationTx sender cfg.address dataFee), .ok hash⟩,
          ⟨.getReceipt hash, response⟩] := by
      intro response hash' receipt hmem
      rcases List.mem_cons.1 hmem with hmem | hmem
      · cases hmem
      · cases List.mem_singleton.1 hmem
        exact ⟨sender, dataFee, List.mem_cons_self⟩
    rintro (e | receipt)
    · exact hreceived (.error e)
    · exact hreceived (.ok receipt)

/-- In some run alone on the chain there is this receipt. -/
def EndsWithReceipt (env : ChainEnv) (Lapses : B256 → Prop) (s t : ChainState)
    (receipt : TransactionReceipt) (p : Rpc Unit) : Prop :=
  ∃ log hash, ⟨.getReceipt hash, .ok receipt⟩ ∈ nodeLog log ∧ Runs (ofRpc p) log (.ok ()) ∧
    (chainService env Lapses).History s log t

theorem EndsWithReceipt.after {α : Type} {p : Rpc α} {f : α → Rpc Unit} {a : α}
    {txs : List TransactionRequest} (h : Alone env Lapses s t (ofRpc p) txs a)
    (hf : EndsWithReceipt env Lapses t u receipt (f a)) :
    EndsWithReceipt env Lapses s u receipt (p >>= f) := by
  obtain ⟨log, -, hrun, hhistory⟩ := h
  obtain ⟨log', hash, hmem, hrun', hhistory'⟩ := hf
  refine ⟨log ++ log', hash, ?_, ?_, hhistory.append hhistory'⟩
  · rw [nodeLog_append]
    exact List.mem_append_right _ hmem
  · rw [ofRpc, embed_bind]
    exact hrun.bind hrun'

/-- An activation that is taken as `hash` and reverted ends well. -/
theorem endsWithReceipt_activateContract {chainId : U64} {sender : Address} {hash : B256}
    (hwallet : aenv.alloyWallet cfg.auth chainId = .ok sender) (htaken : s.taken hash = none)
    (hnone : s.receipts hash = none) (hstatus : receipt.status = false) : ∃ tx,
    EndsWithReceipt env Lapses s ((s.take hash tx).withReceipt hash receipt) receipt
      (activateContract aenv cfg) := by
  let tx := activationTx sender cfg.address (bumpedFee 0 cfg.dataFee)
  have heffect : ChainEffect env (s.take hash tx) tx receipt (s.take hash tx) := .reverted hstatus
  have hsent : EndsWithReceipt env Lapses s ((s.take hash tx).withReceipt hash receipt) receipt (do
      let txHash ← ask (Request.sendTransaction tx)
      let _ ← ask (Request.getReceipt txHash)
      return ()) := by
    refine ⟨_, hash, List.mem_cons_of_mem _ (List.mem_singleton_self _), ?_,
      history_transact htaken hnone heffect⟩
    rw [ofRpc, embed_bind]
    refine (runs_question (.sendTransaction tx) hash).bind ?_
    rw [embed_bind]
    exact (runs_question (.getReceipt hash) receipt).bind (.done _)
  refine ⟨tx, .after (alone_connectWallet hwallet) ?_⟩
  refine .after (alone_ask (r := .getCodeAt _) not_false []) ?_
  refine .after (alone_checkActivate (decodeDataFee_quoteResponse 0)) ?_
  exact .after alone_printEstimate hsent

/-- A run of `activate_contract` with a receipt leaves an active contract, whatever the chain is and
whoever uses it, exactly if the receipt is not of a reverted transaction. -/
theorem activateContract_live_iff (env : ChainEnv) (Lapses : B256 → Prop) (cfg : ActivateConfig)
    {chainId : U64} {sender : Address} (hwallet : env.alloyWallet cfg.auth chainId = .ok sender)
    (receipt : TransactionReceipt) : receipt.status = true ↔
      ∀ s t log hash, s.Consistent env Lapses →
        RunsShared env Lapses s t (ofRpc (activateContract env.toActivateEnv cfg)) log (.ok ()) →
        ⟨.getReceipt hash, .ok receipt⟩ ∈ nodeLog log →
          ∃ code, Live env Lapses t code cfg.address := by
  refine ⟨fun hstatus s t log hash hs hruns hreceipt => ?_, fun hall => ?_⟩
  · obtain ⟨sender, dataFee, hsent⟩ :=
      wp_iff_runs.1 (wp_ofRpc activateContract_receives) log _ hruns.1 hash receipt hreceipt
    obtain ⟨code, hcode, hactive⟩ := (hruns.tookEffect hs ⟨hash, hsent, hreceipt⟩ hstatus).activated
      cfg.address ⟨rfl, rfl⟩
    exact ⟨code, hcode, hactive⟩
  · by_contra hstatus
    have hreverted := Bool.eq_false_of_not_eq_true hstatus
    obtain ⟨tx, log, hash, hreceipt, hrun, hhistory⟩ := @endsWithReceipt_activateContract env Lapses
      .empty receipt cfg env.toActivateEnv chainId sender (filled 32 0) hwallet rfl rfl hreverted
    obtain ⟨code, hcode, -⟩ := hall _ _ log hash (ChainState.consistent_empty env Lapses)
      ⟨hrun, [log], log, List.mem_singleton_self log, interleaves_singleton log, hhistory⟩ hreceipt
    cases hcode

end

/-- The receipt of a transaction that was reverted. -/
def revertedReceipt : TransactionReceipt where
  status := false
  contractAddress := none
  logs := []

theorem activateContract_live_iff_letterEnv : revertedReceipt.status = true ↔
    ∀ s t log hash, s.Consistent letterEnv (fun _ => False) →
      RunsShared letterEnv (fun _ => False) s t
        (ofRpc (activateContract letterEnv.toActivateEnv estimateConfig)) log (.ok ()) →
      ⟨.getReceipt hash, .ok revertedReceipt⟩ ∈ nodeLog log →
        ∃ code, Live letterEnv (fun _ => False) t code estimateConfig.address :=
  @activateContract_live_iff letterEnv (fun _ => False) estimateConfig 0 (filled 20 1) rfl
    revertedReceipt

end Chain

end CargoStylus
