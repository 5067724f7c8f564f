import CargoStylus.NodeCall

/-!
# Checking on chain

`check` asks ArbWasm for the version that the code was activated with. A version means that the
contract is active, and an error that says it is not, or not any more, that it is to be activated.
Then the node is asked what the activation of this code costs.

A deployment starts with the check. So it pays a data fee only if ArbWasm has said that the code
is not active, and then the fee that the node has quoted for the very code, with the bump
(`Chain.deploy_pays`). For everything else that is known of `deploy` and its check, this is a run
of them with the answer of ArbWasm (`Chain.commandRuns_of_runs`).
-/

namespace CargoStylus

open Rust Rust.Interaction Rust.Interaction.Prog

/-- The errors of the `ArbWasm` precompile. -/
inductive ArbWasmErrors where
  | programNotWasm
  | programNotActivated
  | programNeedsUpgrade
  | programExpired
  | programUpToDate
  | programKeepaliveTooSoon
  | programInsufficientValue
deriving DecidableEq

/-- The errors that say that a contract is not active. -/
def ArbWasmErrors.inactive : List ArbWasmErrors :=
  [programNotActivated, programNeedsUpgrade, programExpired]

/-- What `check` reads besides the responses of the node. -/
structure ChainEnv extends ActivateEnv where
  /-- The code of the contract, built and compressed. -/
  compile : CheckConfig → Except String Bytes
  keccak256 : Bytes → B256
  /-- `as_decoded_interface_error::<ArbWasmErrors>` -/
  decodeArbWasmErrors : Bytes → Option ArbWasmErrors

/-- The selector of `codehashVersion(bytes32)`. -/
def codehashVersionSelector : Bytes :=
  [0xd7, 0x0c, 0x0c, 0xa7]

/-- The call that asks `ArbWasm` for the version of a code. -/
def codehashVersionTx (codehash : B256) : TransactionRequest where
  kind := some (.call arbWasmAddress)
  input := some (codehashVersionSelector ++ codehash.1)

namespace Chain

section

variable (env : ChainEnv)

/-- Checks whether a contract has already been activated with the most recent version of
Stylus. -/
def contractExists (codehash : B256) : NodeRpc Bool := do
  let result ← askWith (NodeRequest.call (codehashVersionTx codehash))
    (callResult env.decodeArbWasmErrors decodeWord)
  match result with
  | .ok _version => return true
  | .error err =>
    if err ∈ ArbWasmErrors.inactive then return false
    else done (.err "unexpected ArbWasm error")

/-- The check, which asks ArbWasm whether the code is active. -/
def check (cfg : CheckConfig) : NodeRpc ContractCheck :=
  checkWith ofRpc env.toActivateEnv env.compile
    (fun code => contractExists env (env.keccak256 code)) cfg

/-- `deploy`, with its check. -/
def deploy {Param Value : Type} (deployEnv : DeployEnv Param Value) (cfg : DeployConfig) :
    NodeRpc Unit := do
  let result ← (check env cfg.checkConfig).attempt
  ofRpc (CargoStylus.deploy (deployEnv.withCheck result) cfg)

end

variable {env : ChainEnv} {cfg : CheckConfig} {code : Bytes} {log log' : NodeLog}

/-! ## What the check finds -/

/-- What ArbWasm says in a response : it has a version for the code, or the code is not active. -/
def Answers (env : ChainEnv) (response : Except String (Except ErrorPayload Bytes)) : Bool → Prop
  | true => ∃ returned, response = .ok (.ok returned)
  | false => ∃ err ∈ ArbWasmErrors.inactive, Reverts env.decodeArbWasmErrors err response

/-- ArbWasm has said whether the code is active. -/
def Said (env : ChainEnv) (code : Bytes) (active : Bool) (log : NodeLog) : Prop :=
  ∃ response, Answers env response active ∧
    (⟨.call (codehashVersionTx (env.keccak256 code)), response⟩ : NodeEntry) ∈ log

/-- The node has quoted the data fee for the code. -/
def Quoted (code : Bytes) (dataFee : U256) (log : NodeLog) : Prop :=
  ∃ tx program returned, decodeDataFee returned = .ok dataFee ∧
    (⟨.node (.callWithCode tx program code), .ok returned⟩ : NodeEntry) ∈ log

/-- What the check returns, by what was said of the code. -/
inductive Found (env : ChainEnv) (cfg : CheckConfig) (log : NodeLog) : ContractCheck → Prop
  | active {code : Bytes} (hcompile : env.compile cfg = .ok code) (hsaid : Said env code true log) :
      Found env cfg log (.active code)
  | ready {code : Bytes} {dataFee : U256} (hcompile : env.compile cfg = .ok code)
      (hsaid : Said env code false log) (hquoted : Quoted code dataFee log) :
      Found env cfg log (.ready code (bumpedFee dataFee cfg.dataFee))

theorem Said.mono {active : Bool} (h : Said env code active log)
    (hsub : ∀ entry ∈ log, entry ∈ log') : Said env code active log' := by
  obtain ⟨response, hanswers, hmem⟩ := h
  exact ⟨response, hanswers, hsub _ hmem⟩

theorem Quoted.mono {dataFee : U256} (h : Quoted code dataFee log)
    (hsub : ∀ entry ∈ log, entry ∈ log') : Quoted code dataFee log' := by
  obtain ⟨tx, program, returned, hdecode, hmem⟩ := h
  exact ⟨tx, program, returned, hdecode, hsub _ hmem⟩

theorem Found.mono {contract : ContractCheck} (h : Found env cfg log contract)
    (hsub : ∀ entry ∈ log, entry ∈ log') : Found env cfg log' contract := by
  cases h with
  | active hcompile hsaid => exact .active hcompile (hsaid.mono hsub)
  | ready hcompile hsaid hquoted => exact .ready hcompile (hsaid.mono hsub) (hquoted.mono hsub)

/-- A contract exists if ArbWasm has a version for its code. -/
theorem contractExists_yields : Asks (fun log active => Said env code active log)
    (contractExists env (env.keccak256 code)) := by
  refine (yields_askWith not_false _).bind fun log result h => ?_
  obtain ⟨response, rfl, hresult⟩ := h
  have hmem : ∀ log', (⟨.call (codehashVersionTx (env.keccak256 code)), response⟩ : NodeEntry) ∈
      [(⟨.call (codehashVersionTx (env.keccak256 code)), response⟩ : NodeEntry)] ++ log' :=
    fun log' => List.mem_cons_self
  obtain ⟨version, returned, rfl, hresponse, -⟩ | ⟨err, rfl, hreverts⟩ := callResult_eq_ok hresult
  · refine yields_done fun active hactive => ?_
    obtain rfl := Outcome.ok.inj hactive
    exact ⟨response, ⟨returned, hresponse⟩, hmem []⟩
  · dsimp only
    split_ifs with herr
    · refine yields_done fun active hactive => ?_
      obtain rfl := Outcome.ok.inj hactive
      exact ⟨response, ⟨err, herr, hreverts⟩, hmem []⟩
    · exact yields_done nofun

/-- The fee is the one quoted for the code, with the bump. -/
theorem checkActivate_yields {env : ActivateEnv} {address : Address} {opts : DataFeeOpts} :
    Asks (fun log fee => ∃ dataFee, Quoted code dataFee log ∧ fee = bumpedFee dataFee opts)
      (ofRpc (checkActivate env code address opts)) := by
  let call := Request.callWithCode
    (activationTx env.randomAddress address (BitVec.ofNat 256 (10 ^ 18))) address code
  have hquoted : wp (checkActivate env code address opts) fun log o =>
      ∃ x, log = [(⟨call, x⟩ : Σ r : Request, Except String r.Response)] ∧ ∀ fee, o = .ok fee →
        ∃ returned dataFee, x = .ok returned ∧ decodeDataFee returned = .ok dataFee ∧
          fee = bumpedFee dataFee opts := by
    refine wp_bind_of (P := fun log o => ∃ x, log = [⟨call, x⟩] ∧
      .mapErr activationError (.ofExcept (x >>= decodeDataFee)) = o) (fun x => ⟨x, rfl, rfl⟩)
      ?_ ?_ ?_
    · rintro log dataFee ⟨x, rfl, hx⟩
      have hdecode := Outcome.ofExcept_eq_ok.1 (Outcome.mapErr_eq_ok.1 hx)
      refine ⟨x, rfl, fun fee hfee => ?_⟩
      rcases x with e | returned
      · cases hdecode
      · exact ⟨returned, dataFee, rfl, hdecode, (Outcome.ok.inj hfee).symm⟩
    · rintro log e ⟨x, rfl, -⟩
      exact ⟨x, rfl, by rintro _ ⟨⟩⟩
    · rintro log m ⟨x, rfl, -⟩
      exact ⟨x, rfl, by rintro _ ⟨⟩⟩
  have hquiet : Quiet (checkActivate env code address opts) :=
    (avoids_askWith nofun _).bind fun dataFee => avoids_done _
  have hasks : Avoids NodeRequest.IsSend (ofRpc (checkActivate env code address opts)) :=
    avoids_embed hquiet
  refine wp_mono (wp_and hasks (wp_ofRpc hquoted)) fun log o h => ?_
  obtain ⟨hasks, x, hlog, hfee⟩ := h
  refine ⟨hasks, fun fee ho => ?_⟩
  obtain ⟨returned, dataFee, rfl, hdecode, rfl⟩ := hfee fee ho
  have hmem : (⟨call, .ok returned⟩ : Σ r : Request, Except String r.Response) ∈ nodeLog log :=
    hlog ▸ List.mem_singleton_self _
  exact ⟨dataFee, ⟨_, _, returned, hdecode, mem_of_mem_nodeLog hmem⟩, rfl⟩

/-- The check sends nothing, and what it returns is what was said of the code. -/
theorem check_yields {cfg : CheckConfig} : Asks (Found env cfg) (check env cfg) := by
  unfold check checkWith
  split_ifs
  · exact yields_done (by rintro _ ⟨⟩)
  refine (yields_done (R := fun _ code => env.compile cfg = .ok code) fun code hcode =>
    Outcome.ofExcept_eq_ok.1 hcode).bind fun log code hcode => ?_
  have hconnect : ¬(NodeRequest.node (.connect cfg.commonCfg.endpoint)).IsSend := nofun
  refine (yields_question hconnect).bind fun log' _ _ => ?_
  refine contractExists_yields.bind fun said active hsaid => ?_
  rcases active with _ | _
  · refine checkActivate_yields.bind fun quoted fee hfee => yields_done fun contract ho => ?_
    obtain ⟨dataFee, hquoted, rfl⟩ := hfee
    obtain rfl := Outcome.ok.inj ho
    exact .ready hcode (hsaid.mono (by grind)) (hquoted.mono (by grind))
  · refine yields_done fun contract ho => ?_
    obtain rfl := Outcome.ok.inj ho
    exact .active hcode (hsaid.mono (by grind))

/-! ## A run that pays -/

theorem runs_contractExists_inactive {codehash : B256} {data : Bytes} {err : ArbWasmErrors}
    (hdecode : env.decodeArbWasmErrors data = some err) (herr : err ∈ ArbWasmErrors.inactive) :
    Runs (contractExists env codehash)
      [⟨.call (codehashVersionTx codehash), .ok (.error ⟨some data, ""⟩)⟩] (.ok false) := by
  have hresult : callResult env.decodeArbWasmErrors decodeWord (.ok (.error ⟨some data, ""⟩)) =
      .ok (.error err) := by
    rw [callResult, Option.bind_some, hdecode]
  have hrun : Runs (contractExists env codehash)
      ([⟨.call (codehashVersionTx codehash), .ok (.error ⟨some data, ""⟩)⟩] ++ []) (.ok false) := by
    refine Runs.bind (.askWith hresult) ?_
    dsimp only
    rw [if_pos herr]
    exact .done _
  exact hrun

/-- A code that ArbWasm says is not active is checked with any fee that the node quotes. -/
theorem runs_check_inactive {cfg : CheckConfig} {data : Bytes} {err : ArbWasmErrors}
    (hendpoint : cfg.commonCfg.endpoint ≠ oldTestnet) (hcompile : env.compile cfg = .ok code)
    (hdecode : env.decodeArbWasmErrors data = some err) (herr : err ∈ ArbWasmErrors.inactive)
    (dataFee : U256) :
    ∃ log, Runs (check env cfg) log (.ok (.ready code (bumpedFee dataFee cfg.dataFee))) := by
  obtain ⟨quoted, -, -, hquoted⟩ := runs_checkActivate env.toActivateEnv code
    (cfg.contractAddress.getD env.randomAddress) cfg.dataFee (decodeDataFee_quoteResponse dataFee)
  obtain ⟨quoted', -, hquoted'⟩ := runs_ofRpc hquoted
  have hasked := @runs_contractExists_inactive env (env.keccak256 code) data err hdecode herr
  unfold check checkWith
  rw [if_neg hendpoint, hcompile]
  exact ⟨_, .call (.ok ()) (hasked.bind (hquoted'.bind (.done _)))⟩

theorem length_keccakA : ([0x3a, 0xc2, 0x25, 0x16, 0x8d, 0xf5, 0x42, 0x12, 0xa2, 0x5c, 0x1c, 0x01,
    0xfd, 0x35, 0xbe, 0xbf, 0xea, 0x40, 0x8f, 0xda, 0xc2, 0xe3, 0x1d, 0xdd, 0x6f, 0x80, 0xa4, 0xbb,
    0xf9, 0xa5, 0xf1, 0xcb] : Bytes).length = 32 :=
  rfl

/-- A project whose code is the byte `a`, and what ArbWasm reverts with if it is not active. -/
def letterEnv : ChainEnv where
  toActivateEnv := keystoreEnv
  compile _ := .ok [0x61]
  keccak256 _ := ⟨_, length_keccakA⟩
  decodeArbWasmErrors data :=
    if data = [0x6f, 0x80, 0x9c, 0x4e] then some .programNotActivated else none

/-- A run that sends the creation and the activation. -/
theorem runs_letterEnv : ∃ log, (sentBy log).length = 2 ∧
    Runs (deploy letterEnv readyEnv (wasmFileConfig 0)) log (.ok ()) := by
  have hdecode : letterEnv.decodeArbWasmErrors [0x6f, 0x80, 0x9c, 0x4e] =
      some .programNotActivated :=
    rfl
  obtain ⟨checked, hcheck⟩ := @runs_check_inactive letterEnv [0x61]
    (wasmFileConfig 0).checkConfig _ _ (by decide) rfl hdecode (by decide) 100
  have hquiet := sentBy_eq_nil (wp_iff_runs.1 check_yields checked _ hcheck).1
  let found := ContractCheck.ready [0x61] (bumpedFee 100 ⟨20⟩)
  obtain ⟨txs, hlen, log, rfl, hdeploy⟩ := @reaches_deploy _ _ (readyEnv.withCheck (.ok found))
    (wasmFileConfig 0) found none rfl rfl ⟨none, rfl⟩ rfl ⟨⟨0, filled 20 1, rfl⟩, 0, 0, rfl⟩
  obtain ⟨log', rfl, hdeploy'⟩ := runs_ofRpc hdeploy
  refine ⟨checked ++ log', ?_, hcheck.attempt.bind hdeploy'⟩
  rw [sentBy_append, hquiet, List.nil_append]
  exact hlen

/-! ## What a deployment pays -/

section

variable {Param Value : Type} {deployEnv : DeployEnv Param Value} {cfg : DeployConfig}

/-- What a transaction is for, and its value. -/
inductive Pays (cfg : DeployConfig) : ContractCheck → TransactionRequest → Prop
  | create {contract : ContractCheck} {tx : TransactionRequest} (hkind : tx.kind = some .create)
      (hvalue : tx.value = none)
      (hinput : tx.input = some (contractDeploymentCalldata contract.code)) : Pays cfg contract tx
  | activate {code : Bytes} {fee : U256} {tx : TransactionRequest}
      (hkind : tx.kind = some (.call arbWasmAddress))
      (hvalue : tx.value = some (fee + cfg.constructorValue)) : Pays cfg (.ready code fee) tx
  | callDeployer {contract : ContractCheck} {tx : TransactionRequest}
      (hkind : tx.kind = some (.call cfg.deployerAddress))
      (hvalue : tx.value = some (contract.suggestFee + cfg.constructorValue)) :
      Pays cfg contract tx

theorem pays_createTx {contract : ContractCheck} {sender : Address} {gas : Option U64}
    {maxFee : U128} : Pays cfg contract ((createTx sender contract.code).withFee gas maxFee) :=
  .create (withFee_kind _ gas maxFee) (withFee_value _ gas maxFee) (withFee_input _ gas maxFee)

/-- Each transaction of a plan pays what was found. -/
theorem pays_of_plan {log : RpcLog} (hplan : DeployPlan deployEnv cfg log)
    {tx : TransactionRequest} (htx : tx ∈ sent log) :
    ∃ contract, deployEnv.check cfg.checkConfig = .ok contract ∧ Pays cfg contract tx := by
  rcases hplan with h | ⟨hcheck, -, -, h⟩ |
    @⟨code, fee, sender, address, gas, gas', maxFee, maxFee', before, after, txHash, receipt,
      hcheck, -, -, -, rfl, hbefore, -, -, hafter⟩ |
    @⟨contract, constructor, deployer, sender, gas, maxFee, hcheck, -, hparse, -, h⟩
  · rw [h] at htx
    cases htx
  · rw [h] at htx
    obtain rfl := List.mem_singleton.1 htx
    exact ⟨_, hcheck, pays_createTx⟩
  · refine ⟨_, hcheck, ?_⟩
    rw [sent_append, hbefore, sent_cons, sent_cons, hafter] at htx
    rcases List.mem_cons.1 htx with rfl | htx
    · exact @pays_createTx cfg (.ready code fee) _ _ _
    · obtain rfl := List.mem_singleton.1 htx
      exact .activate (withFee_kind _ gas' maxFee') (withFee_value _ gas' maxFee')
  · rw [h] at htx
    obtain rfl := List.mem_singleton.1 htx
    obtain ⟨-, -, haddress, hvalue, -⟩ := parseConstructorArgs_eq_ok hparse
    refine ⟨contract, hcheck, .callDeployer ?_ ?_⟩
    · rw [withFee_kind, ← haddress]
      rfl
    · rw [withFee_value, ← hvalue]
      rfl

/-- A deployment sends what the check has found. -/
theorem deploy_sends_found : wp (deploy env deployEnv cfg) fun log _ => ∀ tx ∈ sentBy log,
    ∃ contract, Found env cfg.checkConfig log contract ∧ Pays cfg contract tx := by
  refine wp_attempt_bind check_yields (fun log result h => ?_) (fun log m h => ?_)
  · refine wp_mono (wp_ofRpc deploy_sends) fun log' o hplan tx htx => ?_
    rw [sentBy_append, sentBy_eq_nil h.1, List.nil_append] at htx
    obtain ⟨contract, rfl, hpays⟩ := pays_of_plan hplan htx
    exact ⟨contract, (h.2 contract rfl).mono fun entry => List.mem_append_left log', hpays⟩
  · rw [sentBy_eq_nil h.1]
    exact nofun

/-- Whatever is sent pays for the contract that the check has found in this run : a fee only if
ArbWasm says that the code is not active, and then the one quoted for the code. -/
theorem deploy_pays (env : ChainEnv) (deployEnv : DeployEnv Param Value) (cfg : DeployConfig)
    {log : NodeLog} {o : Outcome String Unit} (h : Runs (deploy env deployEnv cfg) log o)
    {tx : TransactionRequest} (htx : tx ∈ sentBy log) :
    ∃ contract, Found env cfg.checkConfig log contract ∧ Pays cfg contract tx :=
  wp_iff_runs.1 deploy_sends_found log o h tx htx

end

/-- Each of the two transactions is one that the check accounts for. -/
theorem deploy_pays_letterEnv : ∃ log : NodeLog, (sentBy log).length = 2 ∧ ∀ tx ∈ sentBy log,
    ∃ contract, Found letterEnv (wasmFileConfig 0).checkConfig log contract ∧
      Pays (wasmFileConfig 0) contract tx := by
  obtain ⟨log, hlen, hrun⟩ := runs_letterEnv
  exact ⟨log, hlen, fun tx => deploy_pays letterEnv readyEnv (wasmFileConfig 0) hrun⟩

/-! ## The runs of a deployment -/

theorem noPanic_contractExists {codehash : B256} : NoPanic (contractExists env codehash) := by
  refine (noPanic_askWith not_isPanic_callResult).bind fun result => ?_
  rcases result with err | version
  · dsimp only
    split_ifs
    · exact noPanic_done (Outcome.not_isPanic_ok false)
    · exact noPanic_done (Outcome.not_isPanic_err _)
  · exact noPanic_done (Outcome.not_isPanic_ok true)

theorem nodeLog_contractExists {codehash : B256} :
    wp (contractExists env codehash) fun log _ => nodeLog log = [] := by
  refine wp_bind_of (P := fun log _ => nodeLog log = []) (fun response => rfl)
    (fun log result h => ?_) (fun log e h => h) (fun log m h => h)
  have hlog : nodeLog (log ++ []) = [] := by rwa [List.append_nil]
  rcases result with err | version
  · dsimp only
    split_ifs <;> exact hlog
  · exact hlog

/-- The check, with what is asked of ArbWasm answered before. -/
def settled (env : ChainEnv) (compiled : Except String Bytes) (answer : Except String Bool) :
    CheckEnv where
  toActivateEnv := env.toActivateEnv
  compile _ := compiled
  contractExists _ := answer

/-- The code is the one that is compiled, and the answer what ArbWasm says of it. -/
def SettledBy (env : ChainEnv) (cfg : CheckConfig) (log : NodeLog)
    (compiled : Except String Bytes) (answer : Except String Bool) : Prop :=
  ∀ code, compiled = .ok code →
    env.compile cfg = .ok code ∧ ∀ active, answer = .ok active → Said env code active log

/-- A run of the check is one with the answer of ArbWasm. -/
def Settles (env : ChainEnv) (cfg : CheckConfig) (log : NodeLog)
    (o : Outcome String ContractCheck) : Prop :=
  ∃ compiled answer, SettledBy env cfg log compiled answer ∧
    Runs (CargoStylus.check (settled env compiled answer) cfg) (nodeLog log) o

theorem noPanic_check {cfg : CheckConfig} : NoPanic (check env cfg) := by
  unfold check checkWith
  split_ifs
  · exact noPanic_done (Outcome.not_isPanic_err _)
  refine (noPanic_done (Outcome.not_isPanic_ofExcept _)).embed.bind fun code => ?_
  refine (noPanic_ask _).embed.bind fun _ => noPanic_contractExists.bind fun active => ?_
  split_ifs
  · exact noPanic_done (Outcome.not_isPanic_ok _)
  · exact noPanic_checkActivate.embed.bind fun fee => noPanic_done (Outcome.not_isPanic_ok _)

/-- What a check returns was found in its log. -/
theorem check_settles {cfg : CheckConfig} : wp (check env cfg) (Settles env cfg) := by
  unfold check checkWith
  split_ifs with hendpoint
  · refine ⟨.error "", .ok true, nofun, ?_⟩
    rw [CargoStylus.check, checkWith, if_pos hendpoint]
    exact .done _
  have hcheck := fun compiled answer =>
    @check_of_endpoint (settled env compiled answer) cfg hendpoint
  unfold Settles
  simp only [hcheck]
  rcases hcompile : env.compile cfg with e | code
  · exact ⟨.error e, .ok true, nofun, .done _⟩
  have hcompiled : ∀ f : Bytes → NodeRpc ContractCheck,
      ofRpc (lift (.ofExcept (.ok code))) >>= f = f code :=
    fun f => rfl
  rw [hcompiled]
  have hsettled : ∀ log answer, (∀ active, answer = .ok active → Said env code active log) →
      SettledBy env cfg log (.ok code) answer := by
    rintro log answer hanswer _ ⟨⟩
    exact ⟨hcompile, hanswer⟩
  have hconnect : NoPanic (ofRpc (ask (Request.connect cfg.commonCfg.endpoint))) :=
    (noPanic_ask _).embed
  refine wp_bind_of (wp_and wp_ofRpc_runs hconnect) (fun log connected h => ?_)
    (fun log e h => ⟨.ok code, .error e, hsettled _ _ nofun, h.1.bind_err⟩)
    (fun log m h => absurd (Outcome.isPanic_panic m) h.2)
  have hconnected := h.1
  refine wp_bind_of (wp_and nodeLog_contractExists (wp_and noPanic_contractExists
    contractExists_yields)) (fun asked active h => ?_) (fun asked e h => ?_)
    (fun asked m h => absurd (Outcome.isPanic_panic m) h.2.1)
  · have hasked : nodeLog (log ++ asked) = nodeLog log := by
      rw [nodeLog_append, h.1, List.append_nil]
    have hsaid : ∀ log', Said env code active (log ++ (asked ++ log')) :=
      fun log' => (h.2.2.2 active rfl).mono (by grind)
    have hanswer : ∀ log', SettledBy env cfg (log ++ (asked ++ log')) (.ok code) (.ok active) :=
      fun log' => hsettled _ _ fun _ hactive => Except.ok.inj hactive ▸ hsaid log'
    rcases active with _ | _
    · refine wp_bind_of (wp_and wp_ofRpc_runs noPanic_checkActivate.embed) (fun quoted fee h => ?_)
        (fun quoted e h => ?_) (fun quoted m h => absurd (Outcome.isPanic_panic m) h.2)
      · refine ⟨_, _, hanswer _, ?_⟩
        rw [← List.append_assoc, nodeLog_append, hasked, nodeLog_append]
        exact hconnected.bind (h.1.bind (.done _))
      · refine ⟨_, _, hanswer _, ?_⟩
        rw [← List.append_assoc, nodeLog_append, hasked]
        exact hconnected.bind h.1.bind_err
    · refine ⟨_, _, hanswer _, ?_⟩
      rw [← List.append_assoc, nodeLog_append, hasked]
      exact hconnected.bind (.done _)
  · refine ⟨.ok code, .error e, hsettled _ _ nofun, ?_⟩
    rw [nodeLog_append, h.1]
    exact hconnected.bind (.done _)

/-- A run of a deployment is one after a check of what is compiled, with the answer of ArbWasm. -/
theorem commandRuns_of_runs {Param Value : Type} (env : ChainEnv)
    (deployEnv : DeployEnv Param Value) (cfg : DeployConfig) {log : NodeLog}
    {o : Outcome String Unit} (h : Runs (deploy env deployEnv cfg) log o) : ∃ compiled answer,
      SettledBy env cfg.checkConfig log compiled answer ∧
      CommandRuns deployEnv (settled env compiled answer) (.deploy cfg) (nodeLog log) o := by
  have hruns : wp (deploy env deployEnv cfg) fun log o => ∃ compiled answer,
      SettledBy env cfg.checkConfig log compiled answer ∧
      CommandRuns deployEnv (settled env compiled answer) (.deploy cfg) (nodeLog log) o := by
    refine wp_attempt_bind (wp_and noPanic_check check_settles) (fun log result h => ?_)
      (fun log m h => absurd (Outcome.isPanic_panic m) h.1)
    obtain ⟨compiled, answer, hsettled, hcheck⟩ := h.2
    refine wp_mono wp_ofRpc_runs fun log' o hdeploy => ⟨compiled, answer, ?_, ?_⟩
    · exact fun code hcode => ⟨(hsettled code hcode).1, fun active hactive =>
        ((hsettled code hcode).2 active hactive).mono fun entry => List.mem_append_left log'⟩
    · rw [nodeLog_append]
      exact .deploy hcheck hdeploy
  exact wp_iff_runs.1 hruns log o h

theorem commandRuns_letterEnv : ∃ log : NodeLog, (sentBy log).length = 2 ∧ ∃ compiled answer,
    SettledBy letterEnv (wasmFileConfig 0).checkConfig log compiled answer ∧
    CommandRuns readyEnv (settled letterEnv compiled answer) (.deploy (wasmFileConfig 0))
      (nodeLog log) (.ok ()) := by
  obtain ⟨log, hlen, hrun⟩ := runs_letterEnv
  exact ⟨log, hlen, commandRuns_of_runs letterEnv readyEnv (wasmFileConfig 0) hrun⟩

end Chain

end CargoStylus
