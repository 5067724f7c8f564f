import CargoStylus.DeployPlan
import CargoStylus.InitCode
import CargoStylus.VerifySlices

/-!
# A deployment, verified

`deploy` sends a transaction, the node answers with its hash, and `verify` fetches the
transaction by that hash. Whatever run of `deploy` sent it, `verify` prints that it is verified
exactly if the local project has the code that was deployed (`verify_deployed_iff`). If there is
a constructor, `verify` has to find one that takes the same types (`ExportsTypesOf`).

A creation that is verified is init code that returns the code of the local project, and so is
the init code that a verified call passes to the deployer (`verified_creates`).
-/

namespace CargoStylus

open Rust Rust.Interaction Rust.Interaction.Prog Evm

variable {Param Value : Type}

/-! ## What the node keeps -/

/-- The account that a transaction is sent to. -/
def TransactionRequest.recipient (tx : TransactionRequest) : Option Address :=
  match tx.kind with
  | some (.call recipient) => some recipient
  | _ => none

/-- What `verify` reads of a transaction that was sent. -/
def TransactionRequest.mined (tx : TransactionRequest) : Transaction where
  recipient := tx.recipient
  input := tx.input.getD []

/-- The transaction that was sent, with the hash it got. -/
def acceptedTx : (Σ r : Request, Except String r.Response) → Option (TransactionRequest × B256)
  | ⟨.sendTransaction tx, .ok txHash⟩ => some (tx, txHash)
  | _ => none

/-- The transactions that a node took, with their hashes. -/
def accepted (log : RpcLog) : List (TransactionRequest × B256) :=
  log.filterMap acceptedTx

/-- What the node took it finds again. -/
def Keeps (env : Env Param Value) (log : RpcLog) : Prop :=
  ∀ tx txHash, (tx, txHash) ∈ accepted log →
    env.getTransactionByHash txHash = .ok (some tx.mined)

theorem accepted_append (log log' : RpcLog) :
    accepted (log ++ log') = accepted log ++ accepted log' :=
  List.filterMap_append

theorem accepted_cons_sendTransaction (tx : TransactionRequest) (txHash : B256) (log : RpcLog) :
    accepted (⟨.sendTransaction tx, .ok txHash⟩ :: log) = (tx, txHash) :: accepted log :=
  rfl

theorem mem_sent_of_accepted {log : RpcLog} {tx : TransactionRequest} {txHash : B256}
    (h : (tx, txHash) ∈ accepted log) : tx ∈ sent log := by
  obtain ⟨⟨r, x⟩, hentry, haccepted⟩ := List.mem_filterMap.1 h
  refine List.mem_filterMap.2 ⟨⟨r, x⟩, hentry, ?_⟩
  cases r with
  | sendTransaction tx' =>
    rcases x with e | txHash'
    · cases haccepted
    · obtain ⟨rfl, -⟩ := Prod.mk.inj (Option.some.inj haccepted)
      rfl
  | _ => cases haccepted

theorem accepted_eq_nil {log : RpcLog} (h : sent log = []) : accepted log = [] := by
  refine List.eq_nil_iff_forall_not_mem.2 fun entry hentry => ?_
  have hmem := mem_sent_of_accepted hentry
  rw [h] at hmem
  exact List.not_mem_nil hmem

@[simp] theorem mined_withFee (tx : TransactionRequest) (gas : Option U64) (maxFee : U128) :
    (tx.withFee gas maxFee).mined = tx.mined := by
  rcases gas with _ | gas <;> rfl

/-! ## What verification prints -/

/-- It returns, and prints that the deployment is verified, on either path. -/
def PrintsVerified (result : Outcome String (List String)) : Prop :=
  ∃ lines, result = .ok lines ∧ (constructorVerifiedLine ∈ lines ∨ createVerifiedLine ∈ lines)

theorem contractDeploymentCalldata_inj {code code' : Bytes} :
    contractDeploymentCalldata code = contractDeploymentCalldata code' ↔ code = code' := by
  refine ⟨fun h => ?_, congrArg _⟩
  have hcode := extract_contractDeploymentCalldata code
  rw [h, extract_contractDeploymentCalldata] at hcode
  exact (Outcome.ok.inj hcode).symm

/-- The line does not say that the deployment is verified. -/
def OtherLine (line : String) : Prop :=
  constructorVerifiedLine ≠ line ∧ createVerifiedLine ≠ line

/-- A line that is not coloured does not. -/
theorem otherLine_of_head {s : String} {c : Char} (hs : s.toList.head? = some c)
    (hc : c ≠ '\x1b') : OtherLine s := by
  refine ⟨?_, ?_⟩
  · rintro rfl
    exact hc (Option.some.inj (hs.symm.trans rfl))
  · rintro rfl
    exact hc (Option.some.inj (hs.symm.trans rfl))

/-- The line of a failure has another colour. -/
theorem otherLine_failedLine : OtherLine failedLine := by
  refine ⟨fun h => ?_, fun h => ?_⟩
  · have hcolour := congrArg (fun s : String => s.toList[2]?) h
    revert hcolour
    decide
  · have hcolour := congrArg (fun s : String => s.toList[2]?) h
    revert hcolour
    decide

theorem otherLine_append {s : String} {c : Char} (hs : s.toList.head? = some c)
    (hc : c ≠ '\x1b') (t : String) : OtherLine (s ++ t) := by
  refine otherLine_of_head (c := c) ?_ hc
  rw [String.toList_append, List.head?_append, hs]
  rfl

/-- The lines about preludes that differ, or about code that does. -/
theorem otherLine_diagnosis (txPrelude reconstructedPrelude : Bytes) :
    ∀ line ∈ (if txPrelude ≠ reconstructedPrelude then
        ["Prelude mismatch",
          "Deployment tx prelude " ++ String.ofList (hexEncode txPrelude),
          "Reconstructed prelude " ++ String.ofList (hexEncode reconstructedPrelude)]
      else ["Compressed WASM bytecode mismatch"]), OtherLine line := by
  split_ifs
  · simp only [List.forall_mem_cons, List.not_mem_nil, false_imp_iff, implies_true, and_true]
    exact ⟨otherLine_of_head rfl (by decide), otherLine_append rfl (by decide) _,
      otherLine_append rfl (by decide) _⟩
  · simp only [List.forall_mem_cons, List.not_mem_nil, false_imp_iff, implies_true, and_true]
    exact otherLine_of_head rfl (by decide)

/-- A creation is verified exactly if it is the expected init code. -/
theorem printsVerified_create_iff {calldata deploymentData : Bytes} :
    PrintsVerified (verifyCreateDeployment calldata deploymentData) ↔
      deploymentData = calldata := by
  unfold verifyCreateDeployment
  split_ifs with heq
  · exact ⟨fun _ => heq, fun _ => ⟨_, rfl, .inr List.mem_cons_self⟩⟩
  · refine iff_of_false (fun h => ?_) heq
    obtain ⟨lines, h, hmem⟩ := h
    obtain ⟨txPrelude, -, h⟩ := Outcome.bind_eq_ok.1 h
    obtain ⟨reconstructedPrelude, -, h⟩ := Outcome.bind_eq_ok.1 h
    obtain ⟨reconstructed, -, h⟩ := Outcome.bind_eq_ok.1 h
    obtain ⟨deployed, -, h⟩ := Outcome.bind_eq_ok.1 h
    obtain rfl := Outcome.ok.inj h
    have hlengths : ∀ line ∈
        [s!"Compressed code length of locally reconstructed {reconstructed.length}",
          s!"Compressed code length of deployment tx {deployed.length}"], OtherLine line := by
      simp only [List.forall_mem_cons, List.not_mem_nil, false_imp_iff, implies_true, and_true]
      exact ⟨otherLine_append rfl (by decide) _, otherLine_append rfl (by decide) _⟩
    have hother : ∀ line ∈ failedLine :: _ ++ _, OtherLine line :=
      List.forall_mem_append.2 ⟨List.forall_mem_cons.2 ⟨otherLine_failedLine,
        otherLine_diagnosis txPrelude reconstructedPrelude⟩, hlengths⟩
    rcases hmem with hmem | hmem
    · exact (hother _ hmem).1 rfl
    · exact (hother _ hmem).2 rfl

/-- A call of the deployer is verified exactly if its checker says so. -/
theorem printsVerified_constructor_iff {abi : Abi Param Value} {output : Except String Text}
    {deployer : Address} {calldata deploymentData : Bytes} :
    PrintsVerified (verifyConstructorDeployment abi output deployer calldata deploymentData) ↔
      Verified (verifyConstructorDeployment abi output deployer calldata deploymentData) := by
  refine ⟨fun h => ?_, fun h => ?_⟩
  · obtain ⟨lines, h, -⟩ := h
    refine ⟨lines, h, ?_⟩
    rw [verifyConstructorDeployment_eq_map] at h
    obtain ⟨read, -, rfl⟩ := Outcome.map_eq_ok.1 h
    exact List.mem_append_left _ (List.mem_cons_of_mem _ List.mem_cons_self)
  · obtain ⟨lines, h, hmem⟩ := h
    exact ⟨lines, h, .inl hmem⟩

/-! ## Verifying what was deployed -/

section

variable {venv : Env Param Value} {vcfg : VerifyConfig} {tx : Transaction}
  {contract : ContractCheck}

/-- What is fetched is the transaction with the hash of the command line, and the check of the
local project. -/
theorem fetchDeployment_eq_ok (hfetch : fetchDeployment venv vcfg = .ok (tx, contract)) :
    ∃ (hash : Bytes) (hlen : hash.length = 32), decode0x venv vcfg.deploymentTx = .ok hash ∧
      venv.getTransactionByHash ⟨hash, hlen⟩ = .ok (some tx) ∧
      venv.check
        { commonCfg := vcfg.commonCfg, dataFee := { dataFeeBumpPercent := 20 },
          wasmFile := none, contractAddress := none } = .ok contract := by
  unfold fetchDeployment at hfetch
  obtain ⟨_, -, hfetch⟩ := Outcome.bind_eq_ok.1 hfetch
  obtain ⟨hash, hdecoded, hfetch⟩ := Outcome.bind_eq_ok.1 hfetch
  split_ifs at hfetch with hlen
  obtain ⟨found, hfound, hfetch⟩ := Outcome.bind_eq_ok.1 hfetch
  rcases found with _ | found
  · cases hfetch
  obtain ⟨success, -, hfetch⟩ := Outcome.bind_eq_ok.1 hfetch
  split_ifs at hfetch
  obtain ⟨contractCheck, hcheck, hfetch⟩ := Outcome.bind_eq_ok.1 hfetch
  obtain ⟨rfl, rfl⟩ := Prod.mk.inj (Outcome.ok.inj hfetch)
  exact ⟨hash, hlen, Outcome.ofExcept_eq_ok.1 hdecoded,
    Outcome.ofExcept_eq_ok.1 (Outcome.mapErr_eq_ok.1 hfound),
    Outcome.ofExcept_eq_ok.1 (Outcome.mapErr_eq_ok.1 hcheck)⟩

theorem verify_of_creation (hfetch : fetchDeployment venv vcfg = .ok (tx, contract))
    (hrecipient : tx.recipient = none) :
    verify venv vcfg =
      verifyCreateDeployment tx.input (contractDeploymentCalldata contract.code) := by
  rw [verify, hfetch, Outcome.ok_bind]
  simp only [hrecipient]

theorem verify_of_call {deployer : Address}
    (hfetch : fetchDeployment venv vcfg = .ok (tx, contract))
    (hrecipient : tx.recipient = some deployer) :
    verify venv vcfg = verifyConstructorDeployment venv.abi venv.runExport deployer tx.input
      (contractDeploymentCalldata contract.code) := by
  rw [verify, hfetch, Outcome.ok_bind]
  simp only [hrecipient]

/-- What is verified carries init code that returns the code of the local project, and does
nothing else. -/
theorem verified_creates (hfetch : fetchDeployment venv vcfg = .ok (tx, contract))
    (hlen : contract.code.length < 2 ^ 64) (hverified : PrintsVerified (verify venv vcfg)) :
    ∃ initCode, Carries venv.abi tx initCode ∧ ∀ pcs halt,
      Executes initCode State.initial pcs halt ↔
        pcs = initPath ∧ halt = .returned contract.code := by
  refine ⟨contractDeploymentCalldata contract.code, ?_,
    (executes_contractDeploymentCalldata contract.code hlen).iff_of_executes⟩
  unfold Carries
  cases hrecipient : tx.recipient with
  | none =>
    rw [verify_of_creation hfetch hrecipient, printsVerified_create_iff] at hverified
    exact hverified.symm
  | some deployer =>
    rw [verify_of_call hfetch hrecipient, printsVerified_constructor_iff,
      verified_iff_checks] at hverified
    obtain ⟨constructor, call, args, -, hcall, hbytecode, -⟩ := hverified
    exact ⟨call, hcall, hbytecode⟩

/-- The creation of a contract of one byte. -/
def byteCreation : Transaction where
  recipient := none
  input := contractDeploymentCalldata [0x61]

theorem printsVerified_byteCreation :
    PrintsVerified (verify (worldOf byteCreation [0x61]) sampleConfig) := by
  rw [verify_of_creation (fetchDeployment_worldOf byteCreation [0x61]) rfl,
    printsVerified_create_iff]
  rfl

theorem verified_creates_byteCreation : ∃ initCode,
    Carries (worldOf byteCreation [0x61]).abi byteCreation initCode ∧ ∀ pcs halt,
      Executes initCode State.initial pcs halt ↔ pcs = initPath ∧ halt = .returned [0x61] :=
  verified_creates (fetchDeployment_worldOf byteCreation [0x61]) (by decide)
    printsVerified_byteCreation

end

section

variable {env : DeployEnv Param Value} {cfg : DeployConfig} {log : RpcLog}
  {tx : TransactionRequest} {txHash : B256}

/-- What the first transaction of a deployment is, on chain. -/
inductive Deployed (env : DeployEnv Param Value) (cfg : DeployConfig) (deployed : ContractCheck)
    (tx : Transaction) : Prop
  | created (hnone : findConstructor env cfg = .ok none)
      (htx : tx = { recipient := none, input := contractDeploymentCalldata deployed.code })
  | called {constructor : Constructor Param} {deployer : DeployerArgs}
      (hfind : findConstructor env cfg = .ok (some constructor))
      (hparse : parseConstructorArgs env.abi env.connect cfg constructor deployed = .ok deployer)
      (htx : tx = { recipient := some deployer.address, input := deployer.txCalldata })

theorem mined_createTx (sender : Address) (code : Bytes) : (createTx sender code).mined =
    { recipient := none, input := contractDeploymentCalldata code } :=
  rfl

theorem mined_deployerTx (sender : Address) (deployer : DeployerArgs) :
    (deployerTx sender deployer).mined =
      { recipient := some deployer.address, input := deployer.txCalldata } :=
  rfl

/-- The first transaction that the node takes deploys the contract that was checked. -/
theorem deployed_of_plan (hplan : DeployPlan env cfg log)
    (hfirst : (accepted log).head? = some (tx, txHash)) :
    ∃ deployed, env.check cfg.checkConfig = .ok deployed ∧ Deployed env cfg deployed tx.mined := by
  have hmem := mem_sent_of_accepted (List.mem_of_head? hfirst)
  rcases hplan with hsent | ⟨hcheck, hnone, -, hsent⟩ |
    ⟨hcheck, hnone, -, -, rfl, hbefore, -, -, -⟩ | ⟨hcheck, hfind, hparse, -, hsent⟩
  · rw [hsent] at hmem
    exact absurd hmem List.not_mem_nil
  · rw [hsent] at hmem
    obtain rfl := List.mem_singleton.1 hmem
    exact ⟨_, hcheck, .created hnone (by rw [mined_withFee, mined_createTx])⟩
  · rw [accepted_append, accepted_eq_nil hbefore, List.nil_append,
      accepted_cons_sendTransaction, List.head?_cons] at hfirst
    obtain ⟨rfl, -⟩ := Prod.mk.inj (Option.some.inj hfirst)
    exact ⟨_, hcheck, .created hnone (by rw [mined_withFee, mined_createTx]; rfl)⟩
  · rw [hsent] at hmem
    obtain rfl := List.mem_singleton.1 hmem
    exact ⟨_, hcheck, .called hfind hparse (by rw [mined_withFee, mined_deployerTx])⟩

/-- What was deployed carries the init code of the contract. -/
theorem Deployed.carries {deployed : ContractCheck} {found : Transaction}
    (h : Deployed env cfg deployed found) :
    Carries env.abi found (contractDeploymentCalldata deployed.code) := by
  rcases h with ⟨-, rfl⟩ | ⟨-, hparse, rfl⟩
  · rfl
  · obtain ⟨-, -, -, -, args, encoded, -, -, hcalldata⟩ := parseConstructorArgs_eq_ok hparse
    exact ⟨_, env.abi.deployCall.decode_eq_ok.2 hcalldata, rfl⟩

/-- The project exports a constructor that takes the same types. -/
def ExportsTypesOf (abi : Abi Param Value) (output : Except String Text)
    (constructor : Constructor Param) : Prop :=
  ∃ exported, getConstructorSignature abi.parse output = .ok (some exported) ∧
    abi.input exported = abi.input constructor

theorem exportsTypesOf_self {abi : Abi Param Value} {output : Except String Text}
    {constructor : Constructor Param}
    (h : getConstructorSignature abi.parse output = .ok (some constructor)) :
    ExportsTypesOf abi output constructor :=
  ⟨constructor, h, rfl⟩

/-- A call of the deployer is verified exactly by a project with the same code. -/
theorem verified_call_iff {abi : Abi Param Value} {output : Except String Text}
    {connect : Text → Except String Unit} {constructor : Constructor Param}
    {deployed : ContractCheck} {deployer : DeployerArgs} {address : Address} {code : Bytes}
    (hexports : ExportsTypesOf abi output constructor)
    (hparse : parseConstructorArgs abi connect cfg constructor deployed = .ok deployer) :
    Verified (verifyConstructorDeployment abi output address deployer.txCalldata
      (contractDeploymentCalldata code)) ↔ code = deployed.code := by
  obtain ⟨-, -, -, -, args, encoded, -, hargs, hcalldata⟩ := parseConstructorArgs_eq_ok hparse
  have hcall := abi.deployCall.decode_eq_ok.2 hcalldata
  rw [verified_iff_checks]
  refine ⟨fun h => ?_, ?_⟩
  · obtain ⟨_, call, _, -, hcall', hbytecode, -⟩ := h
    obtain rfl := Except.ok.inj (hcall.symm.trans hcall')
    exact (contractDeploymentCalldata_inj.1 hbytecode).symm
  · rintro rfl
    obtain ⟨exported, hfound, hinput⟩ := hexports
    have hlen : 4 ≤ (stylusConstructorSelector ++ encoded).length :=
      List.length_append ▸ Nat.le_add_right 4 encoded.length
    refine ⟨exported, _, args, hfound, hcall, rfl, hlen, ?_⟩
    rw [hinput]
    exact (abi.input constructor).decode_eq_ok.2 hargs

/-- What was deployed is verified exactly by a project with the same code. -/
theorem Deployed.printsVerified_iff {venv : Env Param Value} {vcfg : VerifyConfig}
    {deployed contract : ContractCheck} {found : Transaction}
    (h : Deployed env cfg deployed found) (habi : venv.abi = env.abi)
    (hexports : ∀ constructor, findConstructor env cfg = .ok (some constructor) →
      ExportsTypesOf venv.abi venv.runExport constructor)
    (hfetch : fetchDeployment venv vcfg = .ok (found, contract)) :
    PrintsVerified (verify venv vcfg) ↔ contract.code = deployed.code := by
  rcases h with ⟨-, rfl⟩ | ⟨hfind, hparse, rfl⟩
  · rw [verify_of_creation hfetch rfl, printsVerified_create_iff, contractDeploymentCalldata_inj]
  · rw [verify_of_call hfetch rfl, printsVerified_constructor_iff]
    exact verified_call_iff (hexports _ hfind) (habi ▸ hparse)

/-- What `verify` fetches by the hash of the deployment is what was sent. -/
theorem found_eq_mined {venv : Env Param Value} {vcfg : VerifyConfig} {contract : ContractCheck}
    {found : Transaction} (hfirst : (accepted log).head? = some (tx, txHash))
    (hkeeps : Keeps venv log) (hhash : decode0x venv vcfg.deploymentTx = .ok txHash.1)
    (hfetch : fetchDeployment venv vcfg = .ok (found, contract)) : found = tx.mined := by
  obtain ⟨hash, hlen, hdecoded, hfound, -⟩ := fetchDeployment_eq_ok hfetch
  obtain rfl := Except.ok.inj (hhash.symm.trans hdecoded)
  rw [hkeeps tx txHash (List.mem_of_head? hfirst)] at hfound
  exact (Option.some.inj (Except.ok.inj hfound)).symm

/-- Whatever run of `deploy` sent it, `verify` prints that the deployment is verified exactly
if the local project has the code that was deployed. -/
theorem verify_deployed_iff {o : Outcome String Unit} {venv : Env Param Value}
    {vcfg : VerifyConfig} {found : Transaction} {contract : ContractCheck}
    (hrun : Runs (deploy env cfg) log o) (hfirst : (accepted log).head? = some (tx, txHash))
    (hkeeps : Keeps venv log) (habi : venv.abi = env.abi)
    (hsame : ∀ constructor, findConstructor env cfg = .ok (some constructor) →
      getConstructorSignature venv.abi.parse venv.runExport = .ok (some constructor))
    (hhash : decode0x venv vcfg.deploymentTx = .ok txHash.1)
    (hfetch : fetchDeployment venv vcfg = .ok (found, contract)) :
    ∃ deployed, env.check cfg.checkConfig = .ok deployed ∧
      (PrintsVerified (verify venv vcfg) ↔ contract.code = deployed.code) := by
  obtain ⟨deployed, hcheck, hdeployed⟩ :=
    deployed_of_plan (wp_iff_runs.1 deploy_sends log o hrun) hfirst
  obtain rfl := found_eq_mined hfirst hkeeps hhash hfetch
  exact ⟨deployed, hcheck, hdeployed.printsVerified_iff habi
    (fun constructor hfind => exportsTypesOf_self (hsame constructor hfind)) hfetch⟩

/-- The arguments of `cargo stylus deploy --wasm-file --no-activate`. -/
def noActivateConfig : DeployConfig :=
  { wasmFileConfig 0 with noActivate := true }

/-- The creation in a run with these arguments. -/
def byteTx : TransactionRequest :=
  (createTx (filled 20 1) [0x61]).withFee (some 0) 0

/-- A node on which everything succeeds. -/
def calmNode : ∀ r : Request, r.Response
  | .connect _ => ()
  | .getChainId => 0
  | .getBalance _ => 5
  | .getCodeAt _ => []
  | .callWithCode _ _ _ => []
  | .estimateGas _ => 0
  | .getGasPrice => 0
  | .getTransactionCount _ => 0
  | .sendTransaction _ => filled 32 0
  | .getReceipt _ => deployedReceipt (filled 20 9)

/-- A run in which the contract is created. -/
def byteLog : RpcLog :=
  (answered calmNode (deploy readyEnv noActivateConfig)).1.map fun r => ⟨r, .ok (calmNode r)⟩

theorem accepted_byteLog : accepted byteLog = [(byteTx, filled 32 0)] :=
  rfl

theorem keeps_byteLog : Keeps (worldOf byteCreation [0x61]) byteLog := by
  intro tx txHash h
  rw [accepted_byteLog] at h
  obtain ⟨rfl, -⟩ := Prod.mk.inj (List.mem_singleton.1 h)
  rfl

theorem verify_deployed_byteLog :
    ∃ deployed, readyEnv.check noActivateConfig.checkConfig = .ok deployed ∧
      (PrintsVerified (verify (worldOf byteCreation [0x61]) sampleConfig) ↔
        [0x61] = deployed.code) :=
  verify_deployed_iff (runs_answered calmNode _) rfl keeps_byteLog rfl (by rintro _ ⟨⟩) rfl
    (fetchDeployment_worldOf byteCreation [0x61])

end

end CargoStylus
