import CargoStylus.Cache
import CargoStylus.Rust.Panics

/-!
# The wallet

A wallet is made from a private key on the command line or in a file, or from a keystore. A key of
the wrong length is a panic (`isPanic_alloyWallet_iff`), in every command that signs.

A run of such a command that panics has sent nothing (`panics_before_sending`,
`panicsOnly_placeBid`) : after the wallet is made and the balance is asked for, nothing panics.
-/

namespace CargoStylus

open Rust Rust.Interaction Rust.Interaction.Prog

/-- What a wallet is made from. -/
structure WalletEnv where
  /-- `fs::read_to_string`. -/
  readToString : PathBuf → Except String Text
  /-- `PrivateKeySigner::from_bytes`, as the address of the signer. -/
  fromBytes : B256 → Except String Address
  /-- `LocalSigner::decrypt_keystore`, as the address of the signer. -/
  decryptKeystore : Text → Text → Except String Address

/-- The bytes of a text in hex. -/
def decodeKey (text : Text) : Except String Bytes :=
  match hexDecode (stripPrefix "0x".toList (trim text)) with
  | some bytes => .ok bytes
  | none => .error "invalid character or odd number of digits"

/-- `FixedBytes::from_slice`. -/
def fixedFromSlice (bytes : Bytes) : Outcome String B256 :=
  if h : bytes.length = 32 then .ok ⟨bytes, h⟩
  else .panic s!"cannot convert a slice of length {bytes.length} to FixedBytes<32>"

namespace WalletEnv

variable (env : WalletEnv)

/-- The signer of a private key in hex. -/
def keySigner (key : Text) : Outcome String Address := do
  let bytes ← .ofExcept (decodeKey key)
  let privKeyBytes ← fixedFromSlice bytes
  .ofExcept (env.fromBytes privKeyBytes)

/-- The signer of a keystore. -/
def keystoreSigner (keystorePath : Option Text) (keystorePasswordPath : Option PathBuf) :
    Outcome String Address := do
  let keystore ← .ofOption "no keystore" keystorePath
  let password ← match keystorePasswordPath with
    | some path => .ofExcept (env.readToString path)
    | none => .ok []
  .ofExcept (env.decryptKeystore keystore password)

/-- Loads a wallet for signing transactions. -/
def alloyWallet : AlloyWallet := fun auth _chainId =>
  match auth.privateKey with
  | some key => if key = [] then .err "empty private key" else env.keySigner key
  | none =>
    match auth.privateKeyPath with
    | some file => do
      let key ← .wrapErr "could not open private key file" (.ofExcept (env.readToString file))
      env.keySigner key
    | none => env.keystoreSigner auth.keystorePath auth.keystorePasswordPath

/-- The text that is read as the private key. -/
inductive Key (auth : AuthOpts) : Text → Prop
  | given {key : Text} (hkey : auth.privateKey = some key) (hne : key ≠ []) : Key auth key
  | file {path : PathBuf} {key : Text} (hkey : auth.privateKey = none)
      (hpath : auth.privateKeyPath = some path) (hread : env.readToString path = .ok key) :
      Key auth key

/-- There is a private key, in hex, that has the wrong length. -/
def WrongLength (auth : AuthOpts) : Prop :=
  ∃ key bytes, env.Key auth key ∧ decodeKey key = .ok bytes ∧ bytes.length ≠ 32

end WalletEnv

variable {wallet : WalletEnv} {auth : AuthOpts} {chainId : U64}

/-! ## The key -/

theorem isPanic_fixedFromSlice {bytes : Bytes} :
    (fixedFromSlice bytes).IsPanic ↔ bytes.length ≠ 32 := by
  unfold fixedFromSlice
  split_ifs with h <;> simp [h]

/-- A key makes the command panic exactly if it is hex of the wrong length. -/
theorem isPanic_keySigner {key : Text} :
    (wallet.keySigner key).IsPanic ↔ ∃ bytes, decodeKey key = .ok bytes ∧ bytes.length ≠ 32 := by
  rw [WalletEnv.keySigner]
  rcases decodeKey key with e | bytes
  · simp
  · simp only [Outcome.ofExcept_ok, Outcome.ok_bind, Outcome.isPanic_bind, isPanic_fixedFromSlice,
      Outcome.not_isPanic_ofExcept, and_false, exists_false, or_false, Except.ok.injEq,
      exists_eq_left']

theorem not_isPanic_keystoreSigner {path : Option Text} {passwordPath : Option PathBuf} :
    ¬(wallet.keystoreSigner path passwordPath).IsPanic := by
  unfold WalletEnv.keystoreSigner
  rcases passwordPath with _ | passwordPath
  · simp [Outcome.isPanic_bind, Outcome.not_isPanic_ofExcept, Outcome.not_isPanic_ofOption]
  · simp [Outcome.isPanic_bind, Outcome.not_isPanic_ofExcept, Outcome.not_isPanic_ofOption]

/-- The same of the wallet for a key. -/
theorem isPanic_alloyWallet_key : (wallet.alloyWallet auth chainId).IsPanic ↔
    ∃ key, wallet.Key auth key ∧ (wallet.keySigner key).IsPanic := by
  rw [WalletEnv.alloyWallet]
  refine ⟨fun h => ?_, fun ⟨key, hkey, hpanic⟩ => ?_⟩
  · rcases hgiven : auth.privateKey with _ | key
    · rcases hfile : auth.privateKeyPath with _ | file
      · rw [hgiven, hfile] at h
        exact absurd h not_isPanic_keystoreSigner
      · rw [hgiven, hfile] at h
        rcases Outcome.isPanic_bind.1 h with hread | ⟨key, hread, hpanic⟩
        · exact absurd (Outcome.isPanic_wrapErr.1 hread) (Outcome.not_isPanic_ofExcept _)
        · have hread := Outcome.ofExcept_eq_ok.1 (Outcome.wrapErr_eq_ok.1 hread)
          exact ⟨key, .file hgiven hfile hread, hpanic⟩
    · rw [hgiven] at h
      dsimp only at h
      split_ifs at h with hne
      · exact absurd h (Outcome.not_isPanic_err _)
      · exact ⟨key, .given hgiven hne, h⟩
  · cases hkey with
    | given hgiven hne =>
      rw [hgiven]
      dsimp only
      rwa [if_neg hne]
    | file hgiven hfile hread =>
      rw [hgiven, hfile]
      exact Outcome.isPanic_bind.2 (.inr ⟨key, by rw [hread]; rfl, hpanic⟩)

/-- Making the wallet panics exactly if there is a private key of the wrong length. -/
theorem isPanic_alloyWallet_iff :
    (wallet.alloyWallet auth chainId).IsPanic ↔ wallet.WrongLength auth := by
  rw [isPanic_alloyWallet_key, WalletEnv.WrongLength]
  simp only [isPanic_keySigner]
  exact ⟨fun ⟨key, hkey, bytes, h⟩ => ⟨key, bytes, hkey, h⟩,
    fun ⟨key, bytes, hkey, h⟩ => ⟨key, hkey, bytes, h⟩⟩

/-! ## What panics -/

section

variable {Param Value : Type}

/-- Signed with the wallet. -/
def DeployEnv.withWallet (env : DeployEnv Param Value) (wallet : WalletEnv) :
    DeployEnv Param Value :=
  { env with alloyWallet := wallet.alloyWallet }

/-- The wallet is made as the code makes it. -/
def ActivateEnv.withWallet (env : ActivateEnv) (wallet : WalletEnv) : ActivateEnv :=
  { env with alloyWallet := wallet.alloyWallet }

/-- The wallet is made as the code makes it. -/
def CacheEnv.withWallet (env : CacheEnv) (wallet : WalletEnv) : CacheEnv :=
  { env with alloyWallet := wallet.alloyWallet }

/-- Why a command panics : its check fails, the call of the deployer cannot be written, the private
key has the wrong length, or the balance is not known. -/
inductive Panics (env : DeployEnv Param Value) (wallet : WalletEnv) :
    EstimateCommand → RpcLog → Prop
  | check {cfg : DeployConfig} {log : RpcLog} {e : String}
      (hcheck : env.check cfg.checkConfig = .error e) : Panics env wallet (.deploy cfg) log
  | tooLong {cfg : DeployConfig} {log : RpcLog} {call : DeployCall} {e : String}
      (hencode : env.abi.deployCall.encode call = .error e) : Panics env wallet (.deploy cfg) log
  | deployKey {cfg : DeployConfig} {log : RpcLog} (hkey : wallet.WrongLength cfg.auth) :
      Panics env wallet (.deploy cfg) log
  | balance {cfg : DeployConfig} {log : RpcLog} {account : Address} {e : String}
      (hbalance : (⟨.getBalance account, .error e⟩ : Σ r : Request, Except String r.Response) ∈
        log) : Panics env wallet (.deploy cfg) log
  | activateKey {cfg : ActivateConfig} {log : RpcLog} (hkey : wallet.WrongLength cfg.auth) :
      Panics env wallet (.activate cfg) log

variable {env : DeployEnv Param Value} {command : EstimateCommand}

theorem Panics.append {log log' : RpcLog} (h : Panics env wallet command log') :
    Panics env wallet command (log ++ log') := by
  cases h with
  | check hcheck => exact .check hcheck
  | tooLong hencode => exact .tooLong hencode
  | deployKey hkey => exact .deployKey hkey
  | balance hbalance => exact .balance (List.mem_append_right _ hbalance)
  | activateKey hkey => exact .activateKey hkey

/-- Only the wallet can make the connection panic. -/
theorem panicsOnly_connectWallet {C : RpcLog → Prop} {endpoint : Text}
    (hC : ∀ log log', C log' → C (log ++ log')) (hkey : wallet.WrongLength auth → C []) :
    PanicsOnly Request.IsSend C (connectWallet wallet.alloyWallet endpoint auth) := by
  refine .bind_of_noPanic hC (noPanic_ask _) (avoids_ask nofun) fun _ => ?_
  refine .bind_of_noPanic hC (noPanic_ask _) (avoids_ask nofun) fun chainId => ?_
  refine .done_bind hC (fun h => hkey (isPanic_alloyWallet_iff.1 h)) fun fromAddress => ?_
  refine .bind_of_noPanic hC (noPanic_ask _) (avoids_ask nofun) fun _ => ?_
  exact (noPanic_done (Outcome.not_isPanic_ok _)).panicsOnly

/-! ## What does not panic -/

theorem noPanic_lift {α : Type} {o : Outcome String α} (h : ¬o.IsPanic) : NoPanic (lift o) :=
  noPanic_done h

/-- A transaction never panics. -/
theorem noPanic_runTx {name : String} {tx : TransactionRequest} {gas : Option U64} {maxFee : U128} :
    NoPanic (runTx name tx gas maxFee) := by
  refine (noPanic_ask _).bind fun txHash => noPanic_askWith fun response => ?_
  rw [completed, Outcome.isPanic_bind, Outcome.isPanic_wrapErr]
  rintro (h | ⟨receipt, -, h⟩)
  · exact Outcome.not_isPanic_ofExcept _ h
  · split_ifs at h
    · exact Outcome.not_isPanic_err _ h
    · exact Outcome.not_isPanic_ok _ h

theorem not_isPanic_calculateFeePerGas {config : CommonConfig} {gasPrice : U128} :
    ¬(calculateFeePerGas env config gasPrice).IsPanic := by
  unfold calculateFeePerGas
  rcases config.maxFeePerGasGwei with _ | fee
  · exact Outcome.not_isPanic_ok _
  · exact Outcome.not_isPanic_ofExcept _

theorem not_isPanic_getAddressFromLogs : ∀ logs : List EventLog,
    ¬(getAddressFromLogs logs).IsPanic
  | [] => Outcome.not_isPanic_err _
  | log :: logs => by
    rw [getAddressFromLogs]
    rcases log.topics with _ | ⟨topic, topics⟩
    · exact not_isPanic_getAddressFromLogs logs
    · dsimp only
      split_ifs
      · exact Outcome.not_isPanic_ok _
      · exact Outcome.not_isPanic_err _
      · exact not_isPanic_getAddressFromLogs logs

theorem noPanic_deployContract {cfg : DeployConfig} {code : Bytes} {sender : Address} :
    NoPanic (deployContract env cfg code sender) := by
  refine (noPanic_ask _).bind fun gas => (noPanic_ask _).bind fun gasPrice => ?_
  split_ifs
  · exact (noPanic_ask _).bind fun nonce => noPanic_done (Outcome.not_isPanic_ok _)
  · refine (noPanic_lift not_isPanic_calculateFeePerGas).bind fun feePerGas => ?_
    exact noPanic_runTx.bind fun receipt => noPanic_lift (Outcome.not_isPanic_ofOption _ _)

theorem noPanic_activate {cfg : DeployConfig} {sender contractAddr : Address} {dataFee : U256} :
    NoPanic (activate env cfg sender contractAddr dataFee) := by
  refine (noPanic_askWith fun gas h => ?_).bind fun gas => (noPanic_ask _).bind fun gasPrice => ?_
  · exact Outcome.not_isPanic_ofExcept gas (Outcome.isPanic_mapErr.1 h)
  · refine (noPanic_lift not_isPanic_calculateFeePerGas).bind fun feePerGas => ?_
    exact noPanic_runTx.bind fun receipt => noPanic_done (Outcome.not_isPanic_ok _)

/-- A call of the deployer never panics. -/
theorem noPanic_deployWithDeployer {cfg : DeployConfig} {deployer : DeployerArgs}
    {sender : Address} : NoPanic (deployWithDeployer env cfg deployer sender) := by
  refine (noPanic_askWith fun gas h => ?_).bind fun gas => (noPanic_ask _).bind fun gasPrice => ?_
  · exact Outcome.not_isPanic_ofExcept gas (Outcome.isPanic_wrapErr.1 h)
  · split_ifs
    · exact noPanic_done (Outcome.not_isPanic_ok _)
    · refine (noPanic_lift not_isPanic_calculateFeePerGas).bind fun feePerGas => ?_
      refine noPanic_runTx.bind fun receipt => ?_
      exact (noPanic_lift (not_isPanic_getAddressFromLogs _)).bind fun _ =>
        noPanic_done (Outcome.not_isPanic_ok _)

theorem noPanic_deployWithoutConstructor {cfg : DeployConfig} {contract : ContractCheck}
    {sender : Address} {dataFee : U256} :
    NoPanic (deployWithoutConstructor env cfg contract sender dataFee) := by
  refine noPanic_deployContract.bind fun contractAddr => ?_
  split_ifs
  · exact noPanic_done (Outcome.not_isPanic_ok _)
  · rcases contract with code | ⟨code, fee⟩ <;> exact noPanic_done (Outcome.not_isPanic_ok _)
  · rcases contract with code | ⟨code, fee⟩
    · exact noPanic_done (Outcome.not_isPanic_ok _)
    · exact noPanic_activate

theorem not_isPanic_findConstructor {cfg : DeployConfig} : ¬(findConstructor env cfg).IsPanic := by
  unfold findConstructor
  split_ifs
  · rcases cfg.constructorSignature with _ | signature
    · exact Outcome.not_isPanic_ok _
    · exact fun h => Outcome.not_isPanic_ofExcept _ (Outcome.isPanic_map.1 h)
  · exact Outcome.not_isPanic_err _
  · exact Outcome.not_isPanic_ofExcept _

theorem not_isPanic_coerceArgs {abi : Abi Param Value} : ∀ args : List (Text × Param),
    ¬(coerceArgs abi args).IsPanic
  | [] => Outcome.not_isPanic_ok _
  | (arg, param) :: args => by
    have hrest := @not_isPanic_coerceArgs abi args
    unfold coerceArgs at hrest ⊢
    rw [List.mapM_cons]
    simp only [Outcome.isPanic_bind, Outcome.isPanic_wrapErr, Outcome.not_isPanic_ofExcept, hrest,
      and_false, exists_false, or_false, Outcome.pure_eq, Outcome.not_isPanic_ok,
      not_false_eq_true]

theorem isPanic_deployerArgs {cfg : DeployConfig} {contract : ContractCheck}
    {constructor : Option (Constructor Param)}
    (h : (deployerArgs env cfg contract constructor).IsPanic) :
    ∃ call e, env.abi.deployCall.encode call = .error e := by
  unfold deployerArgs at h
  rcases constructor with _ | constructor
  · dsimp only at h
    split_ifs at h
    · exact absurd h (Outcome.not_isPanic_err _)
    · exact absurd h (Outcome.not_isPanic_ok _)
  · have h := Outcome.isPanic_map.1 h
    unfold parseConstructorArgs at h
    dsimp only at h
    split_ifs at h
    · exact absurd h (Outcome.not_isPanic_err _)
    · exact absurd h (Outcome.not_isPanic_err _)
    · simp only [Outcome.isPanic_bind, not_isPanic_coerceArgs, Outcome.not_isPanic_ofExcept,
        false_or, Outcome.pure_eq, Outcome.not_isPanic_ok, and_false, exists_false, or_false,
        Outcome.isPanic_expect] at h
      obtain ⟨_, -, _, -, _, -, e, h⟩ := h
      exact ⟨_, e, h⟩

/-- A balance that is not there is a panic. -/
theorem panicsOnly_checkBalance {cfg : DeployConfig} {contract : ContractCheck}
    {fromAddress : Address} {dataFee : U256} : PanicsOnly Request.IsSend
      (Panics env wallet (.deploy cfg)) (checkBalance env cfg contract fromAddress dataFee) := by
  unfold checkBalance
  rcases contract with code | ⟨code, fee⟩
  · exact (noPanic_done (Outcome.not_isPanic_ok _)).panicsOnly
  · have hbalance : PanicsOnly Request.IsSend (Panics env wallet (.deploy cfg))
        (askWith (Request.getBalance fromAddress) (.expect "failed to get balance")) := by
      intro response hpanic
      obtain ⟨e, rfl⟩ := Outcome.isPanic_expect.1 hpanic
      exact ⟨List.forall_mem_singleton.2 nofun, .balance List.mem_cons_self⟩
    refine hbalance.bind (fun _ _ => .append) (avoids_askWith nofun _) fun balance => ?_
    split_ifs
    · exact (noPanic_lift (Outcome.not_isPanic_err _)).panicsOnly
    · exact (noPanic_done (Outcome.not_isPanic_ok _)).panicsOnly

theorem noPanic_printEstimate {estimateGas : Bool} {activateCall : TransactionRequest} :
    NoPanic (printEstimate estimateGas activateCall) := by
  unfold printEstimate
  split_ifs
  · refine (noPanic_ask _).bind fun gas => (noPanic_ask _).bind fun gasPrice => ?_
    exact noPanic_done (Outcome.not_isPanic_ok _)
  · exact noPanic_done (Outcome.not_isPanic_ok _)

/-- Only the wallet can make an activation panic. -/
theorem panicsOnly_activateContract {activateEnv : ActivateEnv} {cfg : ActivateConfig}
    {C : RpcLog → Prop} (hC : ∀ log log', C log' → C (log ++ log'))
    (hkey : wallet.WrongLength cfg.auth → C []) :
    PanicsOnly Request.IsSend C (activateContract (activateEnv.withWallet wallet) cfg) := by
  refine (panicsOnly_connectWallet hC hkey).bind hC quiet_connectWallet fun fromAddress =>
    NoPanic.panicsOnly ?_
  refine (noPanic_ask _).bind fun code => noPanic_checkActivate.bind fun dataFee => ?_
  refine noPanic_printEstimate.bind fun _ => (noPanic_ask _).bind fun txHash => ?_
  exact (noPanic_ask _).bind fun receipt => noPanic_done (Outcome.not_isPanic_ok _)

/-! ## Runs that panic -/

/-- With a key of the wrong length every connection with the wallet can panic. -/
theorem connectWallet_panics {endpoint : Text} (hkey : wallet.WrongLength auth) :
    ∃ log m, Runs (connectWallet wallet.alloyWallet endpoint auth) log (.panic m) := by
  obtain ⟨m, hm⟩ := @isPanic_alloyWallet_iff wallet auth 0 |>.2 hkey
  have hlift : Runs (lift (wallet.alloyWallet auth 0)) [] (.panic m) := by
    rw [hm]
    exact .done _
  exact ⟨_, m, runs_ask (.connect endpoint) () (runs_ask .getChainId 0 hlift.bind_panic)⟩

/-- A run that panics has sent nothing, and it panics for one of the reasons. -/
theorem panics_before_sending (wallet : WalletEnv) (env : DeployEnv Param Value)
    (activateEnv : ActivateEnv) (command : EstimateCommand) {log : RpcLog}
    {o : Outcome String Unit}
    (h : Runs (command.run (env.withWallet wallet) (activateEnv.withWallet wallet)) log o)
    (hpanic : o.IsPanic) : sent log = [] ∧ Panics env wallet command log := by
  have hC : ∀ log log', Panics env wallet command log' → Panics env wallet command (log ++ log') :=
    fun _ _ => .append
  have hpanics : PanicsOnly Request.IsSend (Panics env wallet command)
      (command.run (env.withWallet wallet) (activateEnv.withWallet wallet)) := by
    rcases command with cfg | cfg
    · refine .done_bind hC (fun h => ?_) fun contract => ?_
      · obtain ⟨e, hcheck⟩ := Outcome.isPanic_expect.1 h
        exact .check hcheck
      refine .done_bind hC (fun h => absurd h not_isPanic_findConstructor) fun constructor => ?_
      refine .done_bind hC (fun h => ?_) fun deployer => ?_
      · obtain ⟨call, e, hencode⟩ := isPanic_deployerArgs h
        exact .tooLong hencode
      refine (panicsOnly_connectWallet hC fun hkey => .deployKey hkey).bind hC quiet_connectWallet
        fun fromAddress => ?_
      refine panicsOnly_checkBalance.bind hC quiet_checkBalance fun _ => ?_
      rcases deployer with _ | deployer
      · exact noPanic_deployWithoutConstructor.panicsOnly
      · exact noPanic_deployWithDeployer.panicsOnly
    · exact panicsOnly_activateContract hC fun hkey => .activateKey hkey
  obtain ⟨hquiet, hpanics⟩ := wp_iff_runs.1 hpanics log o h hpanic
  exact ⟨sent_eq_nil hquiet, hpanics⟩

/-- The arguments of `cargo stylus deploy --wasm-file`, with a key of one byte. -/
def shortKeyConfig : DeployConfig :=
  { wasmFileConfig 0 with
    auth := { privateKeyPath := none, privateKey := some "0x61".toList, keystorePath := none,
              keystorePasswordPath := none } }

/-- No key is a file or a keystore. -/
def noFiles : WalletEnv where
  readToString _ := .error "No such file or directory"
  fromBytes _ := .ok (filled 20 1)
  decryptKeystore _ _ := .error "No such file or directory"

theorem shortKey_wrongLength : noFiles.WrongLength shortKeyConfig.auth :=
  ⟨"0x61".toList, [0x61], .given rfl (by decide), rfl, by decide⟩

theorem panics_before_sending_shortKey : ∃ log : RpcLog, sent log = [] ∧
    Panics readyEnv noFiles (.deploy shortKeyConfig) log := by
  obtain ⟨log, m, hconnect⟩ := @connectWallet_panics noFiles shortKeyConfig.auth
    shortKeyConfig.checkConfig.commonCfg.endpoint shortKey_wrongLength
  have hrun : Runs ((EstimateCommand.deploy shortKeyConfig).run (readyEnv.withWallet noFiles)
      (keystoreEnv.withWallet noFiles)) log (.panic m) := by
    have hcheck : (.expect "cargo stylus check failed" ((readyEnv.withWallet noFiles).check
        shortKeyConfig.checkConfig) : Outcome String ContractCheck) = .ok (.ready [0x61] 5) :=
      rfl
    have hnone : findConstructor (readyEnv.withWallet noFiles) shortKeyConfig = .ok none := rfl
    exact runs_lift_bind hcheck (runs_lift_bind hnone (runs_lift_bind rfl hconnect.bind_panic))
  exact ⟨log, panics_before_sending noFiles readyEnv keystoreEnv (.deploy shortKeyConfig) hrun
    (Outcome.isPanic_panic m)⟩

/-- Some run of `activate` panics exactly if the private key has the wrong length. -/
theorem activate_panics_iff (wallet : WalletEnv) (env : ActivateEnv) (cfg : ActivateConfig) :
    (∃ log o, Runs (activateContract (env.withWallet wallet) cfg) log o ∧ o.IsPanic) ↔
      wallet.WrongLength cfg.auth := by
  refine ⟨fun ⟨log, o, hrun, hpanic⟩ => ?_, fun hkey => ?_⟩
  · have hpanics : PanicsOnly Request.IsSend (fun _ => wallet.WrongLength cfg.auth)
        (activateContract (env.withWallet wallet) cfg) :=
      panicsOnly_activateContract (fun _ _ h => h) id
    exact (wp_iff_runs.1 hpanics log o hrun hpanic).2
  · obtain ⟨log, m, hrun⟩ := connectWallet_panics hkey
    exact ⟨log, .panic m, hrun.bind_panic, Outcome.isPanic_panic m⟩

end

/-! ## A bid that panics -/

theorem noPanic_callView {α : Type} {tx : TransactionRequest} {decode : Bytes → Except String α} :
    NoPanic (callView tx decode) := by
  refine noPanic_askWith fun response => ?_
  rcases response with e | errResp | returned
  · exact Outcome.not_isPanic_err _
  · exact Outcome.not_isPanic_err _
  · exact Outcome.not_isPanic_ofExcept _

theorem noPanic_getCacheManagerAddress {env : CacheEnv} :
    NoPanic (getCacheManagerAddress env) := by
  refine noPanic_callView.bind fun managers => ?_
  rcases managers.getLast? with _ | manager
  · exact noPanic_done (Outcome.not_isPanic_err _)
  · exact noPanic_done (Outcome.not_isPanic_ok _)

theorem not_isPanic_getMaxFeePerGasWei {env : CacheEnv} {fee : Option Text} :
    ¬(getMaxFeePerGasWei env fee).IsPanic := by
  unfold getMaxFeePerGasWei
  rcases fee with _ | fee
  · exact Outcome.not_isPanic_ok _
  · exact fun h => Outcome.not_isPanic_ofExcept _ (Outcome.isPanic_map.1 h)

theorem noPanic_callAndSend {env : CacheEnv} {fromAddress : Address} {tx : TransactionRequest} :
    NoPanic (callAndSend env fromAddress tx) := by
  refine (noPanic_askWith not_isPanic_callResult).bind fun rawOutput => ?_
  rcases rawOutput with err | ⟨⟩
  · exact noPanic_done (Outcome.not_isPanic_err _)
  · refine (noPanic_ask _).embed.bind fun txHash => (noPanic_ask _).embed.bind fun receipt => ?_
    exact noPanic_done (Outcome.not_isPanic_ok _)

/-- A bid that panics has sent nothing, and the private key has the wrong length. -/
theorem panicsOnly_placeBid {env : CacheEnv} {cfg : CacheBidConfig} :
    PanicsOnly NodeRequest.IsBid (fun _ => wallet.WrongLength cfg.auth)
      (placeBid (env.withWallet wallet) cfg) := by
  have hconnect : PanicsOnly NodeRequest.IsBid (fun _ => wallet.WrongLength cfg.auth)
      (ofRpc (connectWallet wallet.alloyWallet cfg.endpoint cfg.auth)) :=
    PanicsOnly.embed (panicsOnly_connectWallet (fun _ _ h => h) id)
  refine hconnect.bind (fun _ _ h => h) (avoids_embed quiet_connectWallet) fun fromAddress =>
    NoPanic.panicsOnly ?_
  refine noPanic_getCacheManagerAddress.bind fun manager => ?_
  refine (noPanic_lift not_isPanic_getMaxFeePerGasWei).embed.bind fun maxFee => ?_
  exact noPanic_callAndSend

/-- Some run of `cache bid` panics exactly if the private key has the wrong length. -/
theorem bid_panics_iff (wallet : WalletEnv) (env : CacheEnv) (cfg : CacheBidConfig) :
    (∃ log o, Runs (placeBid (env.withWallet wallet) cfg) log o ∧ o.IsPanic) ↔
      wallet.WrongLength cfg.auth := by
  refine ⟨fun ⟨log, o, hrun, hpanic⟩ => ?_, fun hkey => ?_⟩
  · exact (wp_iff_runs.1 panicsOnly_placeBid log o hrun hpanic).2
  · obtain ⟨log, m, hrun⟩ := connectWallet_panics hkey
    obtain ⟨log', -, hrun'⟩ := runs_ofRpc hrun
    exact ⟨log', .panic m, hrun'.bind_panic, Outcome.isPanic_panic m⟩

end CargoStylus
