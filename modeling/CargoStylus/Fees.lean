import CargoStylus.Activate

/-!
# The amount of the data fee

The node quotes the data fee of an activation. It is bumped by a percentage, and with the value
for the constructor it becomes the value of a transaction. All this is in machine words that
wrap around. The amount is exact in every run in which the node quotes the fee exactly if nothing
wraps, or no transaction has the fee (`exactFees_iff`).

A run of `deploy` starts with the check of the contract, which asks for the fee unless the
contract is active already (`CommandRuns`).
-/

namespace CargoStylus

open Rust Rust.Interaction Rust.Interaction.Prog

/-! ## The arithmetic -/

/-- What is left of a percentage after wrapping twice is exact only if nothing wrapped. -/
theorem percent_eq_iff {n m d p : ℕ} (hn : 100 ≤ n) (hm : 100 ≤ m) :
    d * (p % n) % m / 100 = d * p / 100 ↔ d = 0 ∨ p < n ∧ d * p < m := by
  refine ⟨fun h => ?_, fun h => ?_⟩
  · by_contra hwraps
    obtain ⟨hd, hwraps⟩ := not_or.1 hwraps
    have hle : d * (p % n) % m + 100 ≤ d * p := by
      have hmod := Nat.mod_le (d * (p % n)) m
      rcases Nat.lt_or_ge p n with hp | hp
      · have hge : m ≤ d * p := not_lt.1 fun hlt => hwraps ⟨hp, hlt⟩
        have hlt := Nat.mod_lt (d * p) (by omega : m > 0)
        have hdiv := Nat.div_add_mod (d * p) m
        have hquot : m * 1 ≤ m * (d * p / m) :=
          Nat.mul_le_mul_left m ((Nat.one_le_div_iff (by omega)).2 hge)
        rw [Nat.mod_eq_of_lt hp]
        omega
      · have hdiv := Nat.mod_add_div p n
        have hquot : n * 1 ≤ n * (p / n) :=
          Nat.mul_le_mul_left n ((Nat.one_le_div_iff (by omega)).2 hp)
        have hmul : d * (p % n) + d * (n * (p / n)) = d * p := by rw [← Nat.mul_add, hdiv]
        have hpos : n * 1 ≤ d * (n * (p / n)) :=
          hquot.trans (Nat.le_mul_of_pos_left _ (Nat.pos_of_ne_zero hd))
        omega
    omega
  · rcases h with rfl | ⟨hp, hd⟩
    · simp
    · rw [Nat.mod_eq_of_lt hp, Nat.mod_eq_of_lt hd]

/-- The fee with the bump, as a number. -/
def exactBump (dataFee : U256) (opts : DataFeeOpts) : ℕ :=
  dataFee.toNat * (100 + opts.dataFeeBumpPercent.toNat) / 100

/-- The fee that is computed, as a number. -/
theorem toNat_bumpedFee (dataFee : U256) (opts : DataFeeOpts) :
    (bumpedFee dataFee opts).toNat =
      dataFee.toNat * ((100 + opts.dataFeeBumpPercent.toNat) % 2 ^ 64) % 2 ^ 256 / 100 := by
  have hpercent : ((100 + opts.dataFeeBumpPercent).setWidth 256).toNat =
      (100 + opts.dataFeeBumpPercent.toNat) % 2 ^ 64 := by
    rw [BitVec.toNat_setWidth, BitVec.toNat_add]
    exact Nat.mod_eq_of_lt ((Nat.mod_lt _ (Nat.two_pow_pos 64)).trans (by decide))
  rw [bumpedFee, BitVec.toNat_udiv, BitVec.toNat_mul, hpercent]
  rfl

/-- Neither the percentage nor the fee with the bump wraps around, and with `value` it is a
word. -/
def FeeFits (dataFee : U256) (opts : DataFeeOpts) (value : U256) : Prop :=
  (dataFee = 0 ∨ 100 + opts.dataFeeBumpPercent.toNat < 2 ^ 64 ∧
    dataFee.toNat * (100 + opts.dataFeeBumpPercent.toNat) < 2 ^ 256) ∧
  exactBump dataFee opts + value.toNat < 2 ^ 256

/-- The fee is exact exactly if nothing wraps. -/
theorem charged_eq_iff {dataFee value : U256} {opts : DataFeeOpts} :
    (bumpedFee dataFee opts + value).toNat = exactBump dataFee opts + value.toNat ↔
      FeeFits dataFee opts value := by
  have hfee := toNat_bumpedFee dataFee opts
  have hzero : dataFee = 0 ↔ dataFee.toNat = 0 := by
    rw [← BitVec.toNat_inj]
    rfl
  have hiff := @percent_eq_iff (2 ^ 64) (2 ^ 256) dataFee.toNat
    (100 + opts.dataFeeBumpPercent.toNat) (by decide) (by decide)
  rw [← hfee, ← hzero] at hiff
  rw [FeeFits, ← hiff, BitVec.toNat_add]
  have hle : (bumpedFee dataFee opts).toNat ≤ exactBump dataFee opts := by
    rw [hfee]
    refine Nat.div_le_div_right ((Nat.mod_le _ _).trans (Nat.mul_le_mul_left _ (Nat.mod_le _ _)))
  have hlt := Nat.mod_lt ((bumpedFee dataFee opts).toNat + value.toNat) (Nat.two_pow_pos 256)
  refine ⟨fun h => ?_, fun h => ?_⟩
  · have hsum : (bumpedFee dataFee opts).toNat + value.toNat < 2 ^ 256 := by omega
    rw [Nat.mod_eq_of_lt hsum] at h
    exact ⟨Nat.add_right_cancel h, by omega⟩
  · have hbump : (bumpedFee dataFee opts).toNat = exactBump dataFee opts := h.1
    rw [hbump, Nat.mod_eq_of_lt h.2]

/-! ## The check -/

/-- What `check` reads besides the responses about the activation. -/
structure CheckEnv extends ActivateEnv where
  /-- The code of the contract, built and compressed. -/
  compile : CheckConfig → Except String Bytes
  /-- Whether a contract of that code is active. -/
  contractExists : Bytes → Except String Bool

/-- The endpoint of the old testnet, which is refused. -/
def oldTestnet : Text :=
  "https://stylus-testnet.arbitrum.io/rpc".toList

/-- Checks that a contract is valid and can be deployed onchain. Its requests are made through
`rpc`, and whether a contract of the code is active is what `contractExists` finds. -/
def checkWith {Req : Type} {Resp : Req → Type} (rpc : ∀ {α : Type}, Rpc α → Prog Req Resp String α)
    (env : ActivateEnv) (compile : CheckConfig → Except String Bytes)
    (contractExists : Bytes → Prog Req Resp String Bool) (cfg : CheckConfig) :
    Prog Req Resp String ContractCheck := do
  if cfg.commonCfg.endpoint = oldTestnet then
    done (.err ("The old Stylus testnet is no longer supported.\nPlease downgrade to " ++ red ++
      "cargo stylus version 0.2.1" ++ clear))
  else
    let code ← rpc (lift (.ofExcept (compile cfg)))
    rpc (ask (Request.connect cfg.commonCfg.endpoint))
    let active ← contractExists code
    if active then
      return .active code
    else
      let address := cfg.contractAddress.getD env.randomAddress
      let fee ← rpc (checkActivate env code address cfg.dataFee)
      return .ready code fee

/-- The check, where it is known whether a contract of the code is active. -/
def check (env : CheckEnv) (cfg : CheckConfig) : Rpc ContractCheck :=
  checkWith (fun p => p) env.toActivateEnv env.compile
    (fun code => lift (.ofExcept (env.contractExists code))) cfg

section

variable {env : CheckEnv} {cfg : CheckConfig}

/-- The check of any other endpoint. -/
theorem check_of_endpoint (h : cfg.commonCfg.endpoint ≠ oldTestnet) :
    check env cfg = (do
      let code ← lift (.ofExcept (env.compile cfg))
      ask (Request.connect cfg.commonCfg.endpoint)
      let active ← lift (.ofExcept (env.contractExists code))
      if active then
        return .active code
      else
        let address := cfg.contractAddress.getD env.randomAddress
        let fee ← checkActivate env.toActivateEnv code address cfg.dataFee
        return .ready code fee) :=
  if_neg h

/-- Nothing is asked for the old testnet. -/
theorem check_of_oldTestnet (h : cfg.commonCfg.endpoint = oldTestnet) :
    ∃ message, check env cfg = done (.err message) :=
  ⟨_, if_pos h⟩

/-- A check that returns a contract is not of the retired endpoint. -/
theorem endpoint_of_runs_check {log : RpcLog} {contract : ContractCheck}
    (h : Runs (check env cfg) log (.ok contract)) : cfg.commonCfg.endpoint ≠ oldTestnet := by
  intro hendpoint
  obtain ⟨message, hcheck⟩ := @check_of_oldTestnet env cfg hendpoint
  rw [hcheck] at h
  cases h

end

/-- With the result of the check. -/
def DeployEnv.withCheck {Param Value : Type} (env : DeployEnv Param Value)
    (result : Except String ContractCheck) : DeployEnv Param Value :=
  { env with check := fun _ => result }

/-- The runs of a command, a deployment with its check before it. -/
inductive CommandRuns {Param Value : Type} (deployEnv : DeployEnv Param Value) (env : CheckEnv) :
    EstimateCommand → RpcLog → Outcome String Unit → Prop
  | deploy {cfg : DeployConfig} {result : Except String ContractCheck} {log log' : RpcLog}
      {o : Outcome String Unit} (hcheck : Runs (check env cfg.checkConfig) log (.ofExcept result))
      (hdeploy : Runs (CargoStylus.deploy (deployEnv.withCheck result) cfg) log' o) :
      CommandRuns deployEnv env (.deploy cfg) (log ++ log') o
  | activate {cfg : ActivateConfig} {log : RpcLog} {o : Outcome String Unit}
      (hactivate : Runs (activateContract env.toActivateEnv cfg) log o) :
      CommandRuns deployEnv env (.activate cfg) log o

/-! ## What the node quotes -/

namespace Request

/-- The request asks for the data fee. -/
def IsQuote : Request → Prop
  | callWithCode _ _ _ => True
  | _ => False

end Request

/-- The data fee in a response. -/
def quoteOf : (Σ r : Request, Except String r.Response) → Option U256
  | ⟨.callWithCode _ _ _, .ok returned⟩ => (decodeDataFee returned).toOption
  | _ => none

/-- The data fee that the node quotes in a run. -/
def quotedFee (log : RpcLog) : Option U256 :=
  log.findSome? quoteOf

theorem quotedFee_eq_none {log : RpcLog} (h : ∀ entry ∈ log, ¬entry.1.IsQuote) :
    quotedFee log = none := by
  refine List.findSome?_eq_none_iff.2 fun entry hentry => ?_
  obtain ⟨r, x⟩ := entry
  have hr := h ⟨r, x⟩ hentry
  cases r <;> first | rfl | exact absurd trivial hr

theorem quotedFee_append (log log' : RpcLog) :
    quotedFee (log ++ log') = (quotedFee log).or (quotedFee log') :=
  List.findSome?_append

/-- The data fee is not asked for. -/
abbrev Unquoted {α : Type} (p : Rpc α) : Prop :=
  Avoids Request.IsQuote p

section

variable {Param Value : Type} {deployEnv : DeployEnv Param Value} {cfg : DeployConfig}

theorem unquoted_lift {α : Type} (o : Outcome String α) : Unquoted (lift o) :=
  avoids_done o

theorem unquoted_connectWallet {alloyWallet : AlloyWallet} {endpoint : Text} {auth : AuthOpts} :
    Unquoted (connectWallet alloyWallet endpoint auth) := by
  refine (avoids_ask not_false).bind fun _ => (avoids_ask not_false).bind fun chainId => ?_
  refine (unquoted_lift _).bind fun sender => (avoids_ask not_false).bind fun _ => ?_
  exact unquoted_lift (.ok sender)

theorem unquoted_runTx {name : String} {tx : TransactionRequest} {gas : Option U64}
    {maxFee : U128} : Unquoted (runTx name tx gas maxFee) :=
  (avoids_ask not_false).bind fun _ => avoids_askWith not_false _

theorem unquoted_deployContract {code : Bytes} {sender : Address} :
    Unquoted (deployContract deployEnv cfg code sender) := by
  refine (avoids_ask not_false).bind fun gas => (avoids_ask not_false).bind fun gasPrice => ?_
  split_ifs
  · exact (avoids_ask not_false).bind fun nonce => unquoted_lift (.ok _)
  · exact (unquoted_lift _).bind fun fee => unquoted_runTx.bind fun receipt => unquoted_lift _

theorem unquoted_activate {sender contractAddr : Address} {dataFee : U256} :
    Unquoted (activate deployEnv cfg sender contractAddr dataFee) := by
  refine (avoids_askWith not_false _).bind fun gas => (avoids_ask not_false).bind fun price => ?_
  exact (unquoted_lift _).bind fun fee => unquoted_runTx.bind fun receipt => unquoted_lift (.ok ())

theorem unquoted_deployWithDeployer {deployer : DeployerArgs} {sender : Address} :
    Unquoted (deployWithDeployer deployEnv cfg deployer sender) := by
  refine (avoids_askWith not_false _).bind fun gas => (avoids_ask not_false).bind fun price => ?_
  split_ifs
  · exact unquoted_lift (.ok ())
  · refine (unquoted_lift _).bind fun fee => unquoted_runTx.bind fun receipt => ?_
    exact (unquoted_lift _).bind fun _ => unquoted_lift (.ok ())

theorem unquoted_checkBalance {contract : ContractCheck} {sender : Address} {dataFee : U256} :
    Unquoted (checkBalance deployEnv cfg contract sender dataFee) := by
  unfold checkBalance
  rcases contract with code | ⟨code, fee⟩
  · exact unquoted_lift (.ok ())
  · refine (avoids_askWith not_false _).bind fun balance => ?_
    split_ifs
    · exact unquoted_lift _
    · exact unquoted_lift (.ok ())

theorem unquoted_deployWithoutConstructor {contract : ContractCheck} {sender : Address}
    {dataFee : U256} :
    Unquoted (deployWithoutConstructor deployEnv cfg contract sender dataFee) := by
  refine unquoted_deployContract.bind fun contractAddr => ?_
  rcases contract with code | ⟨code, fee⟩
  · dsimp only
    split_ifs
    · exact unquoted_lift (.ok ())
    · exact unquoted_lift (.ok ())
  · dsimp only
    split_ifs
    · exact unquoted_lift (.ok ())
    · exact unquoted_lift (.ok ())
    · exact unquoted_activate

/-- After its check a deployment does not ask for the fee again. -/
theorem unquoted_deploy : Unquoted (deploy deployEnv cfg) := by
  refine (unquoted_lift _).bind fun contract => (unquoted_lift _).bind fun constructor => ?_
  refine (unquoted_lift _).bind fun deployer => unquoted_connectWallet.bind fun sender => ?_
  refine unquoted_checkBalance.bind fun _ => ?_
  rcases deployer with _ | deployer
  · exact unquoted_deployWithoutConstructor
  · exact unquoted_deployWithDeployer

end

/-! ## What the check finds -/

/-- A contract of that code, with the fee that the node quotes unless it is active. -/
def checkedContract (code : Bytes) (opts : DataFeeOpts) : Option U256 → ContractCheck
  | some dataFee => .ready code (bumpedFee dataFee opts)
  | none => .active code

variable {env : CheckEnv}

/-- The fee of an activation is the one that the node quotes, with the bump. -/
def Quotes (opts : DataFeeOpts) (log : RpcLog) (o : Outcome String U256) : Prop :=
  sent log = [] ∧
    ∀ fee, o = .ok fee → ∃ dataFee, quotedFee log = some dataFee ∧ fee = bumpedFee dataFee opts

/-- The fee that is quoted is the one the node answered. -/
theorem checkActivate_spec {env : ActivateEnv} {code : Bytes} {address : Address}
    {opts : DataFeeOpts} : wp (checkActivate env code address opts) (Quotes opts) := by
  refine wp_bind_of (P := fun log o => sent log = [] ∧
    ∀ dataFee, o = .ok dataFee → quotedFee log = some dataFee) (fun response => ⟨rfl, ?_⟩)
    (fun log dataFee h => ?_) (fun log e h => ⟨h.1, nofun⟩) (fun log m h => ⟨h.1, nofun⟩)
  · intro dataFee h
    have hdecode := Outcome.ofExcept_eq_ok.1 (Outcome.mapErr_eq_ok.1 h)
    rcases response with e | returned
    · cases hdecode
    · have hdecode : decodeDataFee returned = .ok dataFee := hdecode
      rw [quotedFee, List.findSome?_singleton, quoteOf, hdecode]
      rfl
  · refine ⟨by rw [List.append_nil]; exact h.1, fun fee hfee => ⟨dataFee, ?_, ?_⟩⟩
    · rw [List.append_nil]
      exact h.2 dataFee rfl
    · exact (Outcome.ok.inj hfee).symm

/-- Nothing is sent, and no fee is quoted. -/
def Silent (log : RpcLog) : Prop :=
  sent log = [] ∧ quotedFee log = none

theorem Silent.sent_append {log log' : RpcLog} (h : Silent log) :
    sent (log ++ log') = sent log' := by
  rw [CargoStylus.sent_append, h.1, List.nil_append]

theorem Silent.quotedFee_append {log log' : RpcLog} (h : Silent log) :
    quotedFee (log ++ log') = quotedFee log' := by
  rw [CargoStylus.quotedFee_append, h.2, Option.none_or]

/-- `Q` holds of silent runs that end without a value, and stays when something silent is done
before. -/
structure SilentClosed {β : Type} (Q : RpcLog → Outcome String β → Prop) : Prop where
  nothing {log : RpcLog} {o : Outcome String β} : Silent log → ¬o.IsOk → Q log o
  prepend {log log' : RpcLog} {o : Outcome String β} : Silent log → Q log' o → Q (log ++ log') o

section

variable {α β : Type} {Q : RpcLog → Outcome String β → Prop}

theorem SilentClosed.bind (hQ : SilentClosed Q) {p : Rpc α} {f : α → Rpc β} (hquiet : Quiet p)
    (hunquoted : Unquoted p) (hf : ∀ a, wp (f a) Q) : wp (p >>= f) Q := by
  have hsilent : wp p fun log _ => Silent log :=
    wp_mono (wp_and hquiet hunquoted) fun _ _ h => ⟨sent_eq_nil h.1, quotedFee_eq_none h.2⟩
  refine wp_bind_of hsilent (fun log a hlog => ?_) (fun log e hlog => ?_) (fun log m hlog => ?_)
  · exact wp_mono (hf a) fun _ _ h => hQ.prepend hlog h
  · exact hQ.nothing hlog (Outcome.not_isOk_err e)
  · exact hQ.nothing hlog (Outcome.not_isOk_panic m)

theorem SilentClosed.lift_bind (hQ : SilentClosed Q) {o : Outcome String α} {f : α → Rpc β}
    (hf : ∀ a, o = .ok a → wp (f a) Q) : wp (lift o >>= f) Q := by
  rcases o with a | e | m
  · exact hf a rfl
  · exact hQ.nothing ⟨rfl, rfl⟩ (Outcome.not_isOk_err e)
  · exact hQ.nothing ⟨rfl, rfl⟩ (Outcome.not_isOk_panic m)

end

/-- The contract that a check finds. -/
def Finds (env : CheckEnv) (cfg : CheckConfig) (log : RpcLog) (o : Outcome String ContractCheck) :
    Prop :=
  sent log = [] ∧ ∀ contract, o = .ok contract → ∃ code, env.compile cfg = .ok code ∧
    env.contractExists code = .ok (quotedFee log).isNone ∧
    contract = checkedContract code cfg.dataFee (quotedFee log)

theorem silentClosed_finds (env : CheckEnv) (cfg : CheckConfig) :
    SilentClosed (Finds env cfg) where
  nothing hlog ho := ⟨hlog.1, fun contract hcontract => absurd ⟨contract, hcontract⟩ ho⟩
  prepend hlog h := by
    refine ⟨hlog.sent_append.trans h.1, ?_⟩
    rw [hlog.quotedFee_append]
    exact h.2

/-- What a check has asked for and found. -/
theorem check_spec {cfg : CheckConfig} : wp (check env cfg) (Finds env cfg) := by
  have hQ := silentClosed_finds env cfg
  by_cases hendpoint : cfg.commonCfg.endpoint = oldTestnet
  · obtain ⟨message, hcheck⟩ := @check_of_oldTestnet env cfg hendpoint
    rw [hcheck]
    exact ⟨rfl, nofun⟩
  rw [check_of_endpoint hendpoint]
  refine hQ.lift_bind fun code hcode => hQ.bind (avoids_ask nofun) (avoids_ask not_false) ?_
  refine fun _ => hQ.lift_bind fun active hactive => ?_
  have hcode := Outcome.ofExcept_eq_ok.1 hcode
  have hactive := Outcome.ofExcept_eq_ok.1 hactive
  split_ifs with h
  · refine ⟨rfl, fun contract hcontract => ⟨code, hcode, ?_, (Outcome.ok.inj hcontract).symm⟩⟩
    rw [hactive, h]
    rfl
  · refine wp_bind_of checkActivate_spec (fun log fee hfee => ?_)
      (fun log e h => ⟨h.1, nofun⟩) (fun log m h => ⟨h.1, nofun⟩)
    obtain ⟨dataFee, hquoted, hbumped⟩ := hfee.2 fee rfl
    refine ⟨by rw [List.append_nil]; exact hfee.1, fun contract hcontract => ?_⟩
    obtain rfl := Outcome.ok.inj hcontract
    rw [List.append_nil, hquoted]
    refine ⟨code, hcode, ?_, congrArg (ContractCheck.ready code) hbumped⟩
    rw [hactive, Bool.eq_false_iff.2 h]
    rfl

/-! ## What is to be paid -/

/-- The value for the constructor that a command adds to the fee. -/
def EstimateCommand.value : EstimateCommand → U256
  | deploy cfg => cfg.constructorValue
  | activate _ => 0

/-- How the command bumps the data fee. -/
def EstimateCommand.dataFeeOpts : EstimateCommand → DataFeeOpts
  | deploy cfg => cfg.checkConfig.dataFee
  | activate cfg => cfg.dataFee

/-- With a quote, each transaction of a run that calls a contract has the exact amount. -/
def ExactFee (command : EstimateCommand) (dataFee : U256) (log : RpcLog) : Prop :=
  quotedFee log = some dataFee → ∀ tx ∈ sent log, tx.kind ≠ some .create →
    tx.wei = exactBump dataFee command.dataFeeOpts + command.value.toNat

/-- With that fee a run can send a transaction that calls a contract. -/
def CanCharge {Param Value : Type} (deployEnv : DeployEnv Param Value) (env : CheckEnv)
    (dataFee : U256) : EstimateCommand → Prop
  | .deploy cfg => cfg.estimateGas = false ∧
      cfg.checkConfig.commonCfg.endpoint ≠ oldTestnet ∧ ∃ code constructor,
      env.compile cfg.checkConfig = .ok code ∧ env.contractExists code = .ok false ∧
      findConstructor deployEnv cfg = .ok constructor ∧
      CanSend deployEnv cfg (.ready code (bumpedFee dataFee cfg.checkConfig.dataFee)) constructor ∧
      (constructor = none → cfg.noActivate = false)
  | .activate cfg => ∃ chainId sender, env.alloyWallet cfg.auth chainId = .ok sender

variable {Param Value : Type} {deployEnv : DeployEnv Param Value}

/-- A contract is activated with the fee that the node quotes, with the bump. -/
def Activates (cfg : ActivateConfig) (log : RpcLog) (_ : Outcome String Unit) : Prop :=
  ∀ tx ∈ sent log, ∃ dataFee, quotedFee log = some dataFee ∧
    tx.wei = (bumpedFee dataFee cfg.dataFee).toNat

theorem silentClosed_activates (cfg : ActivateConfig) : SilentClosed (Activates cfg) where
  nothing hlog _ tx htx := by
    rw [hlog.1] at htx
    cases htx
  prepend hlog h := by
    rw [Activates, hlog.sent_append, hlog.quotedFee_append]
    exact h

theorem quiet_printEstimate {estimateGas : Bool} {activateCall : TransactionRequest} :
    Quiet (printEstimate estimateGas activateCall) := by
  unfold printEstimate
  split_ifs
  · refine (avoids_ask nofun).bind fun gas => (avoids_ask nofun).bind fun gasPrice => ?_
    exact quiet_lift (.ok ())
  · exact quiet_lift (.ok ())

/-- An activation carries the fee that was quoted in the run. -/
theorem activateContract_spec {env : ActivateEnv} {cfg : ActivateConfig} :
    wp (activateContract env cfg) (Activates cfg) := by
  have hQ := silentClosed_activates cfg
  refine hQ.bind quiet_connectWallet unquoted_connectWallet fun sender => ?_
  refine hQ.bind (avoids_ask nofun) (avoids_ask not_false) fun code => ?_
  refine wp_bind_of checkActivate_spec (fun log fee h => ?_) (fun log e h => ?_) (fun log m h => ?_)
  · obtain ⟨dataFee, hquoted, rfl⟩ := h.2 fee rfl
    have hclosed : QuietClosed fun log (_ : Outcome String Unit) =>
        ∀ tx ∈ sent log, tx.wei = (bumpedFee dataFee cfg.dataFee).toNat :=
      quietClosed_sent
        (P := fun txs => ∀ tx ∈ txs, tx.wei = (bumpedFee dataFee cfg.dataFee).toNat) nofun
    refine wp_mono (hclosed.bind quiet_printEstimate fun _ => ?_) fun log' o hlog' tx htx => ?_
    · refine wp_sent_bind (P := fun txs => ∀ tx ∈ txs, tx.wei = _) (fun response tx htx => ?_)
        fun txHash => (avoids_ask nofun).bind fun receipt => quiet_lift (.ok ())
      obtain rfl := List.mem_singleton.1 htx
      exact wei_activationTx
    · rw [sent_append, h.1, List.nil_append] at htx
      refine ⟨dataFee, ?_, hlog' tx htx⟩
      rw [quotedFee_append, hquoted, Option.some_or]
  · intro tx htx
    rw [h.1] at htx
    cases htx
  · intro tx htx
    rw [h.1] at htx
    cases htx

/-! ## When the fee is exact -/

/-- The response that quotes a data fee. -/
def quoteResponse (dataFee : U256) : Bytes :=
  List.replicate 32 0 ++ be 32 dataFee

theorem decodeDataFee_quoteResponse (dataFee : U256) :
    decodeDataFee (quoteResponse dataFee) = .ok dataFee := by
  have hlen : 64 ≤ (quoteResponse dataFee).length := by simp [quoteResponse]
  have hdrop : (quoteResponse dataFee).drop 32 = be 32 dataFee ++ [] := by
    rw [quoteResponse, List.append_nil]
    exact List.drop_left' List.length_replicate
  rw [decodeDataFee_of_le _ hlen, hdrop, readWord_be]

theorem runs_checkActivate (env : ActivateEnv) (code : Bytes) (address : Address)
    (opts : DataFeeOpts) {returned : Bytes} {dataFee : U256}
    (h : decodeDataFee returned = .ok dataFee) : ∃ log, sent log = [] ∧
      quotedFee log = some dataFee ∧
      Runs (checkActivate env code address opts) log (.ok (bumpedFee dataFee opts)) := by
  have hdecode : Outcome.mapErr activationError
      (.ofExcept ((.ok returned : Except String Bytes) >>= decodeDataFee)) = .ok dataFee :=
    congrArg (fun r => Outcome.mapErr activationError (.ofExcept r)) h
  refine ⟨[⟨.callWithCode _ address code, .ok returned⟩], rfl, ?_,
    Runs.bind (Runs.askWith hdecode) (.done _)⟩
  rw [quotedFee, List.findSome?_singleton, quoteOf, h]
  rfl

theorem runs_lift_bind {α β : Type} {o : Outcome String α} {f : α → Rpc β} {a : α}
    {log : RpcLog} {o' : Outcome String β} (h : o = .ok a) (hf : Runs (f a) log o') :
    Runs (lift o >>= f) log o' := by
  subst h
  exact hf

theorem runs_check {cfg : CheckConfig} {code : Bytes}
    (hendpoint : cfg.commonCfg.endpoint ≠ oldTestnet) (hcode : env.compile cfg = .ok code)
    (hactive : env.contractExists code = .ok false) (dataFee : U256) :
    ∃ log, sent log = [] ∧ quotedFee log = some dataFee ∧
      Runs (check env cfg) log (.ok (.ready code (bumpedFee dataFee cfg.dataFee))) := by
  obtain ⟨log, hsent, hquoted, hrun⟩ := runs_checkActivate env.toActivateEnv code
    (cfg.contractAddress.getD env.randomAddress) cfg.dataFee (decodeDataFee_quoteResponse dataFee)
  refine ⟨⟨.connect cfg.commonCfg.endpoint, .ok ()⟩ :: (log ++ []), ?_, ?_, ?_⟩
  · rw [sent_cons, List.append_nil, hsent]
    rfl
  · rw [List.append_nil]
    exact hquoted
  · rw [check_of_endpoint hendpoint]
    refine runs_lift_bind (Outcome.ofExcept_eq_ok.2 hcode) (runs_ask (.connect _) () ?_)
    exact runs_lift_bind (Outcome.ofExcept_eq_ok.2 hactive) (hrun.bind (.done _))

section

variable {cfg : DeployConfig} {contract : ContractCheck} {log : RpcLog}

/-- A call that a deployment sends has the fee and the value. -/
theorem value_of_plan (hcheck : deployEnv.check cfg.checkConfig = .ok contract)
    (hplan : DeployPlan deployEnv cfg log) {tx : TransactionRequest} (htx : tx ∈ sent log)
    (hkind : tx.kind ≠ some .create) :
    tx.value = some (contract.suggestFee + cfg.constructorValue) ∧ cfg.estimateGas = false ∧
      ∃ constructor, findConstructor deployEnv cfg = .ok constructor ∧
        (constructor = none → cfg.noActivate = false) := by
  rcases hplan with h | @⟨contract', sender, gas, maxFee, -, -, -, h⟩ |
    @⟨code, fee, sender, address, gas, gas', maxFee, maxFee', before, after, txHash, receipt,
      hcheck', hnone, hest, hactivate, rfl, hbefore, -, -, hafter⟩ |
    ⟨hcheck', hsome, hparse, hest, h⟩
  · rw [h] at htx
    cases htx
  · rw [h] at htx
    obtain rfl := List.mem_singleton.1 htx
    rw [withFee_kind] at hkind
    exact absurd rfl hkind
  · have hsent : sent (before ++
        ⟨.sendTransaction ((createTx sender code).withFee gas maxFee), .ok txHash⟩ ::
        ⟨.getReceipt txHash, .ok receipt⟩ :: after) = (createTx sender code).withFee gas maxFee ::
        [(activationTx sender address (fee + cfg.constructorValue)).withFee gas' maxFee'] := by
      simp [hbefore, hafter, Request.sends]
    obtain rfl := Except.ok.inj (hcheck.symm.trans hcheck')
    rw [hsent] at htx
    rcases List.mem_cons.1 htx with rfl | htx
    · rw [withFee_kind] at hkind
      exact absurd rfl hkind
    · obtain rfl := List.mem_singleton.1 htx
      exact ⟨withFee_value _ gas' maxFee', hest, none, hnone, fun _ => hactivate⟩
  · obtain rfl := Except.ok.inj (hcheck.symm.trans hcheck')
    rw [h] at htx
    obtain rfl := List.mem_singleton.1 htx
    refine ⟨?_, hest, _, hsome, fun hnone => absurd hnone (Option.some_ne_none _)⟩
    rw [withFee_value, ← (parseConstructorArgs_eq_ok hparse).2.2.2.1]
    rfl

/-- Where the contract is to be activated or has a constructor, a call is planned. -/
theorem call_of_plan {constructor : Option (Constructor Param)} {code : Bytes} {fee : U256}
    (hfind : findConstructor deployEnv cfg = .ok constructor)
    (hactivate : constructor = none → cfg.noActivate = false)
    (hplan : DeployPlan deployEnv cfg log)
    (hlen : (sent log).length = planned cfg (.ready code fee) constructor) :
    ∃ tx ∈ sent log, tx.kind ≠ some .create := by
  rcases hplan with h | @⟨contract', sender, gas, maxFee, -, hnone, -, h⟩ |
    @⟨code, fee, sender, address, gas, gas', maxFee, maxFee', before, after, txHash, receipt,
      hcheck', hnone, hest, hactivate, rfl, hbefore, -, -, hafter⟩ |
    @⟨_, c, deployer, sender, gas, maxFee, hcheck', hsome, hparse, hest, h⟩
  · rw [h] at hlen
    exact absurd hlen planned_pos.ne
  · obtain rfl := Outcome.ok.inj (hfind.symm.trans hnone)
    rw [h] at hlen
    simp [planned, hactivate rfl] at hlen
  · refine ⟨(activationTx sender address (fee + cfg.constructorValue)).withFee gas' maxFee', ?_, ?_⟩
    · simp [hafter, Request.sends]
    · rw [withFee_kind]
      exact fun hkind => by cases hkind
  · have hmem : (deployerTx sender deployer).withFee gas maxFee ∈ sent log :=
      h ▸ List.mem_cons_self
    refine ⟨(deployerTx sender deployer).withFee gas maxFee, hmem, ?_⟩
    rw [withFee_kind]
    exact fun hkind => by cases hkind

end

/-- A value that is the fee with the bump and another one is exact if they fit, and the other way
round. -/
theorem wei_eq_iff {tx : TransactionRequest} {dataFee value : U256} {opts : DataFeeOpts}
    (h : tx.value = some (bumpedFee dataFee opts + value)) :
    tx.wei = exactBump dataFee opts + value.toNat ↔ FeeFits dataFee opts value := by
  rw [TransactionRequest.wei, h]
  exact charged_eq_iff

/-- If the fee fits, a deployment has the exact amount. -/
theorem exactFee_deploy {cfg : DeployConfig} {dataFee : U256} {result : Except String ContractCheck}
    {log log' : RpcLog} {o : Outcome String Unit}
    (hcheck : Runs (check env cfg.checkConfig) log (.ofExcept result))
    (hdeploy : Runs (deploy (deployEnv.withCheck result) cfg) log' o)
    (hfits : CanCharge deployEnv env dataFee (.deploy cfg) →
      FeeFits dataFee cfg.checkConfig.dataFee cfg.constructorValue) :
    ExactFee (.deploy cfg) dataFee (log ++ log') := by
  intro hquoted tx htx hkind
  obtain ⟨hquiet, hfinds⟩ := wp_iff_runs.1 check_spec log _ hcheck
  have hunquoted := quotedFee_eq_none (wp_iff_runs.1 unquoted_deploy log' o hdeploy)
  rw [quotedFee_append, hunquoted, Option.or_none] at hquoted
  rw [sent_append, hquiet, List.nil_append] at htx
  rcases result with e | contract
  · have hnothing : Quiet (deploy (deployEnv.withCheck (.error e)) cfg) :=
      quiet_lift_bind fun contract hcontract => nomatch hcontract
    rw [sent_eq_nil (wp_iff_runs.1 hnothing log' o hdeploy)] at htx
    cases htx
  · obtain ⟨code, hcode, hactive, rfl⟩ := hfinds contract rfl
    rw [hquoted] at hactive hdeploy
    obtain ⟨hvalue, hest, constructor, hfind, hactivate⟩ :=
      value_of_plan rfl (deploy_plan _ cfg hdeploy).1 htx hkind
    have hsend := canSend_of_sent rfl hfind hdeploy (List.ne_nil_of_mem htx)
    exact (wei_eq_iff hvalue).2 (hfits ⟨hest, endpoint_of_runs_check hcheck, code, constructor,
      hcode, hactive, hfind, ⟨hsend.args, hsend.pay.wallet, hsend.pay.maxFee⟩, hactivate⟩)

/-- A deployment that can send a call has some run that does. -/
theorem feeFits_of_deploy {cfg : DeployConfig} {dataFee : U256}
    (hexact : ∀ log o, CommandRuns deployEnv env (.deploy cfg) log o →
      ExactFee (.deploy cfg) dataFee log)
    (hcan : CanCharge deployEnv env dataFee (.deploy cfg)) :
    FeeFits dataFee cfg.checkConfig.dataFee cfg.constructorValue := by
  obtain ⟨hest, hendpoint, code, constructor, hcode, hactive, hfind, hsend, hactivate⟩ := hcan
  obtain ⟨log, hsent, hquoted, hcheck⟩ := runs_check hendpoint hcode hactive dataFee
  have hfind : findConstructor (deployEnv.withCheck
      (.ok (.ready code (bumpedFee dataFee cfg.checkConfig.dataFee)))) cfg = .ok constructor :=
    hfind
  obtain ⟨_, hlen, log', rfl, hdeploy⟩ := reaches_deploy rfl hfind hsend.args hest
    ⟨hsend.pay.wallet, hsend.pay.maxFee⟩
  have hplan := (deploy_plan _ cfg hdeploy).1
  obtain ⟨tx, htx, hkind⟩ := call_of_plan hfind hactivate hplan hlen
  have hvalue := (value_of_plan rfl hplan htx hkind).1
  refine (wei_eq_iff hvalue).1 (hexact _ _ (.deploy hcheck hdeploy) ?_ tx ?_ hkind)
  · rw [quotedFee_append, hquoted, Option.some_or]
  · rw [sent_append, hsent]
    exact htx

/-- With a wallet the activation is sent in some run, with any fee that the node quotes. -/
theorem runs_activateContract {env : ActivateEnv} {cfg : ActivateConfig} {chainId : U64}
    {sender : Address} (hwallet : env.alloyWallet cfg.auth chainId = .ok sender) (dataFee : U256) :
    ∃ log, quotedFee log = some dataFee ∧
      sent log = [activationTx sender cfg.address (bumpedFee dataFee cfg.dataFee)] ∧
      Runs (activateContract env cfg) log (.ok ()) := by
  obtain ⟨log, hsent, hconnect⟩ :=
    @reaches_connectWallet env.alloyWallet cfg.commonCfg.endpoint _ _ _ hwallet
  have hunquoted := quotedFee_eq_none (wp_iff_runs.1 unquoted_connectWallet log _ hconnect)
  obtain ⟨log', hsent', hquoted, hcheck⟩ := runs_checkActivate env [] cfg.address cfg.dataFee
    (decodeDataFee_quoteResponse dataFee)
  let activateCall := activationTx sender cfg.address (bumpedFee dataFee cfg.dataFee)
  have hsend : Reaches (do
      printEstimate cfg.estimateGas activateCall
      let txHash ← ask (Request.sendTransaction activateCall)
      let _ ← ask (Request.getReceipt txHash)
      return ()) [activateCall] () := by
    refine reaches_printEstimate.bind (.ask_bind (.sendTransaction _) (filled 32 0) ?_)
    exact .ask_bind (.getReceipt _) (deployedReceipt sender) (reaches_lift rfl)
  obtain ⟨log'', hsent'', hrest⟩ := hsend
  refine ⟨log ++ ⟨.getCodeAt cfg.address, .ok []⟩ :: (log' ++ log''), ?_, ?_,
    hconnect.bind (runs_ask (.getCodeAt _) [] (hcheck.bind hrest))⟩
  · have hcode : quotedFee (⟨.getCodeAt cfg.address, .ok []⟩ :: (log' ++ log'')) =
        quotedFee (log' ++ log'') :=
      rfl
    rw [quotedFee_append, hunquoted, Option.none_or, hcode, quotedFee_append, hquoted,
      Option.some_or]
  · rw [sent_append, hsent, sent_cons, sent_append, hsent', hsent'']
    rfl

theorem feeFits_of_activate {cfg : ActivateConfig} {dataFee : U256}
    (hexact : ∀ log o, CommandRuns deployEnv env (.activate cfg) log o →
      ExactFee (.activate cfg) dataFee log)
    (hcan : CanCharge deployEnv env dataFee (.activate cfg)) :
    FeeFits dataFee cfg.dataFee 0 := by
  obtain ⟨chainId, sender, hwallet⟩ := hcan
  obtain ⟨log, hquoted, hsent, hrun⟩ := runs_activateContract hwallet dataFee
  have hvalue : (activationTx sender cfg.address (bumpedFee dataFee cfg.dataFee)).value =
      some (bumpedFee dataFee cfg.dataFee + 0) :=
    congrArg some (BitVec.add_zero _).symm
  refine (wei_eq_iff hvalue).1 (hexact log _ (.activate hrun) hquoted _ ?_ ?_)
  · rw [hsent]
    exact List.mem_cons_self
  · exact fun hkind => by cases hkind

/-- An activation with a fee that fits is exact. -/
theorem exactFee_activate {cfg : ActivateConfig} {dataFee : U256} {log : RpcLog}
    {o : Outcome String Unit} (hrun : Runs (activateContract env.toActivateEnv cfg) log o)
    (hfits : CanCharge deployEnv env dataFee (.activate cfg) → FeeFits dataFee cfg.dataFee 0) :
    ExactFee (.activate cfg) dataFee log := by
  intro hquoted tx htx _
  obtain ⟨dataFee', hquoted', hwei⟩ := wp_iff_runs.1 activateContract_spec log o hrun tx htx
  obtain rfl := Option.some.inj (hquoted.symm.trans hquoted')
  have hcan : CanCharge deployEnv env dataFee (.activate cfg) := by
    by_contra hnone
    have hquiet := quiet_activateContract fun chainId ⟨sender, hwallet⟩ =>
      hnone ⟨chainId, sender, hwallet⟩
    rw [sent_eq_nil (wp_iff_runs.1 hquiet log o hrun)] at htx
    cases htx
  rw [hwei, ← BitVec.add_zero (bumpedFee dataFee cfg.dataFee)]
  exact charged_eq_iff.2 (hfits hcan)

/-- In every run in which the node quotes the fee, the calls that are sent have the exact amount
exactly if nothing wraps around, or no call can be sent. -/
theorem exactFees_iff (deployEnv : DeployEnv Param Value) (env : CheckEnv)
    (command : EstimateCommand) (dataFee : U256) :
    (∀ log o, CommandRuns deployEnv env command log o → ExactFee command dataFee log) ↔
      (CanCharge deployEnv env dataFee command →
        FeeFits dataFee command.dataFeeOpts command.value) := by
  rcases command with cfg | cfg
  · refine ⟨feeFits_of_deploy, fun hfits log o hrun => ?_⟩
    rcases hrun with ⟨hcheck, hdeploy⟩ | _
    exact exactFee_deploy hcheck hdeploy hfits
  · refine ⟨feeFits_of_activate, fun hfits log o hrun => ?_⟩
    rcases hrun with _ | ⟨hactivate⟩
    exact exactFee_activate hactivate hfits

/-- The arguments of `cargo stylus activate --data-fee-bump-percent` with the largest number. -/
def wrappingConfig : ActivateConfig :=
  { estimateConfig with
    dataFee := { dataFeeBumpPercent := BitVec.allOnes 64 }, estimateGas := false }

/-- A project with a code of one byte, which is not on the chain. -/
def keystoreCheckEnv : CheckEnv where
  toActivateEnv := keystoreEnv
  compile _ := .ok [0x61]
  contractExists _ := .ok false

/-- A data fee of 100 Wei becomes 99 Wei. -/
theorem activate_wraps :
    ¬∀ (command : EstimateCommand) (dataFee : U256) log o,
      CommandRuns readyEnv keystoreCheckEnv command log o → ExactFee command dataFee log := by
  intro hexact
  have hfits := feeFits_of_activate (hexact (.activate wrappingConfig) 100)
    ⟨0, filled 20 1, rfl⟩
  exact absurd hfits.1 (by decide)

end CargoStylus
