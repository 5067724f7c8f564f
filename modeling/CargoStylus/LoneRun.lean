import CargoStylus.InitCode
import CargoStylus.SharedChain

/-!
# Running alone on the chain

A command that is alone on the chain, and whose transactions are taken and run, comes to its end.
`Alone env Lapses s t p txs a` says that in some run from the chain `s` to the chain `t` the program
`p` sends `txs` and returns `a`. Each part of the commands has such a run : what is asked leaves the
chain as it is, and a creation and an activation leave what they are for (`alone_deployContract`,
`alone_activate`).
-/

namespace CargoStylus

open Rust Rust.Interaction Rust.Interaction.Prog

namespace Chain

variable {env : ChainEnv} {Lapses : B256 → Prop} {s t u : ChainState} {tx : TransactionRequest}
  {receipt : TransactionReceipt} {p : NodeRpc Unit}

/-- In some run alone on the chain `p` sends `txs` and returns `a`. -/
def Alone (env : ChainEnv) (Lapses : B256 → Prop) (s t : ChainState) {α : Type} (p : NodeRpc α)
    (txs : List TransactionRequest) (a : α) : Prop :=
  ∃ log, sentBy log = txs ∧ Runs p log (.ok a) ∧ (chainService env Lapses).History s log t

section

variable {α β : Type} {txs txs' : List TransactionRequest}

theorem Alone.runsShared {p : NodeRpc Unit} (h : Alone env Lapses s t p txs ()) :
    ∃ log, sentBy log = txs ∧ RunsShared env Lapses s t p log (.ok ()) := by
  obtain ⟨log, hsent, hrun, hhistory⟩ := h
  exact ⟨log, hsent, hrun, [log], log, List.mem_singleton_self log, interleaves_singleton log,
    hhistory⟩

theorem alone_lift {o : Outcome String α} {a : α} (h : o = .ok a) :
    Alone env Lapses s s (ofRpc (lift o)) [] a :=
  ⟨[], rfl, h ▸ .done _, .start⟩

theorem Alone.bind {p : NodeRpc α} {f : α → NodeRpc β} {a : α} {b : β}
    (h : Alone env Lapses s t p txs a) (hf : Alone env Lapses t u (f a) txs' b) :
    Alone env Lapses s u (p >>= f) (txs ++ txs') b := by
  obtain ⟨log, rfl, hrun, hhistory⟩ := h
  obtain ⟨log', rfl, hrun', hhistory'⟩ := hf
  exact ⟨log ++ log', sentBy_append log log', hrun.bind hrun', hhistory.append hhistory'⟩

theorem Alone.ofRpc_bind {p : Rpc α} {f : α → Rpc β} {a : α} {b : β}
    (h : Alone env Lapses s t (ofRpc p) txs a) (hf : Alone env Lapses t u (ofRpc (f a)) txs' b) :
    Alone env Lapses s u (ofRpc (p >>= f)) (txs ++ txs') b := by
  rw [ofRpc, embed_bind]
  exact h.bind hf

/-- Something is asked that does not tell what the chain has. -/
theorem alone_askWith {r : Request} {g : Except String r.Response → Outcome String α} {a : α}
    (hr : ¬(NodeRequest.node r).Tells) (x : r.Response) (hg : g (.ok x) = .ok a) :
    Alone env Lapses s s (ofRpc (askWith r g)) [] a := by
  have hsends : r.sends = none := by
    cases r with
    | sendTransaction => exact absurd trivial hr
    | _ => rfl
  refine ⟨[⟨.node r, .ok x⟩], ?_, runs_ofRpc_askWith hg, ?_⟩
  · exact List.filterMap_eq_nil_iff.2 (List.forall_mem_singleton.2 hsends)
  · exact Service.History.start.responds (.asked hr)

theorem alone_ask {r : Request} (hr : ¬(NodeRequest.node r).Tells) (x : r.Response) :
    Alone env Lapses s s (ofRpc (ask r)) [] x :=
  alone_askWith hr x rfl

theorem Alone.askWith_bind {r : Request} {g : Except String r.Response → Outcome String α}
    {f : α → Rpc β} {a : α} {b : β} (hr : ¬(NodeRequest.node r).Tells) (x : r.Response)
    (hg : g (.ok x) = .ok a) (hf : Alone env Lapses s t (ofRpc (f a)) txs b) :
    Alone env Lapses s t (ofRpc (askWith r g >>= f)) txs b :=
  (alone_askWith hr x hg).ofRpc_bind hf

theorem Alone.lift_bind {o : Outcome String α} {f : α → Rpc β} {a : α} {b : β} (h : o = .ok a)
    (hf : Alone env Lapses s t (ofRpc (f a)) txs b) :
    Alone env Lapses s t (ofRpc (lift o >>= f)) txs b :=
  (alone_lift h).ofRpc_bind hf

/-- The transaction is taken, run, and has its receipt. -/
theorem history_transact {hash : B256} (htaken : s.taken hash = none)
    (hnone : s.receipts hash = none) (heffect : ChainEffect env (s.take hash tx) tx receipt t) :
    (chainService env Lapses).History s [⟨.node (.sendTransaction tx), .ok hash⟩,
      ⟨.node (.getReceipt hash), .ok receipt⟩] (t.withReceipt hash receipt) := by
  have hmined : ChainWorks env Lapses (s.take hash tx) (t.withReceipt hash receipt) :=
    .mined (Function.update_self ..) hnone heffect
  have hreceipt : (t.withReceipt hash receipt).receipts hash = some receipt :=
    Function.update_self ..
  have hstart : (chainService env Lapses).History s [] s := .start
  have hsent : ChainResponds env s ⟨.node (.sendTransaction tx), .ok hash⟩ (s.take hash tx) :=
    .sent htaken
  exact ((hstart.responds hsent).works hmined).responds (.receipt hreceipt)

theorem alone_runTx {name : String} {gas : Option U64} {maxFee : U128} {hash : B256}
    (htaken : s.taken hash = none) (hnone : s.receipts hash = none)
    (heffect : ChainEffect env (s.take hash (tx.withFee gas maxFee)) (tx.withFee gas maxFee)
      receipt t) (hstatus : receipt.status = true) :
    Alone env Lapses s (t.withReceipt hash receipt) (ofRpc (runTx name tx gas maxFee))
      [tx.withFee gas maxFee] receipt := by
  have hcompleted : completed name hash (.ok receipt) = .ok receipt :=
    completed_eq_ok.2 ⟨rfl, hstatus⟩
  refine ⟨_, ?_, ?_, history_transact htaken hnone heffect⟩
  · rfl
  · rw [runTx, ofRpc, embed_bind]
    exact (runs_question (.sendTransaction _) hash).bind (runs_ofRpc_askWith hcompleted)

theorem effect_createTx {sender address : Address} {code : Bytes} {gas : Option U64} {maxFee : U128}
    (hlen : code.length < 2 ^ 64) (hfree : s.code address = none) :
    ChainEffect env s ((createTx sender code).withFee gas maxFee) (deployedReceipt address)
      (s.create address code) := by
  refine .created rfl (withFee_kind _ _ _) (withFee_input _ _ _) (fun pcs halt hruns => ?_) hfree
    rfl
  exact .inl (((executes_contractDeploymentCalldata code hlen).iff_of_executes pcs halt).1 hruns).2

theorem effect_activationTx {sender address : Address} {code : Bytes} {dataFee : U256}
    {gas : Option U64} {maxFee : U128} (hcode : s.code address = some code) :
    ChainEffect env s ((activationTx sender address dataFee).withFee gas maxFee)
      (deployedReceipt address) (s.activate (env.keccak256 code)) :=
  .activated rfl ⟨withFee_kind _ _ _, withFee_input _ _ _⟩ hcode

theorem alone_connectWallet {alloyWallet : AlloyWallet} {endpoint : Text} {auth : AuthOpts}
    {chainId : U64} {sender : Address} (h : alloyWallet auth chainId = .ok sender) :
    Alone env Lapses s s (ofRpc (connectWallet alloyWallet endpoint auth)) [] sender := by
  refine .askWith_bind not_false () rfl (.askWith_bind not_false chainId rfl (.lift_bind h ?_))
  exact .askWith_bind not_false () rfl (alone_lift rfl)

end

section

variable {Param Value : Type} {deployEnv : DeployEnv Param Value} {cfg : DeployConfig}
  {hash : B256}

theorem alone_checkBalance {contract : ContractCheck} {sender : Address} {dataFee : U256} :
    Alone env Lapses s s (ofRpc (checkBalance deployEnv cfg contract sender dataFee)) [] () := by
  unfold checkBalance
  rcases contract with code | ⟨code, fee⟩
  · exact alone_lift rfl
  · refine .askWith_bind not_false dataFee rfl ?_
    rw [if_neg fun h => BitVec.lt_irrefl dataFee h.1]
    exact alone_lift rfl

/-- The creation is taken as `hash` and leaves the code at `address`. -/
theorem alone_deployContract {code : Bytes} {sender address : Address}
    (hest : cfg.estimateGas = false) (hpay : CanPay deployEnv cfg) (hlen : code.length < 2 ^ 64)
    (htaken : s.taken hash = none) (hnone : s.receipts hash = none)
    (hfree : s.code address = none) : ∃ gas maxFee, Alone env Lapses s
      (((s.take hash ((createTx sender code).withFee gas maxFee)).create address code).withReceipt
        hash (deployedReceipt address))
      (ofRpc (deployContract deployEnv cfg code sender))
      [(createTx sender code).withFee gas maxFee] address := by
  obtain ⟨gasPrice, maxFee, hfee⟩ := hpay.maxFee
  refine ⟨some 0, maxFee, .askWith_bind not_false 0 rfl (.askWith_bind not_false gasPrice rfl ?_)⟩
  rw [hest, if_neg Bool.false_ne_true]
  refine .lift_bind hfee ?_
  exact (alone_runTx htaken hnone (effect_createTx hlen hfree) rfl).ofRpc_bind (alone_lift rfl)

/-- The activation is taken as `hash`, and the code is active. -/
theorem alone_activate {code : Bytes} {sender address : Address} {dataFee : U256}
    (hpay : CanPay deployEnv cfg) (htaken : s.taken hash = none) (hnone : s.receipts hash = none)
    (hcode : s.code address = some code) : ∃ gas maxFee, Alone env Lapses s
      (((s.take hash ((activationTx sender address dataFee).withFee gas maxFee)).activate
        (env.keccak256 code)).withReceipt hash (deployedReceipt address))
      (ofRpc (activate deployEnv cfg sender address dataFee))
      [(activationTx sender address dataFee).withFee gas maxFee] () := by
  obtain ⟨gasPrice, maxFee, hfee⟩ := hpay.maxFee
  refine ⟨some 0, maxFee, .askWith_bind not_false 0 rfl (.askWith_bind not_false gasPrice rfl ?_)⟩
  refine .lift_bind hfee ?_
  exact (alone_runTx htaken hnone (effect_activationTx hcode) rfl).ofRpc_bind (alone_lift rfl)

/-- ArbWasm has a version for a code that is active. -/
theorem alone_contractExists {codehash : B256} (hactive : codehash ∈ s.active) :
    Alone env Lapses s s (contractExists env codehash) [] true := by
  have hanswers : ∀ active, Answers env (.ok (.ok (be 32 1))) active →
      (active = true ↔ codehash ∈ s.active) := by
    rintro (_ | _) h
    · obtain ⟨err, -, payload, data, hresponse, -⟩ := h
      cases hresponse
    · exact iff_of_true rfl hactive
  have hresult : callResult env.decodeArbWasmErrors decodeWord (.ok (.ok (be 32 1))) =
      .ok (.ok (readWord (be 32 1))) := by
    rw [callResult, decodeWord, if_neg (by rw [length_be]; omega)]
  have hasked : Runs (contractExists env codehash)
      ([⟨.call (codehashVersionTx codehash), .ok (.ok (be 32 1))⟩] ++ []) (.ok true) :=
    Runs.bind (.askWith hresult) (.done _)
  exact ⟨_, rfl, hasked, Service.History.start.responds (.version hanswers)⟩

/-- ArbWasm reverts if a code is not active. -/
theorem alone_contractExists_inactive {codehash : B256} {data : Bytes} {err : ArbWasmErrors}
    (hdecode : env.decodeArbWasmErrors data = some err) (herr : err ∈ ArbWasmErrors.inactive)
    (hinactive : codehash ∉ s.active) :
    Alone env Lapses s s (contractExists env codehash) [] false := by
  have hanswers : ∀ active, Answers env (.ok (.error ⟨some data, ""⟩)) active →
      (active = true ↔ codehash ∈ s.active) := by
    rintro (_ | _) h
    · exact iff_of_false Bool.false_ne_true hinactive
    · obtain ⟨returned, hresponse⟩ := h
      cases hresponse
  exact ⟨_, rfl, runs_contractExists_inactive hdecode herr,
    Service.History.start.responds (.version hanswers)⟩

theorem alone_checkActivate {aenv : ActivateEnv} {code : Bytes} {address : Address}
    {opts : DataFeeOpts} {returned : Bytes} {dataFee : U256}
    (h : decodeDataFee returned = .ok dataFee) : Alone env Lapses s s
      (ofRpc (checkActivate aenv code address opts)) [] (bumpedFee dataFee opts) := by
  have hdecode : Outcome.mapErr activationError
      (.ofExcept ((.ok returned : Except String Bytes) >>= decodeDataFee)) = .ok dataFee :=
    congrArg (fun r => Outcome.mapErr activationError (.ofExcept r)) h
  have htells : ∀ tx, ¬(NodeRequest.node (.callWithCode tx address code)).Tells :=
    fun _ => not_false
  exact (alone_askWith (htells _) returned hdecode).ofRpc_bind (alone_lift rfl)

theorem alone_printEstimate {estimateGas : Bool} :
    Alone env Lapses s s (ofRpc (printEstimate estimateGas tx)) [] () := by
  unfold printEstimate
  split_ifs
  · exact .askWith_bind not_false 0 rfl (.askWith_bind not_false 0 rfl (alone_lift rfl))
  · exact alone_lift rfl

theorem Alone.attempt {α : Type} {p : NodeRpc α} {txs : List TransactionRequest} {a : α}
    (h : Alone env Lapses s t p txs a) : Alone env Lapses s t p.attempt txs (.ok a) := by
  obtain ⟨log, hsent, hrun, hhistory⟩ := h
  exact ⟨log, hsent, hrun.attempt, hhistory⟩

section

variable {checkCfg : CheckConfig} {code : Bytes}

theorem alone_check_active (hendpoint : checkCfg.commonCfg.endpoint ≠ oldTestnet)
    (hcompile : env.compile checkCfg = .ok code) (hactive : env.keccak256 code ∈ s.active) :
    Alone env Lapses s s (check env checkCfg) [] (.active code) := by
  unfold check checkWith
  rw [if_neg hendpoint, hcompile]
  refine (alone_lift rfl).bind ((alone_ask (r := .connect _) not_false ()).bind ?_)
  exact (alone_contractExists hactive).bind ⟨[], rfl, .done _, .start⟩

theorem alone_check_inactive {data : Bytes} {err : ArbWasmErrors}
    (hendpoint : checkCfg.commonCfg.endpoint ≠ oldTestnet)
    (hcompile : env.compile checkCfg = .ok code)
    (hdecode : env.decodeArbWasmErrors data = some err) (herr : err ∈ ArbWasmErrors.inactive)
    (hinactive : env.keccak256 code ∉ s.active) (dataFee : U256) :
    Alone env Lapses s s (check env checkCfg) []
      (.ready code (bumpedFee dataFee checkCfg.dataFee)) := by
  unfold check checkWith
  rw [if_neg hendpoint, hcompile]
  refine (alone_lift rfl).bind ((alone_ask (r := .connect _) not_false ()).bind ?_)
  refine (alone_contractExists_inactive hdecode herr hinactive).bind ?_
  exact (alone_checkActivate (decodeDataFee_quoteResponse dataFee)).bind
    ⟨[], rfl, .done _, .start⟩

end

/-- Without a constructor, what is left is the creation and the activation. -/
theorem alone_deploy {contract : ContractCheck} {chainId : U64} {sender : Address}
    {txs : List TransactionRequest} (hcheck : deployEnv.check cfg.checkConfig = .ok contract)
    (hnone : findConstructor deployEnv cfg = .ok none) (hargs : cfg.constructorArgs = [])
    (hwallet : deployEnv.alloyWallet cfg.auth chainId = .ok sender)
    (h : Alone env Lapses s t (ofRpc (deployWithoutConstructor deployEnv cfg contract sender
      (contract.suggestFee + cfg.constructorValue))) txs ()) :
    Alone env Lapses s t (ofRpc (CargoStylus.deploy deployEnv cfg)) txs () := by
  refine .lift_bind (Outcome.expect_eq_ok.2 hcheck) (.lift_bind hnone ?_)
  refine .lift_bind (deployerArgs_eq_none.2 ⟨rfl, hargs⟩) ?_
  exact (alone_connectWallet hwallet).ofRpc_bind (alone_checkBalance.ofRpc_bind h)

end

end Chain

end CargoStylus
