import CargoStylus.NodeCall

/-!
# The cache of contracts

A contract is cached by a bid at the cache manager, which is the last one that ArbWasmCache
lists. `placeBid` runs the bid as a call first, and sends it only if the manager does not revert.
So whatever the node responds, at most the bid is sent, to that manager, and only after the same
call went through (`placeBid_bids`). If the manager reverts with an error of its interface, the
command ends with the text for it.

`suggestBid` and `checkStatus` only ask, and what they print is what was responded
(`checkStatus_reports`).
-/

namespace CargoStylus

open Rust Rust.Interaction Rust.Interaction.Prog

/-- The errors of the cache manager's interface. -/
inductive CacheManagerErrors where
  | asmTooLarge
  | alreadyCached
  | bidTooSmall
  | bidsArePaused
  | programNotActivated
deriving DecidableEq

/-- The text for an error of the manager. -/
def CacheManagerErrors.text : CacheManagerErrors → String
  | asmTooLarge => "Stylus contract was too large to cache"
  | alreadyCached => "Stylus contract is already cached"
  | bidsArePaused => "Bidding is currently paused for the Stylus cache manager"
  | bidTooSmall => "Bid amount (wei) too small"
  | programNotActivated =>
    "Your Stylus contract is not yet activated. To activate it, use the `cargo stylus activate` " ++
      "subcommand"

/-- A named error of the manager becomes an error with its text. -/
def handleCacheManagerError (err : CacheManagerErrors) : Outcome String Unit :=
  .err err.text

/-- The arguments of `cargo stylus cache bid`. -/
structure CacheBidConfig where
  endpoint : Text
  auth : AuthOpts
  address : Address
  bid : U64
  maxFeePerGasGwei : Option Text

/-- The arguments of `cargo stylus cache status`. -/
structure CacheStatusConfig where
  endpoint : Text
  address : Option Address

/-- The arguments of `cargo stylus cache suggest-bid`. -/
structure CacheSuggestionsConfig where
  endpoint : Text
  address : Address

/-- What the commands read besides the responses of the node. -/
structure CacheEnv where
  alloyWallet : AlloyWallet
  convertGweiToWei : Text → Except String U128
  keccak256 : Bytes → B256
  /-- `as_decoded_interface_error::<CacheManagerErrors>` -/
  decodeCacheManagerErrors : Bytes → Option CacheManagerErrors
  /-- The ABI decoder of `address[]`. -/
  decodeAddresses : Bytes → Except String (List Address)

theorem length_arbWasmCacheAddress : (List.replicate 19 (0 : UInt8) ++ [0x72]).length = 20 :=
  rfl

/-- Address of the ArbWasmCache precompile. -/
def arbWasmCacheAddress : Address :=
  ⟨List.replicate 19 0 ++ [0x72], length_arbWasmCacheAddress⟩

/-- A call of a function of `contract`. -/
def contractCall (contract : Address) (selector : Bytes) (args : Bytes) : TransactionRequest where
  kind := some (.call contract)
  input := some (selector ++ args)

/-- An address, as an argument of a call. -/
def addressArg (address : Address) : Bytes :=
  List.replicate 12 0 ++ address.1

/-- `allCacheManagers()` -/
def allCacheManagersCall : TransactionRequest :=
  contractCall arbWasmCacheAddress [0x0e, 0xc1, 0xd7, 0x73] []

/-- `codehashIsCached(bytes32)` -/
def codehashIsCachedCall (codehash : B256) : TransactionRequest :=
  contractCall arbWasmCacheAddress [0xa7, 0x2f, 0x17, 0x9b] codehash.1

section

variable (manager : Address)

/-- `isPaused()` -/
def isPausedCall : TransactionRequest :=
  contractCall manager [0xb1, 0x87, 0xbd, 0x26] []

/-- `queueSize()` -/
def queueSizeCall : TransactionRequest :=
  contractCall manager [0xba, 0xe6, 0xc2, 0xad] []

/-- `cacheSize()` -/
def cacheSizeCall : TransactionRequest :=
  contractCall manager [0x67, 0x4a, 0x64, 0xe0] []

/-- `getMinBid(address)` -/
def getMinBidCall (program : Address) : TransactionRequest :=
  contractCall manager [0x32, 0x05, 0x2a, 0x9b] (addressArg program)

/-- `getMinBid(uint64)` -/
def getMinBidOfSizeCall (size : ℕ) : TransactionRequest :=
  contractCall manager [0xd2, 0x9b, 0x30, 0x3e] (toBe 32 size)

/-- `placeBid(address)`, with what it pays. -/
def placeBidTx (cfg : CacheBidConfig) (maxFee : Option U128) : TransactionRequest :=
  { contractCall manager [0xe4, 0x94, 0x01, 0x57] (addressArg cfg.address) with
    value := some (cfg.bid.setWidth 256)
    maxFeePerGas := maxFee
    maxPriorityFeePerGas := maxFee.map fun _ => 0 }

end

/-! ## The commands -/

/-- A call of a view function, of which any failure is reported. -/
def callView {α : Type} (tx : TransactionRequest) (decode : Bytes → Except String α) : NodeRpc α :=
  askWith (NodeRequest.call tx) fun
    | .ok (.ok returned) => .ofExcept (decode returned)
    | .ok (.error errResp) => .err errResp.shown
    | .error tperr => .err tperr

/-- A returned word, of which any but zero is true. -/
def decodeBool (returned : Bytes) : Except String Bool :=
  (decodeWord returned).map (· != 0)

/-- The low 64 bits of a returned word. -/
def decodeU64 (returned : Bytes) : Except String U64 :=
  (decodeWord returned).map (·.setWidth 64)

/-- The low 192 bits of a returned word. -/
def decodeU192 (returned : Bytes) : Except String (BitVec 192) :=
  (decodeWord returned).map (·.setWidth 192)

/-- Nothing is returned. -/
def decodeUnit (_returned : Bytes) : Except String Unit :=
  .ok ()

/-- The fee of the configuration in wei, if there is one. -/
def getMaxFeePerGasWei (env : CacheEnv) (fee : Option Text) : Outcome String (Option U128) :=
  match fee with
  | some feeStr => some <$> .ofExcept (env.convertGweiToWei feeStr)
  | none => .ok none

/-- What `check_status` prints. -/
structure CacheStatus where
  manager : Address
  isPaused : Bool
  queueSize : U64
  cacheSize : U64
  minBidSmol : BitVec 192
  minBidMed : BitVec 192
  minBidBig : BitVec 192
  /-- Bids of size 0 are accepted. -/
  belowCapacity : Bool
  isCached : Option Bool

section

variable (env : CacheEnv)

/-- The manager that is listed last. -/
def getCacheManagerAddress : NodeRpc Address := do
  let managers ← callView allCacheManagersCall env.decodeAddresses
  match managers.getLast? with
  | none =>
    done (.err ("no cache managers found in ArbWasmCache, perhaps the Stylus cache is not yet " ++
      "enabled on this chain"))
  | some manager => return manager

/-- Recommends a minimum bid to the user for caching a Stylus program by address. -/
def suggestBid (cfg : CacheSuggestionsConfig) : NodeRpc (BitVec 192) := do
  ofRpc (ask (Request.connect cfg.endpoint))
  let manager ← getCacheManagerAddress env
  let minBid ← askWith (NodeRequest.call (getMinBidCall manager cfg.address))
    (callResult env.decodeCacheManagerErrors decodeU192)
  match minBid with
  | .ok minBid => return minBid
  | .error err => done (.err err.text)

/-- Whether the code at an address is cached, if one is given. -/
def isCached : Option Address → NodeRpc (Option Bool)
  | some address => do
    let code ← ofRpc (ask (Request.getCodeAt address))
    let cached ← callView (codehashIsCachedCall (env.keccak256 code)) decodeBool
    return some cached
  | none => return none

/-- Checks the status of the Stylus cache manager. -/
def checkStatus (cfg : CacheStatusConfig) : NodeRpc CacheStatus := do
  ofRpc (ask (Request.connect cfg.endpoint))
  let manager ← getCacheManagerAddress env
  let isPaused ← callView (isPausedCall manager) decodeBool
  let queueSize ← callView (queueSizeCall manager) decodeU64
  let cacheSize ← callView (cacheSizeCall manager) decodeU64
  let minBidSmol ← callView (getMinBidOfSizeCall manager 8000) decodeU192
  let minBidMed ← callView (getMinBidOfSizeCall manager 16000) decodeU192
  let minBidBig ← callView (getMinBidOfSizeCall manager 24000) decodeU192
  let isCached ← isCached env cfg.address
  return { manager, isPaused, queueSize, cacheSize, minBidSmol, minBidMed, minBidBig,
           belowCapacity := queueSize < cacheSize, isCached }

/-- Run the bid as a call of the signer, and send it if the manager takes it. -/
def callAndSend (fromAddress : Address) (placeBidCall : TransactionRequest) : NodeRpc Unit := do
  let rawOutput ← askWith (NodeRequest.call { placeBidCall with sender := some fromAddress })
    (callResult env.decodeCacheManagerErrors decodeUnit)
  match rawOutput with
  | .error err => done (handleCacheManagerError err)
  | .ok () =>
    let txHash ← ofRpc (ask (Request.sendTransaction placeBidCall))
    let _receipt ← ofRpc (ask (Request.getReceipt txHash))
    return ()

/-- Attempts to cache a Stylus contract by address by placing a bid by sending a tx to the
network. -/
def placeBid (cfg : CacheBidConfig) : NodeRpc Unit := do
  let fromAddress ← ofRpc (connectWallet env.alloyWallet cfg.endpoint cfg.auth)
  let manager ← getCacheManagerAddress env
  let maxFee ← ofRpc (lift (getMaxFeePerGasWei env cfg.maxFeePerGasGwei))
  callAndSend env fromAddress (placeBidTx manager cfg maxFee)

end

/-! ## What is asked -/

variable {env : CacheEnv}

/-- The request sends a transaction, or runs one for its sender. -/
def NodeRequest.IsBid : NodeRequest → Prop
  | node r => r.IsSend
  | call tx => tx.sender.isSome

/-- The contract has returned `a` to the call. -/
def Viewed {α : Type} (tx : TransactionRequest) (decode : Bytes → Except String α) (a : α)
    (log : NodeLog) : Prop :=
  ∃ returned, decode returned = .ok a ∧ (⟨.call tx, .ok (.ok returned)⟩ : NodeEntry) ∈ log

theorem Viewed.mono {α : Type} {tx : TransactionRequest} {decode : Bytes → Except String α} {a : α}
    {log log' : NodeLog} (h : Viewed tx decode a log) (hsub : ∀ entry ∈ log, entry ∈ log') :
    Viewed tx decode a log' := by
  obtain ⟨returned, hdecode, hmem⟩ := h
  exact ⟨returned, hdecode, hsub _ hmem⟩

/-- A view that returns was answered by the node. -/
theorem callView_yields {α : Type} {contract : Address} {selector args : Bytes}
    {decode : Bytes → Except String α} :
    Yields NodeRequest.IsBid
      (fun log a => Viewed (contractCall contract selector args) decode a log)
      (callView (contractCall contract selector args) decode) := by
  have hnone : ¬(NodeRequest.call (contractCall contract selector args)).IsBid := nofun
  refine wp_mono (yields_askWith hnone _) fun log o h => ⟨h.1, fun a ha => ?_⟩
  obtain ⟨response, rfl, hresponse⟩ := h.2 a ha
  rcases response with e | errResp | returned
  · cases hresponse
  · cases hresponse
  · exact ⟨returned, Outcome.ofExcept_eq_ok.1 hresponse, List.mem_singleton_self _⟩

/-- ArbWasmCache lists the manager as its last one. -/
def Listed (env : CacheEnv) (log : NodeLog) (manager : Address) : Prop :=
  ∃ managers, Viewed allCacheManagersCall env.decodeAddresses managers log ∧
    managers.getLast? = some manager

theorem Listed.mono {log log' : NodeLog} {manager : Address} (h : Listed env log manager)
    (hsub : ∀ entry ∈ log, entry ∈ log') : Listed env log' manager := by
  obtain ⟨managers, hviewed, hlast⟩ := h
  exact ⟨managers, hviewed.mono hsub, hlast⟩

/-- The manager is the last one that is listed. -/
theorem getCacheManagerAddress_yields :
    Yields NodeRequest.IsBid (Listed env) (getCacheManagerAddress env) := by
  refine callView_yields.bind fun log managers hviewed => ?_
  rcases hlast : managers.getLast? with _ | manager
  · exact yields_err _
  · refine yields_done fun _ ho => ?_
    obtain rfl := Outcome.ok.inj ho
    exact ⟨managers, hviewed.mono (by simp), hlast⟩

/-! ## What is printed -/

/-- The manager has the bid for the contract. -/
def Suggests (env : CacheEnv) (cfg : CacheSuggestionsConfig) (log : NodeLog)
    (minBid : BitVec 192) : Prop :=
  ∃ manager, Listed env log manager ∧
    Viewed (getMinBidCall manager cfg.address) decodeU192 minBid log

/-- Whether the code at the address is cached, as ArbWasmCache says of its hash. -/
def Cached (env : CacheEnv) (log : NodeLog) : Option Address → Option Bool → Prop
  | some address, some cached => ∃ code,
    (⟨.node (.getCodeAt address), .ok code⟩ : NodeEntry) ∈ log ∧
      Viewed (codehashIsCachedCall (env.keccak256 code)) decodeBool cached log
  | none, none => True
  | _, _ => False

/-- What is printed of the manager that is listed last is what it has returned. -/
structure Reports (env : CacheEnv) (cfg : CacheStatusConfig) (log : NodeLog)
    (status : CacheStatus) : Prop where
  listed : Listed env log status.manager
  isPaused : Viewed (isPausedCall status.manager) decodeBool status.isPaused log
  queueSize : Viewed (queueSizeCall status.manager) decodeU64 status.queueSize log
  cacheSize : Viewed (cacheSizeCall status.manager) decodeU64 status.cacheSize log
  minBidSmol : Viewed (getMinBidOfSizeCall status.manager 8000) decodeU192 status.minBidSmol log
  minBidMed : Viewed (getMinBidOfSizeCall status.manager 16000) decodeU192 status.minBidMed log
  minBidBig : Viewed (getMinBidOfSizeCall status.manager 24000) decodeU192 status.minBidBig log
  belowCapacity : status.belowCapacity = true ↔ status.queueSize < status.cacheSize
  isCached : Cached env log cfg.address status.isCached

theorem Cached.mono {log log' : NodeLog} {address : Option Address} {cached : Option Bool}
    (h : Cached env log address cached) (hsub : ∀ entry ∈ log, entry ∈ log') :
    Cached env log' address cached := by
  rcases address with _ | address <;> rcases cached with _ | cached
  · trivial
  · exact h.elim
  · exact h.elim
  · obtain ⟨code, hcode, hviewed⟩ := h
    exact ⟨code, hsub _ hcode, hviewed.mono hsub⟩

theorem not_isBid_node {r : Request} (hr : r.sends = none) : ¬(NodeRequest.node r).IsBid := by
  rw [NodeRequest.IsBid, Request.IsSend, hr]
  exact Bool.false_ne_true

/-- Whether a code is cached is what the manager says. -/
theorem isCached_yields {address : Option Address} :
    Yields NodeRequest.IsBid (fun log cached => Cached env log address cached)
      (isCached env address) := by
  rcases address with _ | address
  · refine yields_done fun _ ho => ?_
    obtain rfl := Outcome.ok.inj ho
    trivial
  · refine (yields_question (not_isBid_node rfl)).bind fun _ code hcode => ?_
    subst hcode
    refine callView_yields.bind fun _ cached hviewed => yields_done fun _ ho => ?_
    obtain rfl := Outcome.ok.inj ho
    exact ⟨code, by simp, hviewed.mono (by simp +contextual)⟩

/-- A suggestion is what the manager answered. -/
theorem suggestBid_suggests {cfg : CacheSuggestionsConfig} :
    Yields NodeRequest.IsBid (Suggests env cfg) (suggestBid env cfg) := by
  refine (yields_question (not_isBid_node rfl)).bind fun _ _ _ => ?_
  refine getCacheManagerAddress_yields.bind fun _ manager h => ?_
  have hcall : ¬(NodeRequest.call (getMinBidCall manager cfg.address)).IsBid := Bool.false_ne_true
  refine (yields_askWith hcall _).bind fun asked minBid hasked => ?_
  obtain ⟨response, rfl, hresponse⟩ := hasked
  obtain ⟨minBid, returned, rfl, rfl, hdecode⟩ | ⟨err, rfl, -⟩ := callResult_eq_ok hresponse
  · refine yields_done fun _ ho => ?_
    obtain rfl := Outcome.ok.inj ho
    exact ⟨manager, h.mono (by simp +contextual), returned, hdecode, by simp⟩
  · exact yields_err _

/-- The status is what the manager and the node say. -/
theorem checkStatus_reports {cfg : CacheStatusConfig} :
    Yields NodeRequest.IsBid (Reports env cfg) (checkStatus env cfg) := by
  refine (yields_question (not_isBid_node rfl)).bind fun _ _ _ => ?_
  refine getCacheManagerAddress_yields.bind fun _ manager h => ?_
  refine callView_yields.bind fun _ isPaused hpaused => ?_
  refine callView_yields.bind fun _ queueSize hqueue => ?_
  refine callView_yields.bind fun _ cacheSize hcache => ?_
  refine callView_yields.bind fun _ minBidSmol hsmol => ?_
  refine callView_yields.bind fun _ minBidMed hmed => ?_
  refine callView_yields.bind fun _ minBidBig hbig => ?_
  refine isCached_yields.bind fun _ cached hcached => yields_done fun _ ho => ?_
  obtain rfl := Outcome.ok.inj ho
  exact
    { listed := h.mono (by simp +contextual)
      isPaused := hpaused.mono (by simp +contextual)
      queueSize := hqueue.mono (by simp +contextual)
      cacheSize := hcache.mono (by simp +contextual)
      minBidSmol := hsmol.mono (by simp +contextual)
      minBidMed := hmed.mono (by simp +contextual)
      minBidBig := hbig.mono (by simp +contextual)
      belowCapacity := decide_eq_true_iff
      isCached := hcached.mono (by simp +contextual) }

/-! ## A bid -/

/-- A bid that is made after `before`, at the manager and for the signer. -/
structure Bids (env : CacheEnv) (cfg : CacheBidConfig) (before : NodeLog) (sender : Address)
    (tx : TransactionRequest) : Prop where
  nothing : ∀ entry ∈ before, ¬entry.1.IsBid
  signer : ∃ chainId, env.alloyWallet cfg.auth chainId = .ok sender
  bid : ∃ manager maxFee, Listed env before manager ∧
    getMaxFeePerGasWei env cfg.maxFeePerGasGwei = .ok maxFee ∧ tx = placeBidTx manager cfg maxFee

/-- What a run of `place_bid` does : it ends before the bid is run, or with an error if it is not
taken when it is run, or the bid is sent after the manager has taken it. -/
inductive BidRun (env : CacheEnv) (cfg : CacheBidConfig) : NodeLog → Outcome String Unit → Prop
  | early {log : NodeLog} {o : Outcome String Unit} (hlog : ∀ entry ∈ log, ¬entry.1.IsBid)
      (ho : ¬o.IsOk) : BidRun env cfg log o
  | refused {before : NodeLog} {sender : Address} {tx : TransactionRequest}
      {response : Except String (Except ErrorPayload Bytes)} {e : String}
      (hbids : Bids env cfg before sender tx) (hrefused : ∀ returned, response ≠ .ok (.ok returned))
      (herr : ∀ err, Reverts env.decodeCacheManagerErrors err response → e = err.text) :
      BidRun env cfg (before ++ [⟨.call { tx with sender := some sender }, response⟩]) (.err e)
  | sent {before after : NodeLog} {sender : Address} {tx : TransactionRequest} {returned : Bytes}
      {txHash : Except String B256} {o : Outcome String Unit}
      (hbids : Bids env cfg before sender tx) (hafter : ∀ entry ∈ after, ¬entry.1.IsBid)
      (ho : o.IsOk → ∃ hash receipt, txHash = .ok hash ∧
        after = [⟨.node (.getReceipt hash), .ok receipt⟩]) :
      BidRun env cfg (before ++
        ⟨.call { tx with sender := some sender }, .ok (.ok returned)⟩ ::
        ⟨.node (.sendTransaction tx), txHash⟩ :: after) o

theorem connectWallet_yields {alloyWallet : AlloyWallet} {endpoint : Text} {auth : AuthOpts} :
    Yields NodeRequest.IsBid (fun _ sender => ∃ chainId, alloyWallet auth chainId = .ok sender)
      (ofRpc (connectWallet alloyWallet endpoint auth)) := by
  have hquiet : Avoids NodeRequest.IsBid (ofRpc (connectWallet alloyWallet endpoint auth)) :=
    avoids_embed quiet_connectWallet
  exact wp_and hquiet (wp_ofRpc returns_connectWallet)

/-- Once the bid is run, it is sent or the run ends with the response. -/
theorem callAndSend_spec {cfg : CacheBidConfig} {before : NodeLog} {sender : Address}
    {tx : TransactionRequest} (hbids : Bids env cfg before sender tx) :
    wp (callAndSend env sender tx) fun log o => BidRun env cfg (before ++ log) o := by
  refine wp_bind_of (P := fun log o => ∃ response,
    callResult env.decodeCacheManagerErrors decodeUnit response = o ∧
      log = [⟨.call { tx with sender := some sender }, response⟩])
    (fun response => ⟨response, rfl, rfl⟩) ?_ ?_ ?_
  · rintro log result ⟨response, hresult, rfl⟩
    rcases callResult_eq_ok hresult with ⟨⟨⟩, returned, rfl, rfl, -⟩ | ⟨err, rfl, hreverted⟩
    · rintro (e | txHash)
      · exact .sent hbids (List.forall_mem_nil _) fun h => absurd h (Outcome.not_isOk_err e)
      · have hafter : ∀ x : Except String TransactionReceipt,
            ∀ entry ∈ [(⟨.node (.getReceipt txHash), x⟩ : NodeEntry)], ¬entry.1.IsBid :=
          fun x => List.forall_mem_singleton.2 (not_isBid_node rfl)
        rintro (e | receipt)
        · exact .sent hbids (hafter (.error e)) fun h => absurd h (Outcome.not_isOk_err e)
        · exact .sent hbids (hafter (.ok receipt)) fun _ => ⟨txHash, receipt, rfl, rfl⟩
    · refine .refused hbids hreverted.ne_returned fun err' hreverts => ?_
      rw [hreverts.callResult_eq] at hresult
      cases hresult
      rfl
  · rintro log e ⟨response, hresult, rfl⟩
    refine .refused hbids ?_ fun err hreverts => ?_
    · rintro returned rfl
      cases hresult
    · rw [hreverts.callResult_eq] at hresult
      cases hresult
  · rintro log m ⟨response, hresult, rfl⟩
    exact absurd ⟨m, hresult⟩ (not_isPanic_callResult response)

/-- Whatever the node responds, at most the bid is sent, to the manager that is listed last and only
after it took the bid in a call. If the manager reverts with an error, the run ends with the text
for it, and it returns only with a receipt. -/
theorem placeBid_bids (env : CacheEnv) (cfg : CacheBidConfig) {log : NodeLog}
    {o : Outcome String Unit} (h : Runs (placeBid env cfg) log o) : BidRun env cfg log o := by
  have hbids : wp (placeBid env cfg) (BidRun env cfg) := by
    refine connectWallet_yields.wp_bind (fun log₁ sender hlog₁ hsender => ?_) fun _ _ => .early
    refine getCacheManagerAddress_yields.wp_bind (fun log₂ manager hlog₂ hlisted => ?_)
      fun log₂ o hlog₂ ho => .early (List.forall_mem_append.2 ⟨hlog₁, hlog₂⟩) ho
    have hfee : Yields NodeRequest.IsBid
        (fun _ maxFee => getMaxFeePerGasWei env cfg.maxFeePerGasGwei = .ok maxFee)
        (ofRpc (lift (getMaxFeePerGasWei env cfg.maxFeePerGasGwei))) :=
      yields_done fun _ h => h
    refine hfee.wp_bind (fun log₃ maxFee hlog₃ hmaxFee => ?_) fun log₃ o hlog₃ ho => .early ?_ ho
    · have hbids : Bids env cfg (log₁ ++ (log₂ ++ log₃)) sender (placeBidTx manager cfg maxFee) :=
        { nothing := List.forall_mem_append.2 ⟨hlog₁, List.forall_mem_append.2 ⟨hlog₂, hlog₃⟩⟩
          signer := hsender
          bid := ⟨manager, maxFee, hlisted.mono (by simp +contextual), hmaxFee, rfl⟩ }
      refine wp_mono (callAndSend_spec hbids) fun log o h => ?_
      rwa [List.append_assoc, List.append_assoc] at h
    · exact List.forall_mem_append.2 ⟨hlog₁, List.forall_mem_append.2 ⟨hlog₂, hlog₃⟩⟩
  exact wp_iff_runs.1 hbids log o h

/-- Where a manager is listed and the bid can be paid, some run sends it. -/
theorem runs_placeBid {cfg : CacheBidConfig} {chainId : U64} {sender manager : Address}
    {managers : List Address} {returned : Bytes} {maxFee : Option U128}
    (hwallet : env.alloyWallet cfg.auth chainId = .ok sender)
    (hdecode : env.decodeAddresses returned = .ok managers)
    (hlast : managers.getLast? = some manager)
    (hfee : getMaxFeePerGasWei env cfg.maxFeePerGasGwei = .ok maxFee) :
    ∃ log, sentBy log = [placeBidTx manager cfg maxFee] ∧ Runs (placeBid env cfg) log (.ok ()) := by
  obtain ⟨_, hquiet, hconnect⟩ := @reaches_connectWallet env.alloyWallet cfg.endpoint _ _ _ hwallet
  obtain ⟨log, rfl, hconnected⟩ := runs_ofRpc hconnect
  have hviewed : Runs (callView allCacheManagersCall env.decodeAddresses)
      [⟨.call allCacheManagersCall, .ok (.ok returned)⟩] (.ok managers) :=
    .askWith (Outcome.ofExcept_eq_ok.2 hdecode)
  have hmanager : Runs (getCacheManagerAddress env)
      ([⟨.call allCacheManagersCall, .ok (.ok returned)⟩] ++ []) (.ok manager) := by
    refine hviewed.bind ?_
    rw [hlast]
    exact .done _
  have hmaxFee : Runs (ofRpc (lift (getMaxFeePerGasWei env cfg.maxFeePerGasGwei))) []
      (.ok maxFee) := by
    rw [hfee]
    exact .done _
  let tx := placeBidTx manager cfg maxFee
  have hresult : callResult env.decodeCacheManagerErrors decodeUnit (.ok (.ok [])) = .ok (.ok ()) :=
    rfl
  let taken : NodeRpc (Except CacheManagerErrors Unit) :=
    askWith (NodeRequest.call { tx with sender := some sender })
      (callResult env.decodeCacheManagerErrors decodeUnit)
  have htaken : Runs taken _ (.ok (.ok ())) := .askWith hresult
  have hsend : Runs (callAndSend env sender tx) _ (.ok ()) :=
    htaken.bind ((runs_question (.sendTransaction tx) (filled 32 0)).bind
      ((runs_question (.getReceipt (filled 32 0)) (deployedReceipt sender)).bind (.done _)))
  refine ⟨_, ?_, hconnected.bind (hmanager.bind (hmaxFee.bind hsend))⟩
  rw [sentBy_append, sentBy, hquiet]
  rfl

/-- One manager, as it is listed. -/
def managerList (manager : Address) : Bytes :=
  be 32 (BitVec.ofNat 256 32) ++ be 32 (BitVec.ofNat 256 1) ++ addressArg manager

/-- A signer, and a chain that lists one manager. -/
def managerEnv : CacheEnv where
  alloyWallet _ _ := .ok (filled 20 1)
  convertGweiToWei _ := .error "not a number"
  keccak256 _ := filled 32 0
  decodeCacheManagerErrors _ := none
  decodeAddresses returned :=
    if returned = managerList (filled 20 2) then .ok [filled 20 2] else .error "type check failed"

/-- The arguments of `cargo stylus cache bid`. -/
def bidConfig : CacheBidConfig where
  endpoint := []
  auth := (wasmFileConfig 0).auth
  address := filled 20 3
  bid := 7
  maxFeePerGasGwei := none

theorem decodeAddresses_managerEnv :
    managerEnv.decodeAddresses (managerList (filled 20 2)) = .ok [filled 20 2] := by
  dsimp only [managerEnv]
  rw [if_pos rfl]

theorem placeBid_bids_managerEnv : ∃ log, sentBy log = [placeBidTx (filled 20 2) bidConfig none] ∧
    BidRun managerEnv bidConfig log (.ok ()) := by
  obtain ⟨log, hsent, hrun⟩ := @runs_placeBid managerEnv bidConfig 0 _ _ _ _ none rfl
    decodeAddresses_managerEnv rfl rfl
  exact ⟨log, hsent, placeBid_bids managerEnv bidConfig hrun⟩

end CargoStylus
