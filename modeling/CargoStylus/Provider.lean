import CargoStylus.Rust.Interaction
import CargoStylus.Verify

/-!
# The provider

What the commands ask of a node : a request is either a question or a transaction to send,
and each may fail. `sent` has the transactions of a run, whether or not the node took them.

`runTx` sends one transaction and waits for its receipt (`runTx_spec`). It returns a receipt
only if the transaction came through, and a response that `Fails`, a receipt of a reverted
transaction among them, is the last.
-/

namespace CargoStylus

open Rust Rust.Interaction Rust.Interaction.Prog

/-- Fees in wei. -/
abbrev U128 := BitVec 128

/-- Whether a transaction creates a contract or calls one. -/
inductive TxKind where
  | create
  | call (recipient : Address)
deriving DecidableEq

/-- A transaction, as far as it is filled in. -/
structure TransactionRequest where
  sender : Option Address := none
  kind : Option TxKind := none
  value : Option U256 := none
  input : Option Bytes := none
  gas : Option U64 := none
  maxFeePerGas : Option U128 := none
  maxPriorityFeePerGas : Option U128 := none
deriving DecidableEq

/-- An event in a receipt. -/
structure EventLog where
  topics : List B256
  data : Bytes
deriving DecidableEq

/-- What the commands read of a receipt. -/
structure TransactionReceipt where
  status : Bool
  contractAddress : Option Address
  logs : List EventLog
deriving DecidableEq

/-- What the commands ask of the node. -/
inductive Request where
  | connect (endpoint : Text)
  | getChainId
  | getBalance (account : Address)
  | getCodeAt (account : Address)
  /-- Run `tx` without sending it, with `code` at `program` and enough Ether for its sender. -/
  | callWithCode (tx : TransactionRequest) (program : Address) (code : Bytes)
  | estimateGas (tx : TransactionRequest)
  | getGasPrice
  | getTransactionCount (account : Address)
  | sendTransaction (tx : TransactionRequest)
  | getReceipt (txHash : B256)

namespace Request

/-- What a request is responded to by, a call with what the contract returned. -/
abbrev Response : Request → Type
  | connect _ => Unit
  | getChainId => U64
  | getBalance _ => U256
  | getCodeAt _ => Bytes
  | callWithCode _ _ _ => Bytes
  | estimateGas _ => U64
  | getGasPrice => U128
  | getTransactionCount _ => U64
  | sendTransaction _ => B256
  | getReceipt _ => TransactionReceipt

/-- The transaction that a request sends, if it sends one. -/
def sends : Request → Option TransactionRequest
  | sendTransaction tx => some tx
  | _ => none

/-- The request sends a transaction. -/
def IsSend (r : Request) : Prop :=
  r.sends.isSome

end Request

/-- A command, as the requests that it makes. -/
abbrev Rpc (α : Type) := Prog Request Request.Response String α

/-- The requests and responses of a run. -/
abbrev RpcLog := Log Request Request.Response String

/-- The transactions of a run, in order. -/
def sent (log : RpcLog) : List TransactionRequest :=
  log.filterMap fun entry => entry.1.sends

@[simp] theorem sent_nil : sent [] = [] :=
  rfl

@[simp] theorem sent_append (log log' : RpcLog) : sent (log ++ log') = sent log ++ sent log' :=
  List.filterMap_append

/-- The response is an error, or the receipt of a reverted transaction. -/
def Fails : (Σ r : Request, Except String r.Response) → Prop
  | ⟨_, .error _⟩ => True
  | ⟨.getReceipt _, .ok receipt⟩ => receipt.status = false
  | ⟨_, .ok _⟩ => False

@[simp] theorem sent_cons (entry : Σ r : Request, Except String r.Response) (log : RpcLog) :
    sent (entry :: log) = entry.1.sends.toList ++ sent log := by
  rcases h : entry.1.sends with _ | tx
  · simp [sent, h]
  · simp [sent, h]

/-- No transaction is sent. -/
abbrev Quiet {α : Type} (p : Rpc α) : Prop :=
  Avoids Request.IsSend p

theorem sent_eq_nil {log : RpcLog} (h : ∀ entry ∈ log, ¬entry.1.IsSend) : sent log = [] := by
  refine List.filterMap_eq_nil_iff.2 fun entry hentry => ?_
  exact Option.not_isSome_iff_eq_none.1 (h entry hentry)

theorem runs_ask {α : Type} (r : Request) {f : r.Response → Rpc α} (x : r.Response)
    {log : RpcLog} {o : Outcome String α} (h : Runs (f x) log o) :
    Runs (ask r >>= f) (⟨r, .ok x⟩ :: log) o :=
  .call (.ok x) h

/-- A part that makes no request. -/
def lift {α : Type} (o : Outcome String α) : Rpc α :=
  done o

/-! ## What holds whatever is asked first -/

variable {α β : Type}

/-- `Q` holds of runs that end without a value before they send anything, and stays when
something is asked before. -/
structure QuietClosed (Q : RpcLog → Outcome String β → Prop) : Prop where
  nothing {log : RpcLog} {o : Outcome String β} : sent log = [] → ¬o.IsOk → Q log o
  prepend {log log' : RpcLog} {o : Outcome String β} : sent log = [] → Q log' o →
    Q (log ++ log') o

theorem quietClosed_sent {P : List TransactionRequest → Prop} (h : P []) :
    QuietClosed fun log (_ : Outcome String β) => P (sent log) where
  nothing hsent _ := by rwa [hsent]
  prepend hsent hP := by rwa [sent_append, hsent, List.nil_append]

variable {Q : RpcLog → Outcome String β → Prop}

theorem QuietClosed.bind (hQ : QuietClosed Q) {p : Rpc α} {f : α → Rpc β} (hp : Quiet p)
    (hf : ∀ a, wp (f a) Q) : wp (p >>= f) Q := by
  refine wp_bind_of hp (fun log a hlog => ?_) (fun log e hlog => ?_) (fun log m hlog => ?_)
  · exact wp_mono (hf a) fun _ _ h => hQ.prepend (sent_eq_nil hlog) h
  · exact hQ.nothing (sent_eq_nil hlog) (Outcome.not_isOk_err e)
  · exact hQ.nothing (sent_eq_nil hlog) (Outcome.not_isOk_panic m)

theorem QuietClosed.lift_bind (hQ : QuietClosed Q) {o : Outcome String α} {f : α → Rpc β}
    (hf : ∀ a, o = .ok a → wp (f a) Q) : wp (lift o >>= f) Q := by
  rcases o with a | e | m
  · exact hf a rfl
  · exact hQ.nothing rfl (Outcome.not_isOk_err e)
  · exact hQ.nothing rfl (Outcome.not_isOk_panic m)

/-- What is sent does not change if nothing is sent afterwards. -/
theorem wp_sent_bind {P : List TransactionRequest → Prop} {p : Rpc α} {f : α → Rpc β}
    (hp : wp p fun log _ => P (sent log)) (hf : ∀ a, Quiet (f a)) :
    wp (p >>= f) fun log _ => P (sent log) := by
  refine wp_bind_of hp (fun log a hlog => ?_) (fun _ _ h => h) (fun _ _ h => h)
  refine wp_mono (hf a) fun log' _ hlog' => ?_
  have hsent : sent (log ++ log') = sent log := by
    rw [sent_append, sent_eq_nil hlog', List.append_nil]
  exact (congrArg P hsent).mpr hlog

theorem quiet_lift (o : Outcome String α) : Quiet (lift o) :=
  avoids_done o

theorem stops_lift (o : Outcome String α) : Stops Fails (lift o) :=
  stops_done o

theorem quiet_lift_bind {o : Outcome String α} {f : α → Rpc β}
    (hf : ∀ a, o = .ok a → Quiet (f a)) : Quiet (lift o >>= f) :=
  (quiet_lift o).bind_of_returns returns_done hf

/-! ## What can be sent -/

/-- In some run `p` sends `txs` and returns `a`. -/
def Reaches (p : Rpc α) (txs : List TransactionRequest) (a : α) : Prop :=
  ∃ log, sent log = txs ∧ Runs p log (.ok a)

theorem Reaches.bind {p : Rpc α} {f : α → Rpc β} {txs txs' : List TransactionRequest} {a : α}
    {b : β} (hp : Reaches p txs a) (hf : Reaches (f a) txs' b) :
    Reaches (p >>= f) (txs ++ txs') b := by
  obtain ⟨log, rfl, hrun⟩ := hp
  obtain ⟨log', rfl, hrun'⟩ := hf
  exact ⟨log ++ log', sent_append log log', hrun.bind hrun'⟩

/-- The request is made first, with the response `x`. -/
theorem Reaches.ask_bind (r : Request) {f : r.Response → Rpc β} {txs : List TransactionRequest}
    {b : β} (x : r.Response) (hf : Reaches (f x) txs b) :
    Reaches (ask r >>= f) (r.sends.toList ++ txs) b := by
  obtain ⟨log, rfl, hrun⟩ := hf
  exact ⟨⟨r, .ok x⟩ :: log, sent_cons _ log, runs_ask r x hrun⟩

theorem Reaches.askWith_bind (r : Request) {f : Except String r.Response → Outcome String α}
    {g : α → Rpc β} {txs : List TransactionRequest} {a : α} {b : β} (x : Except String r.Response)
    (hf : f x = .ok a) (hg : Reaches (g a) txs b) :
    Reaches (askWith r f >>= g) (r.sends.toList ++ txs) b := by
  obtain ⟨log, rfl, hrun⟩ := hg
  exact ⟨⟨r, x⟩ :: log, sent_cons _ log, .bind (.askWith hf) hrun⟩

theorem reaches_lift {o : Outcome String α} {a : α} (h : o = .ok a) : Reaches (lift o) [] a :=
  ⟨[], rfl, h ▸ .done o⟩

theorem Reaches.lift_bind {o : Outcome String α} {f : α → Rpc β} {txs : List TransactionRequest}
    {a : α} {b : β} (h : o = .ok a) (hf : Reaches (f a) txs b) : Reaches (lift o >>= f) txs b :=
  (reaches_lift h).bind hf

/-! ## Sending a transaction -/

/-- A transaction with what it costs filled in. -/
def TransactionRequest.withFee (tx : TransactionRequest) (gas : Option U64)
    (maxFeePerGasWei : U128) : TransactionRequest :=
  let tx := match gas with
    | some gas => { tx with gas := some gas }
    | none => tx
  { tx with maxFeePerGas := some maxFeePerGasWei, maxPriorityFeePerGas := some 0 }

/-- The receipt of a transaction that completed and was not reverted. -/
def completed (name : String) (txHash : B256) (response : Except String TransactionReceipt) :
    Outcome String TransactionReceipt := do
  let receipt ← .wrapErr "tx failed to complete" (.ofExcept response)
  if receipt.status = false then
    .err s!"{name} tx reverted {red}{toHex txHash.1}{clear}"
  else
    return receipt

/-- Send the transaction and wait for its receipt. -/
def runTx (name : String) (tx : TransactionRequest) (gas : Option U64) (maxFeePerGasWei : U128) :
    Rpc TransactionReceipt := do
  let txHash ← ask (Request.sendTransaction (tx.withFee gas maxFeePerGasWei))
  askWith (Request.getReceipt txHash) (completed name txHash)

variable {name : String} {tx : TransactionRequest} {gas : Option U64} {maxFeePerGasWei : U128}
  {txHash : B256} {receipt : TransactionReceipt}

/-- A receipt that is returned is of a transaction that was not reverted. -/
theorem completed_eq_ok {response : Except String TransactionReceipt} :
    completed name txHash response = .ok receipt ↔
      response = .ok receipt ∧ receipt.status = true := by
  rcases response with e | ⟨_ | _, contractAddress, logs⟩
  · simp [completed, Outcome.wrapErr]
  · simp only [completed, Outcome.wrapErr, Outcome.ofExcept_ok, Outcome.ok_bind, if_true,
      reduceCtorEq, false_iff, Except.ok.injEq, not_and]
    rintro rfl
    exact Bool.false_ne_true
  · simp only [completed, Outcome.wrapErr, Outcome.ofExcept_ok, Outcome.ok_bind, Except.ok.injEq]
    refine ⟨fun h => ?_, fun h => ?_⟩
    · obtain rfl := Outcome.ok.inj h
      exact ⟨rfl, rfl⟩
    · exact congrArg Outcome.ok h.1

/-- The one transaction is sent, and a receipt that is returned is of it. -/
theorem runTx_spec : wp (runTx name tx gas maxFeePerGasWei) fun log o =>
    sent log = [tx.withFee gas maxFeePerGasWei] ∧
      ∀ receipt, o = .ok receipt → receipt.status = true ∧ ∃ txHash, log =
        [⟨.sendTransaction (tx.withFee gas maxFeePerGasWei), .ok txHash⟩,
          ⟨.getReceipt txHash, .ok receipt⟩] := by
  rintro (e | txHash)
  · exact ⟨rfl, by rintro _ ⟨⟩⟩
  · refine fun response => ⟨rfl, fun receipt hreceipt => ?_⟩
    obtain ⟨rfl, hstatus⟩ := completed_eq_ok.1 hreceipt
    exact ⟨hstatus, txHash, rfl⟩

/-- At most `tx` is sent, with what it costs filled in. -/
def SendsAtMost (tx : TransactionRequest) (p : Rpc α) : Prop :=
  wp p fun log _ => sent log = [] ∨ ∃ gas maxFeePerGasWei, sent log =
    [tx.withFee gas maxFeePerGasWei]

theorem quietClosed_sendsAtMost : QuietClosed fun log (_ : Outcome String β) =>
    sent log = [] ∨ ∃ gas maxFeePerGasWei, sent log = [tx.withFee gas maxFeePerGasWei] :=
  quietClosed_sent
    (P := fun txs => txs = [] ∨ ∃ gas maxFeePerGasWei, txs = [tx.withFee gas maxFeePerGasWei])
    (.inl rfl)

theorem SendsAtMost.quiet_bind {p : Rpc α} {f : α → Rpc β} (hp : Quiet p)
    (hf : ∀ a, SendsAtMost tx (f a)) : SendsAtMost tx (p >>= f) :=
  quietClosed_sendsAtMost.bind hp hf

/-- Only the transaction is sent, if what follows sends none. -/
theorem sendsAtMost_runTx_bind {f : TransactionReceipt → Rpc β}
    (hf : ∀ receipt, Quiet (f receipt)) :
    SendsAtMost tx (runTx name tx gas maxFeePerGasWei >>= f) := by
  have hsent : wp (runTx name tx gas maxFeePerGasWei) fun log _ =>
      sent log = [tx.withFee gas maxFeePerGasWei] :=
    wp_mono runTx_spec fun _ _ h => h.1
  refine wp_mono (wp_sent_bind (P := fun txs => txs = _) hsent hf) fun log o h => ?_
  exact .inr ⟨gas, maxFeePerGasWei, h⟩

/-- A run that returns has sent `n` transactions. -/
def Counts (n : ℕ) (p : Rpc α) : Prop :=
  wp p fun log o => o.IsOk → (sent log).length = n

theorem Counts.of_quiet {p : Rpc α} (hp : Quiet p) : Counts 0 p :=
  wp_mono hp fun _ _ hlog _ => congrArg List.length (sent_eq_nil hlog)

theorem Counts.bind {n m : ℕ} {p : Rpc α} {f : α → Rpc β} (hp : Counts n p)
    (hf : ∀ a, Counts m (f a)) : Counts (n + m) (p >>= f) := by
  refine wp_bind_of hp (fun log a hlog => ?_) (fun _ e _ hok => ?_) (fun _ e _ hok => ?_)
  · refine wp_mono (hf a) fun log' o hlog' hok => ?_
    rw [sent_append, List.length_append, hlog (Outcome.isOk_ok a), hlog' hok]
  · exact absurd hok (Outcome.not_isOk_err e)
  · exact absurd hok (Outcome.not_isOk_panic e)

theorem Counts.quiet_bind {n : ℕ} {p : Rpc α} {f : α → Rpc β} (hp : Quiet p)
    (hf : ∀ a, Counts n (f a)) : Counts n (p >>= f) :=
  Nat.zero_add n ▸ (Counts.of_quiet hp).bind hf

theorem Counts.lift_bind {n : ℕ} {o : Outcome String α} {f : α → Rpc β}
    (hf : ∀ a, o = .ok a → Counts n (f a)) : Counts n (lift o >>= f) := by
  rcases o with a | e | m
  · exact hf a rfl
  · exact fun hok => absurd hok (Outcome.not_isOk_err e)
  · exact fun hok => absurd hok (Outcome.not_isOk_panic m)

/-- One transaction is sent, if what follows sends none. -/
theorem counts_runTx_bind {f : TransactionReceipt → Rpc β} (hf : ∀ receipt, Quiet (f receipt)) :
    Counts 1 (runTx name tx gas maxFeePerGasWei >>= f) := by
  have hrun : Counts 1 (runTx name tx gas maxFeePerGasWei) :=
    wp_mono runTx_spec fun _ _ h _ => congrArg List.length h.1
  exact hrun.bind fun receipt => .of_quiet (hf receipt)

/-- A transaction that fails is the last request. -/
theorem stops_runTx : Stops Fails (runTx name tx gas maxFeePerGasWei) := by
  refine (stops_ask fun _ => not_false).bind fun txHash => stops_askWith fun response hfails => ?_
  rintro ⟨receipt, hreceipt⟩
  obtain ⟨rfl, hstatus⟩ := completed_eq_ok.1 hreceipt
  exact Bool.false_ne_true (hfails.symm.trans hstatus)

/-- A transaction can come through, with any receipt that is not of a reverted one. -/
theorem reaches_runTx (receipt : TransactionReceipt) (h : receipt.status = true) :
    Reaches (runTx name tx gas maxFeePerGasWei) [tx.withFee gas maxFeePerGasWei] receipt := by
  have hcompleted : Reaches (askWith (.getReceipt (filled 32 0)) (completed name (filled 32 0)))
      [] receipt :=
    ⟨[⟨.getReceipt (filled 32 0), .ok receipt⟩], rfl, .askWith (completed_eq_ok.2 ⟨rfl, h⟩)⟩
  exact .ask_bind (.sendTransaction _) (filled 32 0) hcompleted

end CargoStylus
