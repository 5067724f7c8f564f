import CargoStylus.Fees
import CargoStylus.Rust.Panics

/-!
# Calls that a contract may revert

A call that is run without being sent returns what the contract returned, or fails, and a failure
may have the error that the contract reverted with. The commands tell them apart in one way
(`callResult`) : a value, an error of the contract's interface, or an error that is reported.

What a command asks of a node is then these calls (`NodeRequest.call`) and what is asked
otherwise (`NodeRequest.node`), of which `nodeLog` has the responses.
-/

namespace CargoStylus

open Rust Rust.Interaction Rust.Interaction.Prog

/-- `ErrorPayload` of a response, with how it is shown. -/
structure ErrorPayload where
  data : Option Bytes
  shown : String

/-- A request to the node, of which some are calls that may be reverted. -/
inductive NodeRequest where
  | node (r : Request)
  /-- Run `tx` without sending it. -/
  | call (tx : TransactionRequest)

/-- What a request is responded to by. -/
abbrev NodeRequest.Response : NodeRequest → Type
  | node r => r.Response
  | call _ => Except ErrorPayload Bytes

/-- A command that makes such calls. -/
abbrev NodeRpc (α : Type) := Prog NodeRequest NodeRequest.Response String α

/-- The requests of a run, with the responses to them. -/
abbrev NodeLog := Log NodeRequest NodeRequest.Response String

/-- A request and the response to it, or the error. -/
abbrev NodeEntry := Σ r : NodeRequest, Except String r.Response

/-- Commands without such calls are commands with them. -/
def nodeEmbedding : Embedding Request Request.Response NodeRequest NodeRequest.Response where
  request := .node
  response _ x := x

/-- A command without such calls. -/
abbrev ofRpc {α : Type} (p : Rpc α) : NodeRpc α :=
  p.embed nodeEmbedding

/-- What is asked otherwise. -/
def nodeLog (log : NodeLog) : RpcLog :=
  log.filterMap fun
    | ⟨.node r, x⟩ => some ⟨r, x⟩
    | ⟨.call _, _⟩ => none

@[simp] theorem nodeLog_nil : nodeLog [] = [] :=
  rfl

@[simp] theorem nodeLog_append (log log' : NodeLog) :
    nodeLog (log ++ log') = nodeLog log ++ nodeLog log' :=
  List.filterMap_append

/-- The log of a program in a wider system. -/
theorem nodeLog_of_carries {log' : NodeLog} {log : RpcLog} (h : nodeEmbedding.Carries log' log) :
    nodeLog log' = log := by
  induction h with
  | nil => rfl
  | @cons r x log' log _ ih =>
    have hentry : nodeEmbedding.entry r x = ⟨r, x⟩ := by
      cases x <;> rfl
    rw [hentry, ← ih]
    rfl

theorem mem_of_mem_nodeLog {r : Request} {x : Except String r.Response} {log : NodeLog}
    (h : ⟨r, x⟩ ∈ nodeLog log) : (⟨.node r, x⟩ : NodeEntry) ∈ log := by
  obtain ⟨⟨request, response⟩, hmem, hentry⟩ := List.mem_filterMap.1 h
  cases request with
  | node r' =>
    obtain ⟨rfl, hresponse⟩ := Sigma.mk.inj (Option.some.inj hentry)
    obtain rfl := eq_of_heq hresponse
    exact hmem
  | call tx => cases hentry

/-- The transactions of a run, in order. -/
def sentBy (log : NodeLog) : List TransactionRequest :=
  sent (nodeLog log)

@[simp] theorem sentBy_append (log log' : NodeLog) :
    sentBy (log ++ log') = sentBy log ++ sentBy log' := by
  rw [sentBy, nodeLog_append, sent_append]
  rfl

/-- The request sends a transaction. -/
def NodeRequest.IsSend : NodeRequest → Prop
  | node r => r.IsSend
  | call _ => False

theorem sentBy_eq_nil {log : NodeLog} (h : ∀ entry ∈ log, ¬entry.1.IsSend) : sentBy log = [] := by
  refine sent_eq_nil fun entry hentry => ?_
  exact h _ (mem_of_mem_nodeLog hentry)

theorem wp_ofRpc {α : Type} {p : Rpc α} {Q : RpcLog → Outcome String α → Prop} (h : wp p Q) :
    wp (ofRpc p) fun log o => Q (nodeLog log) o :=
  wp_embed (wp_mono h fun log o hlog log' hcarries => by rwa [nodeLog_of_carries hcarries])

/-- A run is one of the command without such calls. -/
theorem wp_ofRpc_runs {α : Type} {p : Rpc α} : wp (ofRpc p) fun log o => Runs p (nodeLog log) o :=
  wp_ofRpc (wp_iff_runs.2 fun _ _ hrun => hrun)

/-- The runs of a program are those of it in the wider system. -/
theorem runs_ofRpc {α : Type} {p : Rpc α} {log : RpcLog} {o : Outcome String α}
    (h : Runs p log o) : ∃ log', nodeLog log' = log ∧ Runs (ofRpc p) log' o := by
  obtain ⟨log', hcarries, hrun⟩ := h.embed (e := nodeEmbedding) fun r x => ⟨x, rfl⟩
  exact ⟨log', nodeLog_of_carries hcarries, hrun⟩

theorem yields_question {P : NodeRequest → Prop} {r : Request} (hr : ¬P (.node r)) :
    Yields P (fun log x => log = [⟨.node r, .ok x⟩]) (ofRpc (ask r)) := by
  intro response
  refine ⟨List.forall_mem_singleton.2 hr, fun x hx => ?_⟩
  rcases response with e | y
  · cases hx
  · obtain rfl := Outcome.ok.inj hx
    rfl

theorem runs_ofRpc_askWith {α : Type} {r : Request}
    {g : Except String r.Response → Outcome String α} {a : α} {x : r.Response}
    (hg : g (.ok x) = .ok a) : Runs (ofRpc (askWith r g)) [⟨.node r, .ok x⟩] (.ok a) := by
  have hdone : Runs (ofRpc (done (g (.ok x)))) [] (.ok a) := by
    rw [hg]
    exact .done _
  exact @Runs.call NodeRequest NodeRequest.Response _ _ (.node r) _ (.ok x) [] _ hdone

theorem runs_question (r : Request) (x : r.Response) :
    Runs (ofRpc (ask r)) [⟨.node r, .ok x⟩] (.ok x) :=
  runs_ofRpc_askWith rfl

/-- Nothing is sent, and a value that is returned is in `R`, as the responses were. -/
abbrev Asks {α : Type} (R : NodeLog → α → Prop) (p : NodeRpc α) : Prop :=
  Yields NodeRequest.IsSend R p

theorem noPanic_checkActivate {env : ActivateEnv} {address : Address} {opts : DataFeeOpts} :
    NoPanic (checkActivate env code address opts) := by
  refine (noPanic_askWith fun response => ?_).bind fun dataFee =>
    noPanic_done (Outcome.not_isPanic_ok _)
  exact fun h => Outcome.not_isPanic_ofExcept _ (Outcome.isPanic_mapErr.1 h)

/-! ## What a call returns -/

variable {ε α : Type}

/-- The one word that is returned. -/
def decodeWord (returned : Bytes) : Except String U256 :=
  if returned.length < 32 then .error "ABI decoding failed: buffer overrun while deserializing"
  else .ok (readWord returned)

/-- The value of a call, or the error of the interface that the contract reverted with. -/
def callResult (decodeError : Bytes → Option ε) (decode : Bytes → Except String α) :
    Except String (Except ErrorPayload Bytes) → Outcome String (Except ε α)
  | .ok (.ok returned) =>
    match decode returned with
    | .ok a => .ok (.ok a)
    | .error e => .err ("failed to send cache bid tx: " ++ e)
  | .error tperr => .err ("no error payload received in response: " ++ tperr)
  | .ok (.error errResp) =>
    match errResp.data.bind decodeError with
    | some err => .ok (.error err)
    | none => .err ("failed to decode CacheManager error: " ++ errResp.shown)

variable {decodeError : Bytes → Option ε} {decode : Bytes → Except String α}

/-- The contract reverted with the error. -/
def Reverts (decodeError : Bytes → Option ε) (err : ε)
    (response : Except String (Except ErrorPayload Bytes)) : Prop :=
  ∃ payload data, response = .ok (.error payload) ∧ payload.data = some data ∧
    decodeError data = some err

/-- A result is decoded from what was returned, or from the error of a call that was reverted. -/
theorem callResult_eq_ok {response : Except String (Except ErrorPayload Bytes)}
    {result : Except ε α} (h : callResult decodeError decode response = .ok result) :
    (∃ a returned, result = .ok a ∧ response = .ok (.ok returned) ∧ decode returned = .ok a) ∨
      ∃ err, result = .error err ∧ Reverts decodeError err response := by
  rcases response with tperr | errResp | returned
  · cases h
  · rw [callResult] at h
    rcases herr : errResp.data.bind decodeError with _ | err
    · rw [herr] at h
      cases h
    · rw [herr] at h
      obtain ⟨data, hdata, hdecode⟩ := Option.bind_eq_some_iff.1 herr
      exact .inr ⟨err, (Outcome.ok.inj h).symm, errResp, data, rfl, hdata, hdecode⟩
  · rw [callResult] at h
    rcases hdecode : decode returned with e | a
    · rw [hdecode] at h
      cases h
    · rw [hdecode] at h
      exact .inl ⟨a, returned, (Outcome.ok.inj h).symm, rfl, hdecode⟩

theorem Reverts.callResult_eq {response : Except String (Except ErrorPayload Bytes)} {err : ε}
    (h : Reverts decodeError err response) :
    callResult decodeError decode response = .ok (.error err) := by
  obtain ⟨payload, data, rfl, hdata, hdecode⟩ := h
  rw [callResult, hdata, Option.bind_some, hdecode]

/-- A call that is reverted returns no data. -/
theorem Reverts.ne_returned {response : Except String (Except ErrorPayload Bytes)} {err : ε}
    (h : Reverts decodeError err response) (returned : Bytes) : response ≠ .ok (.ok returned) := by
  obtain ⟨payload, data, rfl, -, -⟩ := h
  simp

theorem not_isPanic_callResult (response : Except String (Except ErrorPayload Bytes)) :
    ¬(callResult decodeError decode response).IsPanic := by
  rcases response with tperr | errResp | returned
  · exact Outcome.not_isPanic_err _
  · rw [callResult]
    rcases errResp.data.bind decodeError with _ | err
    · exact Outcome.not_isPanic_err _
    · exact Outcome.not_isPanic_ok _
  · rw [callResult]
    rcases decode returned with e | a
    · exact Outcome.not_isPanic_err _
    · exact Outcome.not_isPanic_ok _

end CargoStylus
