import CargoStylus.RoundTrip

/-!
# Fetching a trace

`Trace.new` asks a node for a transaction, its receipt and what the tracer makes of it. The
trace of the activation of a contract is told apart by its shape : an array of objects that all
have an address. But the record of a frame has an address too, so a trace is only built if
there is some record of a host I/O without one (`trace_built_iff`).
-/

namespace CargoStylus

open Rust Json

/-- A replayed transaction : its frame, what the node says of it, and the trace it came from. -/
structure Trace (Tx : Type) where
  topFrame : TraceFrame
  tx : Tx
  json : Value

/-- The node, with `Tx` what it says of a transaction. -/
structure TraceNode (Tx : Type) where
  /-- The recipient in the receipt of a transaction, if it has one. -/
  getTransactionReceipt : B256 → Except String (Option (Option Address))
  getTransactionByHash : B256 → Except String (Option Tx)
  /-- What a tracer returns, if that is JSON. -/
  debugTraceTransaction : B256 → (useNativeTracer : Bool) → Except String (Option Value)

/-- The errors of `Trace::new`. -/
inductive TraceNewError where
  | message (text : String)
  | parse (e : TraceError)

/-- `ActivationTraceFrame` can be read from a value : an object with an address, or an array of
the one field. -/
def isActivationTraceFrame : Value → Bool
  | .object keys => (Fields.get? keys "address").isSome
  | .array fields => fields.length = 1
  | _ => false

/-- A list of `ActivationTraceFrame` can be read from a value. -/
def isActivationTrace : Value → Bool
  | .array array => array.all isActivationTraceFrame
  | _ => false

/-- A response that has to be there. -/
def ofResponse {α : Type} (missing : String) :
    Except String (Option α) → Outcome TraceNewError α
  | .ok (some a) => .ok a
  | .ok none => .err (.message missing)
  | .error e => .err (.message e)

/-- The frame of the JSON that the tracer gave. -/
def parseTrace (json : Value) (recipient : Option Address) : Outcome TraceNewError TraceFrame :=
  match parseFrame json recipient with
  | .ok frame => .ok frame
  | .err e => .err (.parse e)
  | .panic m => .panic m

/-- The error for an empty trace. -/
def noFramesMessage : String :=
  "No trace frames found, perhaps you are attempting to trace the contract deployment transaction"

/-- The error for an empty trace of an activation. -/
def activationMessage : String :=
  "Your tx was a contract activation transaction. It has no trace frames"

/-- The tracer recorded nothing. -/
def isEmptyArray : Value → Bool
  | .array [] => true
  | _ => false

variable {Tx : Type}

/-- `Trace::new` -/
def Trace.new (node : TraceNode Tx) (hash : B256) (useNativeTracer : Bool) :
    Outcome TraceNewError (Trace Tx) := do
  let recipient ← ofResponse ("failed to get receipt for tx: " ++ toHex hash.1)
    (node.getTransactionReceipt hash)
  let tx ← ofResponse ("failed to get tx data: " ++ toHex hash.1) (node.getTransactionByHash hash)
  let json ← ofResponse "malformed tracing result"
    (node.debugTraceTransaction hash useNativeTracer)
  if isEmptyArray json then .err (.message noFramesMessage)
  else if isActivationTrace json then .err (.message activationMessage)
  else
    let topFrame ← parseTrace json recipient
    return { topFrame, tx, json }

/-! ## Which traces are taken for an activation -/

variable {node : TraceNode Tx} {hash : B256} {useNativeTracer : Bool} {recipient : Option Address}
  {tx : Tx} {vs : List Value} {f : TraceFrame}

theorem parseTrace_of_ok {json : Value} (h : parseFrame json recipient = .ok f) :
    parseTrace json recipient = .ok f := by
  rw [parseTrace, h]

/-- A trace that can be read is built unless it looks like an activation. -/
theorem trace_new_eq (hreceipt : node.getTransactionReceipt hash = .ok (some recipient))
    (htx : node.getTransactionByHash hash = .ok (some tx))
    (htrace : node.debugTraceTransaction hash useNativeTracer = .ok (some (.array vs)))
    (hne : vs ≠ []) (hparse : parseFrame (.array vs) recipient = .ok f) :
    Trace.new node hash useNativeTracer =
      if isActivationTrace (.array vs) then .err (.message activationMessage)
      else .ok ⟨f, tx, .array vs⟩ := by
  have hempty : isEmptyArray (.array vs) = false := by
    cases vs with
    | nil => exact absurd rfl hne
    | cons v vs => rfl
  simp only [Trace.new, hreceipt, htx, htrace, ofResponse, Outcome.ok_bind, hempty,
    Bool.false_eq_true, if_false, parseTrace_of_ok hparse, Outcome.pure_eq]

/-- A step without an address is of a host I/O that nests no frame. -/
theorem isActivationTraceFrame_eq_false {v : Value} {h : Hostio TraceFrame}
    (hparse : parseStep v = .ok h) :
    isActivationTraceFrame v = false ↔
      ∃ keys : Fields, v = .object keys ∧ h.kind.frame? = none ∧ keys.get? "address" = none := by
  obtain ⟨keys, rfl, name, args, outs, -, -, hnests⟩ := parseStep_eq_ok.1 hparse
  simp only [isActivationTraceFrame, Option.isSome_eq_false_iff, Option.isNone_iff_eq_none,
    Value.object.injEq, exists_eq_left']
  refine (and_iff_right_of_imp fun haddress => ?_).symm
  rw [Option.eq_none_iff_forall_ne_some]
  intro g hg
  obtain ⟨t, address, v, ht, -⟩ := hnests g hg
  rw [haddress] at ht
  cases ht

theorem isActivationTrace_eq_false {hs : List (Hostio TraceFrame)}
    (h : List.Forall₂ (fun v h => parseStep v = .ok h) vs hs) :
    isActivationTrace (.array vs) = false ↔ ∃ (keys : Fields) (h : Hostio TraceFrame),
      (.object keys, h) ∈ vs.zip hs ∧ h.kind.frame? = none ∧ keys.get? "address" = none := by
  rw [isActivationTrace]
  induction h with
  | nil => simp
  | @cons v h vs hs hparse _ ih =>
    rw [List.all_cons, Bool.and_eq_false_iff, ih, isActivationTraceFrame_eq_false hparse]
    simp only [List.zip_cons_cons, List.mem_cons, Prod.mk.injEq]
    refine ⟨fun h => ?_, fun h => ?_⟩
    · rcases h with ⟨keys, rfl, hkeys⟩ | ⟨keys, h', hmem, hkeys⟩
      · exact ⟨keys, h, .inl ⟨rfl, rfl⟩, hkeys⟩
      · exact ⟨keys, h', .inr hmem, hkeys⟩
    · obtain ⟨keys, h', ⟨rfl, rfl⟩ | hmem, hkeys⟩ := h
      · exact .inl ⟨keys, rfl, hkeys⟩
      · exact .inr ⟨keys, h', hmem, hkeys⟩

/-- A trace that can be read is built exactly if some record is of a host I/O that nests no
frame, and has no address. -/
theorem trace_built_iff (hreceipt : node.getTransactionReceipt hash = .ok (some recipient))
    (htx : node.getTransactionByHash hash = .ok (some tx))
    (htrace : node.debugTraceTransaction hash useNativeTracer = .ok (some (.array vs)))
    (hne : vs ≠ []) (hparse : parseFrame (.array vs) recipient = .ok f) :
    Trace.new node hash useNativeTracer = .ok ⟨f, tx, .array vs⟩ ↔
      ∃ (keys : Fields) (h : Hostio TraceFrame), (.object keys, h) ∈ vs.zip f.steps ∧
        h.kind.frame? = none ∧ keys.get? "address" = none := by
  obtain ⟨vs', hvs, -, hsteps⟩ := parseFrame_eq_ok.1 hparse
  obtain rfl := Value.array.inj hvs
  rw [trace_new_eq hreceipt htx htrace hne hparse, ← isActivationTrace_eq_false hsteps]
  rcases hactivation : isActivationTrace (.array vs) with _ | _
  · simp
  · simp

/-- A node that has one transaction, and this trace of it. -/
def nodeOf (json : Value) : TraceNode Unit where
  getTransactionReceipt _ := .ok (some none)
  getTransactionByHash _ := .ok (some ())
  debugTraceTransaction _ _ := .ok (some json)

/-- A contract that asks whether it is reentrant. -/
def reentrantFrame : TraceFrame :=
  .mk [⟨.msgReentrant true, 80, 70⟩] none

theorem reentrantFrame_encodable : reentrantFrame.Encodable :=
  encodable_msgReentrant none

theorem reentrantFrame_built :
    Trace.new (nodeOf (encode reentrantFrame)) (filled 32 0) false =
      .ok ⟨reentrantFrame, (), encode reentrantFrame⟩ :=
  (@trace_built_iff _ (nodeOf (encode reentrantFrame)) _ _ _ _ _ _ rfl rfl rfl
    (List.cons_ne_nil _ _) (parseFrame_encode reentrantFrame reentrantFrame_encodable)).2
    ⟨_, _, List.mem_singleton.2 rfl, rfl, rfl⟩

/-- A call that no host I/O accounts for, of a contract that is entered. -/
def evmCallFrame : TraceFrame :=
  let address : Address := filled 20 0x45
  .mk [⟨.evmCall "evm_call_contract" (.mk [⟨.userEntrypoint 1, 0, 0⟩] address), 0, 0⟩] none

theorem evmCallFrame_encodable : evmCallFrame.Encodable := by
  refine .cons ⟨fun _ => nofun, ⟨by decide, by decide, by decide⟩, ?_⟩ ?_ .nil
  · rintro _ ⟨⟩
    rfl
  · rintro _ ⟨⟩
    exact .cons ⟨fun _ => nofun, trivial, nofun⟩ nofun .nil

/-- The parser reads that trace, and it is taken for an activation. -/
theorem evmCallFrame_not_built :
    parseFrame (encode evmCallFrame) none = .ok evmCallFrame ∧
      Trace.new (nodeOf (encode evmCallFrame)) (filled 32 0) false =
        .err (.message activationMessage) :=
  ⟨parseFrame_encode evmCallFrame evmCallFrame_encodable, rfl⟩

end CargoStylus
