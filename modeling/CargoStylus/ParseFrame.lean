import Mathlib.Data.List.Basic
import CargoStylus.Json
import CargoStylus.Trace
import CargoStylus.Rust.Outcome
import CargoStylus.Rust.Utf8

/-!
# Parsing a trace

`parseFrame` reads the JSON array a tracer returns. Each step of the array is an object :
its name picks the kind of host I/O, and the kind's fields are read from the front of the
bytes of `args` and of `outs`. A step that leaves bytes unread is a panic, and so is a name
that is neither known nor an `evm_` frame.

Reading a step is a computation on the entries of the object that are not taken yet and
the bytes that are not read yet. Every reader has one lemma that says what it reads
(`readFixed_run`, `readData_run`, `frame_run`) : the bytes before are the field's bytes
followed by the bytes after.
-/

namespace CargoStylus

open Rust Json

/-- The byte string a field is read from. -/
inductive Src where
  | args
  | outs
deriving DecidableEq

/-- The errors of `parse_frame`. -/
inductive TraceError where
  /-- `not an array: {}` -/
  | notArray (v : Value)
  /-- `not a valid step: {}` -/
  | notStep (v : Value)
  /-- `object missing {}: {:?}` -/
  | missing (name : String) (keys : Fields)
  /-- `unexpected type for {}: {}` -/
  | unexpectedType (name : String) (v : Value)
  /-- `{} does not contain 0x prefix` -/
  | noPrefix (name : String)
  /-- `failed to parse {}` -/
  | badHex (name : String)
  /-- `parse {}: want {} bytes; got {}` -/
  | short (src : Src) (want got : ℕ)

/-- A step that is being read. -/
structure Step where
  /-- The entries not taken yet. -/
  keys : Fields
  /-- The bytes of `args` not read yet. -/
  args : Bytes
  /-- The bytes of `outs` not read yet. -/
  outs : Bytes

/-- A reader of one record. -/
abbrev StepM := StateT Step (Outcome TraceError)

namespace Step

/-- The bytes not read yet. -/
def bytes (s : Step) : Src → Bytes
  | .args => s.args
  | .outs => s.outs

/-- `s` with other unread bytes. -/
def setBytes (s : Step) (b : Bytes) : Src → Step
  | .args => { s with args := b }
  | .outs => { s with outs := b }

/-- `s` before the bytes `b` were read. -/
def unread (s : Step) (src : Src) (b : Bytes) : Step :=
  s.setBytes (b ++ s.bytes src) src

@[simp] theorem unread_args (s : Step) (b : Bytes) :
    s.unread .args b = { s with args := b ++ s.args } :=
  rfl

@[simp] theorem unread_outs (s : Step) (b : Bytes) :
    s.unread .outs b = { s with outs := b ++ s.outs } :=
  rfl

end Step

/-! ## Readers -/

section Readers

variable {α F : Type}

/-- `get_typed!` : the value at a key, of the wanted form. -/
def getTyped (as : Value → Option α) (name : String) : StepM α := do
  let s ← get
  let (v, keys) ← (Outcome.ofOption (.missing name s.keys) (s.keys.remove name) :
    Outcome TraceError (Value × Fields))
  set { s with keys := keys }
  (Outcome.ofOption (.unexpectedType name v) (as v) : Outcome TraceError α)

/-- The number that a value is. -/
def asNumber : Value → Option Number
  | .number n => some n
  | _ => none

/-- The string that a value is. -/
def asString : Value → Option String
  | .string s => some s
  | _ => none

/-- `get_int!` -/
def getInt (name : String) : StepM U64 := do
  let n ← getTyped asNumber name
  (Outcome.unwrap "called Option::unwrap on a None value" n.asU64 : Outcome TraceError U64)

/-- `get_hex!` : the bytes of `0x` text. -/
def getHex (name : String) : StepM Bytes := do
  let data ← getTyped asString name
  let data ← (Outcome.ofOption (.noPrefix name) (data.toList.dropPrefix? ['0', 'x']) :
    Outcome TraceError (List Char))
  (Outcome.ofOption (.badHex name) (hexDecode data) : Outcome TraceError Bytes)

/-- `read_data!` : all the bytes left. -/
def readData (src : Src) : StepM Bytes := do
  let s ← get
  set (s.setBytes [] src)
  return s.bytes src

/-- `read_ty!` : the next `size` bytes. -/
def readFixed (src : Src) (size : ℕ) : StepM (FixedBytes size) := do
  let s ← get
  if h : size ≤ (s.bytes src).length then
    set (s.setBytes ((s.bytes src).drop size) src)
    return ⟨(s.bytes src).take size, by simp [h]⟩
  else
    (.err (.short src size (s.bytes src).length) : Outcome TraceError (FixedBytes size))

/-- `read_num!`, and `read_u256!` for a word. -/
def readNum (src : Src) (size : ℕ) : StepM (BitVec (8 * size)) := do
  return fromBeBytes (← readFixed src size)

/-- A number of one byte. -/
def readU8 (src : Src) : StepM U8 := readNum src 1
/-- A number of 2 bytes. -/
def readU16 (src : Src) : StepM U16 := readNum src 2
/-- A number of 4 bytes. -/
def readU32 (src : Src) : StepM U32 := readNum src 4
/-- A number of 8 bytes. -/
def readU64 (src : Src) : StepM U64 := readNum src 8
/-- A number of 32 bytes. -/
def readU256 (src : Src) : StepM U256 := readNum src 32
/-- A word of 32 bytes. -/
def readB256 (src : Src) : StepM B256 := readFixed src 32
/-- An address of 20 bytes. -/
def readAddress (src : Src) : StepM Address := readFixed src 20

/-- `mem::size_of::<String>()` on a 64-bit host : a pointer, a capacity and a length. -/
def sizeOfString : ℕ := 24

/-- `read_string!` -/
def readString (src : Src) : StepM String := do
  return String.ofList (fromUtf8Lossy (← readFixed src sizeOfString).1)

/-- `Address::from_slice` -/
def addressFromSlice (b : Bytes) : Outcome TraceError Address :=
  if h : b.length = 20 then .ok ⟨b, h⟩
  else .panic "cannot convert a slice to FixedBytes<20>"

/-- `frame!` : the frame nested in a step. `nested` is the value under `steps`, if there
is one, waiting for the address to be parsed at. -/
def frame (nested : Option (Address → Outcome TraceError F)) : StepM F := do
  let address ← getHex "address"
  let address ← addressFromSlice address
  let steps ← (Outcome.unwrap "called Option::unwrap on a None value" nested :
    Outcome TraceError (Address → Outcome TraceError F))
  steps address

/-! ### What the readers read -/

/-- `0x` text as bytes. -/
def ofHex (text : String) : Option Bytes :=
  (text.toList.dropPrefix? ['0', 'x']).bind hexDecode

@[simp] theorem ofHex_toHex (b : Bytes) : ofHex (toHex b) = some b := by
  have hdrop : (['0', 'x'] ++ hexEncode b).dropPrefix? ['0', 'x'] = some (hexEncode b) :=
    List.dropPrefix?_append_of_beq (hexEncode b) (beq_self_eq_true _)
  rw [List.cons_append, List.singleton_append] at hdrop
  simp [ofHex, toHex, hdrop]

@[simp] theorem liftOutcome_run {s s' : Step} {x : α} {o : Outcome TraceError α} :
    (liftM o : StepM α).run s = .ok (x, s') ↔ o = .ok x ∧ s = s' := by
  cases o <;> simp [liftM, monadLift, MonadLift.monadLift, StateT.lift, StateT.run]

theorem asNumber_eq_some {v : Value} {n : Number} : asNumber v = some n ↔ v = .number n := by
  cases v <;> simp [asNumber]

theorem asString_eq_some {v : Value} {s : String} : asString v = some s ↔ v = .string s := by
  cases v <;> simp [asString]

theorem getTyped_run {as : Value → Option α} {name : String} {s s' : Step} {x : α} :
    (getTyped as name).run s = .ok (x, s') ↔ ∃ v, s.keys.get? name = some v ∧ as v = some x ∧
      { s with keys := s.keys.erase name } = s' := by
  simp [getTyped, Outcome.bind_eq_ok, Fields.remove_eq_some]

theorem getInt_run {name : String} {s s' : Step} {n : U64} :
    (getInt name).run s = .ok (n, s') ↔ s.keys.get? name = some (.number (.posInt n)) ∧
      { s with keys := s.keys.erase name } = s' := by
  simp [getInt, Outcome.bind_eq_ok, getTyped_run, asNumber_eq_some]

theorem getHex_run {name : String} {s s' : Step} {b : Bytes} :
    (getHex name).run s = .ok (b, s') ↔ ∃ t, s.keys.get? name = some (.string t) ∧
      ofHex t = some b ∧ { s with keys := s.keys.erase name } = s' := by
  simp only [getHex, StateT.run_bind, Outcome.bind_eq_ok, Prod.exists, getTyped_run,
    asString_eq_some, liftOutcome_run, Outcome.ofOption_eq_ok, ofHex, Option.bind_eq_some_iff]
  refine ⟨fun h => ?_, fun h => ?_⟩
  · obtain ⟨t, _, ⟨_, hget, rfl, rfl⟩, cs, _, ⟨hcs, rfl⟩, hb, rfl⟩ := h
    exact ⟨t, hget, ⟨cs, hcs, hb⟩, rfl⟩
  · obtain ⟨t, hget, ⟨cs, hcs, hb⟩, rfl⟩ := h
    exact ⟨t, _, ⟨_, hget, rfl, rfl⟩, cs, _, ⟨hcs, rfl⟩, hb, rfl⟩

theorem readData_run {src : Src} {s s' : Step} {b : Bytes} :
    (readData src).run s = .ok (b, s') ↔ s = s'.unread src b ∧ s'.bytes src = [] := by
  cases src <;> cases s <;> cases s' <;> simp [readData, Step.bytes, Step.setBytes] <;> grind

/-- Cutting a list at the length of `b` gives `b` and `c` exactly when it is `b ++ c`. -/
theorem take_drop_length (b a c : Bytes) :
    (b.length ≤ a.length ∧ a.take b.length = b ∧ a.drop b.length = c) ↔ a = b ++ c := by
  refine ⟨fun h => ?_, fun h => ?_⟩
  · obtain ⟨-, h1, h2⟩ := h
    conv_lhs => rw [← List.take_append_drop b.length a, h1, h2]
  · subst h
    simp

theorem readFixed_run {src : Src} {n : ℕ} {s s' : Step} {b : FixedBytes n} :
    (readFixed src n).run s = .ok (b, s') ↔ s = s'.unread src b.1 := by
  obtain ⟨b, rfl⟩ := b
  obtain ⟨keys, args, outs⟩ := s
  obtain ⟨keys', args', outs'⟩ := s'
  cases src with
  | args =>
    by_cases h : b.length ≤ args.length
    · have hcut := take_drop_length b args args'
      simp [readFixed, Step.bytes, Step.setBytes, h] at hcut ⊢
      tauto
    · have hcut : args ≠ b ++ args' := fun heq => h (by simp [heq])
      simp [readFixed, Step.bytes, Step.setBytes, h, hcut]
  | outs =>
    by_cases h : b.length ≤ outs.length
    · have hcut := take_drop_length b outs outs'
      simp [readFixed, Step.bytes, Step.setBytes, h] at hcut ⊢
      tauto
    · have hcut : outs ≠ b ++ outs' := fun heq => h (by simp [heq])
      simp [readFixed, Step.bytes, Step.setBytes, h, hcut]

theorem readNum_run {src : Src} {n : ℕ} {s s' : Step} {x : BitVec (8 * n)} :
    (readNum src n).run s = .ok (x, s') ↔ s = s'.unread src (be n x) := by
  simp only [readNum, StateT.run_bind, Outcome.bind_eq_ok, Prod.exists, readFixed_run,
    StateT.run_pure, Outcome.pure_eq, Outcome.ok.injEq, Prod.mk.injEq, be]
  refine ⟨fun h => ?_, fun h => ?_⟩
  · obtain ⟨b, _, rfl, rfl, rfl⟩ := h
    simp
  · subst h
    exact ⟨_, _, rfl, by simp, rfl⟩

theorem readU8_run {src : Src} {s s' : Step} {x : U8} :
    (readU8 src).run s = .ok (x, s') ↔ s = s'.unread src (be 1 x) :=
  readNum_run

theorem readU16_run {src : Src} {s s' : Step} {x : U16} :
    (readU16 src).run s = .ok (x, s') ↔ s = s'.unread src (be 2 x) :=
  readNum_run

theorem readU32_run {src : Src} {s s' : Step} {x : U32} :
    (readU32 src).run s = .ok (x, s') ↔ s = s'.unread src (be 4 x) :=
  readNum_run

theorem readU64_run {src : Src} {s s' : Step} {x : U64} :
    (readU64 src).run s = .ok (x, s') ↔ s = s'.unread src (be 8 x) :=
  readNum_run

theorem readU256_run {src : Src} {s s' : Step} {x : U256} :
    (readU256 src).run s = .ok (x, s') ↔ s = s'.unread src (be 32 x) :=
  readNum_run

theorem readB256_run {src : Src} {s s' : Step} {x : B256} :
    (readB256 src).run s = .ok (x, s') ↔ s = s'.unread src x.1 :=
  readFixed_run

theorem readAddress_run {src : Src} {s s' : Step} {x : Address} :
    (readAddress src).run s = .ok (x, s') ↔ s = s'.unread src x.1 :=
  readFixed_run

theorem readString_run {src : Src} {s s' : Step} {x : String} :
    (readString src).run s = .ok (x, s') ↔ ∃ b : FixedBytes sizeOfString,
      s = s'.unread src b.1 ∧ x = String.ofList (fromUtf8Lossy b.1) := by
  simp only [readString, StateT.run_bind, Outcome.bind_eq_ok, Prod.exists, readFixed_run,
    StateT.run_pure, Outcome.pure_eq, Outcome.ok.injEq, Prod.mk.injEq]
  refine ⟨fun h => ?_, fun h => ?_⟩
  · obtain ⟨b, _, rfl, rfl, rfl⟩ := h
    exact ⟨b, rfl, rfl⟩
  · obtain ⟨b, rfl, rfl⟩ := h
    exact ⟨b, _, rfl, rfl, rfl⟩

theorem addressFromSlice_eq_ok {b : Bytes} {a : Address} :
    addressFromSlice b = .ok a ↔ b = a.1 := by
  unfold addressFromSlice
  split_ifs with h
  · simp [Subtype.ext_iff]
  · simp only [false_iff]
    rintro rfl
    exact h a.2

/-- The frame that the entries `keys` nest : the one under `steps`, at their address. -/
def NestedFrame (keys : Fields) (nested : Option (Address → Outcome TraceError F)) (f : F) :
    Prop :=
  ∃ t address g, keys.get? "address" = some (.string t) ∧ ofHex t = some address.1 ∧
    nested = some g ∧ g address = .ok f

theorem frame_run {nested : Option (Address → Outcome TraceError F)} {s s' : Step} {f : F} :
    (frame nested).run s = .ok (f, s') ↔ NestedFrame s.keys nested f ∧
      { s with keys := s.keys.erase "address" } = s' := by
  simp only [frame, StateT.run_bind, Outcome.bind_eq_ok, Prod.exists, getHex_run,
    liftOutcome_run, addressFromSlice_eq_ok, Outcome.unwrap_eq_ok, NestedFrame]
  refine ⟨fun h => ?_, fun h => ?_⟩
  · obtain ⟨_, _, ⟨t, hget, ht, rfl⟩, address, _, ⟨rfl, rfl⟩, g, _, ⟨hg, rfl⟩, hf, rfl⟩ := h
    exact ⟨⟨t, address, g, hget, ht, hg, hf⟩, rfl⟩
  · obtain ⟨⟨t, address, g, hget, ht, hg, hf⟩, rfl⟩ := h
    exact ⟨_, _, ⟨t, hget, ht, rfl⟩, address, _, ⟨rfl, rfl⟩, g, _, ⟨hg, rfl⟩, hf, rfl⟩

end Readers

/-! ## The parser -/

/-- The kind of a step, by its name. -/
def parseKind {F : Type} (name : String) (nested : Option (Address → Outcome TraceError F)) :
    StepM (HostioKind F) :=
  match name with
  | "user_entrypoint" => do
    let argsLen ← readU32 .args
    return .userEntrypoint argsLen
  | "user_returned" => do
    let status ← readU32 .outs
    return .userReturned status
  | "read_args" => do
    let args ← readData .outs
    return .readArgs args
  | "write_result" => do
    let result ← readData .args
    return .writeResult result
  | "exit_early" => do
    let status ← readU32 .args
    return .exitEarly status
  | "storage_load_bytes32" => do
    let key ← readB256 .args
    let value ← readB256 .outs
    return .storageLoadBytes32 key value
  | "storage_cache_bytes32" => do
    let key ← readB256 .args
    let value ← readB256 .args
    return .storageCacheBytes32 key value
  | "storage_flush_cache" => do
    let clear ← readU8 .args
    return .storageFlushCache clear
  | "transient_load_bytes32" => do
    let key ← readB256 .args
    let value ← readB256 .outs
    return .transientLoadBytes32 key value
  | "transient_store_bytes32" => do
    let key ← readB256 .args
    let value ← readB256 .args
    return .transientStoreBytes32 key value
  | "account_balance" => do
    let address ← readAddress .args
    let balance ← readU256 .outs
    return .accountBalance address balance
  | "account_code" => do
    let address ← readAddress .args
    let offset ← readU32 .args
    let size ← readU32 .args
    let code ← readData .outs
    return .accountCode address offset size code
  | "account_code_size" => do
    let address ← readAddress .args
    let size ← readU32 .outs
    return .accountCodeSize address size
  | "account_codehash" => do
    let address ← readAddress .args
    let codehash ← readB256 .outs
    return .accountCodehash address codehash
  | "block_basefee" => do
    let basefee ← readU256 .outs
    return .blockBasefee basefee
  | "block_coinbase" => do
    let coinbase ← readAddress .outs
    return .blockCoinbase coinbase
  | "block_gas_limit" => do
    let limit ← readU64 .outs
    return .blockGasLimit limit
  | "block_number" => do
    let number ← readU64 .outs
    return .blockNumber number
  | "block_timestamp" => do
    let timestamp ← readU64 .outs
    return .blockTimestamp timestamp
  | "chainid" => do
    let chainid ← readU64 .outs
    return .chainid chainid
  | "contract_address" => do
    let address ← readAddress .outs
    return .contractAddress address
  | "evm_gas_left" => do
    let gasLeft ← readU64 .outs
    return .evmGasLeft gasLeft
  | "evm_ink_left" => do
    let inkLeft ← readU64 .outs
    return .evmInkLeft inkLeft
  | "math_div" => do
    let a ← readU256 .args
    let b ← readU256 .args
    let result ← readU256 .outs
    return .mathDiv a b result
  | "math_mod" => do
    let a ← readU256 .args
    let b ← readU256 .args
    let result ← readU256 .outs
    return .mathMod a b result
  | "math_pow" => do
    let a ← readU256 .args
    let b ← readU256 .args
    let result ← readU256 .outs
    return .mathPow a b result
  | "math_add_mod" => do
    let a ← readU256 .args
    let b ← readU256 .args
    let c ← readU256 .args
    let result ← readU256 .outs
    return .mathAddMod a b c result
  | "math_mul_mod" => do
    let a ← readU256 .args
    let b ← readU256 .args
    let c ← readU256 .args
    let result ← readU256 .outs
    return .mathMulMod a b c result
  | "msg_reentrant" => do
    let reentrant ← readU32 .outs
    return .msgReentrant (reentrant != 0)
  | "msg_sender" => do
    let sender ← readAddress .outs
    return .msgSender sender
  | "msg_value" => do
    let value ← readB256 .outs
    return .msgValue value
  | "native_keccak256" => do
    let preimage ← readData .args
    let digest ← readB256 .outs
    return .nativeKeccak256 preimage digest
  | "tx_gas_price" => do
    let gasPrice ← readU256 .outs
    return .txGasPrice gasPrice
  | "tx_ink_price" => do
    let inkPrice ← readU32 .outs
    return .txInkPrice inkPrice
  | "tx_origin" => do
    let origin ← readAddress .outs
    return .txOrigin origin
  | "pay_for_memory_grow" => do
    let pages ← readU16 .args
    return .payForMemoryGrow pages
  | "call_contract" => do
    let address ← readAddress .args
    let gas ← readU64 .args
    let value ← readU256 .args
    let data ← readData .args
    let outsLen ← readU32 .outs
    let status ← readU8 .outs
    let frame ← frame nested
    return .callContract address data gas value outsLen status frame
  | "delegate_call_contract" => do
    let address ← readAddress .args
    let gas ← readU64 .args
    let data ← readData .args
    let outsLen ← readU32 .outs
    let status ← readU8 .outs
    let frame ← frame nested
    return .delegateCallContract address data gas outsLen status frame
  | "static_call_contract" => do
    let address ← readAddress .args
    let gas ← readU64 .args
    let data ← readData .args
    let outsLen ← readU32 .outs
    let status ← readU8 .outs
    let frame ← frame nested
    return .staticCallContract address data gas outsLen status frame
  | "create1" => do
    let endowment ← readU256 .args
    let code ← readData .args
    let address ← readAddress .outs
    let revertDataLen ← readU32 .outs
    return .create1 code endowment address revertDataLen
  | "create2" => do
    let endowment ← readU256 .args
    let salt ← readB256 .args
    let code ← readData .args
    let address ← readAddress .outs
    let revertDataLen ← readU32 .outs
    return .create2 code endowment salt address revertDataLen
  | "emit_log" => do
    let topics ← readU32 .args
    let data ← readData .args
    return .emitLog data topics
  | "read_return_data" => do
    let offset ← readU32 .args
    let size ← readU32 .args
    let data ← readData .outs
    return .readReturnData offset size data
  | "return_data_size" => do
    let size ← readU32 .outs
    return .returnDataSize size
  | "console_log_text" => do
    let text ← readData .args
    return .consoleLogText text
  | "console_log" => do
    let text ← readString .args
    return .consoleLog text
  | x =>
    if evmPrefix.isPrefixOf x.toList then do
      let frame ← frame nested
      return .evmCall x frame
    else
      (.panic ("not yet implemented: Missing hostio details " ++ x) :
        Outcome TraceError (HostioKind F))

/-- One step of a frame, read from the entries of its object. -/
def parseStepKeys {F : Type} (nested : Option (Address → Outcome TraceError F)) :
    StepM (Hostio F) := do
  let name ← getTyped asString "name"
  let args ← getHex "args"
  let outs ← getHex "outs"
  let startInk ← getInt "startInk"
  let endInk ← getInt "endInk"
  modify fun s => { s with args := args, outs := outs }
  let kind ← parseKind name nested
  let s ← get
  (Outcome.assert (s.args = []) name : Outcome TraceError Unit)
  (Outcome.assert (s.outs = []) name : Outcome TraceError Unit)
  return ⟨kind, startInk, endInk⟩

mutual

/-- `TraceFrame::parse_frame` -/
def parseFrame : Value → Option Address → Outcome TraceError TraceFrame
  | .array array, address => do return ⟨← parseSteps array, address⟩
  | v, _ => .err (.notArray v)
termination_by structural v => v

/-- The steps of a frame, in order. -/
def parseSteps : List Value → Outcome TraceError (List (Hostio TraceFrame))
  | [] => .ok []
  | step :: rest => do
    let hostio ← parseStep step
    let steps ← parseSteps rest
    return hostio :: steps
termination_by structural v => v

/-- One record, with the frame nested in it. -/
def parseStep : Value → Outcome TraceError (Hostio TraceFrame)
  | .object keys => do return (← (parseStepKeys (parseNested keys)).run ⟨keys, [], []⟩).1
  | v => .err (.notStep v)
termination_by structural v => v

/-- The frame under the key `steps`, once its address is known. -/
def parseNested : Fields → Option (Address → Outcome TraceError TraceFrame)
  | [] => none
  | (key, v) :: rest =>
    if key = "steps" then some fun address => parseFrame v (some address) else parseNested rest
termination_by structural m => m

end

end CargoStylus
