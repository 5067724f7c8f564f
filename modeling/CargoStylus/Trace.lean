import CargoStylus.Rust.Bytes

/-!
# Traces of host I/O

A traced call is a frame : the host I/Os the contract made, in order, and the address of
the contract, which a deployment does not have. A host I/O has a kind, with the arguments
and results of that kind, and the ink before and after it. A call to another contract
carries the frame of that call, so frames nest.

`HostioKind` takes the type of nested frames as a parameter. `TraceFrame` ties the knot,
and `TraceFrame.induct` is its induction principle : a property holds of a frame if it
holds whenever it holds of the frames nested one level below.
-/

namespace CargoStylus

open Rust

/-- Words and hashes. -/
abbrev B256 := FixedBytes 32
/-- Addresses of accounts. -/
abbrev Address := FixedBytes 20

/-- The prefix of the names of frames that no host I/O accounts for. -/
def evmPrefix : List Char := ['e', 'v', 'm', '_']

/-- The kinds of host I/O, with `F` the type of nested frames. -/
inductive HostioKind (F : Type) where
  | userEntrypoint (argsLen : U32)
  | userReturned (status : U32)
  | readArgs (args : Bytes)
  | writeResult (result : Bytes)
  | exitEarly (status : U32)
  | storageLoadBytes32 (key value : B256)
  | storageCacheBytes32 (key value : B256)
  | storageFlushCache (clear : U8)
  | transientLoadBytes32 (key value : B256)
  | transientStoreBytes32 (key value : B256)
  | accountBalance (address : Address) (balance : U256)
  | accountCode (address : Address) (offset size : U32) (code : Bytes)
  | accountCodeSize (address : Address) (size : U32)
  | accountCodehash (address : Address) (codehash : B256)
  | blockBasefee (basefee : U256)
  | blockCoinbase (coinbase : Address)
  | blockGasLimit (limit : U64)
  | blockNumber (number : U64)
  | blockTimestamp (timestamp : U64)
  | chainid (chainid : U64)
  | contractAddress (address : Address)
  | evmGasLeft (gasLeft : U64)
  | evmInkLeft (inkLeft : U64)
  | payForMemoryGrow (pages : U16)
  | mathDiv (a b result : U256)
  | mathMod (a b result : U256)
  | mathPow (a b result : U256)
  | mathAddMod (a b c result : U256)
  | mathMulMod (a b c result : U256)
  | msgReentrant (reentrant : Bool)
  | msgSender (sender : Address)
  | msgValue (value : B256)
  | nativeKeccak256 (preimage : Bytes) (digest : B256)
  | txGasPrice (gasPrice : U256)
  | txInkPrice (inkPrice : U32)
  | txOrigin (origin : Address)
  | consoleLog (text : String)
  | consoleLogText (text : Bytes)
  | callContract (address : Address) (data : Bytes) (gas : U64) (value : U256) (outsLen : U32)
      (status : U8) (frame : F)
  | delegateCallContract (address : Address) (data : Bytes) (gas : U64) (outsLen : U32)
      (status : U8) (frame : F)
  | staticCallContract (address : Address) (data : Bytes) (gas : U64) (outsLen : U32)
      (status : U8) (frame : F)
  | create1 (code : Bytes) (endowment : U256) (address : Address) (revertDataLen : U32)
  | create2 (code : Bytes) (endowment : U256) (salt : B256) (address : Address)
      (revertDataLen : U32)
  | emitLog (data : Bytes) (topics : U32)
  | readReturnData (offset size : U32) (data : Bytes)
  | returnDataSize (size : U32)
  | evmCall (name : String) (frame : F)
deriving DecidableEq

/-- A host I/O and the ink before and after it. -/
structure Hostio (F : Type) where
  kind : HostioKind F
  startInk : U64
  endInk : U64
deriving DecidableEq

/-- The host I/Os of one call, and the contract called. -/
inductive TraceFrame where
  | mk (steps : List (Hostio TraceFrame)) (address : Option Address)

namespace HostioKind

variable {F : Type}

/-- The frame nested in a host I/O, if it has one. -/
def frame? : HostioKind F → Option F
  | callContract _ _ _ _ _ _ frame => some frame
  | delegateCallContract _ _ _ _ _ frame => some frame
  | staticCallContract _ _ _ _ _ frame => some frame
  | evmCall _ frame => some frame
  | _ => none

/-- The same kind with another nested frame. -/
def map {G : Type} (g : F → G) : HostioKind F → HostioKind G
  | userEntrypoint argsLen => userEntrypoint argsLen
  | userReturned status => userReturned status
  | readArgs args => readArgs args
  | writeResult result => writeResult result
  | exitEarly status => exitEarly status
  | storageLoadBytes32 key value => storageLoadBytes32 key value
  | storageCacheBytes32 key value => storageCacheBytes32 key value
  | storageFlushCache clear => storageFlushCache clear
  | transientLoadBytes32 key value => transientLoadBytes32 key value
  | transientStoreBytes32 key value => transientStoreBytes32 key value
  | accountBalance address balance => accountBalance address balance
  | accountCode address offset size code => accountCode address offset size code
  | accountCodeSize address size => accountCodeSize address size
  | accountCodehash address codehash => accountCodehash address codehash
  | blockBasefee basefee => blockBasefee basefee
  | blockCoinbase coinbase => blockCoinbase coinbase
  | blockGasLimit limit => blockGasLimit limit
  | blockNumber number => blockNumber number
  | blockTimestamp timestamp => blockTimestamp timestamp
  | chainid id => chainid id
  | contractAddress address => contractAddress address
  | evmGasLeft gasLeft => evmGasLeft gasLeft
  | evmInkLeft inkLeft => evmInkLeft inkLeft
  | payForMemoryGrow pages => payForMemoryGrow pages
  | mathDiv a b result => mathDiv a b result
  | mathMod a b result => mathMod a b result
  | mathPow a b result => mathPow a b result
  | mathAddMod a b c result => mathAddMod a b c result
  | mathMulMod a b c result => mathMulMod a b c result
  | msgReentrant reentrant => msgReentrant reentrant
  | msgSender sender => msgSender sender
  | msgValue value => msgValue value
  | nativeKeccak256 preimage digest => nativeKeccak256 preimage digest
  | txGasPrice gasPrice => txGasPrice gasPrice
  | txInkPrice inkPrice => txInkPrice inkPrice
  | txOrigin origin => txOrigin origin
  | consoleLog text => consoleLog text
  | consoleLogText text => consoleLogText text
  | callContract address data gas value outsLen status frame =>
    callContract address data gas value outsLen status (g frame)
  | delegateCallContract address data gas outsLen status frame =>
    delegateCallContract address data gas outsLen status (g frame)
  | staticCallContract address data gas outsLen status frame =>
    staticCallContract address data gas outsLen status (g frame)
  | create1 code endowment address revertDataLen => create1 code endowment address revertDataLen
  | create2 code endowment salt address revertDataLen =>
    create2 code endowment salt address revertDataLen
  | emitLog data topics => emitLog data topics
  | readReturnData offset size data => readReturnData offset size data
  | returnDataSize size => returnDataSize size
  | evmCall name frame => evmCall name (g frame)

@[simp] theorem frame?_map {G : Type} (g : F → G) (kind : HostioKind F) :
    (kind.map g).frame? = kind.frame?.map g := by
  cases kind <;> rfl

/-- `HostioKind::name` : the variant's identifier in snake case. -/
def name : HostioKind F → String
  | userEntrypoint .. => "user_entrypoint"
  | userReturned .. => "user_returned"
  | readArgs .. => "read_args"
  | writeResult .. => "write_result"
  | exitEarly .. => "exit_early"
  | storageLoadBytes32 .. => "storage_load_bytes32"
  | storageCacheBytes32 .. => "storage_cache_bytes32"
  | storageFlushCache .. => "storage_flush_cache"
  | transientLoadBytes32 .. => "transient_load_bytes32"
  | transientStoreBytes32 .. => "transient_store_bytes32"
  | accountBalance .. => "account_balance"
  | accountCode .. => "account_code"
  | accountCodeSize .. => "account_code_size"
  | accountCodehash .. => "account_codehash"
  | blockBasefee .. => "block_basefee"
  | blockCoinbase .. => "block_coinbase"
  | blockGasLimit .. => "block_gas_limit"
  | blockNumber .. => "block_number"
  | blockTimestamp .. => "block_timestamp"
  | chainid .. => "chainid"
  | contractAddress .. => "contract_address"
  | evmGasLeft .. => "evm_gas_left"
  | evmInkLeft .. => "evm_ink_left"
  | payForMemoryGrow .. => "pay_for_memory_grow"
  | mathDiv .. => "math_div"
  | mathMod .. => "math_mod"
  | mathPow .. => "math_pow"
  | mathAddMod .. => "math_add_mod"
  | mathMulMod .. => "math_mul_mod"
  | msgReentrant .. => "msg_reentrant"
  | msgSender .. => "msg_sender"
  | msgValue .. => "msg_value"
  | nativeKeccak256 .. => "native_keccak256"
  | txGasPrice .. => "tx_gas_price"
  | txInkPrice .. => "tx_ink_price"
  | txOrigin .. => "tx_origin"
  | consoleLog .. => "console_log"
  | consoleLogText .. => "console_log_text"
  | callContract .. => "call_contract"
  | delegateCallContract .. => "delegate_call_contract"
  | staticCallContract .. => "static_call_contract"
  | create1 .. => "create1"
  | create2 .. => "create2"
  | emitLog .. => "emit_log"
  | readReturnData .. => "read_return_data"
  | returnDataSize .. => "return_data_size"
  | evmCall .. => "evm_call"

end HostioKind

namespace TraceFrame

/-- The host I/Os of the frame. -/
def steps : TraceFrame → List (Hostio TraceFrame)
  | mk steps _ => steps

/-- The contract of the frame. -/
def address : TraceFrame → Option Address
  | mk _ address => address

@[simp] theorem steps_mk (steps : List (Hostio TraceFrame)) (address : Option Address) :
    (mk steps address).steps = steps :=
  rfl

@[simp] theorem address_mk (steps : List (Hostio TraceFrame)) (address : Option Address) :
    (mk steps address).address = address :=
  rfl

/-- A frame nested in a host I/O is smaller than its kind. -/
theorem sizeOf_frame?_lt {k : HostioKind TraceFrame} {f : TraceFrame} (h : k.frame? = some f) :
    sizeOf f < sizeOf k := by
  cases k <;> simp only [HostioKind.frame?, reduceCtorEq, Option.some.injEq] at h <;>
    subst h <;> simp

/-- Induction on frames : `P` holds of a frame if it holds whenever it holds of every
frame nested one level below. -/
theorem induct {P : TraceFrame → Prop}
    (step : ∀ steps address, (∀ h ∈ steps, ∀ f, h.kind.frame? = some f → P f) →
      P (mk steps address)) : ∀ f, P f
  | mk steps address => step steps address fun h hmem f hf => by
    have hkind := sizeOf_frame?_lt hf
    have hstep := List.sizeOf_lt_of_mem hmem
    have hmk : sizeOf h = 1 + sizeOf h.kind + sizeOf h.startInk + sizeOf h.endInk := by
      cases h
      simp
    exact induct step f
termination_by f => sizeOf f
decreasing_by
  simp only [mk.sizeOf_spec]
  omega

end TraceFrame

end CargoStylus
