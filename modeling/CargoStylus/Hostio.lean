import CargoStylus.FrameReader
import CargoStylus.Rust.Memory

/-!
# The host functions of a replay

A replay runs a contract as native code and answers its host I/Os from a trace. A host
function takes the next record (`frame`), takes the record apart (a record of another kind is
`unreachable!()`), compares what the guest passed with what was recorded (`assertEq`), writes
the recorded results to the guest's memory (`copy`, `copyBytes`, `copyBox`, `store`) and
returns the recorded status or length.
-/

namespace CargoStylus

open Rust

/-- The state of a replay : the statics of the host functions and the guest's memory. -/
structure Replay where
  /-- `FRAME` -/
  frame : Option FrameReader
  /-- `START_INK` -/
  startInk : U64
  /-- `END_INK` -/
  endInk : U64
  memory : Memory
  /-- What lies behind the buffer that is copied from. Reading it is undefined behaviour : it
  may give any bytes, or end the process where nothing can be read. -/
  behind : Option Memory
  stdout : List String

/-- A host function, which takes records and changes the memory of the guest. -/
abbrev HostM := StateT Replay (Outcome String)

namespace HostM

variable {α : Type}

/-- `frame!` : the fields of the next record, which must be of the function's name and match
the pattern `dec`. -/
def frame (functionName : String) (dec : HostioKind TraceFrame → Option α) : HostM α := do
  let s ← get
  let reader ← (Outcome.unwrap "called Option::unwrap on a None value" s.frame :
    Outcome String FrameReader)
  let (hostio, reader) ← (reader.nextHostio functionName :
    Outcome String (Hostio TraceFrame × FrameReader))
  set { s with frame := some reader, startInk := hostio.startInk, endInk := hostio.endInk }
  (Outcome.unwrap "internal error: entered unreachable code" (dec hostio.kind) : Outcome String α)

/-- `assert_eq!` -/
def assertEq [DecidableEq α] (left right : α) : HostM Unit :=
  (Outcome.assert (left = right) "assertion left == right failed" : Outcome String Unit)

/-- `read_fixed::<N>` -/
def readFixed (ptr n : ℕ) : HostM Bytes := do
  return (← get).memory.read ptr n

/-- `read_bytes` -/
def readBytes (ptr : ℕ) (len : U32) : HostM Bytes := do
  return (← get).memory.read ptr len.toNat

/-- The bytes behind a buffer, of which none are read if the buffer has enough. -/
def readBehind (n : ℕ) : HostM Bytes := do
  if n = 0 then return []
  let behind ← (Outcome.unwrap "segmentation fault" (← get).behind : Outcome String Memory)
  return behind.read 0 n

/-- `copy_nonoverlapping` from a buffer that holds `src`. -/
def memcpy (src : Bytes) (dest len : ℕ) : HostM Unit := do
  let behind ← readBehind (len - src.length)
  modify fun s => { s with memory := s.memory.write dest (src.take len ++ behind) }

/-- `copy!` of an array : `size_of_val` is its length. -/
def copy {n : ℕ} (src : FixedBytes n) (dest : ℕ) : HostM Unit :=
  memcpy src.1 dest n

/-- `copy!` with a length. -/
def copyBytes (src : Bytes) (dest len : ℕ) : HostM Unit :=
  memcpy src dest len

/-- `mem::size_of::<Box<[u8]>>()` on a 64-bit host : a pointer and a length. -/
def sizeOfBox : ℕ := 16

/-- `copy!` of a boxed slice : `size_of_val` is the size of the box. -/
def copyBox (src : Bytes) (dest : ℕ) : HostM Unit := do
  -- a box of no bytes has no allocation, and its pointer is to address 1
  (Outcome.assert (src ≠ []) "segmentation fault" : Outcome String Unit)
  memcpy src dest sizeOfBox

/-- `*ptr = value` -/
def store (ptr : ℕ) (value : U32) : HostM Unit :=
  modify fun s => { s with memory := s.memory.write ptr (toLeBytes 4 value).1 }

/-- `println!` -/
def println (text : String) : HostM Unit :=
  modify fun s => { s with stdout := s.stdout ++ [text] }

end HostM

namespace HostFn

open HostM

/-! ### Families

Most host functions have the body of another but for the name and the pattern. -/

section Families

variable {α : Type} {k n : ℕ}

/-- Writes the recorded value. -/
def output (name : String) (dec : HostioKind TraceFrame → Option (FixedBytes n)) (dest : ℕ) :
    HostM Unit := do
  let value ← frame name dec
  copy value dest

/-- Compares a key and writes the value recorded for it. -/
def load (name : String) (dec : HostioKind TraceFrame → Option (FixedBytes k × FixedBytes n))
    (keyPtr dest : ℕ) : HostM Unit := do
  let (key, value) ← frame name dec
  assertEq (← readFixed keyPtr k) key.1
  copy value dest

/-- Compares a key and a value. -/
def put (name : String) (dec : HostioKind TraceFrame → Option (FixedBytes k × FixedBytes n))
    (keyPtr valuePtr : ℕ) : HostM Unit := do
  let (key, value) ← frame name dec
  assertEq (← readFixed keyPtr k) key.1
  assertEq (← readFixed valuePtr n) value.1

/-- Compares the contents of a buffer. -/
def compare (name : String) (dec : HostioKind TraceFrame → Option Bytes) (data : ℕ) (len : U32) :
    HostM Unit := do
  let bytes ← frame name dec
  assertEq (← readBytes data len) bytes

/-- Takes the record and compares nothing : the pattern shadows the parameter. -/
def ignore (name : String) (dec : HostioKind TraceFrame → Option α) : HostM Unit := do
  let _ ← frame name dec

/-- Compares two operands and writes the result over the first. -/
def binary (name : String) (dec : HostioKind TraceFrame → Option (U256 × U256 × U256))
    (value operand : ℕ) : HostM Unit := do
  let (a, b, result) ← frame name dec
  assertEq (← readFixed value 32) (be 32 a)
  assertEq (← readFixed operand 32) (be 32 b)
  copy (toBeBytes 32 result) value

/-- Compares three operands and writes the result over the first. -/
def ternary (name : String) (dec : HostioKind TraceFrame → Option (U256 × U256 × U256 × U256))
    (value operand modulus : ℕ) : HostM Unit := do
  let (a, b, c, result) ← frame name dec
  assertEq (← readFixed value 32) (be 32 a)
  assertEq (← readFixed operand 32) (be 32 b)
  assertEq (← readFixed modulus 32) (be 32 c)
  copy (toBeBytes 32 result) value

/-- A call without a value : compares the address, the data and the gas. -/
def call (name : String) (dec : HostioKind TraceFrame → Option (Address × Bytes × U64 × U32 × U8))
    (addressPtr calldata : ℕ) (calldataLen : U32) (gasSupplied : U64) (returnDataLen : ℕ) :
    HostM U8 := do
  let (address, data, gas, outsLen, status) ← frame name dec
  assertEq (← readFixed addressPtr 20) address.1
  assertEq (← readBytes calldata calldataLen) data
  assertEq gasSupplied gas
  store returnDataLen outsLen
  return status

/-- The text of a `console_log` record. -/
def consoleText : HostioKind TraceFrame → Option String
  | .consoleLog text => some text
  | _ => none

/-- The printers of a number, which is not compared with the text. -/
def print (name : String) : HostM Unit := do
  let text ← frame name consoleText
  println text

end Families

/-! ### Host functions -/

/-- Writes the calldata to `dest`. -/
def readArgs (dest : ℕ) : HostM Unit := do
  let args ← frame "read_args" fun | .readArgs args => some args | _ => none
  copyBytes args dest args.length

/-- Compares the result with the recorded one. -/
def writeResult (data : ℕ) (len : U32) : HostM Unit :=
  compare "write_result" (fun | .writeResult result => some result | _ => none) data len

/-- Takes the record. The status of the guest is shadowed and never compared. -/
def exitEarly (_status : U32) : HostM Unit :=
  ignore "exit_early" fun | .exitEarly status => some status | _ => none

/-- Compares the key, and writes the recorded value. -/
def storageLoadBytes32 (keyPtr dest : ℕ) : HostM Unit :=
  load "storage_load_bytes32"
    (fun | .storageLoadBytes32 key value => some (key, value) | _ => none) keyPtr dest

/-- Compares the key and the value. -/
def storageCacheBytes32 (keyPtr valuePtr : ℕ) : HostM Unit :=
  put "storage_cache_bytes32"
    (fun | .storageCacheBytes32 key value => some (key, value) | _ => none) keyPtr valuePtr

/-- Takes the record. The argument is shadowed and never compared. -/
def storageFlushCache (_clear : U32) : HostM Unit :=
  ignore "storage_flush_cache" fun | .storageFlushCache clear => some clear | _ => none

/-- Compares the key, and writes the recorded value. -/
def transientLoadBytes32 (keyPtr dest : ℕ) : HostM Unit :=
  load "transient_load_bytes32"
    (fun | .transientLoadBytes32 key value => some (key, value) | _ => none) keyPtr dest

/-- Compares the key and the value. -/
def transientStoreBytes32 (keyPtr valuePtr : ℕ) : HostM Unit :=
  put "transient_store_bytes32"
    (fun | .transientStoreBytes32 key value => some (key, value) | _ => none) keyPtr valuePtr

/-- Compares the address, and writes the recorded balance. -/
def accountBalance (addressPtr dest : ℕ) : HostM Unit :=
  load "account_balance"
    (fun | .accountBalance address balance => some (address, toBeBytes 32 balance) | _ => none)
    addressPtr dest

/-- Compares the arguments, copies 16 bytes of the recorded code, and returns its length. -/
def accountCode (addressPtr : ℕ) (offsetRecv sizeRecv : U32) (dest : ℕ) : HostM U32 := do
  let (address, offset, size, code) ← frame "account_code" fun
    | .accountCode address offset size code => some (address, offset, size, code)
    | _ => none
  assertEq offsetRecv offset
  assertEq sizeRecv size
  assertEq (← readFixed addressPtr 20) address.1
  copyBox code dest
  return BitVec.ofNat 32 code.length

/-- Compares the address, and returns the recorded size. -/
def accountCodeSize (addressPtr : ℕ) : HostM U32 := do
  let (address, size) ← frame "account_code_size" fun
    | .accountCodeSize address size => some (address, size)
    | _ => none
  assertEq (← readFixed addressPtr 20) address.1
  return size

/-- Compares the address, and writes the recorded hash. -/
def accountCodehash (addressPtr dest : ℕ) : HostM Unit :=
  load "account_codehash"
    (fun | .accountCodehash address codehash => some (address, codehash) | _ => none)
    addressPtr dest

/-- Writes the recorded base fee. -/
def blockBasefee (dest : ℕ) : HostM Unit :=
  output "block_basefee"
    (fun | .blockBasefee basefee => some (toBeBytes 32 basefee) | _ => none) dest

/-- Writes the recorded coinbase. -/
def blockCoinbase (dest : ℕ) : HostM Unit :=
  output "block_coinbase" (fun | .blockCoinbase coinbase => some coinbase | _ => none) dest

/-- Returns the recorded gas limit. -/
def blockGasLimit : HostM U64 :=
  frame "block_gas_limit" fun | .blockGasLimit limit => some limit | _ => none

/-- Returns the recorded block number. -/
def blockNumber : HostM U64 :=
  frame "block_number" fun | .blockNumber number => some number | _ => none

/-- Returns the recorded timestamp. -/
def blockTimestamp : HostM U64 :=
  frame "block_timestamp" fun | .blockTimestamp timestamp => some timestamp | _ => none

/-- Returns the recorded chain id. -/
def chainid : HostM U64 :=
  frame "chainid" fun | .chainid chainid => some chainid | _ => none

/-- Compares the address, calldata, value and gas, and gives the recorded outcome. -/
def callContract (addressPtr calldata : ℕ) (calldataLen : U32) (valuePtr : ℕ) (gasSupplied : U64)
    (returnDataLen : ℕ) : HostM U8 := do
  let (address, data, gas, value, outsLen, status) ← frame "call_contract" fun
    | .callContract address data gas value outsLen status _ =>
      some (address, data, gas, value, outsLen, status)
    | _ => none
  assertEq (← readFixed addressPtr 20) address.1
  assertEq (← readBytes calldata calldataLen) data
  assertEq (← readFixed valuePtr 32) (be 32 value)
  assertEq gasSupplied gas
  store returnDataLen outsLen
  return status

/-- Compares the address, calldata and gas, and gives the recorded outcome. -/
def delegateCallContract (addressPtr calldata : ℕ) (calldataLen : U32) (gasSupplied : U64)
    (returnDataLen : ℕ) : HostM U8 :=
  call "delegate_call_contract"
    (fun
      | .delegateCallContract address data gas outsLen status _ =>
        some (address, data, gas, outsLen, status)
      | _ => none)
    addressPtr calldata calldataLen gasSupplied returnDataLen

/-- Compares the address, calldata and gas, and gives the recorded outcome. -/
def staticCallContract (addressPtr calldata : ℕ) (calldataLen : U32) (gasSupplied : U64)
    (returnDataLen : ℕ) : HostM U8 :=
  call "static_call_contract"
    (fun
      | .staticCallContract address data gas outsLen status _ =>
        some (address, data, gas, outsLen, status)
      | _ => none)
    addressPtr calldata calldataLen gasSupplied returnDataLen

/-- Writes the recorded address of the contract. -/
def contractAddress (dest : ℕ) : HostM Unit :=
  output "contract_address" (fun | .contractAddress address => some address | _ => none) dest

/-- Compares the init code and the endowment, and writes the recorded address and length. -/
def create1 (codePtr : ℕ) (codeLen : U32) (value contract revertDataLenPtr : ℕ) :
    HostM Unit := do
  let (code, endowment, address, revertDataLen) ← frame "create1" fun
    | .create1 code endowment address revertDataLen =>
      some (code, endowment, address, revertDataLen)
    | _ => none
  assertEq (← readBytes codePtr codeLen) code
  assertEq (← readFixed value 32) (be 32 endowment)
  copy address contract
  store revertDataLenPtr revertDataLen

/-- Compares the init code, the endowment and the salt, and writes address and length. -/
def create2 (codePtr : ℕ) (codeLen : U32) (valuePtr saltPtr contract revertDataLenPtr : ℕ) :
    HostM Unit := do
  let (code, endowment, salt, address, revertDataLen) ← frame "create2" fun
    | .create2 code endowment salt address revertDataLen =>
      some (code, endowment, salt, address, revertDataLen)
    | _ => none
  assertEq (← readBytes codePtr codeLen) code
  assertEq (← readFixed valuePtr 32) (be 32 endowment)
  assertEq (← readFixed saltPtr 32) salt.1
  copy address contract
  store revertDataLenPtr revertDataLen

/-- Compares the number of topics and the data. -/
def emitLog (dataPtr : ℕ) (len topicCount : U32) : HostM Unit := do
  let (data, topics) ← frame "emit_log" fun
    | .emitLog data topics => some (data, topics)
    | _ => none
  assertEq (← readBytes dataPtr len) data
  assertEq topics topicCount

/-- Returns the recorded gas. -/
def evmGasLeft : HostM U64 :=
  frame "evm_gas_left" fun | .evmGasLeft gasLeft => some gasLeft | _ => none

/-- Returns the recorded ink. -/
def evmInkLeft : HostM U64 :=
  frame "evm_ink_left" fun | .evmInkLeft inkLeft => some inkLeft | _ => none

/-- Compares the number of pages. -/
def payForMemoryGrow (newPages : U16) : HostM Unit := do
  let pages ← frame "pay_for_memory_grow" fun | .payForMemoryGrow pages => some pages | _ => none
  assertEq newPages pages

/-- Compares the operands, and writes the recorded quotient over the first. -/
def mathDiv (value divisor : ℕ) : HostM Unit :=
  binary "math_div" (fun | .mathDiv a b result => some (a, b, result) | _ => none) value divisor

/-- Compares the operands, and writes the recorded remainder over the first. -/
def mathMod (value modulus : ℕ) : HostM Unit :=
  binary "math_mod" (fun | .mathMod a b result => some (a, b, result) | _ => none) value modulus

/-- Compares the operands, and writes the recorded power over the first. -/
def mathPow (value exponent : ℕ) : HostM Unit :=
  binary "math_pow" (fun | .mathPow a b result => some (a, b, result) | _ => none) value exponent

/-- Compares the operands, and writes the recorded result over the first. -/
def mathAddMod (value addend modulus : ℕ) : HostM Unit :=
  ternary "math_add_mod" (fun | .mathAddMod a b c result => some (a, b, c, result) | _ => none)
    value addend modulus

/-- The pattern is that of `math_add_mod`. -/
def mathMulMod (value multiplier modulus : ℕ) : HostM Unit :=
  ternary "math_mul_mod" (fun | .mathAddMod a b c result => some (a, b, c, result) | _ => none)
    value multiplier modulus

/-- Returns whether the recorded call was reentrant. -/
def msgReentrant : HostM Bool :=
  frame "msg_reentrant" fun | .msgReentrant reentrant => some reentrant | _ => none

/-- Writes the recorded sender. -/
def msgSender (dest : ℕ) : HostM Unit :=
  output "msg_sender" (fun | .msgSender sender => some sender | _ => none) dest

/-- Writes the recorded value. -/
def msgValue (dest : ℕ) : HostM Unit :=
  output "msg_value" (fun | .msgValue value => some value | _ => none) dest

/-- Compares the preimage, and writes the recorded digest. -/
def nativeKeccak256 (bytes : ℕ) (len : U32) (outputPtr : ℕ) : HostM Unit := do
  let (preimage, digest) ← frame "native_keccak256" fun
    | .nativeKeccak256 preimage digest => some (preimage, digest)
    | _ => none
  assertEq (← readBytes bytes len) preimage
  copy digest outputPtr

/-- Compares offset and size, writes the recorded data, and returns its length. -/
def readReturnData (dest : ℕ) (offsetValue sizeValue : U32) : HostM U32 := do
  let (offset, size, data) ← frame "read_return_data" fun
    | .readReturnData offset size data => some (offset, size, data)
    | _ => none
  assertEq offsetValue offset
  assertEq sizeValue size
  copyBytes data dest data.length
  return BitVec.ofNat 32 data.length

/-- Returns the recorded size. -/
def returnDataSize : HostM U32 :=
  frame "return_data_size" fun | .returnDataSize size => some size | _ => none

/-- Writes the recorded gas price. -/
def txGasPrice (dest : ℕ) : HostM Unit :=
  output "tx_gas_price"
    (fun | .txGasPrice gasPrice => some (toBeBytes 32 gasPrice) | _ => none) dest

/-- Returns the recorded ink price. -/
def txInkPrice : HostM U32 :=
  frame "tx_ink_price" fun | .txInkPrice inkPrice => some inkPrice | _ => none

/-- Writes the recorded origin. -/
def txOrigin (dest : ℕ) : HostM Unit :=
  output "tx_origin" (fun | .txOrigin origin => some origin | _ => none) dest

/-- Prints the recorded text. -/
def logF32 (_value : U32) : HostM Unit :=
  print "log_f32"

/-- Prints the recorded text. -/
def logF64 (_value : U64) : HostM Unit :=
  print "log_f64"

/-- Prints the recorded text. -/
def logI32 (_value : U32) : HostM Unit :=
  print "log_i32"

/-- Prints the recorded text. -/
def logI64 (_value : U64) : HostM Unit :=
  print "log_i64"

/-- Compares the text with the recorded one. -/
def logTxt (textPtr : ℕ) (len : U32) : HostM Unit :=
  compare "log_txt" (fun | .consoleLogText text => some text | _ => none) textPtr len

end HostFn

/-! ## Calls -/

/-- A call of a host function. The bits of a float stand for it. -/
inductive HostCall where
  | readArgs (dest : ℕ)
  | writeResult (data : ℕ) (len : U32)
  | exitEarly (status : U32)
  | storageLoadBytes32 (keyPtr dest : ℕ)
  | storageCacheBytes32 (keyPtr valuePtr : ℕ)
  | storageFlushCache (clear : U32)
  | transientLoadBytes32 (keyPtr dest : ℕ)
  | transientStoreBytes32 (keyPtr valuePtr : ℕ)
  | accountBalance (addressPtr dest : ℕ)
  | accountCode (addressPtr : ℕ) (offsetRecv sizeRecv : U32) (dest : ℕ)
  | accountCodeSize (addressPtr : ℕ)
  | accountCodehash (addressPtr dest : ℕ)
  | blockBasefee (dest : ℕ)
  | blockCoinbase (dest : ℕ)
  | blockGasLimit
  | blockNumber
  | blockTimestamp
  | chainid
  | callContract (addressPtr calldata : ℕ) (calldataLen : U32) (valuePtr : ℕ) (gasSupplied : U64)
      (returnDataLen : ℕ)
  | delegateCallContract (addressPtr calldata : ℕ) (calldataLen : U32) (gasSupplied : U64)
      (returnDataLen : ℕ)
  | staticCallContract (addressPtr calldata : ℕ) (calldataLen : U32) (gasSupplied : U64)
      (returnDataLen : ℕ)
  | contractAddress (dest : ℕ)
  | create1 (codePtr : ℕ) (codeLen : U32) (value contract revertDataLenPtr : ℕ)
  | create2 (codePtr : ℕ) (codeLen : U32) (valuePtr saltPtr contract revertDataLenPtr : ℕ)
  | emitLog (dataPtr : ℕ) (len topicCount : U32)
  | evmGasLeft
  | evmInkLeft
  | payForMemoryGrow (newPages : U16)
  | mathDiv (value divisor : ℕ)
  | mathMod (value modulus : ℕ)
  | mathPow (value exponent : ℕ)
  | mathAddMod (value addend modulus : ℕ)
  | mathMulMod (value multiplier modulus : ℕ)
  | msgReentrant
  | msgSender (dest : ℕ)
  | msgValue (dest : ℕ)
  | nativeKeccak256 (bytes : ℕ) (len : U32) (output : ℕ)
  | readReturnData (dest : ℕ) (offsetValue sizeValue : U32)
  | returnDataSize
  | txGasPrice (dest : ℕ)
  | txInkPrice
  | txOrigin (dest : ℕ)
  | logF32 (value : U32)
  | logF64 (value : U64)
  | logI32 (value : U32)
  | logI64 (value : U64)
  | logTxt (textPtr : ℕ) (len : U32)

namespace HostCall

/-- No result. -/
def unit (x : HostM Unit) : HostM (Option ℕ) := do
  x
  return none

/-- An unsigned result, as a number. -/
def num {w : ℕ} (x : HostM (BitVec w)) : HostM (Option ℕ) := do
  return some (← x).toNat

/-- What a call does, with the integer it returns. -/
def exec : HostCall → HostM (Option ℕ)
  | readArgs dest => unit (HostFn.readArgs dest)
  | writeResult data len => unit (HostFn.writeResult data len)
  | exitEarly status => unit (HostFn.exitEarly status)
  | storageLoadBytes32 keyPtr dest => unit (HostFn.storageLoadBytes32 keyPtr dest)
  | storageCacheBytes32 keyPtr valuePtr => unit (HostFn.storageCacheBytes32 keyPtr valuePtr)
  | storageFlushCache clear => unit (HostFn.storageFlushCache clear)
  | transientLoadBytes32 keyPtr dest => unit (HostFn.transientLoadBytes32 keyPtr dest)
  | transientStoreBytes32 keyPtr valuePtr => unit (HostFn.transientStoreBytes32 keyPtr valuePtr)
  | accountBalance addressPtr dest => unit (HostFn.accountBalance addressPtr dest)
  | accountCode addressPtr offsetRecv sizeRecv dest =>
    num (HostFn.accountCode addressPtr offsetRecv sizeRecv dest)
  | accountCodeSize addressPtr => num (HostFn.accountCodeSize addressPtr)
  | accountCodehash addressPtr dest => unit (HostFn.accountCodehash addressPtr dest)
  | blockBasefee dest => unit (HostFn.blockBasefee dest)
  | blockCoinbase dest => unit (HostFn.blockCoinbase dest)
  | blockGasLimit => num HostFn.blockGasLimit
  | blockNumber => num HostFn.blockNumber
  | blockTimestamp => num HostFn.blockTimestamp
  | chainid => num HostFn.chainid
  | callContract addressPtr calldata calldataLen valuePtr gasSupplied returnDataLen =>
    num (HostFn.callContract addressPtr calldata calldataLen valuePtr gasSupplied returnDataLen)
  | delegateCallContract addressPtr calldata calldataLen gasSupplied returnDataLen =>
    num (HostFn.delegateCallContract addressPtr calldata calldataLen gasSupplied returnDataLen)
  | staticCallContract addressPtr calldata calldataLen gasSupplied returnDataLen =>
    num (HostFn.staticCallContract addressPtr calldata calldataLen gasSupplied returnDataLen)
  | contractAddress dest => unit (HostFn.contractAddress dest)
  | create1 codePtr codeLen value contract revertDataLenPtr =>
    unit (HostFn.create1 codePtr codeLen value contract revertDataLenPtr)
  | create2 codePtr codeLen valuePtr saltPtr contract revertDataLenPtr =>
    unit (HostFn.create2 codePtr codeLen valuePtr saltPtr contract revertDataLenPtr)
  | emitLog dataPtr len topicCount => unit (HostFn.emitLog dataPtr len topicCount)
  | evmGasLeft => num HostFn.evmGasLeft
  | evmInkLeft => num HostFn.evmInkLeft
  | payForMemoryGrow newPages => unit (HostFn.payForMemoryGrow newPages)
  | mathDiv value divisor => unit (HostFn.mathDiv value divisor)
  | mathMod value modulus => unit (HostFn.mathMod value modulus)
  | mathPow value exponent => unit (HostFn.mathPow value exponent)
  | mathAddMod value addend modulus => unit (HostFn.mathAddMod value addend modulus)
  | mathMulMod value multiplier modulus => unit (HostFn.mathMulMod value multiplier modulus)
  | msgReentrant => do return some (← HostFn.msgReentrant).toNat
  | msgSender dest => unit (HostFn.msgSender dest)
  | msgValue dest => unit (HostFn.msgValue dest)
  | nativeKeccak256 bytes len output => unit (HostFn.nativeKeccak256 bytes len output)
  | readReturnData dest offsetValue sizeValue =>
    num (HostFn.readReturnData dest offsetValue sizeValue)
  | returnDataSize => num HostFn.returnDataSize
  | txGasPrice dest => unit (HostFn.txGasPrice dest)
  | txInkPrice => num HostFn.txInkPrice
  | txOrigin dest => unit (HostFn.txOrigin dest)
  | logF32 value => unit (HostFn.logF32 value)
  | logF64 value => unit (HostFn.logF64 value)
  | logI32 value => unit (HostFn.logI32 value)
  | logI64 value => unit (HostFn.logI64 value)
  | logTxt textPtr len => unit (HostFn.logTxt textPtr len)

end HostCall

end CargoStylus
