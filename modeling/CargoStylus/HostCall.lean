import CargoStylus.Hostio

/-!
# Host calls and their records

What a host call passes and where its results go, next to what a record holds of them. A
call corresponds to the records of its host I/O (`Corresponds`) ; its inputs are numbers and
buffers (`HostCall.inputs`, `HostioKind.inputs`), and its results are bytes written behind
pointers (`HostCall.dests`, `HostioKind.results`) and an integer (`HostioKind.returned`).

These tables are the meaning of a replay. How far the host functions meet it is what
`answers_of_run` says of `HostCall.exec`, call by call.
-/

namespace CargoStylus

open Rust

/-! ## Tables -/

/-- An input of a host function : a number or the contents of a buffer. -/
inductive Input where
  | num (n : ℕ)
  | bytes (b : Bytes)
deriving DecidableEq

/-- The call is one of the record's host I/O. -/
inductive Corresponds : HostCall → HostioKind TraceFrame → Prop where
  | readArgs {dest args} : Corresponds (.readArgs dest) (.readArgs args)
  | writeResult {data len result} : Corresponds (.writeResult data len) (.writeResult result)
  | exitEarly {status status'} : Corresponds (.exitEarly status) (.exitEarly status')
  | storageLoadBytes32 {keyPtr dest key value} :
    Corresponds (.storageLoadBytes32 keyPtr dest) (.storageLoadBytes32 key value)
  | storageCacheBytes32 {keyPtr valuePtr key value} :
    Corresponds (.storageCacheBytes32 keyPtr valuePtr) (.storageCacheBytes32 key value)
  | storageFlushCache {clear clear'} :
    Corresponds (.storageFlushCache clear) (.storageFlushCache clear')
  | transientLoadBytes32 {keyPtr dest key value} :
    Corresponds (.transientLoadBytes32 keyPtr dest) (.transientLoadBytes32 key value)
  | transientStoreBytes32 {keyPtr valuePtr key value} :
    Corresponds (.transientStoreBytes32 keyPtr valuePtr) (.transientStoreBytes32 key value)
  | accountBalance {addressPtr dest address balance} :
    Corresponds (.accountBalance addressPtr dest) (.accountBalance address balance)
  | accountCode {addressPtr offsetRecv sizeRecv dest address offset size code} :
    Corresponds (.accountCode addressPtr offsetRecv sizeRecv dest)
      (.accountCode address offset size code)
  | accountCodeSize {addressPtr address size} :
    Corresponds (.accountCodeSize addressPtr) (.accountCodeSize address size)
  | accountCodehash {addressPtr dest address codehash} :
    Corresponds (.accountCodehash addressPtr dest) (.accountCodehash address codehash)
  | blockBasefee {dest basefee} : Corresponds (.blockBasefee dest) (.blockBasefee basefee)
  | blockCoinbase {dest coinbase} : Corresponds (.blockCoinbase dest) (.blockCoinbase coinbase)
  | blockGasLimit {limit} : Corresponds .blockGasLimit (.blockGasLimit limit)
  | blockNumber {number} : Corresponds .blockNumber (.blockNumber number)
  | blockTimestamp {timestamp} : Corresponds .blockTimestamp (.blockTimestamp timestamp)
  | chainid {chainid} : Corresponds .chainid (.chainid chainid)
  | callContract {addressPtr calldata calldataLen valuePtr gasSupplied returnDataLen address data
      gas value outsLen status frame} :
    Corresponds (.callContract addressPtr calldata calldataLen valuePtr gasSupplied returnDataLen)
      (.callContract address data gas value outsLen status frame)
  | delegateCallContract {addressPtr calldata calldataLen gasSupplied returnDataLen address data
      gas outsLen status frame} :
    Corresponds (.delegateCallContract addressPtr calldata calldataLen gasSupplied returnDataLen)
      (.delegateCallContract address data gas outsLen status frame)
  | staticCallContract {addressPtr calldata calldataLen gasSupplied returnDataLen address data
      gas outsLen status frame} :
    Corresponds (.staticCallContract addressPtr calldata calldataLen gasSupplied returnDataLen)
      (.staticCallContract address data gas outsLen status frame)
  | contractAddress {dest address} :
    Corresponds (.contractAddress dest) (.contractAddress address)
  | create1 {codePtr codeLen value contract revertDataLenPtr code endowment address
      revertDataLen} :
    Corresponds (.create1 codePtr codeLen value contract revertDataLenPtr)
      (.create1 code endowment address revertDataLen)
  | create2 {codePtr codeLen valuePtr saltPtr contract revertDataLenPtr code endowment salt
      address revertDataLen} :
    Corresponds (.create2 codePtr codeLen valuePtr saltPtr contract revertDataLenPtr)
      (.create2 code endowment salt address revertDataLen)
  | emitLog {dataPtr len topicCount data topics} :
    Corresponds (.emitLog dataPtr len topicCount) (.emitLog data topics)
  | evmGasLeft {gasLeft} : Corresponds .evmGasLeft (.evmGasLeft gasLeft)
  | evmInkLeft {inkLeft} : Corresponds .evmInkLeft (.evmInkLeft inkLeft)
  | payForMemoryGrow {newPages pages} :
    Corresponds (.payForMemoryGrow newPages) (.payForMemoryGrow pages)
  | mathDiv {value divisor a b result} :
    Corresponds (.mathDiv value divisor) (.mathDiv a b result)
  | mathMod {value modulus a b result} :
    Corresponds (.mathMod value modulus) (.mathMod a b result)
  | mathPow {value exponent a b result} :
    Corresponds (.mathPow value exponent) (.mathPow a b result)
  | mathAddMod {value addend modulus a b c result} :
    Corresponds (.mathAddMod value addend modulus) (.mathAddMod a b c result)
  | mathMulMod {value multiplier modulus a b c result} :
    Corresponds (.mathMulMod value multiplier modulus) (.mathMulMod a b c result)
  | msgReentrant {reentrant} : Corresponds .msgReentrant (.msgReentrant reentrant)
  | msgSender {dest sender} : Corresponds (.msgSender dest) (.msgSender sender)
  | msgValue {dest value} : Corresponds (.msgValue dest) (.msgValue value)
  | nativeKeccak256 {bytes len output preimage digest} :
    Corresponds (.nativeKeccak256 bytes len output) (.nativeKeccak256 preimage digest)
  | readReturnData {dest offsetValue sizeValue offset size data} :
    Corresponds (.readReturnData dest offsetValue sizeValue) (.readReturnData offset size data)
  | returnDataSize {size} : Corresponds .returnDataSize (.returnDataSize size)
  | txGasPrice {dest gasPrice} : Corresponds (.txGasPrice dest) (.txGasPrice gasPrice)
  | txInkPrice {inkPrice} : Corresponds .txInkPrice (.txInkPrice inkPrice)
  | txOrigin {dest origin} : Corresponds (.txOrigin dest) (.txOrigin origin)
  | logF32 {value text} : Corresponds (.logF32 value) (.consoleLog text)
  | logF64 {value text} : Corresponds (.logF64 value) (.consoleLog text)
  | logI32 {value text} : Corresponds (.logI32 value) (.consoleLog text)
  | logI64 {value text} : Corresponds (.logI64 value) (.consoleLog text)
  | logTxt {textPtr len text} : Corresponds (.logTxt textPtr len) (.consoleLogText text)

namespace HostCall

/-- What the guest passes, with the contents of the buffers it points to. The number a printer
is given is not recorded. -/
def inputs (m : Memory) : HostCall → List Input
  | writeResult data len => [.bytes (m.read data len.toNat)]
  | exitEarly status => [.num status.toNat]
  | storageLoadBytes32 keyPtr _ => [.bytes (m.read keyPtr 32)]
  | storageCacheBytes32 keyPtr valuePtr => [.bytes (m.read keyPtr 32), .bytes (m.read valuePtr 32)]
  | storageFlushCache clear => [.num clear.toNat]
  | transientLoadBytes32 keyPtr _ => [.bytes (m.read keyPtr 32)]
  | transientStoreBytes32 keyPtr valuePtr =>
    [.bytes (m.read keyPtr 32), .bytes (m.read valuePtr 32)]
  | accountBalance addressPtr _ => [.bytes (m.read addressPtr 20)]
  | accountCode addressPtr offsetRecv sizeRecv _ =>
    [.bytes (m.read addressPtr 20), .num offsetRecv.toNat, .num sizeRecv.toNat]
  | accountCodeSize addressPtr => [.bytes (m.read addressPtr 20)]
  | accountCodehash addressPtr _ => [.bytes (m.read addressPtr 20)]
  | callContract addressPtr calldata calldataLen valuePtr gasSupplied _ =>
    [.bytes (m.read addressPtr 20), .bytes (m.read calldata calldataLen.toNat),
      .bytes (m.read valuePtr 32), .num gasSupplied.toNat]
  | delegateCallContract addressPtr calldata calldataLen gasSupplied _ =>
    [.bytes (m.read addressPtr 20), .bytes (m.read calldata calldataLen.toNat),
      .num gasSupplied.toNat]
  | staticCallContract addressPtr calldata calldataLen gasSupplied _ =>
    [.bytes (m.read addressPtr 20), .bytes (m.read calldata calldataLen.toNat),
      .num gasSupplied.toNat]
  | create1 codePtr codeLen value _ _ =>
    [.bytes (m.read codePtr codeLen.toNat), .bytes (m.read value 32)]
  | create2 codePtr codeLen valuePtr saltPtr _ _ =>
    [.bytes (m.read codePtr codeLen.toNat), .bytes (m.read valuePtr 32),
      .bytes (m.read saltPtr 32)]
  | emitLog dataPtr len topicCount => [.bytes (m.read dataPtr len.toNat), .num topicCount.toNat]
  | payForMemoryGrow newPages => [.num newPages.toNat]
  | mathDiv value divisor => [.bytes (m.read value 32), .bytes (m.read divisor 32)]
  | mathMod value modulus => [.bytes (m.read value 32), .bytes (m.read modulus 32)]
  | mathPow value exponent => [.bytes (m.read value 32), .bytes (m.read exponent 32)]
  | mathAddMod value addend modulus =>
    [.bytes (m.read value 32), .bytes (m.read addend 32), .bytes (m.read modulus 32)]
  | mathMulMod value multiplier modulus =>
    [.bytes (m.read value 32), .bytes (m.read multiplier 32), .bytes (m.read modulus 32)]
  | nativeKeccak256 bytes len _ => [.bytes (m.read bytes len.toNat)]
  | readReturnData _ offsetValue sizeValue => [.num offsetValue.toNat, .num sizeValue.toNat]
  | logTxt textPtr len => [.bytes (m.read textPtr len.toNat)]
  | _ => []

/-- Where the results go. -/
def dests : HostCall → List ℕ
  | readArgs dest => [dest]
  | storageLoadBytes32 _ dest => [dest]
  | transientLoadBytes32 _ dest => [dest]
  | accountBalance _ dest => [dest]
  | accountCode _ _ _ dest => [dest]
  | accountCodehash _ dest => [dest]
  | blockBasefee dest => [dest]
  | blockCoinbase dest => [dest]
  | callContract _ _ _ _ _ returnDataLen => [returnDataLen]
  | delegateCallContract _ _ _ _ returnDataLen => [returnDataLen]
  | staticCallContract _ _ _ _ returnDataLen => [returnDataLen]
  | contractAddress dest => [dest]
  | create1 _ _ _ contract revertDataLenPtr => [contract, revertDataLenPtr]
  | create2 _ _ _ _ contract revertDataLenPtr => [contract, revertDataLenPtr]
  | mathDiv value _ => [value]
  | mathMod value _ => [value]
  | mathPow value _ => [value]
  | mathAddMod value _ _ => [value]
  | mathMulMod value _ _ => [value]
  | msgSender dest => [dest]
  | msgValue dest => [dest]
  | nativeKeccak256 _ _ output => [output]
  | readReturnData dest _ _ => [dest]
  | txGasPrice dest => [dest]
  | txOrigin dest => [dest]
  | _ => []

end HostCall

namespace HostioKind

variable {F : Type}

/-- The inputs that were recorded. -/
def inputs : HostioKind F → List Input
  | writeResult result => [.bytes result]
  | exitEarly status => [.num status.toNat]
  | storageLoadBytes32 key _ => [.bytes key.1]
  | storageCacheBytes32 key value => [.bytes key.1, .bytes value.1]
  | storageFlushCache clear => [.num clear.toNat]
  | transientLoadBytes32 key _ => [.bytes key.1]
  | transientStoreBytes32 key value => [.bytes key.1, .bytes value.1]
  | accountBalance address _ => [.bytes address.1]
  | accountCode address offset size _ => [.bytes address.1, .num offset.toNat, .num size.toNat]
  | accountCodeSize address _ => [.bytes address.1]
  | accountCodehash address _ => [.bytes address.1]
  | callContract address data gas value _ _ _ =>
    [.bytes address.1, .bytes data, .bytes (be 32 value), .num gas.toNat]
  | delegateCallContract address data gas _ _ _ => [.bytes address.1, .bytes data, .num gas.toNat]
  | staticCallContract address data gas _ _ _ => [.bytes address.1, .bytes data, .num gas.toNat]
  | create1 code endowment _ _ => [.bytes code, .bytes (be 32 endowment)]
  | create2 code endowment salt _ _ => [.bytes code, .bytes (be 32 endowment), .bytes salt.1]
  | emitLog data topics => [.bytes data, .num topics.toNat]
  | payForMemoryGrow pages => [.num pages.toNat]
  | mathDiv a b _ => [.bytes (be 32 a), .bytes (be 32 b)]
  | mathMod a b _ => [.bytes (be 32 a), .bytes (be 32 b)]
  | mathPow a b _ => [.bytes (be 32 a), .bytes (be 32 b)]
  | mathAddMod a b c _ => [.bytes (be 32 a), .bytes (be 32 b), .bytes (be 32 c)]
  | mathMulMod a b c _ => [.bytes (be 32 a), .bytes (be 32 b), .bytes (be 32 c)]
  | nativeKeccak256 preimage _ => [.bytes preimage]
  | readReturnData offset size _ => [.num offset.toNat, .num size.toNat]
  | consoleLogText text => [.bytes text]
  | _ => []

/-- The results that were recorded as bytes in memory. -/
def results : HostioKind F → List Bytes
  | readArgs args => [args]
  | storageLoadBytes32 _ value => [value.1]
  | transientLoadBytes32 _ value => [value.1]
  | accountBalance _ balance => [be 32 balance]
  | accountCode _ _ _ code => [code]
  | accountCodehash _ codehash => [codehash.1]
  | blockBasefee basefee => [be 32 basefee]
  | blockCoinbase coinbase => [coinbase.1]
  | callContract _ _ _ _ outsLen _ _ => [(toLeBytes 4 outsLen).1]
  | delegateCallContract _ _ _ outsLen _ _ => [(toLeBytes 4 outsLen).1]
  | staticCallContract _ _ _ outsLen _ _ => [(toLeBytes 4 outsLen).1]
  | contractAddress address => [address.1]
  | create1 _ _ address revertDataLen => [address.1, (toLeBytes 4 revertDataLen).1]
  | create2 _ _ _ address revertDataLen => [address.1, (toLeBytes 4 revertDataLen).1]
  | mathDiv _ _ result => [be 32 result]
  | mathMod _ _ result => [be 32 result]
  | mathPow _ _ result => [be 32 result]
  | mathAddMod _ _ _ result => [be 32 result]
  | mathMulMod _ _ _ result => [be 32 result]
  | msgSender sender => [sender.1]
  | msgValue value => [value.1]
  | nativeKeccak256 _ digest => [digest.1]
  | readReturnData _ _ data => [data]
  | txGasPrice gasPrice => [be 32 gasPrice]
  | txOrigin origin => [origin.1]
  | _ => []

/-- The integer that was recorded as returned : a value, a status or the length of the data. -/
def returned : HostioKind F → Option ℕ
  | accountCode _ _ _ code => some code.length
  | accountCodeSize _ size => some size.toNat
  | blockGasLimit limit => some limit.toNat
  | blockNumber number => some number.toNat
  | blockTimestamp timestamp => some timestamp.toNat
  | chainid id => some id.toNat
  | callContract _ _ _ _ _ status _ => some status.toNat
  | delegateCallContract _ _ _ _ status _ => some status.toNat
  | staticCallContract _ _ _ _ status _ => some status.toNat
  | evmGasLeft gasLeft => some gasLeft.toNat
  | evmInkLeft inkLeft => some inkLeft.toNat
  | msgReentrant reentrant => some reentrant.toNat
  | readReturnData _ _ data => some data.length
  | returnDataSize size => some size.toNat
  | txInkPrice inkPrice => some inkPrice.toNat
  | _ => none

end HostioKind

end CargoStylus
