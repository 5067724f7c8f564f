import CargoStylus.HostCall

/-!
# Runs of the host functions

What a host call does when it returns : it has taken the next record of its name, the record
is of its host I/O, what the guest passed is what was recorded, and memory holds what was
copied (`answers_of_run`). A call that corresponds to the next record and passes what was
recorded does return (`run_of_takes`).

The exceptions are in the statements. `HostCall.Works` leaves out the functions whose name
or pattern is not that of their records, which never return (`works_of_run`).
`HostCall.Compared` leaves out the two that compare nothing. `HostioKind.copied` and
`HostioKind.answer` are what is copied and returned, where it is not what was recorded.

The functions that share a body share a lemma (`HostFn.load_run` and so on).
-/

namespace CargoStylus

open Rust

/-! ## Runs of the host functions -/

namespace Replay

/-- `s` once the record `hostio` is taken and `reader` is left. -/
def after (s : Replay) (hostio : Hostio TraceFrame) (reader : FrameReader) : Replay :=
  { s with frame := some reader, startInk := hostio.startInk, endInk := hostio.endInk }

/-- `s` with the bytes `b` written at `dest`. -/
def written (s : Replay) (dest : ℕ) (b : Bytes) : Replay :=
  { s with memory := s.memory.write dest b }

/-- The bytes that are read behind a buffer, if any are. -/
def beyond (s : Replay) : Memory :=
  s.behind.getD fun _ => 0

/-- A call of `name` takes the record `hostio` and leaves `reader`. -/
def Takes (s : Replay) (name : String) (hostio : Hostio TraceFrame) (reader : FrameReader) :
    Prop :=
  ∃ r, s.frame = some r ∧ r.Takes name hostio reader

variable (s : Replay) (hostio : Hostio TraceFrame) (reader : FrameReader) (dest : ℕ) (b : Bytes)

@[simp] theorem after_memory : (s.after hostio reader).memory = s.memory :=
  rfl

@[simp] theorem after_behind : (s.after hostio reader).behind = s.behind :=
  rfl

@[simp] theorem after_beyond : (s.after hostio reader).beyond = s.beyond :=
  rfl

end Replay

namespace HostM

variable {α : Type}

@[simp] theorem liftOutcome_run {s s' : Replay} {x : α} {o : Outcome String α} :
    (liftM o : HostM α).run s = .ok (x, s') ↔ o = .ok x ∧ s = s' := by
  cases o <;> simp [liftM, monadLift, MonadLift.monadLift, StateT.lift, StateT.run]

/-- The next record has the name and is read by the pattern. -/
theorem frame_run {name : String} {dec : HostioKind TraceFrame → Option α} {s s' : Replay}
    {x : α} : (frame name dec).run s = .ok (x, s') ↔ ∃ hostio reader,
      s.Takes name hostio reader ∧ dec hostio.kind = some x ∧ s.after hostio reader = s' := by
  simp only [frame, StateT.run_bind, StateT.run_get, Outcome.pure_eq, Outcome.ok_bind,
    StateT.run_set, Outcome.bind_eq_ok, Prod.exists, liftOutcome_run, Outcome.unwrap_eq_ok,
    FrameReader.nextHostio_eq_ok, Replay.Takes, Replay.after]
  refine ⟨fun h => ?_, fun h => ?_⟩
  · obtain ⟨r, _, ⟨hr, rfl⟩, hostio, reader, _, ⟨htakes, rfl⟩, hdec, hs'⟩ := h
    exact ⟨hostio, reader, ⟨r, hr, htakes⟩, hdec, hs'⟩
  · obtain ⟨hostio, reader, ⟨r, hr, htakes⟩, hdec, hs'⟩ := h
    exact ⟨r, s, ⟨hr, rfl⟩, hostio, reader, _, ⟨htakes, rfl⟩, hdec, hs'⟩

/-- An assertion changes nothing. -/
theorem assertEq_run [DecidableEq α] {left right : α} {s s' : Replay} {u : Unit} :
    (assertEq left right).run s = .ok (u, s') ↔ left = right ∧ s = s' := by
  simp only [assertEq, liftOutcome_run, Outcome.assert_eq_ok]

@[simp] theorem readFixed_run (ptr n : ℕ) (s : Replay) :
    (readFixed ptr n).run s = .ok (s.memory.read ptr n, s) :=
  rfl

/-- Copying what a buffer holds reads nothing behind it. -/
theorem memcpy_run {src : Bytes} {dest len : ℕ} (h : len ≤ src.length) (s : Replay) :
    (memcpy src dest len).run s = .ok ((), s.written dest (src.take len)) := by
  simp [memcpy, readBehind, Nat.sub_eq_zero_of_le h, Replay.written]

/-- The bytes of a fixed array are written. -/
@[simp] theorem copy_run {n : ℕ} (src : FixedBytes n) (dest : ℕ) (s : Replay) :
    (copy src dest).run s = .ok ((), s.written dest src.1) := by
  obtain ⟨src, rfl⟩ := src
  rw [copy, memcpy_run le_rfl, List.take_length]

@[simp] theorem copyBytes_run (src : Bytes) (dest : ℕ) (s : Replay) :
    (copyBytes src dest src.length).run s = .ok ((), s.written dest src) := by
  rw [copyBytes, memcpy_run le_rfl, List.take_length]

/-- What `copy!` takes from a boxed slice : the size of the box. -/
def boxBytes (src : Bytes) (behind : Memory) : Bytes :=
  src.take sizeOfBox ++ behind.read 0 (sizeOfBox - src.length)

/-- The size of a box can be read where the slice is : it is not empty, and it is that long or
there is something behind it. -/
def BoxReadable (src : Bytes) (behind : Option Memory) : Prop :=
  src ≠ [] ∧ (sizeOfBox ≤ src.length ∨ behind ≠ none)

@[simp] theorem store_run (ptr : ℕ) (value : U32) (s : Replay) :
    (store ptr value).run s = .ok ((), s.written ptr (toLeBytes 4 value).1) :=
  rfl

end HostM

open HostM

namespace HostCall

/-- `function_name!()` in the function that is called. -/
def name : HostCall → String
  | readArgs .. => "read_args"
  | writeResult .. => "write_result"
  | exitEarly .. => "exit_early"
  | storageLoadBytes32 .. => "storage_load_bytes32"
  | storageCacheBytes32 .. => "storage_cache_bytes32"
  | storageFlushCache .. => "storage_flush_cache"
  | transientLoadBytes32 .. => "transient_load_bytes32"
  | transientStoreBytes32 .. => "transient_store_bytes32"
  | accountBalance .. => "account_balance"
  | accountCode .. => "account_code"
  | accountCodeSize .. => "account_code_size"
  | accountCodehash .. => "account_codehash"
  | blockBasefee .. => "block_basefee"
  | blockCoinbase .. => "block_coinbase"
  | blockGasLimit => "block_gas_limit"
  | blockNumber => "block_number"
  | blockTimestamp => "block_timestamp"
  | chainid => "chainid"
  | callContract .. => "call_contract"
  | delegateCallContract .. => "delegate_call_contract"
  | staticCallContract .. => "static_call_contract"
  | contractAddress .. => "contract_address"
  | create1 .. => "create1"
  | create2 .. => "create2"
  | emitLog .. => "emit_log"
  | evmGasLeft => "evm_gas_left"
  | evmInkLeft => "evm_ink_left"
  | payForMemoryGrow .. => "pay_for_memory_grow"
  | mathDiv .. => "math_div"
  | mathMod .. => "math_mod"
  | mathPow .. => "math_pow"
  | mathAddMod .. => "math_add_mod"
  | mathMulMod .. => "math_mul_mod"
  | msgReentrant => "msg_reentrant"
  | msgSender .. => "msg_sender"
  | msgValue .. => "msg_value"
  | nativeKeccak256 .. => "native_keccak256"
  | readReturnData .. => "read_return_data"
  | returnDataSize => "return_data_size"
  | txGasPrice .. => "tx_gas_price"
  | txInkPrice => "tx_ink_price"
  | txOrigin .. => "tx_origin"
  | logF32 .. => "log_f32"
  | logF64 .. => "log_f64"
  | logI32 .. => "log_i32"
  | logI64 .. => "log_i64"
  | logTxt .. => "log_txt"

/-- Every input is compared, but the status of an early exit and the flag of a flush. -/
def Compared : HostCall → Prop
  | exitEarly _ => False
  | storageFlushCache _ => False
  | _ => True

end HostCall

namespace HostioKind

/-- The bytes that are copied for a record. -/
def copied (behind : Memory) : HostioKind TraceFrame → List Bytes
  | accountCode _ _ _ code => [boxBytes code behind]
  | kind => kind.results

/-- What is copied for a record can be read. -/
def Readable (behind : Option Memory) : HostioKind TraceFrame → Prop
  | accountCode _ _ _ code => BoxReadable code behind
  | _ => True

/-- The integer that is returned for a record : a length has 32 bits. -/
def answer : HostioKind TraceFrame → Option ℕ
  | accountCode _ _ _ code => some (code.length % 2 ^ 32)
  | readReturnData _ _ data => some (data.length % 2 ^ 32)
  | kind => kind.returned

end HostioKind

/-- `m` with the bytes of `outs` written in order. -/
def writeAll (m : Memory) (outs : List (ℕ × Bytes)) : Memory :=
  outs.foldl (fun m o => m.write o.1 o.2) m

/-! ### Runs of each shape -/

namespace HostM

variable {α β : Type} {s s' : Replay}

theorem frame_bind_run {name : String} {dec : HostioKind TraceFrame → Option α}
    {f : α → HostM β} {x : β} : (frame name dec >>= f).run s = .ok (x, s') ↔
      ∃ hostio reader y, s.Takes name hostio reader ∧ dec hostio.kind = some y ∧
        (f y).run (s.after hostio reader) = .ok (x, s') := by
  simp only [StateT.run_bind, Outcome.bind_eq_ok, Prod.exists, frame_run]
  refine ⟨fun h => ?_, fun h => ?_⟩
  · obtain ⟨y, _, ⟨hostio, reader, htakes, hdec, rfl⟩, hrun⟩ := h
    exact ⟨hostio, reader, y, htakes, hdec, hrun⟩
  · obtain ⟨hostio, reader, y, htakes, hdec, hrun⟩ := h
    exact ⟨y, _, ⟨hostio, reader, htakes, hdec, rfl⟩, hrun⟩

theorem assertEq_bind_run [DecidableEq α] {left right : α} {f : Unit → HostM β} {x : β} :
    (assertEq left right >>= f).run s = .ok (x, s') ↔
      left = right ∧ (f ()).run s = .ok (x, s') := by
  simp only [StateT.run_bind, Outcome.bind_eq_ok, Prod.exists, assertEq_run]
  refine ⟨fun h => ?_, fun h => ?_⟩
  · obtain ⟨_, _, ⟨heq, rfl⟩, hrun⟩ := h
    exact ⟨heq, hrun⟩
  · exact ⟨(), s, ⟨h.1, rfl⟩, h.2⟩

theorem readFixed_bind_run {ptr n : ℕ} {f : Bytes → HostM β} :
    (readFixed ptr n >>= f).run s = (f (s.memory.read ptr n)).run s :=
  rfl

theorem readBytes_bind_run {ptr : ℕ} {len : U32} {f : Bytes → HostM β} :
    (readBytes ptr len >>= f).run s = (f (s.memory.read ptr len.toNat)).run s :=
  rfl

theorem copy_bind_run {n : ℕ} {src : FixedBytes n} {dest : ℕ} {f : Unit → HostM β} :
    (copy src dest >>= f).run s = (f ()).run (s.written dest src.1) := by
  rw [StateT.run_bind, copy_run, Outcome.ok_bind]

theorem copyBytes_bind_run {src : Bytes} {dest : ℕ} {f : Unit → HostM β} :
    (copyBytes src dest src.length >>= f).run s = (f ()).run (s.written dest src) := by
  rw [StateT.run_bind, copyBytes_run, Outcome.ok_bind]

/-- The size of a box is copied exactly if it can be read. -/
theorem copyBox_run {src : Bytes} {dest : ℕ} {u : Unit} :
    (copyBox src dest).run s = .ok (u, s') ↔
      BoxReadable src s.behind ∧ s' = s.written dest (boxBytes src s.beyond) := by
  rw [copyBox, StateT.run_bind, Outcome.bind_eq_ok]
  simp only [Prod.exists, liftOutcome_run, Outcome.assert_eq_ok]
  rcases Nat.lt_or_ge src.length sizeOfBox with hlt | hle
  · have hpos : sizeOfBox - src.length ≠ 0 := by omega
    cases hbehind : s.behind with
    | none =>
      simp [memcpy, readBehind, hpos, hbehind, BoxReadable, hlt.not_ge, Outcome.unwrap]
    | some behind =>
      simp [memcpy, readBehind, hpos, hbehind, BoxReadable, boxBytes, Replay.beyond,
        Outcome.unwrap, Replay.written, eq_comm]
  · have hbytes : boxBytes src s.beyond = src.take sizeOfBox := by
      simp [boxBytes, Nat.sub_eq_zero_of_le hle, Memory.read]
    simp [memcpy_run hle, BoxReadable, hle, hbytes, eq_comm]

theorem copyBox_bind_run {src : Bytes} {dest : ℕ} {f : Unit → HostM β} {x : β} :
    (copyBox src dest >>= f).run s = .ok (x, s') ↔ BoxReadable src s.behind ∧
      (f ()).run (s.written dest (boxBytes src s.beyond)) = .ok (x, s') := by
  simp only [StateT.run_bind, Outcome.bind_eq_ok, Prod.exists, copyBox_run]
  refine ⟨fun h => ?_, fun h => ?_⟩
  · obtain ⟨_, _, ⟨hread, rfl⟩, hrun⟩ := h
    exact ⟨hread, hrun⟩
  · exact ⟨(), _, ⟨h.1, rfl⟩, h.2⟩

theorem store_bind_run {ptr : ℕ} {value : U32} {f : Unit → HostM β} :
    (store ptr value >>= f).run s = (f ()).run (s.written ptr (toLeBytes 4 value).1) :=
  rfl

theorem pure_run_eq_ok {x y : α} :
    (pure x : HostM α).run s = .ok (y, s') ↔ y = x ∧ s' = s := by
  simp [eq_comm]

end HostM

namespace HostFn

open HostM

variable {α : Type} {k n : ℕ} {name : String} {s s' : Replay} {u : Unit}

/-- What is recorded is written. -/
theorem output_run {dec : HostioKind TraceFrame → Option (FixedBytes n)} {dest : ℕ} :
    (output name dec dest).run s = .ok (u, s') ↔ ∃ hostio reader value,
      s.Takes name hostio reader ∧ dec hostio.kind = some value ∧
        (s.after hostio reader).written dest value.1 = s' := by
  simp only [output, frame_bind_run, copy_run, Outcome.ok.injEq, Prod.mk.injEq, true_and]

/-- The key is compared, and the value is written. -/
theorem load_run {dec : HostioKind TraceFrame → Option (FixedBytes k × FixedBytes n)}
    {keyPtr dest : ℕ} : (load name dec keyPtr dest).run s = .ok (u, s') ↔
      ∃ hostio reader key value, s.Takes name hostio reader ∧
        dec hostio.kind = some (key, value) ∧ s.memory.read keyPtr k = key.1 ∧
          (s.after hostio reader).written dest value.1 = s' := by
  simp only [load, frame_bind_run, Prod.exists, readFixed_bind_run, assertEq_bind_run, copy_run,
    Outcome.ok.injEq, Prod.mk.injEq, true_and, Replay.after_memory]

/-- The key and the value are compared. -/
theorem put_run {dec : HostioKind TraceFrame → Option (FixedBytes k × FixedBytes n)}
    {keyPtr valuePtr : ℕ} : (put name dec keyPtr valuePtr).run s = .ok (u, s') ↔
      ∃ hostio reader key value, s.Takes name hostio reader ∧
        dec hostio.kind = some (key, value) ∧ s.memory.read keyPtr k = key.1 ∧
          s.memory.read valuePtr n = value.1 ∧ s.after hostio reader = s' := by
  simp only [put, frame_bind_run, Prod.exists, readFixed_bind_run, assertEq_bind_run,
    assertEq_run, Replay.after_memory]

/-- The bytes in memory are compared with the record. -/
theorem compare_run {dec : HostioKind TraceFrame → Option Bytes} {data : ℕ} {len : U32} :
    (compare name dec data len).run s = .ok (u, s') ↔ ∃ hostio reader bytes,
      s.Takes name hostio reader ∧ dec hostio.kind = some bytes ∧
        s.memory.read data len.toNat = bytes ∧ s.after hostio reader = s' := by
  simp only [compare, frame_bind_run, readBytes_bind_run, assertEq_run, Replay.after_memory]

theorem ignore_run {dec : HostioKind TraceFrame → Option α} :
    (ignore name dec).run s = .ok (u, s') ↔ ∃ hostio reader y,
      s.Takes name hostio reader ∧ dec hostio.kind = some y ∧ s' = s.after hostio reader := by
  simp only [ignore, frame_bind_run, pure_run_eq_ok, true_and]

/-- Both operands are compared, and the result is written in place of the first. -/
theorem binary_run {dec : HostioKind TraceFrame → Option (U256 × U256 × U256)}
    {value operand : ℕ} : (binary name dec value operand).run s = .ok (u, s') ↔
      ∃ hostio reader a b result, s.Takes name hostio reader ∧
        dec hostio.kind = some (a, b, result) ∧ s.memory.read value 32 = be 32 a ∧
          s.memory.read operand 32 = be 32 b ∧
            (s.after hostio reader).written value (be 32 result) = s' := by
  simp only [binary, frame_bind_run, Prod.exists, readFixed_bind_run, assertEq_bind_run, copy_run,
    Outcome.ok.injEq, Prod.mk.injEq, true_and, Replay.after_memory, be]

/-- The operands are compared, and the result is written in place of the first. -/
theorem ternary_run {dec : HostioKind TraceFrame → Option (U256 × U256 × U256 × U256)}
    {value operand modulus : ℕ} :
    (ternary name dec value operand modulus).run s = .ok (u, s') ↔
      ∃ hostio reader a b c result, s.Takes name hostio reader ∧
        dec hostio.kind = some (a, b, c, result) ∧ s.memory.read value 32 = be 32 a ∧
          s.memory.read operand 32 = be 32 b ∧ s.memory.read modulus 32 = be 32 c ∧
            (s.after hostio reader).written value (be 32 result) = s' := by
  simp only [ternary, frame_bind_run, Prod.exists, readFixed_bind_run, assertEq_bind_run,
    copy_run, Outcome.ok.injEq, Prod.mk.injEq, true_and, Replay.after_memory, be]

/-- The inputs of a call are compared, and the length of its outputs is written. -/
theorem call_run {dec : HostioKind TraceFrame → Option (Address × Bytes × U64 × U32 × U8)}
    {addressPtr calldata : ℕ} {calldataLen : U32} {gasSupplied : U64} {returnDataLen : ℕ}
    {x : U8} : (call name dec addressPtr calldata calldataLen gasSupplied returnDataLen).run s =
      .ok (x, s') ↔ ∃ hostio reader address data gas outsLen status,
        s.Takes name hostio reader ∧
          dec hostio.kind = some (address, data, gas, outsLen, status) ∧
            s.memory.read addressPtr 20 = address.1 ∧
              s.memory.read calldata calldataLen.toNat = data ∧ gasSupplied = gas ∧
                x = status ∧ s' = (s.after hostio reader).written returnDataLen
                  (toLeBytes 4 outsLen).1 := by
  simp only [call, frame_bind_run, Prod.exists, readFixed_bind_run, readBytes_bind_run,
    assertEq_bind_run, store_bind_run, pure_run_eq_ok, Replay.after_memory]

/-- The arguments of the contract are written. -/
theorem readArgs_run {dest : ℕ} : (readArgs dest).run s = .ok (u, s') ↔
    ∃ hostio reader args, s.Takes "read_args" hostio reader ∧ hostio.kind = .readArgs args ∧
      (s.after hostio reader).written dest args = s' := by
  simp only [readArgs, frame_bind_run, copyBytes_run, Outcome.ok.injEq, Prod.mk.injEq, true_and]
  refine ⟨fun h => ?_, fun h => ?_⟩
  · obtain ⟨hostio, reader, args, htakes, hdec, hs'⟩ := h
    split at hdec
    · obtain rfl := Option.some.inj hdec
      exact ⟨hostio, reader, _, htakes, ‹_›, hs'⟩
    · cases hdec
  · obtain ⟨hostio, reader, args, htakes, hkind, hs'⟩ := h
    exact ⟨hostio, reader, args, htakes, by rw [hkind], hs'⟩

/-- The address is compared, and as much as a box has is copied. -/
theorem accountCode_run {addressPtr dest : ℕ} {offsetRecv sizeRecv x : U32} :
    (accountCode addressPtr offsetRecv sizeRecv dest).run s = .ok (x, s') ↔
      ∃ hostio reader address code, s.Takes "account_code" hostio reader ∧
        hostio.kind = .accountCode address offsetRecv sizeRecv code ∧
          s.memory.read addressPtr 20 = address.1 ∧ BoxReadable code s.behind ∧
            x = BitVec.ofNat 32 code.length ∧
              s' = (s.after hostio reader).written dest (boxBytes code s.beyond) := by
  simp only [accountCode, frame_bind_run, Prod.exists, assertEq_bind_run, readFixed_bind_run,
    copyBox_bind_run, pure_run_eq_ok, Replay.after_memory, Replay.after_behind,
    Replay.after_beyond]
  refine ⟨fun h => ?_, fun h => ?_⟩
  · obtain ⟨hostio, reader, address, offset, size, code, htakes, hdec, rfl, rfl, hrest⟩ := h
    split at hdec
    · simp only [Option.some.injEq, Prod.mk.injEq] at hdec
      obtain ⟨rfl, rfl, rfl, rfl⟩ := hdec
      exact ⟨hostio, reader, _, _, htakes, ‹_›, hrest⟩
    · cases hdec
  · obtain ⟨hostio, reader, address, code, htakes, hkind, hrest⟩ := h
    exact ⟨hostio, reader, address, _, _, code, htakes, by rw [hkind], rfl, rfl, hrest⟩

theorem accountCodeSize_run {addressPtr : ℕ} {x : U32} :
    (accountCodeSize addressPtr).run s = .ok (x, s') ↔
      ∃ hostio reader address, s.Takes "account_code_size" hostio reader ∧
        hostio.kind = .accountCodeSize address x ∧ s.memory.read addressPtr 20 = address.1 ∧
          s' = s.after hostio reader := by
  simp only [accountCodeSize, frame_bind_run, Prod.exists, assertEq_bind_run, readFixed_bind_run,
    pure_run_eq_ok, Replay.after_memory]
  refine ⟨fun h => ?_, fun h => ?_⟩
  · obtain ⟨hostio, reader, address, size, htakes, hdec, haddress, rfl, hs'⟩ := h
    split at hdec
    · simp only [Option.some.injEq, Prod.mk.injEq] at hdec
      obtain ⟨rfl, rfl⟩ := hdec
      exact ⟨hostio, reader, _, htakes, ‹_›, haddress, hs'⟩
    · cases hdec
  · obtain ⟨hostio, reader, address, htakes, hkind, haddress, hs'⟩ := h
    exact ⟨hostio, reader, address, x, htakes, by rw [hkind], haddress, rfl, hs'⟩

theorem callContract_run {addressPtr calldata valuePtr returnDataLen : ℕ} {calldataLen : U32}
    {gasSupplied : U64} {x : U8} :
    (callContract addressPtr calldata calldataLen valuePtr gasSupplied returnDataLen).run s =
      .ok (x, s') ↔ ∃ hostio reader address data value outsLen frame,
        s.Takes "call_contract" hostio reader ∧
          hostio.kind = .callContract address data gasSupplied value outsLen x frame ∧
            s.memory.read addressPtr 20 = address.1 ∧
              s.memory.read calldata calldataLen.toNat = data ∧
                s.memory.read valuePtr 32 = be 32 value ∧
                  s' = (s.after hostio reader).written returnDataLen
                    (toLeBytes 4 outsLen).1 := by
  simp only [callContract, frame_bind_run, Prod.exists, assertEq_bind_run, readFixed_bind_run,
    readBytes_bind_run, store_bind_run, pure_run_eq_ok, Replay.after_memory]
  refine ⟨fun h => ?_, fun h => ?_⟩
  · obtain ⟨hostio, reader, address, data, gas, value, outsLen, status, htakes, hdec, haddress,
      hdata, hvalue, rfl, rfl, hs'⟩ := h
    split at hdec
    · simp only [Option.some.injEq, Prod.mk.injEq] at hdec
      obtain ⟨rfl, rfl, rfl, rfl, rfl, rfl⟩ := hdec
      exact ⟨hostio, reader, _, _, _, _, _, htakes, ‹_›, haddress, hdata, hvalue, hs'⟩
    · cases hdec
  · obtain ⟨hostio, reader, address, data, value, outsLen, frame, htakes, hkind, haddress, hdata,
      hvalue, hs'⟩ := h
    exact ⟨hostio, reader, address, data, _, value, outsLen, x, htakes, by rw [hkind], haddress,
      hdata, hvalue, rfl, rfl, hs'⟩

/-- The code and the value are compared, and the address and a length are written. -/
theorem create1_run {codePtr value contract revertDataLenPtr : ℕ} {codeLen : U32} :
    (create1 codePtr codeLen value contract revertDataLenPtr).run s = .ok (u, s') ↔
      ∃ hostio reader code endowment address revertDataLen, s.Takes "create1" hostio reader ∧
        hostio.kind = .create1 code endowment address revertDataLen ∧
          s.memory.read codePtr codeLen.toNat = code ∧
            s.memory.read value 32 = be 32 endowment ∧
              ((s.after hostio reader).written contract address.1).written revertDataLenPtr
                (toLeBytes 4 revertDataLen).1 = s' := by
  simp only [create1, frame_bind_run, Prod.exists, assertEq_bind_run, readFixed_bind_run,
    readBytes_bind_run, copy_bind_run, store_run, Replay.after_memory, Outcome.ok.injEq,
    Prod.mk.injEq, true_and]
  refine ⟨fun h => ?_, fun h => ?_⟩
  · obtain ⟨hostio, reader, code, endowment, address, revertDataLen, htakes, hdec, hrest⟩ := h
    split at hdec
    · simp only [Option.some.injEq, Prod.mk.injEq] at hdec
      obtain ⟨rfl, rfl, rfl, rfl⟩ := hdec
      exact ⟨hostio, reader, _, _, _, _, htakes, ‹_›, hrest⟩
    · cases hdec
  · obtain ⟨hostio, reader, code, endowment, address, revertDataLen, htakes, hkind, hrest⟩ := h
    exact ⟨hostio, reader, code, endowment, address, _, htakes, by rw [hkind], hrest⟩

/-- The code, the value and the salt are compared. -/
theorem create2_run {codePtr valuePtr saltPtr contract revertDataLenPtr : ℕ} {codeLen : U32} :
    (create2 codePtr codeLen valuePtr saltPtr contract revertDataLenPtr).run s = .ok (u, s') ↔
      ∃ hostio reader code endowment salt address revertDataLen,
        s.Takes "create2" hostio reader ∧
          hostio.kind = .create2 code endowment salt address revertDataLen ∧
            s.memory.read codePtr codeLen.toNat = code ∧
              s.memory.read valuePtr 32 = be 32 endowment ∧
                s.memory.read saltPtr 32 = salt.1 ∧
                  ((s.after hostio reader).written contract address.1).written revertDataLenPtr
                    (toLeBytes 4 revertDataLen).1 = s' := by
  simp only [create2, frame_bind_run, Prod.exists, assertEq_bind_run, readFixed_bind_run,
    readBytes_bind_run, copy_bind_run, store_run, Replay.after_memory, Outcome.ok.injEq,
    Prod.mk.injEq, true_and]
  refine ⟨fun h => ?_, fun h => ?_⟩
  · obtain ⟨hostio, reader, code, endowment, salt, address, len, htakes, hdec, hrest⟩ := h
    split at hdec
    · simp only [Option.some.injEq, Prod.mk.injEq] at hdec
      obtain ⟨rfl, rfl, rfl, rfl, rfl⟩ := hdec
      exact ⟨hostio, reader, _, _, _, _, _, htakes, ‹_›, hrest⟩
    · cases hdec
  · obtain ⟨hostio, reader, code, endowment, salt, address, len, htakes, hkind, hrest⟩ := h
    exact ⟨hostio, reader, code, endowment, salt, address, _, htakes, by rw [hkind], hrest⟩

/-- The data and the number of topics are compared. -/
theorem emitLog_run {dataPtr : ℕ} {len topicCount : U32} :
    (emitLog dataPtr len topicCount).run s = .ok (u, s') ↔
      ∃ hostio reader data, s.Takes "emit_log" hostio reader ∧
        hostio.kind = .emitLog data topicCount ∧ s.memory.read dataPtr len.toNat = data ∧
          s.after hostio reader = s' := by
  simp only [emitLog, frame_bind_run, Prod.exists, assertEq_bind_run, readBytes_bind_run,
    assertEq_run, Replay.after_memory]
  refine ⟨fun h => ?_, fun h => ?_⟩
  · obtain ⟨hostio, reader, data, topics, htakes, hdec, hdata, rfl, hs'⟩ := h
    split at hdec
    · simp only [Option.some.injEq, Prod.mk.injEq] at hdec
      obtain ⟨rfl, rfl⟩ := hdec
      exact ⟨hostio, reader, _, htakes, ‹_›, hdata, hs'⟩
    · cases hdec
  · obtain ⟨hostio, reader, data, htakes, hkind, hdata, hs'⟩ := h
    exact ⟨hostio, reader, data, _, htakes, by rw [hkind], hdata, rfl, hs'⟩

/-- The pages are compared. -/
theorem payForMemoryGrow_run {newPages : U16} : (payForMemoryGrow newPages).run s = .ok (u, s') ↔
    ∃ hostio reader, s.Takes "pay_for_memory_grow" hostio reader ∧
      hostio.kind = .payForMemoryGrow newPages ∧ s.after hostio reader = s' := by
  simp only [payForMemoryGrow, frame_bind_run, assertEq_run]
  refine ⟨fun h => ?_, fun h => ?_⟩
  · obtain ⟨hostio, reader, pages, htakes, hdec, rfl, hs'⟩ := h
    split at hdec
    · obtain rfl := Option.some.inj hdec
      exact ⟨hostio, reader, htakes, ‹_›, hs'⟩
    · cases hdec
  · obtain ⟨hostio, reader, htakes, hkind, hs'⟩ := h
    exact ⟨hostio, reader, newPages, htakes, by rw [hkind], rfl, hs'⟩

/-- The preimage is compared, and the digest is written. -/
theorem nativeKeccak256_run {bytes output : ℕ} {len : U32} :
    (nativeKeccak256 bytes len output).run s = .ok (u, s') ↔
      ∃ hostio reader preimage digest, s.Takes "native_keccak256" hostio reader ∧
        hostio.kind = .nativeKeccak256 preimage digest ∧
          s.memory.read bytes len.toNat = preimage ∧
            (s.after hostio reader).written output digest.1 = s' := by
  simp only [nativeKeccak256, frame_bind_run, Prod.exists, assertEq_bind_run, readBytes_bind_run,
    copy_run, Replay.after_memory, Outcome.ok.injEq, Prod.mk.injEq, true_and]
  refine ⟨fun h => ?_, fun h => ?_⟩
  · obtain ⟨hostio, reader, preimage, digest, htakes, hdec, hrest⟩ := h
    split at hdec
    · simp only [Option.some.injEq, Prod.mk.injEq] at hdec
      obtain ⟨rfl, rfl⟩ := hdec
      exact ⟨hostio, reader, _, _, htakes, ‹_›, hrest⟩
    · cases hdec
  · obtain ⟨hostio, reader, preimage, digest, htakes, hkind, hrest⟩ := h
    exact ⟨hostio, reader, preimage, digest, htakes, by rw [hkind], hrest⟩

/-- The recorded data is written, and its length returned. -/
theorem readReturnData_run {dest : ℕ} {offsetValue sizeValue x : U32} :
    (readReturnData dest offsetValue sizeValue).run s = .ok (x, s') ↔
      ∃ hostio reader data, s.Takes "read_return_data" hostio reader ∧
        hostio.kind = .readReturnData offsetValue sizeValue data ∧
          x = BitVec.ofNat 32 data.length ∧ s' = (s.after hostio reader).written dest data := by
  simp only [readReturnData, frame_bind_run, Prod.exists, assertEq_bind_run, copyBytes_bind_run,
    pure_run_eq_ok]
  refine ⟨fun h => ?_, fun h => ?_⟩
  · obtain ⟨hostio, reader, offset, size, data, htakes, hdec, rfl, rfl, hrest⟩ := h
    split at hdec
    · simp only [Option.some.injEq, Prod.mk.injEq] at hdec
      obtain ⟨rfl, rfl, rfl⟩ := hdec
      exact ⟨hostio, reader, _, htakes, ‹_›, hrest⟩
    · cases hdec
  · obtain ⟨hostio, reader, data, htakes, hkind, hrest⟩ := h
    exact ⟨hostio, reader, _, _, data, htakes, by rw [hkind], rfl, rfl, hrest⟩

theorem print_run : (print name).run s = .ok (u, s') ↔ ∃ hostio reader text,
    s.Takes name hostio reader ∧
      consoleText hostio.kind = some text ∧
        (println text).run (s.after hostio reader) = .ok (u, s') := by
  simp only [print, frame_bind_run]

end HostFn

/-! ### Runs of calls -/

namespace HostCall

variable {s s' : Replay} {ret : Option ℕ}

theorem unit_run {x : HostM Unit} :
    (unit x).run s = .ok (ret, s') ↔ x.run s = .ok ((), s') ∧ ret = none := by
  simp only [unit, StateT.run_bind, Outcome.bind_eq_ok, Prod.exists, pure_run_eq_ok]
  refine ⟨fun h => ?_, fun h => ?_⟩
  · obtain ⟨_, _, hrun, rfl, rfl⟩ := h
    exact ⟨hrun, rfl⟩
  · exact ⟨(), s', h.1, h.2, rfl⟩

theorem num_run {w : ℕ} {x : HostM (BitVec w)} :
    (num x).run s = .ok (ret, s') ↔ ∃ v, x.run s = .ok (v, s') ∧ ret = some v.toNat := by
  simp only [num, StateT.run_bind, Outcome.bind_eq_ok, Prod.exists, pure_run_eq_ok]
  refine ⟨fun h => ?_, fun h => ?_⟩
  · obtain ⟨v, _, hrun, rfl, rfl⟩ := h
    exact ⟨v, hrun, rfl⟩
  · obtain ⟨v, hrun, hret⟩ := h
    exact ⟨v, s', hrun, hret, rfl⟩

/-- The function has the name and the pattern of its records. The printers are not named after
theirs, and the pattern of `math_mul_mod` is that of `math_add_mod`. -/
def Works : HostCall → Prop
  | mathMulMod .. => False
  | logF32 _ => False
  | logF64 _ => False
  | logI32 _ => False
  | logI64 _ => False
  | logTxt .. => False
  | _ => True

end HostCall

open HostCall

/-- The answer of a call from a record : what the code compares, writes and returns. -/
structure Answers (s : Replay) (call : HostCall) (hostio : Hostio TraceFrame)
    (reader : FrameReader) (ret : Option ℕ) (s' : Replay) : Prop where
  corresponds : Corresponds call hostio.kind
  readable : hostio.kind.Readable s.behind
  inputs : call.Compared → call.inputs s.memory = hostio.kind.inputs
  ret : ret = hostio.kind.answer
  state : s' = { s.after hostio reader with
    memory := writeAll s.memory (call.dests.zip (hostio.kind.copied s.beyond)) }

theorem Answers.of_kind {call : HostCall} {s s' : Replay} {hostio : Hostio TraceFrame}
    {reader : FrameReader} {ret : Option ℕ} {kind : HostioKind TraceFrame}
    (hkind : hostio.kind = kind) (hcorresponds : Corresponds call kind)
    (hreadable : kind.Readable s.behind)
    (hinputs : call.Compared → call.inputs s.memory = kind.inputs) (hret : ret = kind.answer)
    (hstate : s' = { s.after hostio reader with
      memory := writeAll s.memory (call.dests.zip (kind.copied s.beyond)) }) :
    Answers s call hostio reader ret s' := by
  subst hkind
  exact ⟨hcorresponds, hreadable, hinputs, hret, hstate⟩

theorem Replay.Takes.name {s : Replay} {name : String} {hostio : Hostio TraceFrame}
    {reader : FrameReader} (h : s.Takes name hostio reader) : hostio.kind.name = name := by
  obtain ⟨_, -, htakes⟩ := h
  exact htakes.name

theorem not_takes {s : Replay} {name : String} {hostio : Hostio TraceFrame} {reader : FrameReader}
    {kind : HostioKind TraceFrame} (htakes : s.Takes name hostio reader)
    (hkind : hostio.kind = kind) (hname : kind.name ≠ name) : False :=
  hname (hkind ▸ htakes.name)

/-- No record has the name of one host function and the fields of another. -/
theorem works_of_run {call : HostCall} {s s' : Replay} {ret : Option ℕ}
    (h : call.exec.run s = .ok (ret, s')) : call.Works := by
  cases call
  case mathMulMod =>
    obtain ⟨hrun, -⟩ := unit_run.mp h
    obtain ⟨hostio, _, _, _, _, _, htakes, hdec, -⟩ := HostFn.ternary_run.mp hrun
    split at hdec
    · exact not_takes htakes ‹_› (by simp [HostioKind.name])
    · cases hdec
  case logF32 | logF64 | logI32 | logI64 =>
    obtain ⟨hrun, -⟩ := unit_run.mp h
    obtain ⟨hostio, _, _, htakes, hdec, -⟩ := HostFn.print_run.mp hrun
    unfold HostFn.consoleText at hdec
    split at hdec
    · exact not_takes htakes ‹_› (by simp [HostioKind.name])
    · cases hdec
  case logTxt =>
    obtain ⟨hrun, -⟩ := unit_run.mp h
    obtain ⟨hostio, _, _, htakes, hdec, -⟩ := HostFn.compare_run.mp hrun
    split at hdec
    · exact not_takes htakes ‹_› (by simp [HostioKind.name])
    · cases hdec
  all_goals trivial

/-- A call that returns took a record of its name and answered from it. -/
theorem answers_of_run {call : HostCall} {s s' : Replay} {ret : Option ℕ}
    (h : call.exec.run s = .ok (ret, s')) : ∃ hostio reader, s.Takes call.name hostio reader ∧
      Answers s call hostio reader ret s' := by
  cases call
  case mathMulMod | logF32 | logF64 | logI32 | logI64 | logTxt => exact (works_of_run h).elim
  case blockBasefee | blockCoinbase | contractAddress | msgSender | msgValue | txGasPrice |
      txOrigin =>
    obtain ⟨hrun, rfl⟩ := unit_run.mp h
    obtain ⟨hostio, reader, value, htakes, hdec, rfl⟩ := HostFn.output_run.mp hrun
    refine ⟨hostio, reader, htakes, ?_⟩
    split at hdec
    · obtain rfl := Option.some.inj hdec
      exact .of_kind ‹_› (by constructor) (by trivial) (fun _ => rfl) rfl rfl
    · cases hdec
  case storageLoadBytes32 | transientLoadBytes32 | accountBalance | accountCodehash =>
    obtain ⟨hrun, rfl⟩ := unit_run.mp h
    obtain ⟨hostio, reader, key, value, htakes, hdec, hkey, rfl⟩ := HostFn.load_run.mp hrun
    refine ⟨hostio, reader, htakes, ?_⟩
    split at hdec
    · obtain ⟨rfl, rfl⟩ := Prod.mk.inj (Option.some.inj hdec)
      refine .of_kind ‹_› (by constructor) (by trivial) (fun _ => ?_) rfl rfl
      simp only [HostCall.inputs, HostioKind.inputs, hkey]
    · cases hdec
  case storageCacheBytes32 | transientStoreBytes32 =>
    obtain ⟨hrun, rfl⟩ := unit_run.mp h
    obtain ⟨hostio, reader, key, value, htakes, hdec, hkey, hvalue, rfl⟩ := HostFn.put_run.mp hrun
    refine ⟨hostio, reader, htakes, ?_⟩
    split at hdec
    · obtain ⟨rfl, rfl⟩ := Prod.mk.inj (Option.some.inj hdec)
      refine .of_kind ‹_› (by constructor) (by trivial) (fun _ => ?_) rfl rfl
      simp only [HostCall.inputs, HostioKind.inputs, hkey, hvalue]
    · cases hdec
  case writeResult =>
    obtain ⟨hrun, rfl⟩ := unit_run.mp h
    obtain ⟨hostio, reader, bytes, htakes, hdec, hbytes, rfl⟩ := HostFn.compare_run.mp hrun
    refine ⟨hostio, reader, htakes, ?_⟩
    split at hdec
    · obtain rfl := Option.some.inj hdec
      refine .of_kind ‹_› (by constructor) (by trivial) (fun _ => ?_) rfl rfl
      simp only [HostCall.inputs, HostioKind.inputs, hbytes]
    · cases hdec
  case exitEarly | storageFlushCache =>
    obtain ⟨hrun, rfl⟩ := unit_run.mp h
    obtain ⟨hostio, reader, _, htakes, hdec, rfl⟩ := HostFn.ignore_run.mp hrun
    refine ⟨hostio, reader, htakes, ?_⟩
    split at hdec
    · obtain rfl := Option.some.inj hdec
      exact .of_kind ‹_› (by constructor) (by trivial) (fun _ => (‹False›).elim) rfl rfl
    · cases hdec
  case mathDiv | mathMod | mathPow =>
    obtain ⟨hrun, rfl⟩ := unit_run.mp h
    obtain ⟨hostio, reader, a, b, result, htakes, hdec, ha, hb, rfl⟩ := HostFn.binary_run.mp hrun
    refine ⟨hostio, reader, htakes, ?_⟩
    split at hdec
    · simp only [Option.some.injEq, Prod.mk.injEq] at hdec
      obtain ⟨rfl, rfl, rfl⟩ := hdec
      refine .of_kind ‹_› (by constructor) (by trivial) (fun _ => ?_) rfl rfl
      simp only [HostCall.inputs, HostioKind.inputs, ha, hb]
    · cases hdec
  case mathAddMod =>
    obtain ⟨hrun, rfl⟩ := unit_run.mp h
    obtain ⟨hostio, reader, a, b, c, result, htakes, hdec, ha, hb, hc, rfl⟩ :=
      HostFn.ternary_run.mp hrun
    refine ⟨hostio, reader, htakes, ?_⟩
    split at hdec
    · simp only [Option.some.injEq, Prod.mk.injEq] at hdec
      obtain ⟨rfl, rfl, rfl, rfl⟩ := hdec
      refine .of_kind ‹_› (by constructor) (by trivial) (fun _ => ?_) rfl rfl
      simp only [HostCall.inputs, HostioKind.inputs, ha, hb, hc]
    · cases hdec
  case delegateCallContract | staticCallContract =>
    obtain ⟨_, hrun, rfl⟩ := num_run.mp h
    obtain ⟨hostio, reader, address, data, gas, outsLen, status, htakes, hdec, haddress, hdata, rfl,
      rfl, rfl⟩ := HostFn.call_run.mp hrun
    refine ⟨hostio, reader, htakes, ?_⟩
    split at hdec
    · simp only [Option.some.injEq, Prod.mk.injEq] at hdec
      obtain ⟨rfl, rfl, rfl, rfl, rfl⟩ := hdec
      refine .of_kind ‹_› (by constructor) (by trivial) (fun _ => ?_) rfl rfl
      simp only [HostCall.inputs, HostioKind.inputs, haddress, hdata]
    · cases hdec
  case blockGasLimit | blockNumber | blockTimestamp | chainid | evmGasLeft | evmInkLeft |
      returnDataSize | txInkPrice =>
    obtain ⟨_, hrun, rfl⟩ := num_run.mp h
    obtain ⟨hostio, reader, htakes, hdec, rfl⟩ := frame_run.mp hrun
    refine ⟨hostio, reader, htakes, ?_⟩
    split at hdec
    · obtain rfl := Option.some.inj hdec
      exact .of_kind ‹_› (by constructor) (by trivial) (fun _ => rfl) rfl rfl
    · cases hdec
  case readArgs =>
    obtain ⟨hrun, rfl⟩ := unit_run.mp h
    obtain ⟨hostio, reader, args, htakes, hkind, rfl⟩ := HostFn.readArgs_run.mp hrun
    exact ⟨hostio, reader, htakes, .of_kind hkind .readArgs trivial (fun _ => rfl) rfl rfl⟩
  case accountCode =>
    obtain ⟨_, hrun, rfl⟩ := num_run.mp h
    obtain ⟨hostio, reader, address, code, htakes, hkind, haddress, hreadable, rfl, rfl⟩ :=
      HostFn.accountCode_run.mp hrun
    refine ⟨hostio, reader, htakes, .of_kind hkind .accountCode hreadable (fun _ => ?_) ?_ rfl⟩
    · simp only [HostCall.inputs, HostioKind.inputs, haddress]
    · simp [HostioKind.answer]
  case accountCodeSize =>
    obtain ⟨_, hrun, rfl⟩ := num_run.mp h
    obtain ⟨hostio, reader, address, htakes, hkind, haddress, rfl⟩ :=
      HostFn.accountCodeSize_run.mp hrun
    refine ⟨hostio, reader, htakes, .of_kind hkind .accountCodeSize trivial (fun _ => ?_) rfl rfl⟩
    simp only [HostCall.inputs, HostioKind.inputs, haddress]
  case callContract =>
    obtain ⟨_, hrun, rfl⟩ := num_run.mp h
    obtain ⟨hostio, reader, address, data, value, outsLen, _, htakes, hkind, haddress, hdata,
      hvalue, rfl⟩ := HostFn.callContract_run.mp hrun
    refine ⟨hostio, reader, htakes, .of_kind hkind .callContract trivial (fun _ => ?_) rfl rfl⟩
    simp only [HostCall.inputs, HostioKind.inputs, haddress, hdata, hvalue]
  case create1 =>
    obtain ⟨hrun, rfl⟩ := unit_run.mp h
    obtain ⟨hostio, reader, code, endowment, address, _, htakes, hkind, hcode, hendowment, rfl⟩ :=
      HostFn.create1_run.mp hrun
    refine ⟨hostio, reader, htakes, .of_kind hkind .create1 trivial (fun _ => ?_) rfl rfl⟩
    simp only [HostCall.inputs, HostioKind.inputs, hcode, hendowment]
  case create2 =>
    obtain ⟨hrun, rfl⟩ := unit_run.mp h
    obtain ⟨hostio, reader, code, endowment, salt, address, _, htakes, hkind, hcode, hendowment,
      hsalt, rfl⟩ := HostFn.create2_run.mp hrun
    refine ⟨hostio, reader, htakes, .of_kind hkind .create2 trivial (fun _ => ?_) rfl rfl⟩
    simp only [HostCall.inputs, HostioKind.inputs, hcode, hendowment, hsalt]
  case emitLog =>
    obtain ⟨hrun, rfl⟩ := unit_run.mp h
    obtain ⟨hostio, reader, data, htakes, hkind, hdata, rfl⟩ := HostFn.emitLog_run.mp hrun
    refine ⟨hostio, reader, htakes, .of_kind hkind .emitLog trivial (fun _ => ?_) rfl rfl⟩
    simp only [HostCall.inputs, HostioKind.inputs, hdata]
  case payForMemoryGrow =>
    obtain ⟨hrun, rfl⟩ := unit_run.mp h
    obtain ⟨hostio, reader, htakes, hkind, rfl⟩ := HostFn.payForMemoryGrow_run.mp hrun
    exact ⟨hostio, reader, htakes, .of_kind hkind .payForMemoryGrow trivial (fun _ => rfl) rfl rfl⟩
  case nativeKeccak256 =>
    obtain ⟨hrun, rfl⟩ := unit_run.mp h
    obtain ⟨hostio, reader, preimage, digest, htakes, hkind, hpreimage, rfl⟩ :=
      HostFn.nativeKeccak256_run.mp hrun
    refine ⟨hostio, reader, htakes, .of_kind hkind .nativeKeccak256 trivial (fun _ => ?_) rfl rfl⟩
    simp only [HostCall.inputs, HostioKind.inputs, hpreimage]
  case readReturnData =>
    obtain ⟨_, hrun, rfl⟩ := num_run.mp h
    obtain ⟨hostio, reader, data, htakes, hkind, rfl, rfl⟩ := HostFn.readReturnData_run.mp hrun
    refine ⟨hostio, reader, htakes, .of_kind hkind .readReturnData trivial (fun _ => rfl) ?_ rfl⟩
    simp [HostioKind.answer]
  case msgReentrant =>
    simp only [exec, HostFn.msgReentrant, frame_bind_run, pure_run_eq_ok] at h
    obtain ⟨hostio, reader, reentrant, htakes, hdec, rfl, rfl⟩ := h
    refine ⟨hostio, reader, htakes, ?_⟩
    split at hdec
    · obtain rfl := Option.some.inj hdec
      exact .of_kind ‹_› .msgReentrant (by trivial) (fun _ => rfl) rfl rfl
    · cases hdec

/-- A call that corresponds to the next record and passes what was recorded returns, if what is
copied can be read. -/
theorem run_of_takes (call : HostCall) (s : Replay) {hostio : Hostio TraceFrame}
    {reader : FrameReader} (hworks : call.Works) (hc : Corresponds call hostio.kind)
    (hin : call.inputs s.memory = hostio.kind.inputs) (ht : s.Takes call.name hostio reader)
    (hread : hostio.kind.Readable s.behind) :
    ∃ ret s', call.exec.run s = .ok (ret, s') ∧ s'.frame = some reader := by
  generalize hkind : hostio.kind = kind at hc hread hin
  simp only [HostioKind.inputs.eq_def, HostCall.inputs.eq_def] at hin
  cases hc
  case mathMulMod | logF32 | logF64 | logI32 | logI64 | logTxt => exact hworks.elim
  all_goals
    simp only [List.cons.injEq, Input.bytes.injEq, Input.num.injEq, BitVec.toNat_inj,
      and_true] at hin
  case blockBasefee | blockCoinbase | contractAddress | msgSender | msgValue | txGasPrice |
      txOrigin =>
    exact ⟨none, _, unit_run.mpr ⟨HostFn.output_run.mpr ⟨hostio, reader, _, ht, by rw [hkind], rfl⟩,
      rfl⟩, rfl⟩
  case storageLoadBytes32 | transientLoadBytes32 | accountBalance | accountCodehash =>
    exact ⟨none, _, unit_run.mpr ⟨HostFn.load_run.mpr ⟨hostio, reader, _, _, ht, by rw [hkind],
      hin, rfl⟩, rfl⟩, rfl⟩
  case storageCacheBytes32 | transientStoreBytes32 =>
    exact ⟨none, _, unit_run.mpr ⟨HostFn.put_run.mpr ⟨hostio, reader, _, _, ht, by rw [hkind],
      hin.1, hin.2, rfl⟩, rfl⟩, rfl⟩
  case writeResult =>
    exact ⟨none, _, unit_run.mpr ⟨HostFn.compare_run.mpr ⟨hostio, reader, _, ht, by rw [hkind],
      hin, rfl⟩, rfl⟩, rfl⟩
  case exitEarly | storageFlushCache =>
    exact ⟨none, _, unit_run.mpr ⟨HostFn.ignore_run.mpr ⟨hostio, reader, _, ht, by rw [hkind],
      rfl⟩, rfl⟩, rfl⟩
  case mathDiv | mathMod | mathPow =>
    exact ⟨none, _, unit_run.mpr ⟨HostFn.binary_run.mpr ⟨hostio, reader, _, _, _, ht,
      by rw [hkind], hin.1, hin.2, rfl⟩, rfl⟩, rfl⟩
  case mathAddMod =>
    exact ⟨none, _, unit_run.mpr ⟨HostFn.ternary_run.mpr ⟨hostio, reader, _, _, _, _, ht,
      by rw [hkind], hin.1, hin.2.1, hin.2.2, rfl⟩, rfl⟩, rfl⟩
  case delegateCallContract | staticCallContract =>
    exact ⟨_, _, num_run.mpr ⟨_, HostFn.call_run.mpr ⟨hostio, reader, _, _, _, _, _, ht,
      by rw [hkind], hin.1, hin.2.1, hin.2.2, rfl, rfl⟩, rfl⟩, rfl⟩
  case blockGasLimit | blockNumber | blockTimestamp | chainid | evmGasLeft | evmInkLeft |
      returnDataSize | txInkPrice =>
    exact ⟨_, _, num_run.mpr ⟨_, frame_run.mpr ⟨hostio, reader, ht, by rw [hkind], rfl⟩, rfl⟩, rfl⟩
  case readArgs =>
    exact ⟨none, _, unit_run.mpr ⟨HostFn.readArgs_run.mpr
      ⟨hostio, reader, _, ht, hkind, rfl⟩, rfl⟩, rfl⟩
  case accountCode =>
    obtain ⟨haddress, rfl, rfl⟩ := hin
    exact ⟨_, _, num_run.mpr ⟨_, HostFn.accountCode_run.mpr
      ⟨hostio, reader, _, _, ht, hkind, haddress, hread, rfl, rfl⟩, rfl⟩, rfl⟩
  case accountCodeSize =>
    exact ⟨_, _, num_run.mpr ⟨_, HostFn.accountCodeSize_run.mpr
      ⟨hostio, reader, _, ht, hkind, hin, rfl⟩, rfl⟩, rfl⟩
  case callContract =>
    obtain ⟨haddress, hdata, hvalue, rfl⟩ := hin
    exact ⟨_, _, num_run.mpr ⟨_, HostFn.callContract_run.mpr
      ⟨hostio, reader, _, _, _, _, _, ht, hkind, haddress, hdata, hvalue, rfl⟩, rfl⟩, rfl⟩
  case create1 =>
    exact ⟨none, _, unit_run.mpr ⟨HostFn.create1_run.mpr
      ⟨hostio, reader, _, _, _, _, ht, hkind, hin.1, hin.2, rfl⟩, rfl⟩, rfl⟩
  case create2 =>
    exact ⟨none, _, unit_run.mpr ⟨HostFn.create2_run.mpr
      ⟨hostio, reader, _, _, _, _, _, ht, hkind, hin.1, hin.2.1, hin.2.2, rfl⟩, rfl⟩, rfl⟩
  case emitLog =>
    obtain ⟨hdata, rfl⟩ := hin
    exact ⟨none, _, unit_run.mpr ⟨HostFn.emitLog_run.mpr
      ⟨hostio, reader, _, ht, hkind, hdata, rfl⟩, rfl⟩, rfl⟩
  case payForMemoryGrow =>
    subst hin
    exact ⟨none, _, unit_run.mpr ⟨HostFn.payForMemoryGrow_run.mpr
      ⟨hostio, reader, ht, hkind, rfl⟩, rfl⟩, rfl⟩
  case nativeKeccak256 =>
    exact ⟨none, _, unit_run.mpr ⟨HostFn.nativeKeccak256_run.mpr
      ⟨hostio, reader, _, _, ht, hkind, hin, rfl⟩, rfl⟩, rfl⟩
  case readReturnData =>
    obtain ⟨rfl, rfl⟩ := hin
    exact ⟨_, _, num_run.mpr ⟨_, HostFn.readReturnData_run.mpr
      ⟨hostio, reader, _, ht, hkind, rfl, rfl⟩, rfl⟩, rfl⟩
  case msgReentrant =>
    exact ⟨_, _, frame_bind_run.mpr ⟨hostio, reader, _, ht, by rw [hkind],
      pure_run_eq_ok.mpr ⟨rfl, rfl⟩⟩, rfl⟩

end CargoStylus
