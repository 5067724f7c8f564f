import CargoStylus.ParseFrame

/-!
# The layout of a record

The bytes of a record have a layout : the lengths of the fields that are always there, whether
the rest is a field of its own, and whether a frame is nested (`Layout`). A record with fewer
bytes is an error, and what reading one with enough bytes leaves is what the layout leaves
(`parseKind_reads`), whatever the host I/O.
-/

namespace CargoStylus

open Rust Json

/-- How many bytes the fields of a record have at least, in its arguments and in its results,
and whether the last field takes the rest. -/
structure Layout where
  args : ℕ := 0
  argsRest : Bool := false
  outs : ℕ := 0
  outsRest : Bool := false
  nests : Bool := false

/-- The layout of the records with a name, if it is known. -/
def layout? (name : String) : Option Layout :=
  match name with
  | "user_entrypoint" => some { args := 4 }
  | "user_returned" => some { outs := 4 }
  | "read_args" => some { outsRest := true }
  | "write_result" => some { argsRest := true }
  | "exit_early" => some { args := 4 }
  | "storage_load_bytes32" => some { args := 32, outs := 32 }
  | "storage_cache_bytes32" => some { args := 64 }
  | "storage_flush_cache" => some { args := 1 }
  | "transient_load_bytes32" => some { args := 32, outs := 32 }
  | "transient_store_bytes32" => some { args := 64 }
  | "account_balance" => some { args := 20, outs := 32 }
  | "account_code" => some { args := 28, outsRest := true }
  | "account_code_size" => some { args := 20, outs := 4 }
  | "account_codehash" => some { args := 20, outs := 32 }
  | "block_basefee" => some { outs := 32 }
  | "block_coinbase" => some { outs := 20 }
  | "block_gas_limit" => some { outs := 8 }
  | "block_number" => some { outs := 8 }
  | "block_timestamp" => some { outs := 8 }
  | "chainid" => some { outs := 8 }
  | "contract_address" => some { outs := 20 }
  | "evm_gas_left" => some { outs := 8 }
  | "evm_ink_left" => some { outs := 8 }
  | "math_div" => some { args := 64, outs := 32 }
  | "math_mod" => some { args := 64, outs := 32 }
  | "math_pow" => some { args := 64, outs := 32 }
  | "math_add_mod" => some { args := 96, outs := 32 }
  | "math_mul_mod" => some { args := 96, outs := 32 }
  | "msg_reentrant" => some { outs := 4 }
  | "msg_sender" => some { outs := 20 }
  | "msg_value" => some { outs := 32 }
  | "native_keccak256" => some { argsRest := true, outs := 32 }
  | "tx_gas_price" => some { outs := 32 }
  | "tx_ink_price" => some { outs := 4 }
  | "tx_origin" => some { outs := 20 }
  | "pay_for_memory_grow" => some { args := 2 }
  | "call_contract" => some { args := 60, argsRest := true, outs := 5, nests := true }
  | "delegate_call_contract" => some { args := 28, argsRest := true, outs := 5, nests := true }
  | "static_call_contract" => some { args := 28, argsRest := true, outs := 5, nests := true }
  | "create1" => some { args := 32, argsRest := true, outs := 24 }
  | "create2" => some { args := 64, argsRest := true, outs := 24 }
  | "emit_log" => some { args := 4, argsRest := true }
  | "read_return_data" => some { args := 8, outsRest := true }
  | "return_data_size" => some { outs := 4 }
  | "console_log_text" => some { argsRest := true }
  | "console_log" => some { args := 24 }
  | x => if evmPrefix.isPrefixOf x.toList then some { nests := true } else none

/-! ## Readers -/

section

variable {α β F : Type}

/-- A reader takes that many bytes, or is an error if there are fewer. -/
structure TakesBytes (m : StepM α) (src : Src) (n : ℕ) : Prop where
  long : ∀ s : Step, n ≤ (s.bytes src).length →
    ∃ x, m.run s = .ok (x, s.setBytes ((s.bytes src).drop n) src)
  short : ∀ s : Step, (s.bytes src).length < n → ∃ e, m.run s = .err e

theorem takesBytes_readFixed {src : Src} {n : ℕ} : TakesBytes (readFixed src n) src n where
  long s h := by
    have hrun : (readFixed src n).run s = .ok (⟨(s.bytes src).take n, by simp [h]⟩,
        s.setBytes ((s.bytes src).drop n) src) := by
      simp [readFixed, h]
    exact ⟨_, hrun⟩
  short s h := by
    have hrun : (readFixed src n).run s = .err (.short src n (s.bytes src).length) := by
      simp [readFixed, h.not_ge]
    exact ⟨_, hrun⟩

/-- What is made of the bytes does not matter. -/
theorem TakesBytes.map {m : StepM α} {src : Src} {n : ℕ} (h : TakesBytes m src n) (f : α → β) :
    TakesBytes (do return f (← m)) src n where
  long s hlen := by
    obtain ⟨x, hx⟩ := h.long s hlen
    exact ⟨f x, by simp [hx]⟩
  short s hlen := by
    obtain ⟨e, he⟩ := h.short s hlen
    exact ⟨e, by simp [he]⟩

theorem takesBytes_readNum {src : Src} {n : ℕ} : TakesBytes (readNum src n) src n :=
  takesBytes_readFixed.map _

theorem takesBytes_readString {src : Src} : TakesBytes (readString src) src 24 :=
  takesBytes_readFixed.map _

theorem takesBytes_readU8 {src : Src} : TakesBytes (readU8 src) src 1 := takesBytes_readNum
theorem takesBytes_readU16 {src : Src} : TakesBytes (readU16 src) src 2 := takesBytes_readNum
theorem takesBytes_readU32 {src : Src} : TakesBytes (readU32 src) src 4 := takesBytes_readNum
theorem takesBytes_readU64 {src : Src} : TakesBytes (readU64 src) src 8 := takesBytes_readNum
theorem takesBytes_readU256 {src : Src} : TakesBytes (readU256 src) src 32 := takesBytes_readNum
theorem takesBytes_readB256 {src : Src} : TakesBytes (readB256 src) src 32 := takesBytes_readFixed
theorem takesBytes_readAddress {src : Src} : TakesBytes (readAddress src) src 20 :=
  takesBytes_readFixed

/-! ## Records -/

/-- The bytes after the fields. -/
def leftover (n : ℕ) (rest : Bool) (b : Bytes) : Bytes :=
  if rest then [] else b.drop n

/-- A computation reads `a` bytes of the arguments and `o` of the results, and the rest if a field
takes it, and ends as `last` does then. With fewer bytes it is an error. -/
structure Reads (m : StepM α) (a : ℕ) (argsRest : Bool) (o : ℕ) (outsRest : Bool)
    (last : StepM Unit) : Prop where
  long : ∀ s : Step, a ≤ s.args.length → o ≤ s.outs.length → Prod.snd <$> m.run s =
    Prod.snd <$> last.run ⟨s.keys, leftover a argsRest s.args, leftover o outsRest s.outs⟩
  short : ∀ s : Step, s.args.length < a ∨ s.outs.length < o → ∃ e, m.run s = .err e

/-- What is read after the bytes of a record. -/
def nestedIf (nests : Bool) (nested : Option (Address → Outcome TraceError F)) : StepM Unit :=
  if nests then do
    let _ ← frame nested
    return ()
  else pure ()

namespace Reads

variable {m : StepM α} {f : α → StepM β} {n a o : ℕ} {argsRest outsRest : Bool}
  {last : StepM Unit}

theorem done {nested : Option (Address → Outcome TraceError F)} (x : α) :
    Reads (pure x) 0 false 0 false (nestedIf false nested) where
  long s _ _ := by simp [nestedIf, leftover]
  short s h := by omega

theorem leftover_drop {rest : Bool} {b : Bytes} :
    leftover a rest (b.drop n) = leftover (a + n) rest b := by
  unfold leftover
  rw [List.drop_drop, Nat.add_comm]

theorem args (hm : TakesBytes m .args n) (hf : ∀ x, Reads (f x) a argsRest o outsRest last) :
    Reads (m >>= f) (a + n) argsRest o outsRest last where
  long s ha ho := by
    have hn : n ≤ (s.bytes .args).length := (Nat.le_add_left n a).trans ha
    obtain ⟨x, hx⟩ := hm.long s hn
    have hlen : a ≤ (s.args.drop n).length := by
      rw [List.length_drop]
      omega
    have hrest := (hf x).long ⟨s.keys, s.args.drop n, s.outs⟩ hlen ho
    rw [StateT.run_bind, hx, Outcome.ok_bind, ← leftover_drop]
    exact hrest
  short s h := by
    rw [StateT.run_bind]
    rcases Nat.lt_or_ge (s.bytes .args).length n with hn | hn
    · obtain ⟨e, he⟩ := hm.short s hn
      exact ⟨e, by rw [he, Outcome.err_bind]⟩
    · obtain ⟨x, hx⟩ := hm.long s hn
      rw [hx, Outcome.ok_bind]
      refine (hf x).short ⟨s.keys, s.args.drop n, s.outs⟩ (h.imp_left fun h => ?_)
      have hn : n ≤ s.args.length := hn
      rw [List.length_drop]
      omega

theorem outs (hm : TakesBytes m .outs n) (hf : ∀ x, Reads (f x) a argsRest o outsRest last) :
    Reads (m >>= f) a argsRest (o + n) outsRest last where
  long s ha ho := by
    have hn : n ≤ (s.bytes .outs).length := (Nat.le_add_left n o).trans ho
    obtain ⟨x, hx⟩ := hm.long s hn
    have hlen : o ≤ (s.outs.drop n).length := by
      rw [List.length_drop]
      omega
    have hrest := (hf x).long ⟨s.keys, s.args, s.outs.drop n⟩ ha hlen
    rw [StateT.run_bind, hx, Outcome.ok_bind, ← leftover_drop]
    exact hrest
  short s h := by
    rw [StateT.run_bind]
    rcases Nat.lt_or_ge (s.bytes .outs).length n with hn | hn
    · obtain ⟨e, he⟩ := hm.short s hn
      exact ⟨e, by rw [he, Outcome.err_bind]⟩
    · obtain ⟨x, hx⟩ := hm.long s hn
      rw [hx, Outcome.ok_bind]
      refine (hf x).short ⟨s.keys, s.args, s.outs.drop n⟩ (h.imp_right fun h => ?_)
      have hn : n ≤ s.outs.length := hn
      rw [List.length_drop]
      omega

theorem dataArgs {f : Bytes → StepM β} (hf : ∀ x, Reads (f x) 0 false o outsRest last) :
    Reads (readData .args >>= f) 0 true o outsRest last where
  long s _ ho := (hf s.args).long ⟨s.keys, [], s.outs⟩ (Nat.zero_le _) ho
  short s h := (hf s.args).short ⟨s.keys, [], s.outs⟩ (h.imp_left fun h => absurd h (by omega))

theorem dataOuts {f : Bytes → StepM β} (hf : ∀ x, Reads (f x) a argsRest 0 false last) :
    Reads (readData .outs >>= f) a argsRest 0 true last where
  long s ha _ := (hf s.outs).long ⟨s.keys, s.args, []⟩ ha (Nat.zero_le _)
  short s h := (hf s.outs).short ⟨s.keys, s.args, []⟩ (h.imp_right fun h => absurd h (by omega))

/-- A frame is nested last. -/
theorem nested {nested : Option (Address → Outcome TraceError F)} (f : F → α) :
    Reads (do return f (← frame nested)) 0 false 0 false (nestedIf true nested) where
  long s _ _ := by simp [nestedIf, leftover]
  short s h := by omega

end Reads

/-- A record of known layout is read by its layout. -/
theorem parseKind_reads {name : String} {l : Layout} (h : layout? name = some l)
    (nested : Option (Address → Outcome TraceError F)) :
    Reads (parseKind name nested) l.args l.argsRest l.outs l.outsRest
      (nestedIf l.nests nested) := by
  unfold parseKind
  split
  case h_47 =>
    unfold layout? at h
    split at h
    case h_47 =>
      split_ifs at h ⊢ with hevm
      obtain rfl := Option.some.inj h
      exact .nested _
    all_goals contradiction
  all_goals
    obtain rfl := Option.some.inj h
    dsimp only
    with_reducible repeat
      first
      | exact .done _
      | exact .nested _
      | refine .dataArgs fun _ => ?_
      | refine .dataOuts fun _ => ?_
      | refine .args takesBytes_readU8 fun _ => ?_
      | refine .args takesBytes_readU16 fun _ => ?_
      | refine .args takesBytes_readU32 fun _ => ?_
      | refine .args takesBytes_readU64 fun _ => ?_
      | refine .args takesBytes_readU256 fun _ => ?_
      | refine .args takesBytes_readB256 fun _ => ?_
      | refine .args takesBytes_readAddress fun _ => ?_
      | refine .args takesBytes_readString fun _ => ?_
      | refine .outs takesBytes_readU8 fun _ => ?_
      | refine .outs takesBytes_readU32 fun _ => ?_
      | refine .outs takesBytes_readU64 fun _ => ?_
      | refine .outs takesBytes_readU256 fun _ => ?_
      | refine .outs takesBytes_readB256 fun _ => ?_
      | refine .outs takesBytes_readAddress fun _ => ?_

/-- A record of unknown layout is not read. -/
theorem parseKind_unknown {name : String} (h : layout? name = none)
    (nested : Option (Address → Outcome TraceError F)) (s : Step) :
    ∃ m, (parseKind name nested).run s = .panic m := by
  unfold layout? at h
  split at h
  case h_47 =>
    split_ifs at h with hevm
    unfold parseKind
    split
    case h_47 =>
      rw [if_neg hevm]
      exact ⟨_, rfl⟩
    all_goals contradiction
  all_goals cases h

end

end CargoStylus
