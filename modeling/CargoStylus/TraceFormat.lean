import CargoStylus.ParseFrame
import Mathlib.Data.List.Forall2

/-!
# The trace format

What a trace has to hold for `parseFrame` to read a given frame from it. The fields of a
host I/O are laid out as bytes (`HostioKind.args`, `HostioKind.outs`), and reading a record
to its end gives a kind exactly when the record's bytes are that kind's
(`parseKind_of_readFrom`, `readFrom_of_parseKind`). A step is then read exactly from an
object that holds a record of its kind (`parseStep_eq_ok`), and a frame from an array of
such objects (`parseFrame_eq_ok`).

Three kinds have more than one record : `ReadFrom` says which. The text of a console log
is read with replacement, any word but zero says that a call is reentrant, and an EVM frame
has a name of its own.
-/

namespace CargoStylus

open Rust Json

variable {F : Type}

/-! ## Host I/Os as bytes -/

namespace HostioKind

/-- The name of a record : an EVM frame has its own, a host I/O the one of its kind. -/
def recordName : HostioKind F → String
  | evmCall name _ => name
  | kind => kind.name

/-- The arguments, in the order the host I/O lists them. -/
def args : HostioKind F → Bytes
  | userEntrypoint argsLen => be 4 argsLen
  | writeResult result => result
  | exitEarly status => be 4 status
  | storageLoadBytes32 key _ => key.1
  | storageCacheBytes32 key value => key.1 ++ value.1
  | storageFlushCache clear => be 1 clear
  | transientLoadBytes32 key _ => key.1
  | transientStoreBytes32 key value => key.1 ++ value.1
  | accountBalance address _ => address.1
  | accountCode address offset size _ => address.1 ++ be 4 offset ++ be 4 size
  | accountCodeSize address _ => address.1
  | accountCodehash address _ => address.1
  | payForMemoryGrow pages => be 2 pages
  | mathDiv a b _ => be 32 a ++ be 32 b
  | mathMod a b _ => be 32 a ++ be 32 b
  | mathPow a b _ => be 32 a ++ be 32 b
  | mathAddMod a b c _ => be 32 a ++ be 32 b ++ be 32 c
  | mathMulMod a b c _ => be 32 a ++ be 32 b ++ be 32 c
  | nativeKeccak256 preimage _ => preimage
  | consoleLog text => utf8 text.toList
  | consoleLogText text => text
  | callContract address data gas value _ _ _ => address.1 ++ be 8 gas ++ be 32 value ++ data
  | delegateCallContract address data gas _ _ _ => address.1 ++ be 8 gas ++ data
  | staticCallContract address data gas _ _ _ => address.1 ++ be 8 gas ++ data
  | create1 code endowment _ _ => be 32 endowment ++ code
  | create2 code endowment salt _ _ => be 32 endowment ++ salt.1 ++ code
  | emitLog data topics => be 4 topics ++ data
  | readReturnData offset size _ => be 4 offset ++ be 4 size
  | _ => []

/-- The results, in the order the host I/O lists them. -/
def outs : HostioKind F → Bytes
  | userReturned status => be 4 status
  | readArgs args => args
  | storageLoadBytes32 _ value => value.1
  | transientLoadBytes32 _ value => value.1
  | accountBalance _ balance => be 32 balance
  | accountCode _ _ _ code => code
  | accountCodeSize _ size => be 4 size
  | accountCodehash _ codehash => codehash.1
  | blockBasefee basefee => be 32 basefee
  | blockCoinbase coinbase => coinbase.1
  | blockGasLimit limit => be 8 limit
  | blockNumber number => be 8 number
  | blockTimestamp timestamp => be 8 timestamp
  | chainid id => be 8 id
  | contractAddress address => address.1
  | evmGasLeft gasLeft => be 8 gasLeft
  | evmInkLeft inkLeft => be 8 inkLeft
  | mathDiv _ _ result => be 32 result
  | mathMod _ _ result => be 32 result
  | mathPow _ _ result => be 32 result
  | mathAddMod _ _ _ result => be 32 result
  | mathMulMod _ _ _ result => be 32 result
  | msgReentrant reentrant => be 4 (if reentrant then 1 else 0)
  | msgSender sender => sender.1
  | msgValue value => value.1
  | nativeKeccak256 _ digest => digest.1
  | txGasPrice gasPrice => be 32 gasPrice
  | txInkPrice inkPrice => be 4 inkPrice
  | txOrigin origin => origin.1
  | callContract _ _ _ _ outsLen status _ => be 4 outsLen ++ be 1 status
  | delegateCallContract _ _ _ outsLen status _ => be 4 outsLen ++ be 1 status
  | staticCallContract _ _ _ outsLen status _ => be 4 outsLen ++ be 1 status
  | create1 _ _ address revertDataLen => address.1 ++ be 4 revertDataLen
  | create2 _ _ _ address revertDataLen => address.1 ++ be 4 revertDataLen
  | readReturnData _ _ data => data
  | returnDataSize size => be 4 size
  | _ => []

/-- The kinds that have one record, under the name of the kind. -/
def isPlain : HostioKind F → Bool
  | consoleLog _ => false
  | msgReentrant _ => false
  | evmCall .. => false
  | _ => true

/-- The names an EVM frame can have. -/
def NameOk : HostioKind F → Prop
  | evmCall name _ =>
    evmPrefix.isPrefixOf name.toList ∧ name ≠ "evm_gas_left" ∧ name ≠ "evm_ink_left"
  | _ => True

/-- The argument bytes that read as the fields of the kind. -/
def ArgsFrom (args : Bytes) : HostioKind F → Prop
  | consoleLog text =>
    args.length = sizeOfString ∧ text = String.ofList (fromUtf8Lossy args)
  | kind => args = kind.args

/-- The result bytes that read as the fields of the kind. -/
def OutsFrom (outs : Bytes) : HostioKind F → Prop
  | msgReentrant reentrant => ∃ w : U32, outs = be 4 w ∧ reentrant = (w != 0)
  | kind => outs = kind.outs

/-- The records that read as `kind`. -/
structure ReadFrom (kind : HostioKind F) (name : String) (args outs : Bytes) : Prop where
  name : name = kind.recordName
  nameOk : kind.NameOk
  args : kind.ArgsFrom args
  outs : kind.OutsFrom outs

theorem recordName_plain {kind : HostioKind F} (h : kind.isPlain = true) :
    kind.recordName = kind.name := by
  unfold recordName
  split
  · cases h
  · rfl

theorem argsFrom_plain {kind : HostioKind F} {args : Bytes} (h : kind.isPlain = true) :
    kind.ArgsFrom args ↔ args = kind.args := by
  unfold ArgsFrom
  split
  · cases h
  · rfl

theorem outsFrom_plain {kind : HostioKind F} {outs : Bytes} (h : kind.isPlain = true) :
    kind.OutsFrom outs ↔ outs = kind.outs := by
  unfold OutsFrom
  split
  · cases h
  · rfl

/-- The nested frame is not part of the record. -/
theorem ReadFrom.map {G : Type} (g : F → G) {kind : HostioKind F} {name : String}
    {args outs : Bytes} (h : kind.ReadFrom name args outs) :
    (kind.map g).ReadFrom name args outs := by
  obtain ⟨hname, hnameOk, hargs, houts⟩ := h
  cases kind <;> exact ⟨hname, hnameOk, hargs, houts⟩

end HostioKind

open HostioKind

/-! ## Reading a record -/

section Kinds

variable {nested : Option (Address → Outcome TraceError F)} {keys : Fields}

theorem parseKind_msgReentrant (w : U32) :
    (parseKind "msg_reentrant" nested).run ⟨keys, [], be 4 w⟩ =
      .ok (.msgReentrant (w != 0), ⟨keys, [], []⟩) := by
  unfold parseKind
  simp only [StateT.run_bind, Outcome.bind_eq_ok, readU32_run, Prod.exists]
  exact ⟨w, ⟨keys, [], []⟩, by simp, rfl⟩

theorem parseKind_consoleLog (b : FixedBytes sizeOfString) :
    (parseKind "console_log" nested).run ⟨keys, b.1, []⟩ =
      .ok (.consoleLog (String.ofList (fromUtf8Lossy b.1)), ⟨keys, [], []⟩) := by
  unfold parseKind
  simp only [StateT.run_bind, Outcome.bind_eq_ok, readString_run, Prod.exists]
  exact ⟨_, ⟨keys, [], []⟩, ⟨b, by simp, rfl⟩, rfl⟩

/-- No host I/O but two has a name with the prefix of an EVM frame. -/
theorem parseKind_evmCall {name : String} {f : F} (hname : NameOk (evmCall name f))
    (hframe : NestedFrame keys nested f) :
    (parseKind name nested).run ⟨keys, [], []⟩ =
      .ok (.evmCall name f, ⟨keys.erase "address", [], []⟩) := by
  obtain ⟨hevm, hgas, hink⟩ := hname
  unfold parseKind
  split
  case h_47 =>
    rw [if_pos hevm]
    simp only [StateT.run_bind, Outcome.bind_eq_ok, Prod.exists, frame_run]
    exact ⟨f, _, ⟨hframe, rfl⟩, rfl⟩
  case h_22 => exact absurd rfl hgas
  case h_23 => exact absurd rfl hink
  all_goals exact absurd hevm (by decide)

theorem parseKind_plain {kind : HostioKind F} (hplain : kind.isPlain = true)
    (hframe : ∀ f, kind.frame? = some f → NestedFrame keys nested f) :
    ∃ keys', (parseKind kind.name nested).run ⟨keys, kind.args, kind.outs⟩ =
      .ok (kind, ⟨keys', [], []⟩) := by
  cases kind
  case evmCall => cases hplain
  case msgReentrant => cases hplain
  case consoleLog => cases hplain
  all_goals
    unfold HostioKind.name parseKind
    simp [-Subtype.exists, Outcome.bind_eq_ok, Outcome.map_eq_ok, readU8_run, readU16_run,
      readU32_run, readU64_run, readU256_run, readB256_run, readAddress_run, readData_run,
      frame_run, HostioKind.args, HostioKind.outs, Step.bytes]
  -- the calls also read a frame, from the entries that are left
  all_goals exact ⟨⟨keys, [], []⟩, ⟨rfl, rfl, rfl⟩, rfl, hframe _ rfl, rfl, rfl⟩

/-- A record that reads as `kind` is read as `kind`, once its nested frame is. -/
theorem parseKind_of_readFrom (nested : Option (Address → Outcome TraceError F)) (keys : Fields)
    {kind : HostioKind F} {name : String} {args outs : Bytes} (h : kind.ReadFrom name args outs)
    (hframe : ∀ f, kind.frame? = some f → NestedFrame keys nested f) :
    ∃ keys', (parseKind name nested).run ⟨keys, args, outs⟩ = .ok (kind, ⟨keys', [], []⟩) := by
  cases hplain : kind.isPlain with
  | true =>
    obtain ⟨rfl, -, hargs, houts⟩ := h
    rw [argsFrom_plain hplain] at hargs
    rw [outsFrom_plain hplain] at houts
    rw [recordName_plain hplain, hargs, houts]
    exact parseKind_plain hplain hframe
  | false =>
    obtain ⟨rfl, hname, hargs, houts⟩ := h
    unfold isPlain at hplain
    split at hplain
    · obtain ⟨hlen, rfl⟩ := hargs
      obtain rfl : outs = [] := houts
      exact ⟨keys, parseKind_consoleLog ⟨args, hlen⟩⟩
    · obtain ⟨w, rfl, rfl⟩ := houts
      obtain rfl : args = [] := hargs
      exact ⟨keys, parseKind_msgReentrant w⟩
    · obtain rfl : args = [] := hargs
      obtain rfl : outs = [] := houts
      exact ⟨_, parseKind_evmCall hname (hframe _ rfl)⟩
    · cases hplain

/-- A step that is read to its end as `kind` holds a record that reads as `kind`. -/
theorem readFrom_of_parseKind {name : String} {s s' : Step} {kind : HostioKind F}
    (h : (parseKind name nested).run s = .ok (kind, s')) (hargs : s'.args = [])
    (houts : s'.outs = []) :
    kind.ReadFrom name s.args s.outs ∧
      ∀ f, kind.frame? = some f → NestedFrame s.keys nested f := by
  unfold parseKind at h
  split at h
  case h_47 =>
    split at h
    case isFalse => simp at h
    case isTrue hevm =>
      simp only [StateT.run_bind, Outcome.bind_eq_ok, Prod.exists, frame_run, StateT.run_pure,
        Outcome.pure_eq, Outcome.ok.injEq, Prod.mk.injEq] at h
      obtain ⟨f, _, ⟨hf, rfl⟩, rfl, rfl⟩ := h
      refine ⟨⟨rfl, ⟨hevm, ?_, ?_⟩, hargs, houts⟩, fun f' hf' => ?_⟩
      · assumption
      · assumption
      · obtain rfl := Option.some.inj hf'
        exact hf
  all_goals
    simp only [StateT.run_bind, Outcome.bind_eq_ok, Prod.exists, readU8_run, readU16_run,
      readU32_run, readU64_run, readU256_run, readB256_run, readAddress_run, readString_run,
      readData_run, frame_run, StateT.run_pure, Outcome.pure_eq, Outcome.ok.injEq,
      Prod.mk.injEq] at h
    casesm* ∃ _, _, _ ∧ _
    subst_vars
    refine ⟨⟨rfl, trivial, ?_, ?_⟩, ?_⟩
    all_goals simp_all [ArgsFrom, OutsFrom, HostioKind.args, HostioKind.outs, frame?, Step.bytes]
  case h_29 => exact ⟨_, rfl, rfl⟩
  case h_46 => exact (‹FixedBytes sizeOfString› : { b : Bytes // b.length = sizeOfString }).2

end Kinds

/-! ## Reading a step and a frame -/

/-- The entries of a step hold a record with this name, these bytes and this ink. -/
structure Recorded (keys : Fields) (name : String) (args outs : Bytes) (startInk endInk : U64) :
    Prop where
  name : keys.get? "name" = some (.string name)
  args : ∃ t, keys.get? "args" = some (.string t) ∧ ofHex t = some args
  outs : ∃ t, keys.get? "outs" = some (.string t) ∧ ofHex t = some outs
  startInk : keys.get? "startInk" = some (.number (.posInt startInk))
  endInk : keys.get? "endInk" = some (.number (.posInt endInk))

/-- Taking other entries out leaves the nested frame. -/
theorem nestedFrame_erase {nested : Option (Address → Outcome TraceError F)} {keys : Fields}
    {f : F} {k : String} (hk : "address" ≠ k) :
    NestedFrame (keys.erase k) nested f ↔ NestedFrame keys nested f := by
  simp only [NestedFrame, Fields.get?_erase_ne keys hk]

/-- A step is read exactly from the entries that hold its record and its nested frame. -/
theorem parseStepKeys_isOk {nested : Option (Address → Outcome TraceError F)} {keys : Fields}
    {h : Hostio F} :
    (∃ s', (parseStepKeys nested).run ⟨keys, [], []⟩ = .ok (h, s')) ↔
      ∃ name args outs, Recorded keys name args outs h.startInk h.endInk ∧
        h.kind.ReadFrom name args outs ∧
        ∀ f, h.kind.frame? = some f → NestedFrame keys nested f := by
  obtain ⟨kind, startInk, endInk⟩ := h
  simp only [parseStepKeys, StateT.run_bind, Outcome.bind_eq_ok, Prod.exists, getTyped_run,
    asString_eq_some, getHex_run, getInt_run, liftOutcome_run, Outcome.assert_eq_ok,
    StateT.run_modify, StateT.run_get, StateT.run_pure, Outcome.pure_eq, Outcome.ok.injEq,
    Prod.mk.injEq, Hostio.mk.injEq]
  refine ⟨fun h => ?_, fun h => ?_⟩
  · obtain ⟨s', name, _, ⟨_, hname, rfl, rfl⟩, args, _, ⟨t, ht, hargs, rfl⟩, outs, _,
      ⟨u, hu, houts, rfl⟩, _, _, ⟨hstart, rfl⟩, _, _, ⟨hend, rfl⟩, _, _, ⟨-, rfl⟩, _, s, hkind,
      _, _, ⟨rfl, rfl⟩, _, _, ⟨hsargs, rfl⟩, _, _, ⟨hsouts, rfl⟩, ⟨rfl, rfl, rfl⟩, rfl⟩ := h
    obtain ⟨hread, hframe⟩ := readFrom_of_parseKind hkind hsargs hsouts
    simp only [ne_eq, String.reduceEq, not_false_eq_true, Fields.get?_erase_ne,
      nestedFrame_erase] at ht hu hstart hend hframe
    exact ⟨name, args, outs, ⟨hname, ⟨t, ht, hargs⟩, ⟨u, hu, houts⟩, hstart, hend⟩, hread, hframe⟩
  · obtain ⟨name, args, outs, hrecorded, hread, hframe⟩ := h
    obtain ⟨hname, ⟨t, ht, hargs⟩, ⟨u, hu, houts⟩, hstart, hend⟩ := hrecorded
    obtain ⟨keys', hkind⟩ := parseKind_of_readFrom nested
      (((((keys.erase "name").erase "args").erase "outs").erase "startInk").erase "endInk") hread
      (by simpa [nestedFrame_erase] using hframe)
    refine ⟨_, name, _, ⟨_, hname, rfl, rfl⟩, args, _, ⟨t, ?_, hargs, rfl⟩, outs, _,
      ⟨u, ?_, houts, rfl⟩, _, _, ⟨?_, rfl⟩, _, _, ⟨?_, rfl⟩, (), _, ⟨trivial, rfl⟩, _, _, hkind,
      _, _, ⟨rfl, rfl⟩, (), _, ⟨rfl, rfl⟩, (), _, ⟨rfl, rfl⟩, ⟨rfl, rfl, rfl⟩, rfl⟩
    all_goals simpa [Fields.get?_erase_ne]

theorem parseNested_eq (keys : Fields) : parseNested keys =
    (keys.get? "steps").map fun v address => parseFrame v (some address) := by
  induction keys with
  | nil => rfl
  | cons e keys ih =>
    obtain ⟨k, v⟩ := e
    rw [parseNested, Fields.get?_cons, ih]
    by_cases h : k = "steps"
    · rw [if_pos h, if_pos h.symm, Option.map_some]
    · rw [if_neg h, if_neg (Ne.symm h)]

/-- The entries of a step nest the frame `f` : it is the frame under `steps`, at the
address of the step. -/
def Nests (keys : Fields) (f : TraceFrame) : Prop :=
  ∃ t address v, keys.get? "address" = some (.string t) ∧ ofHex t = some address.1 ∧
    keys.get? "steps" = some v ∧ parseFrame v (some address) = .ok f

theorem nestedFrame_parseNested {keys : Fields} {f : TraceFrame} :
    NestedFrame keys (parseNested keys) f ↔ Nests keys f := by
  simp only [NestedFrame, Nests, parseNested_eq, Option.map_eq_some_iff]
  refine ⟨fun h => ?_, fun h => ?_⟩
  · obtain ⟨t, address, g, ht, haddress, ⟨v, hv, rfl⟩, hf⟩ := h
    exact ⟨t, address, v, ht, haddress, hv, hf⟩
  · obtain ⟨t, address, v, ht, haddress, hv, hf⟩ := h
    exact ⟨t, address, _, ht, haddress, ⟨v, hv, rfl⟩, hf⟩

/-- The entries of a step hold the record of `h` and its nested frame. -/
def Holds (keys : Fields) (h : Hostio TraceFrame) : Prop :=
  ∃ name args outs, Recorded keys name args outs h.startInk h.endInk ∧
    h.kind.ReadFrom name args outs ∧ ∀ f, h.kind.frame? = some f → Nests keys f

/-- A step is read as `h` exactly when it is an object whose entries hold `h`. -/
theorem parseStep_eq_ok {v : Value} {h : Hostio TraceFrame} :
    parseStep v = .ok h ↔ ∃ keys, v = .object keys ∧ Holds keys h := by
  cases v
  case object keys =>
    have hkeys := @parseStepKeys_isOk TraceFrame (parseNested keys) keys h
    simp only [nestedFrame_parseNested] at hkeys
    rw [parseStep, Outcome.bind_eq_ok]
    simp only [Prod.exists, Outcome.pure_eq, Outcome.ok.injEq, Value.object.injEq,
      exists_eq_left', Holds, ← hkeys]
    refine ⟨fun h => ?_, fun h => ?_⟩
    · obtain ⟨_, s', hs', rfl⟩ := h
      exact ⟨s', hs'⟩
    · obtain ⟨s', hs'⟩ := h
      exact ⟨_, s', hs', rfl⟩
  all_goals simp [parseStep]

theorem parseSteps_eq_ok {vs : List Value} {hs : List (Hostio TraceFrame)} :
    parseSteps vs = .ok hs ↔ List.Forall₂ (fun v h => parseStep v = .ok h) vs hs := by
  induction vs generalizing hs with
  | nil => simp [parseSteps, eq_comm]
  | cons v vs ih =>
    simp only [parseSteps, Outcome.bind_eq_ok, ih, Outcome.pure_eq, Outcome.ok.injEq,
      List.forall₂_cons_left_iff]
    refine ⟨fun h => ?_, fun h => ?_⟩
    · obtain ⟨h, hh, hs', hhs', rfl⟩ := h
      exact ⟨h, hs', hh, hhs', rfl⟩
    · obtain ⟨h, hs', hh, hhs', rfl⟩ := h
      exact ⟨h, hh, hs', hhs', rfl⟩

/-- A frame is read exactly from an array whose values are read as its steps. -/
theorem parseFrame_eq_ok {v : Value} {address : Option Address} {f : TraceFrame} :
    parseFrame v address = .ok f ↔ ∃ vs, v = .array vs ∧ f.address = address ∧
      List.Forall₂ (fun v h => parseStep v = .ok h) vs f.steps := by
  obtain ⟨steps, address'⟩ := f
  cases v
  case array vs =>
    simp only [parseFrame, Outcome.bind_eq_ok, parseSteps_eq_ok, Outcome.pure_eq,
      Outcome.ok.injEq, TraceFrame.mk.injEq, Value.array.injEq, TraceFrame.address_mk,
      TraceFrame.steps_mk, exists_eq_left']
    refine ⟨fun h => ?_, fun h => ?_⟩
    · obtain ⟨_, hsteps, rfl, rfl⟩ := h
      exact ⟨rfl, hsteps⟩
    · obtain ⟨rfl, hsteps⟩ := h
      exact ⟨_, hsteps, rfl, rfl⟩
  all_goals simp [parseFrame]

end CargoStylus
