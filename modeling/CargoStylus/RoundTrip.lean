import CargoStylus.TraceFormat

/-!
# The trace format round trip

`encode` writes a frame as a tracer does : one object for each host I/O, with its record and,
for a call, the address and the steps of the nested frame. `parseFrame` reads a frame back
from its encoding (`parseFrame_encode`), and what it reads a frame from agrees with the
frame's encoding (`sameFrame_encode`) : the two differ in the case of hex digits, in keys
that are not read and in the word that says a call is reentrant.
-/

namespace CargoStylus

open Rust Json

/-! ## Encoding -/

/-- Text for the bytes `b`. -/
def hexValue (b : Bytes) : Value :=
  .string (toHex b)

/-- The entries that every step has. -/
def recordFields (kind : HostioKind TraceFrame) (startInk endInk : U64) : Fields :=
  [("name", .string kind.recordName), ("args", hexValue kind.args), ("outs", hexValue kind.outs),
    ("startInk", .number (.posInt startInk)), ("endInk", .number (.posInt endInk))]

/-- The entry for the address of a nested frame. -/
def addressFields : Option Address → Fields
  | some address => [("address", hexValue address.1)]
  | none => []

mutual

/-- A frame as a tracer writes it. -/
def encode : TraceFrame → Value
  | .mk steps _ => .array (encodeSteps steps)
termination_by structural f => f

/-- The records of a frame. -/
def encodeSteps : List (Hostio TraceFrame) → List Value
  | [] => []
  | h :: hs => encodeStep h :: encodeSteps hs
termination_by structural hs => hs

/-- One record, with what is nested in it. -/
def encodeStep : Hostio TraceFrame → Value
  | ⟨kind, startInk, endInk⟩ => .object (recordFields kind startInk endInk ++ encodeNested kind)
termination_by structural h => h

/-- The entries for the frame nested in a step. -/
def encodeNested : HostioKind TraceFrame → Fields
  | .callContract _ _ _ _ _ _ frame => addressFields frame.address ++ [("steps", encode frame)]
  | .delegateCallContract _ _ _ _ _ frame =>
    addressFields frame.address ++ [("steps", encode frame)]
  | .staticCallContract _ _ _ _ _ frame => addressFields frame.address ++ [("steps", encode frame)]
  | .evmCall _ frame => addressFields frame.address ++ [("steps", encode frame)]
  | _ => []
termination_by structural kind => kind

end

theorem encodeSteps_eq_map : ∀ hs, encodeSteps hs = hs.map encodeStep
  | [] => by rw [encodeSteps, List.map_nil]
  | h :: hs => by rw [encodeSteps, List.map_cons, encodeSteps_eq_map hs]

theorem encodeNested_eq (kind : HostioKind TraceFrame) : encodeNested kind =
    match kind.frame? with
    | some f => addressFields f.address ++ [("steps", encode f)]
    | none => [] := by
  cases kind <;> rfl

/-! ## Frames that can be written -/

namespace TraceFrame

/-- `P` holds of every kind in the frame, at any depth. -/
inductive All (P : HostioKind TraceFrame → Prop) : TraceFrame → Prop where
  | mk {steps : List (Hostio TraceFrame)} {address : Option Address}
      (kinds : ∀ h ∈ steps, P h.kind)
      (nested : ∀ h ∈ steps, ∀ f, h.kind.frame? = some f → All P f) :
      All P (TraceFrame.mk steps address)

theorem All.kinds {P : HostioKind TraceFrame → Prop} {steps : List (Hostio TraceFrame)}
    {address : Option Address} (h : All P (TraceFrame.mk steps address)) :
    ∀ s ∈ steps, P s.kind := by
  cases h
  assumption

theorem All.nested {P : HostioKind TraceFrame → Prop} {steps : List (Hostio TraceFrame)}
    {address : Option Address} (h : All P (TraceFrame.mk steps address)) :
    ∀ s ∈ steps, ∀ f, s.kind.frame? = some f → All P f := by
  cases h
  assumption

theorem All.nil {P : HostioKind TraceFrame → Prop} {address : Option Address} :
    All P (TraceFrame.mk [] address) :=
  .mk (fun _ hmem => absurd hmem List.not_mem_nil) fun _ hmem => absurd hmem List.not_mem_nil

theorem All.cons {P : HostioKind TraceFrame → Prop} {h : Hostio TraceFrame}
    {steps : List (Hostio TraceFrame)} {address : Option Address} (kind : P h.kind)
    (nested : ∀ f, h.kind.frame? = some f → All P f) (rest : All P (TraceFrame.mk steps address)) :
    All P (TraceFrame.mk (h :: steps) address) :=
  .mk (List.forall_mem_cons.2 ⟨kind, rest.kinds⟩) (List.forall_mem_cons.2 ⟨nested, rest.nested⟩)

/-- No step of the frame, at any depth, is a console log. -/
def NoConsoleLog : TraceFrame → Prop :=
  All fun kind => ∀ text, kind ≠ .consoleLog text

/-- No step is a console log, EVM frames have names of their own and nested frames have
addresses. -/
def Encodable : TraceFrame → Prop :=
  All fun kind => (∀ text, kind ≠ .consoleLog text) ∧ kind.NameOk ∧
    ∀ f, kind.frame? = some f → f.address.isSome

end TraceFrame

open HostioKind

theorem argsFrom_args {kind : HostioKind TraceFrame} (h : ∀ text, kind ≠ .consoleLog text) :
    kind.ArgsFrom kind.args := by
  unfold ArgsFrom
  split
  · exact absurd rfl (h _)
  · rfl

theorem outsFrom_outs (kind : HostioKind TraceFrame) : kind.OutsFrom kind.outs := by
  unfold OutsFrom
  split
  · rename_i reentrant
    cases reentrant
    · exact ⟨0, rfl, rfl⟩
    · exact ⟨1, rfl, rfl⟩
  · rfl

/-- Reading the encoding of a frame gives the frame. -/
theorem parseFrame_encode (f : TraceFrame) (hf : f.Encodable) :
    parseFrame (encode f) f.address = .ok f := by
  induction f using TraceFrame.induct with
  | step steps address ih =>
    refine parseFrame_eq_ok.mpr ⟨_, encode.eq_1 .., rfl, ?_⟩
    rw [encodeSteps_eq_map, List.forall₂_map_left_iff, TraceFrame.steps_mk, List.forall₂_same]
    intro h hmem
    obtain ⟨hlog, hname, haddress⟩ := hf.kinds h hmem
    refine parseStep_eq_ok.mpr ⟨_, encodeStep.eq_1 .., h.kind.recordName, h.kind.args,
      h.kind.outs, ⟨rfl, ⟨_, rfl, ofHex_toHex _⟩, ⟨_, rfl, ofHex_toHex _⟩, rfl, rfl⟩,
      ⟨rfl, hname, argsFrom_args hlog, outsFrom_outs _⟩, fun f hframe => ?_⟩
    obtain ⟨a, ha⟩ := Option.isSome_iff_exists.mp (haddress f hframe)
    have hparse := ih h hmem f hframe (hf.nested h hmem f hframe)
    rw [ha] at hparse
    rw [encodeNested_eq, hframe]
    exact ⟨toHex a.1, a, encode f, by simp [recordFields, addressFields, ha, hexValue],
      ofHex_toHex _, by simp [recordFields, addressFields, ha], hparse⟩

/-! ## Records that agree -/

/-- The same text, up to the case of letters. -/
def SameText (s t : String) : Prop :=
  s.toList.map Char.toLower = t.toList.map Char.toLower

/-- The results of a reentrancy check that say the same : they are words, and both are
zero or neither is. -/
def SameReentrant (s t : String) : Prop :=
  ∃ v w : U32, ofHex s = some (be 4 v) ∧ ofHex t = some (be 4 w) ∧ (v = 0 ↔ w = 0)

/-- Two objects hold the same record. -/
structure SameRecord (keys keys' : Fields) : Prop where
  name : ∃ s, keys.get? "name" = some (.string s) ∧ keys'.get? "name" = some (.string s)
  args : ∃ s t, keys.get? "args" = some (.string s) ∧ keys'.get? "args" = some (.string t) ∧
    SameText s t
  outs : ∃ s t, keys.get? "outs" = some (.string s) ∧ keys'.get? "outs" = some (.string t) ∧
    (SameText s t ∨ keys.get? "name" = some (.string "msg_reentrant") ∧ SameReentrant s t)
  startInk : ∃ n, keys.get? "startInk" = some (.number (.posInt n)) ∧
    keys'.get? "startInk" = some (.number (.posInt n))
  endInk : ∃ n, keys.get? "endInk" = some (.number (.posInt n)) ∧
    keys'.get? "endInk" = some (.number (.posInt n))

mutual

/-- The first trace gives back the second : the steps are the same, at every depth. -/
inductive SameFrame : Value → Value → Prop where
  | array {vs ws : List Value} (steps : SameSteps vs ws) : SameFrame (.array vs) (.array ws)

/-- The steps are the same, one by one. -/
inductive SameSteps : List Value → List Value → Prop where
  | nil : SameSteps [] []
  | cons {v w : Value} {vs ws : List Value} (step : SameStep v w) (steps : SameSteps vs ws) :
      SameSteps (v :: vs) (w :: ws)

/-- Entries of the first step that the second does not have are not compared. -/
inductive SameStep : Value → Value → Prop where
  | leaf {keys keys' : Fields} (record : SameRecord keys keys')
      (steps : keys'.get? "steps" = none) : SameStep (.object keys) (.object keys')
  | nest {keys keys' : Fields} {v w : Value} {s t : String} (record : SameRecord keys keys')
      (address : keys.get? "address" = some (.string s))
      (address' : keys'.get? "address" = some (.string t)) (sameAddress : SameText s t)
      (steps : keys.get? "steps" = some v) (steps' : keys'.get? "steps" = some w)
      (sameSteps : SameFrame v w) : SameStep (.object keys) (.object keys')

end

theorem sameText_toHex {s : String} {b : Bytes} (h : ofHex s = some b) :
    SameText s (toHex b) := by
  unfold ofHex at h
  obtain ⟨cs, hcs, hb⟩ := Option.bind_eq_some_iff.mp h
  have hs : s.toList = '0' :: 'x' :: cs := by
    obtain ⟨k, hk, hbeq⟩ := List.dropPrefix?_eq_some_iff.mp hcs
    rw [hk, eq_of_beq hbeq]
    rfl
  have hlower := map_toLower_of_hexDecode hb
  have hdigits := map_toLower_of_hexDecode (hexDecode_hexEncode b)
  rw [SameText, hs, toHex, String.toList_ofList]
  simp only [List.map_cons, hlower, hdigits]

theorem sameSteps_encodeSteps {vs : List Value} {hs : List (Hostio TraceFrame)}
    (h : List.Forall₂ (fun v s => parseStep v = .ok s) vs hs)
    (hstep : ∀ s ∈ hs, ∀ v, parseStep v = .ok s → SameStep v (encodeStep s)) :
    SameSteps vs (encodeSteps hs) := by
  induction h with
  | nil => exact .nil
  | cons hparse _ ih =>
    exact .cons (hstep _ (by simp) _ hparse) (ih fun s hs => hstep s (by simp [hs]))

/-- The record read as a kind is the one written for it. -/
theorem sameRecord_of_recorded {keys : Fields} {kind : HostioKind TraceFrame} {name : String}
    {args outs : Bytes} {startInk endInk : U64} (rest : Fields)
    (hkeys : Recorded keys name args outs startInk endInk)
    (hread : kind.ReadFrom name args outs) (hlog : ∀ text, kind ≠ .consoleLog text) :
    SameRecord keys (recordFields kind startInk endInk ++ rest) := by
  obtain ⟨hname, ⟨s, hs, hargs⟩, ⟨t, ht, houts⟩, hstart, hend⟩ := hkeys
  obtain ⟨rfl, -, hargsFrom, houtsFrom⟩ := hread
  refine ⟨⟨_, hname, rfl⟩, ⟨_, _, hs, rfl, sameText_toHex ?_⟩, ⟨_, _, ht, rfl, ?_⟩,
    ⟨_, hstart, rfl⟩, ⟨_, hend, rfl⟩⟩
  · rw [hargs, Option.some.injEq]
    unfold ArgsFrom at hargsFrom
    split at hargsFrom
    · exact absurd rfl (hlog _)
    · exact hargsFrom
  · unfold OutsFrom at houtsFrom
    split at houtsFrom
    · obtain ⟨w, rfl, rfl⟩ := houtsFrom
      refine .inr ⟨hname, w, if w != 0 then 1 else 0, houts, ofHex_toHex _, ?_⟩
      by_cases hw : w = 0 <;> simp [hw]
    · exact .inl (sameText_toHex (houtsFrom ▸ houts))

/-- What a frame is read from agrees with its encoding. -/
theorem sameFrame_encode (f : TraceFrame) (hf : f.NoConsoleLog) {v : Value}
    {address : Option Address} (h : parseFrame v address = .ok f) : SameFrame v (encode f) := by
  induction f using TraceFrame.induct generalizing v address with
  | step steps address' ih =>
    obtain ⟨vs, rfl, -, hsteps⟩ := parseFrame_eq_ok.mp h
    refine .array (sameSteps_encodeSteps hsteps fun s hs v hv => ?_)
    obtain ⟨keys, rfl, name, args, outs, hkeys, hread, hnests⟩ := parseStep_eq_ok.mp hv
    have hrecord := sameRecord_of_recorded (encodeNested s.kind) hkeys hread (hf.kinds s hs)
    rw [encodeStep]
    cases hframe : s.kind.frame? with
    | none =>
      refine .leaf hrecord ?_
      rw [encodeNested_eq, hframe]
      rfl
    | some f =>
      obtain ⟨t, address, v, ht, haddress, hv, hparse⟩ := hnests f hframe
      have hf' : f.address = some address := by
        obtain ⟨_, -, h, -⟩ := parseFrame_eq_ok.mp hparse
        exact h
      refine .nest hrecord ht ?_ (sameText_toHex haddress) hv ?_
        (ih s hs f hframe (hf.nested s hs f hframe) hparse)
      · rw [encodeNested_eq, hframe]
        simp [recordFields, addressFields, hf', hexValue]
      · rw [encodeNested_eq, hframe]
        simp [recordFields, addressFields, hf']

/-- **The trace format round trips.** An encodable frame is read back from its encoding, and
whatever reads as a frame without console logs agrees with that frame's encoding. -/
theorem traceFormat_roundTrip :
    (∀ f : TraceFrame, f.Encodable → parseFrame (encode f) f.address = .ok f) ∧
    ∀ v address f, parseFrame v address = .ok f → f.NoConsoleLog → SameFrame v (encode f) :=
  ⟨parseFrame_encode, fun _ _ f h hf => sameFrame_encode f hf h⟩

/-- A frame that calls a contract, which asks whether it is reentrant. -/
def callFrame : TraceFrame :=
  let address : Address := filled 20 0xab
  .mk [⟨.callContract address [1, 2] 5000 7 3 0 (.mk [⟨.msgReentrant true, 80, 70⟩] address),
    100, 60⟩] none

theorem encodable_msgReentrant (address : Option Address) :
    (TraceFrame.mk [⟨.msgReentrant true, 80, 70⟩] address).Encodable :=
  .cons ⟨fun _ => nofun, trivial, nofun⟩ nofun .nil

theorem callFrame_encodable : callFrame.Encodable := by
  refine .cons ⟨fun _ => nofun, trivial, ?_⟩ ?_ .nil
  · rintro _ ⟨⟩
    rfl
  · rintro _ ⟨⟩
    exact encodable_msgReentrant _

theorem TraceFrame.Encodable.noConsoleLog {f : TraceFrame} (h : f.Encodable) : f.NoConsoleLog := by
  induction h with
  | mk kinds _ ih => exact .mk (fun s hs => (kinds s hs).1) ih

theorem traceFormat_roundTrip_callFrame :
    parseFrame (encode callFrame) none = .ok callFrame ∧
      SameFrame (encode callFrame) (encode callFrame) :=
  ⟨traceFormat_roundTrip.1 _ callFrame_encodable,
    traceFormat_roundTrip.2 _ _ _ (traceFormat_roundTrip.1 _ callFrame_encodable)
      callFrame_encodable.noConsoleLog⟩

end CargoStylus
