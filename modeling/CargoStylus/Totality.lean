import CargoStylus.Layout
import CargoStylus.TraceFormat

/-!
# When parsing panics

`parseFrame` ends for every value, with a frame, an error or a panic. It panics on a value
exactly if there is a record for a panic in it, after records that can be read
(`parseFrame_total_iff`) : one with an ink that is not a natural number of a word, with a name
of no host I/O, with more bytes than its fields, or with a nested frame whose address is no
address or that is not there.

Both what can be read and what panics is said of the value, by the layout of its records.
-/

namespace CargoStylus

open Rust Json

/-! ## Values that can be read, and that panic -/

/-- The fields take all the bytes. -/
def Layout.Exact (l : Layout) (args outs : Bytes) : Prop :=
  leftover l.args l.argsRest args = [] ∧ leftover l.outs l.outsRest outs = []

/-- The entries have a name and bytes. -/
structure Labelled (keys : Fields) (name : String) (args outs : Bytes) : Prop where
  name : keys.get? "name" = some (.string name)
  args : ∃ t, keys.get? "args" = some (.string t) ∧ ofHex t = some args
  outs : ∃ t, keys.get? "outs" = some (.string t) ∧ ofHex t = some outs

/-- The first ink that is no word is still a number. -/
def BadInk (keys : Fields) : Prop :=
  (∃ n, keys.get? "startInk" = some (.number n) ∧ n.asU64 = none) ∨
    ∃ startInk n, keys.get? "startInk" = some (.number (.posInt startInk)) ∧
      keys.get? "endInk" = some (.number n) ∧ n.asU64 = none

/-- A layout of the records with that name, with bytes for all its fields. -/
def HasLayout (name : String) (args outs : Bytes) (l : Layout) : Prop :=
  layout? name = some l ∧ l.args ≤ args.length ∧ l.outs ≤ outs.length

/-- The entries hold a record of that layout. -/
def LongEnough (keys : Fields) (l : Layout) (args outs : Bytes) : Prop :=
  ∃ name startInk endInk, Recorded keys name args outs startInk endInk ∧
    HasLayout name args outs l

/-- The bytes at the key of the address. -/
def AddressBytes (keys : Fields) (b : Bytes) : Prop :=
  ∃ t, keys.get? "address" = some (.string t) ∧ ofHex t = some b

mutual

/-- A trace that can be read. -/
inductive WellFormedTrace : Value → Prop where
  | array {vs : List Value} (records : ∀ v ∈ vs, WellFormedRecord v) : WellFormedTrace (.array vs)

/-- A record that can be read. -/
inductive WellFormedRecord : Value → Prop where
  | leaf {keys : Fields} {l : Layout} {args outs : Bytes} (record : LongEnough keys l args outs)
      (exact : l.Exact args outs) (leaf : l.nests = false) : WellFormedRecord (.object keys)
  | nest {keys : Fields} {l : Layout} {args outs : Bytes} {address : Address} {v : Value}
      (record : LongEnough keys l args outs) (exact : l.Exact args outs) (nests : l.nests = true)
      (address : AddressBytes keys address.1) (steps : keys.get? "steps" = some v)
      (trace : WellFormedTrace v) : WellFormedRecord (.object keys)

end

mutual

/-- A trace with a record for a panic, after records that can be read. -/
inductive TracePanics : Value → Prop where
  | array {before after : List Value} {v : Value} (before_ok : ∀ w ∈ before, WellFormedRecord w)
      (record : RecordPanics v) : TracePanics (.array (before ++ v :: after))

/-- A record for a panic. -/
inductive RecordPanics : Value → Prop where
  | ink {keys : Fields} {name : String} {args outs : Bytes} (label : Labelled keys name args outs)
      (ink : BadInk keys) : RecordPanics (.object keys)
  | unknown {keys : Fields} {name : String} {args outs : Bytes} {startInk endInk : U64}
      (record : Recorded keys name args outs startInk endInk) (layout : layout? name = none) :
      RecordPanics (.object keys)
  | overlong {keys : Fields} {l : Layout} {args outs : Bytes}
      (record : LongEnough keys l args outs) (overlong : ¬l.Exact args outs)
      (leaf : l.nests = false) : RecordPanics (.object keys)
  | overlongNest {keys : Fields} {l : Layout} {args outs : Bytes} {address : Address} {v : Value}
      (record : LongEnough keys l args outs) (overlong : ¬l.Exact args outs)
      (nests : l.nests = true) (address : AddressBytes keys address.1)
      (steps : keys.get? "steps" = some v) (trace : WellFormedTrace v) :
      RecordPanics (.object keys)
  | address {keys : Fields} {l : Layout} {args outs b : Bytes}
      (record : LongEnough keys l args outs) (nests : l.nests = true)
      (address : AddressBytes keys b) (length : b.length ≠ 20) : RecordPanics (.object keys)
  | noSteps {keys : Fields} {l : Layout} {args outs : Bytes} {address : Address}
      (record : LongEnough keys l args outs) (nests : l.nests = true)
      (address : AddressBytes keys address.1) (steps : keys.get? "steps" = none) :
      RecordPanics (.object keys)
  | nested {keys : Fields} {l : Layout} {args outs : Bytes} {address : Address} {v : Value}
      (record : LongEnough keys l args outs) (nests : l.nests = true)
      (address : AddressBytes keys address.1) (steps : keys.get? "steps" = some v)
      (trace : TracePanics v) : RecordPanics (.object keys)

end

section

variable {α F : Type} {P : Bytes → Bytes → Prop}
  {nested : Option (Address → Outcome TraceError F)} {keys : Fields} {name : String} {s : Step}

/-! ## Readers that panic -/

@[simp] theorem liftOutcome_isPanic {o : Outcome TraceError α} :
    ((liftM o : StepM α).run s).IsPanic ↔ o.IsPanic := by
  cases o <;> simp [liftM, monadLift, MonadLift.monadLift, StateT.lift, StateT.run]

theorem ofOption_not_isPanic (e : TraceError) (x : Option α) :
    ¬(Outcome.ofOption e x).IsPanic := by
  cases x <;> simp [Outcome.ofOption]

theorem unwrap_isPanic {m : String} {x : Option α} :
    (Outcome.unwrap m x : Outcome TraceError α).IsPanic ↔ x = none := by
  cases x <;> simp [Outcome.unwrap]

theorem assert_isPanic {c : Prop} [Decidable c] {m : String} :
    (Outcome.assert c m : Outcome TraceError Unit).IsPanic ↔ ¬c := by
  unfold Outcome.assert
  split_ifs with h <;> simp [h]

theorem getTyped_isPanic (as : Value → Option α) (name : String) (s : Step) :
    ¬((getTyped as name).run s).IsPanic := by
  simp [getTyped, Outcome.isPanic_bind, ofOption_not_isPanic]

theorem getHex_isPanic (name : String) (s : Step) : ¬((getHex name).run s).IsPanic := by
  simp [getHex, Outcome.isPanic_bind, ofOption_not_isPanic, getTyped_isPanic]

theorem getInt_isPanic {name : String} {s : Step} : ((getInt name).run s).IsPanic ↔
    ∃ n, s.keys.get? name = some (.number n) ∧ n.asU64 = none := by
  simp [getInt, Outcome.isPanic_bind, getTyped_isPanic, getTyped_run, asNumber_eq_some,
    unwrap_isPanic]

theorem addressFromSlice_isPanic {b : Bytes} :
    (addressFromSlice b).IsPanic ↔ b.length ≠ 20 := by
  unfold addressFromSlice
  split_ifs with h <;> simp [h]

/-- The nested frame of the entries is one for a panic. -/
def NestedPanics (keys : Fields) (nested : Option (Address → Outcome TraceError F)) : Prop :=
  ∃ b, AddressBytes keys b ∧ (b.length ≠ 20 ∨ ∃ address : Address, b = address.1 ∧
    (nested = none ∨ ∃ g, nested = some g ∧ (g address).IsPanic))

theorem frame_isPanic : ((frame nested).run s).IsPanic ↔ NestedPanics s.keys nested := by
  simp [frame, Outcome.isPanic_bind, getHex_isPanic, getHex_run, addressFromSlice_isPanic,
    addressFromSlice_eq_ok, unwrap_isPanic, NestedPanics, AddressBytes]

/-! ## Reading a record -/

theorem nestedIf_isPanic {nests : Bool} : ((nestedIf nests nested).run s).IsPanic ↔
    nests = true ∧ NestedPanics s.keys nested := by
  rcases nests with _ | _
  · simp [nestedIf]
  · rw [← frame_isPanic, nestedIf, if_pos rfl, StateT.run_bind, Outcome.isPanic_bind]
    simp

/-- Where there is a nested frame it is read, and the bytes stay. -/
theorem nestedIf_run {nests : Bool} :
    (∃ s', (nestedIf nests nested).run s = .ok ((), s') ∧ s'.args = s.args ∧ s'.outs = s.outs) ↔
      (nests = true → ∃ f, NestedFrame s.keys nested f) := by
  rcases nests with _ | _
  · simp [nestedIf]
  · simp only [nestedIf, if_true, StateT.run_bind, Outcome.bind_eq_ok, Prod.exists, frame_run,
      StateT.run_pure, Outcome.pure_eq, Outcome.ok.injEq, Prod.mk.injEq, true_and]
    refine ⟨fun h _ => ?_, fun h => ?_⟩
    · obtain ⟨_, ⟨f, _, ⟨hf, -⟩, -⟩, -⟩ := h
      exact ⟨f, hf⟩
    · obtain ⟨f, hf⟩ := h trivial
      exact ⟨_, ⟨f, _, ⟨hf, rfl⟩, rfl⟩, rfl, rfl⟩

/-- The bytes after a nested frame are those before. -/
theorem bytes_of_nestedIf {nests : Bool} {s' : Step}
    (h : (nestedIf nests nested).run s = .ok ((), s')) : s'.args = s.args ∧ s'.outs = s.outs := by
  rcases nests with _ | _
  · obtain rfl : s = s' := by simpa [nestedIf] using h
    exact ⟨rfl, rfl⟩
  · simp only [nestedIf, if_true, StateT.run_bind, Outcome.bind_eq_ok, Prod.exists, frame_run,
      StateT.run_pure, Outcome.pure_eq, Outcome.ok.injEq, Prod.mk.injEq, true_and] at h
    obtain ⟨f, _, ⟨-, rfl⟩, rfl⟩ := h
    exact ⟨rfl, rfl⟩

variable {args outs : Bytes} {l : Layout}

theorem HasLayout.unique {l' : Layout} (h : HasLayout name args outs l)
    (h' : HasLayout name args outs l') : l = l' :=
  Option.some.inj (h.1.symm.trans h'.1)

theorem parseKind_of_hasLayout (h : HasLayout name args outs l)
    (nested : Option (Address → Outcome TraceError F)) (keys : Fields) :
    Prod.snd <$> (parseKind name nested).run ⟨keys, args, outs⟩ =
      Prod.snd <$> (nestedIf l.nests nested).run
        ⟨keys, leftover l.args l.argsRest args, leftover l.outs l.outsRest outs⟩ :=
  (parseKind_reads h.1 nested).long ⟨keys, args, outs⟩ h.2.1 h.2.2

/-- Without a layout a record is an error, or it is a panic if its name is unknown. -/
theorem parseKind_of_not_hasLayout (h : ∀ l, ¬HasLayout name args outs l) :
    layout? name = none ∧ ((parseKind name nested).run ⟨keys, args, outs⟩).IsPanic ∨
      layout? name ≠ none ∧ ((parseKind name nested).run ⟨keys, args, outs⟩).IsErr := by
  rcases hlayout : layout? name with _ | l
  · exact .inl ⟨rfl, parseKind_unknown hlayout nested _⟩
  · refine .inr ⟨nofun, (parseKind_reads hlayout nested).short ⟨keys, args, outs⟩ ?_⟩
    by_contra hlong
    rw [not_or, not_lt, not_lt] at hlong
    exact h l ⟨hlayout, hlong⟩

/-- What reading a record leaves is what its layout leaves. -/
theorem parseKind_isOk : (∃ kind s', (parseKind name nested).run ⟨keys, args, outs⟩ =
      .ok (kind, s') ∧ P s'.args s'.outs) ↔
    ∃ l, HasLayout name args outs l ∧ (l.nests = true → ∃ f, NestedFrame keys nested f) ∧
      P (leftover l.args l.argsRest args) (leftover l.outs l.outsRest outs) := by
  by_cases hlayout : ∃ l, HasLayout name args outs l
  · obtain ⟨l, hl⟩ := hlayout
    have heq := parseKind_of_hasLayout hl nested keys
    refine ⟨fun h => ⟨l, hl, ?_⟩, fun h => ?_⟩
    · obtain ⟨kind, s', hrun, hP⟩ := h
      rw [hrun, Outcome.map_ok, eq_comm, Outcome.map_eq_ok] at heq
      obtain ⟨⟨_, s''⟩, hlast, rfl⟩ := heq
      have hbytes := bytes_of_nestedIf hlast
      refine ⟨nestedIf_run.1 ⟨s'', hlast, hbytes⟩, ?_⟩
      dsimp only at hP hbytes
      rwa [← hbytes.1, ← hbytes.2]
    · obtain ⟨l', hl', hnested, hP⟩ := h
      obtain rfl := hl.unique hl'
      obtain ⟨s', hlast, hargs, houts⟩ := nestedIf_run (s := ⟨keys, _, _⟩) |>.2 hnested
      rw [hlast, Outcome.map_ok, Outcome.map_eq_ok] at heq
      obtain ⟨⟨kind, s''⟩, hrun, rfl⟩ := heq
      exact ⟨kind, s'', hrun, by rwa [hargs, houts]⟩
  · refine iff_of_false ?_ fun ⟨l, hl, _⟩ => hlayout ⟨l, hl⟩
    rintro ⟨kind, s', hrun, -⟩
    rcases @parseKind_of_not_hasLayout F nested keys _ _ _ (not_exists.1 hlayout) with
      ⟨-, m, h⟩ | ⟨-, e, h⟩
    · cases hrun.symm.trans h
    · cases hrun.symm.trans h

theorem parseKind_isPanic : ((parseKind name nested).run ⟨keys, args, outs⟩).IsPanic ↔
    layout? name = none ∨
      ∃ l, HasLayout name args outs l ∧ l.nests = true ∧ NestedPanics keys nested := by
  by_cases hlayout : ∃ l, HasLayout name args outs l
  · obtain ⟨l, hl⟩ := hlayout
    rw [← Outcome.isPanic_map (f := Prod.snd), parseKind_of_hasLayout hl, Outcome.isPanic_map,
      nestedIf_isPanic]
    refine ⟨fun h => .inr ⟨l, hl, h⟩, fun h => ?_⟩
    rcases h with h | ⟨l', hl', h⟩
    · cases hl.1.symm.trans h
    · obtain rfl := hl.unique hl'
      exact h
  · rcases @parseKind_of_not_hasLayout F nested keys _ _ _ (not_exists.1 hlayout) with
      ⟨hnone, h⟩ | ⟨hsome, e, h⟩
    · exact iff_of_true h (.inl hnone)
    · rw [h]
      refine iff_of_false (Outcome.not_isPanic_err e) (not_or.2 ⟨hsome, ?_⟩)
      rintro ⟨l, hl, -⟩
      exact hlayout ⟨l, hl⟩

/-- The part of a step after its entries are taken. -/
def parseBytes (name : String) (nested : Option (Address → Outcome TraceError F))
    (startInk endInk : U64) : StepM (Hostio F) := do
  let kind ← parseKind name nested
  let s ← get
  (Outcome.assert (s.args = []) name : Outcome TraceError Unit)
  (Outcome.assert (s.outs = []) name : Outcome TraceError Unit)
  return ⟨kind, startInk, endInk⟩

variable {startInk endInk : U64}

theorem parseBytes_isPanic : ((parseBytes name nested startInk endInk).run s).IsPanic ↔
    ((parseKind name nested).run s).IsPanic ∨ ∃ kind s', (parseKind name nested).run s =
      .ok (kind, s') ∧ ¬(s'.args = [] ∧ s'.outs = []) := by
  rcases hrun : (parseKind name nested).run s with ⟨kind, s'⟩ | e | m
  · by_cases hargs : s'.args = []
    · simp [parseBytes, hrun, Outcome.isPanic_bind, assert_isPanic, hargs]
    · simp [parseBytes, hrun, Outcome.isPanic_bind, assert_isPanic, hargs]
  · simp [parseBytes, hrun]
  · simp [parseBytes, hrun]

theorem parseBytes_isOk : ((parseBytes name nested startInk endInk).run s).IsOk ↔
    ∃ kind s', (parseKind name nested).run s = .ok (kind, s') ∧ s'.args = [] ∧ s'.outs = [] := by
  rcases hrun : (parseKind name nested).run s with ⟨kind, s'⟩ | e | m
  · simp [parseBytes, hrun, Outcome.IsOk, Outcome.bind_eq_ok]
  · simp [parseBytes, hrun]
  · simp [parseBytes, hrun]

/-- The entries that are left when the bytes of a step are read. -/
def taken (keys : Fields) : Fields :=
  ((((keys.erase "name").erase "args").erase "outs").erase "startInk").erase "endInk"

theorem get?_taken_address : (taken keys).get? "address" = keys.get? "address" := by
  simp [taken, Fields.get?_erase_ne]

theorem nestedPanics_taken : NestedPanics (taken keys) nested ↔ NestedPanics keys nested := by
  simp only [NestedPanics, AddressBytes, get?_taken_address]

theorem nestedFrame_taken {f : F} :
    NestedFrame (taken keys) nested f ↔ NestedFrame keys nested f := by
  simp only [NestedFrame, get?_taken_address]

theorem parseStepKeys_eq (nested : Option (Address → Outcome TraceError F)) :
    parseStepKeys nested = (do
      let name ← getTyped asString "name"
      let args ← getHex "args"
      let outs ← getHex "outs"
      let startInk ← getInt "startInk"
      let endInk ← getInt "endInk"
      modify fun s => { s with args := args, outs := outs }
      parseBytes name nested startInk endInk) :=
  rfl

/-- Once its entries are taken, a step is read from its bytes. -/
theorem parseStepKeys_of_recorded (h : Recorded keys name args outs startInk endInk) :
    (parseStepKeys nested).run ⟨keys, [], []⟩ =
      (parseBytes name nested startInk endInk).run ⟨taken keys, args, outs⟩ := by
  obtain ⟨hname, ⟨t, ht, hargs⟩, ⟨u, hu, houts⟩, hstart, hend⟩ := h
  have hname' : (getTyped asString "name").run ⟨keys, [], []⟩ =
      .ok (name, ⟨keys.erase "name", [], []⟩) :=
    getTyped_run.2 ⟨_, hname, rfl, rfl⟩
  have hargs' : (getHex "args").run ⟨keys.erase "name", [], []⟩ =
      .ok (args, ⟨(keys.erase "name").erase "args", [], []⟩) :=
    getHex_run.2 ⟨t, by simpa [Fields.get?_erase_ne], hargs, rfl⟩
  have houts' : (getHex "outs").run ⟨(keys.erase "name").erase "args", [], []⟩ =
      .ok (outs, ⟨((keys.erase "name").erase "args").erase "outs", [], []⟩) :=
    getHex_run.2 ⟨u, by simpa [Fields.get?_erase_ne], houts, rfl⟩
  have hstart' : (getInt "startInk").run ⟨((keys.erase "name").erase "args").erase "outs", [], []⟩ =
      .ok (startInk,
        ⟨(((keys.erase "name").erase "args").erase "outs").erase "startInk", [], []⟩) :=
    getInt_run.2 ⟨by simpa [Fields.get?_erase_ne], rfl⟩
  have hend' : (getInt "endInk").run
      ⟨(((keys.erase "name").erase "args").erase "outs").erase "startInk", [], []⟩ =
      .ok (endInk, ⟨taken keys, [], []⟩) :=
    getInt_run.2 ⟨by simpa [Fields.get?_erase_ne], rfl⟩
  simp only [parseStepKeys_eq, StateT.run_bind, hname', hargs', houts', hstart', hend',
    Outcome.ok_bind, StateT.run_modify, Outcome.pure_eq]

/-- A panic comes after the name and the bytes of a step : of its ink, or of its fields. -/
theorem label_of_isPanic (h : ((parseStepKeys nested).run ⟨keys, [], []⟩).IsPanic) :
    ∃ name args outs, Labelled keys name args outs ∧ (BadInk keys ∨
      ∃ startInk endInk, Recorded keys name args outs startInk endInk) := by
  simp only [parseStepKeys_eq, StateT.run_bind, Outcome.isPanic_bind, Prod.exists, getTyped_run,
    getHex_run, getInt_run, getTyped_isPanic, getHex_isPanic, getInt_isPanic, false_or,
    asString_eq_some, StateT.run_modify, Outcome.pure_eq, Outcome.not_isPanic_ok,
    Outcome.ok.injEq, Prod.mk.injEq] at h
  obtain ⟨name, _, ⟨_, hname, rfl, rfl⟩, args, _, ⟨t, ht, hargs, rfl⟩, outs, _,
    ⟨u, hu, houts, rfl⟩, h⟩ := h
  simp only [ne_eq, String.reduceEq, not_false_eq_true, Fields.get?_erase_ne] at ht hu h
  refine ⟨name, args, outs, ⟨hname, ⟨t, ht, hargs⟩, ⟨u, hu, houts⟩⟩, ?_⟩
  rcases h with hink | ⟨startInk, _, ⟨hstart, rfl⟩, ⟨n, hn, hbad⟩ | ⟨endInk, _, ⟨hend, rfl⟩, -⟩⟩
  · exact .inl (.inl hink)
  · simp only [ne_eq, String.reduceEq, not_false_eq_true, Fields.get?_erase_ne] at hn
    exact .inl (.inr ⟨startInk, n, hstart, hn, hbad⟩)
  · simp only [ne_eq, String.reduceEq, not_false_eq_true, Fields.get?_erase_ne] at hend
    exact .inr ⟨startInk, endInk, hname, ⟨t, ht, hargs⟩, ⟨u, hu, houts⟩, hstart, hend⟩

/-- An ink that is no word is a panic. -/
theorem isPanic_of_badInk (hlabel : Labelled keys name args outs) (hink : BadInk keys) :
    ((parseStepKeys nested).run ⟨keys, [], []⟩).IsPanic := by
  obtain ⟨hname, ⟨t, ht, hargs⟩, ⟨u, hu, houts⟩⟩ := hlabel
  simp only [parseStepKeys_eq, StateT.run_bind, Outcome.isPanic_bind, Prod.exists, getTyped_run,
    getHex_run, getInt_run, getTyped_isPanic, getHex_isPanic, getInt_isPanic, false_or,
    asString_eq_some, StateT.run_modify, Outcome.pure_eq, Outcome.not_isPanic_ok,
    Outcome.ok.injEq, Prod.mk.injEq]
  refine ⟨name, _, ⟨_, hname, rfl, rfl⟩, args, _, ⟨t, ?_, hargs, rfl⟩, outs, _,
    ⟨u, ?_, houts, rfl⟩, ?_⟩
  · simpa [Fields.get?_erase_ne]
  · simpa [Fields.get?_erase_ne]
  · rcases hink with ⟨n, hn, hbad⟩ | ⟨startInk, n, hstart, hn, hbad⟩
    · exact .inl ⟨n, by simpa [Fields.get?_erase_ne], hbad⟩
    · exact .inr ⟨startInk, _, ⟨by simpa [Fields.get?_erase_ne], rfl⟩,
        .inl ⟨n, by simpa [Fields.get?_erase_ne], hbad⟩⟩

/-- A step is read exactly if it has a record and bytes for no more than its fields. -/
theorem parseStepKeys_isOk_iff : ((parseStepKeys nested).run ⟨keys, [], []⟩).IsOk ↔
    ∃ l args outs, LongEnough keys l args outs ∧ l.Exact args outs ∧
      (l.nests = true → ∃ f, NestedFrame keys nested f) := by
  refine ⟨fun h => ?_, fun h => ?_⟩
  · obtain ⟨⟨h, s'⟩, hrun⟩ := h
    obtain ⟨name, args, outs, hrecord, -⟩ := parseStepKeys_isOk.1 ⟨s', hrun⟩
    rw [parseStepKeys_of_recorded hrecord] at hrun
    obtain ⟨kind, s'', hkind, hbytes⟩ := parseBytes_isOk.1 ⟨_, hrun⟩
    obtain ⟨l, hlayout, hnested, hexact⟩ :=
      parseKind_isOk (P := fun a o => a = [] ∧ o = []) |>.1 ⟨kind, s'', hkind, hbytes⟩
    simp only [nestedFrame_taken] at hnested
    exact ⟨l, args, outs, ⟨name, _, _, hrecord, hlayout⟩, hexact, hnested⟩
  · obtain ⟨l, args, outs, ⟨name, startInk, endInk, hrecord, hlayout⟩, hexact, hnested⟩ := h
    rw [parseStepKeys_of_recorded hrecord, parseBytes_isOk]
    refine parseKind_isOk (P := fun a o => a = [] ∧ o = []) |>.2 ⟨l, hlayout, ?_, hexact⟩
    simpa only [nestedFrame_taken] using hnested

/-- A step is a panic exactly if its ink is no word, its name is of no host I/O, its nested frame
is one for a panic, or it is read and there are more bytes. -/
theorem parseStepKeys_isPanic_iff : ((parseStepKeys nested).run ⟨keys, [], []⟩).IsPanic ↔
    (∃ name args outs, Labelled keys name args outs ∧ BadInk keys) ∨
    (∃ name args outs startInk endInk, Recorded keys name args outs startInk endInk ∧
      layout? name = none) ∨
    ∃ l args outs, LongEnough keys l args outs ∧ (l.nests = true ∧ NestedPanics keys nested ∨
      (l.nests = true → ∃ f, NestedFrame keys nested f) ∧ ¬l.Exact args outs) := by
  have hbytes : ∀ name args outs startInk endInk, Recorded keys name args outs startInk endInk →
      (((parseStepKeys nested).run ⟨keys, [], []⟩).IsPanic ↔ (layout? name = none ∨
        ∃ l, HasLayout name args outs l ∧ l.nests = true ∧ NestedPanics keys nested) ∨
        ∃ l, HasLayout name args outs l ∧ (l.nests = true → ∃ f, NestedFrame keys nested f) ∧
          ¬l.Exact args outs) := by
    intro name args outs startInk endInk hrecord
    rw [parseStepKeys_of_recorded hrecord, parseBytes_isPanic, parseKind_isPanic,
      parseKind_isOk (P := fun a o => ¬(a = [] ∧ o = []))]
    simp only [nestedPanics_taken, nestedFrame_taken]
    rfl
  refine ⟨fun h => ?_, fun h => ?_⟩
  · obtain ⟨name, args, outs, hlabel, hink | ⟨startInk, endInk, hrecord⟩⟩ := label_of_isPanic h
    · exact .inl ⟨name, args, outs, hlabel, hink⟩
    · rcases (hbytes name args outs startInk endInk hrecord).1 h with
        (hnone | ⟨l, hlayout, h⟩) | ⟨l, hlayout, h⟩
      · exact .inr (.inl ⟨name, args, outs, startInk, endInk, hrecord, hnone⟩)
      · exact .inr (.inr ⟨l, args, outs, ⟨name, _, _, hrecord, hlayout⟩, .inl h⟩)
      · exact .inr (.inr ⟨l, args, outs, ⟨name, _, _, hrecord, hlayout⟩, .inr h⟩)
  · rcases h with ⟨name, args, outs, hlabel, hink⟩ |
      ⟨name, args, outs, startInk, endInk, hrecord, hnone⟩ |
      ⟨l, args, outs, ⟨name, startInk, endInk, hrecord, hlayout⟩, h⟩
    · exact isPanic_of_badInk hlabel hink
    · exact (hbytes name args outs startInk endInk hrecord).2 (.inl (.inl hnone))
    · refine (hbytes name args outs startInk endInk hrecord).2 ?_
      rcases h with h | h
      · exact .inl (.inr ⟨l, hlayout, h⟩)
      · exact .inr ⟨l, hlayout, h⟩

end

/-! ## Reading a trace -/

/-- What becomes of a trace is known. -/
structure Decided (v : Value) : Prop where
  ok : ∀ address, (parseFrame v address).IsOk ↔ WellFormedTrace v
  panics : ∀ address, (parseFrame v address).IsPanic ↔ TracePanics v

section

variable {keys : Fields} (hsteps : ∀ v, keys.get? "steps" = some v → Decided v)

include hsteps

theorem exists_nestedFrame : (∃ f, NestedFrame keys (parseNested keys) f) ↔
    ∃ (address : Address) (v : Value), AddressBytes keys address.1 ∧
      keys.get? "steps" = some v ∧ WellFormedTrace v := by
  simp only [nestedFrame_parseNested]
  refine ⟨fun h => ?_, fun h => ?_⟩
  · obtain ⟨f, t, address, v, ht, haddress, hv, hf⟩ := h
    exact ⟨address, v, ⟨t, ht, haddress⟩, hv, ((hsteps v hv).ok _).1 ⟨f, hf⟩⟩
  · obtain ⟨address, v, ⟨t, ht, haddress⟩, hv, htrace⟩ := h
    obtain ⟨f, hf⟩ := ((hsteps v hv).ok (some address)).2 htrace
    exact ⟨f, t, address, v, ht, haddress, hv, hf⟩

theorem nestedPanics_parseNested : NestedPanics keys (parseNested keys) ↔
    ∃ b, AddressBytes keys b ∧ (b.length ≠ 20 ∨ ∃ address : Address, b = address.1 ∧
      (keys.get? "steps" = none ∨ ∃ v, keys.get? "steps" = some v ∧ TracePanics v)) := by
  rw [NestedPanics, parseNested_eq]
  rcases h : keys.get? "steps" with _ | v
  · simp
  · simp [(hsteps v h).panics]

theorem parseStep_isOk_iff :
    (parseStep (.object keys)).IsOk ↔ WellFormedRecord (.object keys) := by
  have hrun : (parseStep (.object keys)).IsOk ↔
      ((parseStepKeys (parseNested keys)).run ⟨keys, [], []⟩).IsOk := by
    rw [parseStep]
    rcases (parseStepKeys (parseNested keys)).run ⟨keys, [], []⟩ with h | e | m <;> simp
  rw [hrun, parseStepKeys_isOk_iff, exists_nestedFrame hsteps]
  refine ⟨fun h => ?_, fun h => ?_⟩
  · obtain ⟨l, args, outs, hrecord, hexact, hnested⟩ := h
    rcases hnests : l.nests with _ | _
    · exact .leaf hrecord hexact hnests
    · obtain ⟨address, v, haddress, hv, htrace⟩ := hnested hnests
      exact .nest hrecord hexact hnests haddress hv htrace
  · rcases h with ⟨hrecord, hexact, hleaf⟩ | ⟨hrecord, hexact, -, haddress, hv, htrace⟩
    · refine ⟨_, _, _, hrecord, hexact, fun hnests => ?_⟩
      exact absurd (hleaf.symm.trans hnests) Bool.false_ne_true
    · exact ⟨_, _, _, hrecord, hexact, fun _ => ⟨_, _, haddress, hv, htrace⟩⟩

theorem parseStep_isPanic_iff :
    (parseStep (.object keys)).IsPanic ↔ RecordPanics (.object keys) := by
  have hrun : (parseStep (.object keys)).IsPanic ↔
      ((parseStepKeys (parseNested keys)).run ⟨keys, [], []⟩).IsPanic := by
    rw [parseStep]
    rcases (parseStepKeys (parseNested keys)).run ⟨keys, [], []⟩ with h | e | m <;> simp
  rw [hrun, parseStepKeys_isPanic_iff, exists_nestedFrame hsteps, nestedPanics_parseNested hsteps]
  refine ⟨fun h => ?_, fun h => ?_⟩
  · rcases h with ⟨name, args, outs, hlabel, hink⟩ |
      ⟨name, args, outs, startInk, endInk, hrecord, hunknown⟩ |
      ⟨l, args, outs, hrecord, ⟨hnests, b, haddress, hlen | ⟨address, rfl, hv⟩⟩ | ⟨hnested, hover⟩⟩
    · exact .ink hlabel hink
    · exact .unknown hrecord hunknown
    · exact .address hrecord hnests haddress hlen
    · rcases hv with hv | ⟨v, hv, htrace⟩
      · exact .noSteps hrecord hnests haddress hv
      · exact .nested hrecord hnests haddress hv htrace
    · rcases hnests : l.nests with _ | _
      · exact .overlong hrecord hover hnests
      · obtain ⟨address, v, haddress, hv, htrace⟩ := hnested hnests
        exact .overlongNest hrecord hover hnests haddress hv htrace
  · rcases h with ⟨hlabel, hink⟩ | ⟨hrecord, hunknown⟩ | ⟨hrecord, hover, hleaf⟩ |
      ⟨hrecord, hover, -, haddress, hv, htrace⟩ | ⟨hrecord, hnests, haddress, hlen⟩ |
      ⟨hrecord, hnests, haddress, hv⟩ | ⟨hrecord, hnests, haddress, hv, htrace⟩
    · exact .inl ⟨_, _, _, hlabel, hink⟩
    · exact .inr (.inl ⟨_, _, _, _, _, hrecord, hunknown⟩)
    · refine .inr (.inr ⟨_, _, _, hrecord, .inr ⟨fun hnests => ?_, hover⟩⟩)
      exact absurd (hleaf.symm.trans hnests) Bool.false_ne_true
    · exact .inr (.inr ⟨_, _, _, hrecord, .inr ⟨fun _ => ⟨_, _, haddress, hv, htrace⟩, hover⟩⟩)
    · exact .inr (.inr ⟨_, _, _, hrecord, .inl ⟨hnests, _, haddress, .inl hlen⟩⟩)
    · exact .inr (.inr ⟨_, _, _, hrecord, .inl ⟨hnests, _, haddress, .inr ⟨_, rfl, .inl hv⟩⟩⟩)
    · exact .inr (.inr ⟨_, _, _, hrecord,
        .inl ⟨hnests, _, haddress, .inr ⟨_, rfl, .inr ⟨_, hv, htrace⟩⟩⟩⟩)

end

theorem parseSteps_isOk : ∀ {vs : List Value},
    (parseSteps vs).IsOk ↔ ∀ v ∈ vs, (parseStep v).IsOk
  | [] => by simp [parseSteps]
  | v :: vs => by
    rw [List.forall_mem_cons, ← parseSteps_isOk, parseSteps]
    rcases parseStep v with h | e | m
    · rcases parseSteps vs with hs | e | m <;> simp
    · simp
    · simp

/-- The steps are a panic exactly if one of them is, after steps that are read. -/
theorem parseSteps_isPanic {vs : List Value} : (parseSteps vs).IsPanic ↔
    ∃ before v after, vs = before ++ v :: after ∧ (∀ w ∈ before, (parseStep w).IsOk) ∧
      (parseStep v).IsPanic := by
  induction vs with
  | nil => simp [parseSteps]
  | cons v vs ih =>
    rw [parseSteps, Outcome.isPanic_bind]
    refine ⟨fun h => ?_, fun h => ?_⟩
    · rcases h with h | ⟨s, hs, h⟩
      · exact ⟨[], v, vs, rfl, List.forall_mem_nil _, h⟩
      · have hrest : (parseSteps vs).IsPanic := by
          rcases hrest : parseSteps vs with hs | e | m
          · simp [hrest] at h
          · simp [hrest] at h
          · exact Outcome.isPanic_panic m
        obtain ⟨before, w, after, rfl, hbefore, hw⟩ := ih.1 hrest
        exact ⟨v :: before, w, after, rfl, List.forall_mem_cons.2 ⟨⟨s, hs⟩, hbefore⟩, hw⟩
    · obtain ⟨before, w, after, hvs, hbefore, hw⟩ := h
      rcases before with _ | ⟨v', before⟩
      · obtain ⟨rfl, rfl⟩ := List.cons.inj hvs
        exact .inl hw
      · obtain ⟨rfl, rfl⟩ := List.cons.inj hvs
        obtain ⟨s, hs⟩ := hbefore v List.mem_cons_self
        obtain ⟨m, hm⟩ := ih.2 ⟨before, w, after, rfl,
          fun u hu => hbefore u (List.mem_cons_of_mem v hu), hw⟩
        exact .inr ⟨s, hs, m, by rw [hm, Outcome.panic_bind]⟩

theorem sizeOf_get?_lt {keys : Fields} {k : String} {v : Value} (h : keys.get? k = some v) :
    sizeOf v < sizeOf keys := by
  obtain ⟨before, after, rfl, -⟩ := List.lookup_eq_some_iff.1 h
  have hmem := List.sizeOf_lt_of_mem (List.mem_append_right before List.mem_cons_self :
    (k, v) ∈ before ++ (k, v) :: after)
  rw [Prod.mk.sizeOf_spec] at hmem
  omega

theorem decided_of_not_array {v : Value} (hv : ∀ vs, v ≠ .array vs) : Decided v := by
  have hparse : ∀ address, parseFrame v address = .err (.notArray v) := by
    intro address
    cases v <;> first | rfl | exact absurd rfl (hv _)
  refine ⟨fun address => ?_, fun address => ?_⟩
  · rw [hparse]
    refine iff_of_false (Outcome.not_isOk_err _) ?_
    rintro ⟨-⟩
    exact hv _ rfl
  · rw [hparse]
    refine iff_of_false (Outcome.not_isPanic_err _) ?_
    rintro ⟨-, -⟩
    exact hv _ rfl

/-- The steps of a trace are decided if what they nest is. -/
theorem decided_record {v : Value}
    (h : ∀ keys, v = .object keys → ∀ w, Fields.get? keys "steps" = some w → Decided w) :
    ((parseStep v).IsOk ↔ WellFormedRecord v) ∧ ((parseStep v).IsPanic ↔ RecordPanics v) := by
  by_cases hv : ∃ keys, v = .object keys
  · obtain ⟨keys, rfl⟩ := hv
    exact ⟨parseStep_isOk_iff (h keys rfl), parseStep_isPanic_iff (h keys rfl)⟩
  · have hparse : parseStep v = .err (.notStep v) := by
      cases v <;> first | rfl | exact absurd ⟨_, rfl⟩ hv
    rw [hparse]
    refine ⟨iff_of_false (Outcome.not_isOk_err _) ?_, iff_of_false (Outcome.not_isPanic_err _) ?_⟩
    · rintro (⟨-, -, -⟩ | ⟨-, -, -, -, -, -⟩) <;> exact hv ⟨_, rfl⟩
    · intro hp
      cases hp <;> exact hv ⟨_, rfl⟩

theorem decided_array {vs : List Value} (h : ∀ v ∈ vs,
    ((parseStep v).IsOk ↔ WellFormedRecord v) ∧ ((parseStep v).IsPanic ↔ RecordPanics v)) :
    Decided (.array vs) := by
  have hok : ∀ address, (parseFrame (.array vs) address).IsOk ↔ (parseSteps vs).IsOk := by
    intro address
    rw [parseFrame]
    rcases parseSteps vs with hs | e | m <;> simp
  have hpanic : ∀ address, (parseFrame (.array vs) address).IsPanic ↔ (parseSteps vs).IsPanic := by
    intro address
    rw [parseFrame]
    rcases parseSteps vs with hs | e | m <;> simp
  refine ⟨fun address => ?_, fun address => ?_⟩
  · rw [hok, parseSteps_isOk]
    refine ⟨fun hvs => .array fun v hv => (h v hv).1.1 (hvs v hv), fun hvs v hv => ?_⟩
    obtain ⟨hvs⟩ := hvs
    exact (h v hv).1.2 (hvs v hv)
  · rw [hpanic, parseSteps_isPanic]
    refine ⟨fun hvs => ?_, fun hvs => ?_⟩
    · obtain ⟨before, v, after, rfl, hbefore, hv⟩ := hvs
      refine .array (fun w hw => (h w ?_).1.1 (hbefore w hw)) ((h v ?_).2.1 hv)
      · exact List.mem_append_left _ hw
      · exact List.mem_append_right _ List.mem_cons_self
    · rcases hvs with ⟨hbefore, hv⟩
      refine ⟨_, _, _, rfl, fun w hw => (h w ?_).1.2 (hbefore w hw), (h _ ?_).2.2 hv⟩
      · exact List.mem_append_left _ hw
      · exact List.mem_append_right _ List.mem_cons_self

/-- What becomes of every trace is known, by induction on its size. -/
theorem decided (v : Value) : Decided v := by
  by_cases hv : ∃ vs, v = .array vs
  · obtain ⟨vs, hvs⟩ := hv
    rw [hvs]
    refine decided_array fun w hw => decided_record fun keys hkeys u hu => ?_
    have hlt : sizeOf u < sizeOf v := by
      have hmem := List.sizeOf_lt_of_mem hw
      have hentry := sizeOf_get?_lt hu
      rw [hkeys, Value.object.sizeOf_spec] at hmem
      rw [hvs, Value.array.sizeOf_spec]
      omega
    exact decided u
  · exact decided_of_not_array (not_exists.1 hv)
termination_by sizeOf v
decreasing_by exact hlt

/-- Parsing ends with a frame or an error, and without a panic, exactly on the values without a
record for a panic after records that can be read. -/
theorem parseFrame_total_iff (v : Value) (address : Option Address) :
    ((∃ f, parseFrame v address = .ok f) ∨ ∃ e, parseFrame v address = .err e) ↔
      ¬TracePanics v := by
  rw [← (decided v).panics address]
  rcases parseFrame v address with f | e | m <;> simp

/-- A record of no host I/O. -/
def unknownRecord : Fields :=
  [("name", .string "storage_load"), ("args", .string "0x"), ("outs", .string "0x"),
    ("startInk", .number (.posInt 0)), ("endInk", .number (.posInt 0))]

/-- A name that the parser does not know is a panic. -/
theorem unknownRecord_panics :
    ¬∀ (v : Value) (address : Option Address),
      (∃ f, parseFrame v address = .ok f) ∨ ∃ e, parseFrame v address = .err e := by
  intro h
  rcases h (.array [.object unknownRecord]) none with ⟨f, hf⟩ | ⟨e, he⟩
  · cases hf
  · cases he

end CargoStylus
