import CargoStylus.CallTree
import CargoStylus.TraceFormat

/-!
# The tracer and the parser

`parseFrame` reads what the tracer records of a transaction, one `Hostio` for each record at
every depth, exactly when each frame is merged into the host I/O that entered it
(`parse_tracer_iff`). The record of any other frame has no `args`, `outs` or ink, which the
parser asks of every step : contract creations and the calls of EVM contracts are such frames.
-/

namespace CargoStylus

open Rust Json

/-! ## Host I/Os the parser expects -/

/-- The arguments and results are laid out as a host I/O of that name lays them out. -/
def HostioInfo.Expected (info : HostioInfo) : Prop :=
  ∃ kind : HostioKind Unit, kind.ReadFrom info.name info.args info.outs ∧
    ∀ name f, kind ≠ .evmCall name f

namespace CallTree

/-- Every host I/O is one the parser expects. -/
def Expected : CallTree → Prop
  | nil => True
  | hostio info rest => info.Expected ∧ rest.Expected
  | frame _ body rest => body.Expected ∧ rest.Expected
  | call _ body info rest => info.Expected ∧ body.Expected ∧ rest.Expected

/-- Every frame is merged into the host I/O that entered it. -/
def Merged : CallTree → Prop
  | nil => True
  | hostio _ rest => rest.Merged
  | frame .. => False
  | call _ body _ rest => body.Merged ∧ rest.Merged

end CallTree

/-- The step holds the record of a host I/O. -/
structure Hostio.Of (h : Hostio TraceFrame) (info : HostioInfo) : Prop where
  kind : h.kind.ReadFrom info.name info.args info.outs
  startInk : h.startInk = info.startInk
  endInk : h.endInk = info.endInk

/-- One step for each record, at every depth. -/
def CallTree.OnePerRecord : CallTree → List (Hostio TraceFrame) → Prop
  | nil, hs => hs = []
  | hostio info rest, hs => ∃ h hs', hs = h :: hs' ∧ h.Of info ∧ h.kind.frame? = none ∧
      rest.OnePerRecord hs'
  | frame f body rest, hs => ∃ h g hs', hs = h :: hs' ∧
      h.kind = .evmCall (frameName f.getType) g ∧ g.address = some f.getTo ∧
      body.OnePerRecord g.steps ∧ rest.OnePerRecord hs'
  | call f body info rest, hs => ∃ h g hs', hs = h :: hs' ∧ h.Of info ∧
      h.kind.frame? = some g ∧ g.address = some f.getTo ∧ body.OnePerRecord g.steps ∧
      rest.OnePerRecord hs'

/-! ## Reading the records -/

section Kinds

variable {F : Type}

/-- The host I/Os that enter a frame are the ones whose kind nests one. -/
theorem frame?_isSome {kind : HostioKind F} (h : ∀ name f, kind ≠ .evmCall name f) :
    kind.frame?.isSome ↔ kind.recordName ∈ nests := by
  cases kind
  case evmCall name f => exact absurd rfl (h name f)
  all_goals simp [HostioKind.frame?, HostioKind.recordName, HostioKind.name, nests]

theorem frame?_isSome_of_mem_nests {kind : HostioKind F} (h : kind.recordName ∈ nests) :
    kind.frame?.isSome := by
  cases hkind : kind with
  | evmCall name f => rfl
  | _ => exact hkind ▸ (frame?_isSome (by rw [hkind]; exact fun _ _ => nofun)).mpr h

end Kinds

theorem recorded_fields (info : HostioInfo) (rest : Fields) :
    Recorded (info.fields ++ rest) info.name info.args info.outs info.startInk info.endInk :=
  ⟨rfl, ⟨_, rfl, ofHex_toHex _⟩, ⟨_, rfl, ofHex_toHex _⟩, rfl, rfl⟩

theorem Recorded.of_fields {info : HostioInfo} {rest : Fields} {name : String} {args outs : Bytes}
    {startInk endInk : U64} (h : Recorded (info.fields ++ rest) name args outs startInk endInk) :
    info = ⟨name, args, outs, startInk, endInk⟩ := by
  obtain ⟨hname, ⟨s, hs, hargs⟩, ⟨t, ht, houts⟩, hstart, hend⟩ := h
  obtain ⟨name', args', outs', startInk', endInk'⟩ := info
  simp [HostioInfo.fields] at hname hs ht hstart hend
  subst hs ht
  simp at hargs houts
  simp_all

/-- A step is only read from the record of a frame once the frame is merged. -/
theorem parseStep_frame (f : CallFrame) (steps : List Value) (name : String)
    (h : Hostio TraceFrame) :
    parseStep (.object (f.fields steps ++ [("name", .string name)])) ≠ .ok h := by
  intro hparse
  obtain ⟨_, ⟨⟩, _, _, _, hkeys, -⟩ := parseStep_eq_ok.mp hparse
  obtain ⟨t, ht, -⟩ := hkeys.args
  simp [CallFrame.fields] at ht

/-- The record of a call is read as its host I/O with the frame of its steps. -/
theorem parseStep_call {f : CallFrame} {info : HostioInfo} {steps : List Value}
    {h : Hostio TraceFrame} :
    parseStep (.object (info.fields ++ f.fields steps)) = .ok h ↔ h.Of info ∧
      ∀ g, h.kind.frame? = some g → g.address = some f.getTo ∧
        List.Forall₂ (fun v s => parseStep v = .ok s) steps g.steps := by
  rw [parseStep_eq_ok]
  refine ⟨fun h => ?_, fun h => ?_⟩
  · obtain ⟨_, ⟨⟩, name, args, outs, hkeys, hread, hnests⟩ := h
    obtain rfl := hkeys.of_fields
    refine ⟨⟨hread, rfl, rfl⟩, fun g hg => ?_⟩
    obtain ⟨t, address, v, ht, haddress, hv, hparse⟩ := hnests g hg
    simp [HostioInfo.fields, CallFrame.fields] at ht hv
    subst ht hv
    rw [ofHex_toHex, Option.some.injEq, ← Subtype.ext_iff] at haddress
    obtain ⟨vs, ⟨⟩, hg', hsteps⟩ := parseFrame_eq_ok.mp hparse
    exact ⟨haddress ▸ hg', hsteps⟩
  · obtain ⟨⟨hread, hstart, hend⟩, hnests⟩ := h
    refine ⟨_, rfl, info.name, info.args, info.outs, ?_, hread, fun g hg => ?_⟩
    · rw [hstart, hend]
      exact recorded_fields info _
    · obtain ⟨haddress, hsteps⟩ := hnests g hg
      exact ⟨toHex f.getTo.1, f.getTo, .array steps, rfl, ofHex_toHex _, rfl,
        parseFrame_eq_ok.mpr ⟨_, rfl, haddress, hsteps⟩⟩

/-- The record of another host I/O is read as that host I/O. -/
theorem parseStep_hostio {info : HostioInfo} {h : Hostio TraceFrame} (hinfo : h.Of info)
    (hframe : h.kind.frame? = none) : parseStep (.object info.fields) = .ok h := by
  refine parseStep_eq_ok.mpr ⟨_, rfl, info.name, info.args, info.outs, ?_, hinfo.kind, ?_⟩
  · rw [hinfo.startInk, hinfo.endInk, ← List.append_nil info.fields]
    exact recorded_fields info []
  · simp [hframe]

/-- Records that are read are those of a tree whose frames are merged. -/
theorem merged_of_parse (c : CallTree) (hc : c.WellFormed) {hs : List (Hostio TraceFrame)}
    (h : List.Forall₂ (fun v s => parseStep v = .ok s) c.records hs) : c.Merged := by
  induction c generalizing hs with
  | nil => trivial
  | hostio info rest ih =>
    obtain ⟨_, _, -, hrest, rfl⟩ := List.forall₂_cons_left_iff.mp h
    exact ih hc.2 hrest
  | frame f body rest =>
    obtain ⟨s, _, hs, -, rfl⟩ := List.forall₂_cons_left_iff.mp h
    exact absurd hs (parseStep_frame f _ _ s)
  | call f body info rest ihbody ihrest =>
    obtain ⟨s, _, hs, hrest, rfl⟩ := List.forall₂_cons_left_iff.mp h
    obtain ⟨hinfo, hnests⟩ := parseStep_call.mp hs
    have hmem : s.kind.recordName ∈ nests := hinfo.kind.name ▸ (callName_eq_some hc.1).1
    obtain ⟨g, hg⟩ := Option.isSome_iff_exists.mp (frame?_isSome_of_mem_nests hmem)
    exact ⟨ihbody hc.2.1 (hnests g hg).2, ihrest hc.2.2 hrest⟩

/-- An expected host I/O, with a frame for the host I/Os that enter one. -/
theorem HostioInfo.Expected.exists_of {info : HostioInfo} (h : info.Expected) (g : TraceFrame) :
    ∃ s : Hostio TraceFrame, s.Of info ∧
      s.kind.frame? = if info.name ∈ nests then some g else none := by
  obtain ⟨kind, hread, hkind⟩ := h
  refine ⟨⟨kind.map fun _ => g, info.startInk, info.endInk⟩, ⟨hread.map _, rfl, rfl⟩, ?_⟩
  have hsome := frame?_isSome hkind
  rw [← hread.name] at hsome
  rw [HostioKind.frame?_map]
  split_ifs with hmem
  · obtain ⟨u, hu⟩ := Option.isSome_iff_exists.mp (hsome.mpr hmem)
    rw [hu, Option.map_some]
  · rw [Option.not_isSome_iff_eq_none.mp (mt hsome.mp hmem), Option.map_none]

/-- The records of a tree whose frames are merged are read, one step for each. -/
theorem parse_of_merged (c : CallTree) (hc : c.WellFormed) (he : c.Expected) (hm : c.Merged) :
    ∃ hs, List.Forall₂ (fun v s => parseStep v = .ok s) c.records hs ∧ c.OnePerRecord hs := by
  induction c with
  | nil => exact ⟨[], .nil, rfl⟩
  | hostio info rest ih =>
    obtain ⟨hs, hparse, hone⟩ := ih hc.2 he.2 hm
    obtain ⟨s, hs', hframe⟩ := he.1.exists_of (.mk [] none)
    rw [if_neg hc.1] at hframe
    exact ⟨s :: hs, .cons (parseStep_hostio hs' hframe) hparse, s, hs, rfl, hs', hframe, hone⟩
  | frame => exact hm.elim
  | call f body info rest ihbody ihrest =>
    obtain ⟨steps, hsteps, hbody⟩ := ihbody hc.2.1 he.2.1 hm.1
    obtain ⟨hs, hparse, hone⟩ := ihrest hc.2.2 he.2.2 hm.2
    obtain ⟨s, hs', hframe⟩ := he.1.exists_of (.mk steps (some f.getTo))
    rw [if_pos (callName_eq_some hc.1).1] at hframe
    refine ⟨s :: hs, .cons (parseStep_call.mpr ⟨hs', fun g hg => ?_⟩) hparse, s, _, hs, rfl, hs',
      hframe, rfl, hbody, hone⟩
    obtain rfl := Option.some.inj (hframe.symm.trans hg)
    exact ⟨rfl, hsteps⟩

/-- **The parser reads the tracer's output exactly when every frame is merged.** -/
theorem parse_tracer_iff (c : CallTree) (hc : c.WellFormed) (he : c.Expected)
    (address : Option Address) :
    (∃ t v f, Tracer.init.run c.events = some t ∧ t.result = some v ∧
      parseFrame v address = .ok f ∧ c.OnePerRecord f.steps) ↔ c.Merged := by
  obtain ⟨t, hrun, -, hresult⟩ := run_init c hc
  refine ⟨fun h => ?_, fun hm => ?_⟩
  · obtain ⟨t', v, f, hrun', hresult', hparse, -⟩ := h
    obtain rfl : t' = t := Option.some.inj (hrun'.symm.trans hrun)
    obtain rfl : v = .array c.records := Option.some.inj (hresult'.symm.trans hresult)
    obtain ⟨_, ⟨⟩, -, hsteps⟩ := parseFrame_eq_ok.mp hparse
    exact merged_of_parse c hc hsteps
  · obtain ⟨hs, hparse, hone⟩ := parse_of_merged c hc he hm
    exact ⟨t, _, .mk hs address, hrun, hresult, parseFrame_eq_ok.mpr ⟨_, rfl, rfl, hparse⟩, hone⟩

theorem sampleCall_expected {rest : CallTree} (h : rest.Expected) :
    (sampleCall rest).Expected :=
  ⟨⟨.callContract (filled 20 0xab) [1, 2] 5000 7 3 0 (), ⟨rfl, trivial, rfl, rfl⟩,
    fun _ _ => nofun⟩, ⟨⟨.msgReentrant true, ⟨rfl, trivial, rfl, 1, rfl, rfl⟩, fun _ _ => nofun⟩,
    trivial⟩, h⟩

theorem parse_sampleCall : ∃ t v f, Tracer.init.run (sampleCall .nil).events = some t ∧
    t.result = some v ∧ parseFrame v none = .ok f ∧ (sampleCall .nil).OnePerRecord f.steps :=
  (parse_tracer_iff (sampleCall .nil) (sampleCall_wellFormed trivial)
    (sampleCall_expected trivial) none).mpr ⟨trivial, trivial⟩

/-- The record of a contract creation is not read. -/
theorem sampleTree_not_parsed : sampleTree.WellFormed ∧ sampleTree.Expected ∧
    sampleTree.Listed ∧ ¬∃ t v f, Tracer.init.run sampleTree.events = some t ∧
      t.result = some v ∧ parseFrame v none = .ok f ∧ sampleTree.OnePerRecord f.steps := by
  have hc : sampleTree.WellFormed := sampleCall_wellFormed ⟨trivial, trivial⟩
  refine ⟨hc, sampleCall_expected ⟨trivial, trivial⟩,
    ⟨by decide, trivial, by decide, trivial, trivial⟩, ?_⟩
  rintro ⟨t, v, f, hrun, hresult, hparse, -⟩
  obtain ⟨t', hrun', -, hresult'⟩ := run_init sampleTree hc
  obtain rfl : t' = t := Option.some.inj (hrun'.symm.trans hrun)
  obtain rfl : v = .array sampleTree.records := Option.some.inj (hresult.symm.trans hresult')
  obtain ⟨_, ⟨⟩, -, hsteps⟩ := parseFrame_eq_ok.mp hparse
  exact (merged_of_parse sampleTree hc hsteps).2

end CargoStylus
