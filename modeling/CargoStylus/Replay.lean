import CargoStylus.HostRun
import CargoStylus.RoundTrip

/-!
# Replaying a trace

What a replay promises, and exactly when the host functions keep it. A call that returns
passed what was recorded, unless it is one of the two that compare nothing (`passes_iff`). It
leaves the recorded results in memory and returns the recorded integer, unless the size of a
box is copied for the code of an account (`reproduces_iff`). A guest that follows the records
is replayed to the end, whatever lies behind the buffers, unless there is a record whose function
has another's name or pattern or the code of an account is shorter than a box (`replay_iff`).
-/

namespace CargoStylus

open Rust HostM HostCall

/-! ## The record a call consumes -/

namespace Replay

/-- From `s` to `s'`, the record `hostio` was consumed, and before it only records that are
passed over. -/
def Consumes (s s' : Replay) (hostio : Hostio TraceFrame) : Prop :=
  ∃ r r', s.frame = some r ∧ s'.frame = some r' ∧
    ∃ skipped, r.steps = skipped ++ hostio :: r'.steps ∧
      ∀ h ∈ skipped, h.kind.name ∈ skippable

/-- The next record that is not passed over. -/
def pending (s : Replay) : Option (Hostio TraceFrame) :=
  s.frame.bind fun r => r.steps.find? fun h => h.kind.name ∉ skippable

theorem Takes.consumes {s s' : Replay} {name : String} {hostio : Hostio TraceFrame}
    {reader : FrameReader} (h : s.Takes name hostio reader) (hs' : s'.frame = some reader) :
    s.Consumes s' hostio := by
  obtain ⟨r, hr, -, -, skipped, hsteps, hskipped⟩ := h
  exact ⟨r, reader, hr, hs', skipped, hsteps, fun h hh => (hskipped h hh).1⟩

theorem Takes.unique {s : Replay} {name : String} {hostio hostio' : Hostio TraceFrame}
    {reader reader' : FrameReader} (h : s.Takes name hostio reader)
    (h' : s.Takes name hostio' reader') : hostio = hostio' ∧ reader = reader' := by
  obtain ⟨r, hr, htakes⟩ := h
  obtain ⟨r', hr', htakes'⟩ := h'
  obtain rfl := Option.some.inj (hr.symm.trans hr')
  have hnext := FrameReader.nextHostio_eq_ok.2 htakes
  rw [FrameReader.nextHostio_eq_ok.2 htakes'] at hnext
  obtain ⟨rfl, rfl⟩ := Prod.mk.inj (Outcome.ok.inj hnext)
  exact ⟨rfl, rfl⟩

theorem Consumes.pending {s s' : Replay} {hostio : Hostio TraceFrame} (h : s.Consumes s' hostio)
    (hname : hostio.kind.name ∉ skippable) : s.pending = some hostio := by
  obtain ⟨r, r', hr, -, skipped, hsteps, hskipped⟩ := h
  rw [Replay.pending, hr, Option.bind_some, hsteps, List.find?_append,
    List.find?_eq_none.mpr (by simpa using hskipped), Option.none_or, List.find?_cons_of_pos]
  simpa using hname

theorem Consumes.unique {s s' : Replay} {hostio hostio' : Hostio TraceFrame}
    (h : s.Consumes s' hostio) (h' : s.Consumes s' hostio') : hostio = hostio' := by
  obtain ⟨r, q, hr, hq, skipped, hsteps, -⟩ := h
  obtain ⟨r', q', hr', hq', skipped', hsteps', -⟩ := h'
  obtain rfl : r = r' := Option.some.inj (hr.symm.trans hr')
  obtain rfl : q = q' := Option.some.inj (hq.symm.trans hq')
  have heq := hsteps.symm.trans hsteps'
  have hlen : skipped.length = skipped'.length := by
    have := congrArg List.length heq
    simpa using this
  exact (List.cons.inj (List.append_inj heq hlen).2).1

end Replay

/-- The guest calls the host function of a record, and passes what was recorded. -/
structure Passes (m : Memory) (call : HostCall) (kind : HostioKind TraceFrame) : Prop where
  corresponds : Corresponds call kind
  inputs : call.inputs m = kind.inputs

/-- The records of the two functions that compare nothing are not passed over. -/
theorem not_skippable_of_not_compared {call : HostCall} {kind : HostioKind TraceFrame}
    (h : Corresponds call kind) (hcompared : ¬call.Compared) : kind.name ∉ skippable := by
  cases h
  case exitEarly => simp [HostioKind.name, skippable]
  case storageFlushCache => simp [HostioKind.name, skippable]
  all_goals exact absurd trivial hcompared

/-- A frame of one record. -/
def recordFrame (kind : HostioKind TraceFrame) : TraceFrame :=
  .mk [⟨kind, 0, 0⟩] none

/-- A replay of a frame from its first record on, in a memory of zeros and with zeros behind every
buffer. -/
def startReplay (frame : TraceFrame) : Replay where
  frame := some frame.reader
  startInk := 0
  endInk := 0
  memory := fun _ => 0
  behind := some fun _ => 0
  stdout := []

theorem startReplay_takes (kind : HostioKind TraceFrame) :
    (startReplay (recordFrame kind)).Takes kind.name ⟨kind, 0, 0⟩ ⟨recordFrame kind, []⟩ :=
  ⟨_, rfl, rfl, rfl, [], rfl, by simp⟩

theorem startReplay_pending {kind : HostioKind TraceFrame} (h : kind.name ∉ skippable) :
    (startReplay (recordFrame kind)).pending = some ⟨kind, 0, 0⟩ := by
  simp [Replay.pending, startReplay, TraceFrame.reader, recordFrame, h]

/-! ## Divergence -/

/-- **A call that returns passed what was recorded**, exactly when its inputs are compared or
happen to be those of the pending record. -/
theorem passes_iff {call : HostCall} {s s' : Replay} {ret : Option ℕ}
    (h : call.exec.run s = .ok (ret, s')) :
    (∃ hostio, s.Consumes s' hostio ∧ Passes s.memory call hostio.kind) ↔
      call.Compared ∨ ∀ hostio, s.pending = some hostio →
        call.inputs s.memory = hostio.kind.inputs := by
  obtain ⟨hostio, reader, htakes, hanswers⟩ := answers_of_run h
  have hconsumes : s.Consumes s' hostio := htakes.consumes (by rw [hanswers.state]; rfl)
  refine ⟨fun h => ?_, fun hcond => ?_⟩
  · obtain ⟨hostio', hconsumes', hcorresponds, hinputs⟩ := h
    obtain rfl := hconsumes.unique hconsumes'
    by_cases hcompared : call.Compared
    · exact .inl hcompared
    · refine .inr fun hostio' hpending => ?_
      have hname := not_skippable_of_not_compared hcorresponds hcompared
      obtain rfl := Option.some.inj ((hconsumes.pending hname).symm.trans hpending)
      exact hinputs
  · refine ⟨hostio, hconsumes, hanswers.corresponds, ?_⟩
    by_cases hcompared : call.Compared
    · exact hanswers.inputs hcompared
    · have hname := not_skippable_of_not_compared hanswers.corresponds hcompared
      exact (hcond.resolve_left hcompared) hostio (hconsumes.pending hname)

/-- A load whose key is the recorded one. -/
theorem storageLoadBytes32_passes : ∃ ret s', (storageLoadBytes32 0 32).exec.run
    (startReplay (recordFrame (.storageLoadBytes32 (toBeBytes 32 0) (toBeBytes 32 7)))) =
      .ok (ret, s') ∧ ∃ hostio, Replay.Consumes
        (startReplay (recordFrame (.storageLoadBytes32 (toBeBytes 32 0) (toBeBytes 32 7)))) s'
        hostio ∧ Passes (fun _ => 0) (storageLoadBytes32 0 32) hostio.kind := by
  obtain ⟨ret, s', hrun, -⟩ := run_of_takes (storageLoadBytes32 0 32) _ trivial
    .storageLoadBytes32 (by decide)
    (startReplay_takes (.storageLoadBytes32 (toBeBytes 32 0) (toBeBytes 32 7))) trivial
  exact ⟨ret, s', hrun, (passes_iff hrun).mpr (.inl trivial)⟩

/-- An early exit with another status than the recorded one returns. -/
theorem exitEarly_not_passes : ∃ s', (exitEarly 1).exec.run
    (startReplay (recordFrame (.exitEarly 0))) = .ok (none, s') ∧
      ¬∃ hostio, Replay.Consumes (startReplay (recordFrame (.exitEarly 0))) s' hostio ∧
        Passes (fun _ => 0) (exitEarly 1) hostio.kind := by
  have htakes := startReplay_takes (.exitEarly 0)
  refine ⟨_, unit_run.mpr ⟨HostFn.ignore_run.mpr ⟨_, _, 0, htakes, rfl, rfl⟩, rfl⟩, ?_⟩
  rintro ⟨hostio, hconsumes, hpasses⟩
  obtain rfl := hconsumes.unique (htakes.consumes rfl)
  exact absurd hpasses.inputs (by decide)

/-! ## Results -/

/-- The length of the data fits the result, the size of the box is that of the code or memory
already holds the rest of the code, and the two results of a creation agree where they overlap. -/
def Faithful (m : Memory) : HostCall → HostioKind TraceFrame → Prop
  | .accountCode _ _ _ dest, .accountCode _ _ _ code =>
    code.length < 2 ^ 32 ∧ sizeOfBox ≤ code.length ∧
      m.read (dest + sizeOfBox) (code.length - sizeOfBox) = code.drop sizeOfBox
  | .readReturnData .., .readReturnData _ _ data => data.length < 2 ^ 32
  | .create1 _ _ _ contract revertDataLenPtr, .create1 _ _ address revertDataLen =>
    Memory.Agree (contract, address.1) (revertDataLenPtr, (toLeBytes 4 revertDataLen).1)
  | .create2 _ _ _ _ contract revertDataLenPtr, .create2 _ _ _ address revertDataLen =>
    Memory.Agree (contract, address.1) (revertDataLenPtr, (toLeBytes 4 revertDataLen).1)
  | _, _ => True

/-- After the call, memory holds the results recorded for it and nothing else has changed, and
the integer returned is the recorded one : whatever lies behind the buffers copied from. -/
def Reproduces (s : Replay) (call : HostCall) : Prop :=
  ∀ behind ret s', call.exec.run { s with behind := behind } = .ok (ret, s') →
    ∃ hostio, s.Consumes s' hostio ∧ Corresponds call hostio.kind ∧
      Memory.Holds s.memory s'.memory (call.dests.zip hostio.kind.results) ∧
      ret = hostio.kind.returned

/-- Copying the size of a box holds exactly where the box's size is not over the code's and
memory has the rest of the code already. -/
theorem holds_boxBytes (m : Memory) (dest : ℕ) (code : Bytes) :
    (∀ behind, Memory.Holds m (m.write dest (boxBytes code behind)) [(dest, code)]) ↔
      sizeOfBox ≤ code.length ∧
        m.read (dest + sizeOfBox) (code.length - sizeOfBox) = code.drop sizeOfBox := by
  have htake : ∀ behind, sizeOfBox ≤ code.length →
      boxBytes code behind = code.take sizeOfBox := by
    intro behind hle
    simp [boxBytes, Nat.sub_eq_zero_of_le hle, Memory.read]
  refine ⟨fun h => ?_, fun h => ?_⟩
  · have hle : sizeOfBox ≤ code.length := by
      by_contra hlt
      -- the byte behind the code is copied to where another was
      have hframe := (h fun _ => m (dest + code.length) + 1).frame (dest + code.length) (by simp)
      have hlen : (boxBytes code fun _ => m (dest + code.length) + 1).length = sizeOfBox := by
        simp only [boxBytes, List.length_append, List.length_take, Memory.length_read]
        omega
      rw [Memory.write_of_mem _ (by omega) (by rw [hlen]; omega), Nat.add_sub_cancel_left] at hframe
      have hbehind : (0 : ℕ) < sizeOfBox - code.length := by omega
      simp [boxBytes, Memory.read, List.getD_eq_getElem?_getD,
        Nat.min_eq_right (Nat.le_of_not_le hlt), hbehind] at hframe
    exact ⟨hle, (Memory.holds_write_take hle).mp (htake (fun _ => 0) hle ▸ h fun _ => 0)⟩
  · obtain ⟨hle, hread⟩ := h
    intro behind
    rw [htake behind hle]
    exact (Memory.holds_write_take hle).mpr hread

/-- What is copied and returned for a record is what was recorded, exactly when the call is
faithful. -/
theorem copied_iff_faithful {call : HostCall} {kind : HostioKind TraceFrame} (m : Memory)
    (hc : Corresponds call kind) :
    (∀ behind, Memory.Holds m (writeAll m (call.dests.zip (kind.copied behind)))
      (call.dests.zip kind.results) ∧ kind.answer = kind.returned) ↔ Faithful m call kind := by
  cases hc
  case accountCode =>
    refine ⟨fun h => ?_, fun h => ?_⟩
    · exact ⟨(Nat.mod_eq_iff_lt (by norm_num)).mp (Option.some.inj (h fun _ => 0).2),
        (holds_boxBytes _ _ _).mp fun behind => (h behind).1⟩
    · obtain ⟨hlt, hbox⟩ := h
      intro behind
      have hlen := (Nat.mod_eq_iff_lt (by norm_num)).mpr hlt
      exact ⟨(holds_boxBytes _ _ _).mpr hbox behind, congrArg some hlen⟩
  case readReturnData =>
    refine ⟨fun h => ?_, fun hlt => ?_⟩
    · exact (Nat.mod_eq_iff_lt (by norm_num)).mp (Option.some.inj (h fun _ => 0).2)
    · intro behind
      have hlen := (Nat.mod_eq_iff_lt (by norm_num)).mpr hlt
      exact ⟨Memory.holds_write _ _ _, congrArg some hlen⟩
  case create1 | create2 =>
    refine ⟨fun h => (Memory.holds_write_two _ _ _ _ _).mp (h fun _ => 0).1, fun h _ =>
      ⟨(Memory.holds_write_two _ _ _ _ _).mpr h, rfl⟩⟩
  case readArgs | storageLoadBytes32 | transientLoadBytes32 | accountBalance | accountCodehash |
      blockBasefee | blockCoinbase | callContract | delegateCallContract | staticCallContract |
      contractAddress | mathDiv | mathMod | mathPow | mathAddMod | mathMulMod | msgSender |
      msgValue | nativeKeccak256 | txGasPrice | txOrigin =>
    exact iff_of_true (fun _ => ⟨Memory.holds_write _ _ _, rfl⟩) trivial
  all_goals exact iff_of_true (fun _ => ⟨Memory.holds_nil _, rfl⟩) trivial

theorem faithful_of_not_compared {call : HostCall} (h : ¬call.Compared) (m : Memory)
    (kind : HostioKind TraceFrame) : Faithful m call kind := by
  cases call
  case exitEarly => trivial
  case storageFlushCache => trivial
  all_goals exact absurd trivial h

/-- Only a call that pays for memory takes a record that others pass over. -/
theorem faithful_of_skippable {call : HostCall} {kind : HostioKind TraceFrame}
    (hc : Corresponds call kind) (h : kind.name ∈ skippable) (m : Memory)
    (kind' : HostioKind TraceFrame) : Faithful m call kind' := by
  cases hc
  case payForMemoryGrow => trivial
  all_goals simp [HostioKind.name, skippable] at h

theorem HostioKind.Readable.some {kind : HostioKind TraceFrame} {behind : Option Memory}
    (h : kind.Readable behind) (m : Memory) : kind.Readable (.some m) := by
  cases kind
  case accountCode => exact ⟨h.1, .inr nofun⟩
  all_goals trivial

/-- A call that reproduces its results is faithful to the pending record. -/
theorem faithful_of_reproduces {call : HostCall} {s s' : Replay} {ret : Option ℕ}
    (hrun : call.exec.run s = .ok (ret, s')) (h : Reproduces s call)
    {hostio : Hostio TraceFrame} (hpending : s.pending = some hostio) :
    Faithful s.memory call hostio.kind := by
  by_cases hcompared : call.Compared
  case neg => exact faithful_of_not_compared hcompared _ _
  obtain ⟨taken, reader, htakes, hanswers⟩ := answers_of_run hrun
  have hconsumes : s.Consumes s' taken := htakes.consumes (by rw [hanswers.state]; rfl)
  by_cases hname : taken.kind.name ∈ skippable
  · exact faithful_of_skippable hanswers.corresponds hname _ _
  obtain rfl := Option.some.inj ((hconsumes.pending hname).symm.trans hpending)
  refine (copied_iff_faithful _ hanswers.corresponds).mp fun behind => ?_
  -- the call returns whatever lies behind the buffers
  obtain ⟨ret', t, hrun', -⟩ := run_of_takes call { s with behind := some behind }
    (works_of_run hrun) hanswers.corresponds (hanswers.inputs hcompared) htakes
    (hanswers.readable.some behind)
  obtain ⟨hostio', hconsumes', -, hholds, hret⟩ := h (some behind) ret' t hrun'
  obtain ⟨taken', reader', htakes', hanswers'⟩ := answers_of_run hrun'
  obtain rfl : taken' = hostio' :=
    Replay.Consumes.unique (htakes'.consumes (by rw [hanswers'.state]; rfl)) hconsumes'
  have hname' : taken'.kind.name ∉ skippable := by rwa [htakes'.name, ← htakes.name]
  obtain rfl : taken' = taken :=
    Option.some.inj ((hconsumes'.pending hname').symm.trans hpending)
  rw [hanswers'.state] at hholds
  exact ⟨hholds, hanswers'.ret.symm.trans hret⟩

/-- A call that is faithful to the pending record reproduces its results. -/
theorem reproduces_of_faithful {call : HostCall} {s : Replay}
    (h : ∀ hostio, s.pending = some hostio → Faithful s.memory call hostio.kind) :
    Reproduces s call := by
  intro behind ret s' hrun
  obtain ⟨taken, reader, htakes, hanswers⟩ := answers_of_run hrun
  have hconsumes : s.Consumes s' taken :=
    Replay.Takes.consumes htakes (by rw [hanswers.state]; rfl)
  have hfaithful : Faithful s.memory call taken.kind := by
    by_cases hname : taken.kind.name ∈ skippable
    · exact faithful_of_skippable hanswers.corresponds hname _ _
    · exact h taken (hconsumes.pending hname)
  obtain ⟨hholds, hret⟩ := (copied_iff_faithful _ hanswers.corresponds).mpr hfaithful
    (Replay.beyond { s with behind := behind })
  refine ⟨taken, hconsumes, hanswers.corresponds, ?_, hanswers.ret.trans hret⟩
  rw [hanswers.state]
  exact hholds

/-- **A call reproduces the recorded results** exactly when it is faithful to the pending
record. -/
theorem reproduces_iff {call : HostCall} {s : Replay} (h : (call.exec.run s).IsOk) :
    Reproduces s call ↔
      ∀ hostio, s.pending = some hostio → Faithful s.memory call hostio.kind := by
  obtain ⟨⟨ret, s'⟩, hrun⟩ := h
  exact ⟨fun hreproduces _ => faithful_of_reproduces hrun hreproduces, reproduces_of_faithful⟩

theorem msgValue_reproduces :
    Reproduces (startReplay (recordFrame (.msgValue (toBeBytes 32 5)))) (msgValue 64) := by
  obtain ⟨ret, s', hrun, -⟩ := run_of_takes (msgValue 64) _ trivial .msgValue rfl
    (startReplay_takes (.msgValue (toBeBytes 32 5))) trivial
  exact (reproduces_iff ⟨_, hrun⟩).mpr fun _ _ => trivial

/-- Of 20 bytes of code, 16 are copied. -/
theorem accountCode_not_reproduces :
    ((accountCode 0 0 20 64).exec.run (startReplay (recordFrame
      (.accountCode (toBeBytes 20 0) 0 20 (List.replicate 20 1))))).IsOk ∧
    ¬Reproduces (startReplay (recordFrame
      (.accountCode (toBeBytes 20 0) 0 20 (List.replicate 20 1)))) (accountCode 0 0 20 64) := by
  have htakes := startReplay_takes (.accountCode (toBeBytes 20 0) 0 20 (List.replicate 20 1))
  obtain ⟨ret, s', hrun, -⟩ := run_of_takes (accountCode 0 0 20 64) _ trivial .accountCode
    (by decide) htakes ⟨by decide, .inl (by decide)⟩
  refine ⟨⟨_, hrun⟩, fun h => ?_⟩
  have hfaithful := faithful_of_reproduces hrun h (startReplay_pending (by decide))
  exact absurd hfaithful.2.2 (by decide)

/-! ## Whole replays -/

/-- The calls of a guest, each with the memory it is made in, follow the records : one call for
each record that is not passed over, passing what was recorded. No call follows an EVM frame. -/
inductive Follows : List (Hostio TraceFrame) → List (Memory × HostCall) → Prop where
  | nil : Follows [] []
  | skip {h : Hostio TraceFrame} {steps : List (Hostio TraceFrame)}
      {calls : List (Memory × HostCall)} (name : h.kind.name ∈ skippable)
      (rest : Follows steps calls) : Follows (h :: steps) calls
  | call {h : Hostio TraceFrame} {steps : List (Hostio TraceFrame)} {m : Memory}
      {call : HostCall} {calls : List (Memory × HostCall)} (name : h.kind.name ∉ skippable)
      (passes : Passes m call h.kind) (rest : Follows steps calls) :
      Follows (h :: steps) ((m, call) :: calls)

/-- The calls of a guest, one after the other. -/
def runCalls : Replay → List (Memory × HostCall) → Outcome String Replay
  | s, [] => .ok s
  | s, (m, call) :: calls => do
    let (_, s) ← call.exec.run { s with memory := m }
    runCalls s calls

/-- The records no call of theirs returns from. -/
def unreplayable : List String :=
  ["math_mul_mod", "console_log", "console_log_text"]

theorem works_iff {call : HostCall} {kind : HostioKind TraceFrame} (h : Corresponds call kind) :
    call.Works ↔ kind.name ∉ unreplayable := by
  cases h <;> simp [Works, HostioKind.name, unreplayable]

theorem name_eq_of_works {call : HostCall} {kind : HostioKind TraceFrame}
    (h : Corresponds call kind) (hworks : call.Works) : call.name = kind.name := by
  cases h
  case mathMulMod | logF32 | logF64 | logI32 | logI64 | logTxt => exact hworks.elim
  all_goals rfl

theorem not_unreplayable_of_skippable {name : String} (h : name ∈ skippable) :
    name ∉ unreplayable := by
  simp only [skippable, List.mem_cons, List.not_mem_nil, or_false] at h
  rcases h with rfl | rfl | rfl <;> decide

/-- The records left are `skipped` and then `steps`, and the former are passed over. -/
def Replay.Left (s : Replay) (steps : List (Hostio TraceFrame)) : Prop :=
  ∃ r skipped, s.frame = some r ∧ r.steps = skipped ++ steps ∧
    ∀ h ∈ skipped, h.kind.name ∈ skippable

theorem Replay.Left.skip {s : Replay} {h : Hostio TraceFrame} {steps : List (Hostio TraceFrame)}
    (hs : s.Left (h :: steps)) (hname : h.kind.name ∈ skippable) : s.Left steps := by
  obtain ⟨r, skipped, hr, hsteps, hskipped⟩ := hs
  refine ⟨r, skipped ++ [h], hr, by simpa using hsteps, fun k hk => ?_⟩
  rcases List.mem_append.mp hk with hk | hk
  · exact hskipped k hk
  · exact List.mem_singleton.mp hk ▸ hname

/-- The next call takes the next record. -/
theorem Replay.Left.takes {s : Replay} {h : Hostio TraceFrame} {steps : List (Hostio TraceFrame)}
    (hs : s.Left (h :: steps)) (hname : h.kind.name ∉ skippable) (m : Memory) :
    ∃ reader, Takes { s with memory := m } h.kind.name h reader ∧ reader.steps = steps := by
  obtain ⟨r, skipped, hr, hsteps, hskipped⟩ := hs
  refine ⟨⟨r.frame, steps⟩, ⟨r, hr, rfl, rfl, skipped, hsteps, fun k hk => ⟨hskipped k hk, ?_⟩⟩,
    rfl⟩
  rintro heq
  exact hname (heq ▸ hskipped k hk)

/-- What is copied for a record is no longer than what was recorded. -/
def HostioKind.InBounds : HostioKind TraceFrame → Prop
  | accountCode _ _ _ code => sizeOfBox ≤ code.length
  | _ => True

/-- Something can be read behind no buffer exactly if none is needed there. -/
theorem inBounds_iff_readable (kind : HostioKind TraceFrame) :
    kind.InBounds ↔ ∀ behind, kind.Readable behind := by
  cases kind
  case accountCode code =>
    refine ⟨fun h behind => ⟨?_, .inl h⟩, fun h => ?_⟩
    · exact List.ne_nil_of_length_pos (lt_of_lt_of_le (by decide) h)
    · exact (h none).2.resolve_right fun hnone => hnone rfl
  all_goals exact ⟨fun _ _ => trivial, fun _ => trivial⟩

theorem readable_of_skippable {kind : HostioKind TraceFrame} (h : kind.name ∈ skippable)
    (behind : Option Memory) : kind.Readable behind := by
  cases kind
  case accountCode => exact absurd h (by simp [HostioKind.name, skippable])
  all_goals trivial

/-- A call leaves what lies behind the buffers. -/
theorem behind_of_run {call : HostCall} {s s' : Replay} {ret : Option ℕ}
    (h : call.exec.run s = .ok (ret, s')) : s'.behind = s.behind := by
  obtain ⟨_, _, -, hanswers⟩ := answers_of_run h
  rw [hanswers.state, Replay.after_behind]

theorem replay_iff_of_left {steps : List (Hostio TraceFrame)} {calls : List (Memory × HostCall)}
    (hf : Follows steps calls) {s : Replay} (hs : s.Left steps) :
    (runCalls s calls).IsOk ↔
      ∀ h ∈ steps, h.kind.name ∉ unreplayable ∧ h.kind.Readable s.behind := by
  induction hf generalizing s with
  | nil => simp [runCalls]
  | skip hname _ ih =>
    rw [ih (hs.skip hname), List.forall_mem_cons]
    exact (and_iff_right ⟨not_unreplayable_of_skippable hname,
      readable_of_skippable hname s.behind⟩).symm
  | @call h steps m call calls hname hpasses _ ih =>
    obtain ⟨reader, htakes, hreader⟩ := hs.takes hname m
    rw [List.forall_mem_cons, ← works_iff hpasses.corresponds]
    by_cases hworks : call.Works ∧ h.kind.Readable s.behind
    · rw [← name_eq_of_works hpasses.corresponds hworks.1] at htakes
      obtain ⟨ret, s', hrun, hframe⟩ :=
        run_of_takes call _ hworks.1 hpasses.corresponds hpasses.inputs htakes hworks.2
      rw [and_iff_right hworks, runCalls, hrun, Outcome.ok_bind,
        ih ⟨reader, [], hframe, hreader, by simp⟩, behind_of_run hrun]
    · refine iff_of_false ?_ fun h => hworks h.1
      rintro ⟨t, ht⟩
      obtain ⟨⟨ret, s'⟩, hrun, -⟩ := Outcome.bind_eq_ok.mp ht
      -- the record that is taken is the one that the call passes the inputs of
      obtain ⟨taken, reader', htakes', hanswers⟩ := answers_of_run hrun
      have hworks' := works_of_run hrun
      rw [name_eq_of_works hpasses.corresponds hworks'] at htakes'
      obtain ⟨rfl, rfl⟩ := htakes'.unique htakes
      exact hworks ⟨hworks', hanswers.readable⟩

/-- **A guest that follows the records of a frame is replayed to the end**, whatever lies behind
the buffers, exactly when no call of any of them reads there and none is unreplayable. -/
theorem replay_iff (frame : TraceFrame) {calls : List (Memory × HostCall)}
    (hf : Follows frame.steps calls) {s : Replay} (hs : s.frame = some frame.reader) :
    (∀ behind, (runCalls { s with behind := behind } calls).IsOk) ↔
      ∀ h ∈ frame.steps, h.kind.name ∉ unreplayable ∧ h.kind.InBounds := by
  have hleft : ∀ behind, Replay.Left { s with behind := behind } frame.steps :=
    fun behind => ⟨frame.reader, [], hs, rfl, by simp⟩
  refine ⟨fun h k hk => ?_, fun h behind => (replay_iff_of_left hf (hleft behind)).2 fun k hk => ?_⟩
  · have hsteps := fun behind => (replay_iff_of_left hf (hleft behind)).1 (h behind) k hk
    exact ⟨(hsteps none).1, (inBounds_iff_readable _).2 fun behind => (hsteps behind).2⟩
  · obtain ⟨hname, hbounds⟩ := h k hk
    exact ⟨hname, (inBounds_iff_readable _).1 hbounds behind⟩

/-- A frame that asks for its sender. -/
def senderFrame : TraceFrame :=
  .mk [⟨.userEntrypoint 0, 90, 80⟩, ⟨.msgSender (toBeBytes 20 0xab), 70, 60⟩,
    ⟨.userReturned 0, 50, 40⟩] none

theorem senderFrame_replayed :
    (runCalls { startReplay senderFrame with behind := none } [(fun _ => 0, msgSender 64)]).IsOk :=
  (replay_iff senderFrame (.skip (by decide) (.call (by decide) ⟨.msgSender, rfl⟩
    (.skip (by decide) .nil))) rfl).mpr
    (List.forall_mem_cons.2 ⟨⟨by decide, trivial⟩, List.forall_mem_cons.2 ⟨⟨by decide, trivial⟩,
      List.forall_mem_singleton.2 ⟨by decide, trivial⟩⟩⟩) none

/-- The frame of a multiplication is read from a trace, and no guest is replayed over it. -/
theorem mathMulMod_not_replayed :
    parseFrame (encode (recordFrame (.mathMulMod 0 0 0 0))) none =
      .ok (recordFrame (.mathMulMod 0 0 0 0)) ∧
    Follows (recordFrame (.mathMulMod 0 0 0 0)).steps [(fun _ => 0, mathMulMod 0 32 64)] ∧
    ¬(runCalls (startReplay (recordFrame (.mathMulMod 0 0 0 0)))
      [(fun _ => 0, mathMulMod 0 32 64)]).IsOk := by
  have hfollows : Follows (recordFrame (.mathMulMod 0 0 0 0)).steps
      [(fun _ => 0, mathMulMod 0 32 64)] :=
    .call (by decide) ⟨.mathMulMod, by decide⟩ .nil
  refine ⟨parseFrame_encode _ (.mk ?_ ?_), hfollows, fun h => ?_⟩
  · intro h hmem
    obtain rfl := List.mem_singleton.mp hmem
    exact ⟨fun _ => nofun, trivial, nofun⟩
  · intro h hmem f hf
    obtain rfl := List.mem_singleton.mp hmem
    cases hf
  · have hleft : (startReplay (recordFrame (.mathMulMod 0 0 0 0))).Left
        (recordFrame (.mathMulMod 0 0 0 0)).steps := ⟨_, [], rfl, rfl, by simp⟩
    exact absurd ((replay_iff_of_left hfollows hleft).mp h _ (List.mem_singleton.mpr rfl)).1
      (by decide)

end CargoStylus
