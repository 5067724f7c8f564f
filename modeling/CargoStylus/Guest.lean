import CargoStylus.Replay

/-!
# The guest of a replay

A contract is what it does from one host I/O to the next, which depends on its memory and on what
the last one returned (`Guest`). On chain its run is recorded : the records have what it passed
and what it got (`Guest.OnChain`). A replay answers the host I/Os of the guest from records
(`Guest.replay`).

A replay ends with a status exactly if the guest's run on chain with that status is what the
first of the records are of (`replays_iff_onChain`). So the guest is replayed as it ran, and no
guest that runs otherwise is replayed. The records after those are not looked at.

Two host functions do not compare what they are passed, some are for records that none of
them returns from, and for the code of an account and for data longer than a length can say
the results are others (`HostioKind.Replayable`).
-/

namespace CargoStylus

open Rust HostM HostCall

/-! ## Guests -/

/-- A contract, which makes a host call in some memory and goes on from the memory it has after
the call and from what is returned. -/
inductive Guest where
  | exit (status : ℕ)
  | call (memory : Memory) (hostCall : HostCall) (next : Memory → Option ℕ → Guest)

namespace Guest

/-- The guest as the host functions of a replay answer it. -/
def replay : Guest → Replay → Outcome String (ℕ × Replay)
  | exit status, s => .ok (status, s)
  | call memory hostCall next, s => do
    let (ret, s) ← hostCall.exec.run { s with memory }
    (next s.memory ret).replay s

/-- On chain the guest runs to the end with the status, and `steps` is recorded of it. Before the
record of a call there are only records of work that the guest does not do by calling. -/
inductive OnChain : Guest → List (Hostio TraceFrame) → ℕ → Prop
  | exit {steps : List (Hostio TraceFrame)} {status : ℕ}
      (skipped : ∀ h ∈ steps, h.kind.name ∈ skippable) : OnChain (.exit status) steps status
  | call {m m' : Memory} {hostCall : HostCall} {next : Memory → Option ℕ → Guest}
      {before steps : List (Hostio TraceFrame)} {h : Hostio TraceFrame} {status : ℕ}
      (skipped : ∀ k ∈ before, k.kind.name ∈ skippable ∧ k.kind.name ≠ h.kind.name)
      (passes : Passes m hostCall h.kind)
      (holds : Memory.Holds m m' (hostCall.dests.zip h.kind.results))
      (rest : OnChain (next m' h.kind.returned) steps status) :
      OnChain (.call m hostCall next) (before ++ h :: steps) status

end Guest

/-! ## Records that are replayed -/

/-- The results of a creation do not lie over each other. -/
def HostCall.Apart : HostCall → Prop
  | create1 _ _ _ contract revertDataLenPtr =>
    contract + 20 ≤ revertDataLenPtr ∨ revertDataLenPtr + 4 ≤ contract
  | create2 _ _ _ _ contract revertDataLenPtr =>
    contract + 20 ≤ revertDataLenPtr ∨ revertDataLenPtr + 4 ≤ contract
  | _ => True

/-- No call of the guest gets results that lie over each other. -/
def Guest.Apart : Guest → Prop
  | .exit _ => True
  | .call _ hostCall next => hostCall.Apart ∧ ∀ m ret, (next m ret).Apart

/-- A call of the record's host I/O returns, compares what it is passed, and has the results that
were recorded. -/
def HostioKind.Replayable (kind : HostioKind TraceFrame) : Prop :=
  kind.name ∉ unreplayable ∧ match kind with
    | .exitEarly _ | .storageFlushCache _ | .accountCode .. => False
    | .readReturnData _ _ data => data.length < 2 ^ 32
    | _ => True

variable {call : HostCall} {kind : HostioKind TraceFrame}

theorem faithful_of_replayable (hc : Corresponds call kind) (hkind : kind.Replayable)
    (hapart : call.Apart) (m : Memory) : Faithful m call kind := by
  cases hc
  case accountCode => exact hkind.2.elim
  case readReturnData => exact hkind.2
  case create1 address revertDataLen | create2 address revertDataLen =>
    refine Memory.agree_of_apart ?_
    rw [address.2, (toLeBytes 4 revertDataLen).2]
    exact hapart
  all_goals trivial

theorem readable_of_replayable (hkind : kind.Replayable) (behind : Option Memory) :
    kind.Readable behind := by
  cases kind
  case accountCode => exact hkind.2.elim
  all_goals trivial

theorem compared_of_replayable (hc : Corresponds call kind) (hkind : kind.Replayable) :
    call.Compared := by
  cases hc
  case exitEarly => exact hkind.2.elim
  case storageFlushCache => exact hkind.2.elim
  all_goals trivial

/-! ## Replays and runs on chain -/

/-- What a host call of a record does. -/
theorem replayed_of_run {s s' : Replay} {ret : Option ℕ} {hostio : Hostio TraceFrame}
    {reader : FrameReader} (htakes : s.Takes call.name hostio reader)
    (hrun : call.exec.run s = .ok (ret, s')) (hkind : hostio.kind.Replayable)
    (hapart : call.Apart) : Passes s.memory call hostio.kind ∧
      Memory.Holds s.memory s'.memory (call.dests.zip hostio.kind.results) ∧
      ret = hostio.kind.returned ∧ s'.frame = some reader := by
  obtain ⟨hostio', reader', htakes', hanswers⟩ := answers_of_run hrun
  obtain ⟨rfl, rfl⟩ := htakes.unique htakes'
  have hfaithful := faithful_of_replayable hanswers.corresponds hkind hapart s.memory
  obtain ⟨hholds, hret⟩ := (copied_iff_faithful _ hanswers.corresponds).2 hfaithful s.beyond
  have hinputs := hanswers.inputs (compared_of_replayable hanswers.corresponds hkind)
  refine ⟨⟨hanswers.corresponds, hinputs⟩, ?_, hanswers.ret.trans hret, ?_⟩
  · rw [hanswers.state]
    exact hholds
  · rw [hanswers.state]
    rfl

variable {g : Guest} {steps : List (Hostio TraceFrame)} {status : ℕ}

/-- A run on chain is replayed, with what is recorded after it left. -/
theorem Guest.OnChain.replay (h : g.OnChain steps status) (hapart : g.Apart)
    (hsteps : ∀ h ∈ steps, h.kind.Replayable) (rest : List (Hostio TraceFrame)) {s : Replay}
    {r : FrameReader} (hs : s.frame = some r) (hr : r.steps = steps ++ rest) :
    ∃ s' r' skipped, g.replay s = .ok (status, s') ∧ s'.frame = some r' ∧
      r'.steps = skipped ++ rest ∧ ∀ k ∈ skipped, k.kind.name ∈ skippable := by
  induction h generalizing s r with
  | @exit steps status hskipped => exact ⟨s, r, steps, rfl, hs, hr, hskipped⟩
  | @call m m' hostCall next before steps h status hskipped hpasses hholds _ ih =>
    obtain ⟨hkind, hsteps'⟩ := List.forall_mem_cons.1 (List.forall_mem_append.1 hsteps).2
    have hworks := (works_iff hpasses.corresponds).2 hkind.1
    have htakes : Replay.Takes { s with memory := m } hostCall.name h
        ⟨r.frame, steps ++ rest⟩ := by
      rw [name_eq_of_works hpasses.corresponds hworks]
      refine ⟨r, hs, rfl, rfl, before, ?_, hskipped⟩
      rw [hr, List.append_assoc, List.cons_append]
    obtain ⟨ret, t, hrun, -⟩ := run_of_takes hostCall _ hworks hpasses.corresponds
      hpasses.inputs htakes (readable_of_replayable hkind _)
    obtain ⟨-, hholds', rfl, hframe⟩ := replayed_of_run htakes hrun hkind hapart.1
    obtain rfl : m' = t.memory := hholds.unique hholds'
    obtain ⟨s', r', skipped, hreplay, hrest⟩ := ih (hapart.2 _ _) hsteps' hframe rfl
    refine ⟨s', r', skipped, ?_, hrest⟩
    rw [Guest.replay, hrun, Outcome.ok_bind]
    exact hreplay

/-- A replay that ends is a run on chain, of which the records that were taken are. -/
theorem Guest.onChain_of_replay {s s' : Replay} (h : g.replay s = .ok (status, s'))
    (hapart : g.Apart) {r : FrameReader} (hs : s.frame = some r)
    (hsteps : ∀ h ∈ r.steps, h.kind.Replayable) :
    ∃ steps r', s'.frame = some r' ∧ r.steps = steps ++ r'.steps ∧ g.OnChain steps status := by
  induction g generalizing s r with
  | exit status' =>
    obtain ⟨rfl, rfl⟩ := Prod.mk.inj (Outcome.ok.inj h)
    exact ⟨[], r, hs, rfl, .exit nofun⟩
  | call m hostCall next ih =>
    obtain ⟨⟨ret, t⟩, hrun, hreplay⟩ := Outcome.bind_eq_ok.1 h
    obtain ⟨hostio, reader, htakes, -⟩ := answers_of_run hrun
    have hreplayed := replayed_of_run htakes hrun
    obtain ⟨r', hr', -, hname, before, hsteps', hskipped⟩ := htakes
    obtain rfl := Option.some.inj (hs.symm.trans hr')
    have hkinds := hsteps
    rw [hsteps', List.forall_mem_append, List.forall_mem_cons] at hkinds
    obtain ⟨-, hkind, hrest⟩ := hkinds
    obtain ⟨hpasses, hholds, rfl, hframe⟩ := hreplayed hkind hapart.1
    obtain ⟨steps, r', hs', hr', honChain⟩ := ih _ _ hreplay (hapart.2 _ _) hframe hrest
    refine ⟨before ++ hostio :: steps, r', hs', ?_, .call ?_ hpasses hholds honChain⟩
    · rw [hsteps', hr', List.append_assoc, List.cons_append]
    · rw [hname]
      exact hskipped

/-- **A guest is replayed to a status** exactly if the first of the records are of a run of it on
chain with that status. -/
theorem replays_iff_onChain (frame : TraceFrame) (hsteps : ∀ h ∈ frame.steps, h.kind.Replayable)
    (g : Guest) (hapart : g.Apart) {s : Replay} (hs : s.frame = some frame.reader)
    (status : ℕ) : (∃ s', g.replay s = .ok (status, s')) ↔
      ∃ steps rest, frame.steps = steps ++ rest ∧ g.OnChain steps status := by
  refine ⟨fun h => ?_, fun h => ?_⟩
  · obtain ⟨s', hreplay⟩ := h
    obtain ⟨steps, r', -, hr', honChain⟩ := Guest.onChain_of_replay hreplay hapart hs hsteps
    exact ⟨steps, r'.steps, hr', honChain⟩
  · obtain ⟨steps, rest, hframe, honChain⟩ := h
    rw [hframe, List.forall_mem_append] at hsteps
    obtain ⟨s', _, _, hreplay, -⟩ := honChain.replay hapart hsteps.1 rest hs hframe
    exact ⟨s', hreplay⟩

/-- A contract that asks for its sender. -/
def senderGuest : Guest :=
  .call (fun _ => 0) (.msgSender 64) fun _ _ => .exit 0

theorem senderGuest_onChain : senderGuest.OnChain senderFrame.steps 0 := by
  have hexit : (Guest.exit 0).OnChain [⟨.userReturned 0, 50, 40⟩] 0 := .exit (by decide)
  refine @Guest.OnChain.call _ _ _ _ [⟨.userEntrypoint 0, 90, 80⟩] _
    ⟨.msgSender (toBeBytes 20 0xab), 70, 60⟩ _ ?_ ⟨.msgSender, rfl⟩ (Memory.holds_write _ _ _) hexit
  decide

theorem senderFrame_replayable : ∀ h ∈ senderFrame.steps, h.kind.Replayable :=
  List.forall_mem_cons.2 ⟨⟨by decide, trivial⟩, List.forall_mem_cons.2 ⟨⟨by decide, trivial⟩,
    List.forall_mem_singleton.2 ⟨by decide, trivial⟩⟩⟩

theorem senderGuest_apart : senderGuest.Apart :=
  ⟨trivial, fun _ _ => trivial⟩

theorem senderGuest_replays :
    ∃ s', senderGuest.replay (startReplay senderFrame) = .ok (0, s') :=
  (replays_iff_onChain senderFrame senderFrame_replayable senderGuest senderGuest_apart rfl 0).2
    ⟨_, [], (List.append_nil _).symm, senderGuest_onChain⟩

end CargoStylus
