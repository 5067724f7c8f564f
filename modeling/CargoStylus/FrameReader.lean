import CargoStylus.Trace
import CargoStylus.Rust.Outcome

/-!
# Reading a trace in order

A replay takes the records of a frame one after the other. `nextHostio` is asked for a host
I/O by name. It passes over the records of work that the guest does not do by calling
(`skippable`) and returns the first other record, which must have that name : anything else
is a divergence between the local run and the chain, and a panic.
-/

namespace CargoStylus

open Rust

/-- The records of a frame that are not read yet. -/
structure FrameReader where
  frame : TraceFrame
  steps : List (Hostio TraceFrame)

/-- `Trace::reader` : a frame from its first record on. -/
def TraceFrame.reader (frame : TraceFrame) : FrameReader :=
  ⟨frame, frame.steps⟩

/-- The records that are passed over where another is expected. -/
def skippable : List String :=
  ["pay_for_memory_grow", "user_entrypoint", "user_returned"]

namespace FrameReader

/-- What is printed of a divergence. -/
def detected (frame : TraceFrame) (expected : String) : String :=
  let which := match frame.address with
    | some call => "call to " ++ toHex call.1
    | none => "contract deployment"
  "Divegence detected while simulating a " ++ which ++ " via local assembly.\n" ++
    "The simulated environment expected a call to the " ++ expected ++ " Host I/O.\n"

/-- The loop of `next_hostio`, over the records left. A panic carries what it printed. -/
def nextStep (frame : TraceFrame) (expected : String) :
    List (Hostio TraceFrame) → Outcome String (Hostio TraceFrame × FrameReader)
  | [] => .panic (detected frame expected ++
      "However, no such call is made onchain. Are you sure this the right contract?\n")
  | hostio :: steps =>
    let name := hostio.kind.name
    if name = expected then .ok (hostio, ⟨frame, steps⟩)
    else if name ∈ skippable then nextStep frame expected steps
    else .panic (detected frame expected ++ "However, onchain there's a call to " ++ name ++
      ". Are you sure this the right contract?\n")

/-- `FrameReader::next_hostio` -/
def nextHostio (reader : FrameReader) (expected : String) :
    Outcome String (Hostio TraceFrame × FrameReader) :=
  nextStep reader.frame expected reader.steps

/-- From `reader` to `reader'`, the record `hostio` was taken, and only records that are
passed over before it. -/
structure Takes (reader : FrameReader) (expected : String) (hostio : Hostio TraceFrame)
    (reader' : FrameReader) : Prop where
  frame : reader'.frame = reader.frame
  name : hostio.kind.name = expected
  steps : ∃ skipped, reader.steps = skipped ++ hostio :: reader'.steps ∧
    ∀ h ∈ skipped, h.kind.name ∈ skippable ∧ h.kind.name ≠ expected

theorem nextHostio_eq_ok {reader reader' : FrameReader} {expected : String}
    {hostio : Hostio TraceFrame} :
    reader.nextHostio expected = .ok (hostio, reader') ↔
      reader.Takes expected hostio reader' := by
  obtain ⟨frame, steps⟩ := reader
  obtain ⟨frame', steps'⟩ := reader'
  unfold nextHostio
  induction steps with
  | nil =>
    refine iff_of_false (by simp [nextStep]) ?_
    rintro ⟨-, -, skipped, hskipped, -⟩
    simp at hskipped
  | cons h steps ih =>
    simp only [nextStep]
    split_ifs with hname hskip
    · refine ⟨fun heq => ?_, fun h => ?_⟩
      · simp only [Outcome.ok.injEq, Prod.mk.injEq, mk.injEq] at heq
        obtain ⟨rfl, rfl, rfl⟩ := heq
        exact ⟨rfl, hname, [], rfl, by simp⟩
      · obtain ⟨rfl, -, skipped, hsteps, hskipped⟩ := h
        cases skipped with
        | nil =>
          obtain ⟨rfl, rfl⟩ := List.cons.inj hsteps
          rfl
        | cons k skipped =>
          obtain ⟨rfl, -⟩ := List.cons.inj hsteps
          exact absurd hname (hskipped h (by simp)).2
    · rw [ih]
      refine ⟨fun h => ?_, fun h => ?_⟩
      · obtain ⟨hframe, hhostio, skipped, hsteps, hskipped⟩ := h
        refine ⟨hframe, hhostio, h :: skipped, by simpa using hsteps, ?_⟩
        simpa using ⟨⟨hskip, hname⟩, hskipped⟩
      · obtain ⟨hframe, hhostio, skipped, hsteps, hskipped⟩ := h
        cases skipped with
        | nil =>
          obtain ⟨rfl, -⟩ := List.cons.inj hsteps
          exact absurd hhostio hname
        | cons k skipped =>
          obtain ⟨rfl, hrest⟩ := List.cons.inj hsteps
          exact ⟨hframe, hhostio, skipped, hrest, fun h hh => hskipped h (by simp [hh])⟩
    · refine iff_of_false (by simp) ?_
      rintro ⟨-, hhostio, skipped, hsteps, hskipped⟩
      cases skipped with
      | nil =>
        obtain ⟨rfl, -⟩ := List.cons.inj hsteps
        exact hname hhostio
      | cons k skipped =>
        obtain ⟨rfl, -⟩ := List.cons.inj hsteps
        exact hskip (hskipped h (by simp)).1

end FrameReader

end CargoStylus
