import CargoStylus.FrameReader
import CargoStylus.RoundTrip

/-!
# Reading past the frames of other contracts

A guest asks for the host I/Os it makes, by name and in order (`nextAll`). A frame that no
host I/O accounts for has a record too, under a name that no guest asks for and that
`nextHostio` does not pass over. So a guest that asks for the ordinary host I/Os of a frame
gets them exactly if no such record comes before an ordinary one (`tolerates_iff`).
-/

namespace CargoStylus

open Rust

namespace HostioKind

variable {F : Type}

/-- The record of a frame that no host I/O accounts for. -/
def IsEvmCall : HostioKind F → Prop
  | evmCall _ _ => True
  | _ => False

/-- A host I/O that a guest asks for. -/
def IsOrdinary (kind : HostioKind F) : Prop :=
  ¬kind.IsEvmCall ∧ kind.name ∉ skippable

instance (kind : HostioKind F) : Decidable kind.IsEvmCall := by
  unfold IsEvmCall
  split <;> infer_instance

instance (kind : HostioKind F) : Decidable kind.IsOrdinary :=
  inferInstanceAs (Decidable (_ ∧ _))

theorem name_of_isEvmCall {kind : HostioKind F} (h : kind.IsEvmCall) : kind.name = "evm_call" := by
  cases kind
  case evmCall => rfl
  all_goals exact h.elim

/-- No other record has the name of such a record. -/
theorem name_ne_of_isOrdinary {kind : HostioKind F} (h : kind.IsOrdinary) :
    kind.name ≠ "evm_call" := by
  cases kind
  case evmCall => exact absurd trivial h.1
  all_goals simp [name]

end HostioKind

namespace FrameReader

/-- The host I/Os that a guest gets which asks for them by these names, in order. -/
def nextAll : FrameReader → List String →
    Outcome String (List (Hostio TraceFrame) × FrameReader)
  | reader, [] => .ok ([], reader)
  | reader, name :: names => do
    let (hostio, reader) ← reader.nextHostio name
    let (hostios, reader) ← nextAll reader names
    return (hostio :: hostios, reader)

variable {frame : TraceFrame} {h : Hostio TraceFrame} {steps : List (Hostio TraceFrame)}
  {name : String}

theorem nextHostio_cons_self :
    nextHostio ⟨frame, h :: steps⟩ h.kind.name = .ok (h, ⟨frame, steps⟩) :=
  if_pos rfl

theorem nextHostio_cons_of_skippable (hskip : h.kind.name ∈ skippable)
    (hname : name ∉ skippable) :
    nextHostio ⟨frame, h :: steps⟩ name = nextHostio ⟨frame, steps⟩ name := by
  have hne : h.kind.name ≠ name := fun heq => hname (heq ▸ hskip)
  rw [nextHostio, nextStep, if_neg hne, if_pos hskip, nextHostio]

/-- Where a record comes that is neither asked for nor passed over, nothing is read. -/
theorem not_isOk_nextHostio_cons (hskip : h.kind.name ∉ skippable) (hne : h.kind.name ≠ name) :
    ¬(nextHostio ⟨frame, h :: steps⟩ name).IsOk := by
  rw [nextHostio, nextStep, if_neg hne, if_neg hskip]
  exact Outcome.not_isOk_panic _

end FrameReader

open FrameReader

/-- The host I/Os among `steps` that a guest asks for. -/
def ordinary (steps : List (Hostio TraceFrame)) : List (Hostio TraceFrame) :=
  steps.filter fun h => h.kind.IsOrdinary

/-- Asking for the ordinary host I/Os in order gives exactly these. -/
def Tolerates (frame : TraceFrame) (steps : List (Hostio TraceFrame)) : Prop :=
  ∃ reader, nextAll ⟨frame, steps⟩ ((ordinary steps).map fun h => h.kind.name) =
    .ok (ordinary steps, reader)

section Tolerates

variable {frame : TraceFrame} {h : Hostio TraceFrame} {steps : List (Hostio TraceFrame)}

theorem tolerates_of_ordinary_eq_nil (hnil : ordinary steps = []) : Tolerates frame steps :=
  ⟨⟨frame, steps⟩, by rw [hnil]; rfl⟩

theorem not_mem_skippable_of_mem_ordinary (hmem : h ∈ ordinary steps) :
    h.kind.name ∉ skippable := by
  have hordinary := (List.mem_filter.1 hmem).2
  exact (of_decide_eq_true hordinary).2

theorem tolerates_cons_of_isOrdinary (hordinary : h.kind.IsOrdinary) :
    Tolerates frame (h :: steps) ↔ Tolerates frame steps := by
  have hcons : ordinary (h :: steps) = h :: ordinary steps :=
    List.filter_cons_of_pos (by simpa using hordinary)
  simp only [Tolerates, hcons, List.map_cons, nextAll, nextHostio_cons_self, Outcome.ok_bind,
    Outcome.bind_eq_ok, Outcome.pure_eq, Outcome.ok.injEq, Prod.exists, Prod.mk.injEq,
    List.cons.injEq, true_and]
  refine ⟨fun h => ?_, fun h => ?_⟩
  · obtain ⟨reader, hostios, reader', hrun, rfl, rfl⟩ := h
    exact ⟨reader', hrun⟩
  · obtain ⟨reader, hrun⟩ := h
    exact ⟨reader, _, reader, hrun, rfl, rfl⟩

theorem tolerates_cons_of_skippable (hskip : h.kind.name ∈ skippable) :
    Tolerates frame (h :: steps) ↔ Tolerates frame steps := by
  have hcons : ordinary (h :: steps) = ordinary steps :=
    List.filter_cons_of_neg (by simp [HostioKind.IsOrdinary, hskip])
  rcases hsteps : ordinary steps with _ | ⟨first, rest⟩
  · exact iff_of_true (tolerates_of_ordinary_eq_nil (hcons.trans hsteps))
      (tolerates_of_ordinary_eq_nil hsteps)
  · have hmem : first ∈ ordinary steps := by
      rw [hsteps]
      exact List.mem_cons_self
    have hfirst := not_mem_skippable_of_mem_ordinary hmem
    simp only [Tolerates, hcons, hsteps, List.map_cons, nextAll,
      nextHostio_cons_of_skippable hskip hfirst]

/-- Nothing is read past the record of such a frame. -/
theorem tolerates_cons_of_isEvmCall (hevm : h.kind.IsEvmCall) :
    Tolerates frame (h :: steps) ↔ ordinary steps = [] := by
  have hcons : ordinary (h :: steps) = ordinary steps :=
    List.filter_cons_of_neg (by simp [HostioKind.IsOrdinary, hevm])
  refine ⟨fun htolerates => ?_, fun hnil => tolerates_of_ordinary_eq_nil (hcons.trans hnil)⟩
  by_contra hne
  obtain ⟨first, rest, hsteps⟩ := List.exists_cons_of_ne_nil hne
  obtain ⟨reader, hrun⟩ := htolerates
  have hfirst : first.kind.IsOrdinary := by
    have hmem : first ∈ ordinary steps := by simp [hsteps]
    exact of_decide_eq_true (List.mem_filter.1 hmem).2
  have hname := HostioKind.name_of_isEvmCall hevm
  have hskip : h.kind.name ∉ skippable := by
    rw [hname]
    decide
  have hnot : ¬(nextHostio ⟨frame, h :: steps⟩ first.kind.name).IsOk :=
    not_isOk_nextHostio_cons hskip (hname ▸ (HostioKind.name_ne_of_isOrdinary hfirst).symm)
  rw [hcons, hsteps, List.map_cons, nextAll] at hrun
  obtain ⟨taken, htaken, -⟩ := Outcome.bind_eq_ok.1 hrun
  exact hnot ⟨taken, htaken⟩

theorem ordinary_eq_nil_iff :
    ordinary steps = [] ↔ ∀ h ∈ steps, ¬h.kind.IsOrdinary := by
  simp [ordinary, List.filter_eq_nil_iff]

theorem tolerates_iff_pairwise (frame : TraceFrame) :
    ∀ steps, Tolerates frame steps ↔
      steps.Pairwise fun h h' => h.kind.IsEvmCall → ¬h'.kind.IsOrdinary
  | [] => iff_of_true (tolerates_of_ordinary_eq_nil rfl) .nil
  | h :: steps => by
    rw [List.pairwise_cons, ← tolerates_iff_pairwise frame steps]
    by_cases hevm : h.kind.IsEvmCall
    · rw [tolerates_cons_of_isEvmCall hevm, ordinary_eq_nil_iff]
      simp only [hevm, forall_const]
      refine (and_iff_left_of_imp fun hnone => ?_).symm
      exact tolerates_of_ordinary_eq_nil (ordinary_eq_nil_iff.2 hnone)
    · simp only [hevm, false_implies, implies_true, true_and]
      by_cases hskip : h.kind.name ∈ skippable
      · exact tolerates_cons_of_skippable hskip
      · exact tolerates_cons_of_isOrdinary ⟨hevm, hskip⟩

end Tolerates

/-- A guest that asks for the ordinary host I/Os of a frame gets them exactly if no frame that
no host I/O accounts for comes before one of them. -/
theorem tolerates_iff (frame : TraceFrame) :
    Tolerates frame frame.steps ↔
      frame.steps.Pairwise fun h h' => h.kind.IsEvmCall → ¬h'.kind.IsOrdinary :=
  tolerates_iff_pairwise frame frame.steps

/-- A contract that creates another : the record of the other's frame, and then the host I/O. -/
def createFrame : TraceFrame :=
  let address : Address := filled 20 0xcd
  .mk [⟨.evmCall "evm_create1" (.mk [] address), 0, 0⟩, ⟨.create1 [0x60] 0 address 0, 100, 60⟩] none

theorem createFrame_encodable : createFrame.Encodable := by
  refine .cons ⟨fun _ => nofun, ⟨by decide, by decide, by decide⟩, ?_⟩ ?_
    (.cons ⟨fun _ => nofun, trivial, nofun⟩ nofun .nil)
  · rintro _ ⟨⟩
    rfl
  · rintro _ ⟨⟩
    exact .nil

/-- The parser reads that frame, and a guest that creates the contract does not get its host
I/O. -/
theorem createFrame_not_tolerated :
    parseFrame (encode createFrame) none = .ok createFrame ∧
      ¬Tolerates createFrame createFrame.steps := by
  refine ⟨parseFrame_encode createFrame createFrame_encodable, fun h => ?_⟩
  have hpairs := (tolerates_iff_pairwise createFrame _).1 h
  have hfirst := (List.pairwise_cons.1 hpairs).1 _ (List.mem_singleton.2 rfl) trivial
  exact hfirst ⟨not_false, by decide⟩

end CargoStylus
