import CargoStylus.Rust.Interaction

/-!
# Programs that share a service

Several programs make requests to one service, which has a state. Each program runs on its own,
and their requests reach the service in some order (`Interleaves`). The service responds to a
request as its state allows, and does things by itself in between (`History`).

A property of the state that no request of any of the programs breaks, and nothing that the
service does by itself, holds whatever the order is (`History.invariant`), and so each response
was given in a state with the property (`History.responds_of_mem`). If the states only grow, what a
response has told stays so (`Ascends.responds_of_mem`).
-/

namespace Rust.Interaction

variable {Req : Type} {Resp : Req → Type} {ε σ : Type}

/-! ## Interleaving -/

/-- `whole` has the entries of `logs`, those of each log in their order. -/
inductive Interleaves : List (Log Req Resp ε) → Log Req Resp ε → Prop
  | done {logs : List (Log Req Resp ε)} (h : ∀ log ∈ logs, log = []) : Interleaves logs []
  | step {before after : List (Log Req Resp ε)} {log whole : Log Req Resp ε}
      {entry : Σ r, Except ε (Resp r)} (h : Interleaves (before ++ log :: after) whole) :
      Interleaves (before ++ (entry :: log) :: after) (entry :: whole)

variable {logs : List (Log Req Resp ε)} {log whole : Log Req Resp ε}
  {entry : Σ r, Except ε (Resp r)}

theorem Interleaves.mem_iff (h : Interleaves logs whole) :
    entry ∈ whole ↔ ∃ log ∈ logs, entry ∈ log := by
  induction h with
  | done h =>
    simp only [List.not_mem_nil, false_iff, not_exists, not_and]
    intro log hlog
    rw [h log hlog]
    exact List.not_mem_nil
  | step _ ih =>
    simp only [List.mem_cons, ih, List.mem_append, or_and_right, exists_or, exists_eq_left]
    exact or_left_comm.trans (or_congr_right or_assoc.symm)

/-- One program alone. -/
theorem interleaves_singleton : ∀ log : Log Req Resp ε, Interleaves [log] log
  | [] => .done fun _ h => List.mem_singleton.1 h
  | entry :: log => by
    have h := interleaves_singleton log
    exact @Interleaves.step Req Resp ε [] [] log log entry h

/-! ## A service with a state -/

/-- How a service responds in a state, and what it does by itself. -/
structure Service (Req : Type) (Resp : Req → Type) (ε σ : Type) where
  responds : σ → (Σ r, Except ε (Resp r)) → σ → Prop
  works : σ → σ → Prop

namespace Service

variable (service : Service Req Resp ε σ)

/-- From one state to another the service gave the responses of a log. -/
inductive History (s : σ) : Log Req Resp ε → σ → Prop
  | start : History s [] s
  | works {log : Log Req Resp ε} {t u : σ} (h : History s log t) (hworks : service.works t u) :
      History s log u
  | responds {log : Log Req Resp ε} {entry : Σ r, Except ε (Resp r)} {t u : σ}
      (h : History s log t) (hresponds : service.responds t entry u) :
      History s (log ++ [entry]) u

variable {service} {s t : σ} {I : σ → Prop}

/-- The property stays, if no entry and nothing that the service does by itself breaks it. -/
def Keeps (service : Service Req Resp ε σ) (I : σ → Prop) (log : Log Req Resp ε) : Prop :=
  (∀ t u, I t → service.works t u → I u) ∧
    ∀ entry ∈ log, ∀ t u, I t → service.responds t entry u → I u

theorem History.invariant (h : service.History s log t) (hI : I s)
    (hkeeps : service.Keeps I log) : I t := by
  induction h with
  | start => exact hI
  | works _ hworks ih => exact hkeeps.1 _ _ (ih hkeeps) hworks
  | responds _ hresponds ih =>
    refine hkeeps.2 _ (List.mem_append_right _ List.mem_cons_self) _ _ (ih ⟨hkeeps.1, ?_⟩)
      hresponds
    exact fun entry hentry => hkeeps.2 entry (List.mem_append_left _ hentry)

/-- Each response was given in a state with the property. -/
theorem History.responds_of_mem (h : service.History s log t) (hI : I s)
    (hkeeps : service.Keeps I log) (hentry : entry ∈ log) :
    ∃ t u, I t ∧ service.responds t entry u := by
  induction h with
  | start => cases hentry
  | works _ _ ih => exact ih hkeeps hentry
  | responds hbefore hresponds ih =>
    have hkeeps' : service.Keeps I _ :=
      ⟨hkeeps.1, fun entry hentry => hkeeps.2 entry (List.mem_append_left _ hentry)⟩
    rcases List.mem_append.1 hentry with hentry | hentry
    · exact ih hkeeps' hentry
    · obtain rfl := List.mem_singleton.1 hentry
      exact ⟨_, _, hbefore.invariant hI hkeeps', hresponds⟩

/-! ## What only grows -/

/-- The states ascend, whatever the service does or responds. -/
structure Ascends (service : Service Req Resp ε σ) (R : σ → σ → Prop) : Prop where
  refl (s : σ) : R s s
  trans {s t u : σ} : R s t → R t u → R s u
  works {s t : σ} : service.works s t → R s t
  responds {s t : σ} {entry : Σ r, Except ε (Resp r)} : service.responds s entry t → R s t

variable {R : σ → σ → Prop}

theorem Ascends.history (hR : service.Ascends R) (h : service.History s log t) : R s t := by
  induction h with
  | start => exact hR.refl s
  | works _ hworks ih => exact hR.trans ih (hR.works hworks)
  | responds _ hresponds ih => exact hR.trans ih (hR.responds hresponds)

/-- The state after a response is below the last one. -/
theorem Ascends.responds_of_mem (hR : service.Ascends R) (h : service.History s log t)
    (hentry : entry ∈ log) : ∃ u v, service.responds u entry v ∧ R v t := by
  induction h with
  | start => cases hentry
  | works _ hworks ih =>
    obtain ⟨u, v, hresponds, hv⟩ := ih hentry
    exact ⟨u, v, hresponds, hR.trans hv (hR.works hworks)⟩
  | responds _ hlast ih =>
    rcases List.mem_append.1 hentry with hentry | hentry
    · obtain ⟨u, v, hresponds, hv⟩ := ih hentry
      exact ⟨u, v, hresponds, hR.trans hv (hR.responds hlast)⟩
    · obtain rfl := List.mem_singleton.1 hentry
      exact ⟨_, _, hlast, hR.refl _⟩

theorem History.append {log' : Log Req Resp ε} {u : σ} (h : service.History s log t)
    (h' : service.History t log' u) : service.History s (log ++ log') u := by
  induction h' with
  | start => rwa [List.append_nil]
  | works _ hworks ih => exact ih.works hworks
  | responds _ hresponds ih =>
    rw [← List.append_assoc]
    exact ih.responds hresponds

end Service

end Rust.Interaction
