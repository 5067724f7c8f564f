import CargoStylus.Rust.Text
import CargoStylus.SubFrames

/-!
# What a sequence of reads takes

A guest that asks for records by name takes them from the front of one queue. `TakesAll` says
which records of the queue are returned and which are left, with the records between them
passed over, and `Diverges` where such a reading stops. Every sequence of names is read or
diverges, and not both (`nextAll_matches`). `MatchingLaw` reads a derivation of `TakesAll` off
as places in the queue.
-/

namespace CargoStylus

open Rust

/-- All records are passed over where `expected` is asked for. -/
def PassedOver (expected : String) (records : List (Hostio TraceFrame)) : Prop :=
  ∀ h ∈ records, h.kind.name ∈ skippable ∧ h.kind.name ≠ expected

/-! ## Reading -/

/-- From the queue the names are read as `returned`, and `unread` is left. -/
inductive TakesAll : List (Hostio TraceFrame) → List String → List (Hostio TraceFrame) →
    List (Hostio TraceFrame) → Prop
  | done (queue : List (Hostio TraceFrame)) : TakesAll queue [] [] queue
  | next {skipped rest returned unread : List (Hostio TraceFrame)} {h : Hostio TraceFrame}
      {expected : String} {names : List String} : PassedOver expected skipped →
      h.kind.name = expected → TakesAll rest names returned unread →
      TakesAll (skipped ++ h :: rest) (expected :: names) (h :: returned) unread

/-- No record of the queue is read as `expected` : the queue runs out, or a record comes
first that is neither the one expected nor passed over. -/
inductive Stuck (expected : String) : List (Hostio TraceFrame) → Prop
  | exhausted {queue : List (Hostio TraceFrame)} : PassedOver expected queue →
      Stuck expected queue
  | mismatch {skipped rest : List (Hostio TraceFrame)} {h : Hostio TraceFrame} :
      PassedOver expected skipped → h.kind.name ≠ expected → h.kind.name ∉ skippable →
      Stuck expected (skipped ++ h :: rest)

/-- Some name is not read once those before it are. -/
inductive Diverges : List (Hostio TraceFrame) → List String → Prop
  | now {queue : List (Hostio TraceFrame)} {expected : String} {names : List String} :
      Stuck expected queue → Diverges queue (expected :: names)
  | later {skipped rest : List (Hostio TraceFrame)} {h : Hostio TraceFrame}
      {expected : String} {names : List String} : PassedOver expected skipped →
      h.kind.name = expected → Diverges rest names →
      Diverges (skipped ++ h :: rest) (expected :: names)

variable {frame : TraceFrame} {expected : String} {names : List String}
  {queue skipped rest returned unread : List (Hostio TraceFrame)} {h : Hostio TraceFrame}

theorem passedOver_nil : PassedOver expected [] := by
  rintro h ⟨⟩

theorem PassedOver.cons (hskip : h.kind.name ∈ skippable) (hne : h.kind.name ≠ expected)
    (hrest : PassedOver expected rest) : PassedOver expected (h :: rest) :=
  List.forall_mem_cons.2 ⟨⟨hskip, hne⟩, hrest⟩

/-- One read takes a record behind those it passes over, or finds none. -/
theorem nextStep_cases (frame : TraceFrame) (expected : String) :
    ∀ queue : List (Hostio TraceFrame),
      (∃ skipped h rest, queue = skipped ++ h :: rest ∧ PassedOver expected skipped ∧
        h.kind.name = expected ∧
        FrameReader.nextStep frame expected queue = .ok (h, ⟨frame, rest⟩)) ∨
      Stuck expected queue ∧ (FrameReader.nextStep frame expected queue).IsPanic
  | [] => .inr ⟨.exhausted passedOver_nil, _, rfl⟩
  | h :: rest => by
    rw [FrameReader.nextStep]
    by_cases hname : h.kind.name = expected
    · exact .inl ⟨[], h, rest, rfl, passedOver_nil, hname, if_pos hname⟩
    · rw [if_neg hname]
      by_cases hskip : h.kind.name ∈ skippable
      · rw [if_pos hskip]
        rcases nextStep_cases frame expected rest with
          ⟨skipped, h', rest', rfl, hover, hname', hok⟩ | ⟨hstuck, hpanic⟩
        · exact .inl ⟨h :: skipped, h', rest', rfl, hover.cons hskip hname, hname', hok⟩
        · refine .inr ⟨?_, hpanic⟩
          rcases hstuck with hover | ⟨hover, hne, hnot⟩
          · exact .exhausted (hover.cons hskip hname)
          · exact .mismatch (hover.cons hskip hname) hne hnot
      · rw [if_neg hskip]
        exact .inr ⟨.mismatch passedOver_nil hname hskip, _, rfl⟩

/-- The first record that is not passed over, if there is any, is in one place. -/
theorem append_cons_inj_of_passedOver {skipped' rest' : List (Hostio TraceFrame)}
    {h' : Hostio TraceFrame} (hover : PassedOver expected skipped)
    (hover' : PassedOver expected skipped')
    (hfirst : h.kind.name = expected ∨ h.kind.name ∉ skippable)
    (hfirst' : h'.kind.name = expected ∨ h'.kind.name ∉ skippable)
    (heq : skipped ++ h :: rest = skipped' ++ h' :: rest') : h = h' ∧ rest = rest' := by
  let kept : Hostio TraceFrame → Prop :=
    fun k => k.kind.name = expected ∨ k.kind.name ∉ skippable
  have hnot : ∀ {records : List (Hostio TraceFrame)}, PassedOver expected records →
      ∀ k ∈ records, ¬kept k := by
    intro records hrecords k hk
    obtain ⟨hskip, hne⟩ := hrecords k hk
    exact not_or.2 ⟨hne, not_not.2 hskip⟩
  exact (append_cons_inj_of_first (hnot hover) (hnot hover') hfirst hfirst' heq).2

/-- Where a record is read, the reading is not stuck. -/
theorem not_stuck_append_cons (hover : PassedOver expected skipped)
    (hname : h.kind.name = expected) : ¬Stuck expected (skipped ++ h :: rest) := by
  intro hstuck
  generalize hqueue : skipped ++ h :: rest = queue at hstuck
  rcases hstuck with hall | ⟨hover', hne, hnot⟩
  · subst hqueue
    exact (hall h (List.mem_append_right _ List.mem_cons_self)).2 hname
  · obtain ⟨rfl, -⟩ :=
      append_cons_inj_of_passedOver hover hover' (.inl hname) (.inr hnot) hqueue
    exact hne hname

/-- What is read does not diverge. -/
theorem TakesAll.not_diverges (htakes : TakesAll queue names returned unread) :
    ¬Diverges queue names := by
  induction htakes with
  | done queue => rintro ⟨⟩
  | @next skipped rest _ _ h expected names hover hname _ ih =>
    intro hdiverges
    generalize hqueue : skipped ++ h :: rest = queue at hdiverges
    rcases hdiverges with hstuck | ⟨hover', hname', hlater⟩
    · exact not_stuck_append_cons hover hname (hqueue ▸ hstuck)
    · obtain ⟨-, rfl⟩ :=
        append_cons_inj_of_passedOver hover hover' (.inl hname) (.inl hname') hqueue
      exact ih hlater

/-! ## Places in the queue -/

/-- What is returned is in the queue in this order, under the names asked for, each record at
a place of its own. Before the records that are left, only records that are passed over are
not returned. -/
structure MatchingLaw (queue : List (Hostio TraceFrame)) (names : List String)
    (returned unread : List (Hostio TraceFrame)) : Prop where
  names : returned.map (fun h => h.kind.name) = names
  suffix : unread <:+ queue
  places : ∃ places : List ℕ, places.Pairwise (· < ·) ∧
    places.map (queue[·]?) = returned.map some ∧
    (∀ i ∈ places, i < queue.length - unread.length) ∧
    ∀ i < queue.length - unread.length, i ∉ places →
      ∃ h, queue[i]? = some h ∧ h.kind.name ∈ skippable

theorem MatchingLaw.next (hlaw : MatchingLaw rest names returned unread)
    (hover : PassedOver expected skipped) (hname : h.kind.name = expected) :
    MatchingLaw (skipped ++ h :: rest) (expected :: names) (h :: returned) unread where
  names := by rw [List.map_cons, hname, hlaw.names]
  suffix := hlaw.suffix.trans ((List.suffix_cons h rest).trans (List.suffix_append _ _))
  places := by
    obtain ⟨places, hsorted, hmap, hlt, hpassed⟩ := hlaw.places
    have hle := hlaw.suffix.length_le
    have hread : ∀ i, (skipped ++ h :: rest)[skipped.length + 1 + i]? = rest[i]? := by
      intro i
      rw [List.getElem?_append_right (by omega),
        show skipped.length + 1 + i - skipped.length = i + 1 by omega, List.getElem?_cons_succ]
    have hhere : (skipped ++ h :: rest)[skipped.length]? = some h := by
      rw [List.getElem?_append_right le_rfl, Nat.sub_self, List.getElem?_cons_zero]
    have hlen : (skipped ++ h :: rest).length - unread.length =
        skipped.length + 1 + (rest.length - unread.length) := by
      rw [List.length_append, List.length_cons]
      omega
    refine ⟨skipped.length :: places.map (skipped.length + 1 + ·), ?_, ?_, ?_, ?_⟩
    · refine List.pairwise_cons.2 ⟨fun i hi => ?_, ?_⟩
      · obtain ⟨j, -, rfl⟩ := List.mem_map.1 hi
        omega
      · exact List.pairwise_map.2 (hsorted.imp fun hij => by omega)
    · rw [List.map_cons, List.map_map, List.map_cons, hhere, ← hmap]
      exact congrArg _ (List.map_congr_left fun i _ => hread i)
    · rw [hlen]
      intro i hi
      rcases List.mem_cons.1 hi with rfl | hi
      · omega
      · obtain ⟨j, hj, rfl⟩ := List.mem_map.1 hi
        have hjlt := hlt j hj
        omega
    · rw [hlen]
      intro i hi hnot
      rw [List.mem_cons, not_or] at hnot
      rcases lt_or_ge i skipped.length with hbefore | hafter
      · refine ⟨skipped[i], ?_, (hover _ (List.getElem_mem hbefore)).1⟩
        rw [List.getElem?_append_left hbefore, List.getElem?_eq_getElem hbefore]
      · obtain ⟨j, rfl⟩ : ∃ j, i = skipped.length + 1 + j :=
          ⟨i - (skipped.length + 1), by omega⟩
        rw [hread]
        exact hpassed j (by omega) fun hj => hnot.2 (List.mem_map_of_mem hj)

theorem TakesAll.matchingLaw (htakes : TakesAll queue names returned unread) :
    MatchingLaw queue names returned unread := by
  induction htakes with
  | done queue =>
    refine ⟨rfl, List.suffix_rfl, [], .nil, rfl, ?_, ?_⟩
    · rintro i ⟨⟩
    · intro i hi
      omega
  | next hover hname _ ih => exact ih.next hover hname

/-! ## The law -/

/-- Every sequence of names is read or diverges. -/
theorem nextAll_cases (frame : TraceFrame) :
    ∀ (names : List String) (queue : List (Hostio TraceFrame)),
      (∃ returned unread, FrameReader.nextAll ⟨frame, queue⟩ names =
        .ok (returned, ⟨frame, unread⟩) ∧ TakesAll queue names returned unread) ∨
      (FrameReader.nextAll ⟨frame, queue⟩ names).IsPanic ∧ Diverges queue names
  | [], queue => .inl ⟨[], queue, rfl, .done queue⟩
  | expected :: names, queue => by
    rw [FrameReader.nextAll, FrameReader.nextHostio]
    rcases nextStep_cases frame expected queue with
      ⟨skipped, h, rest, rfl, hover, hname, hok⟩ | ⟨hstuck, m, hpanic⟩
    · rw [hok, Outcome.ok_bind]
      rcases nextAll_cases frame names rest with
        ⟨returned, unread, hrest, htakes⟩ | ⟨⟨m, hrest⟩, hdiverges⟩
      · refine .inl ⟨h :: returned, unread, ?_, .next hover hname htakes⟩
        dsimp only
        rw [hrest]
        rfl
      · refine .inr ⟨⟨m, ?_⟩, .later hover hname hdiverges⟩
        dsimp only
        rw [hrest]
        rfl
    · rw [hpanic]
      exact .inr ⟨⟨m, rfl⟩, .now hstuck⟩

/-- A sequence of names is read in the order of the queue, with only such records between that
are passed over, or it diverges and the reading panics, exactly where a record is reached that
is neither the one expected nor passed over, or the queue runs out. -/
theorem nextAll_matches (frame : TraceFrame) (queue : List (Hostio TraceFrame))
    (names : List String) :
    (∃ returned unread, FrameReader.nextAll ⟨frame, queue⟩ names =
        .ok (returned, ⟨frame, unread⟩) ∧ MatchingLaw queue names returned unread ∧
        ¬Diverges queue names) ∨
      (FrameReader.nextAll ⟨frame, queue⟩ names).IsPanic ∧ Diverges queue names := by
  rcases nextAll_cases frame names queue with ⟨returned, unread, hok, htakes⟩ | hpanic
  · exact .inl ⟨returned, unread, hok, htakes.matchingLaw, htakes.not_diverges⟩
  · exact .inr hpanic

end CargoStylus
