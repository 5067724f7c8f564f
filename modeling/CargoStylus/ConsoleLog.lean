import CargoStylus.RoundTrip

/-!
# Console output in a trace

A record in a trace has a place : the array it is in, and the records around that. What a
record is read as does not depend on its place (`parseFrame_fill_iff`), as long as the records
around it can be read.

The text of a console log is read as if a string had as many bytes as the header of one in
memory. So the text survives, at whatever place in a trace, exactly if it has that many bytes
(`consoleLog_iff`).
-/

namespace CargoStylus

open Rust Json HostioKind

/-! ## Places in a trace -/

/-- A trace with a place for a record : in its array, or in the one nested in a record. -/
inductive TraceContext where
  | here (before after : List Value)
  | nest (before : List Value) (pre post : Fields) (after : List Value) (inner : TraceContext)

namespace TraceContext

/-- The trace with `v` in the place. -/
def fill (v : Value) : TraceContext → Value
  | here before after => .array (before ++ v :: after)
  | nest before pre post after inner =>
    .array (before ++ .object (pre ++ ("steps", inner.fill v) :: post) :: after)

/-- The positions that lead to the place. -/
def path : TraceContext → List ℕ
  | here before _ => [before.length]
  | nest before _ _ _ inner => before.length :: inner.path

end TraceContext

/-- The host I/O at some positions, each in the frame nested at the one before. -/
def TraceFrame.hostioAt (f : TraceFrame) : List ℕ → Option (Hostio TraceFrame)
  | [] => none
  | [i] => f.steps[i]?
  | i :: path => f.steps[i]?.bind fun h => h.kind.frame?.bind fun g => g.hostioAt path

/-- The entries hold the record of a host I/O that nests a frame, all but the frame. -/
def NestsAny (keys : Fields) : Prop :=
  ∃ (kind : HostioKind Unit) (name : String) (args outs : Bytes) (startInk endInk : U64)
    (t : String) (address : Address), Recorded keys name args outs startInk endInk ∧
    kind.ReadFrom name args outs ∧ kind.frame? = some () ∧
    keys.get? "address" = some (.string t) ∧ ofHex t = some address.1

/-- The records around the place can be read. -/
inductive TraceContext.RestRead : TraceContext → Prop where
  | here {before after : List Value} (before_ok : ∀ v ∈ before, (parseStep v).IsOk)
      (after_ok : ∀ v ∈ after, (parseStep v).IsOk) : RestRead (.here before after)
  | nest {before after : List Value} {pre post : Fields} {inner : TraceContext}
      (before_ok : ∀ v ∈ before, (parseStep v).IsOk) (after_ok : ∀ v ∈ after, (parseStep v).IsOk)
      (record : NestsAny (pre ++ post)) (steps : pre.get? "steps" = none)
      (inner_ok : inner.RestRead) : RestRead (.nest before pre post after inner)

variable {before after vs : List Value} {hs : List (Hostio TraceFrame)} {v : Value}
  {h : Hostio TraceFrame} {pre post keys : Fields} {text : String} {startInk endInk : U64}

/-! ### A record and the records beside it -/

theorem exists_hostios : ∀ {vs : List Value}, (∀ v ∈ vs, (parseStep v).IsOk) →
    ∃ hs, List.Forall₂ (fun v h => parseStep v = .ok h) vs hs
  | [], _ => ⟨[], .nil⟩
  | v :: vs, hok => by
    obtain ⟨h, hv⟩ := hok v List.mem_cons_self
    obtain ⟨hs, hvs⟩ := exists_hostios fun w hw => hok w (List.mem_cons_of_mem v hw)
    exact ⟨h :: hs, .cons hv hvs⟩

/-- A step is read at the position it has in the array. -/
theorem parseStep_of_getElem (hread : List.Forall₂ (fun v h => parseStep v = .ok h)
    (before ++ v :: after) hs) (hget : hs[before.length]? = some h) : parseStep v = .ok h := by
  induction before generalizing hs with
  | nil =>
    rcases hread with _ | ⟨hv, -⟩
    obtain rfl := Option.some.inj hget
    exact hv
  | cons w before ih =>
    rcases hread with _ | ⟨-, hrest⟩
    exact ih hrest hget

/-- Beside records that can be read, a step is read at its position. -/
theorem getElem_of_parseStep (hbefore : ∀ v ∈ before, (parseStep v).IsOk)
    (hafter : ∀ v ∈ after, (parseStep v).IsOk) (hv : parseStep v = .ok h) :
    ∃ hs, List.Forall₂ (fun v h => parseStep v = .ok h) (before ++ v :: after) hs ∧
      hs[before.length]? = some h := by
  obtain ⟨hs, hhs⟩ := exists_hostios hbefore
  obtain ⟨hs', hhs'⟩ := exists_hostios hafter
  refine ⟨hs ++ h :: hs', List.rel_append hhs (.cons hv hhs'), ?_⟩
  rw [hhs.length_eq, List.getElem?_append_right le_rfl, Nat.sub_self]
  rfl

/-! ### A record and the frame nested in it -/

theorem get?_steps (hpre : pre.get? "steps" = none) :
    Fields.get? (pre ++ ("steps", v) :: post) "steps" = some v := by
  induction pre with
  | nil => simp
  | cons e pre ih =>
    obtain ⟨k, w⟩ := e
    rw [Fields.get?_cons] at hpre
    split_ifs at hpre with hk
    rw [List.cons_append, Fields.get?_cons, if_neg hk, ih hpre]

theorem get?_of_ne_steps {k : String} (hk : k ≠ "steps") :
    Fields.get? (pre ++ ("steps", v) :: post) k = Fields.get? (pre ++ post) k := by
  induction pre with
  | nil => simp [hk]
  | cons e pre ih =>
    obtain ⟨i, w⟩ := e
    rw [List.cons_append, List.cons_append, Fields.get?_cons, Fields.get?_cons, ih]

theorem Recorded.with_steps {name : String} {args outs : Bytes}
    (hrecord : Recorded (pre ++ post) name args outs startInk endInk) :
    Recorded (pre ++ ("steps", v) :: post) name args outs startInk endInk := by
  obtain ⟨hname, hargs, houts, hstart, hend⟩ := hrecord
  refine ⟨?_, ?_, ?_, ?_, ?_⟩
  · rwa [get?_of_ne_steps (by decide)]
  · rwa [get?_of_ne_steps (by decide)]
  · rwa [get?_of_ne_steps (by decide)]
  · rwa [get?_of_ne_steps (by decide)]
  · rwa [get?_of_ne_steps (by decide)]

/-- A frame that can be read is nested in the record around it. -/
theorem parseStep_of_nestsAny (hpre : pre.get? "steps" = none) (hnests : NestsAny (pre ++ post)) :
    ∃ address, ∀ v f, parseFrame v (some address) = .ok f → ∃ h,
      parseStep (.object (pre ++ ("steps", v) :: post)) = .ok h ∧ h.kind.frame? = some f := by
  obtain ⟨kind, name, args, outs, startInk, endInk, t, address, hrecord, hread, hframe, ht,
    haddress⟩ := hnests
  refine ⟨address, fun v f hparse => ⟨⟨kind.map fun _ => f, startInk, endInk⟩, ?_, ?_⟩⟩
  · refine parseStep_eq_ok.2 ⟨_, rfl, name, args, outs, hrecord.with_steps, hread.map _, ?_⟩
    intro g hg
    rw [frame?_map, hframe] at hg
    obtain rfl : f = g := Option.some.inj hg
    refine ⟨t, address, v, ?_, haddress, get?_steps hpre, hparse⟩
    rwa [get?_of_ne_steps (by decide)]
  · rw [frame?_map, hframe]
    rfl

/-- The frame nested in a step is read from the value under `steps`. -/
theorem parseFrame_of_parseStep {f : TraceFrame} (hpre : pre.get? "steps" = none)
    (hparse : parseStep (.object (pre ++ ("steps", v) :: post)) = .ok h)
    (hframe : h.kind.frame? = some f) : ∃ address, parseFrame v (some address) = .ok f := by
  obtain ⟨keys, hkeys, name, args, outs, -, -, hnests⟩ := parseStep_eq_ok.1 hparse
  obtain rfl := Value.object.inj hkeys
  obtain ⟨t, address, w, -, -, hw, hf⟩ := hnests f hframe
  rw [get?_steps hpre] at hw
  obtain rfl := Option.some.inj hw
  exact ⟨address, hf⟩

theorem TraceContext.path_ne_nil (C : TraceContext) : C.path ≠ [] := by
  cases C <;> exact List.cons_ne_nil _ _

theorem hostioAt_cons {f : TraceFrame} {i : ℕ} {path : List ℕ} (hpath : path ≠ []) :
    f.hostioAt (i :: path) =
      f.steps[i]?.bind fun h => h.kind.frame?.bind fun g => g.hostioAt path := by
  cases path with
  | nil => exact absurd rfl hpath
  | cons j path => rfl

/-- A record is read in its place in a trace as it is read by itself. -/
theorem parseFrame_fill_iff {C : TraceContext} (hC : C.RestRead) (address : Option Address) :
    (∃ f, parseFrame (C.fill v) address = .ok f ∧ f.hostioAt C.path = some h) ↔
      parseStep v = .ok h := by
  induction hC generalizing address with
  | @here before after hbefore hafter =>
    refine ⟨fun hf => ?_, fun hv => ?_⟩
    · obtain ⟨f, hparse, hget⟩ := hf
      obtain ⟨vs, hvs, -, hsteps⟩ := parseFrame_eq_ok.1 hparse
      obtain rfl := Value.array.inj hvs
      exact parseStep_of_getElem hsteps hget
    · obtain ⟨hs, hread, hget⟩ := getElem_of_parseStep hbefore hafter hv
      exact ⟨.mk hs address, parseFrame_eq_ok.2 ⟨_, rfl, rfl, hread⟩, hget⟩
  | @nest before after pre post inner hbefore hafter hrecord hpre _ ih =>
    simp only [TraceContext.path, hostioAt_cons inner.path_ne_nil]
    refine ⟨fun hf => ?_, fun hv => ?_⟩
    · obtain ⟨f, hparse, hget⟩ := hf
      obtain ⟨s, hs, hget⟩ := Option.bind_eq_some_iff.1 hget
      obtain ⟨g, hg, hget⟩ := Option.bind_eq_some_iff.1 hget
      obtain ⟨vs, hvs, -, hsteps⟩ := parseFrame_eq_ok.1 hparse
      obtain rfl := Value.array.inj hvs
      obtain ⟨address', hinner⟩ := parseFrame_of_parseStep hpre (parseStep_of_getElem hsteps hs) hg
      exact (ih (some address')).1 ⟨g, hinner, hget⟩
    · obtain ⟨address', hread⟩ := parseStep_of_nestsAny hpre hrecord
      obtain ⟨g, hinner, hget⟩ := (ih (some address')).2 hv
      obtain ⟨s, hs, hg⟩ := hread _ g hinner
      obtain ⟨hs', hread', hget'⟩ := getElem_of_parseStep hbefore hafter hs
      refine ⟨.mk hs' address, parseFrame_eq_ok.2 ⟨_, rfl, rfl, hread'⟩, ?_⟩
      rw [TraceFrame.steps_mk, hget', Option.bind_some, hg, Option.bind_some, hget]

/-! ## Console logs -/

/-- The record of a console log is read as one of its text exactly if the text has as many bytes
as the header of a string. -/
theorem parseStep_consoleLog_iff
    (hrecord : Recorded keys "console_log" (utf8 text.toList) [] startInk endInk) :
    parseStep (.object keys) = .ok ⟨.consoleLog text, startInk, endInk⟩ ↔
      (utf8 text.toList).length = sizeOfString := by
  refine parseStep_eq_ok.trans ⟨fun hparse => ?_, fun hlen => ?_⟩
  · obtain ⟨_, hkeys, name, args, outs, hrecord', hread, -⟩ := hparse
    obtain rfl := Value.object.inj hkeys
    obtain ⟨t, ht, hargs⟩ := hrecord.args
    obtain ⟨t', ht', hargs'⟩ := hrecord'.args
    obtain rfl := Value.string.inj (Option.some.inj (ht.symm.trans ht'))
    obtain rfl := Option.some.inj (hargs.symm.trans hargs')
    exact hread.args.1
  · have hargs : text = String.ofList (fromUtf8Lossy (utf8 text.toList)) := by
      rw [fromUtf8Lossy_utf8, String.ofList_toList]
    exact ⟨keys, rfl, _, _, _, hrecord, ⟨rfl, trivial, ⟨hlen, hargs⟩, rfl⟩, nofun⟩

/-- The text of a console log survives at a place in a trace exactly if it has as many bytes as
the header of a string. -/
theorem consoleLog_iff {C : TraceContext} (hC : C.RestRead) (address : Option Address)
    (hrecord : Recorded keys "console_log" (utf8 text.toList) [] startInk endInk) :
    (∃ f, parseFrame (C.fill (.object keys)) address = .ok f ∧
        f.hostioAt C.path = some ⟨.consoleLog text, startInk, endInk⟩) ↔
      (utf8 text.toList).length = sizeOfString :=
  (parseFrame_fill_iff hC address).trans (parseStep_consoleLog_iff hrecord)

theorem recorded_consoleLog (text : String) (startInk endInk : U64) :
    Recorded (recordFields (.consoleLog text) startInk endInk) "console_log" (utf8 text.toList) []
      startInk endInk where
  name := rfl
  args := ⟨_, rfl, ofHex_toHex _⟩
  outs := ⟨_, rfl, ofHex_toHex _⟩
  startInk := rfl
  endInk := rfl

theorem restRead_alone : (TraceContext.here [] []).RestRead :=
  .here (List.forall_mem_nil _) (List.forall_mem_nil _)

theorem consoleLog_iff_alone :
    (∃ f, parseFrame ((TraceContext.here [] []).fill
          (.object (recordFields (.consoleLog "as long as three numbers") 80 70))) none = .ok f ∧
        f.hostioAt [0] = some ⟨.consoleLog "as long as three numbers", 80, 70⟩) ↔
      (utf8 "as long as three numbers".toList).length = sizeOfString :=
  consoleLog_iff restRead_alone none (recorded_consoleLog _ 80 70)

/-- A short text is lost. -/
theorem hi_not_read :
    ¬∀ (C : TraceContext) (address : Option Address) (keys : Fields) (text : String)
      (startInk endInk : U64), C.RestRead →
      Recorded keys "console_log" (utf8 text.toList) [] startInk endInk →
      ∃ f, parseFrame (C.fill (.object keys)) address = .ok f ∧
        f.hostioAt C.path = some ⟨.consoleLog text, startInk, endInk⟩ := by
  intro h
  have hread := (parseFrame_fill_iff restRead_alone none).1
    (h _ none _ "hi" 80 70 restRead_alone (recorded_consoleLog "hi" 80 70))
  exact absurd ((parseStep_consoleLog_iff (recorded_consoleLog "hi" 80 70)).1 hread) (by decide)

end CargoStylus
