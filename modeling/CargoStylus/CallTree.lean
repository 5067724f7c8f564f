import CargoStylus.Tracer

/-!
# The call tree of a transaction

The events of a transaction spell a tree (`CallTree`) : host I/Os, frames entered and left, and
frames followed by the host I/O that made the call. The tracer computes the tree's records
(`run_events`) : the array open before is open after, it has grown by one record for each
item, and the arrays the records refer to are new ones that later events leave alone
(`Built`). From the start it ends with an empty stack and the list of records as its result
(`run_init`), so that every record of a frame is an EVM frame's exactly when every
such frame has a type the tracer knows (`tracer_computes_callTree_iff`).
-/

namespace CargoStylus

open Rust

/-- The events of a transaction, by the frames they nest in. -/
inductive CallTree where
  | nil
  /-- A host I/O that enters no frame. -/
  | hostio (info : HostioInfo) (rest : CallTree)
  /-- A frame that no host I/O follows. -/
  | frame (frame : CallFrame) (body rest : CallTree)
  /-- A frame and the host I/O that entered it. -/
  | call (frame : CallFrame) (body : CallTree) (info : HostioInfo) (rest : CallTree)

/-- The host I/O that enters frames of a type. -/
def callName : String → Option String
  | "CALL" => some "call_contract"
  | "DELEGATECALL" => some "delegate_call_contract"
  | "STATICCALL" => some "static_call_contract"
  | _ => none

namespace CallTree

/-- The events, in order. -/
def events : CallTree → List Event
  | nil => []
  | hostio info rest => .hostio info :: rest.events
  | frame f body rest => .enter f :: (body.events ++ .exit :: rest.events)
  | call f body info rest => .enter f :: (body.events ++ .exit :: .hostio info :: rest.events)

/-- A host I/O that enters a frame has the frame before it, of its own type. -/
def WellFormed : CallTree → Prop
  | nil => True
  | hostio info rest => info.name ∉ nests ∧ rest.WellFormed
  | frame _ body rest => body.WellFormed ∧ rest.WellFormed
  | call f body info rest => callName f.getType = some info.name ∧ body.WellFormed ∧
      rest.WellFormed

end CallTree

/-- The record of a host I/O, as JSON. -/
def HostioInfo.fields (info : HostioInfo) : Json.Fields :=
  [("name", .string info.name), ("args", .string (toHex info.args)),
    ("outs", .string (toHex info.outs)), ("startInk", .number (.posInt info.startInk)),
    ("endInk", .number (.posInt info.endInk))]

/-- The address and the steps of a frame, as JSON. -/
def CallFrame.fields (frame : CallFrame) (steps : List Json.Value) : Json.Fields :=
  [("address", .string (toHex frame.getTo.1)), ("steps", .array steps)]

/-- The records of a tree, one for each item. -/
def CallTree.records : CallTree → List Json.Value
  | nil => []
  | hostio info rest => .object info.fields :: rest.records
  | frame f body rest =>
    .object (f.fields body.records ++ [("name", .string (frameName f.getType))]) :: rest.records
  | call f body info rest => .object (info.fields ++ f.fields body.records) :: rest.records

/-! ## Records in the heap -/

/-- The record of a call : its host I/O's, with the frame merged into it. -/
def callObject (frame : CallFrame) (info : HostioInfo) (inner : ℕ) : Js.Object :=
  info.object ++ [("address", .string (toHex frame.getTo.1)), ("steps", .array inner)]

/-- The objects are the records of a tree, and the arrays they refer to lie from `lo` up to
`hi`, each above the arrays it is nested in. -/
inductive Built (h : Js.Heap) (hi : ℕ) : ℕ → List Js.Object → CallTree → Prop where
  | nil {lo : ℕ} : Built h hi lo [] .nil
  | hostio {lo : ℕ} {objects : List Js.Object} {rest : CallTree} (info : HostioInfo)
      (tail : Built h hi lo objects rest) :
      Built h hi lo (info.object :: objects) (.hostio info rest)
  | frame {lo inner : ℕ} {steps objects : List Js.Object} {body rest : CallTree} (f : CallFrame)
      (lower : lo ≤ inner) (upper : inner < hi) (get : h[inner]? = some steps)
      (nested : Built h hi (inner + 1) steps body) (tail : Built h hi lo objects rest) :
      Built h hi lo (f.object inner :: objects) (.frame f body rest)
  | call {lo inner : ℕ} {steps objects : List Js.Object} {body rest : CallTree} (f : CallFrame)
      (info : HostioInfo) (lower : lo ≤ inner) (upper : inner < hi)
      (get : h[inner]? = some steps) (nested : Built h hi (inner + 1) steps body)
      (tail : Built h hi lo objects rest) :
      Built h hi lo (callObject f info inner :: objects) (.call f body info rest)

/-- Records stay built in a heap that agrees on the arrays they refer to. -/
theorem Built.agree {h h' : Js.Heap} {lo lo' hi hi' : ℕ} {objects : List Js.Object}
    {c : CallTree} (hc : Built h hi lo objects c) (hlo : lo' ≤ lo) (hhi : hi ≤ hi')
    (hagree : ∀ i, lo ≤ i → i < hi → h'[i]? = h[i]?) : Built h' hi' lo' objects c := by
  induction hc generalizing lo' with
  | nil => exact .nil
  | hostio info _ ih => exact .hostio info (ih hlo hagree)
  | frame f lower upper get _ _ ihbody ihrest =>
    refine .frame f (by omega) (by omega) (by rw [hagree _ lower upper, get])
      (ihbody le_rfl fun i hi => hagree i (by omega)) (ihrest hlo hagree)
  | call f info lower upper get _ _ ihbody ihrest =>
    refine .call f info (by omega) (by omega) (by rw [hagree _ lower upper, get])
      (ihbody le_rfl fun i hi => hagree i (by omega)) (ihrest hlo hagree)

/-- The JSON of built records is the tree's, once arrays are followed deep enough. -/
theorem Built.json {h : Js.Heap} {lo hi : ℕ} {objects : List Js.Object} {c : CallTree}
    (hc : Built h hi lo objects c) (fuel : ℕ) (hfuel : hi ≤ lo + fuel) :
    objects.mapM (Js.Heap.objectJson (h.json fuel)) = some c.records := by
  induction hc generalizing fuel with
  | nil => rfl
  | hostio info _ ih =>
    rw [List.mapM_cons, ih fuel hfuel]
    simp [HostioInfo.object, HostioInfo.fields, Js.Heap.objectJson, Js.Heap.json,
      CallTree.records]
  | @frame lo inner _ _ _ _ f lower upper get _ _ ihbody ihrest =>
    obtain ⟨fuel, rfl⟩ : ∃ n, fuel = n + 1 := ⟨fuel - 1, by omega⟩
    have hsteps := Js.Heap.json_array get (ihbody fuel (by omega))
    rw [List.mapM_cons, ihrest _ hfuel]
    simp [CallFrame.object, CallFrame.fields, Js.Heap.objectJson, hsteps, Js.Heap.json.eq_1,
      CallTree.records]
  | @call lo inner _ _ _ _ f info lower upper get _ _ ihbody ihrest =>
    obtain ⟨fuel, rfl⟩ : ∃ n, fuel = n + 1 := ⟨fuel - 1, by omega⟩
    have hsteps := Js.Heap.json_array get (ihbody fuel (by omega))
    rw [List.mapM_cons, ihrest _ hfuel]
    simp [callObject, HostioInfo.object, HostioInfo.fields, CallFrame.fields,
      Js.Heap.objectJson, hsteps, Js.Heap.json.eq_1, Js.Heap.json.eq_2, CallTree.records]

/-! ## Runs -/

theorem callName_eq_some {type name : String} (h : callName type = some name) :
    name ∈ nests ∧ Tracer.substring4 (frameName type) = name := by
  unfold callName at h
  split at h <;> simp only [Option.some.injEq, reduceCtorEq] at h <;> subst h <;> decide

/-- Merging the record of a frame into the one of the host I/O that entered it. -/
theorem assign_object (f : CallFrame) (info : HostioInfo) (inner : ℕ)
    (h : callName f.getType = some info.name) :
    (info.object.assign (f.object inner)).get? "name" = some (.string (frameName f.getType)) ∧
      (info.object.assign (f.object inner)).set "name"
        (.string (Tracer.substring4 (frameName f.getType))) = callObject f info inner := by
  rw [(callName_eq_some h).2]
  exact ⟨rfl, rfl⟩

/-- A host I/O that made a call takes back the record of its frame. -/
theorem hostio_of_callName {t : Tracer} {f : CallFrame} {info : HostioInfo} {r inner : ℕ}
    {objects : List Js.Object} (h : callName f.getType = some info.name)
    (hr : t.openRef = some r) (hobjects : t.heap[r]? = some (objects ++ [f.object inner])) :
    t.hostio info = some { t with heap := (t.heap.pop r).push r (callObject f info inner) } := by
  obtain ⟨hget, hset⟩ := assign_object f info inner h
  simp [Tracer.hostio, hr, (callName_eq_some h).1, hobjects, hget, hset]

/-- From `t` to `t'`, the array `r` has grown by `objects`. The other arrays of `t`, the open
array and the stack are as they were. -/
structure Grows (r : ℕ) (objects : List Js.Object) (t t' : Tracer) : Prop where
  stack : t'.stack = t.stack
  openRef : t'.openRef = t.openRef
  length : t.heap.length ≤ t'.heap.length
  self : t'.heap[r]? = t.heap[r]?.map (· ++ objects)
  others : ∀ i < t.heap.length, i ≠ r → t'.heap[i]? = t.heap[i]?

theorem Grows.refl (r : ℕ) (t : Tracer) : Grows r [] t t :=
  ⟨rfl, rfl, le_rfl, by simp, fun _ _ _ => rfl⟩

theorem Grows.trans {r : ℕ} {objects objects' : List Js.Object} {t t' t'' : Tracer}
    (h : Grows r objects t t') (h' : Grows r objects' t' t'') :
    Grows r (objects ++ objects') t t'' where
  stack := h'.stack.trans h.stack
  openRef := h'.openRef.trans h.openRef
  length := h.length.trans h'.length
  self := by
    rw [h'.self, h.self, Option.map_map]
    simp [Function.comp_def]
  others i hi hne := by
    rw [h'.others i (hi.trans_le h.length) hne, h.others i hi hne]

theorem grows_push (t : Tracer) (r : ℕ) (o : Js.Object) :
    Grows r [o] t { t with heap := t.heap.push r o } :=
  ⟨rfl, rfl, by simp, by simp, fun _ _ hne => Js.Heap.getElem?_push_ne hne.symm⟩

/-- Replacing the record pushed last. -/
theorem Grows.replace {t t' : Tracer} {r : ℕ} {o : Js.Object} (h : Grows r [o] t t')
    (o' : Js.Object) :
    Grows r [o'] t { t' with heap := (t'.heap.pop r).push r o' } where
  stack := h.stack
  openRef := h.openRef
  length := by simpa using h.length
  self := by
    simp only [Js.Heap.getElem?_push_self, Js.Heap.getElem?_pop_self, h.self, Option.map_map]
    simp [Function.comp_def]
  others i hi hne := by
    rw [Js.Heap.getElem?_push_ne hne.symm, Js.Heap.getElem?_pop_ne hne.symm, h.others i hi hne]

/-- Records built above the open array stay built while it grows. -/
theorem Built.grows {t t' : Tracer} {r : ℕ} {objects steps : List Js.Object} {lo : ℕ}
    {c : CallTree} (hc : Built t.heap t.heap.length lo steps c) (hr : r < lo)
    (h : Grows r objects t t') : Built t'.heap t'.heap.length lo steps c :=
  hc.agree le_rfl h.length fun i hlo hhi => h.others i hhi (by omega)

/-- The events `es` push the records of `c` onto the open array. -/
def Pushes (es : List Event) (c : CallTree) : Prop :=
  ∀ (t : Tracer) (r : ℕ), t.openRef = some r → r < t.heap.length →
    ∃ t' objects, t.run es = some t' ∧ Grows r objects t t' ∧
      Built t'.heap t'.heap.length t.heap.length objects c

/-- Entering a frame, running its events and leaving it pushes the frame's record, whose
steps are the records of the body. -/
theorem run_frame {body : CallTree} (hbody : Pushes body.events body) (f : CallFrame)
    {t : Tracer} {r : ℕ} (hr : t.openRef = some r) (hlt : r < t.heap.length) :
    ∃ t' steps, t.run (.enter f :: (body.events ++ [.exit])) = some t' ∧
      Grows r [f.object t.heap.length] t t' ∧ t.heap.length < t'.heap.length ∧
      t'.heap[t.heap.length]? = some steps ∧
      Built t'.heap t'.heap.length (t.heap.length + 1) steps body := by
  set inner := t.heap.length with hinner
  have henter := Tracer.enter_eq f hr
  rw [← hinner] at henter
  set heap := t.heap.alloc.push r (f.object inner) with hheap
  have hlen : heap.length = inner + 1 := by simp [hheap, hinner]
  obtain ⟨t', steps, hrun, hgrows, hbuilt⟩ :=
    hbody ⟨heap, r :: t.stack, some inner⟩ inner rfl (by rw [hlen]; omega)
  have hget : heap[inner]? = some [] := by
    rw [hheap, Js.Heap.getElem?_push_ne (by omega), hinner, Js.Heap.getElem?_alloc_length]
  have hle : inner + 1 ≤ t'.heap.length := hlen ▸ hgrows.length
  refine ⟨t'.exit, steps, ?_, ?_, hle, ?_, ?_⟩
  · rw [Tracer.run_cons, Tracer.step, henter, Option.bind_some, Tracer.run_append, hrun]
    rfl
  · constructor
    · simp [Tracer.exit, hgrows.stack]
    · simp [Tracer.exit, hgrows.stack, hr]
    · exact (Nat.le_succ _).trans hle
    · simp only [Tracer.exit]
      rw [hgrows.others r (by rw [hlen]; omega) (by omega), hheap, Js.Heap.getElem?_push_self,
        Js.Heap.getElem?_alloc_lt hlt]
    · intro i hi hne
      simp only [Tracer.exit]
      rw [hgrows.others i (by rw [hlen]; omega) (by omega), hheap,
        Js.Heap.getElem?_push_ne hne.symm, Js.Heap.getElem?_alloc_lt hi]
  · simp [Tracer.exit, hgrows.self, hget]
  · rw [hlen] at hbuilt
    exact hbuilt

/-- **The tracer computes the records of the tree.** -/
theorem run_events (c : CallTree) (hc : c.WellFormed) : Pushes c.events c := by
  induction c with
  | nil => exact fun t r _ _ => ⟨t, [], rfl, .refl r t, .nil⟩
  | hostio info rest ih =>
    intro t r hr hlt
    have hstep := Tracer.hostio_of_not_nests hc.1 hr
    have hpush := grows_push t r info.object
    obtain ⟨t', objects, hrun, hgrows, hbuilt⟩ :=
      ih hc.2 { t with heap := t.heap.push r info.object } r hr (by simpa using hlt)
    rw [Js.Heap.length_push] at hbuilt
    refine ⟨t', _, ?_, hpush.trans hgrows, .hostio info hbuilt⟩
    rw [CallTree.events, Tracer.run_cons, Tracer.step, hstep, Option.bind_some, hrun]
  | frame f body rest ihbody ihrest =>
    intro t r hr hlt
    obtain ⟨t₁, steps, hrun₁, hgrows₁, hlt₁, hget, hbody⟩ := run_frame (ihbody hc.1) f hr hlt
    obtain ⟨t₂, objects, hrun₂, hgrows₂, hrest⟩ :=
      ihrest hc.2 t₁ r (hgrows₁.openRef.trans hr) (hlt.trans hlt₁)
    refine ⟨t₂, _, ?_, hgrows₁.trans hgrows₂, .frame f le_rfl (hlt₁.trans_le hgrows₂.length) ?_
      (hbody.grows (by omega) hgrows₂) (hrest.agree hlt₁.le le_rfl fun _ _ _ => rfl)⟩
    · have hsplit : (CallTree.frame f body rest).events =
          (.enter f :: (body.events ++ [.exit])) ++ rest.events := by simp [CallTree.events]
      rw [hsplit, Tracer.run_append, hrun₁, Option.bind_some, hrun₂]
    · rw [hgrows₂.others _ hlt₁ (by omega), hget]
  | call f body info rest ihbody ihrest =>
    intro t r hr hlt
    obtain ⟨t₁, steps, hrun₁, hgrows₁, hlt₁, hget, hbody⟩ := run_frame (ihbody hc.2.1) f hr hlt
    obtain ⟨objects₀, hobjects₀⟩ : ∃ os, t.heap[r]? = some os :=
      ⟨_, List.getElem?_eq_getElem hlt⟩
    have hself := hgrows₁.self
    rw [hobjects₀, Option.map_some] at hself
    have hstep := hostio_of_callName hc.1 (hgrows₁.openRef.trans hr) hself
    have hmerge := hgrows₁.replace (callObject f info t.heap.length)
    set t₂ : Tracer :=
      { t₁ with heap := (t₁.heap.pop r).push r (callObject f info t.heap.length) } with ht₂
    have hlen₂ : t₂.heap.length = t₁.heap.length := by simp [ht₂]
    obtain ⟨t₃, objects, hrun₃, hgrows₃, hrest⟩ :=
      ihrest hc.2.2 t₂ r (hmerge.openRef.trans hr) (hlt.trans (hlen₂ ▸ hlt₁))
    have hbody₂ : Built t₂.heap t₂.heap.length (t.heap.length + 1) steps body :=
      hbody.agree le_rfl hlen₂.ge fun i hlo _ => by
        rw [ht₂, Js.Heap.getElem?_push_ne (by omega), Js.Heap.getElem?_pop_ne (by omega)]
    refine ⟨t₃, _, ?_, hmerge.trans hgrows₃, .call f info le_rfl
      ((hlen₂ ▸ hlt₁).trans_le hgrows₃.length) ?_ (hbody₂.grows (by omega) hgrows₃)
      (hrest.agree (hlen₂ ▸ hlt₁.le) le_rfl fun _ _ _ => rfl)⟩
    · have hsplit : (CallTree.call f body info rest).events =
          (.enter f :: (body.events ++ [.exit])) ++ .hostio info :: rest.events := by
        simp [CallTree.events]
      rw [hsplit, Tracer.run_append, hrun₁, Option.bind_some, Tracer.run_cons, Tracer.step, hstep,
        Option.bind_some, hrun₃]
    · rw [hgrows₃.others _ (hlen₂ ▸ hlt₁) (by omega), ht₂, Js.Heap.getElem?_push_ne (by omega),
        Js.Heap.getElem?_pop_ne (by omega), hget]

/-- From the start, the tracer ends with an empty stack and the records of the tree. -/
theorem run_init (c : CallTree) (hc : c.WellFormed) : ∃ t, Tracer.init.run c.events = some t ∧
    t.stack = [] ∧ t.result = some (.array c.records) := by
  obtain ⟨t, objects, hrun, hgrows, hbuilt⟩ := run_events c hc .init 0 rfl (by decide)
  refine ⟨t, hrun, hgrows.stack, ?_⟩
  have hopen : t.openRef = some 0 := hgrows.openRef
  have hself : t.heap[0]? = some objects := by simpa [Tracer.init] using hgrows.self
  have hlen : 1 ≤ t.heap.length := hgrows.length
  obtain ⟨fuel, hfuel⟩ : ∃ n, t.heap.length = n + 1 := ⟨t.heap.length - 1, by omega⟩
  have hjson := hbuilt.json fuel (by simp [Tracer.init]; omega)
  rw [Tracer.result, hopen, hfuel]
  exact Js.Heap.json_array hself hjson

/-! ## The records as a call tree -/

/-- The name of an EVM frame of a type : it says which host I/O would have entered it. -/
def EvmName (type name : String) : Prop :=
  evmPrefix.isPrefixOf name.toList ∧ ∀ n, callName type = some n → name = "evm_" ++ n

/-- The frame types that `enter` lists. -/
def frameTypes : List String :=
  ["CALL", "DELEGATECALL", "STATICCALL", "CREATE", "CREATE2", "SELFDESTRUCT"]

namespace CallTree

/-- The values describe the tree : a host I/O by its record, a call by its host I/O's record
with the frame's address and steps, and another frame by an EVM frame's record. -/
def Describes : CallTree → List Json.Value → Prop
  | nil, vs => vs = []
  | hostio info rest, vs => ∃ vs', vs = .object info.fields :: vs' ∧ rest.Describes vs'
  | frame f body rest, vs => ∃ steps name vs',
      vs = .object (f.fields steps ++ [("name", .string name)]) :: vs' ∧
        EvmName f.getType name ∧ body.Describes steps ∧ rest.Describes vs'
  | call f body info rest, vs => ∃ steps vs',
      vs = .object (info.fields ++ f.fields steps) :: vs' ∧ body.Describes steps ∧
        rest.Describes vs'

/-- Every frame has a type that `enter` lists. -/
def Listed : CallTree → Prop
  | nil => True
  | hostio _ rest => rest.Listed
  | frame f body rest => f.getType ∈ frameTypes ∧ body.Listed ∧ rest.Listed
  | call f body _ rest => f.getType ∈ frameTypes ∧ body.Listed ∧ rest.Listed

end CallTree

theorem evmName_frameName (type : String) :
    EvmName type (frameName type) ↔ type ∈ frameTypes := by
  unfold frameName EvmName
  split
  case h_7 h1 h2 h3 h4 h5 h6 =>
    simpa [evmPrefix, frameTypes] using ⟨h1, h2, h3, h4, h5, h6⟩
  all_goals exact iff_of_true ⟨by decide, by decide⟩ (by decide)

theorem mem_frameTypes_of_callName {type name : String} (h : callName type = some name) :
    type ∈ frameTypes := by
  unfold callName at h
  split at h
  case h_4 => cases h
  all_goals decide

/-- The tracer's records describe the tree exactly when it knows every type of frame. -/
theorem describes_records (c : CallTree) (hc : c.WellFormed) :
    c.Describes c.records ↔ c.Listed := by
  induction c with
  | nil => simp [CallTree.Describes, CallTree.records, CallTree.Listed]
  | hostio info rest ih =>
    simp [CallTree.Describes, CallTree.records, CallTree.Listed, ← ih hc.2]
  | frame f body rest ihbody ihrest =>
    simp [CallTree.Describes, CallTree.records, CallTree.Listed, CallFrame.fields,
      ← ihbody hc.1, ← ihrest hc.2, ← evmName_frameName]
  | call f body info rest ihbody ihrest =>
    simp [CallTree.Describes, CallTree.records, CallTree.Listed, CallFrame.fields,
      ← ihbody hc.2.1, ← ihrest hc.2.2, mem_frameTypes_of_callName hc.1]

/-- **The tracer computes the call tree.** It ends with an empty stack and with records that
describe the tree exactly when every frame has a type that `enter` lists. -/
theorem tracer_computes_callTree_iff (c : CallTree) (hc : c.WellFormed) :
    (∃ t vs, Tracer.init.run c.events = some t ∧ t.stack = [] ∧ t.result = some (.array vs) ∧
      c.Describes vs) ↔ c.Listed := by
  obtain ⟨t, hrun, hstack, hresult⟩ := run_init c hc
  rw [← describes_records c hc]
  refine ⟨fun h => ?_, fun h => ?_⟩
  · obtain ⟨t', vs, hrun', -, hresult', hvs⟩ := h
    obtain rfl : t' = t := Option.some.inj (hrun'.symm.trans hrun)
    have : vs = c.records := by simpa using hresult'.symm.trans hresult
    exact this ▸ hvs
  · exact ⟨t, _, hrun, hstack, hresult, h⟩

/-- A call that asks whether it is reentrant. -/
def sampleCall (rest : CallTree) : CallTree :=
  let address : Address := filled 20 0xab
  .call ⟨"CALL", address⟩ (.hostio ⟨"msg_reentrant", [], be 4 1, 80, 70⟩ .nil)
    ⟨"call_contract", address.1 ++ be 8 5000 ++ be 32 7 ++ [1, 2], be 4 3 ++ be 1 0, 100, 60⟩ rest

/-- The call, then a contract creation. -/
def sampleTree : CallTree :=
  sampleCall (.frame ⟨"CREATE", filled 20 0xcd⟩ .nil .nil)

theorem sampleCall_wellFormed {rest : CallTree} (h : rest.WellFormed) :
    (sampleCall rest).WellFormed :=
  ⟨rfl, ⟨by decide, trivial⟩, h⟩

theorem sampleTree_computed : ∃ t vs, Tracer.init.run sampleTree.events = some t ∧
    t.stack = [] ∧ t.result = some (.array vs) ∧ sampleTree.Describes vs :=
  (tracer_computes_callTree_iff sampleTree (sampleCall_wellFormed ⟨trivial, trivial⟩)).mpr
    ⟨by decide, trivial, by decide, trivial, trivial⟩

/-- A frame entered by `CALLCODE`. -/
def callcodeTree : CallTree :=
  .frame ⟨"CALLCODE", filled 20 0xab⟩ .nil .nil

/-- `enter` does not list `CALLCODE`, so the record of such a frame has no name. -/
theorem callcodeTree_not_computed : callcodeTree.WellFormed ∧
    ¬∃ t vs, Tracer.init.run callcodeTree.events = some t ∧ t.stack = [] ∧
      t.result = some (.array vs) ∧ callcodeTree.Describes vs := by
  have hc : callcodeTree.WellFormed := ⟨trivial, trivial⟩
  obtain ⟨t, hrun, -, hresult⟩ := run_init callcodeTree hc
  refine ⟨hc, ?_⟩
  rintro ⟨t', vs, hrun', -, hresult', hvs⟩
  obtain rfl : t' = t := Option.some.inj (hrun'.symm.trans hrun)
  have hvs' : vs = callcodeTree.records := by simpa using hresult'.symm.trans hresult
  rw [hvs', describes_records _ hc] at hvs
  exact absurd hvs.1 (by decide)

end CargoStylus
