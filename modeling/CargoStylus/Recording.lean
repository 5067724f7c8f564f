import CargoStylus.CallTree
import CargoStylus.ParseFrame

/-!
# What is recorded of a host I/O

The tracer takes every host I/O that is called like one that makes a call to have the record of
its frame before it. So it takes the record before it off, whatever it is, and writes its
fields over its own. If the call failed before a frame was entered, that is the record of
another host I/O, which is lost.

`EventTree` has the events of any transaction, and `traced` what is recorded of them. The
host I/Os that are recorded are those of the events, in their order, exactly if each that is
called like a call comes directly after the exit of a frame of its own type
(`keepsHostios_iff`).
-/

namespace CargoStylus

open Rust Json

/-! ## Events -/

/-- How many frames are open after the events, where `d` are open before them. There is none to
leave where none is open. -/
def depth : ℕ → List Event → Option ℕ
  | d, [] => some d
  | d, .hostio _ :: es => depth d es
  | d, .enter _ :: es => depth (d + 1) es
  | 0, .exit :: _ => none
  | d + 1, .exit :: es => depth d es

/-- Every frame is left, and none that was not entered. -/
def Balanced (es : List Event) : Prop :=
  depth 0 es = some 0

instance (es : List Event) : Decidable (Balanced es) :=
  inferInstanceAs (Decidable (depth 0 es = some 0))

/-- The host I/Os, in order. -/
def hostios (es : List Event) : List HostioInfo :=
  es.filterMap fun
    | .hostio info => some info
    | _ => none

/-- A host I/O that is called like a call comes directly after the exit of the frame `prev`,
of its own type. -/
def FollowsFrame (prev : Option CallFrame) (info : HostioInfo) : Prop :=
  info.name ∈ nests → ∃ f, prev = some f ∧ callName f.getType = some info.name

/-- Every host I/O of the events follows its frame, where the event before them left the frame
`prev`, and the frames on `stack` are open. -/
def CallsFollow : Option CallFrame → List CallFrame → List Event → Prop
  | _, _, [] => True
  | prev, stack, .hostio info :: es => FollowsFrame prev info ∧ CallsFollow none stack es
  | _, stack, .enter f :: es => CallsFollow none (f :: stack) es
  | _, stack, .exit :: es => CallsFollow stack.head? stack.tail es

/-- Each call comes directly after the exit of its frame. -/
def CallsFollowFrames (es : List Event) : Prop :=
  CallsFollow none [] es

/-- The events of a transaction, by the frames they are in. -/
inductive EventTree where
  | nil
  | hostio (info : HostioInfo) (rest : EventTree)
  | frame (frame : CallFrame) (body rest : EventTree)

namespace EventTree

/-- The events, in order. -/
def events : EventTree → List Event
  | nil => []
  | hostio info rest => .hostio info :: rest.events
  | frame f body rest => .enter f :: (body.events ++ .exit :: rest.events)

/-- The host I/Os, in order. -/
def hostios : EventTree → List HostioInfo
  | nil => []
  | hostio info rest => info :: rest.hostios
  | frame _ body rest => body.hostios ++ rest.hostios

/-- Each call comes directly after the exit of its frame, where `prev` is the frame before. -/
def Follows : Option CallFrame → EventTree → Prop
  | _, nil => True
  | prev, hostio info rest => FollowsFrame prev info ∧ Follows none rest
  | _, frame f body rest => Follows none body ∧ Follows (some f) rest

end EventTree

/-- Events that leave `d` frames more than they enter are those of trees, with an exit between
one and the next. -/
theorem exists_trees_of_depth : ∀ {d : ℕ} {es : List Event}, depth d es = some 0 →
    ∃ (c : EventTree) (cs : List EventTree), cs.length = d ∧
      es = c.events ++ cs.flatMap fun c => .exit :: c.events
  | d, [], h => by
    obtain rfl : d = 0 := Option.some.inj h
    exact ⟨.nil, [], rfl, rfl⟩
  | d, .hostio info :: es, h => by
    obtain ⟨c, cs, hlen, rfl⟩ := @exists_trees_of_depth d es h
    exact ⟨.hostio info c, cs, hlen, rfl⟩
  | d, .enter f :: es, h => by
    obtain ⟨body, cs, hlen, rfl⟩ := @exists_trees_of_depth (d + 1) es h
    obtain ⟨rest, cs, rfl⟩ := List.exists_cons_of_length_eq_add_one hlen
    refine ⟨.frame f body rest, cs, Nat.succ.inj hlen, ?_⟩
    simp [EventTree.events]
  | 0, .exit :: es, h => by cases h
  | d + 1, .exit :: es, h => by
    obtain ⟨c, cs, hlen, rfl⟩ := @exists_trees_of_depth d es h
    exact ⟨.nil, c :: cs, congrArg Nat.succ hlen, rfl⟩

/-- Balanced events are those of a tree. -/
theorem Balanced.exists_tree {es : List Event} (h : Balanced es) :
    ∃ c : EventTree, c.events = es := by
  obtain ⟨c, cs, hlen, rfl⟩ := exists_trees_of_depth h
  obtain rfl := List.length_eq_zero_iff.1 hlen
  exact ⟨c, (List.append_nil _).symm⟩

theorem hostios_events (c : EventTree) : hostios c.events = c.hostios := by
  induction c with
  | nil => rfl
  | hostio info rest ih =>
    rw [EventTree.hostios, ← ih]
    rfl
  | frame f body rest ihbody ihrest =>
    have hexit : hostios (body.events ++ .exit :: rest.events) =
        hostios body.events ++ hostios rest.events := List.filterMap_append
    rw [EventTree.hostios, ← ihbody, ← ihrest, ← hexit]
    rfl

/-- Events up to an exit. -/
theorem callsFollow_exit (c : EventTree) : ∀ (prev : Option CallFrame) (stack : List CallFrame)
    (es : List Event), CallsFollow prev stack (c.events ++ .exit :: es) ↔
      c.Follows prev ∧ CallsFollow stack.head? stack.tail es := by
  induction c with
  | nil =>
    intro prev stack es
    exact (true_and _).to_iff.symm
  | hostio info rest ih =>
    intro prev stack es
    rw [EventTree.events, List.cons_append, CallsFollow, ih, EventTree.Follows, and_assoc]
  | frame f body rest ihbody ihrest =>
    intro prev stack es
    rw [EventTree.events, List.cons_append, List.append_assoc, List.cons_append, CallsFollow,
      ihbody, List.head?_cons, List.tail_cons, ihrest, EventTree.Follows, and_assoc]

theorem callsFollow_events (c : EventTree) : ∀ (prev : Option CallFrame)
    (stack : List CallFrame), CallsFollow prev stack c.events ↔ c.Follows prev := by
  induction c with
  | nil =>
    intro prev stack
    rfl
  | hostio info rest ih =>
    intro prev stack
    rw [EventTree.events, CallsFollow, ih, EventTree.Follows]
  | frame f body rest ihbody ihrest =>
    intro prev stack
    rw [EventTree.events, CallsFollow, callsFollow_exit, List.head?_cons, List.tail_cons, ihrest,
      EventTree.Follows]

/-! ## What the tracer makes of them -/

/-- A record. -/
inductive Item where
  | hostio (info : HostioInfo)
  | frame (frame : CallFrame) (steps : CallTree)
  | call (frame : CallFrame) (steps : CallTree) (info : HostioInfo)

namespace Item

/-- A record before others. -/
def cons : Item → CallTree → CallTree
  | hostio info, rest => .hostio info rest
  | frame f steps, rest => .frame f steps rest
  | call f steps info, rest => .call f steps info rest

/-- The frame whose record it is. -/
def frame? : Item → Option CallFrame
  | hostio _ => none
  | frame f _ => some f
  | call _ _ _ => none

end Item

/-- The same but for its name. -/
def HostioInfo.rename (info : HostioInfo) (name : String) : HostioInfo :=
  { info with name }

/-- The record that a call pushes for the last one of the open array. -/
def merge : Option Item → HostioInfo → Item
  | none, info => .hostio (info.rename (Tracer.substring4 info.name))
  | some (.hostio last), _ => .hostio (last.rename (Tracer.substring4 last.name))
  | some (.frame f steps), info =>
    .call f steps (info.rename (Tracer.substring4 (frameName f.getType)))
  | some (.call f steps last), _ => .call f steps (last.rename (Tracer.substring4 last.name))

/-- The last record, if there is one, before others. -/
def consLast : Option Item → CallTree → CallTree
  | none, c => c
  | some item, c => item.cons c

/-- What is recorded of the events of a tree, from the last record before them on. -/
def traced : Option Item → EventTree → CallTree
  | last, .nil => consLast last .nil
  | last, .hostio info rest =>
    if info.name ∈ nests then traced (some (merge last info)) rest
    else consLast last (traced (some (.hostio info)) rest)
  | last, .frame f body rest => consLast last (traced (some (.frame f (traced none body))) rest)

/-- The host I/Os that are recorded, each behind the steps of its frame. -/
def CallTree.infos : CallTree → List HostioInfo
  | nil => []
  | hostio info rest => info :: rest.infos
  | frame _ body rest => body.infos ++ rest.infos
  | call _ body info rest => body.infos ++ info :: rest.infos

/-- The host I/Os of the last record. -/
def lastInfos (last : Option Item) : List HostioInfo :=
  (consLast last .nil).infos

theorem infos_consLast (last : Option Item) (c : CallTree) :
    (consLast last c).infos = lastInfos last ++ c.infos := by
  rcases last with _ | _ | _ | _ <;>
    simp [consLast, lastInfos, Item.cons, CallTree.infos]

theorem substring4_ne {name : String} (h : name ∈ nests) : Tracer.substring4 name ≠ name := by
  simp only [nests, List.mem_cons, List.not_mem_nil, or_false] at h
  rcases h with rfl | rfl | rfl <;> decide

/-- A frame's record gives a call its own name only if the frame is of its type. -/
theorem callName_of_substring4 {type name : String} (hname : name ∈ nests)
    (h : Tracer.substring4 (frameName type) = name) : callName type = some name := by
  subst h
  unfold frameName at hname ⊢
  unfold callName
  split at hname <;> first | rfl | exact absurd hname (by decide)

/-- A call adds a record of its own, under its name only behind the frame of its type, or writes
over that of another host I/O. -/
theorem lastInfos_merge (last : Option Item) (info : HostioInfo) :
    (∃ name, lastInfos (some (merge last info)) = lastInfos last ++ [info.rename name] ∧
      (name = info.name → FollowsFrame (last.bind Item.frame?) info)) ∨
    (lastInfos (some (merge last info))).length = (lastInfos last).length := by
  rcases last with _ | other | ⟨f, steps⟩ | ⟨f, steps, other⟩
  · exact .inl ⟨_, rfl, fun hname hmem => absurd hname (substring4_ne hmem)⟩
  · exact .inr rfl
  · refine .inl ⟨Tracer.substring4 (frameName f.getType), ?_, fun hname hmem => ?_⟩
    · simp [lastInfos, consLast, Item.cons, merge, CallTree.infos]
    · exact ⟨f, rfl, callName_of_substring4 hmem hname⟩
  · exact .inr (by simp [lastInfos, consLast, Item.cons, merge, CallTree.infos])

theorem length_lastInfos_merge_le (last : Option Item) (info : HostioInfo) :
    (lastInfos (some (merge last info))).length ≤ (lastInfos last).length + 1 := by
  obtain ⟨name, heq, -⟩ | heq := lastInfos_merge last info
  · rw [heq, List.length_append, List.length_singleton]
  · omega

/-- A call adds itself behind the frame of its type, and only there. -/
theorem lastInfos_merge_eq_iff {last : Option Item} {info : HostioInfo}
    (hmem : info.name ∈ nests) :
    lastInfos (some (merge last info)) = lastInfos last ++ [info] ↔
      FollowsFrame (last.bind Item.frame?) info := by
  refine ⟨fun h => ?_, fun h => ?_⟩
  · obtain ⟨name, heq, hname⟩ | heq := lastInfos_merge last info
    · have hinfo : info.rename name = info := by
        rw [heq, List.append_cancel_left_eq] at h
        exact List.singleton_inj.1 h
      exact hname (congrArg HostioInfo.name hinfo)
    · rw [h, List.length_append, List.length_singleton] at heq
      omega
  · obtain ⟨f, hframe, hname⟩ := h hmem
    rcases last with _ | other | ⟨g, steps⟩ | ⟨g, steps, other⟩
    · cases hframe
    · cases hframe
    · obtain rfl : g = f := Option.some.inj hframe
      simp [lastInfos, consLast, Item.cons, merge, CallTree.infos, HostioInfo.rename,
        (callName_eq_some hname).2]
    · cases hframe

theorem frame?_merge (last : Option Item) (info : HostioInfo) :
    (merge last info).frame? = none := by
  rcases last with _ | _ | _ | _ <;> rfl

theorem lastInfos_hostio (info : HostioInfo) : lastInfos (some (.hostio info)) = [info] :=
  rfl

theorem lastInfos_frame (f : CallFrame) (steps : CallTree) :
    lastInfos (some (.frame f steps)) = steps.infos :=
  List.append_nil _

/-- Where each call comes after its frame, its host I/Os are those of the events. -/
theorem infos_traced (c : EventTree) : ∀ last : Option Item,
    c.Follows (last.bind Item.frame?) → (traced last c).infos = lastInfos last ++ c.hostios := by
  induction c with
  | nil => exact fun last _ => infos_consLast last .nil
  | hostio info rest ih =>
    intro last h
    rw [traced, EventTree.hostios]
    split_ifs with hmem
    · have hrest : rest.Follows ((some (merge last info)).bind Item.frame?) := by
        rw [Option.bind_some, frame?_merge]
        exact h.2
      rw [ih _ hrest, (lastInfos_merge_eq_iff hmem).2 h.1, List.append_assoc,
        List.singleton_append]
    · rw [infos_consLast, ih (some (.hostio info)) h.2, lastInfos_hostio, List.singleton_append]
  | frame f body rest ihbody ihrest =>
    intro last h
    rw [traced, infos_consLast, ihrest (some (.frame f (traced none body))) h.2,
      lastInfos_frame, ihbody none h.1]
    rfl

/-- No more host I/Os are recorded than there are. -/
theorem length_infos_traced_le (c : EventTree) : ∀ last : Option Item,
    (traced last c).infos.length ≤ (lastInfos last).length + c.hostios.length := by
  induction c with
  | nil =>
    intro last
    rw [traced, infos_consLast, List.length_append]
    rfl
  | hostio info rest ih =>
    intro last
    rw [traced, EventTree.hostios, List.length_cons]
    split_ifs with hmem
    · have hle := ih (some (merge last info))
      have hmerge := length_lastInfos_merge_le last info
      omega
    · have hle := ih (some (.hostio info))
      rw [lastInfos_hostio, List.length_singleton] at hle
      rw [infos_consLast, List.length_append]
      omega
  | frame f body rest ihbody ihrest =>
    intro last
    have hbody := ihbody none
    have hrest := ihrest (some (.frame f (traced none body)))
    rw [lastInfos_frame] at hrest
    have hnil : (lastInfos none).length = 0 := rfl
    rw [traced, infos_consLast, EventTree.hostios, List.length_append, List.length_append]
    omega

/-- If none is lost, the last record stays. -/
theorem lastInfos_prefix_infos_traced (c : EventTree) : ∀ last : Option Item,
    (traced last c).infos.length = (lastInfos last).length + c.hostios.length →
    lastInfos last <+: (traced last c).infos := by
  induction c with
  | nil =>
    intro last _
    rw [traced, infos_consLast]
    exact List.prefix_append _ _
  | hostio info rest ih =>
    intro last hlen
    rw [traced] at hlen ⊢
    split_ifs at hlen ⊢ with hmem
    · rw [EventTree.hostios, List.length_cons] at hlen
      obtain ⟨name, heq, -⟩ | heq := lastInfos_merge last info
      · have hprefix := ih (some (merge last info)) (by simp [heq]; omega)
        rw [heq] at hprefix
        exact (List.prefix_append _ _).trans hprefix
      · have hle := length_infos_traced_le rest (some (merge last info))
        omega
    · rw [infos_consLast]
      exact List.prefix_append _ _
  | frame f body rest _ _ =>
    intro last _
    rw [traced, infos_consLast]
    exact List.prefix_append _ _

/-- Host I/Os before those of the events are those of the last record, if it has no more. -/
theorem lastInfos_eq_of_infos_traced {c : EventTree} {last : Option Item}
    {infos : List HostioInfo} (hle : (lastInfos last).length ≤ infos.length)
    (h : (traced last c).infos = infos ++ c.hostios) : lastInfos last = infos := by
  have hlen := congrArg List.length h
  rw [List.length_append] at hlen
  have hbound := length_infos_traced_le c last
  obtain ⟨tail, htail⟩ := lastInfos_prefix_infos_traced c last (by omega)
  exact (List.append_inj (htail.trans h) (by omega)).1

/-- The host I/Os are those of the events only where each call comes after its frame. -/
theorem follows_of_infos_traced (c : EventTree) : ∀ last : Option Item,
    (traced last c).infos = lastInfos last ++ c.hostios → c.Follows (last.bind Item.frame?) := by
  induction c with
  | nil => exact fun _ _ => trivial
  | hostio info rest ih =>
    intro last h
    rw [traced, EventTree.hostios] at h
    split_ifs at h with hmem
    · rw [List.append_cons] at h
      have hle : (lastInfos (some (merge last info))).length ≤
          (lastInfos last ++ [info]).length := by
        rw [List.length_append]
        exact length_lastInfos_merge_le last info
      have hmerge := lastInfos_eq_of_infos_traced hle h
      have hrest := ih (some (merge last info)) (by rw [h, hmerge])
      rw [Option.bind_some, frame?_merge] at hrest
      exact ⟨(lastInfos_merge_eq_iff hmem).1 hmerge, hrest⟩
    · rw [infos_consLast, List.append_cancel_left_eq] at h
      exact ⟨fun hmem' => absurd hmem' hmem, ih (some (.hostio info)) h⟩
  | frame f body rest ihbody ihrest =>
    intro last h
    rw [traced, infos_consLast, List.append_cancel_left_eq, EventTree.hostios] at h
    have hle := length_infos_traced_le body none
    rw [← lastInfos_frame f] at hle
    have hbody := lastInfos_eq_of_infos_traced (hle.trans_eq (Nat.zero_add _)) h
    have hrest := ihrest (some (.frame f (traced none body))) (by rw [h, hbody])
    rw [lastInfos_frame] at hbody
    exact ⟨ihbody none hbody, hrest⟩

theorem infos_traced_iff (c : EventTree) :
    (traced none c).infos = c.hostios ↔ c.Follows none :=
  ⟨follows_of_infos_traced c none, infos_traced c none⟩

/-! ## The records in the heap -/

/-- From `t` to `t'`, the array `r` changed from `objects` to `objects'`. The other arrays of `t`,
the open array and the stack are as they were. -/
structure Changes (r : ℕ) (objects objects' : List Js.Object) (t t' : Tracer) : Prop where
  stack : t'.stack = t.stack
  openRef : t'.openRef = t.openRef
  length : t.heap.length ≤ t'.heap.length
  before : t.heap[r]? = some objects
  after : t'.heap[r]? = some objects'
  others : ∀ i < t.heap.length, i ≠ r → t'.heap[i]? = t.heap[i]?

theorem Changes.trans {r : ℕ} {objects objects' objects'' : List Js.Object} {t t' t'' : Tracer}
    (h : Changes r objects objects' t t') (h' : Changes r objects' objects'' t' t'') :
    Changes r objects objects'' t t'' where
  stack := h'.stack.trans h.stack
  openRef := h'.openRef.trans h.openRef
  length := h.length.trans h'.length
  before := h.before
  after := h'.after
  others i hi hne := by
    rw [h'.others i (hi.trans_le h.length) hne, h.others i hi hne]

/-- The last record of the open array, behind `front`, is that of `last`. Without one the array
is empty. -/
structure Pending (t : Tracer) (r lo : ℕ) (front objects : List Js.Object) (last : Option Item) :
    Prop where
  openRef : t.openRef = some r
  get : t.heap[r]? = some (front ++ objects)
  below : r < lo
  bound : lo ≤ t.heap.length
  built : Built t.heap t.heap.length lo objects (consLast last .nil)
  empty : last = none → front = []

theorem front_eq_nil_of_some {item : Item} {front : List Js.Object} (h : some item = none) :
    front = [] :=
  absurd h (Option.some_ne_none item)

/-- The events of `c` leave the records of `traced last c` on the open array. -/
def Traces (c : EventTree) : Prop :=
  ∀ (t : Tracer) (r lo : ℕ) (front objects : List Js.Object) (last : Option Item),
    Pending t r lo front objects last →
    ∃ t' objects', t.run c.events = some t' ∧
      Changes r (front ++ objects) (front ++ objects') t t' ∧
      Built t'.heap t'.heap.length lo objects' (traced last c)

/-- Records behind the last one. -/
theorem Built.consLast {h : Js.Heap} {lo hi : ℕ} {objects objects' : List Js.Object}
    {last : Option Item} {c : CallTree} (hlast : Built h hi lo objects (consLast last .nil))
    (hc : Built h hi lo objects' c) :
    Built h hi lo (objects ++ objects') (CargoStylus.consLast last c) := by
  rcases last with _ | info | ⟨f, steps⟩ | ⟨f, steps, info⟩
  · have hnil : Built h hi lo objects .nil := hlast
    cases hnil
    exact hc
  · obtain - | ⟨_, ⟨⟩⟩ := hlast
    exact .hostio info hc
  · obtain - | - | ⟨_, lower, upper, get, nested, ⟨⟩⟩ := hlast
    exact .frame f lower upper get nested hc
  · obtain - | - | - | ⟨_, _, lower, upper, get, nested, ⟨⟩⟩ := hlast
    exact .call f info lower upper get nested hc

/-- The last record stays where it is while the open array changes behind it. -/
theorem Pending.built_of_changes {t t' : Tracer} {r lo : ℕ}
    {front objects objects₁ objects₂ : List Js.Object} {last : Option Item}
    (h : Pending t r lo front objects last) (hchanges : Changes r objects₁ objects₂ t t') :
    Built t'.heap t'.heap.length lo objects (CargoStylus.consLast last .nil) :=
  h.built.agree le_rfl hchanges.length fun i hlo hhi =>
    hchanges.others i hhi (by have := h.below; omega)

/-- With another record for the last one. -/
theorem Pending.replace {t : Tracer} {r lo : ℕ} {front objects : List Js.Object}
    {last : Option Item} (h : Pending t r lo front objects last) {object : Js.Object} {item : Item}
    (hfront : (front ++ objects).dropLast = front)
    (hbuilt : Built t.heap t.heap.length lo [object] (item.cons .nil)) :
    Pending { t with heap := (t.heap.pop r).push r object } r lo front [object] (some item) ∧
      Changes r (front ++ objects) (front ++ [object]) t
        { t with heap := (t.heap.pop r).push r object } := by
  have hlen : ((t.heap.pop r).push r object).length = t.heap.length := by simp
  have hself : ((t.heap.pop r).push r object)[r]? = some (front ++ [object]) := by
    rw [Js.Heap.getElem?_push_self, Js.Heap.getElem?_pop_self, h.get, Option.map_some,
      Option.map_some, hfront]
  have hothers : ∀ i, i ≠ r → ((t.heap.pop r).push r object)[i]? = t.heap[i]? := fun i hne => by
    rw [Js.Heap.getElem?_push_ne hne.symm, Js.Heap.getElem?_pop_ne hne.symm]
  refine ⟨⟨h.openRef, hself, h.below, hlen.symm ▸ h.bound, ?_, front_eq_nil_of_some⟩,
    ⟨rfl, rfl, hlen.ge, h.get, hself, fun i _ => hothers i⟩⟩
  exact hbuilt.agree le_rfl hlen.ge fun i hlo _ => hothers i (by have := h.below; omega)

/-- What a call makes of the last record : it takes all its fields, and then loses four characters
of its name. -/
theorem Pending.merged {t : Tracer} {r lo : ℕ} {front objects : List Js.Object}
    {last : Option Item} (h : Pending t r lo front objects last) (info : HostioInfo) :
    ∃ object name, (info.object.assign ((front ++ objects).getLast?.getD [])).get? "name" =
        some (.string name) ∧
      (info.object.assign ((front ++ objects).getLast?.getD [])).set "name"
        (.string (Tracer.substring4 name)) = object ∧
      (front ++ objects).dropLast = front ∧
      Built t.heap t.heap.length lo [object] ((merge last info).cons .nil) := by
  have hbuilt := h.built
  rcases last with _ | other | ⟨f, steps⟩ | ⟨f, steps, other⟩
  · obtain rfl := h.empty rfl
    have hnil : Built t.heap t.heap.length lo objects .nil := hbuilt
    cases hnil
    exact ⟨_, info.name, rfl, rfl, rfl, .hostio (info.rename _) .nil⟩
  · obtain - | ⟨_, ⟨⟩⟩ := hbuilt
    rw [List.getLast?_concat, List.dropLast_concat]
    exact ⟨_, other.name, rfl, rfl, rfl, .hostio (other.rename _) .nil⟩
  · obtain - | - | ⟨_, lower, upper, get, nested, ⟨⟩⟩ := hbuilt
    rw [List.getLast?_concat, List.dropLast_concat]
    exact ⟨_, frameName f.getType, rfl, rfl, rfl,
      .call f (info.rename _) lower upper get nested .nil⟩
  · obtain - | - | - | ⟨_, _, lower, upper, get, nested, ⟨⟩⟩ := hbuilt
    rw [List.getLast?_concat, List.dropLast_concat]
    exact ⟨_, other.name, rfl, rfl, rfl, .call f (other.rename _) lower upper get nested .nil⟩

/-- A call takes the last record off and pushes one for it. -/
theorem Pending.hostio_of_nests {t : Tracer} {r lo : ℕ} {front objects : List Js.Object}
    {last : Option Item} (h : Pending t r lo front objects last) {info : HostioInfo}
    (hmem : info.name ∈ nests) :
    ∃ t' object, t.hostio info = some t' ∧ Pending t' r lo front [object] (some (merge last info)) ∧
      Changes r (front ++ objects) (front ++ [object]) t t' := by
  obtain ⟨object, name, hname, hobject, hfront, hbuilt⟩ := h.merged info
  refine ⟨_, object, ?_, h.replace hfront hbuilt⟩
  simp only [Tracer.hostio, h.openRef, h.get, Option.bind_eq_bind, Option.bind_some, if_pos hmem,
    hname, hobject, Option.pure_def]

/-- A host I/O that is not called like a call is pushed. -/
theorem Pending.hostio_of_not_nests {t : Tracer} {r lo : ℕ} {front objects : List Js.Object}
    {last : Option Item} (h : Pending t r lo front objects last) {info : HostioInfo}
    (hmem : info.name ∉ nests) :
    ∃ t', t.hostio info = some t' ∧
      Pending t' r lo (front ++ objects) [info.object] (some (.hostio info)) ∧
      Changes r (front ++ objects) (front ++ objects ++ [info.object]) t t' := by
  have hlen : (t.heap.push r info.object).length = t.heap.length := Js.Heap.length_push _ _ _
  have hself : (t.heap.push r info.object)[r]? = some (front ++ objects ++ [info.object]) := by
    rw [Js.Heap.getElem?_push_self, h.get, Option.map_some]
  exact ⟨_, Tracer.hostio_of_not_nests hmem h.openRef,
    ⟨h.openRef, hself, h.below, hlen.symm ▸ h.bound, .hostio info .nil, front_eq_nil_of_some⟩,
    ⟨rfl, rfl, hlen.ge, h.get, hself, fun i _ hne => Js.Heap.getElem?_push_ne hne.symm⟩⟩

/-- Entering a frame, running its events and leaving it pushes the frame's record. -/
theorem Pending.run_frame {t : Tracer} {r lo : ℕ} {front objects : List Js.Object}
    {last : Option Item} (h : Pending t r lo front objects last) {body : EventTree}
    (hbody : Traces body) (f : CallFrame) :
    ∃ t' object, t.run (.enter f :: (body.events ++ [.exit])) = some t' ∧
      Pending t' r lo (front ++ objects) [object] (some (.frame f (traced none body))) ∧
      Changes r (front ++ objects) (front ++ objects ++ [object]) t t' := by
  set inner := t.heap.length with hinner
  have henter := Tracer.enter_eq f h.openRef
  rw [← hinner] at henter
  set heap := t.heap.alloc.push r (f.object inner) with hheap
  have hlen : heap.length = inner + 1 := by simp [hheap, hinner]
  have hlt : r < inner := h.below.trans_le h.bound
  have hget : heap[inner]? = some [] := by
    rw [hheap, Js.Heap.getElem?_push_ne hlt.ne, hinner, Js.Heap.getElem?_alloc_length]
  obtain ⟨t', steps, hrun, hchanges, hsteps⟩ := hbody ⟨heap, r :: t.stack, some inner⟩ inner
    (inner + 1) [] [] none ⟨rfl, hget, by omega, hlen.ge, .nil, fun _ => rfl⟩
  have hle : inner + 1 ≤ t'.heap.length := hlen ▸ hchanges.length
  have hself : t'.heap[r]? = some (front ++ objects ++ [f.object inner]) := by
    rw [hchanges.others r (by rw [hlen]; omega) hlt.ne, hheap, Js.Heap.getElem?_push_self,
      Js.Heap.getElem?_alloc_lt hlt, h.get, Option.map_some]
  have hopen : t'.exit.openRef = some r := by simp [Tracer.exit, hchanges.stack]
  refine ⟨t'.exit, f.object inner, ?_, ⟨hopen, hself, h.below, ?_, ?_, front_eq_nil_of_some⟩,
    ⟨?_, hopen.trans h.openRef.symm, ?_, h.get, hself, ?_⟩⟩
  · rw [Tracer.run_cons, Tracer.step, henter, Option.bind_some, Tracer.run_append, hrun]
    rfl
  · exact h.bound.trans (by simp only [Tracer.exit]; omega)
  · exact .frame f h.bound hle hchanges.after hsteps .nil
  · simp [Tracer.exit, hchanges.stack]
  · simp only [Tracer.exit]
    omega
  · intro i hi hne
    simp only [Tracer.exit]
    rw [hchanges.others i (by rw [hlen]; omega) (by omega), hheap,
      Js.Heap.getElem?_push_ne hne.symm, Js.Heap.getElem?_alloc_lt hi]

/-- The run of the events of a tree. -/
theorem run_traced (c : EventTree) : Traces c := by
  induction c with
  | nil =>
    intro t r lo front objects last h
    exact ⟨t, objects, rfl, ⟨rfl, rfl, le_rfl, h.get, h.get, fun _ _ _ => rfl⟩, h.built⟩
  | hostio info rest ih =>
    intro t r lo front objects last h
    rw [traced]
    split_ifs with hmem
    · obtain ⟨t₁, object, hstep, hpending, hchanges⟩ := h.hostio_of_nests hmem
      obtain ⟨t₂, objects₂, hrun, hrest, hbuilt⟩ := ih _ _ _ _ _ _ hpending
      refine ⟨t₂, objects₂, ?_, hchanges.trans hrest, hbuilt⟩
      rw [EventTree.events, Tracer.run_cons, Tracer.step, hstep, Option.bind_some, hrun]
    · obtain ⟨t₁, hstep, hpending, hchanges⟩ := h.hostio_of_not_nests hmem
      obtain ⟨t₂, objects₂, hrun, hrest, hbuilt⟩ := ih _ _ _ _ _ _ hpending
      have hall := hchanges.trans hrest
      refine ⟨t₂, objects ++ objects₂, ?_, ?_, (h.built_of_changes hall).consLast hbuilt⟩
      · rw [EventTree.events, Tracer.run_cons, Tracer.step, hstep, Option.bind_some, hrun]
      · rwa [List.append_assoc] at hall
  | frame f body rest ihbody ihrest =>
    intro t r lo front objects last h
    obtain ⟨t₁, object, hrun₁, hpending, hchanges⟩ := h.run_frame ihbody f
    obtain ⟨t₂, objects₂, hrun₂, hrest, hbuilt⟩ := ihrest _ _ _ _ _ _ hpending
    have hall := hchanges.trans hrest
    refine ⟨t₂, objects ++ objects₂, ?_, ?_, (h.built_of_changes hall).consLast hbuilt⟩
    · have hsplit : (EventTree.frame f body rest).events =
          (.enter f :: (body.events ++ [.exit])) ++ rest.events := by
        simp [EventTree.events]
      rw [hsplit, Tracer.run_append, hrun₁, Option.bind_some, hrun₂]
    · rwa [List.append_assoc] at hall

/-! ## The records in the result -/

/-- The string at a key. -/
def textAt (m : Fields) (k : String) : Option String :=
  (m.get? k).bind asString

/-- The bytes whose hex is at a key. -/
def bytesAt (m : Fields) (k : String) : Option Bytes :=
  (textAt m k).bind ofHex

/-- The ink at a key. -/
def inkAt (m : Fields) (k : String) : Option U64 :=
  ((m.get? k).bind asNumber).bind Number.asU64

/-- The host I/O that an object is the record of. -/
def recordOf? (m : Fields) : Option HostioInfo := do
  return { name := ← textAt m "name", args := ← bytesAt m "args", outs := ← bytesAt m "outs",
           startInk := ← inkAt m "startInk", endInk := ← inkAt m "endInk" }

mutual

/-- The host I/Os recorded in a value, each behind what is recorded inside its own record. -/
def recorded : Value → List HostioInfo
  | .array values => recordedValues values
  | .object m => recordedFields m ++ (recordOf? m).toList
  | _ => []

/-- The host I/Os recorded in the elements of an array, in order. -/
def recordedValues : List Value → List HostioInfo
  | [] => []
  | v :: vs => recorded v ++ recordedValues vs

/-- The host I/Os recorded in the members of an object, in order. -/
def recordedFields : List (String × Value) → List HostioInfo
  | [] => []
  | e :: es => recorded e.2 ++ recordedFields es

end

theorem recordOf?_fields (info : HostioInfo) (m : Fields) :
    recordOf? (info.fields ++ m) = some info := by
  simp [recordOf?, textAt, bytesAt, inkAt, HostioInfo.fields, asString, asNumber, Number.asU64]

theorem recordOf?_frame (f : CallFrame) (steps : List Value) (name : String) :
    recordOf? (f.fields steps ++ [("name", .string name)]) = none := by
  simp [recordOf?, textAt, bytesAt, CallFrame.fields, asString]

theorem recordedFields_append (m m' : Fields) :
    recordedFields (m ++ m') = recordedFields m ++ recordedFields m' := by
  induction m with
  | nil => rfl
  | cons e m ih =>
    rw [List.cons_append, recordedFields, ih, recordedFields, List.append_assoc]

theorem recordedFields_info (info : HostioInfo) : recordedFields info.fields = [] := by
  simp [recordedFields, HostioInfo.fields, recorded]

theorem recordedFields_frame (f : CallFrame) (steps : List Value) :
    recordedFields (f.fields steps) = recordedValues steps := by
  simp [recordedFields, CallFrame.fields, recorded]

theorem recordedValues_records (c : CallTree) : recordedValues c.records = c.infos := by
  induction c with
  | nil => rfl
  | hostio info rest ih =>
    have hinfo := recordOf?_fields info []
    rw [List.append_nil] at hinfo
    rw [CallTree.records, recordedValues, recorded, recordedFields_info, hinfo, ih]
    rfl
  | frame f body rest ihbody ihrest =>
    rw [CallTree.records, recordedValues, recorded, recordedFields_append, recordedFields_frame,
      recordOf?_frame, ihbody, ihrest]
    simp [recordedFields, recorded, CallTree.infos]
  | call f body info rest ihbody ihrest =>
    rw [CallTree.records, recordedValues, recorded, recordedFields_append, recordedFields_info,
      recordedFields_frame, recordOf?_fields, ihbody, ihrest]
    simp [CallTree.infos]

/-- The events do not make the tracer throw, and its result has each host I/O recorded once, as
it is, in the order of the events. -/
def KeepsHostios (es : List Event) : Prop :=
  ∃ t v, Tracer.init.run es = some t ∧ t.result = some v ∧ recorded v = hostios es

/-- From the start, the result has the records of `traced`. -/
theorem run_init_traced (c : EventTree) :
    ∃ t, Tracer.init.run c.events = some t ∧ t.result = some (.array (traced none c).records) := by
  obtain ⟨t, objects, hrun, hchanges, hbuilt⟩ := run_traced c .init 0 1 [] [] none
    ⟨rfl, rfl, by decide, by decide, .nil, fun _ => rfl⟩
  refine ⟨t, hrun, ?_⟩
  have hopen : t.openRef = some 0 := hchanges.openRef
  have hlen : 1 ≤ t.heap.length := hchanges.length
  obtain ⟨fuel, hfuel⟩ : ∃ n, t.heap.length = n + 1 := ⟨t.heap.length - 1, by omega⟩
  have hjson := hbuilt.json fuel (by omega)
  rw [Tracer.result, hopen, hfuel]
  exact Js.Heap.json_array hchanges.after hjson

/-- The host I/Os of a run are those of `traced`. -/
theorem keepsHostios_events_iff (c : EventTree) :
    KeepsHostios c.events ↔ (traced none c).infos = c.hostios := by
  obtain ⟨t, hrun, hresult⟩ := run_init_traced c
  have hrecorded : recorded (.array (traced none c).records) = (traced none c).infos := by
    rw [recorded, recordedValues_records]
  rw [← hostios_events, ← hrecorded]
  refine ⟨fun h => ?_, fun h => ⟨t, _, hrun, hresult, h⟩⟩
  obtain ⟨t', v, hrun', hresult', hv⟩ := h
  obtain rfl : t' = t := Option.some.inj (hrun'.symm.trans hrun)
  obtain rfl := Option.some.inj (hresult'.symm.trans hresult)
  exact hv

/-- The host I/Os are kept exactly if each that is called like a call comes directly after the
exit of a frame of its own type. -/
theorem keepsHostios_iff {es : List Event} (h : Balanced es) :
    KeepsHostios es ↔ CallsFollowFrames es := by
  obtain ⟨c, rfl⟩ := h.exists_tree
  rw [keepsHostios_events_iff, infos_traced_iff, CallsFollowFrames, callsFollow_events]

/-- A call with a host I/O inside its frame. -/
def callEvents : List Event :=
  [.enter ⟨"CALL", filled 20 0xab⟩, .hostio ⟨"msg_reentrant", [], be 4 1, 80, 70⟩, .exit,
    .hostio ⟨"call_contract", filled 20 0xab, be 1 0, 100, 60⟩]

theorem callEvents_kept : KeepsHostios callEvents :=
  (keepsHostios_iff (by decide)).2
    ⟨fun h => absurd h (by decide), fun _ => ⟨_, rfl, rfl⟩, trivial⟩

/-- A call that fails before a frame is entered, after a host I/O. -/
def failedCallEvents : List Event :=
  [.hostio ⟨"msg_reentrant", [], be 4 1, 80, 70⟩,
    .hostio ⟨"call_contract", filled 20 0xab, be 1 1, 60, 50⟩]

/-- The call is recorded under the fields of the host I/O before it, and that one is lost. -/
theorem failedCallEvents_not_kept : Balanced failedCallEvents ∧ ¬KeepsHostios failedCallEvents := by
  refine ⟨by decide, fun h => ?_⟩
  have hinfos := (keepsHostios_events_iff (.hostio ⟨"msg_reentrant", [], be 4 1, 80, 70⟩
    (.hostio ⟨"call_contract", filled 20 0xab, be 1 1, 60, 50⟩ .nil))).1 h
  exact absurd (congrArg List.length hinfos) (by decide)

end CargoStylus
