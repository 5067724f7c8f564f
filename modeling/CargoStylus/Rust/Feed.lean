import CargoStylus.Rust.Outcome
import Mathlib.Logic.Relation

/-!
# A worker thread and the thread it feeds

A worker computes items in order and sends each over a channel, a value or an error. The
thread that receives them stops at the first error, and otherwise when the channel is
closed. The channel closes when the worker ends, and it ends in the same way when it is done
and when it panics : the receiver cannot tell.

What the receiver gets does not depend on how the two threads interleave. It is `drain` of
the items (`result_eq`), the values before the first item that is none, and an error only if
that item is one. Every step makes `remaining` smaller (`remaining_lt`), and a thread that
still receives can always step (`exists_step`), so every run ends
(`exists_result_of_reachable`).
-/

namespace Rust

/-- A worker, the channel, and the thread that receives. -/
structure Feed (ε β : Type) where
  /-- What the worker has not computed yet. -/
  todo : List (Outcome ε β)
  running : Bool
  /-- What was sent and not received. -/
  channel : List (Except ε β)
  received : List β
  /-- How the receiver ended, if it has. -/
  result : Option (Except ε Unit)

namespace Feed

variable {ε β : Type}

/-- Nothing is sent yet. -/
def start (items : List (Outcome ε β)) : Feed ε β :=
  ⟨items, true, [], [], none⟩

/-- One step of either thread. -/
inductive Step : Feed ε β → Feed ε β → Prop
  | send (item : Except ε β) {todo : List (Outcome ε β)} {channel : List (Except ε β)}
      {received : List β} :
      Step ⟨.ofExcept item :: todo, true, channel, received, none⟩
        ⟨todo, true, channel ++ [item], received, none⟩
  /-- Nobody receives any more, and sending panics. -/
  | sendFails {item : Except ε β} {todo : List (Outcome ε β)} {channel : List (Except ε β)}
      {received : List β} {r : Except ε Unit} :
      Step ⟨.ofExcept item :: todo, true, channel, received, some r⟩
        ⟨.ofExcept item :: todo, false, channel, received, some r⟩
  /-- Computing the item panics. -/
  | crash {m : String} {todo : List (Outcome ε β)} {channel : List (Except ε β)}
      {received : List β} {result : Option (Except ε Unit)} :
      Step ⟨.panic m :: todo, true, channel, received, result⟩
        ⟨.panic m :: todo, false, channel, received, result⟩
  | done {channel : List (Except ε β)} {received : List β} {result : Option (Except ε Unit)} :
      Step ⟨[], true, channel, received, result⟩ ⟨[], false, channel, received, result⟩
  | receive {b : β} {todo : List (Outcome ε β)} {running : Bool} {channel : List (Except ε β)}
      {received : List β} :
      Step ⟨todo, running, .ok b :: channel, received, none⟩
        ⟨todo, running, channel, received ++ [b], none⟩
  | fail {e : ε} {todo : List (Outcome ε β)} {running : Bool} {channel : List (Except ε β)}
      {received : List β} :
      Step ⟨todo, running, .error e :: channel, received, none⟩
        ⟨todo, running, channel, received, some (.error e)⟩
  /-- The channel is empty and closed. -/
  | close {todo : List (Outcome ε β)} {received : List β} :
      Step ⟨todo, false, [], received, none⟩ ⟨todo, false, [], received, some (.ok ())⟩

/-- A state of a run on `items`, whatever the order of steps. -/
def Reachable (items : List (Outcome ε β)) (s : Feed ε β) : Prop :=
  Relation.ReflTransGen Step (start items) s

/-- The values before the first item that is none, and an error if it is one. -/
def drain : List (Outcome ε β) → List β × Except ε Unit
  | [] => ([], .ok ())
  | .ok b :: items => (b :: (drain items).1, (drain items).2)
  | .err e :: _ => ([], .error e)
  | .panic _ :: _ => ([], .ok ())

theorem drain_append : ∀ (values : List β) (items : List (Outcome ε β)),
    drain (values.map .ok ++ items) = (values ++ (drain items).1, (drain items).2)
  | [], _ => rfl
  | b :: values, items => by
    rw [List.map_cons, List.cons_append, drain, drain_append values items]
    rfl

theorem drain_map_ok (values : List β) :
    drain (values.map (.ok : β → Outcome ε β)) = (values, .ok ()) := by
  have h := drain_append values ([] : List (Outcome ε β))
  rwa [List.append_nil, drain, List.append_nil] at h

/-- The receiver ends without an error when there is nothing but values, or a panic behind
them. -/
theorem drain_eq_ok {items : List (Outcome ε β)} {values : List β} :
    drain items = (values, .ok ()) ↔
      items = values.map .ok ∨ ∃ m rest, items = values.map .ok ++ .panic m :: rest := by
  refine ⟨fun h => ?_, fun h => ?_⟩
  · induction items generalizing values with
    | nil =>
      obtain rfl : [] = values := congrArg Prod.fst h
      exact .inl rfl
    | cons item items ih =>
      rcases item with b | e | m
      · obtain ⟨rfl, hr⟩ : b :: (drain items).1 = values ∧ (drain items).2 = .ok () :=
          Prod.mk.inj h
        rcases ih (Prod.ext rfl hr) with heq | ⟨m, rest, heq⟩
        · exact .inl (congrArg (List.cons (.ok b)) heq)
        · exact .inr ⟨m, rest, congrArg (List.cons (.ok b)) heq⟩
      · have hr : Except.error e = .ok () := congrArg Prod.snd h
        cases hr
      · obtain rfl : [] = values := congrArg Prod.fst h
        exact .inr ⟨m, items, rfl⟩
  · rcases h with rfl | ⟨m, rest, rfl⟩
    · exact drain_map_ok values
    · rw [drain_append, drain, List.append_nil]

/-! ## What the receiver gets -/

/-- The worker has nothing more to send. -/
def Ended : List (Outcome ε β) → Prop
  | [] => True
  | .panic _ :: _ => True
  | _ => False

theorem drain_of_ended {items : List (Outcome ε β)} (h : Ended items) :
    drain items = ([], .ok ()) := by
  rcases items with _ | ⟨b | e | m, items⟩
  · rfl
  · cases h
  · cases h
  · rfl

/-- The items are those received, those sent and those to come, until the receiver ends. -/
def Inv (items : List (Outcome ε β)) (s : Feed ε β) : Prop :=
  match s.result with
  | none => items = s.received.map .ok ++ (s.channel.map .ofExcept ++ s.todo) ∧
      (s.running = false → Ended s.todo)
  | some r => drain items = (s.received, r)

theorem inv_step {items : List (Outcome ε β)} {s s' : Feed ε β} (hstep : Step s s')
    (h : Inv items s) : Inv items s' := by
  rcases hstep with _ | _ | @⟨m, todo, channel, received, result⟩ |
    @⟨channel, received, result⟩ | _ | _ | _
  · -- an item moves from the worker to the channel
    obtain ⟨rfl, hended⟩ := h
    exact ⟨by simp, fun hr => by cases hr⟩
  · exact h
  · rcases result with _ | r
    · exact ⟨h.1, fun _ => trivial⟩
    · exact h
  · rcases result with _ | r
    · exact ⟨h.1, fun _ => trivial⟩
    · exact h
  · obtain ⟨rfl, hended⟩ := h
    exact ⟨by simp, hended⟩
  · obtain ⟨rfl, hended⟩ := h
    simp [Inv, drain_append, drain]
  · obtain ⟨rfl, hended⟩ := h
    simp only [Inv, List.map_nil, List.nil_append]
    rw [drain_append, drain_of_ended (hended rfl), List.append_nil]

theorem Reachable.inv {items : List (Outcome ε β)} {s : Feed ε β} (h : Reachable items s) :
    Inv items s := by
  induction h with
  | refl => exact ⟨rfl, fun hr => by cases hr⟩
  | tail _ hstep ih => exact inv_step hstep ih

/-- What the receiver got when it ended, and how it ended, is fixed by the items. -/
theorem result_eq {items : List (Outcome ε β)} {s : Feed ε β} {r : Except ε Unit}
    (h : Reachable items s) (hr : s.result = some r) : drain items = (s.received, r) := by
  have hinv := h.inv
  rwa [Inv, hr] at hinv

/-! ## Every run ends -/

/-- How many steps there can be. -/
def remaining (s : Feed ε β) : ℕ :=
  2 * s.todo.length + s.channel.length + s.running.toNat + (if s.result.isNone then 1 else 0)

theorem remaining_lt {s s' : Feed ε β} (h : Step s s') : s'.remaining < s.remaining := by
  rcases h <;> simp [remaining]
  all_goals omega

theorem exists_step {s : Feed ε β} (h : s.result = none) : ∃ s', Step s s' := by
  obtain ⟨todo, running, channel, received, result⟩ := s
  obtain rfl : result = none := h
  rcases channel with _ | ⟨e | b, channel⟩
  · rcases running
    · exact ⟨_, .close⟩
    · rcases todo with _ | ⟨b | e | m, todo⟩
      · exact ⟨_, .done⟩
      · exact ⟨_, .send (.ok b)⟩
      · exact ⟨_, .send (.error e)⟩
      · exact ⟨_, .crash⟩
  · exact ⟨_, .fail⟩
  · exact ⟨_, .receive⟩

/-- Every run goes on until the receiver ends. -/
theorem exists_result_of_reachable {items : List (Outcome ε β)} (s : Feed ε β)
    (h : Reachable items s) :
    ∃ s', Relation.ReflTransGen Step s s' ∧ s'.result = some (drain items).2 := by
  rcases hr : s.result with _ | r
  · obtain ⟨s', hstep⟩ := exists_step hr
    have hlt := remaining_lt hstep
    obtain ⟨t, hrun, ht⟩ := exists_result_of_reachable s' (h.tail hstep)
    exact ⟨t, .head hstep hrun, ht⟩
  · exact ⟨s, .refl, by rw [hr, result_eq h hr]⟩
termination_by s.remaining

end Feed

end Rust
