import Mathlib.Data.Fintype.Card
import Mathlib.Logic.Relation

/-!
# Exploring with a stack

A loop takes the first element of a stack, and puts what `expand` finds for it in its place.
It ends when the stack is empty or when `expand` fails. Nothing is remembered of the elements
that were on the stack, so an element is expanded again for every way that leads to it.

`Ends` says that the loop ends, `Finishes` that all below an element is explored, and `Fails`
that a failure is reached below it, with all before that explored. The loop ends exactly if
all elements of the stack are explored, or a failure is reached below one and all before it
are (`ends_iff`). From one element that is exactly if its descendants are well founded, or a
failure is reached first (`ends_singleton_iff`). Among finitely many elements they are well
founded if there is no cycle below (`acc_iff_of_finite`).
-/

namespace Rust.Worklist

open Relation

variable {α ε : Type} (expand : α → Except ε (List α))

/-- The loop ends. -/
inductive Ends : List α → Prop
  | nil : Ends []
  | failed {a : α} {stack : List α} {e : ε} : expand a = .error e → Ends (a :: stack)
  | next {a : α} {stack as : List α} : expand a = .ok as → Ends (as ++ stack) →
      Ends (a :: stack)

/-- The loop takes an element away, and all that is put on the stack for it. -/
inductive Finishes : α → Prop
  | intro {a : α} {as : List α} : expand a = .ok as → (∀ b ∈ as, Finishes b) → Finishes a

/-- The loop fails before it takes away all that is put on the stack for an element. -/
inductive Fails : α → Prop
  | here {a : α} {e : ε} : expand a = .error e → Fails a
  | inside {a b : α} {before after : List α} : expand a = .ok (before ++ b :: after) →
      (∀ c ∈ before, Finishes expand c) → Fails b → Fails a

/-- One element is put on the stack for another. -/
def Child (a b : α) : Prop :=
  ∃ as, expand a = .ok as ∧ b ∈ as

variable {expand}

/-! ## When the loop ends -/

/-- What holds of each element of a list on its own holds of them one after the other. -/
theorem ends_append_of_forall {as stack : List α}
    (h : ∀ a ∈ as, ∀ stack, Ends expand stack → Ends expand (a :: stack))
    (hstack : Ends expand stack) : Ends expand (as ++ stack) := by
  induction as with
  | nil => exact hstack
  | cons a as ih =>
    exact h a List.mem_cons_self _ (ih fun b hb => h b (List.mem_cons_of_mem a hb))

theorem Finishes.ends {a : α} (h : Finishes expand a) :
    ∀ stack, Ends expand stack → Ends expand (a :: stack) := by
  induction h with
  | intro hexpand _ ih =>
    intro stack hstack
    exact .next hexpand (ends_append_of_forall ih hstack)

theorem Fails.ends {a : α} (h : Fails expand a) : ∀ stack, Ends expand (a :: stack) := by
  induction h with
  | here hexpand => exact fun stack => .failed hexpand
  | @inside a b before after hexpand hbefore _ ih =>
    intro stack
    refine .next hexpand ?_
    rw [List.append_assoc]
    exact ends_append_of_forall (fun c hc => (hbefore c hc).ends) (ih (after ++ stack))

/-- All elements of a list are explored, or a failure is reached below one and all before it
are. -/
def FinishOrFail (expand : α → Except ε (List α)) (stack : List α) : Prop :=
  (∀ a ∈ stack, Finishes expand a) ∨
    ∃ before a after, stack = before ++ a :: after ∧ (∀ b ∈ before, Finishes expand b) ∧
      Fails expand a

theorem finishOrFail_of_ends {stack : List α} (h : Ends expand stack) :
    FinishOrFail expand stack := by
  induction h with
  | nil =>
    refine .inl ?_
    rintro a ⟨⟩
  | @failed a stack e hexpand =>
    refine .inr ⟨[], a, stack, rfl, ?_, .here hexpand⟩
    rintro b ⟨⟩
  | @next a stack as hexpand _ ih =>
    rcases ih with hall | ⟨before, b, after, hsplit, hbefore, hfails⟩
    · rw [List.forall_mem_append] at hall
      exact .inl (List.forall_mem_cons.2 ⟨.intro hexpand hall.1, hall.2⟩)
    · rcases List.append_eq_append_iff.1 hsplit with ⟨mid, rfl, rfl⟩ | ⟨mid, rfl, hmid⟩
      · -- the failure is below the rest of the stack, and `a` is explored
        rw [List.forall_mem_append] at hbefore
        refine .inr ⟨a :: mid, b, after, rfl, ?_, hfails⟩
        exact List.forall_mem_cons.2 ⟨.intro hexpand hbefore.1, hbefore.2⟩
      · rcases mid with _ | ⟨first, mid⟩
        · rw [List.nil_append] at hmid
          subst hmid
          rw [List.append_nil] at hexpand
          refine .inr ⟨[a], b, after, rfl, ?_, hfails⟩
          exact List.forall_mem_singleton.2 (.intro hexpand hbefore)
        · obtain ⟨rfl, -⟩ := List.cons.inj hmid
          refine .inr ⟨[], a, stack, rfl, ?_, .inside hexpand hbefore hfails⟩
          rintro c ⟨⟩

theorem finishOrFail_singleton {a : α} :
    FinishOrFail expand [a] ↔ Finishes expand a ∨ Fails expand a := by
  refine ⟨fun h => ?_, fun h => ?_⟩
  · rcases h with hall | ⟨before, b, after, hsplit, -, hfails⟩
    · exact .inl (hall a List.mem_cons_self)
    · rcases before with _ | ⟨c, before⟩
      · obtain ⟨rfl, -⟩ := List.cons.inj hsplit
        exact .inr hfails
      · exact absurd (List.cons.inj hsplit).2.symm (by simp)
  · rcases h with hfinishes | hfails
    · exact .inl (List.forall_mem_singleton.2 hfinishes)
    · exact .inr ⟨[], a, [], rfl, by rintro b ⟨⟩, hfails⟩

/-- The loop ends exactly if it explores all elements of the stack, or fails at one. -/
theorem ends_iff {stack : List α} : Ends expand stack ↔ FinishOrFail expand stack := by
  refine ⟨finishOrFail_of_ends, fun h => ?_⟩
  rcases h with hall | ⟨before, a, after, rfl, hbefore, hfails⟩
  · rw [← List.append_nil stack]
    exact ends_append_of_forall (fun a ha => (hall a ha).ends) .nil
  · exact ends_append_of_forall (fun b hb => (hbefore b hb).ends) (hfails.ends after)

/-! ## Well-founded descendants -/

theorem Finishes.acc {a : α} (h : Finishes expand a) : Acc (flip (Child expand)) a := by
  induction h with
  | @intro a as hexpand _ ih =>
    refine Acc.intro a fun b hb => ?_
    obtain ⟨as', has', hmem⟩ := hb
    obtain rfl := Except.ok.inj (hexpand.symm.trans has')
    exact ih b hmem

/-- Elements each of which is explored or fails are explored, up to the first that fails. -/
theorem finishOrFail_of_forall : ∀ {stack : List α},
    (∀ a ∈ stack, Finishes expand a ∨ Fails expand a) → FinishOrFail expand stack
  | [], _ => .inl (by rintro a ⟨⟩)
  | a :: stack, h => by
    rcases h a List.mem_cons_self with hfinishes | hfails
    · rcases finishOrFail_of_forall fun b hb => h b (List.mem_cons_of_mem a hb) with
        hall | ⟨before, b, after, rfl, hbefore, hfails⟩
      · exact .inl (List.forall_mem_cons.2 ⟨hfinishes, hall⟩)
      · exact .inr ⟨a :: before, b, after, rfl,
          List.forall_mem_cons.2 ⟨hfinishes, hbefore⟩, hfails⟩
    · exact .inr ⟨[], a, stack, rfl, by rintro b ⟨⟩, hfails⟩

/-- With well-founded descendants an element is explored or fails. -/
theorem finishes_or_fails_of_acc {a : α} (h : Acc (flip (Child expand)) a) :
    Finishes expand a ∨ Fails expand a := by
  induction h with
  | intro a _ ih =>
    cases hexpand : expand a with
    | error e => exact .inr (.here hexpand)
    | ok as =>
      rcases finishOrFail_of_forall fun b hb => ih b ⟨as, hexpand, hb⟩ with
        hall | ⟨before, b, after, rfl, hbefore, hfails⟩
      · exact .inl (.intro hexpand hall)
      · exact .inr (.inside hexpand hbefore hfails)

/-- From one element the loop ends exactly if its descendants are well founded, or if it
fails. -/
theorem ends_singleton_iff {a : α} :
    Ends expand [a] ↔ Acc (flip (Child expand)) a ∨ Fails expand a := by
  rw [ends_iff, finishOrFail_singleton]
  refine ⟨fun h => ?_, fun h => ?_⟩
  · exact h.imp_left Finishes.acc
  · rcases h with hacc | hfails
    · exact finishes_or_fails_of_acc hacc
    · exact .inr hfails

/-! ## Finitely many elements -/

/-- No element that is reached from `a` is reached from itself again. -/
def AcyclicFrom (r : α → α → Prop) (a : α) : Prop :=
  ∀ b, ReflTransGen r a b → ¬TransGen r b b

theorem acyclicFrom_of_acc {r : α → α → Prop} {a : α} (h : Acc (flip r) a) : AcyclicFrom r a := by
  intro b hreach
  have hacc : Acc (TransGen (flip r)) b := by
    induction hreach with
    | refl => exact h.transGen
    | tail _ hstep ih => exact ih.inv (.single hstep)
  induction hacc with
  | intro b _ ih =>
    intro hcycle
    exact ih b (transGen_swap.2 hcycle) (hreach.trans hcycle.to_reflTransGen) hcycle

theorem acc_iff_of_finite [Finite α] {r : α → α → Prop} {a : α} :
    Acc (flip r) a ↔ AcyclicFrom r a := by
  refine ⟨acyclicFrom_of_acc, fun h => ?_⟩
  let descends : α → α → Prop := fun b c => ReflTransGen r a c ∧ TransGen r c b
  have htrans : IsTrans α descends :=
    ⟨fun b c d hbc hcd => ⟨hcd.1, hcd.2.trans hbc.2⟩⟩
  have hirrefl : Std.Irrefl descends := ⟨fun b hb => h b hb.1 hb.2⟩
  have hwf : WellFounded descends := Finite.wellFounded_of_trans_of_irrefl descends
  have hacc : ∀ c, ReflTransGen r a c → Acc (flip r) c := by
    intro c
    induction c using hwf.induction with
    | _ c ih =>
      intro hreach
      exact Acc.intro c fun b hb => ih b ⟨hreach, .single hb⟩ (hreach.tail hb)
  exact hacc a .refl

end Rust.Worklist
