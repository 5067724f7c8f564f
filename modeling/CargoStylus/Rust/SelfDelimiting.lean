import CargoStylus.Rust.Bytes

/-!
# Encodings that tell where they end

An encoding is self-delimiting if what follows it cannot change how it is read : equal
streams start with equal values, and what is left is equal. So a stream of such encodings
is read in one way only, without a count (`SelfDelimiting.flatMap_inj`). Bytes behind their
length are self-delimiting (`selfDelimiting_lengthPrefixed`), and so are bytes before a
marker that does not occur in them (`selfDelimiting_marked`), and pairs
(`SelfDelimiting.pair`).
-/

namespace Rust

variable {α β : Type*}

/-- Equal streams that start with values of `P` start with the same one. -/
structure SelfDelimiting (P : α → Prop) (encode : α → Bytes) : Prop where
  cancel : ∀ {a b : α}, P a → P b → ∀ {s t : Bytes}, encode a ++ s = encode b ++ t → a = b ∧ s = t

theorem SelfDelimiting.pair {P : α → Prop} {Q : β → Prop} {f : α → Bytes} {g : β → Bytes}
    (hf : SelfDelimiting P f) (hg : SelfDelimiting Q g) :
    SelfDelimiting (fun p : α × β => P p.1 ∧ Q p.2) fun p => f p.1 ++ g p.2 := by
  refine ⟨fun {a b} ha hb {s t} h => ?_⟩
  rw [List.append_assoc, List.append_assoc] at h
  obtain ⟨hfst, hrest⟩ := hf.cancel ha.1 hb.1 h
  obtain ⟨hsnd, hst⟩ := hg.cancel ha.2 hb.2 hrest
  exact ⟨Prod.ext hfst hsnd, hst⟩

/-- A stream of encodings that are not empty is read in one way. -/
theorem SelfDelimiting.flatMap_inj {P : α → Prop} {encode : α → Bytes}
    (h : SelfDelimiting P encode) (hne : ∀ a, encode a ≠ []) :
    ∀ {as bs : List α}, (∀ a ∈ as, P a) → (∀ b ∈ bs, P b) →
      as.flatMap encode = bs.flatMap encode → as = bs
  | [], [], _, _, _ => rfl
  | [], b :: bs, _, _, heq => by
    rw [List.flatMap_nil, List.flatMap_cons] at heq
    exact absurd (List.append_eq_nil_iff.1 heq.symm).1 (hne b)
  | a :: as, [], _, _, heq => by
    rw [List.flatMap_nil, List.flatMap_cons] at heq
    exact absurd (List.append_eq_nil_iff.1 heq).1 (hne a)
  | a :: as, b :: bs, has, hbs, heq => by
    rw [List.flatMap_cons, List.flatMap_cons] at heq
    obtain ⟨rfl, hrest⟩ := h.cancel (has a List.mem_cons_self) (hbs b List.mem_cons_self) heq
    have htail := flatMap_inj h hne (fun x hx => has x (List.mem_cons_of_mem a hx))
      (fun x hx => hbs x (List.mem_cons_of_mem a hx)) hrest
    rw [htail]

/-- Bytes behind their length, a number of `n` bytes. -/
def lengthPrefixed (n : ℕ) (b : Bytes) : Bytes :=
  toBe n b.length ++ b

theorem selfDelimiting_lengthPrefixed (n : ℕ) :
    SelfDelimiting (fun b => b.length < 256 ^ n) (lengthPrefixed n) := by
  refine ⟨fun {a b} ha hb {s t} h => ?_⟩
  simp only [lengthPrefixed, List.append_assoc] at h
  obtain ⟨hlen, hrest⟩ := List.append_inj h (by simp)
  have hsame : a.length = b.length := by
    have hnat := congrArg ofBe hlen
    rwa [ofBe_toBe, ofBe_toBe, Nat.mod_eq_of_lt ha, Nat.mod_eq_of_lt hb] at hnat
  exact List.append_inj hrest hsame

/-- Bytes, and a marker that is none of them. -/
theorem selfDelimiting_marked (marker : UInt8 → Prop) :
    SelfDelimiting (fun p : Bytes × UInt8 => (∀ x ∈ p.1, ¬marker x) ∧ marker p.2)
      fun p => p.1 ++ [p.2] := by
  refine ⟨fun {p q} hp hq {s t} h => ?_⟩
  obtain ⟨a, m⟩ := p
  obtain ⟨b, m'⟩ := q
  obtain ⟨ha, hm⟩ : (∀ x ∈ a, ¬marker x) ∧ marker m := hp
  obtain ⟨hb, hm'⟩ : (∀ x ∈ b, ¬marker x) ∧ marker m' := hq
  simp only [List.append_assoc, List.singleton_append] at h
  induction a generalizing b with
  | nil =>
    rcases b with _ | ⟨y, b⟩
    · obtain ⟨rfl, rfl⟩ := List.cons.inj h
      exact ⟨rfl, rfl⟩
    · obtain ⟨rfl, -⟩ := List.cons.inj h
      exact absurd hm (hb m List.mem_cons_self)
  | cons x a ih =>
    rcases b with _ | ⟨y, b⟩
    · obtain ⟨rfl, -⟩ := List.cons.inj h
      exact absurd hm' (ha x List.mem_cons_self)
    · obtain ⟨rfl, hrest⟩ := List.cons.inj h
      obtain ⟨heq, hst⟩ := ih b (fun z hz => ha z (List.mem_cons_of_mem x hz))
        (fun z hz => hb z (List.mem_cons_of_mem x hz)) hrest
      obtain ⟨rfl, rfl⟩ := Prod.mk.inj heq
      exact ⟨rfl, hst⟩

end Rust
