import CargoStylus.Rust.Bytes
import Mathlib.Data.List.GetD

/-!
# Memory

A flat memory of bytes. Writing `b` at `p` changes the bytes from `p` up to `p + b.length`
and no other (`write_of_mem`, `write_of_not_mem`), so what was written is read back
(`read_write`). `Holds m m' outs` says that, from `m` to `m'`, each range of `outs` has got
its bytes and nothing else has changed : one write always does it, and two do exactly when
they agree where they overlap (`holds_write_two`).
-/

namespace Rust

/-- The bytes of a process, by address. -/
abbrev Memory := ℕ → UInt8

namespace Memory

/-- The `n` bytes from `p` on. -/
def read (m : Memory) (p n : ℕ) : Bytes :=
  (List.range n).map fun i => m (p + i)

/-- `m` with the bytes `b` from `p` on. -/
def write (m : Memory) (p : ℕ) (b : Bytes) : Memory := fun a =>
  if p ≤ a ∧ a < p + b.length then b.getD (a - p) 0 else m a

@[simp] theorem length_read (m : Memory) (p n : ℕ) : (m.read p n).length = n := by
  simp [read]

theorem write_of_mem (m : Memory) {p a : ℕ} {b : Bytes} (hp : p ≤ a) (ha : a < p + b.length) :
    m.write p b a = b.getD (a - p) 0 :=
  if_pos ⟨hp, ha⟩

theorem write_of_not_mem (m : Memory) {p a : ℕ} {b : Bytes} (h : ¬(p ≤ a ∧ a < p + b.length)) :
    m.write p b a = m a :=
  if_neg h

/-- Bytes are read from memory exactly where each of them is stored. -/
theorem read_eq_iff {m : Memory} {p : ℕ} {b : Bytes} :
    m.read p b.length = b ↔ ∀ i < b.length, m (p + i) = b.getD i 0 := by
  refine ⟨fun h => ?_, fun h => ?_⟩
  · intro i hi
    have hget := congrArg (·.getD i 0) h
    simpa [read, hi] using hget
  · refine List.ext_getElem (by simp) fun i hi hi' => ?_
    rw [← List.getD_eq_getElem b 0 hi', ← h i hi']
    simp [read]

theorem read_write (m : Memory) (p : ℕ) (b : Bytes) : (m.write p b).read p b.length = b := by
  refine read_eq_iff.mpr fun i hi => ?_
  rw [write_of_mem m (by omega) (by omega), Nat.add_sub_cancel_left]

/-- From `m` to `m'`, each range of `outs` has got its bytes and nothing else has changed. -/
structure Holds (m m' : Memory) (outs : List (ℕ × Bytes)) : Prop where
  written : ∀ o ∈ outs, m'.read o.1 o.2.length = o.2
  frame : ∀ a, (∀ o ∈ outs, ¬(o.1 ≤ a ∧ a < o.1 + o.2.length)) → m' a = m a

/-- What memory is after the writes. -/
theorem Holds.unique {m m' m'' : Memory} {outs : List (ℕ × Bytes)} (h : Holds m m' outs)
    (h' : Holds m m'' outs) : m' = m'' := by
  funext a
  by_cases hout : ∃ o ∈ outs, o.1 ≤ a ∧ a < o.1 + o.2.length
  · obtain ⟨o, ho, hle, hlt⟩ := hout
    have hi : a - o.1 < o.2.length := by omega
    have ha : o.1 + (a - o.1) = a := by omega
    have hbyte := read_eq_iff.1 (h.written o ho) (a - o.1) hi
    have hbyte' := read_eq_iff.1 (h'.written o ho) (a - o.1) hi
    rw [ha] at hbyte hbyte'
    exact hbyte.trans hbyte'.symm
  · have hnot : ∀ o ∈ outs, ¬(o.1 ≤ a ∧ a < o.1 + o.2.length) := fun o ho hmem =>
      hout ⟨o, ho, hmem⟩
    exact (h.frame a hnot).trans (h'.frame a hnot).symm

theorem holds_nil (m : Memory) : Holds m m [] :=
  ⟨by simp, fun _ _ => rfl⟩

theorem holds_write (m : Memory) (p : ℕ) (b : Bytes) : Holds m (m.write p b) [(p, b)] :=
  ⟨by simpa using read_write m p b, fun a ha => write_of_not_mem m (ha (p, b) (by simp))⟩

/-- Writing the first `n` bytes of `b` holds exactly where memory has the others already. -/
theorem holds_write_take {m : Memory} {p n : ℕ} {b : Bytes} (hn : n ≤ b.length) :
    Holds m (m.write p (b.take n)) [(p, b)] ↔ m.read (p + n) (b.length - n) = b.drop n := by
  have hlen : (b.take n).length = n := by simp [hn]
  have hdrop : b.length - n = (b.drop n).length := by simp
  rw [hdrop, read_eq_iff]
  refine ⟨fun h => ?_, fun h => ?_⟩
  · obtain ⟨hwritten, -⟩ := h
    intro i hi
    rw [List.length_drop] at hi
    have hb := read_eq_iff.mp (hwritten (p, b) (by simp)) (n + i) (by simp only; omega)
    rw [write_of_not_mem _ (by rw [hlen]; omega)] at hb
    simpa [Nat.add_assoc] using hb
  · refine ⟨?_, fun a ha => write_of_not_mem _ fun hmem => ?_⟩
    · simp only [List.mem_singleton, forall_eq]
      refine read_eq_iff.mpr fun i hi => ?_
      by_cases hin : i < n
      · rw [write_of_mem _ (by omega) (by rw [hlen]; omega), Nat.add_sub_cancel_left]
        simp [List.getD_eq_getElem?_getD, hin]
      · have hi' := h (i - n) (by rw [List.length_drop]; omega)
        rw [write_of_not_mem _ (by rw [hlen]; omega)]
        have hadd : n + (i - n) = i := by omega
        simpa [Nat.add_assoc, hadd] using hi'
    · rw [hlen] at hmem
      exact ha (p, b) (by simp) ⟨hmem.1, by simp only; omega⟩

/-- Two ranges hold the same bytes where they overlap. -/
def Agree (o o' : ℕ × Bytes) : Prop :=
  ∀ i < o.2.length, ∀ j < o'.2.length, o.1 + i = o'.1 + j → o.2.getD i 0 = o'.2.getD j 0

theorem agree_of_apart {p q : ℕ} {b c : Bytes} (h : p + b.length ≤ q ∨ q + c.length ≤ p) :
    Agree (p, b) (q, c) := by
  intro i hi j hj hij
  dsimp only at hi hj hij
  omega

/-- Two writes hold exactly when they agree where they overlap. -/
theorem holds_write_two (m : Memory) (p q : ℕ) (b c : Bytes) :
    Holds m ((m.write p b).write q c) [(p, b), (q, c)] ↔ Agree (p, b) (q, c) := by
  refine ⟨fun h => ?_, fun h => ?_⟩
  · obtain ⟨hwritten, -⟩ := h
    intro i hi j hj hij
    have hb := read_eq_iff.mp (hwritten (p, b) (by simp)) i hi
    have hc := read_eq_iff.mp (hwritten (q, c) (by simp)) j hj
    rw [← hb, ← hc, hij]
  · refine ⟨?_, fun a ha => ?_⟩
    · simp only [List.mem_cons, List.not_mem_nil, or_false, forall_eq_or_imp, forall_eq]
      refine ⟨read_eq_iff.mpr fun i hi => ?_, read_write _ q c⟩
      by_cases hover : q ≤ p + i ∧ p + i < q + c.length
      · rw [write_of_mem _ hover.1 hover.2]
        have hj : p + i - q < c.length := by omega
        have hij : p + i = q + (p + i - q) := by omega
        exact (h i hi (p + i - q) hj hij).symm
      · rw [write_of_not_mem _ hover, write_of_mem _ (by omega) (by omega),
          Nat.add_sub_cancel_left]
    · rw [write_of_not_mem _ (ha (q, c) (by simp)), write_of_not_mem _ (ha (p, b) (by simp))]

end Memory

end Rust
