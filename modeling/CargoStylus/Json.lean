import CargoStylus.Rust.Bytes
import Mathlib.Data.String.Basic

/-!
# JSON values

A number is a natural number below `2 ^ 64`, a negative integer or a float, and an object is a
list of keys with their values. Looking up a key takes its entry, and `remove` takes the entry
out.

The members of an object are read into a `BTreeMap` : its keys are distinct and in the order of
their bytes, which is that of their characters, and of two members with one key the last is kept
(`Value.read`). What is read is `Value.Sorted`, and whatever is so is read from itself
(`Value.sorted_read`, `Value.read_of_sorted`). Only a loop over the entries of an object can tell
in which order they are.
-/

namespace Json

open Rust

/-- A JSON number : the three forms it has once it is read. -/
inductive Number where
  | posInt (n : U64)
  | negInt (n : ℤ)
  | float (bits : U64)
deriving DecidableEq, Repr

/-- `Number::as_u64`. -/
def Number.asU64 : Number → Option U64
  | posInt n => some n
  | negInt _ => none
  | float _ => none

/-- `Number::as_i64`. -/
def Number.asI64 : Number → Option ℤ
  | posInt n => if n.toNat < 2 ^ 63 then some n.toNat else none
  | negInt n => some n
  | float _ => none

@[simp] theorem Number.asU64_eq_some {x : Number} {n : U64} :
    x.asU64 = some n ↔ x = posInt n := by
  cases x <;> simp [asU64]

/-- A JSON value. A text is one with the members of its objects as they stand there, and
`serde_json::Value` is one that is `Sorted`. -/
inductive Value where
  | null
  | bool (b : Bool)
  | number (n : Number)
  | string (s : String)
  | array (a : List Value)
  | object (m : List (String × Value))

/-- The entries of an object. -/
abbrev Fields := List (String × Value)

/-- `Value::as_object`. -/
def Value.asObject : Value → Option Fields
  | object m => some m
  | _ => none

/-- The value at the key `k`. -/
def Fields.get? (m : Fields) (k : String) : Option Value :=
  m.lookup k

/-- The entries at other keys than `k`. -/
def Fields.erase (m : Fields) (k : String) : Fields :=
  m.filter (·.1 ≠ k)

/-- `Map::remove` : the value at `k`, and the entries without it. -/
def Fields.remove (m : Fields) (k : String) : Option (Value × Fields) :=
  (m.get? k).map fun v => (v, m.erase k)

@[simp] theorem Fields.get?_nil (k : String) : Fields.get? [] k = none :=
  rfl

@[simp] theorem Fields.get?_cons (j k : String) (v : Value) (m : Fields) :
    Fields.get? ((j, v) :: m) k = if k = j then some v else Fields.get? m k := by
  by_cases h : k = j
  · subst h
    simp [get?]
  · simp [get?, List.lookup_cons, beq_eq_false_iff_ne.mpr h, h]

/-- Taking out a key leaves the others. -/
theorem Fields.get?_erase_ne (m : Fields) {j k : String} (h : k ≠ j) :
    (m.erase j).get? k = m.get? k := by
  induction m with
  | nil => rfl
  | cons e m ih =>
    obtain ⟨i, v⟩ := e
    unfold erase at ih ⊢
    by_cases hi : i = j
    · subst hi
      simpa [h] using ih
    · simp only [ne_eq, hi, not_false_eq_true, decide_true, List.filter_cons_of_pos, get?_cons]
      rw [← ih]

theorem Fields.remove_eq_some {m m' : Fields} {k : String} {v : Value} :
    m.remove k = some (v, m') ↔ m.get? k = some v ∧ m.erase k = m' := by
  simp [remove]

/-! ## Reading a text -/

/-- `BTreeMap::insert`, unless there is an entry of the key. -/
def Fields.insertNew (k : String) (v : Value) : Fields → Fields
  | [] => [(k, v)]
  | (j, w) :: m =>
    if k < j then (k, v) :: (j, w) :: m
    else if k = j then (j, w) :: m
    else (j, w) :: insertNew k v m

mutual

/-- `serde_json::from_reader`, of a text. -/
def Value.read : Value → Value
  | .array a => .array (readAll a)
  | .object m => .object (readFields m)
  | .null => .null
  | .bool b => .bool b
  | .number n => .number n
  | .string s => .string s

/-- The elements of an array, as they are read. -/
def readAll : List Value → List Value
  | [] => []
  | v :: a => v.read :: readAll a

/-- The members of an object, with the last ones first, so that they are kept. -/
def readFields : List (String × Value) → Fields
  | [] => []
  | (k, v) :: m => Fields.insertNew k v.read (readFields m)

end

/-- The keys of the object are distinct and in order. -/
abbrev Fields.KeysSorted (m : Fields) : Prop :=
  m.Pairwise fun e e' => e.1 < e'.1

/-- The keys of every object are distinct and in order. -/
inductive Value.Sorted : Value → Prop
  | null : Sorted .null
  | bool (b : Bool) : Sorted (.bool b)
  | number (n : Number) : Sorted (.number n)
  | string (s : String) : Sorted (.string s)
  | array {a : List Value} (values : ∀ v ∈ a, v.Sorted) : Sorted (.array a)
  | object {m : Fields} (keys : m.KeysSorted) (values : ∀ e ∈ m, e.2.Sorted) : Sorted (.object m)

section

variable {k : String} {v : Value} {m : Fields}

theorem Fields.mem_insertNew {e : String × Value} (h : e ∈ m.insertNew k v) :
    e = (k, v) ∨ e ∈ m := by
  induction m with
  | nil => exact .inl (List.mem_singleton.1 h)
  | cons first m ih =>
    obtain ⟨j, w⟩ := first
    rw [insertNew] at h
    split_ifs at h
    · exact List.mem_cons.1 h
    · exact .inr h
    · rcases List.mem_cons.1 h with rfl | h
      · exact .inr List.mem_cons_self
      · exact (ih h).imp_right (List.mem_cons_of_mem _)

theorem Fields.keysSorted_insertNew (h : m.KeysSorted) : (m.insertNew k v).KeysSorted := by
  induction m with
  | nil => exact List.pairwise_singleton _ _
  | cons first m ih =>
    obtain ⟨j, w⟩ := first
    obtain ⟨hfirst, hm⟩ := List.pairwise_cons.1 h
    rw [insertNew]
    split_ifs with hlt heq
    · refine List.pairwise_cons.2 ⟨fun e he => ?_, h⟩
      rcases List.mem_cons.1 he with rfl | he
      · exact hlt
      · exact hlt.trans (hfirst e he)
    · exact h
    · refine List.pairwise_cons.2 ⟨fun e he => ?_, ih hm⟩
      rcases mem_insertNew he with rfl | he
      · exact lt_of_le_of_ne (not_lt.1 hlt) (Ne.symm heq)
      · exact hfirst e he

theorem Fields.insertNew_of_lt (h : ∀ e ∈ m, k < e.1) : m.insertNew k v = (k, v) :: m := by
  rcases m with _ | ⟨⟨j, w⟩, m⟩
  · rfl
  · rw [insertNew, if_pos (h _ List.mem_cons_self)]

end

mutual

/-- What is read has distinct keys in order. -/
theorem Value.sorted_read : ∀ v : Value, v.read.Sorted
  | .null => .null
  | .bool b => .bool b
  | .number n => .number n
  | .string s => .string s
  | .array a => .array (sorted_readAll a)
  | .object m => .object (sorted_readFields m).1 (sorted_readFields m).2

theorem sorted_readAll : ∀ a : List Value, ∀ v ∈ readAll a, v.Sorted
  | [], _, h => absurd h List.not_mem_nil
  | first :: a, v, h => by
    rcases List.mem_cons.1 h with rfl | h
    · exact first.sorted_read
    · exact sorted_readAll a v h

theorem sorted_readFields : ∀ m : List (String × Value),
    (readFields m).KeysSorted ∧ ∀ e ∈ readFields m, e.2.Sorted
  | [] => ⟨.nil, fun _ h => absurd h List.not_mem_nil⟩
  | (k, first) :: m => by
    obtain ⟨hkeys, hvalues⟩ := sorted_readFields m
    refine ⟨Fields.keysSorted_insertNew hkeys, fun e he => ?_⟩
    rcases Fields.mem_insertNew he with rfl | he
    · exact first.sorted_read
    · exact hvalues e he

end

mutual

/-- Such a value is read from itself. -/
theorem Value.read_of_sorted : ∀ v : Value, v.Sorted → v.read = v
  | .null, _ => rfl
  | .bool _, _ => rfl
  | .number _, _ => rfl
  | .string _, _ => rfl
  | .array a, h => by
    cases h with
    | array hvalues => exact congrArg Value.array (readAll_of_sorted a hvalues)
  | .object m, h => by
    cases h with
    | object hkeys hvalues => exact congrArg Value.object (readFields_of_sorted m hkeys hvalues)

theorem readAll_of_sorted : ∀ a : List Value, (∀ v ∈ a, v.Sorted) → readAll a = a
  | [], _ => rfl
  | first :: a, h => by
    obtain ⟨hfirst, ha⟩ := List.forall_mem_cons.1 h
    rw [readAll, first.read_of_sorted hfirst, readAll_of_sorted a ha]

theorem readFields_of_sorted : ∀ m : Fields, m.KeysSorted → (∀ e ∈ m, e.2.Sorted) →
    readFields m = m
  | [], _, _ => rfl
  | (k, first) :: m, hkeys, h => by
    obtain ⟨hfirst, hm⟩ := List.forall_mem_cons.1 h
    obtain ⟨hlt, hkeys⟩ := List.pairwise_cons.1 hkeys
    rw [readFields, first.read_of_sorted hfirst, readFields_of_sorted m hkeys hm,
      Fields.insertNew_of_lt hlt]

end

end Json
