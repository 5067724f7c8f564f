import Mathlib.Data.List.Induction
import Mathlib.Data.List.Nodup
import Mathlib.Tactic.Common

/-!
# Grouping by a key

`map.entry(key).or_default().push(value)` collects the values of each key in a hash map. The
map is the list of its entries in some order, so what holds of every permutation of
`groupEntries` holds whatever order the map is iterated in. Each key has one entry, with the
values of the key in the order they came in (`isGrouping_groupEntries`).
-/

namespace Rust

variable {κ α : Type} [DecidableEq κ]

/-- `map.entry(key).or_default().push(value)`. -/
def pushEntry (key : κ) (value : α) : List (κ × List α) → List (κ × List α)
  | [] => [(key, [value])]
  | (k, values) :: entries =>
    if k = key then (k, values ++ [value]) :: entries
    else (k, values) :: pushEntry key value entries

/-- Collect the values of each key. -/
def groupEntries (key : α → κ) (values : List α) : List (κ × List α) :=
  values.foldl (fun entries value => pushEntry (key value) value entries) []

/-- Each key of a value has one entry, with the values of the key. -/
structure IsGrouping (key : α → κ) (values : List α) (entries : List (κ × List α)) : Prop where
  nodup : (entries.map Prod.fst).Nodup
  mem_keys {k : κ} : k ∈ entries.map Prod.fst ↔ k ∈ values.map key
  group_eq {k : κ} {group : List α} : (k, group) ∈ entries → group = values.filter (key · = k)

theorem IsGrouping.perm {key : α → κ} {values : List α} {entries entries' : List (κ × List α)}
    (h : IsGrouping key values entries) (hperm : entries'.Perm entries) :
    IsGrouping key values entries' where
  nodup := (hperm.map Prod.fst).nodup_iff.2 h.nodup
  mem_keys := (hperm.map Prod.fst).mem_iff.trans h.mem_keys
  group_eq hmem := h.group_eq (hperm.mem_iff.1 hmem)

/-- A key has the entry of its values. -/
theorem IsGrouping.mem_of_key {key : α → κ} {values : List α} {entries : List (κ × List α)}
    (h : IsGrouping key values entries) {k : κ} (hk : k ∈ values.map key) :
    (k, values.filter (key · = k)) ∈ entries := by
  obtain ⟨⟨k', group⟩, hmem, rfl⟩ := List.mem_map.1 (h.mem_keys.2 hk)
  exact h.group_eq hmem ▸ hmem

/-- Values of one key are one group. -/
theorem IsGrouping.eq_singleton {key : α → κ} {values : List α} {entries : List (κ × List α)}
    (h : IsGrouping key values entries) {k : κ} (hkey : ∀ value ∈ values, key value = k)
    (hne : values ≠ []) : entries = [(k, values)] := by
  have hfilter : values.filter (key · = k) = values :=
    List.filter_eq_self.2 fun value hvalue => decide_eq_true (hkey value hvalue)
  have hall : ∀ entry ∈ entries, entry = (k, values) := by
    rintro ⟨k', group⟩ hentry
    have hk' : k' ∈ values.map key := h.mem_keys.1 (List.mem_map_of_mem (f := Prod.fst) hentry)
    obtain ⟨value, hvalue, hvk⟩ := List.mem_map.1 hk'
    obtain rfl : k' = k := hvk.symm.trans (hkey value hvalue)
    rw [h.group_eq hentry, hfilter]
  have hreplicate := List.eq_replicate_iff.2 ⟨rfl, hall⟩
  have hnodup := h.nodup
  rw [hreplicate, List.map_replicate, List.nodup_replicate] at hnodup
  obtain ⟨value, hvalue⟩ := List.exists_mem_of_ne_nil values hne
  have hpos := List.length_pos_of_mem (h.mem_of_key (List.mem_map_of_mem (f := key) hvalue))
  have hone : entries.length = 1 := by omega
  rw [hone] at hreplicate
  exact hreplicate

theorem mem_keys_pushEntry {key k : κ} {value : α} : ∀ {entries : List (κ × List α)},
    k ∈ (pushEntry key value entries).map Prod.fst ↔ k = key ∨ k ∈ entries.map Prod.fst
  | [] => by simp [pushEntry]
  | (k', values) :: entries => by
    unfold pushEntry
    split_ifs with hk
    · simp [hk]
    · have htail : k ∈ (pushEntry key value entries).map Prod.fst ↔
          k = key ∨ k ∈ entries.map Prod.fst :=
        mem_keys_pushEntry
      rw [List.map_cons, List.map_cons, List.mem_cons, List.mem_cons, htail]
      tauto

theorem nodup_keys_pushEntry {key : κ} {value : α} : ∀ {entries : List (κ × List α)},
    (entries.map Prod.fst).Nodup → ((pushEntry key value entries).map Prod.fst).Nodup
  | [], _ => by simp [pushEntry]
  | (k, values) :: entries, h => by
    rw [List.map_cons, List.nodup_cons] at h
    unfold pushEntry
    split_ifs with hk
    · rw [List.map_cons, List.nodup_cons]
      exact h
    · rw [List.map_cons, List.nodup_cons, mem_keys_pushEntry]
      exact ⟨by tauto, nodup_keys_pushEntry h.2⟩

/-- An entry of another key stays, and the entry of the key ends with the value. -/
theorem of_mem_pushEntry {key k : κ} {value : α} {group : List α} :
    ∀ {entries : List (κ × List α)}, (entries.map Prod.fst).Nodup →
      (k, group) ∈ pushEntry key value entries → k ≠ key ∧ (k, group) ∈ entries ∨
        k = key ∧ ∃ before, group = before ++ [value] ∧
          ((k, before) ∈ entries ∨ before = [] ∧ k ∉ entries.map Prod.fst)
  | [], _, h => by
    obtain ⟨rfl, rfl⟩ := Prod.mk.inj (List.mem_singleton.1 h)
    exact .inr ⟨rfl, [], rfl, .inr ⟨rfl, List.not_mem_nil⟩⟩
  | (k', values) :: entries, hnodup, h => by
    rw [List.map_cons, List.nodup_cons] at hnodup
    unfold pushEntry at h
    split_ifs at h with hk
    · subst hk
      rcases List.mem_cons.1 h with heq | h
      · obtain ⟨rfl, rfl⟩ := Prod.mk.inj heq
        exact .inr ⟨rfl, values, rfl, .inl List.mem_cons_self⟩
      · have hmem : k ∈ entries.map Prod.fst := List.mem_map_of_mem (f := Prod.fst) h
        have hne : k ≠ k' := fun heq => hnodup.1 (heq ▸ hmem)
        exact .inl ⟨hne, List.mem_cons_of_mem _ h⟩
    · rcases List.mem_cons.1 h with heq | h
      · obtain ⟨rfl, rfl⟩ := Prod.mk.inj heq
        exact .inl ⟨hk, List.mem_cons_self⟩
      · rcases of_mem_pushEntry hnodup.2 h with ⟨hne, hmem⟩ | ⟨rfl, before, rfl, hmem⟩
        · exact .inl ⟨hne, List.mem_cons_of_mem _ hmem⟩
        · refine .inr ⟨rfl, before, rfl, ?_⟩
          rcases hmem with hmem | ⟨rfl, hmem⟩
          · exact .inl (List.mem_cons_of_mem _ hmem)
          · refine .inr ⟨rfl, ?_⟩
            rw [List.map_cons, List.mem_cons, not_or]
            exact ⟨Ne.symm hk, hmem⟩

theorem IsGrouping.push {key : α → κ} {values : List α} {entries : List (κ × List α)}
    (h : IsGrouping key values entries) (value : α) :
    IsGrouping key (values ++ [value]) (pushEntry (key value) value entries) where
  nodup := nodup_keys_pushEntry h.nodup
  mem_keys := by
    intro k
    rw [mem_keys_pushEntry, h.mem_keys, List.map_append, List.mem_append, List.map_singleton,
      List.mem_singleton, or_comm]
  group_eq := by
    intro k group hmem
    rw [List.filter_append]
    rcases of_mem_pushEntry h.nodup hmem with ⟨hne, hold⟩ | ⟨rfl, before, rfl, hold⟩
    · rw [← h.group_eq hold, List.filter_singleton]
      simp [Ne.symm hne]
    · have hbefore : before = values.filter (key · = key value) := by
        rcases hold with hold | ⟨rfl, hold⟩
        · exact h.group_eq hold
        · rw [h.mem_keys, List.mem_map] at hold
          refine (List.filter_eq_nil_iff.2 fun v hv hkey => hold ⟨v, hv, ?_⟩).symm
          exact of_decide_eq_true hkey
      rw [← hbefore, List.filter_singleton]
      simp

/-- Every key has one entry, with its values in the order they came in. -/
theorem isGrouping_groupEntries (key : α → κ) (values : List α) :
    IsGrouping key values (groupEntries key values) := by
  induction values using List.reverseRecOn with
  | nil => exact ⟨List.nodup_nil, by simp [groupEntries], by simp [groupEntries]⟩
  | append_singleton values value ih =>
    rw [groupEntries, List.foldl_append]
    exact ih.push value

end Rust
