import CargoStylus.Gen
import Mathlib.Data.List.Pairwise

/-!
# The names of functions in C

A function of the ABI has its name in C, or its name and an index if it is an overload that is
not the first by signature (`mem_generated`). No two overloads of one function have one name,
and no two of different functions (`append_cons_showNat_inj`). But a function of the ABI may be
called `f_1`, as the second `f` is in C, and the names are different exactly if none is
(`nodup_cNames_iff`).
-/

namespace CargoStylus

open Rust

variable {selectorOf : SelectorOf} {abi : List AbiFunction}
  {methods : List (Text × List AbiFunction)}

/-! ## The names in C -/

/-- In C the function is named `c`. -/
def CNameOf (abi : List AbiFunction) (f : AbiFunction) (c : Text) : Prop :=
  ∃ index, (sortOverloads (abi.filter (·.name = f.name)))[index]? = some f ∧
    c = cName f.name index

theorem isGrouping_methods (h : methods.Perm (collectMethods abi)) :
    IsGrouping AbiFunction.name abi methods :=
  (isGrouping_groupEntries AbiFunction.name abi).perm h

theorem mem_sortOverloads {f : AbiFunction} {overloads : List AbiFunction} :
    f ∈ sortOverloads overloads ↔ f ∈ overloads :=
  List.mem_mergeSort

theorem length_sortOverloads (overloads : List AbiFunction) :
    (sortOverloads overloads).length = overloads.length :=
  List.length_mergeSort overloads

theorem mem_of_cNameOf {f : AbiFunction} {c : Text} (h : CNameOf abi f c) : f ∈ abi := by
  obtain ⟨index, hindex, -⟩ := h
  have hmem := mem_sortOverloads.1 (List.mem_of_getElem? hindex)
  exact (List.mem_filter.1 hmem).1

theorem mem_overloadMethods {m : Method} {simpleName : Text} {overloads : List AbiFunction} :
    m ∈ overloadMethods simpleName overloads ↔ ∃ index,
      (sortOverloads overloads)[index]? = some m.overload ∧ m.cName = cName simpleName index := by
  unfold overloadMethods
  rw [List.mem_map]
  refine ⟨fun h => ?_, fun h => ?_⟩
  · obtain ⟨⟨overload, index⟩, hmem, rfl⟩ := h
    exact ⟨index, List.mk_mem_zipIdx_iff_getElem?.1 hmem, rfl⟩
  · obtain ⟨c, overload⟩ := m
    obtain ⟨index, hindex, rfl⟩ := h
    exact ⟨(overload, index), List.mk_mem_zipIdx_iff_getElem?.2 hindex, rfl⟩

/-- The functions that are written are those of the ABI, under their names in C. -/
theorem mem_generated (h : methods.Perm (collectMethods abi)) {m : Method} :
    m ∈ generated methods ↔ CNameOf abi m.overload m.cName := by
  have hgroups := isGrouping_methods h
  unfold generated
  rw [List.mem_flatMap]
  refine ⟨fun hm => ?_, fun hm => ?_⟩
  · obtain ⟨⟨simpleName, overloads⟩, hmem, hm⟩ := hm
    obtain ⟨index, hindex, hname⟩ := mem_overloadMethods.1 hm
    have hoverloads := hgroups.group_eq hmem
    subst hoverloads
    have hfilter := mem_sortOverloads.1 (List.mem_of_getElem? hindex)
    have hsimple : m.overload.name = simpleName := of_decide_eq_true (List.mem_filter.1 hfilter).2
    subst hsimple
    exact ⟨index, hindex, hname⟩
  · have hmem := List.mem_map_of_mem (f := AbiFunction.name) (mem_of_cNameOf hm)
    exact ⟨_, hgroups.mem_of_key hmem, mem_overloadMethods.2 hm⟩

/-- Every function of the ABI has a name in C. -/
theorem exists_cNameOf {f : AbiFunction} (hf : f ∈ abi) : ∃ c, CNameOf abi f c := by
  have hmem : f ∈ sortOverloads (abi.filter (·.name = f.name)) :=
    mem_sortOverloads.2 (List.mem_filter.2 ⟨hf, decide_eq_true rfl⟩)
  obtain ⟨index, hindex⟩ := List.mem_iff_getElem?.1 hmem
  exact ⟨_, index, hindex, rfl⟩

/-! ## When the names are different -/

theorem cName_inj_of_pos {a b : Text} {i j : ℕ} (hi : 0 < i) (hj : 0 < j)
    (h : cName a i = cName b j) : a = b ∧ i = j := by
  obtain ⟨i, rfl⟩ := Nat.exists_eq_add_one.2 hi
  obtain ⟨j, rfl⟩ := Nat.exists_eq_add_one.2 hj
  exact append_cons_showNat_inj (by decide) h

theorem cName_ne_self {a : Text} {i : ℕ} (hi : 0 < i) : cName a i ≠ a := by
  obtain ⟨i, rfl⟩ := Nat.exists_eq_add_one.2 hi
  intro h
  have hlen := congrArg List.length h
  simp [cName] at hlen

theorem cName_injective (a : Text) : Function.Injective (cName a) := by
  intro i j h
  rcases Nat.eq_zero_or_pos i with rfl | hi
  · rcases Nat.eq_zero_or_pos j with rfl | hj
    · rfl
    · exact absurd h.symm (cName_ne_self hj)
  · rcases Nat.eq_zero_or_pos j with rfl | hj
    · exact absurd h (cName_ne_self hi)
    · exact (cName_inj_of_pos hi hj h).2

theorem map_cName_generated (methods : List (Text × List AbiFunction)) :
    (generated methods).map Method.cName =
      methods.flatMap fun p => (List.range p.2.length).map (cName p.1) := by
  unfold generated
  rw [List.map_flatMap]
  refine List.flatMap_congr fun p _ => ?_
  obtain ⟨simpleName, overloads⟩ := p
  unfold overloadMethods
  rw [List.map_map, ← length_sortOverloads overloads, List.range_eq_range',
    ← List.zipIdx_map_snd 0 (sortOverloads overloads), List.map_map]
  rfl

/-- No function has the name of an overload in C. -/
def OverloadsApart (abi : List AbiFunction) : Prop :=
  ∀ f ∈ abi, ∀ g ∈ abi, ∀ index, 0 < index →
    index < (abi.filter (·.name = f.name)).length → g.name ≠ cName f.name index

/-- The entry of a name has the functions of that name. -/
theorem exists_of_mem_methods (h : methods.Perm (collectMethods abi)) {simpleName : Text}
    {overloads : List AbiFunction} (hmem : (simpleName, overloads) ∈ methods) :
    ∃ f ∈ abi, f.name = simpleName ∧ overloads = abi.filter (·.name = f.name) := by
  have hgroups := isGrouping_methods h
  have hkey : simpleName ∈ methods.map Prod.fst := List.mem_map_of_mem (f := Prod.fst) hmem
  obtain ⟨f, hf, rfl⟩ := List.mem_map.1 (hgroups.mem_keys.1 hkey)
  exact ⟨f, hf, rfl, hgroups.group_eq hmem⟩

theorem disjoint_cNames (h : methods.Perm (collectMethods abi)) (hapart : OverloadsApart abi)
    {p q : Text × List AbiFunction} (hp : p ∈ methods) (hq : q ∈ methods) (hne : p.1 ≠ q.1) :
    ((List.range p.2.length).map (cName p.1)).Disjoint
      ((List.range q.2.length).map (cName q.1)) := by
  intro c hc hc'
  obtain ⟨i, hi, rfl⟩ := List.mem_map.1 hc
  obtain ⟨j, hj, heq⟩ := List.mem_map.1 hc'
  rw [List.mem_range] at hi hj
  obtain ⟨f, hf, hfname, hfs⟩ := exists_of_mem_methods h hp
  obtain ⟨g, hg, hgname, hgs⟩ := exists_of_mem_methods h hq
  rw [hfs] at hi
  rw [hgs] at hj
  rw [← hfname, ← hgname] at heq hne
  rcases Nat.eq_zero_or_pos i with rfl | hi0
  · rcases Nat.eq_zero_or_pos j with rfl | hj0
    · exact hne heq.symm
    · exact hapart g hg f hf j hj0 hj heq.symm
  · rcases Nat.eq_zero_or_pos j with rfl | hj0
    · exact hapart f hf g hg i hi0 hi heq
    · exact hne (cName_inj_of_pos hj0 hi0 heq).1.symm

/-- The names in C are different exactly if no function has the name of an overload. -/
theorem nodup_cNames_iff (h : methods.Perm (collectMethods abi)) :
    ((generated methods).map Method.cName).Nodup ↔ OverloadsApart abi := by
  have hgroups := isGrouping_methods h
  rw [map_cName_generated, List.nodup_flatMap]
  refine ⟨fun hnodup => ?_, fun hapart => ⟨fun p _ => ?_, ?_⟩⟩
  · intro f hf g hg index hpos hlt hname
    have hfmem := hgroups.mem_of_key (List.mem_map_of_mem (f := AbiFunction.name) hf)
    have hgmem := hgroups.mem_of_key (List.mem_map_of_mem (f := AbiFunction.name) hg)
    have hne : f.name ≠ g.name := fun heq => cName_ne_self hpos (heq.trans hname).symm
    have hgpos : 0 < (abi.filter (·.name = g.name)).length :=
      List.length_pos_of_mem (List.mem_filter.2 ⟨hg, decide_eq_true rfl⟩)
    have hsymm : Std.Symm (Function.onFun List.Disjoint fun p : Text × List AbiFunction =>
        (List.range p.2.length).map (cName p.1)) :=
      ⟨fun _ _ hpq _ hc hc' => hpq hc' hc⟩
    have hdisjoint := hnodup.2.forall hfmem hgmem fun heq => hne (congrArg Prod.fst heq)
    refine hdisjoint (a := g.name) ?_ ?_
    · exact List.mem_map.2 ⟨index, List.mem_range.2 hlt, hname.symm⟩
    · exact List.mem_map.2 ⟨0, List.mem_range.2 hgpos, rfl⟩
  · exact List.nodup_range.map (cName_injective p.1)
  · exact (List.pairwise_map.1 hgroups.nodup).imp_of_mem
      fun hp hq hne => disjoint_cNames h hapart hp hq hne

theorem generated_eq_nil_iff (h : methods.Perm (collectMethods abi)) :
    generated methods = [] ↔ abi = [] := by
  refine ⟨fun hnil => List.eq_nil_iff_forall_not_mem.2 fun f hf => ?_, fun hnil => ?_⟩
  · obtain ⟨c, hc⟩ := exists_cNameOf hf
    have hmem : (⟨c, f⟩ : Method) ∈ generated methods := (mem_generated h).2 hc
    rw [hnil] at hmem
    cases hmem
  · refine List.eq_nil_iff_forall_not_mem.2 fun m hm => ?_
    have hmem := mem_of_cNameOf ((mem_generated h).1 hm)
    rw [hnil] at hmem
    cases hmem

theorem flatMap_header_eq_nil_iff {ms : List Method} :
    ms.flatMap (Method.header selectorOf) = [] ↔ ms = [] := by
  refine ⟨fun h => List.eq_nil_iff_forall_not_mem.2 fun m hm => ?_, fun h => by rw [h]; rfl⟩
  have hheader := List.flatMap_eq_nil_iff.1 h m hm
  unfold Method.header at hheader
  exact absurd (List.append_eq_nil_iff.1 hheader).2 (List.cons_ne_nil _ _)

theorem flatMap_router_eq_nil_iff {ms : List Method} :
    ms.flatMap Method.router = [] ↔ ms = [] := by
  refine ⟨fun h => List.eq_nil_iff_forall_not_mem.2 fun m hm => ?_, fun h => by rw [h]; rfl⟩
  have hrouter := List.flatMap_eq_nil_iff.1 h m hm
  have hend : ";\n    \x7d\n".toList ≠ [] := by
    simp only [String.reduceToList, ne_eq, List.cons_ne_nil, not_false_eq_true]
  unfold Method.router at hrouter
  exact hend (List.append_eq_nil_iff.1 hrouter).2

end CargoStylus
