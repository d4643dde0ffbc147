import Mathlib.Data.List.Basic
import Mathlib.Data.List.Nodup
import Mathlib.Data.List.Perm.Subperm

/-!
# Go maps

A map has finitely many entries with different keys, and a `range` loop visits them in any order.

* `GoMap`        : the entries, in some order;
* `GoMap.set`    : the assignment `m[k] = v`;
* `GoMap.Visits` : an order in which a loop may visit the entries.

Principal results: `GoMap.mem_set` and `GoMap.get_set`, the entries after an assignment;
`GoMap.get_eq_some`, the value of a key is that of its entry.
-/

namespace GoStd

/-- A `map[K]V`. -/
structure GoMap (K V : Type) where
  entries : List (K × V)
  nodup : (entries.map Prod.fst).Nodup

namespace GoMap

variable {K V : Type}

/-- `make(map[K]V)` -/
def empty : GoMap K V := ⟨[], List.nodup_nil⟩

/-- An order in which a `range` loop may visit the entries. -/
def Visits (m : GoMap K V) (order : List (K × V)) : Prop := order.Perm m.entries

variable {m : GoMap K V} {e : K × V} {k : K} {v : V}

theorem Visits.mem_iff {order : List (K × V)} (h : m.Visits order) : e ∈ order ↔ e ∈ m.entries :=
  List.Perm.mem_iff h

theorem visits_self (m : GoMap K V) : m.Visits m.entries := List.Perm.refl _

theorem exists_visits_cons (he : e ∈ m.entries) : ∃ rest, m.Visits (e :: rest) := by
  obtain ⟨before, after, h⟩ := List.append_of_mem he
  refine ⟨before ++ after, ?_⟩
  show (e :: (before ++ after)).Perm m.entries
  rw [h]
  exact List.perm_middle.symm

theorem exists_visits_append (he : e ∈ m.entries) : ∃ rest, m.Visits (rest ++ [e]) := by
  obtain ⟨rest, h⟩ := exists_visits_cons he
  refine ⟨rest, ?_⟩
  exact List.Perm.trans (List.perm_append_singleton e rest) h

def keys (m : GoMap K V) : List K := m.entries.map Prod.fst

theorem eq_of_mem {v' : V} (h : (k, v) ∈ m.entries) (h' : (k, v') ∈ m.entries) : v = v' := by
  have hinj := List.inj_on_of_nodup_map m.nodup h h' rfl
  exact congrArg Prod.snd hinj

/-- Maps of one size have the same keys if those of one are those of the other. -/
theorem keys_subset_of_length {m' : GoMap K V} (hsub : m.keys ⊆ m'.keys)
    (hlen : m.entries.length = m'.entries.length) : m'.keys ⊆ m.keys := by
  have hperm : m.keys.Perm m'.keys := by
    apply (List.Nodup.subperm m.nodup hsub).perm_of_length_le
    simp only [keys, List.length_map]
    omega
  exact hperm.symm.subset

variable [DecidableEq K]

/-- `m[k]` -/
def get (m : GoMap K V) (k : K) : Option V := (m.entries.find? (·.1 = k)).map Prod.snd

theorem get_eq_none : m.get k = none ↔ k ∉ m.keys := by
  simp only [get, keys, Option.map_eq_none_iff, List.find?_eq_none, List.mem_map,
    decide_eq_true_eq, not_exists, not_and]

theorem get_eq_some : m.get k = some v ↔ (k, v) ∈ m.entries := by
  rw [get, Option.map_eq_some_iff]
  constructor
  · rintro ⟨⟨k', v'⟩, hfind, rfl⟩
    have hk : k' = k := by simpa using List.find?_some hfind
    rw [← hk]
    exact List.mem_of_find?_eq_some hfind
  · intro hmem
    cases hfind : m.entries.find? (·.1 = k) with
    | none =>
      rw [List.find?_eq_none] at hfind
      exact absurd (decide_eq_true rfl) (hfind (k, v) hmem)
    | some e =>
      have hk : e.1 = k := by simpa using List.find?_some hfind
      have he : (k, e.2) ∈ m.entries := by
        rw [← hk]
        exact List.mem_of_find?_eq_some hfind
      exact ⟨e, rfl, eq_of_mem he hmem⟩

/-- `m[k] = v` -/
def set (m : GoMap K V) (k : K) (v : V) : GoMap K V where
  entries := m.entries.filter (·.1 ≠ k) ++ [(k, v)]
  nodup := by
    rw [List.map_append, List.nodup_append']
    refine ⟨(m.nodup.sublist ((List.filter_sublist).map _)), List.nodup_singleton _, ?_⟩
    intro a ha ha'
    obtain ⟨e, he, rfl⟩ := List.mem_map.mp ha
    have hne : e.1 ≠ k := by simpa using (List.mem_filter.mp he).2
    exact hne (List.mem_singleton.mp ha')

theorem mem_set : e ∈ (m.set k v).entries ↔ e = (k, v) ∨ e.1 ≠ k ∧ e ∈ m.entries := by
  simp only [set, List.mem_append, List.mem_filter, List.mem_singleton, decide_eq_true_eq]
  tauto

theorem mem_keys_set {k' : K} : k' ∈ (m.set k v).keys ↔ k' = k ∨ k' ∈ m.keys := by
  simp only [keys, List.mem_map, mem_set]
  constructor
  · rintro ⟨e, rfl | ⟨-, he⟩, rfl⟩
    · exact Or.inl rfl
    · exact Or.inr ⟨e, he, rfl⟩
  · intro h
    by_cases hk : k' = k
    · exact ⟨(k, v), Or.inl rfl, hk.symm⟩
    · obtain ⟨e, he, rfl⟩ := h.resolve_left hk
      exact ⟨e, Or.inr ⟨hk, he⟩, rfl⟩

theorem get_set {k' : K} : (m.set k v).get k' = if k' = k then some v else m.get k' := by
  by_cases hk : k' = k
  · rw [if_pos hk, get_eq_some, mem_set, hk]
    exact Or.inl rfl
  · rw [if_neg hk]
    apply Option.ext
    intro w
    rw [get_eq_some, get_eq_some, mem_set]
    constructor
    · rintro (heq | ⟨-, hmem⟩)
      · exact absurd (congrArg Prod.fst heq) hk
      · exact hmem
    · intro hmem
      exact Or.inr ⟨hk, hmem⟩

end GoMap

end GoStd
