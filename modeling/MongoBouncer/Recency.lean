import Mathlib.Data.List.Nodup
import Mathlib.Data.List.Pairwise

/-!
# Lists ordered by last use

The records of a cache as a list, the one that was used last in front. A record has a key, and no
two records of the list have the same one. This is what a least-recently-used cache is for: a use
puts a record in front, and what has to go is at the back.

* `Recency.find`  : the record with a key;
* `Recency.drop`  : the list without a key;
* `Recency.front` : a record in front, in the place of the one with its key;
* `Recency.cap`   : at most so many records.
-/

namespace MongoBouncer.Recency

variable {E K : Type} [DecidableEq K] (key : E → K)

def find (l : List E) (k : K) : Option E := l.find? fun e => key e = k

def drop (l : List E) (k : K) : List E := l.filter fun e => key e ≠ k

/-- The record in front, in the place of the one with its key. -/
def front (l : List E) (e : E) : List E := e :: drop key l (key e)

/-- The list without its last record, if it has more than `max` of them; zero is no limit. -/
def cap (max : Nat) (l : List E) : List E := if max ≠ 0 ∧ max < l.length then l.dropLast else l

variable {key}

theorem drop_sublist (l : List E) (k : K) : (drop key l k).Sublist l := List.filter_sublist

theorem cap_sublist (max : Nat) (l : List E) : (cap max l).Sublist l := by
  unfold cap
  split
  · exact List.dropLast_sublist l
  · exact List.Sublist.refl l

variable {l : List E} {k : K} {e : E}

theorem mem_drop : e ∈ drop key l k ↔ e ∈ l ∧ key e ≠ k := by
  simp [drop]

theorem drop_of_find_eq_none (h : find key l k = none) : drop key l k = l := by
  unfold find at h
  rw [List.find?_eq_none] at h
  refine List.filter_eq_self.mpr ?_
  intro e he
  simpa using h e he

theorem length_drop (hl : (l.map key).Nodup)
    (h : find key l k = some e) : (drop key l k).length + 1 = l.length := by
  unfold find at h
  induction l with
  | nil => cases h
  | cons a l ih =>
    obtain ⟨hnot, hnodup⟩ := List.nodup_cons.mp hl
    by_cases ha : key a = k
    · subst ha
      have hrest : drop key l (key a) = l := by
        refine List.filter_eq_self.mpr ?_
        intro x hx
        have hne : key x ≠ key a := fun heq => hnot (heq ▸ List.mem_map_of_mem hx)
        simpa using hne
      have hdrop : drop key (a :: l) (key a) = drop key l (key a) := by simp [drop]
      rw [hdrop, hrest, List.length_cons]
    · have hdrop : drop key (a :: l) k = a :: drop key l k := by simp [drop, ha]
      have hfind : l.find? (fun e => key e = k) = some e := by simpa [ha] using h
      rw [hdrop, List.length_cons, List.length_cons, ih hnodup hfind]

theorem length_front {e' : E} (hl : (l.map key).Nodup)
    (h : find key l (key e) = some e') : (front key l e).length = l.length := by
  unfold front
  rw [List.length_cons, length_drop hl h]

/-- A relation between a record and those behind it survives a use, if the record that is used
stands in it to all others, and it stays between the others. -/
theorem pairwise_front {R R' : E → E → Prop} (h : l.Pairwise R)
    (he : ∀ x ∈ l, key x ≠ key e → R' e x)
    (hrest : ∀ x y, key x ≠ key e → key y ≠ key e → R x y → R' x y) :
    (front key l e).Pairwise R' := by
  refine List.pairwise_cons.mpr ⟨?_, ?_⟩
  · intro x hx
    obtain ⟨hmem, hne⟩ := mem_drop.mp hx
    exact he x hmem hne
  · refine (h.sublist (drop_sublist l _)).imp_of_mem ?_
    intro x y hx hy
    exact hrest x y (mem_drop.mp hx).2 (mem_drop.mp hy).2

theorem length_cap {max : Nat} (hmax : 0 < max) (h : l.length ≤ max + 1) :
    (cap max l).length ≤ max := by
  unfold cap
  split
  · rw [List.length_dropLast]
    omega
  · omega

/-- In a list ordered by a number, those that have less than a bound are at the back. -/
theorem filter_concat_of_lt {f : E → Int} {t : Int}
    (he : f e < t) : (l ++ [e]).filter (fun x => t ≤ f x) = l.filter fun x => t ≤ f x := by
  have hno : ¬ t ≤ f e := by omega
  rw [List.filter_append]
  simp [hno]

theorem filter_eq_self_of_last {f : E → Int} {t : Int}
    (h : (l ++ [e]).Pairwise fun a b => f b ≤ f a) (he : t ≤ f e) :
    (l ++ [e]).filter (fun x => t ≤ f x) = l ++ [e] := by
  refine List.filter_eq_self.mpr ?_
  intro x hx
  have hle : f e ≤ f x := by
    rcases List.mem_append.mp hx with hx | hx
    · exact (List.pairwise_append.mp h).2.2 x hx e (List.mem_singleton_self e)
    · exact Int.le_of_eq (congrArg f (List.mem_singleton.mp hx).symm)
  simp only [decide_eq_true_eq]
  omega

end MongoBouncer.Recency
