import Mathlib.Data.List.Induction
import MongoBouncer.LruTtl
import MongoBouncer.Recency

/-!
# The cache of `lruttl` over whole histories

What `lruttl` is for is said by a plain list of entries ordered by last use (`Recency`). The cache
itself is a map and a linked list that share their elements. Here the calls of the package are run
on both, and the cache is shown to be the list.

* `Call`, `Reply`     : the calls of the package, each with the reading of the clock it makes;
* `Cache.perform`     : a call on the cache;
* `Reference.perform` : a call on the list, the purpose of the cache in its own terms;
* `Cache.entries`     : the list that a cache stands for;
* `Cache.sweep`       : one round of `expireLoop`.

Principal results: `Cache.WF.perform_eq`, that a call on the cache is the call on its list;
`Cache.lru_refinement`, the same over every history, with the order by last use; and
`Cache.sweep_exact`, that a sweep takes what has expired and nothing else.
-/

namespace MongoBouncer.Lruttl

open MongoBouncer.Recency

variable {K V : Type}

/-- A call of the package; a call that reads the clock comes with the reading. -/
inductive Call (K V : Type) where
  | add (now : Int) (key : K) (value : V)
  | get (now : Int) (key : K)
  | peek (key : K)
  | remove (key : K)
  | clear
  | removeOldestExpired (now : Int)
  | len
  deriving DecidableEq, Repr

/-- What a call returns: nothing, the value found, whether a record was removed, or the length. -/
inductive Reply (V : Type) where
  | done
  | value (found : Option V)
  | removed (ok : Bool)
  | count (n : Nat)
  deriving DecidableEq, Repr

/-- The key that a call uses, in the sense of "recently used": the one it adds or gets. -/
def Call.uses : Call K V → Option K
  | .add _ key _ => some key
  | .get _ key => some key
  | _ => none

/-- The reading of the clock that a call makes. -/
def Call.reading : Call K V → Option Int
  | .add now _ _ => some now
  | .get now _ => some now
  | .removeOldestExpired now => some now
  | _ => none

/-! ## The reference -/

namespace Reference

variable [DecidableEq K]

/-- The reference's `Add`: a present key is updated and put in front, a new one is put in front and
the last entry goes if there is one too many. -/
def add (maxEntries : Nat) (l : List (Entry K V)) (e : Entry K V) : List (Entry K V) :=
  match find Entry.key l e.key with
  | some _ => front Entry.key l e
  | none => cap maxEntries (e :: l)

/-- The reference's `Get`: an entry that is found is put in front with a new expiry. -/
def get (l : List (Entry K V)) (expiry : Int) (key : K) : Option V × List (Entry K V) :=
  match find Entry.key l key with
  | some e => (some e.value, front Entry.key l { e with expiry })
  | none => (none, l)

/-- The reference's `removeOldestExpired`: the last entry goes if it has expired. -/
def removeOldestExpired (l : List (Entry K V)) (now : Int) : Bool × List (Entry K V) :=
  match l.getLast? with
  | some e => if now > e.expiry then (true, l.dropLast) else (false, l)
  | none => (false, l)

def perform (maxEntries : Nat) (expiry : Int) (l : List (Entry K V)) :
    Call K V → Reply V × List (Entry K V)
  | .add now key value => (.done, add maxEntries l { key, value, expiry := now + expiry })
  | .get now key => (.value (get l (now + expiry) key).1, (get l (now + expiry) key).2)
  | .peek key => (.value ((find Entry.key l key).map Entry.value), l)
  | .remove key => (.done, drop Entry.key l key)
  | .clear => (.done, [])
  | .removeOldestExpired now =>
    (.removed (removeOldestExpired l now).1, (removeOldestExpired l now).2)
  | .len => (.count l.length, l)

/-- The calls of a history on the reference, from a list of entries. -/
def run (maxEntries : Nat) (expiry : Int) (l : List (Entry K V)) :
    List (Call K V) → List (Reply V) × List (Entry K V)
  | [] => ([], l)
  | a :: cs =>
    let (r, l') := perform maxEntries expiry l a
    let (rs, l'') := run maxEntries expiry l' cs
    (r :: rs, l'')

end Reference

/-! ## The cache -/

namespace Cache

/-- The list of entries that a cache stands for. -/
def entries (c : Cache K V) : List (Entry K V) := c.ll.filterMap c.heap

variable [DecidableEq K]

def perform (c : Cache K V) : Call K V → Reply V × Cache K V
  | .add now key value => (.done, c.add now key value)
  | .get now key => (.value (c.get now key).1, (c.get now key).2)
  | .peek key => (.value (c.peek key), c)
  | .remove key => (.done, c.remove key)
  | .clear => (.done, c.clear)
  | .removeOldestExpired now =>
    (.removed (c.removeOldestExpired now).1, (c.removeOldestExpired now).2)
  | .len => (.count c.len, c)

def run (c : Cache K V) : List (Call K V) → List (Reply V) × Cache K V
  | [] => ([], c)
  | a :: cs =>
    let (r, c') := c.perform a
    let (rs, c'') := c'.run cs
    (r :: rs, c'')

/-- The loop `for c.removeOldestExpired() { }` at one reading of the clock, given fuel. -/
def removeExpired : Nat → Cache K V → Int → Option (Cache K V)
  | 0, _, _ => none
  | fuel + 1, c, now =>
    match c.removeOldestExpired now with
    | (true, c') => removeExpired fuel c' now
    | (false, c') => some c'

/-- A round of `expireLoop`. -/
def sweep (fuel : Nat) (c : Cache K V) (now : Int) : Option (Cache K V) :=
  if c.oldestExpired now then removeExpired fuel c now else some c

/-! ## The list of a cache -/

variable {c : Cache K V}

omit [DecidableEq K] in
theorem WF.length_entries (hc : c.WF) : c.entries.length = c.len := by
  unfold entries len
  have hall : ∀ h ∈ c.ll, (c.heap h).isSome := by
    intro h hh
    obtain ⟨e, he, -⟩ := hc.listed h hh
    simp [he]
  exact List.filterMap_length_eq_length.mpr hall

variable {e : Entry K V} {k : K} {ele : Handle}

omit [DecidableEq K] in
theorem mem_entries : e ∈ c.entries ↔ ∃ h ∈ c.ll, c.heap h = some e := by
  simp [entries, List.mem_filterMap]

section

variable (hc : c.WF)

include hc

omit [DecidableEq K] in
theorem WF.cache_of_heap {h : Handle} (hh : h ∈ c.ll)
    (he : c.heap h = some e) : c.cache e.key = some h := by
  obtain ⟨e', he', hk⟩ := hc.listed h hh
  rw [he] at he'
  rw [Option.some.inj he']
  exact hk

omit [DecidableEq K] in
theorem WF.nodup_keys : (c.entries.map Entry.key).Nodup := by
  unfold entries
  rw [List.Nodup, List.pairwise_map, List.pairwise_filterMap]
  refine hc.nodup.imp_of_mem ?_
  intro h h' hh hh' hne e he e' he' hkey
  have hm := hc.cache_of_heap hh he
  rw [hkey, hc.cache_of_heap hh' he'] at hm
  exact hne (Option.some.inj hm).symm

theorem WF.find_entries (k : K) : find Entry.key c.entries k = (c.cache k).bind c.heap := by
  unfold find
  cases hf : c.entries.find? (fun e => e.key = k) with
  | none =>
    rw [List.find?_eq_none] at hf
    cases hk : c.cache k with
    | none => rfl
    | some ele =>
      obtain ⟨hmem, e, he, hkey⟩ := hc.mapped k ele hk
      exact absurd (decide_eq_true hkey) (hf e (mem_entries.mpr ⟨ele, hmem, he⟩))
  | some e =>
    obtain ⟨h, hh, he⟩ := mem_entries.mp (List.mem_of_find?_eq_some hf)
    have hkey : e.key = k := by simpa using List.find?_some hf
    have hm := hc.cache_of_heap hh he
    rw [hkey] at hm
    rw [hm]
    exact he.symm

theorem WF.filterMap_erase (hk : c.cache k = some ele) :
    (c.ll.erase ele).filterMap c.heap = drop Entry.key c.entries k := by
  unfold drop entries
  rw [hc.nodup.erase_eq_filter, List.filterMap_filter, List.filter_filterMap]
  refine List.filterMap_congr ?_
  intro h hh
  obtain ⟨e, he, hm⟩ := hc.listed h hh
  by_cases hx : h = ele
  · obtain ⟨-, e', he', hkey⟩ := hc.mapped k ele hk
    subst hx
    simp [he', hkey, Option.filter_some]
  · have hne : e.key ≠ k := by
      intro hkey
      rw [hkey, hk] at hm
      exact hx (Option.some.inj hm).symm
    simp [he, hx, hne, Option.filter_some]

theorem WF.entries_refresh (now : Int)
    (hk : c.cache k = some ele) (he : c.heap ele = some e) (f : V → V) :
    (c.refresh now ele f).entries =
      front Entry.key c.entries { e with expiry := now + c.expiry, value := f e.value } := by
  obtain ⟨hmem, e', he', hkey⟩ := hc.mapped k ele hk
  have hee : e' = e := Option.some.inj (he'.symm.trans he)
  subst hee
  have hll : (c.refresh now ele f).ll = ele :: c.ll.erase ele := if_pos hmem
  have hrest : (c.ll.erase ele).filterMap (c.refresh now ele f).heap =
      (c.ll.erase ele).filterMap c.heap := by
    refine List.filterMap_congr ?_
    intro h hh
    have hne : h ≠ ele := (hc.nodup.mem_erase_iff.mp hh).1
    simp [Cache.refresh, hne]
  have hhead : (c.refresh now ele f).heap ele =
      some { e' with expiry := now + c.expiry, value := f e'.value } := by
    simp [Cache.refresh, he]
  unfold entries front
  rw [hll, List.filterMap_cons_some hhead, hrest, hc.filterMap_erase hk, hkey]
  rfl

omit [DecidableEq K] in
theorem WF.entries_pushFront [DecidableEq K] (now : Int) (key : K) (value : V) :
    (c.pushFront now key value).entries = { key, value, expiry := now + c.expiry } :: c.entries := by
  have hrest : c.ll.filterMap (c.pushFront now key value).heap = c.ll.filterMap c.heap := by
    refine List.filterMap_congr ?_
    intro h hh
    simp [Cache.pushFront, Nat.ne_of_lt (hc.fresh h hh)]
  have hhead : (c.pushFront now key value).heap c.next =
      some { key, value, expiry := now + c.expiry } := by
    simp [Cache.pushFront]
  show (c.next :: c.ll).filterMap (c.pushFront now key value).heap = _
  rw [List.filterMap_cons_some hhead, hrest]
  rfl

theorem WF.entries_removeElement (hk : c.cache k = some ele) :
    (c.removeElement ele).entries = drop Entry.key c.entries k := by
  obtain ⟨-, e, he, -⟩ := hc.mapped k ele hk
  rw [← hc.filterMap_erase hk]
  simp only [Cache.removeElement, he, entries]

theorem WF.last_cases : (c.ll = [] ∧ c.entries = []) ∨
      ∃ l ele e, c.ll = l ++ [ele] ∧ c.heap ele = some e ∧ c.entries = l.filterMap c.heap ++ [e] ∧
        c.removeOldest.entries = l.filterMap c.heap := by
  rcases List.eq_nil_or_concat c.ll with hnil | ⟨l, ele, hl⟩
  · exact Or.inl ⟨hnil, by rw [entries, hnil]; rfl⟩
  rw [List.concat_eq_append] at hl
  have hmem : ele ∈ c.ll := by rw [hl]; simp
  obtain ⟨e, he, -⟩ := hc.listed ele hmem
  have hnot : ele ∉ l := by
    have hnd := hc.nodup
    rw [hl] at hnd
    intro hx
    exact List.disjoint_of_nodup_append hnd hx (List.mem_singleton_self ele)
  refine Or.inr ⟨l, ele, e, hl, he, ?_, ?_⟩
  · rw [entries, hl, List.filterMap_append]
    simp [he]
  · have hlast : c.ll.getLast? = some ele := by rw [hl]; simp
    simp only [Cache.removeOldest, hlast, Cache.removeElement, he, entries]
    rw [hl, List.erase_append_right _ hnot]
    simp

theorem WF.entries_removeOldest : c.removeOldest.entries = c.entries.dropLast := by
  rcases hc.last_cases with ⟨hll, hnil⟩ | ⟨l, ele, e, -, -, hentries, hremoved⟩
  · have hsame : c.removeOldest = c := by simp [Cache.removeOldest, hll]
    rw [hsame, hnil]
    rfl
  · rw [hremoved, hentries, List.dropLast_concat]

theorem WF.oldestExpired_eq (now : Int) :
    c.oldestExpired now = (c.entries.getLast?.map (·.expired now)).getD false := by
  rcases hc.last_cases with ⟨hll, hnil⟩ | ⟨l, ele, e, hll, he, hentries, -⟩
  · rw [hnil, Cache.oldestExpired, hll]
    rfl
  · have hlast : c.ll.getLast? = some ele := by rw [hll]; simp
    rw [hentries, Cache.oldestExpired, hlast]
    simp [he]

/-! ## A call on the cache is the call on its list -/

theorem WF.find_of_cache (hk : c.cache k = some ele) :
    ∃ e, c.heap ele = some e ∧ e.key = k ∧ find Entry.key c.entries k = some e := by
  obtain ⟨-, e, he, hkey⟩ := hc.mapped k ele hk
  refine ⟨e, he, hkey, ?_⟩
  rw [hc.find_entries, hk]
  exact he

theorem WF.entries_add (now : Int) (key : K) (value : V) : (c.add now key value).entries =
      Reference.add c.maxEntries c.entries { key, value, expiry := now + c.expiry } := by
  unfold Cache.add Reference.add
  cases hk : c.cache key with
  | some ele =>
    obtain ⟨e, he, rfl, hfind⟩ := hc.find_of_cache hk
    simp only [hfind]
    exact hc.entries_refresh now hk he _
  | none =>
    have hfind : find Entry.key c.entries key = none := by rw [hc.find_entries, hk]; rfl
    have hpush := hc.pushFront now hk value
    simp only [hfind]
    rw [← hc.entries_pushFront, cap, hpush.length_entries, ← hpush.entries_removeOldest]
    exact apply_ite Cache.entries _ _ _

theorem WF.get_eq (now : Int) (key : K) : ((c.get now key).1, (c.get now key).2.entries) =
      Reference.get c.entries (now + c.expiry) key := by
  unfold Cache.get Reference.get
  cases hk : c.cache key with
  | some ele =>
    obtain ⟨e, he, rfl, hfind⟩ := hc.find_of_cache hk
    simp only [hfind, he, Option.map_some]
    rw [hc.entries_refresh now hk he id]
    rfl
  | none =>
    have hfind : find Entry.key c.entries key = none := by rw [hc.find_entries, hk]; rfl
    simp only [hfind]

theorem WF.peek_eq (key : K) : c.peek key = (find Entry.key c.entries key).map Entry.value := by
  rw [hc.find_entries]
  unfold Cache.peek
  cases c.cache key with
  | some ele => rfl
  | none => rfl

theorem WF.entries_remove (key : K) : (c.remove key).entries = drop Entry.key c.entries key := by
  unfold Cache.remove
  cases hk : c.cache key with
  | some ele => exact hc.entries_removeElement hk
  | none =>
    have hfind : find Entry.key c.entries key = none := by rw [hc.find_entries, hk]; rfl
    exact (drop_of_find_eq_none hfind).symm

theorem WF.removeOldestExpired_eq (now : Int) :
    ((c.removeOldestExpired now).1, (c.removeOldestExpired now).2.entries) =
      Reference.removeOldestExpired c.entries now := by
  have hlast := hc.oldestExpired_eq now
  unfold Cache.removeOldestExpired Reference.removeOldestExpired
  cases he : c.entries.getLast? with
  | none =>
    rw [he] at hlast
    simp [hlast]
  | some e =>
    rw [he] at hlast
    by_cases hx : now > e.expiry
    · have hold : c.oldestExpired now = true := by
        rw [hlast]
        simpa [Entry.expired] using hx
      simp only [hold, hx, if_true]
      rw [hc.entries_removeOldest]
    · have hold : ¬ c.oldestExpired now = true := by
        rw [hlast]
        simpa [Entry.expired] using hx
      simp only [hold, hx, if_false]
      rfl

theorem WF.perform (a : Call K V) : (c.perform a).2.WF := by
  cases a with
  | add now key value => exact hc.add now key value
  | get now key => exact hc.get now key
  | peek key => exact hc
  | remove key => exact hc.remove key
  | clear => exact wf_clear
  | removeOldestExpired now => exact hc.removeOldestExpired now
  | len => exact hc

/-- A call on the cache replies as the list does, and the list follows it. -/
theorem WF.perform_eq (a : Call K V) : ((c.perform a).1, (c.perform a).2.entries) =
      Reference.perform c.maxEntries c.expiry c.entries a := by
  cases a with
  | add now key value => exact congrArg (Prod.mk _) (hc.entries_add now key value)
  | get now key =>
    show _ = (Reply.value (Reference.get c.entries (now + c.expiry) key).1, _)
    rw [← hc.get_eq]
    rfl
  | peek key => exact congrArg (fun r => (Reply.value r, c.entries)) (hc.peek_eq key)
  | remove key => exact congrArg (Prod.mk _) (hc.entries_remove key)
  | clear => rfl
  | removeOldestExpired now =>
    show _ = (Reply.removed (Reference.removeOldestExpired c.entries now).1, _)
    rw [← hc.removeOldestExpired_eq]
    rfl
  | len => exact congrArg (fun n => (Reply.count n, c.entries)) hc.length_entries.symm

end

theorem settings_removeOldest (c : Cache K V) :
    c.removeOldest.maxEntries = c.maxEntries ∧ c.removeOldest.expiry = c.expiry := by
  unfold Cache.removeOldest Cache.removeElement
  split
  · split <;> exact ⟨rfl, rfl⟩
  · exact ⟨rfl, rfl⟩

theorem settings_perform (c : Cache K V) (a : Call K V) :
    (c.perform a).2.maxEntries = c.maxEntries ∧ (c.perform a).2.expiry = c.expiry := by
  cases a with
  | add now key value =>
    show (c.add now key value).maxEntries = _ ∧ (c.add now key value).expiry = _
    unfold Cache.add
    split
    · exact ⟨rfl, rfl⟩
    · simp only
      split
      · exact settings_removeOldest (c.pushFront now key value)
      · exact ⟨rfl, rfl⟩
  | get now key =>
    show (c.get now key).2.maxEntries = _ ∧ (c.get now key).2.expiry = _
    unfold Cache.get
    split <;> exact ⟨rfl, rfl⟩
  | remove key =>
    show (c.remove key).maxEntries = _ ∧ (c.remove key).expiry = _
    unfold Cache.remove Cache.removeElement
    split
    · split <;> exact ⟨rfl, rfl⟩
    · exact ⟨rfl, rfl⟩
  | removeOldestExpired now =>
    show (c.removeOldestExpired now).2.maxEntries = _ ∧ (c.removeOldestExpired now).2.expiry = _
    unfold Cache.removeOldestExpired
    split
    · exact settings_removeOldest c
    · exact ⟨rfl, rfl⟩
  | peek | clear | len => exact ⟨rfl, rfl⟩

theorem WF.run (hc : c.WF) (cs : List (Call K V)) : (c.run cs).2.WF := by
  induction cs generalizing c with
  | nil => exact hc
  | cons a cs ih => exact ih (hc.perform a)

/-- **A history on the cache is the history on its list**: the same replies, and the list at the
end is the one the cache stands for. -/
theorem WF.run_eq (hc : c.WF) (cs : List (Call K V)) : ((c.run cs).1, (c.run cs).2.entries) =
      Reference.run c.maxEntries c.expiry c.entries cs := by
  induction cs generalizing c with
  | nil => rfl
  | cons a cs ih =>
    obtain ⟨hmax, hexpiry⟩ := settings_perform c a
    have hrest := ih (hc.perform a)
    rw [hmax, hexpiry] at hrest
    simp only [Cache.run, Reference.run, ← hc.perform_eq a, ← hrest]

end Cache

/-! ## The order of the list -/

section Order

variable [DecidableEq K]

/-- How many calls there were up to the last use of the key, and with it; zero if it was not
used. -/
def lastUse (cs : List (Call K V)) (k : K) : Nat :=
  (cs.reverse.dropWhile fun a => a.uses ≠ some k).length

theorem lastUse_le (cs : List (Call K V)) (k : K) : lastUse cs k ≤ cs.length := by
  unfold lastUse
  have h := (List.dropWhile_sublist (fun a : Call K V => a.uses ≠ some k) (l := cs.reverse)).length_le
  rwa [List.length_reverse] at h

theorem lastUse_concat_self {cs : List (Call K V)} {a : Call K V} {k : K} (h : a.uses = some k) :
    lastUse (cs ++ [a]) k = cs.length + 1 := by
  simp [lastUse, h]

theorem lastUse_concat_of_ne {cs : List (Call K V)} {a : Call K V} {k : K} (h : a.uses ≠ some k) :
    lastUse (cs ++ [a]) k = lastUse cs k := by
  simp [lastUse, h]

namespace Reference

theorem add_sublist (maxEntries : Nat) (l : List (Entry K V)) (e : Entry K V) :
    (add maxEntries l e).Sublist (front Entry.key l e) := by
  unfold add
  split
  · exact List.Sublist.refl _
  · rename_i hfind
    rw [front, drop_of_find_eq_none hfind]
    exact cap_sublist maxEntries (e :: l)

omit [DecidableEq K] in
theorem removeOldestExpired_sublist (l : List (Entry K V)) (now : Int) :
    (removeOldestExpired l now).2.Sublist l := by
  unfold removeOldestExpired
  split
  · split
    · exact List.dropLast_sublist l
    · exact List.Sublist.refl l
  · exact List.Sublist.refl l

/-- What a call can do to the list: it takes entries out and uses none of those that stay, or it
puts the entry of the key it uses in front, with an expiry counted from its reading. -/
theorem perform_cases (maxEntries : Nat) (expiry : Int) (l : List (Entry K V)) (a : Call K V) :
    ((perform maxEntries expiry l a).2.Sublist l ∧ ∀ e ∈ l, a.uses ≠ some e.key) ∨
      ∃ e now, a.uses = some e.key ∧ a.reading = some now ∧ e.expiry = now + expiry ∧
        (perform maxEntries expiry l a).2.Sublist (front Entry.key l e) := by
  cases a with
  | add now key value =>
    exact Or.inr ⟨{ key, value, expiry := now + expiry }, now, rfl, rfl, rfl,
      add_sublist maxEntries l _⟩
  | get now key =>
    show ((get l (now + expiry) key).2.Sublist l ∧ _) ∨
      ∃ e now', _ ∧ _ ∧ _ ∧ (get l (now + expiry) key).2.Sublist (front Entry.key l e)
    unfold get
    cases hfind : find Entry.key l key with
    | some e =>
      have hkey : e.key = key := by simpa using List.find?_some hfind
      refine Or.inr ⟨{ e with expiry := now + expiry }, now, ?_, rfl, rfl, List.Sublist.refl _⟩
      rw [← hkey]
      rfl
    | none =>
      refine Or.inl ⟨List.Sublist.refl l, ?_⟩
      intro e he hx
      have hne := List.find?_eq_none.mp hfind e he
      have hkey : key = e.key := Option.some.inj hx
      simp [hkey] at hne
  | peek | len => exact Or.inl ⟨List.Sublist.refl l, fun _ _ h => nomatch h⟩
  | remove key => exact Or.inl ⟨drop_sublist l key, fun _ _ h => nomatch h⟩
  | clear => exact Or.inl ⟨List.nil_sublist l, fun _ _ h => nomatch h⟩
  | removeOldestExpired now =>
    exact Or.inl ⟨removeOldestExpired_sublist l now, fun _ _ h => nomatch h⟩

theorem run_concat (maxEntries : Nat) (expiry : Int) (l : List (Entry K V))
    (cs : List (Call K V)) (a : Call K V) :
    (run maxEntries expiry l (cs ++ [a])).2 =
      (perform maxEntries expiry (run maxEntries expiry l cs).2 a).2 := by
  induction cs generalizing l with
  | nil => rfl
  | cons b cs ih => exact ih (perform maxEntries expiry l b).2

theorem run_invariant {P : List (Call K V) → List (Entry K V) → Prop} {maxEntries : Nat}
    {expiry : Int} (h₀ : P [] [])
    (hstep : ∀ cs a l, P cs l → P (cs ++ [a]) (perform maxEntries expiry l a).2)
    (cs : List (Call K V)) : P cs (run maxEntries expiry [] cs).2 := by
  induction cs using List.reverseRecOn with
  | nil => exact h₀
  | append_singleton cs a ih =>
    rw [run_concat]
    exact hstep cs a _ ih

/-- The entries of the list are in the order of their last use, the last one first. -/
theorem ordered_by_lastUse (maxEntries : Nat) (expiry : Int) (cs : List (Call K V)) :
    (run maxEntries expiry [] cs).2.Pairwise fun e e' => lastUse cs e'.key < lastUse cs e.key := by
  refine run_invariant (P := fun cs l => l.Pairwise fun e e' =>
    lastUse cs e'.key < lastUse cs e.key) List.Pairwise.nil ?_ cs
  intro cs a l hl
  rcases perform_cases maxEntries expiry l a with ⟨hsub, huses⟩ | ⟨e, now, huses, -, -, hsub⟩
  · refine List.Pairwise.sublist hsub (hl.imp_of_mem ?_)
    intro x y hx hy hlt
    rwa [lastUse_concat_of_ne (huses x hx), lastUse_concat_of_ne (huses y hy)]
  · -- the entry that is used is the last one of the history, and no other use changes
    have hother : ∀ x : Entry K V, x.key ≠ e.key → lastUse (cs ++ [a]) x.key = lastUse cs x.key := by
      intro x hx
      refine lastUse_concat_of_ne ?_
      rw [huses]
      exact fun h => hx (Option.some.inj h).symm
    refine List.Pairwise.sublist hsub (pairwise_front hl ?_ ?_)
    · intro x _ hx
      rw [hother x hx, lastUse_concat_self huses]
      exact Nat.lt_succ_of_le (lastUse_le cs x.key)
    · intro x y hx hy hlt
      rwa [hother x hx, hother y hy]

/-- At non-decreasing readings of the clock the entries are in the order of their expiry as well: a
call counts it from its reading, which no earlier call is past. -/
theorem ordered_by_expiry (maxEntries : Nat) (expiry : Int) (cs : List (Call K V))
    (hclock : (cs.filterMap Call.reading).Pairwise (· ≤ ·)) :
    (run maxEntries expiry [] cs).2.Pairwise fun e e' => e'.expiry ≤ e.expiry := by
  suffices h : (cs.filterMap Call.reading).Pairwise (· ≤ ·) →
      ((run maxEntries expiry [] cs).2.Pairwise fun e e' => e'.expiry ≤ e.expiry) ∧
      ∀ e ∈ (run maxEntries expiry [] cs).2, ∃ t ∈ cs.filterMap Call.reading,
        e.expiry = t + expiry from (h hclock).1
  refine run_invariant (P := fun cs l => (cs.filterMap Call.reading).Pairwise (· ≤ ·) →
    (l.Pairwise fun e e' => e'.expiry ≤ e.expiry) ∧
      ∀ e ∈ l, ∃ t ∈ cs.filterMap Call.reading, e.expiry = t + expiry)
    (fun _ => ⟨List.Pairwise.nil, fun e he => nomatch he⟩) ?_ cs
  intro cs a l ih hall
  rw [List.filterMap_append] at hall ⊢
  obtain ⟨hpast, -, hlast⟩ := List.pairwise_append.mp hall
  obtain ⟨hl, hstamp⟩ := ih hpast
  have hold : ∀ e ∈ l, ∃ t ∈ cs.filterMap Call.reading ++ [a].filterMap Call.reading,
      e.expiry = t + expiry := by
    intro e he
    obtain ⟨t, ht, hx⟩ := hstamp e he
    exact ⟨t, List.mem_append_left _ ht, hx⟩
  rcases perform_cases maxEntries expiry l a with ⟨hsub, -⟩ | ⟨e, now, -, hread, hexp, hsub⟩
  · exact ⟨hl.sublist hsub, fun x hx => hold x (hsub.subset hx)⟩
  · have hnow : now ∈ [a].filterMap Call.reading := by simp [hread]
    refine ⟨List.Pairwise.sublist hsub (pairwise_front hl ?_ (fun _ _ _ _ h => h)), ?_⟩
    · intro x hx _
      obtain ⟨t, ht, hxt⟩ := hstamp x hx
      have hle := hlast t ht now hnow
      omega
    · intro x hx
      rcases List.mem_cons.mp (hsub.subset hx) with rfl | hx
      · exact ⟨now, List.mem_append_right _ hnow, hexp⟩
      · exact hold x (mem_drop.mp hx).1

theorem length_perform_le {maxEntries : Nat} (hmax : 0 < maxEntries) (expiry : Int)
    {l : List (Entry K V)} (hkeys : (l.map Entry.key).Nodup) (hl : l.length ≤ maxEntries)
    (a : Call K V) : (perform maxEntries expiry l a).2.length ≤ maxEntries := by
  cases a with
  | add now key value =>
    show (add maxEntries l _).length ≤ maxEntries
    unfold add
    split
    · rename_i hfind
      rw [length_front hkeys hfind]
      exact hl
    · exact length_cap hmax (Nat.succ_le_succ hl)
  | get now key =>
    show (get l (now + expiry) key).2.length ≤ maxEntries
    unfold get
    split
    · rename_i e hfind
      have hkey : e.key = key := by simpa using List.find?_some hfind
      subst hkey
      have hsame : (front Entry.key l { e with expiry := now + expiry }).length = l.length :=
        length_front hkeys hfind
      rwa [hsame]
    · exact hl
  | peek key => exact hl
  | remove key => exact Nat.le_trans (drop_sublist l key).length_le hl
  | clear => exact Nat.zero_le _
  | removeOldestExpired now => exact Nat.le_trans (removeOldestExpired_sublist l now).length_le hl
  | len => exact hl

end Reference

end Order

namespace Cache

variable [DecidableEq K] {c : Cache K V}

theorem WF.len_perform_le (hc : c.WF) (hmax : 0 < c.maxEntries) (hl : c.len ≤ c.maxEntries)
    (a : Call K V) : (c.perform a).2.len ≤ c.maxEntries := by
  rw [← hc.length_entries] at hl
  have hle := Reference.length_perform_le hmax c.expiry hc.nodup_keys hl a
  rw [← hc.perform_eq a] at hle
  rwa [(hc.perform a).length_entries] at hle

theorem WF.len_run_le (hc : c.WF) (hmax : 0 < c.maxEntries) (hl : c.len ≤ c.maxEntries)
    (cs : List (Call K V)) : (c.run cs).2.len ≤ c.maxEntries := by
  induction cs generalizing c with
  | nil => exact hl
  | cons a cs ih =>
    obtain ⟨hsame, -⟩ := settings_perform c a
    have hstep := hc.len_perform_le hmax hl a
    rw [← hsame] at hmax hstep ⊢
    exact ih (hc.perform a) hmax hstep

/-- **The cache is a list ordered by last use.** After every history of calls, the map and the list
are in bijection, the capacity is kept, every call has replied as the reference list does, the cache
stands for that list, and the list is ordered by the last `Add` or `Get` of its keys. -/
theorem lru_refinement (maxEntries : Nat) (expiry : Int) (cs : List (Call K V)) :
    let c := (new maxEntries expiry : Cache K V).run cs
    let r := Reference.run maxEntries expiry [] cs
    c.2.WF ∧ (0 < maxEntries → c.2.len ≤ maxEntries) ∧ c.1 = r.1 ∧ c.2.entries = r.2 ∧
      r.2.Pairwise fun e e' => lastUse cs e'.key < lastUse cs e.key := by
  intro c r
  have hnew := wf_new maxEntries expiry (K := K) (V := V)
  have heq : (c.1, c.2.entries) = r := hnew.run_eq cs
  refine ⟨hnew.run cs, ?_, congrArg Prod.fst heq, congrArg Prod.snd heq,
    Reference.ordered_by_lastUse maxEntries expiry cs⟩
  intro hmax
  exact hnew.len_run_le hmax (Nat.zero_le _) cs

/-! ## Sweeps -/

/-- What has expired is at the back of a list ordered by expiry, where the loop takes it off. -/
theorem removeExpired_exact (hc : c.WF) (now : Int)
    (horder : c.entries.Pairwise fun e e' => e'.expiry ≤ e.expiry) {fuel : Nat}
    (hfuel : c.len < fuel) :
    ∃ c', removeExpired fuel c now = some c' ∧ c'.WF ∧
      c'.entries = c.entries.filter fun e => now ≤ e.expiry := by
  induction fuel generalizing c with
  | zero => omega
  | succ fuel ih =>
    unfold removeExpired Cache.removeOldestExpired
    have hlast := hc.oldestExpired_eq now
    rcases hc.last_cases with ⟨-, hnil⟩ | ⟨l, ele, e, -, -, hentries, hremoved⟩
    · have hno : ¬ c.oldestExpired now = true := by simp [hlast, hnil]
      rw [if_neg hno]
      exact ⟨c, rfl, hc, by rw [hnil]; rfl⟩
    · rw [hentries] at horder
      by_cases hexp : now > e.expiry
      · have hyes : c.oldestExpired now = true := by simpa [hlast, hentries, Entry.expired] using hexp
        have hlen : c.removeOldest.len + 1 = c.len := by
          rw [← hc.removeOldest.length_entries, ← hc.length_entries, hremoved, hentries]
          simp
        have hbefore : c.removeOldest.entries.Pairwise fun e e' => e'.expiry ≤ e.expiry := by
          rw [hremoved]
          exact (List.pairwise_append.mp horder).1
        obtain ⟨c', hc', hwf, hkept⟩ := ih hc.removeOldest hbefore (by omega)
        rw [if_pos hyes]
        refine ⟨c', hc', hwf, ?_⟩
        rw [hkept, hremoved, hentries, filter_concat_of_lt (f := Entry.expiry) (by omega)]
      · have hno : ¬ c.oldestExpired now = true := by simpa [hlast, hentries, Entry.expired] using hexp
        rw [if_neg hno]
        refine ⟨c, rfl, hc, ?_⟩
        rw [hentries, filter_eq_self_of_last (f := Entry.expiry) horder (by omega)]

/-- **A sweep is exact.** After every history of calls at non-decreasing readings of the clock the
list is ordered by expiry, the entry that expires last in front. A sweep then ends, given as many
rounds as there are entries and one more, and takes exactly the entries whose expiry is before
its time. -/
theorem sweep_exact (maxEntries : Nat) (expiry : Int) (cs : List (Call K V))
    (hclock : (cs.filterMap Call.reading).Pairwise (· ≤ ·)) :
    let c := ((new maxEntries expiry : Cache K V).run cs).2
    (c.entries.Pairwise fun e e' => e'.expiry ≤ e.expiry) ∧
      ∀ (now : Int) (fuel : Nat), c.len < fuel → ∃ c', c.sweep fuel now = some c' ∧ c'.WF ∧
        c'.entries = c.entries.filter fun e => ¬ e.expiry < now := by
  intro c
  have hnew := wf_new maxEntries expiry (K := K) (V := V)
  have heq : c.entries = (Reference.run maxEntries expiry [] cs).2 :=
    congrArg Prod.snd (hnew.run_eq cs)
  have horder : c.entries.Pairwise fun e e' => e'.expiry ≤ e.expiry := by
    rw [heq]
    exact Reference.ordered_by_expiry maxEntries expiry cs hclock
  refine ⟨horder, ?_⟩
  intro now fuel hfuel
  have hwf : c.WF := hnew.run cs
  obtain ⟨c', hc', hwf', hkept⟩ := removeExpired_exact hwf now horder hfuel
  simp only [Int.not_lt]
  unfold sweep
  split
  · exact ⟨c', hc', hwf', hkept⟩
  · -- the loop would have stopped at once
    rename_i hno
    obtain ⟨n, rfl⟩ : ∃ n, fuel = n + 1 := ⟨fuel - 1, by omega⟩
    simp only [removeExpired, Cache.removeOldestExpired, if_neg hno, Option.some.injEq] at hc'
    exact ⟨c, rfl, hwf, hc' ▸ hkept⟩

/-- Two entries are added five nanoseconds apart and the first is read again at 8; a sweep at 17
finds the second expired, and keeps the first. -/
theorem sweep_exact_two_entries :
    let cs : List (Call Nat Nat) := [.add 0 1 10, .add 5 2 20, .get 8 1]
    let c := ((new 4 10 : Cache Nat Nat).run cs).2
    ((c.sweep 3 17).map fun c' => c'.entries.map Entry.key) = some [1] ∧
      c.entries.map Entry.key = [1, 2] ∧
      ∃ c', c.sweep 3 17 = some c' ∧ c'.WF ∧
        c'.entries = c.entries.filter fun e => ¬ e.expiry < 17 := by
  refine ⟨by decide, by decide, ?_⟩
  exact (sweep_exact 4 10 [.add 0 1 10, .add 5 2 20, .get 8 1] (by decide)).2 17 3 (by decide)

end Cache

end MongoBouncer.Lruttl
