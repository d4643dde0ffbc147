import Mathlib.Data.List.Nodup
import Mathlib.Logic.Function.Basic

/-!
# `lruttl`: an LRU cache whose records expire

Model of `lruttl/lruttl.go`. The Go cache is a doubly linked list of elements, most recently
used first, and a map from keys to elements of that list. Elements are pointers, so the model
keeps them as handles into a heap of entries: `ll` is the list of handles, `cache` the map, and
the two agree only by the invariant `Cache.WF`.

* `peek`, `get`, `add`, `remove`, `clear`, `removeOldestExpired` are the operations of the source;
  times are nanoseconds, and an operation that reads the clock takes the reading as an argument;
* `LruTtl` is the type of the caches that satisfy the invariant, closed under the operations.

Principal results: `LruTtl.peek_get`, `LruTtl.peek_remove`, `LruTtl.peek_add_self` and
`LruTtl.peek_of_peek_add`, which say what a lookup finds after a change.
-/

namespace MongoBouncer.Lruttl

/-- `*list.Element`. -/
abbrev Handle := Nat

variable {K V : Type}

structure Entry (K V : Type) where
  key : K
  value : V
  expiry : Int
  deriving DecidableEq, Repr

/-- `Cache`: the list front first, the map from keys to elements, and the elements themselves. -/
structure Cache (K V : Type) where
  maxEntries : Nat
  expiry : Int
  ll : List Handle
  cache : K → Option Handle
  heap : Handle → Option (Entry K V)
  next : Handle

def new (maxEntries : Nat) (expiry : Int) : Cache K V :=
  { maxEntries, expiry, ll := [], cache := fun _ => none, heap := fun _ => none, next := 0 }

def Entry.expired (e : Entry K V) (now : Int) : Bool := decide (now > e.expiry)

/-- `list.MoveToFront`, which ignores an element that is not in the list. -/
def moveToFront (l : List Handle) (h : Handle) : List Handle := if h ∈ l then h :: l.erase h else l

def Cache.len (c : Cache K V) : Nat := c.ll.length

def Cache.peek (c : Cache K V) (key : K) : Option V :=
  match c.cache key with
  | some ele => (c.heap ele).map Entry.value
  | none => none

/-- Moves an element to the front, touches it and changes its value: the hit branch of `get`
and of `add`. -/
def Cache.refresh (c : Cache K V) (now : Int) (ele : Handle) (f : V → V) : Cache K V :=
  { c with
    ll := moveToFront c.ll ele
    heap := Function.update c.heap ele
      ((c.heap ele).map fun e => { e with expiry := now + c.expiry, value := f e.value }) }

/-- `Cache.get`: the value found and the cache after it. -/
def Cache.get (c : Cache K V) (now : Int) (key : K) : Option V × Cache K V :=
  match c.cache key with
  | some ele => ((c.heap ele).map Entry.value, c.refresh now ele id)
  | none => (none, c)

def Cache.clear (c : Cache K V) : Cache K V := { c with ll := [], cache := fun _ => none }

def Cache.oldestExpired (c : Cache K V) (now : Int) : Bool :=
  match c.ll.getLast? with
  | some ele => ((c.heap ele).map (·.expired now)).getD false
  | none => false

section Operations

variable [DecidableEq K]

def Cache.removeElement (c : Cache K V) (ele : Handle) : Cache K V :=
  match c.heap ele with
  | some kv => { c with ll := c.ll.erase ele, cache := Function.update c.cache kv.key none }
  | none => c

def Cache.removeOldest (c : Cache K V) : Cache K V :=
  match c.ll.getLast? with
  | some ele => c.removeElement ele
  | none => c

/-- `ll.PushFront` of a new entry, and its place in the map. -/
def Cache.pushFront (c : Cache K V) (now : Int) (key : K) (value : V) : Cache K V :=
  { c with
    ll := c.next :: c.ll
    cache := Function.update c.cache key (some c.next)
    heap := Function.update c.heap c.next (some { key, value, expiry := now + c.expiry })
    next := c.next + 1 }

def Cache.add (c : Cache K V) (now : Int) (key : K) (value : V) : Cache K V :=
  match c.cache key with
  | some ele => c.refresh now ele fun _ => value
  | none =>
    let c' := c.pushFront now key value
    if c'.maxEntries ≠ 0 ∧ c'.ll.length > c'.maxEntries then c'.removeOldest else c'

def Cache.remove (c : Cache K V) (key : K) : Cache K V :=
  match c.cache key with
  | some ele => c.removeElement ele
  | none => c

def Cache.removeOldestExpired (c : Cache K V) (now : Int) : Bool × Cache K V :=
  if c.oldestExpired now then (true, c.removeOldest) else (false, c)

end Operations

/-! ## The invariant -/

/-- The list and the map are in bijection: every listed element holds the key that is mapped to
it, and every mapped element is listed. -/
structure Cache.WF (c : Cache K V) : Prop where
  nodup : c.ll.Nodup
  listed : ∀ h ∈ c.ll, ∃ e, c.heap h = some e ∧ c.cache e.key = some h
  mapped : ∀ k h, c.cache k = some h → h ∈ c.ll ∧ ∃ e, c.heap h = some e ∧ e.key = k
  fresh : ∀ h ∈ c.ll, h < c.next

theorem wf_new (maxEntries : Nat) (expiry : Int) : (new maxEntries expiry : Cache K V).WF where
  nodup := List.nodup_nil
  listed := by intro h hh; cases hh
  mapped := by intro k h hh; cases hh
  fresh := by intro h hh; cases hh

theorem mem_moveToFront {l : List Handle} {h x : Handle} : x ∈ moveToFront l h ↔ x ∈ l := by
  unfold moveToFront
  split
  · rename_i hl
    by_cases hx : x = h
    · simp [hx, hl]
    · simp [hx, List.mem_erase_of_ne hx]
  · rfl

theorem nodup_moveToFront {l : List Handle} (hl : l.Nodup) (h : Handle) :
    (moveToFront l h).Nodup := by
  unfold moveToFront
  split
  · exact List.nodup_cons.mpr ⟨hl.not_mem_erase, hl.erase h⟩
  · exact hl

namespace Cache

variable {c : Cache K V}

theorem WF.refresh (hc : c.WF) (now : Int) (ele : Handle) (f : V → V) :
    (c.refresh now ele f).WF := by
  have hheap : ∀ h e, c.heap h = some e → ∃ e', (c.refresh now ele f).heap h = some e' ∧
      e'.key = e.key := by
    intro h e he
    by_cases hh : h = ele
    · subst hh
      refine ⟨{ e with expiry := now + c.expiry, value := f e.value }, ?_, rfl⟩
      simp [Cache.refresh, he]
    · exact ⟨e, by simp [Cache.refresh, hh, he], rfl⟩
  refine ⟨nodup_moveToFront hc.nodup ele, ?_, ?_, ?_⟩
  · intro h hh
    obtain ⟨e, he, hk⟩ := hc.listed h (mem_moveToFront.mp hh)
    obtain ⟨e', he', hkey⟩ := hheap h e he
    exact ⟨e', he', by rw [hkey]; exact hk⟩
  · intro k h hk
    obtain ⟨hl, e, he, hek⟩ := hc.mapped k h hk
    obtain ⟨e', he', hkey⟩ := hheap h e he
    exact ⟨mem_moveToFront.mpr hl, e', he', hkey.trans hek⟩
  · intro h hh
    exact hc.fresh h (mem_moveToFront.mp hh)

theorem WF.get (hc : c.WF) (now : Int) (key : K) : (c.get now key).2.WF := by
  unfold Cache.get
  split
  · exact hc.refresh now _ id
  · exact hc

theorem wf_clear : c.clear.WF where
  nodup := List.nodup_nil
  listed := by intro h hh; cases hh
  mapped := by intro k h hh; cases hh
  fresh := by intro h hh; cases hh

variable [DecidableEq K]

theorem WF.pushFront (hc : c.WF) (now : Int) {key : K} (hk : c.cache key = none) (value : V) :
    (c.pushFront now key value).WF := by
  have hnew : c.next ∉ c.ll := fun h => absurd (hc.fresh _ h) (Nat.lt_irrefl _)
  refine ⟨List.nodup_cons.mpr ⟨hnew, hc.nodup⟩, ?_, ?_, ?_⟩
  · intro h hh
    rcases List.mem_cons.mp hh with rfl | hl
    · refine ⟨{ key, value, expiry := now + c.expiry }, ?_, ?_⟩ <;> simp [Cache.pushFront]
    · obtain ⟨e, he, hek⟩ := hc.listed h hl
      have hne : h ≠ c.next := fun hx => hnew (hx ▸ hl)
      have hkey : e.key ≠ key := fun hx => by rw [hx, hk] at hek; cases hek
      exact ⟨e, by simp [Cache.pushFront, hne, he], by simp [Cache.pushFront, hkey, hek]⟩
  · intro k h hkh
    by_cases hx : k = key
    · subst hx
      obtain rfl : c.next = h := by simpa [Cache.pushFront] using hkh
      refine ⟨List.mem_cons_self, { key := k, value, expiry := now + c.expiry }, ?_, rfl⟩
      simp [Cache.pushFront]
    · have hkh' : c.cache k = some h := by simpa [Cache.pushFront, hx] using hkh
      obtain ⟨hl, e, he, hek⟩ := hc.mapped k h hkh'
      have hne : h ≠ c.next := fun hy => hnew (hy ▸ hl)
      exact ⟨List.mem_cons_of_mem _ hl, e, by simp [Cache.pushFront, hne, he], hek⟩
  · intro h hh
    rcases List.mem_cons.mp hh with rfl | hl
    · exact Nat.lt_succ_self _
    · exact Nat.lt_succ_of_lt (hc.fresh h hl)

theorem WF.removeElement (hc : c.WF) {ele : Handle} (hele : ele ∈ c.ll) :
    (c.removeElement ele).WF := by
  obtain ⟨kv, hkv, hmap⟩ := hc.listed ele hele
  simp only [Cache.removeElement, hkv]
  refine ⟨hc.nodup.erase ele, ?_, ?_, ?_⟩
  · intro h hh
    obtain ⟨hne, hl⟩ := hc.nodup.mem_erase_iff.mp hh
    obtain ⟨e, he, hek⟩ := hc.listed h hl
    have hkey : e.key ≠ kv.key := fun hx => by
      rw [hx, hmap] at hek
      exact hne (Option.some.inj hek).symm
    exact ⟨e, he, by simp [hkey, hek]⟩
  · intro k h hkh
    have hx : k ≠ kv.key := fun hx => by simp [hx] at hkh
    have hkh' : c.cache k = some h := by simpa [hx] using hkh
    obtain ⟨hl, e, he, hek⟩ := hc.mapped k h hkh'
    have hne : h ≠ ele := fun hy => by
      rw [hy, hkv] at he
      exact hx (by rw [← hek, Option.some.inj he])
    exact ⟨hc.nodup.mem_erase_iff.mpr ⟨hne, hl⟩, e, he, hek⟩
  · intro h hh
    exact hc.fresh h (List.mem_of_mem_erase hh)

theorem WF.removeOldest (hc : c.WF) : c.removeOldest.WF := by
  unfold Cache.removeOldest
  split
  · rename_i ele h
    exact hc.removeElement (List.mem_of_getLast? h)
  · exact hc

theorem WF.add (hc : c.WF) (now : Int) (key : K) (value : V) : (c.add now key value).WF := by
  unfold Cache.add
  split
  · exact hc.refresh now _ _
  · rename_i hk
    have hpush := hc.pushFront now hk value
    simp only
    split
    · exact hpush.removeOldest
    · exact hpush

theorem WF.remove (hc : c.WF) (key : K) : (c.remove key).WF := by
  unfold Cache.remove
  split
  · rename_i ele h
    exact hc.removeElement (hc.mapped key ele h).1
  · exact hc

theorem WF.removeOldestExpired (hc : c.WF) (now : Int) : (c.removeOldestExpired now).2.WF := by
  unfold Cache.removeOldestExpired
  split
  · exact hc.removeOldest
  · exact hc

/-! ## What a lookup finds after a change -/

theorem peek_removeElement {ele : Handle} {kv : Entry K V} (hkv : c.heap ele = some kv) (k : K) :
    (c.removeElement ele).peek k = if k = kv.key then none else c.peek k := by
  simp only [Cache.removeElement, hkv, Cache.peek]
  by_cases hk : k = kv.key
  · simp [hk]
  · simp [hk]

section

variable (hc : c.WF)

include hc

theorem peek_remove (key k : K) : (c.remove key).peek k = if k = key then none else c.peek k := by
  unfold Cache.remove
  split
  · rename_i ele h
    obtain ⟨-, e, he, rfl⟩ := hc.mapped key ele h
    exact peek_removeElement he k
  · rename_i h
    split
    · rename_i hk
      simp [Cache.peek, hk, h]
    · rfl

theorem peek_refresh (now : Int) {key : K} {ele : Handle}
    (hk : c.cache key = some ele) (f : V → V) (k : K) :
    (c.refresh now ele f).peek k = if k = key then (c.peek k).map f else c.peek k := by
  obtain ⟨-, e, he, hkey⟩ := hc.mapped key ele hk
  by_cases hx : k = key
  · subst hx
    simp [Cache.peek, Cache.refresh, hk, he]
  · cases hm : c.cache k with
    | none => simp [Cache.peek, Cache.refresh, hm, hx]
    | some h =>
      obtain ⟨-, e', he', hkey'⟩ := hc.mapped k h hm
      have hne : h ≠ ele := fun hy => by
        rw [hy, he] at he'
        exact hx (by rw [← hkey', ← hkey, Option.some.inj he'])
      simp [Cache.peek, Cache.refresh, hm, hx, hne]

omit [DecidableEq K] in
theorem peek_of_mapped {key : K} {ele : Handle} (hk : c.cache key = some ele) :
    ∃ v, c.peek key = some v := by
  obtain ⟨-, e, he, -⟩ := hc.mapped key ele hk
  exact ⟨e.value, by simp [Cache.peek, hk, he]⟩

theorem peek_get (now : Int) (key k : K) : (c.get now key).2.peek k = c.peek k := by
  unfold Cache.get
  split
  · rename_i ele hk
    show (c.refresh now ele id).peek k = c.peek k
    rw [peek_refresh hc now hk]
    simp
  · rfl

theorem peek_pushFront (now : Int) (key : K) (v : V) (k : K) :
    (c.pushFront now key v).peek k = if k = key then some v else c.peek k := by
  by_cases hx : k = key
  · subst hx
    simp [Cache.peek, Cache.pushFront]
  · cases hm : c.cache k with
    | none => simp [Cache.peek, Cache.pushFront, hm, hx]
    | some h =>
      have hlt := hc.fresh h (hc.mapped k h hm).1
      simp [Cache.peek, Cache.pushFront, hm, hx, Nat.ne_of_lt hlt]

theorem peek_removeOldest_eq_some {k : K} {v : V}
    (h : c.removeOldest.peek k = some v) : c.peek k = some v := by
  unfold Cache.removeOldest at h
  split at h
  · rename_i ele hlast
    obtain ⟨kv, hkv, -⟩ := hc.listed ele (List.mem_of_getLast? hlast)
    rw [peek_removeElement hkv] at h
    split at h
    · cases h
    · exact h
  · exact h

theorem peek_add_eq_some {now : Int} {key k : K} {v w : V}
    (h : (c.add now key v).peek k = some w) : k = key ∨ c.peek k = some w := by
  by_cases hx : k = key
  · exact Or.inl hx
  right
  unfold Cache.add at h
  split at h
  · rename_i ele hk
    rwa [peek_refresh hc now hk, if_neg hx] at h
  · rename_i hk
    simp only at h
    split at h
    · have h' := peek_removeOldest_eq_some (hc.pushFront now hk v) h
      rwa [peek_pushFront hc, if_neg hx] at h'
    · rwa [peek_pushFront hc, if_neg hx] at h

/-- The element just pushed is not the oldest one when the cache holds another. -/
theorem peek_pushFront_removeOldest (now : Int) {key : K} (hk : c.cache key = none)
    (v : V) (hne : c.ll ≠ []) : (c.pushFront now key v).removeOldest.peek key = some v := by
  obtain ⟨ele, hlast⟩ : ∃ ele, c.ll.getLast? = some ele := ⟨_, List.getLast?_eq_some_getLast hne⟩
  have hele := List.mem_of_getLast? hlast
  have hback : (c.pushFront now key v).ll.getLast? = some ele := by
    simp only [Cache.pushFront, List.getLast?_cons, hlast, Option.getD_some]
  obtain ⟨e, he, hmap⟩ := hc.listed ele hele
  have hlt := hc.fresh ele hele
  have he' : (c.pushFront now key v).heap ele = some e := by
    simp [Cache.pushFront, Nat.ne_of_lt hlt, he]
  have hkey : key ≠ e.key := fun hx => by rw [← hx, hk] at hmap; cases hmap
  simp only [Cache.removeOldest, hback]
  rw [peek_removeElement he', if_neg hkey, peek_pushFront hc, if_pos rfl]

theorem peek_add_self (now : Int) (key : K) (v : V) : (c.add now key v).peek key = some v := by
  unfold Cache.add
  split
  · rename_i ele hk
    obtain ⟨w, hw⟩ := peek_of_mapped hc hk
    rw [peek_refresh hc now hk, if_pos rfl, hw]
    rfl
  · rename_i hk
    simp only
    split
    · rename_i hfull
      refine peek_pushFront_removeOldest hc now hk v fun hnil => ?_
      simp only [Cache.pushFront, hnil, List.length_singleton] at hfull
      omega
    · rw [peek_pushFront hc, if_pos rfl]

end

end Cache

/-! ## The caches that occur -/

/-- A cache whose list and map agree. -/
structure LruTtl (K V : Type) where
  raw : Cache K V
  wf : raw.WF

namespace LruTtl

def new (maxEntries : Nat) (expiry : Int) : LruTtl K V := ⟨Lruttl.new maxEntries expiry, wf_new _ _⟩

/-- `Cache.Peek`. -/
def peek (c : LruTtl K V) (key : K) : Option V := c.raw.peek key

/-- `Cache.Get`. -/
def get (c : LruTtl K V) (now : Int) (key : K) : Option V × LruTtl K V :=
  ((c.raw.get now key).1, ⟨(c.raw.get now key).2, c.wf.get now key⟩)

/-- `Cache.Clear`. -/
def clear (c : LruTtl K V) : LruTtl K V := ⟨c.raw.clear, Cache.wf_clear⟩

/-- `Cache.Len`. -/
def len (c : LruTtl K V) : Nat := c.raw.len

variable [DecidableEq K]

/-- `Cache.Add`. -/
def add (c : LruTtl K V) (now : Int) (key : K) (value : V) : LruTtl K V :=
  ⟨c.raw.add now key value, c.wf.add now key value⟩

/-- `Cache.Remove`. -/
def remove (c : LruTtl K V) (key : K) : LruTtl K V := ⟨c.raw.remove key, c.wf.remove key⟩

/-- `Cache.removeOldestExpired`, the step of a sweep. -/
def removeOldestExpired (c : LruTtl K V) (now : Int) : Bool × LruTtl K V :=
  ((c.raw.removeOldestExpired now).1,
    ⟨(c.raw.removeOldestExpired now).2, c.wf.removeOldestExpired now⟩)

omit [DecidableEq K] in
@[simp] theorem peek_new (n : Nat) (d : Int) (k : K) : (new n d : LruTtl K V).peek k = none := rfl

omit [DecidableEq K] in
@[simp] theorem get_fst (c : LruTtl K V) (now : Int) (k : K) : (c.get now k).1 = c.peek k := by
  simp only [get, peek, Cache.get, Cache.peek]
  split <;> simp_all

omit [DecidableEq K] in
theorem get_of_miss {c : LruTtl K V} {key : K} (now : Int) (h : c.peek key = none) :
    c.get now key = (none, c) := by
  cases hk : c.raw.cache key with
  | none =>
    unfold get Cache.get
    simp only [hk]
  | some ele =>
    obtain ⟨-, e, he, -⟩ := c.wf.mapped key ele hk
    simp [peek, Cache.peek, hk, he] at h

@[simp] theorem peek_get (c : LruTtl K V) (now : Int) (key k : K) :
    (c.get now key).2.peek k = c.peek k :=
  Cache.peek_get c.wf now key k

@[simp] theorem peek_remove (c : LruTtl K V) (key k : K) :
    (c.remove key).peek k = if k = key then none else c.peek k :=
  Cache.peek_remove c.wf key k

@[simp] theorem peek_add_self (c : LruTtl K V) (now : Int) (key : K) (v : V) :
    (c.add now key v).peek key = some v :=
  Cache.peek_add_self c.wf now key v

theorem peek_of_peek_add {c : LruTtl K V} {now : Int} {key k : K} {v w : V}
    (h : (c.add now key v).peek k = some w) : k = key ∨ c.peek k = some w :=
  Cache.peek_add_eq_some c.wf h

theorem peek_of_peek_removeOldestExpired {c : LruTtl K V} {now : Int} {k : K} {v : V}
    (h : (c.removeOldestExpired now).2.peek k = some v) : c.peek k = some v := by
  have h' : (c.raw.removeOldestExpired now).2.peek k = some v := h
  unfold Cache.removeOldestExpired at h'
  split at h'
  · exact Cache.peek_removeOldest_eq_some c.wf h'
  · exact h'

end LruTtl

end MongoBouncer.Lruttl
