import MongoBouncer.GoStd.Regexp

/-!
# Searches between separators

An expression without anchors that does not take a certain rune finds nothing across it. So a text
can be cut at that rune, and searched part by part.

* `Regexp.nullable` : the expression may match the empty text;
* `Regexp.Inside`   : no anchors, and no class that takes the rune;
* `Regexp.needs`    : every match has the rune;
* `Regexp.tails`    : what is left behind a match, which for such expressions does not depend on what
  stands before it.

Principal results: `find_append` (the first match of a text that is cut at a separator) and
`find_eq_none_of_needs`.
-/

namespace GoStd

namespace Regexp

/-- The expression may match the empty text. -/
def nullable : Regexp → Bool
  | empty => true
  | oneOf _ _ => false
  | anchor _ => true
  | cat a b => nullable a && nullable b
  | alt a b => nullable a || nullable b
  | star _ _ => true
  | counted _ _ _ _ => true

/-- The expression has no anchors and no bounds, its repetitions repeat no empty text, and none of its
classes takes the rune. -/
def Inside (sep : Char) : Regexp → Bool
  | empty => true
  | oneOf items negated => !takes items negated sep
  | anchor _ => false
  | cat a b => Inside sep a && Inside sep b
  | alt a b => Inside sep a && Inside sep b
  | star _ a => Inside sep a && !nullable a
  | counted _ _ _ _ => false

/-- Where a repetition may end, as the runes that are left. -/
def starTails (greedy : Bool) (step : List (Char × GoString) → List (List (Char × GoString))) :
    Nat → List (Char × GoString) → List (List (Char × GoString))
  | 0, x => [x]
  | n + 1, x =>
    let more := (step x).flatMap (starTails greedy step n)
    if greedy then more ++ [x] else x :: more

/-- Where a match may end, as the runes that are left; for expressions without anchors. -/
def tails : Regexp → List (Char × GoString) → List (List (Char × GoString))
  | empty, x => [x]
  | oneOf items negated, x =>
    match x with
    | [] => []
    | p :: rest => if takes items negated p.1 then [rest] else []
  | anchor _, _ => []
  | cat a b, x => (tails a x).flatMap (tails b)
  | alt a b, x => tails a x ++ tails b x
  | star greedy a, x => starTails greedy (tails a) x.length x
  | counted _ _ _ _, _ => []

section

variable {r : Regexp} {sep : Char} {x y t : List (Char × GoString)} {before : List Char}
  {step : List (Char × GoString) → List (List (Char × GoString))} {p : Char × GoString}
  {s : GoString} {c : Char}

/-! ## Lengths -/

theorem suffix_of_mem_starTails (hstep : ∀ x, ∀ y ∈ step x, y <:+ x) {greedy : Bool} {n : Nat}
    (h : y ∈ starTails greedy step n x) : y <:+ x := by
  induction n generalizing x with
  | zero =>
    rw [List.mem_singleton.mp h]
  | succ n ih =>
    have hor : y = x ∨ y ∈ (step x).flatMap (starTails greedy step n) := by
      cases greedy with
      | true =>
        simp only [starTails, if_true, List.mem_append, List.mem_singleton] at h
        exact h.symm
      | false =>
        simp only [starTails, Bool.false_eq_true, if_false, List.mem_cons] at h
        exact h
    rcases hor with rfl | hmore
    · exact List.suffix_rfl
    · obtain ⟨e, he, hy⟩ := List.mem_flatMap.mp hmore
      exact (ih hy).trans (hstep x e he)

theorem suffix_of_mem_tails (h : y ∈ r.tails x) : y <:+ x := by
  induction r generalizing x y with
  | empty =>
    rw [List.mem_singleton.mp h]
  | oneOf items negated =>
    cases x with
    | nil => cases h
    | cons p rest =>
      simp only [tails] at h
      split at h
      · rw [List.mem_singleton.mp h]
        exact List.suffix_cons p rest
      · cases h
  | anchor | counted => cases h
  | cat a b iha ihb =>
    obtain ⟨z, hz, hy⟩ := List.mem_flatMap.mp h
    exact (ihb hy).trans (iha hz)
  | alt a b iha ihb =>
    rcases List.mem_append.mp h with ha | hb
    · exact iha ha
    · exact ihb hb
  | star greedy a iha => exact suffix_of_mem_starTails (fun _ _ hy => iha hy) h

/-- A match takes one rune at least, unless the expression is nullable. -/
theorem length_lt_of_mem_tails (hnull : r.nullable = false) (h : y ∈ r.tails x) :
    y.length < x.length := by
  induction r generalizing x y with
  | empty | anchor | star | counted => cases hnull
  | oneOf items negated =>
    cases x with
    | nil => cases h
    | cons p rest =>
      simp only [tails] at h
      split at h
      · rw [List.mem_singleton.mp h]
        simp
      · cases h
  | cat a b iha ihb =>
    obtain ⟨z, hz, hy⟩ := List.mem_flatMap.mp h
    rcases Bool.and_eq_false_iff.mp hnull with ha | hb
    · exact Nat.lt_of_le_of_lt (suffix_of_mem_tails hy).length_le (iha ha hz)
    · exact Nat.lt_of_lt_of_le (ihb hb hy) (suffix_of_mem_tails hz).length_le
  | alt a b iha ihb =>
    obtain ⟨ha, hb⟩ := Bool.or_eq_false_iff.mp hnull
    rcases List.mem_append.mp h with h | h
    · exact iha ha h
    · exact ihb hb h

theorem tails_nil (h : r.nullable = false) : r.tails [] = [] := by
  rw [List.eq_nil_iff_forall_not_mem]
  intro y hy
  exact absurd (length_lt_of_mem_tails h hy) (Nat.not_lt_zero _)

/-! ## What stands before a match -/

theorem map_rest_starEnds {next : Cursor → List Cursor}
    (hnext : ∀ c, (next c).map Cursor.rest = step c.rest)
    (hlt : ∀ x, ∀ y ∈ step x, y.length < x.length) (greedy : Bool) (n : Nat) (c : Cursor) :
    (starEnds greedy next n c).map Cursor.rest = starTails greedy step n c.rest := by
  induction n generalizing c with
  | zero => rfl
  | succ n ih =>
    have hmore : ((next c).flatMap fun e =>
          if e.rest.length < c.rest.length then starEnds greedy next n e else [e]).map Cursor.rest =
        (step c.rest).flatMap (starTails greedy step n) := by
      rw [← hnext c, List.map_flatMap, List.flatMap_map]
      apply List.flatMap_congr
      intro e he
      have hrest : e.rest ∈ step c.rest := by
        rw [← hnext c]
        exact List.mem_map_of_mem he
      rw [if_pos (hlt c.rest e.rest hrest), ih]
    cases greedy with
    | true =>
      simp only [starEnds, starTails, if_true, List.map_append, List.map_cons, List.map_nil, hmore]
    | false =>
      simp only [starEnds, starTails, Bool.false_eq_true, if_false, List.map_cons, hmore]

theorem map_rest_ends (h : r.Inside sep = true) (c : Cursor) :
    (r.ends c).map Cursor.rest = r.tails c.rest := by
  induction r generalizing c with
  | empty => rfl
  | oneOf items negated =>
    obtain ⟨b, rest⟩ := c
    cases rest with
    | nil => rfl
    | cons p rest =>
      show (if takes items negated p.1 = true then [(⟨p.1 :: b, rest⟩ : Cursor)] else []).map
        Cursor.rest = if takes items negated p.1 = true then [rest] else []
      cases takes items negated p.1 with
      | true => rfl
      | false => rfl
  | anchor | counted => cases h
  | cat a b iha ihb =>
    simp only [Inside, Bool.and_eq_true] at h
    simp only [ends, tails, List.map_flatMap, ihb h.2]
    rw [← iha h.1, List.flatMap_map]
  | alt a b iha ihb =>
    simp only [Inside, Bool.and_eq_true] at h
    simp only [ends, tails, List.map_append, iha h.1, ihb h.2]
  | star greedy a iha =>
    simp only [Inside, Bool.and_eq_true, Bool.not_eq_true'] at h
    exact map_rest_starEnds (iha h.1) (fun _ _ hy => length_lt_of_mem_tails h.2 hy) greedy
      c.rest.length c

/-! ## Separators -/

/-- Iterations that end before a separator. Fuel that is left over does not matter. -/
theorem starTails_append (hlt : ∀ x, ∀ y ∈ step x, y.length < x.length)
    (hstep : ∀ x, step (x ++ t) = (step x).map (· ++ t)) (greedy : Bool) (n m : Nat)
    (hn : x.length ≤ n) (hm : x.length ≤ m) :
    starTails greedy step n (x ++ t) = (starTails greedy step m x).map (· ++ t) := by
  have hnil : step [] = [] := by
    rw [List.eq_nil_iff_forall_not_mem]
    intro y hy
    exact absurd (hlt [] y hy) (Nat.not_lt_zero _)
  have ht : step t = [] := by
    rw [← List.nil_append t, hstep, hnil]
    rfl
  -- nothing is repeated where nothing is left before the separator
  have hempty : ∀ z, step z = [] → ∀ k, starTails greedy step k z = [z] := by
    intro z hz k
    cases k with
    | zero => rfl
    | succ k => cases greedy <;> simp [starTails, hz]
  induction n generalizing m x with
  | zero =>
    obtain rfl := List.length_eq_zero_iff.mp (Nat.le_zero.mp hn)
    rw [List.nil_append, hempty t ht, hempty [] hnil]
    rfl
  | succ n ih =>
    cases m with
    | zero =>
      obtain rfl := List.length_eq_zero_iff.mp (Nat.le_zero.mp hm)
      rw [List.nil_append, hempty t ht, hempty [] hnil]
      rfl
    | succ m =>
      have hmore : (step (x ++ t)).flatMap (starTails greedy step n) =
          ((step x).flatMap (starTails greedy step m)).map (· ++ t) := by
        rw [hstep, List.flatMap_map, List.map_flatMap]
        apply List.flatMap_congr
        intro e he
        have hless := hlt x e he
        exact ih m (by omega) (by omega)
      cases greedy with
      | true => simp only [starTails, if_true, hmore, List.map_append, List.map_cons, List.map_nil]
      | false =>
        simp only [starTails, Bool.false_eq_true, if_false, hmore, List.map_cons]

/-- **A match ends before a separator as if the text did.** -/
theorem tails_append (h : r.Inside sep = true) (hp : p.1 = sep) :
    r.tails (x ++ p :: t) = (r.tails x).map (· ++ p :: t) := by
  induction r generalizing x with
  | empty => rfl
  | oneOf items negated =>
    cases x with
    | nil =>
      have hno : takes items negated p.1 = false := by
        rw [hp]
        simpa [Inside] using h
      simp [tails, hno]
    | cons q x =>
      show (if takes items negated q.1 = true then [x ++ p :: t] else []) =
        (if takes items negated q.1 = true then [x] else []).map (· ++ p :: t)
      cases takes items negated q.1 with
      | true => rfl
      | false => rfl
  | anchor | counted => cases h
  | cat a b iha ihb =>
    simp only [Inside, Bool.and_eq_true] at h
    simp only [tails, iha h.1, List.flatMap_map, ihb h.2, List.map_flatMap]
  | alt a b iha ihb =>
    simp only [Inside, Bool.and_eq_true] at h
    simp only [tails, iha h.1, ihb h.2, List.map_append]
  | star greedy a iha =>
    simp only [Inside, Bool.and_eq_true, Bool.not_eq_true'] at h
    refine starTails_append (fun _ _ hy => length_lt_of_mem_tails h.2 hy) (fun x => iha h.1) greedy
      _ _ ?_ (Nat.le_refl _)
    simp

/-! ## Searching -/

/-- The first match. -/
def find (r : Regexp) (s : GoString) : Option GoString := r.findFrom [] (spans s)

theorem findFrom_cons (h : r.Inside sep = true) (p : Char × GoString) : r.findFrom before (p :: x) =
      match (r.tails (p :: x)).head? with
      | some y => some (((p :: x).take ((p :: x).length - y.length)).flatMap Prod.snd)
      | none => r.findFrom (p.1 :: before) x := by
  have htails := map_rest_ends h ⟨before, p :: x⟩
  rw [findFrom]
  cases hends : r.ends ⟨before, p :: x⟩ with
  | nil | cons =>
    rw [hends] at htails
    rw [← htails]
    rfl

section

variable (h : r.Inside sep = true) (hnull : r.nullable = false)

include h hnull

theorem findFrom_nil : r.findFrom before [] = none := by
  have htails := map_rest_ends h ⟨before, []⟩
  rw [tails_nil hnull, List.map_eq_nil_iff] at htails
  simp [findFrom, htails]

theorem findFrom_before
    (before before' : List Char) : r.findFrom before x = r.findFrom before' x := by
  induction x generalizing before before' with
  | nil => rw [findFrom_nil h hnull, findFrom_nil h hnull]
  | cons p x ih =>
    rw [findFrom_cons h, findFrom_cons h, ih (p.1 :: before) (p.1 :: before')]

theorem findFrom_append (hp : p.1 = sep) :
    r.findFrom before (x ++ p :: t) = (r.findFrom before x).or (r.findFrom [] t) := by
  induction x generalizing before with
  | nil =>
    have htails : r.tails (p :: t) = [] := by
      have happend := tails_append (x := []) (t := t) h hp
      simpa [tails_nil hnull] using happend
    rw [List.nil_append, findFrom_cons h, htails, findFrom_nil h hnull]
    exact findFrom_before h hnull _ _
  | cons q x ih =>
    rw [List.cons_append, findFrom_cons h, findFrom_cons h, ← List.cons_append, tails_append h hp]
    cases htails : r.tails (q :: x) with
    | nil => exact ih
    | cons y ys =>
      have hy : y ∈ r.tails (q :: x) := by rw [htails]; exact List.mem_cons_self
      have hlen := (suffix_of_mem_tails hy).length_le
      have hdiff : (q :: x ++ p :: t).length - (y ++ p :: t).length =
          (q :: x).length - y.length := by
        simp only [List.length_append]
        omega
      simp only [List.map_cons, List.head?_cons, hdiff]
      rw [List.take_append_of_le_length (Nat.sub_le _ _)]
      rfl

end

theorem spans_append_rune (u : GoString) (sep : Char) (v : GoString) :
    spans (u ++ (String.utf8EncodeChar sep ++ v)) =
      spans u ++ (sep, String.utf8EncodeChar sep) :: spans v := by
  obtain ⟨b, bs, hbs⟩ := List.exists_cons_of_ne_nil (utf8EncodeChar_ne_nil sep)
  have hb : b.IsUTF8FirstByte := by
    have h := UInt8.isUTF8FirstByte_getElem_zero_utf8EncodeChar (c := sep)
    simpa [hbs] using h
  have hsep : spans (String.utf8EncodeChar sep ++ v) = (sep, String.utf8EncodeChar sep) :: spans v :=
    spansFrom_zero_encode_append sep v
  obtain ⟨l, hl⟩ := spansFrom_append hb (bs ++ v) u 0 (Nat.zero_le _)
  rw [← List.cons_append, ← hbs] at hl
  have hspans : spans (u ++ (String.utf8EncodeChar sep ++ v)) =
      l ++ (sep, String.utf8EncodeChar sep) :: spans v := by
    rw [← hsep]
    exact hl
  -- the spans before the rune are those of the bytes before it
  have hbytes := congrArg (List.flatMap Prod.snd) hspans
  rw [flatMap_spans, List.flatMap_append, List.flatMap_cons, flatMap_spans,
    List.append_left_inj] at hbytes
  have hleft := spans_flatMap_left hspans
  rw [← hbytes] at hleft
  rw [hspans, hleft]

/-- **A text is searched part by part.** -/
theorem find_append (h : r.Inside sep = true) (hnull : r.nullable = false) (u v : GoString) :
    r.find (u ++ (String.utf8EncodeChar sep ++ v)) = (r.find u).or (r.find v) := by
  rw [find, spans_append_rune]
  exact findFrom_append h hnull rfl

theorem snd_ne_nil_of_mem_spans (h : p ∈ spans s) : p.2 ≠ [] := by
  induction hn : s.length using Nat.strong_induction_on generalizing s with
  | _ n ih =>
    have hs : s ≠ [] := by
      rintro rfl
      cases h
    obtain ⟨c, bs, t, hbs, rfl, hspans, -⟩ := spans_cases hs
    rw [hspans] at h
    rcases List.mem_cons.mp h with rfl | h
    · exact hbs
    · have hpos := List.length_pos_of_ne_nil hbs
      rw [List.length_append] at hn
      exact ih t.length (by omega) h rfl

theorem ne_nil_of_findFrom (h : r.Inside sep = true) (hnull : r.nullable = false)
    (hx : ∀ p ∈ x, p.2 ≠ []) {m : GoString} (hm : r.findFrom before x = some m) : m ≠ [] := by
  induction x generalizing before with
  | nil =>
    rw [findFrom_nil h hnull] at hm
    cases hm
  | cons p x ih =>
    rw [findFrom_cons h] at hm
    cases htails : r.tails (p :: x) with
    | nil =>
      rw [htails] at hm
      exact ih (fun q hq => hx q (List.mem_cons_of_mem p hq)) hm
    | cons y ys =>
      have hy : y ∈ r.tails (p :: x) := by
        rw [htails]
        exact List.mem_cons_self
      have hlt := length_lt_of_mem_tails hnull hy
      rw [htails] at hm
      obtain ⟨k, hk⟩ : ∃ k, (p :: x).length - y.length = k + 1 :=
        Nat.exists_eq_succ_of_ne_zero (by omega)
      have hmatch := Option.some.inj hm
      rw [hk, List.take_succ_cons, List.flatMap_cons] at hmatch
      rw [← hmatch]
      intro hnil
      exact hx p List.mem_cons_self (List.append_eq_nil_iff.mp hnil).1

theorem ne_nil_of_find (h : r.Inside sep = true) (hnull : r.nullable = false) {m : GoString}
    (hm : r.find s = some m) : m ≠ [] :=
  ne_nil_of_findFrom h hnull (fun _ hp => snd_ne_nil_of_mem_spans hp) hm

/-- Every match has the rune. -/
def needs (c : Char) : Regexp → Bool
  | empty => false
  | oneOf items negated => decide (oneOf items negated = literal c)
  | anchor _ => false
  | cat a b => needs c a || needs c b
  | alt a b => needs c a && needs c b
  | star _ _ => false
  | counted _ _ _ _ => false

theorem tails_eq_nil_of_needs (h : r.needs c = true) (hc : c ∉ x.map Prod.fst) : r.tails x = [] := by
  induction r generalizing x with
  | empty | anchor | star | counted => cases h
  | oneOf items negated =>
    obtain ⟨rfl, rfl⟩ : items = [⟨[(c.toNat, c.toNat)], false, false⟩] ∧ negated = false := by
      simpa [needs, literal] using h
    cases x with
    | nil => rfl
    | cons p x =>
      have hno : p.1 ≠ c := by
        intro hp
        exact hc (List.mem_cons.mpr (Or.inl hp.symm))
      simp [tails, takes_literal, hno]
  | cat a b iha ihb =>
    rcases Bool.or_eq_true_iff.mp h with h | h
    · simp [tails, iha h hc]
    · simp only [tails, List.flatMap_eq_nil_iff]
      intro y hy
      refine ihb h ?_
      intro hmem
      exact hc (((suffix_of_mem_tails hy).map Prod.fst).subset hmem)
  | alt a b iha ihb =>
    obtain ⟨ha, hb⟩ := Bool.and_eq_true_iff.mp h
    simp [tails, iha ha hc, ihb hb hc]

theorem findFrom_eq_none_of_needs (h : r.Inside sep = true)
    (hnull : r.nullable = false) (hneeds : r.needs c = true) (hc : c ∉ x.map Prod.fst) :
    r.findFrom before x = none := by
  induction x generalizing before with
  | nil => exact findFrom_nil h hnull
  | cons p x ih =>
    rw [findFrom_cons h, tails_eq_nil_of_needs hneeds hc]
    exact ih fun hmem => hc (List.mem_cons_of_mem _ hmem)

theorem subset_of_mem_runes (hc : c ≠ runeError) (h : c ∈ runes s) :
    String.utf8EncodeChar c ⊆ s := by
  induction hn : s.length using Nat.strong_induction_on generalizing s with
  | _ n ih =>
    have hs : s ≠ [] := by
      rintro rfl
      cases h
    obtain ⟨c', bs, t, hbs, rfl, hspans, hkind⟩ := spans_cases hs
    rw [runes, hspans, List.map_cons] at h
    rcases List.mem_cons.mp h with rfl | h
    · rcases hkind with rfl | ⟨herror, -⟩
      · exact List.subset_append_left _ t
      · exact absurd herror hc
    · have hpos := List.length_pos_of_ne_nil hbs
      rw [List.length_append] at hn
      exact List.Subset.trans (ih t.length (by omega) h rfl) (List.subset_append_right bs t)

theorem find_eq_none_of_needs (h : r.Inside sep = true) (hnull : r.nullable = false)
    (hneeds : r.needs c = true) (hc : c ≠ runeError)
    (hs : ¬ String.utf8EncodeChar c ⊆ s) : r.find s = none := by
  refine findFrom_eq_none_of_needs h hnull hneeds ?_
  intro hmem
  exact hs (subset_of_mem_runes hc hmem)

end

end Regexp

end GoStd
