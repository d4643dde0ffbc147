import Mathlib.Data.List.Basic
import Mathlib.Data.List.Infix

/-!
# Patterns with stars

A pattern is a text in which one symbol, the star, stands for any string. The strings that a star may
stand for can be limited to some symbols.

* `Fits star ok p s` : the text `s` fits the pattern `p`, its stars standing for strings of symbols
  with `ok`;
* `Any`              : the symbols that a star without limits may stand for.

Principal results: `fits_append` (a pattern in two parts), `fits_append_star`, `fits_cons_star` and
`fits_between` (patterns with stars at their ends only), and `fits_flatMap` (pattern and text may be
compared before or after they are encoded).
-/

namespace Glob

variable {α : Type} [DecidableEq α]

/-- The text fits the pattern: a star stands for a string of symbols with `ok`, every other symbol for
itself. -/
def Fits (star : α) (ok : α → Bool) : List α → List α → Prop
  | [], s => s = []
  | c :: p, s =>
    if c = star then ∃ x y, s = x ++ y ∧ x.all ok = true ∧ Fits star ok p y
    else ∃ t, s = c :: t ∧ Fits star ok p t

/-- A star may stand for any symbol. -/
def Any : α → Bool := fun _ => true

variable {star c : α} {ok ok' : α → Bool} {p q s t : List α}

@[simp] theorem fits_nil : Fits star ok [] s ↔ s = [] := Iff.rfl

theorem fits_star :
    Fits star ok (star :: p) s ↔ ∃ x y, s = x ++ y ∧ x.all ok = true ∧ Fits star ok p y := by
  rw [Fits, if_pos rfl]

theorem fits_cons (h : c ≠ star) : Fits star ok (c :: p) s ↔ ∃ t, s = c :: t ∧ Fits star ok p t := by
  rw [Fits, if_neg h]

/-- Where the first star of a pattern may end. -/
theorem fits_star_iff_drop : Fits star ok (star :: p) s ↔
      ∃ k ∈ List.range (s.length + 1), (s.take k).all ok = true ∧ Fits star ok p (s.drop k) := by
  rw [fits_star]
  constructor
  · rintro ⟨x, y, rfl, hx, hy⟩
    refine ⟨x.length, ?_, ?_, ?_⟩
    · rw [List.mem_range, List.length_append]
      omega
    · rwa [List.take_left' rfl]
    · rwa [List.drop_left' rfl]
  · rintro ⟨k, -, hx, hy⟩
    exact ⟨s.take k, s.drop k, (List.take_append_drop k s).symm, hx, hy⟩

/-- Fitting is decided by trying every end of every star. -/
instance decidableFits (star : α) (ok : α → Bool) : (p s : List α) → Decidable (Fits star ok p s)
  | [], s => inferInstanceAs (Decidable (s = []))
  | c :: p, s =>
    haveI := decidableFits star ok p
    if h : c = star then
      decidable_of_iff ((List.range (s.length + 1)).any (fun k =>
        (s.take k).all ok && decide (Fits star ok p (s.drop k))) = true) (by
          simp only [h, fits_star_iff_drop, List.any_eq_true, Bool.and_eq_true, decide_eq_true_eq])
    else
      match s with
      | [] => isFalse (by rw [fits_cons h]; rintro ⟨t, ht, -⟩; cases ht)
      | d :: t =>
        decidable_of_iff (c = d ∧ Fits star ok p t) (by
          rw [fits_cons h]
          constructor
          · rintro ⟨rfl, ht⟩
            exact ⟨t, rfl, ht⟩
          · rintro ⟨t', ht, hfits⟩
            cases ht
            exact ⟨rfl, hfits⟩)

/-! ## Patterns in parts -/

/-- **A pattern in two parts** is fitted by texts in two parts. -/
theorem fits_append :
    Fits star ok (p ++ q) s ↔ ∃ x y, s = x ++ y ∧ Fits star ok p x ∧ Fits star ok q y := by
  induction p generalizing s with
  | nil =>
    constructor
    · intro h
      exact ⟨[], s, rfl, rfl, h⟩
    · rintro ⟨x, y, rfl, rfl, hy⟩
      exact hy
  | cons c p ih =>
    by_cases hc : c = star
    · subst hc
      simp only [List.cons_append, fits_star, ih]
      constructor
      · rintro ⟨x, y, rfl, hx, u, v, rfl, hu, hv⟩
        exact ⟨x ++ u, v, (List.append_assoc x u v).symm, ⟨x, u, rfl, hx, hu⟩, hv⟩
      · rintro ⟨-, v, rfl, ⟨x, u, rfl, hx, hu⟩, hv⟩
        exact ⟨x, u ++ v, List.append_assoc x u v, hx, u, v, rfl, hu, hv⟩
    · simp only [List.cons_append, fits_cons hc, ih]
      constructor
      · rintro ⟨t, rfl, u, v, rfl, hu, hv⟩
        exact ⟨c :: u, v, rfl, ⟨u, rfl, hu⟩, hv⟩
      · rintro ⟨-, v, rfl, ⟨u, rfl, hu⟩, hv⟩
        exact ⟨u ++ v, rfl, u, v, rfl, hu, hv⟩

theorem fits_literal (h : star ∉ p) : Fits star ok p s ↔ s = p := by
  induction p generalizing s with
  | nil => rfl
  | cons c p ih =>
    have hc : c ≠ star := fun hc => h (hc ▸ List.mem_cons_self)
    have hp : star ∉ p := fun hp => h (List.mem_cons_of_mem c hp)
    rw [fits_cons hc]
    constructor
    · rintro ⟨t, rfl, ht⟩
      rw [(ih hp).mp ht]
    · rintro rfl
      exact ⟨p, rfl, (ih hp).mpr rfl⟩

theorem fits_star_any : Fits star Any (star :: p) s ↔ ∃ x y, s = x ++ y ∧ Fits star Any p y := by
  have hall : ∀ x : List α, x.all Any = true := fun x => List.all_eq_true.mpr fun _ _ => rfl
  simp only [fits_star, hall, true_and]

theorem fits_stars (hne : p ≠ []) (h : ∀ c ∈ p, c = star) : Fits star Any p s := by
  induction p with
  | nil => exact absurd rfl hne
  | cons c p ih =>
    obtain rfl := h c List.mem_cons_self
    rw [fits_star_any]
    by_cases hp : p = []
    · subst hp
      exact ⟨s, [], (List.append_nil s).symm, rfl⟩
    · exact ⟨[], s, rfl, ih hp fun c hc => h c (List.mem_cons_of_mem _ hc)⟩

theorem fits_without : Fits star ok p (p.filter (· ≠ star)) := by
  induction p with
  | nil => rfl
  | cons c p ih =>
    by_cases hc : c = star
    · subst hc
      rw [List.filter_cons_of_neg (by simp)]
      exact fits_star.mpr ⟨[], _, rfl, rfl, ih⟩
    · rw [List.filter_cons_of_pos (by simpa using hc)]
      exact (fits_cons hc).mpr ⟨_, rfl, ih⟩

/-- A text fits with every symbol for the stars that is allowed for those it has. -/
theorem Fits.mono_of_mem (h : Fits star ok p s) (hok : ∀ a ∈ s, ok a = true → ok' a = true) :
    Fits star ok' p s := by
  induction p generalizing s with
  | nil => exact h
  | cons c p ih =>
    by_cases hc : c = star
    · subst hc
      obtain ⟨x, y, rfl, hx, hy⟩ := fits_star.mp h
      refine fits_star.mpr ⟨x, y, rfl, ?_, ih hy fun a ha => hok a (List.mem_append_right x ha)⟩
      rw [List.all_eq_true] at hx ⊢
      exact fun a ha => hok a (List.mem_append_left y ha) (hx a ha)
    · obtain ⟨t, rfl, ht⟩ := (fits_cons hc).mp h
      exact (fits_cons hc).mpr ⟨t, rfl, ih ht fun a ha => hok a (List.mem_cons_of_mem c ha)⟩

theorem Fits.mono (hok : ∀ a, ok a = true → ok' a = true) (h : Fits star ok p s) :
    Fits star ok' p s :=
  h.mono_of_mem fun a _ => hok a

/-- The stars of a text that has only symbols with `ok` need no other. -/
theorem Fits.restrict (h : Fits star ok' p s) (hs : ∀ a ∈ s, ok a = true) : Fits star ok p s :=
  h.mono_of_mem fun a ha _ => hs a ha

/-! ## Stars at the ends -/

/-- A star after the pattern: texts that start as it says. -/
theorem fits_append_star : Fits star Any (p ++ [star]) s ↔ ∃ t, t <+: s ∧ Fits star Any p t := by
  rw [fits_append]
  constructor
  · rintro ⟨x, y, rfl, hx, -⟩
    exact ⟨x, List.prefix_append x y, hx⟩
  · rintro ⟨x, ⟨y, rfl⟩, hx⟩
    exact ⟨x, y, rfl, hx, fits_stars (List.cons_ne_nil _ _) (by simp)⟩

/-- A star before the pattern: texts that end as it says. -/
theorem fits_cons_star : Fits star Any (star :: p) s ↔ ∃ t, t <:+ s ∧ Fits star Any p t := by
  rw [fits_star_any]
  constructor
  · rintro ⟨x, y, rfl, hy⟩
    exact ⟨y, List.suffix_append x y, hy⟩
  · rintro ⟨y, ⟨x, rfl⟩, hy⟩
    exact ⟨x, y, rfl, hy⟩

/-- Stars on both sides of the pattern: texts that have it somewhere. -/
theorem fits_between {a b : List α} (ha : a ≠ []) (hastar : ∀ c ∈ a, c = star) (hb : b ≠ [])
    (hbstar : ∀ c ∈ b, c = star) :
    Fits star Any (a ++ p ++ b) s ↔ ∃ t, t <:+: s ∧ Fits star Any p t := by
  simp only [fits_append]
  constructor
  · rintro ⟨-, z, rfl, ⟨x, t, rfl, -, ht⟩, -⟩
    exact ⟨t, ⟨x, z, rfl⟩, ht⟩
  · rintro ⟨t, ⟨x, z, rfl⟩, ht⟩
    exact ⟨x ++ t, z, rfl, ⟨x, t, rfl, fits_stars ha hastar, ht⟩, fits_stars hb hbstar⟩

/-! ## Encodings -/

/-- A code whose words can be told apart wherever reading starts: the first symbol of a word is of
another kind than those that follow it. -/
structure SelfSync {β : Type} (e : α → List β) (first : β → Prop) : Prop where
  word : ∀ a, ∃ b bs, e a = b :: bs ∧ first b ∧ ∀ b' ∈ bs, ¬ first b'
  unique : ∀ {a a' : α} {x y : List β}, e a ++ x = e a' ++ y → a = a'

section Encoding

variable {β : Type} [DecidableEq β] {e : α → List β} {first : β → Prop}

omit [DecidableEq α] [DecidableEq β] in
/-- An encoded text is cut between two words if the second part is empty or starts with the first
symbol of a word. -/
theorem SelfSync.cut (h : SelfSync e first) {x y : List β} {l : List α} (hl : l.flatMap e = x ++ y)
    (hy : ∀ b t, y = b :: t → first b) :
    ∃ l₁ l₂, l = l₁ ++ l₂ ∧ x = l₁.flatMap e ∧ y = l₂.flatMap e := by
  induction l generalizing x with
  | nil =>
    obtain ⟨rfl, rfl⟩ := List.append_eq_nil_iff.mp hl.symm
    exact ⟨[], [], rfl, rfl, rfl⟩
  | cons a l ih =>
    rw [List.flatMap_cons] at hl
    rcases List.append_eq_append_iff.mp hl with ⟨x', rfl, hrest⟩ | ⟨y', he, hrest⟩
    · obtain ⟨l₁, l₂, rfl, rfl, rfl⟩ := ih hrest
      exact ⟨a :: l₁, l₂, rfl, by rw [List.flatMap_cons], rfl⟩
    · -- the second part starts inside the word, which is only possible at its start or its end
      obtain ⟨b, bs, hword, -, hbs⟩ := h.word a
      cases x with
      | nil => exact ⟨[], a :: l, rfl, rfl, by rw [List.flatMap_cons, hrest, he]; rfl⟩
      | cons b' x =>
        cases y' with
        | nil =>
          rw [List.append_nil] at he
          refine ⟨[a], l, rfl, ?_, hrest⟩
          rw [List.flatMap_cons, List.flatMap_nil, List.append_nil, he]
        | cons d y' =>
          rw [hword, List.cons_append] at he
          have hd : d ∈ bs := by
            rw [(List.cons.inj he).2]
            exact List.mem_append_right x List.mem_cons_self
          exact absurd (hy d _ hrest) (hbs d hd)

omit [DecidableEq α] [DecidableEq β] in
/-- A word of one symbol is the only one with this symbol. -/
theorem SelfSync.eq_of_mem (h : SelfSync e first) {a d : α} {b : β} (hd : e d = [b])
    (hb : b ∈ e a) : a = d := by
  obtain ⟨b', bs', hword', hfirst, -⟩ := h.word d
  obtain ⟨rfl, rfl⟩ := List.cons.inj (hd.symm.trans hword')
  obtain ⟨b₀, bs, hword, -, hbs⟩ := h.word a
  rw [hword] at hb
  rcases List.mem_cons.mp hb with rfl | hmem
  · apply h.unique (x := []) (y := bs)
    rw [hd, hword, List.append_nil, List.singleton_append]
  · exact absurd hfirst (hbs b hmem)

variable {star' : β} {ok₁ : β → Bool}

/-- The star that an encoded pattern has for a star, and what it stands for. -/
structure StarCode (e : α → List β) (star : α) (star' : β) (ok : α → Bool) (ok₁ : β → Bool) :
    Prop where
  starWord : e star = [star']
  otherWord : ∀ a, a ≠ star → star' ∉ e a
  symbols : ∀ a, ok a = (e a).all ok₁

omit [DecidableEq α] [DecidableEq β] in
theorem all_flatMap (hc : StarCode e star star' ok ok₁) (x : List α) :
    (x.flatMap e).all ok₁ = x.all ok := by
  rw [List.all_flatMap]
  exact congrArg x.all (funext fun a => (hc.symbols a).symm)

/-- A string that a star of an encoded pattern stands for may be chosen to end with a word. -/
theorem exists_word_end (h : SelfSync e first) (hc : StarCode e star star' ok ok₁) {x y : List β}
    {l : List α} (hl : l.flatMap e = x ++ y) (hx : x.all ok₁ = true)
    (hy : Fits star' ok₁ (p.flatMap e) y) :
    ∃ l₁ l₂, l = l₁ ++ l₂ ∧ l₁.all ok = true ∧ Fits star' ok₁ (p.flatMap e) (l₂.flatMap e) := by
  induction p generalizing x y with
  | nil =>
    obtain rfl : y = [] := hy
    obtain ⟨l₁, l₂, rfl, rfl, hnil⟩ := h.cut hl (by simp)
    exact ⟨l₁, l₂, rfl, all_flatMap hc l₁ ▸ hx, hnil.symm⟩
  | cons a p ih =>
    by_cases ha : a = star
    · -- the next star may take what this one leaves of a word
      subst ha
      simp only [List.flatMap_cons, hc.starWord, List.singleton_append] at hy ⊢
      obtain ⟨u, v, rfl, hu, hv⟩ := fits_star.mp hy
      have hall : (x ++ u).all ok₁ = true := by rw [List.all_append, hx, hu]; rfl
      obtain ⟨l₁, l₂, rfl, hl₁, hl₂⟩ := ih (hl.trans (List.append_assoc x u v).symm) hall hv
      exact ⟨l₁, l₂, rfl, hl₁, fits_star.mpr ⟨[], _, rfl, rfl, hl₂⟩⟩
    · -- a word comes next, and it is cut before its first symbol
      obtain ⟨b, bs, hword, hfirst, -⟩ := h.word a
      have hne : b ≠ star' := fun hb => hc.otherWord a ha (hword ▸ hb ▸ List.mem_cons_self)
      have hstart : ∀ d t, y = d :: t → first d := by
        rw [List.flatMap_cons, hword, List.cons_append, fits_cons hne] at hy
        obtain ⟨t, rfl, -⟩ := hy
        rintro d t' ht
        cases ht
        exact hfirst
      obtain ⟨l₁, l₂, rfl, rfl, rfl⟩ := h.cut hl hstart
      exact ⟨l₁, l₂, rfl, all_flatMap hc l₁ ▸ hx, hy⟩

/-- **Pattern and text may be encoded first.** -/
theorem fits_flatMap (h : SelfSync e first) (hc : StarCode e star star' ok ok₁) :
    Fits star' ok₁ (p.flatMap e) (s.flatMap e) ↔ Fits star ok p s := by
  induction p generalizing s with
  | nil =>
    rw [List.flatMap_nil, fits_nil, fits_nil, List.flatMap_eq_nil_iff]
    constructor
    · intro hs
      cases s with
      | nil => rfl
      | cons a s =>
        obtain ⟨b, bs, hword, -⟩ := h.word a
        have := hs a List.mem_cons_self
        rw [hword] at this
        cases this
    · rintro rfl a ha
      cases ha
  | cons a p ih =>
    by_cases ha : a = star
    · subst ha
      rw [List.flatMap_cons, hc.starWord, List.singleton_append, fits_star, fits_star]
      constructor
      · rintro ⟨x, y, hs, hx, hy⟩
        obtain ⟨l₁, l₂, rfl, hl₁, hl₂⟩ := exists_word_end h hc hs hx hy
        exact ⟨l₁, l₂, rfl, hl₁, ih.mp hl₂⟩
      · rintro ⟨x, y, rfl, hx, hy⟩
        refine ⟨x.flatMap e, y.flatMap e, List.flatMap_append, ?_, ih.mpr hy⟩
        rwa [all_flatMap hc]
    · rw [List.flatMap_cons, fits_cons ha, fits_append]
      simp only [fits_literal (hc.otherWord a ha)]
      constructor
      · rintro ⟨-, y, hs, rfl, hy⟩
        cases s with
        | nil =>
          obtain ⟨b, bs, hword, -⟩ := h.word a
          rw [hword] at hs
          cases hs
        | cons d s =>
          rw [List.flatMap_cons] at hs
          obtain rfl := h.unique hs
          rw [← List.append_cancel_left hs] at hy
          exact ⟨s, rfl, ih.mp hy⟩
      · rintro ⟨t, rfl, ht⟩
        exact ⟨e a, t.flatMap e, List.flatMap_cons, rfl, ih.mpr ht⟩

end Encoding

end Glob
