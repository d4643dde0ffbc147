import Mathlib.Data.List.DropRight
import Mathlib.Data.Nat.Digits.Lemmas
import MongoBouncer.GoStd.Unicode

/-!
# Go strings

A Go string is a read-only sequence of bytes, usually but not always valid UTF-8. This file
models the functions of package `strings` on that type, together with the decoding of a string
into runes that `range`, `strings.Map` and `strings.TrimFunc` perform:

* `spans`, `runes`        : the runes of a string, each invalid byte read as U+FFFD;
* `toLower`, `trimSpace`  : `strings.ToLower`, `strings.TrimSpace`;
* `contains`, `hasPrefix`, `hasSuffix`, `trimPrefix`, `trimSuffix`, `index`;
* `cutByte`, `cutLastByte`, `splitByte`, `trimByte`, `replaceByte`, with a separator of one byte;
* `decimal`, `formatInt`, `formatHex` : what `%d` and `%x` print.

Principal results: `runes_encode` (decoding undoes encoding), `toLower_idem`, `contains_toLower`
(lower-casing keeps lower-case text), `trimSpace_toLower` (trimming and lower-casing commute),
`cutByte_eq_some` (where a string is cut), `cut_of_first` (what stands on either side of the first
occurrence of a text) and `formatInt_dash_inj` (a printed number can be read off up to a dash).
-/

namespace GoStd

/-- A Go string: its bytes. -/
abbrev GoString := List UInt8

/-- A string constant of the source: the UTF-8 encoding of its text. -/
def lit (s : String) : GoString := s.toList.flatMap String.utf8EncodeChar

/-! ## Runes -/

/-- `utf8.DecodeRune`, where `none` stands for an invalid encoding. -/
def decodeRune (s : GoString) : Option Char := s.toByteArray.utf8DecodeChar? 0

/-- `utf8.RuneError`. -/
def runeError : Char := '�'

/-- The runes of a string with the bytes of each, after `skip` bytes that the rune before has
already taken. An invalid byte is a rune of its own. -/
def spansFrom : Nat → GoString → List (Char × GoString)
  | _, [] => []
  | k + 1, _ :: s => spansFrom k s
  | 0, b :: s =>
    match decodeRune (b :: s) with
    | some c => (c, (b :: s).take c.utf8Size) :: spansFrom (c.utf8Size - 1) s
    | none => (runeError, [b]) :: spansFrom 0 s

/-- The runes of a string, each with its bytes. -/
def spans (s : GoString) : List (Char × GoString) := spansFrom 0 s

def runes (s : GoString) : List Char := (spans s).map Prod.fst

/-- A sequence of runes as a string. -/
def encode (cs : List Char) : GoString := cs.flatMap String.utf8EncodeChar

theorem utf8EncodeChar_ne_nil (c : Char) : String.utf8EncodeChar c ≠ [] := by
  intro h
  have hlen := String.length_utf8EncodeChar c
  rw [h] at hlen
  exact absurd hlen.symm (Nat.ne_of_gt c.utf8Size_pos)

theorem decodeRune_encode_append (c : Char) (s : GoString) :
    decodeRune (String.utf8EncodeChar c ++ s) = some c := by
  unfold decodeRune
  rw [List.toByteArray_append]
  exact ByteArray.utf8DecodeChar?_utf8EncodeChar_append

theorem spansFrom_append_skip (s t : GoString) : spansFrom s.length (s ++ t) = spansFrom 0 t := by
  induction s with
  | nil => rfl
  | cons b s ih => exact ih

theorem spansFrom_zero_encode_append (c : Char) (s : GoString) :
    spansFrom 0 (String.utf8EncodeChar c ++ s) =
      (c, String.utf8EncodeChar c) :: spansFrom 0 s := by
  have hdec := decodeRune_encode_append c s
  have hlen := String.length_utf8EncodeChar c
  cases henc : String.utf8EncodeChar c with
  | nil => exact absurd henc (utf8EncodeChar_ne_nil c)
  | cons b r =>
    rw [henc] at hdec hlen
    simp only [List.cons_append] at hdec ⊢
    rw [spansFrom, hdec]
    simp only [← hlen, List.length_cons, Nat.add_sub_cancel, spansFrom_append_skip]
    rw [← List.cons_append, ← List.length_cons, List.take_left' rfl]

theorem exists_of_decodeRune {s : GoString} {c : Char} (h : decodeRune s = some c) :
    ∃ rest, s = String.utf8EncodeChar c ++ rest := by
  obtain ⟨l, hl⟩ := ByteArray.exists_of_utf8DecodeChar?_eq_some h
  refine ⟨l.data.toList, ?_⟩
  have hdata := congrArg (fun b : ByteArray => b.data.toList) hl
  simpa using hdata

/-- A rune that is cut off by the first byte of another one is not decoded. -/
theorem utf8Size_le_of_decodeRune {s t : GoString} {b : UInt8} (hb : b.IsUTF8FirstByte)
    {a : UInt8} {c : Char} (h : decodeRune (a :: (s ++ b :: t)) = some c) :
    c.utf8Size ≤ s.length + 1 := by
  by_contra hlt
  obtain ⟨rest, hrest⟩ := exists_of_decodeRune h
  have hlen := String.length_utf8EncodeChar c
  have hi : s.length + 1 < (String.utf8EncodeChar c).length := by omega
  have hget : (a :: (s ++ b :: t))[s.length + 1]? = (String.utf8EncodeChar c)[s.length + 1]? := by
    rw [hrest, List.getElem?_append_left hi]
  have hbyte : (String.utf8EncodeChar c)[s.length + 1] = b := by
    rw [List.getElem?_eq_getElem hi] at hget
    simp only [List.getElem?_cons_succ, List.getElem?_append_right (Nat.le_refl _), Nat.sub_self,
      List.getElem?_cons_zero] at hget
    exact (Option.some.inj hget).symm
  have hfirst : (String.utf8EncodeChar c)[s.length + 1].IsUTF8FirstByte := by rwa [hbyte]
  have := UInt8.isUTF8FirstByte_getElem_utf8EncodeChar.mp hfirst
  omega

/-- Decoding starts afresh at the first byte of a rune, whatever stands before it. -/
theorem spansFrom_append {b : UInt8} (hb : b.IsUTF8FirstByte) (t : GoString) :
    ∀ (s : GoString) (k : Nat), k ≤ s.length →
      ∃ l, spansFrom k (s ++ b :: t) = l ++ spansFrom 0 (b :: t)
  | [], k, hk => by
    obtain rfl : k = 0 := Nat.le_zero.mp hk
    exact ⟨[], rfl⟩
  | a :: s, k + 1, hk => spansFrom_append hb t s k (Nat.le_of_succ_le_succ hk)
  | a :: s, 0, _ => by
    rw [List.cons_append, spansFrom]
    cases hd : decodeRune (a :: (s ++ b :: t)) with
    | none =>
      obtain ⟨l, hl⟩ := spansFrom_append hb t s 0 (Nat.zero_le _)
      exact ⟨(runeError, [a]) :: l, by simp [hl]⟩
    | some c =>
      have hsize := utf8Size_le_of_decodeRune hb hd
      obtain ⟨l, hl⟩ := spansFrom_append hb t s (c.utf8Size - 1) (by omega)
      exact ⟨(c, (a :: (s ++ b :: t)).take c.utf8Size) :: l, by simp [hl]⟩

theorem runes_append_encode (s : GoString) {cs : List Char} (hcs : cs ≠ []) (t : GoString) :
    ∃ l, runes (s ++ encode cs ++ t) = l ++ cs ++ runes t := by
  have htail : ∀ cs : List Char, (spansFrom 0 (encode cs ++ t)).map Prod.fst =
      cs ++ (spansFrom 0 t).map Prod.fst := by
    intro cs
    induction cs with
    | nil => rfl
    | cons c cs ih =>
      simp only [encode, List.flatMap_cons, List.append_assoc, spansFrom_zero_encode_append,
        List.map_cons, List.cons_append]
      exact congrArg (c :: ·) ih
  obtain ⟨c, cs', rfl⟩ := List.exists_cons_of_ne_nil hcs
  obtain ⟨b, bs, hbs⟩ := List.exists_cons_of_ne_nil (utf8EncodeChar_ne_nil c)
  have hb : b.IsUTF8FirstByte := by
    have h := UInt8.isUTF8FirstByte_getElem_zero_utf8EncodeChar (c := c)
    simpa [hbs] using h
  have henc : encode (c :: cs') ++ t = b :: (bs ++ encode cs' ++ t) := by
    simp [encode, hbs]
  obtain ⟨l, hl⟩ := spansFrom_append hb (bs ++ encode cs' ++ t) s 0 (Nat.zero_le _)
  refine ⟨l.map Prod.fst, ?_⟩
  unfold runes spans
  rw [List.append_assoc, henc, hl, List.map_append, ← henc, htail, List.append_assoc]

theorem spans_encode (cs : List Char) :
    spans (encode cs) = cs.map fun c => (c, String.utf8EncodeChar c) := by
  unfold spans encode
  induction cs with
  | nil => rfl
  | cons c cs ih => rw [List.flatMap_cons, spansFrom_zero_encode_append, ih, List.map_cons]

theorem runes_encode (cs : List Char) : runes (encode cs) = cs := by
  rw [runes, spans_encode, List.map_map]
  exact List.map_id cs

theorem spans_cases {s : GoString} (h : s ≠ []) :
    ∃ c bs t, bs ≠ [] ∧ s = bs ++ t ∧ spans s = (c, bs) :: spans t ∧
      (bs = String.utf8EncodeChar c ∨ c = runeError ∧ decodeRune s = none ∧ bs.length = 1) := by
  cases hd : decodeRune s with
  | some c =>
    obtain ⟨t, rfl⟩ := exists_of_decodeRune hd
    exact ⟨c, _, t, utf8EncodeChar_ne_nil c, rfl, spansFrom_zero_encode_append c t, Or.inl rfl⟩
  | none =>
    obtain ⟨b, t, rfl⟩ := List.exists_cons_of_ne_nil h
    refine ⟨runeError, [b], t, by simp, rfl, ?_, Or.inr ⟨rfl, rfl, rfl⟩⟩
    unfold spans
    rw [spansFrom, hd]

theorem flatMap_spans (s : GoString) : (spans s).flatMap Prod.snd = s := by
  induction hn : s.length using Nat.strong_induction_on generalizing s with
  | _ n ih =>
    by_cases hs : s = []
    · subst hs
      rfl
    · obtain ⟨c, bs, t, hbs, rfl, hspans, -⟩ := spans_cases hs
      have hpos := List.length_pos_of_ne_nil hbs
      rw [List.length_append] at hn
      rw [hspans, List.flatMap_cons, ih t.length (by omega) t rfl]

theorem spans_flatMap_right {a b : List (Char × GoString)} {s : GoString} (h : spans s = a ++ b) :
    spans (b.flatMap Prod.snd) = b := by
  induction a generalizing s with
  | nil =>
    rw [List.nil_append] at h
    rw [← h, flatMap_spans]
  | cons p a ih =>
    have hs : s ≠ [] := by
      rintro rfl
      cases h
    obtain ⟨c, bs, t, -, -, hspans, -⟩ := spans_cases hs
    rw [hspans, List.cons_append] at h
    exact ih (List.cons.inj h).2

theorem spans_flatMap_left {a b : List (Char × GoString)} {s : GoString} (h : spans s = a ++ b) :
    spans (a.flatMap Prod.snd) = a := by
  induction a generalizing s with
  | nil => rfl
  | cons p a ih =>
    have hs : s ≠ [] := by
      rintro rfl
      cases h
    obtain ⟨c, bs, t, -, hst, hspans, hkind⟩ := spans_cases hs
    rw [hspans, List.cons_append] at h
    obtain ⟨rfl, hrest⟩ := List.cons.inj h
    have hcut := ih hrest
    rw [List.flatMap_cons]
    rcases hkind with rfl | ⟨rfl, hnone, hlen⟩
    · unfold spans
      rw [spansFrom_zero_encode_append]
      exact congrArg _ hcut
    · -- an invalid byte stays invalid when less follows it
      obtain ⟨b₀, rfl⟩ := List.length_eq_one_iff.mp hlen
      have ht : t = a.flatMap Prod.snd ++ b.flatMap Prod.snd := by
        rw [← List.flatMap_append, ← hrest, flatMap_spans]
      have hinvalid : decodeRune (b₀ :: a.flatMap Prod.snd) = none := by
        cases hd : decodeRune (b₀ :: a.flatMap Prod.snd) with
        | none => rfl
        | some r =>
          obtain ⟨rest, hr⟩ := exists_of_decodeRune hd
          rw [hst, ht, ← List.append_assoc, List.singleton_append, hr, List.append_assoc,
            decodeRune_encode_append] at hnone
          cases hnone
      show spansFrom 0 (b₀ :: a.flatMap Prod.snd) = _
      rw [spansFrom, hinvalid]
      exact congrArg _ hcut

theorem runes_eq_nil {s : GoString} : runes s = [] ↔ s = [] := by
  cases s with
  | nil => exact ⟨fun _ => rfl, fun _ => rfl⟩
  | cons b s =>
    constructor
    · intro h
      unfold runes spans spansFrom at h
      split at h <;> cases h
    · intro h
      cases h

/-! ## Case and white space -/

/-- `strings.ToLower`. -/
def toLower (s : GoString) : GoString := encode ((runes s).map lowerRune)

def trimSpace (s : GoString) : GoString :=
  let blank (p : Char × GoString) : Bool := isSpace p.1
  ((((spans s).dropWhile blank).reverse.dropWhile blank).reverse).flatMap Prod.snd

theorem toLower_idem (s : GoString) : toLower (toLower s) = toLower s := by
  unfold toLower
  rw [runes_encode, List.map_map]
  congr 1
  exact List.map_congr_left fun c _ => lowerRune_idem c

theorem encode_eq_nil {cs : List Char} : encode cs = [] ↔ cs = [] := by
  cases cs with
  | nil => exact ⟨fun _ => rfl, fun _ => rfl⟩
  | cons c cs => simp [encode]

@[simp] theorem toLower_eq_nil {s : GoString} : toLower s = [] ↔ s = [] := by
  rw [toLower, encode_eq_nil, List.map_eq_nil_iff, runes_eq_nil]

/-- A list without the elements at its ends that satisfy the test. -/
def trimList {α : Type} (p : α → Bool) (l : List α) : List α :=
  ((l.dropWhile p).reverse.dropWhile p).reverse

theorem trimList_map {α β : Type} (f : α → β) (p : β → Bool) (l : List α) :
    trimList p (l.map f) = (trimList (p ∘ f) l).map f := by
  unfold trimList
  rw [List.dropWhile_map, ← List.map_reverse, List.dropWhile_map, ← List.map_reverse]

theorem exists_append_trimList {α : Type} (p : α → Bool) (l : List α) :
    ∃ a b, l = a ++ (trimList p l ++ b) := by
  refine ⟨l.takeWhile p, ((l.dropWhile p).reverse.takeWhile p).reverse, ?_⟩
  unfold trimList
  rw [← List.reverse_append, List.takeWhile_append_dropWhile, List.reverse_reverse,
    List.takeWhile_append_dropWhile]

theorem trimList_eq_nil {α : Type} {p : α → Bool} {l : List α} :
    trimList p l = [] ↔ ∀ x ∈ l, p x = true := by
  unfold trimList
  rw [List.reverse_eq_nil_iff, List.dropWhile_eq_nil_iff]
  constructor
  · intro h
    -- what is left after the front is trimmed would start with an element that fails the test
    refine List.dropWhile_eq_nil_iff.mp ?_
    by_contra hne
    have hhead := List.head_dropWhile_not p hne
    rw [h _ (List.mem_reverse.mpr (List.head_mem hne))] at hhead
    cases hhead
  · intro h x hx
    exact h x ((List.dropWhile_sublist p).mem (List.mem_reverse.mp hx))

theorem trimSpace_eq (s : GoString) :
    trimSpace s = (trimList (fun p => isSpace p.1) (spans s)).flatMap Prod.snd := rfl

theorem spans_trimSpace (s : GoString) :
    spans (trimSpace s) = trimList (fun p => isSpace p.1) (spans s) := by
  obtain ⟨a, b, h⟩ := exists_append_trimList (fun p : Char × GoString => isSpace p.1) (spans s)
  have hright := spans_flatMap_right h
  exact spans_flatMap_left hright

theorem trimSpace_toLower (s : GoString) : trimSpace (toLower s) = toLower (trimSpace s) := by
  have hspace : (fun p : Char × GoString => isSpace p.1) ∘
      (fun c => (c, String.utf8EncodeChar c)) ∘ lowerRune ∘ Prod.fst =
      fun p : Char × GoString => isSpace p.1 := by
    funext p
    exact isSpace_lowerRune p.1
  have hlower : spans (toLower s) =
      (spans s).map ((fun c => (c, String.utf8EncodeChar c)) ∘ lowerRune ∘ Prod.fst) := by
    rw [toLower, spans_encode, runes, List.map_map, List.map_map]
    rfl
  rw [trimSpace_eq, hlower, trimList_map, hspace, ← spans_trimSpace]
  unfold toLower runes encode
  rw [List.flatMap_map, List.flatMap_map, List.flatMap_map]
  rfl

theorem trimSpace_ne_nil {s : GoString} : trimSpace s ≠ [] ↔ ∃ c ∈ runes s, isSpace c = false := by
  have hnil : trimSpace s = [] ↔ trimList (fun p => isSpace p.1) (spans s) = [] := by
    rw [← spans_trimSpace, ← runes_eq_nil, runes, List.map_eq_nil_iff]
  rw [ne_eq, hnil, trimList_eq_nil]
  simp [runes]

/-! ## Searching and cutting -/

/-- `strings.HasPrefix`. -/
def hasPrefix (s p : GoString) : Bool := p.isPrefixOf s

/-- `strings.HasSuffix`. -/
def hasSuffix (s p : GoString) : Bool := p.isSuffixOf s

/-- `strings.Contains`. -/
def contains (s sub : GoString) : Bool := s.tails.any (hasPrefix · sub)

def trimPrefix (s p : GoString) : GoString := if hasPrefix s p then s.drop p.length else s

theorem hasPrefix_append (p t : GoString) : hasPrefix (p ++ t) p = true :=
  List.isPrefixOf_iff_prefix.mpr (List.prefix_append p t)

theorem trimPrefix_append (p t : GoString) : trimPrefix (p ++ t) p = t := by
  rw [trimPrefix, if_pos (hasPrefix_append p t), List.drop_left]

def trimSuffix (s p : GoString) : GoString :=
  if hasSuffix s p then s.take (s.length - p.length) else s

/-- `strings.Cut` (and `strings.SplitN` with limit 2) at the first occurrence of a byte. -/
def cutByte (c : UInt8) : GoString → Option (GoString × GoString)
  | [] => none
  | b :: s => if b = c then some ([], s) else (cutByte c s).map fun p => (b :: p.1, p.2)

/-- Cuts at the last occurrence of a byte, as callers of `strings.LastIndex` do. -/
def cutLastByte (c : UInt8) (s : GoString) : Option (GoString × GoString) :=
  (cutByte c s.reverse).map fun p => (p.2.reverse, p.1.reverse)

/-- `strings.Index`. -/
def index (s sub : GoString) : Option Nat := s.tails.findIdx? (hasPrefix · sub)

/-- Cuts at the first occurrence of a string. -/
def cut (s sep : GoString) : Option (GoString × GoString) :=
  (index s sep).map fun i => (s.take i, s.drop (i + sep.length))

/-- `strings.Split`, with the number of cuts that are left. -/
def splitAtMost (sep : GoString) : Nat → GoString → List GoString
  | 0, s => [s]
  | n + 1, s =>
    match cut s sep with
    | some (before, after) => before :: splitAtMost sep n after
    | none => [s]

/-- `strings.Split` at a string that is not empty. -/
def split (s sep : GoString) : List GoString := splitAtMost sep s.length s

/-- `strings.Replace` of the first occurrence. -/
def replaceFirst (s old new : GoString) : GoString :=
  match cut s old with
  | some (before, after) => before ++ new ++ after
  | none => s

/-- `strings.Split` at a byte. -/
def splitByte (c : UInt8) (s : GoString) : List GoString := s.splitOn c

/-- `strings.Trim` with one byte to trim. -/
def trimByte (c : UInt8) (s : GoString) : GoString := (s.dropWhile (· == c)).rdropWhile (· == c)

/-- `strings.ReplaceAll` of a byte. -/
def replaceByte (c : UInt8) (new s : GoString) : GoString :=
  s.flatMap fun b => if b = c then new else [b]

variable {s t a b sub u w : GoString} {c : UInt8}

theorem contains_iff : contains s sub = true ↔ sub <:+: s := by
  simp only [contains, hasPrefix, List.any_eq_true, List.mem_tails, List.isPrefixOf_iff_prefix]
  constructor
  · rintro ⟨t, ht, hp⟩
    exact hp.isInfix.trans ht.isInfix
  · rintro ⟨a, b, rfl⟩
    exact ⟨sub ++ b, ⟨a, by simp⟩, List.prefix_append sub b⟩

theorem encode_append (a b : List Char) : encode (a ++ b) = encode a ++ encode b := by
  simp [encode]

/-- Lower-casing keeps every occurrence of a text that is in lower case. -/
theorem contains_toLower {cs : List Char} (hcs : ∀ c ∈ cs, lowerRune c = c)
    (h : contains s (encode cs) = true) : contains (toLower s) (encode cs) = true := by
  rw [contains_iff] at h ⊢
  by_cases hnil : cs = []
  · subst hnil
    exact List.nil_infix
  obtain ⟨a, b, rfl⟩ := h
  obtain ⟨l, hl⟩ := runes_append_encode a hnil b
  have hlower : cs.map lowerRune = cs := by
    conv_rhs => rw [← List.map_id cs]
    exact List.map_congr_left hcs
  refine ⟨encode (l.map lowerRune), encode ((runes b).map lowerRune), ?_⟩
  rw [toLower, hl, List.map_append, List.map_append, hlower, encode_append, encode_append]

theorem cutByte_eq_some : cutByte c s = some (a, b) ↔ s = a ++ c :: b ∧ c ∉ a := by
  induction s generalizing a with
  | nil => simp [cutByte]
  | cons x s ih =>
    by_cases h : x = c
    · subst h
      cases a with
      | nil => simp [cutByte]
      | cons y a => simp +contextual [cutByte]
    · cases a with
      | nil => simp [cutByte, h]
      | cons y a =>
        simp only [cutByte, if_neg h, Option.map_eq_some_iff, Prod.mk.injEq, List.cons.injEq,
          List.cons_append, List.mem_cons, not_or, Prod.exists]
        constructor
        · rintro ⟨a', b', hcut, ⟨rfl, rfl⟩, rfl⟩
          obtain ⟨hs, hc⟩ := ih.mp hcut
          exact ⟨⟨rfl, hs⟩, Ne.symm h, hc⟩
        · rintro ⟨⟨rfl, hs⟩, -, hc⟩
          exact ⟨a, b, ih.mpr ⟨hs, hc⟩, ⟨rfl, rfl⟩, rfl⟩

theorem not_mem_of_mem_splitByte (h : t ∈ splitByte c s) : c ∉ t := by
  unfold splitByte List.splitOn at h
  induction s generalizing t with
  | nil =>
    rw [List.splitOnP_nil, List.mem_singleton] at h
    subst h
    exact List.not_mem_nil
  | cons b s ih =>
    rw [List.splitOnP_cons_eq_if_modifyHead] at h
    split at h
    · rcases List.mem_cons.mp h with rfl | h
      · exact List.not_mem_nil
      · exact ih h
    · rename_i hb
      have hne : c ≠ b := fun he => hb (by simp [he])
      cases hs : List.splitOnP (· == c) s with
      | nil => exact absurd hs (List.splitOnP_ne_nil _ s)
      | cons u us =>
        rw [hs] at h ih
        rcases List.mem_cons.mp h with rfl | h
        · simp only [List.mem_cons, not_or]
          exact ⟨hne, ih (List.mem_cons_self ..)⟩
        · exact ih (List.mem_cons_of_mem _ h)

theorem cutByte_eq_none : cutByte c s = none ↔ c ∉ s := by
  induction s with
  | nil => simp [cutByte]
  | cons b s ih =>
    by_cases h : b = c
    · simp [cutByte, h]
    · simp [cutByte, h, ih, Ne.symm h]

theorem cutByte_append (h : c ∉ a) (b : GoString) : cutByte c (a ++ c :: b) = some (a, b) :=
  cutByte_eq_some.mpr ⟨rfl, h⟩

theorem cutLastByte_eq_some : cutLastByte c s = some (a, b) ↔ s = a ++ c :: b ∧ c ∉ b := by
  rw [cutLastByte, Option.map_eq_some_iff]
  constructor
  · rintro ⟨⟨x, y⟩, hcut, hxy⟩
    obtain ⟨hs, hc⟩ := cutByte_eq_some.mp hcut
    cases hxy
    refine ⟨?_, by rwa [List.mem_reverse]⟩
    rw [← List.reverse_reverse s, hs]
    simp
  · rintro ⟨rfl, hc⟩
    refine ⟨(b.reverse, a.reverse), cutByte_eq_some.mpr ⟨by simp, by rwa [List.mem_reverse]⟩, ?_⟩
    simp

theorem cutLastByte_eq_none : cutLastByte c s = none ↔ c ∉ s := by
  rw [cutLastByte, Option.map_eq_none_iff, cutByte_eq_none, List.mem_reverse]

theorem getD_cutByte (c : UInt8) (s : GoString) :
    ((cutByte c s).map Prod.fst).getD s = s.takeWhile (· ≠ c) := by
  induction s with
  | nil => rfl
  | cons b s ih =>
    by_cases h : b = c
    · simp [cutByte, h]
    · cases hcut : cutByte c s with
      | none | some =>
        rw [hcut] at ih
        simpa [cutByte, h, hcut] using ih

theorem cutByte_getD (c : UInt8) (s : GoString) :
    (cutByte c s).getD (s, []) = (s.takeWhile (· ≠ c), (s.dropWhile (· ≠ c)).tail) := by
  have hne : ∀ {a : GoString}, c ∉ a → ∀ b ∈ a, decide (b ≠ c) = true := by
    intro a ha b hb
    exact decide_eq_true fun h => ha (h ▸ hb)
  cases hcut : cutByte c s with
  | none =>
    have hmem := hne (cutByte_eq_none.mp hcut)
    rw [List.takeWhile_eq_self_iff.mpr hmem, List.dropWhile_eq_nil_iff.mpr hmem]
    rfl
  | some p =>
    obtain ⟨rfl, hmem⟩ := cutByte_eq_some.mp hcut
    rw [List.takeWhile_append_of_pos (hne hmem), List.dropWhile_append_of_pos (hne hmem)]
    simp

theorem takeWhile_ne_append (h : c ∉ a) (b : GoString) : (a ++ c :: b).takeWhile (· ≠ c) = a := by
  rw [← getD_cutByte, cutByte_append h]
  rfl

/-- A text after a string goes to the last of its parts. -/
theorem splitByte_append (ht : c ∉ t) (s : GoString) :
    ∃ parts last, splitByte c s = parts ++ [last] ∧ splitByte c (s ++ t) = parts ++ [last ++ t] ∧
      ∀ b ∈ last, b ∈ s := by
  induction s with
  | nil =>
    refine ⟨[], [], rfl, ?_, fun _ hb => hb⟩
    have hone : List.splitOn c ([c].intercalate [t]) = [t] :=
      List.splitOn_intercalate c (by simpa using ht) (List.cons_ne_nil _ _)
    rwa [List.intercalate_singleton] at hone
  | cons b s ih =>
    obtain ⟨parts, last, hs, hst, hlast⟩ := ih
    have hmem : ∀ x ∈ last, x ∈ b :: s := fun x hx => List.mem_cons_of_mem b (hlast x hx)
    unfold splitByte List.splitOn at hs hst ⊢
    rw [List.cons_append, List.splitOnP_cons_eq_if_modifyHead,
      List.splitOnP_cons_eq_if_modifyHead, hs, hst]
    by_cases hb : b = c
    · exact ⟨[] :: parts, last, by simp [hb], by simp [hb], hmem⟩
    · cases parts with
      | nil =>
        refine ⟨[], b :: last, by simp [hb], by simp [hb], ?_⟩
        intro x hx
        rcases List.mem_cons.mp hx with rfl | hx
        · exact List.mem_cons_self
        · exact hmem x hx
      | cons part parts => exact ⟨(b :: part) :: parts, last, by simp [hb], by simp [hb], hmem⟩

theorem splitByte_eq_cons (c : UInt8) (s : GoString) :
    ∃ part parts, splitByte c s = part :: parts ∧ part <+: s := by
  induction s with
  | nil => exact ⟨[], [], rfl, List.nil_prefix⟩
  | cons b s ih =>
    obtain ⟨part, parts, hs, hpart⟩ := ih
    unfold splitByte List.splitOn at hs ⊢
    rw [List.splitOnP_cons_eq_if_modifyHead, hs]
    by_cases hb : b = c
    · exact ⟨[], part :: parts, by simp [hb], List.nil_prefix⟩
    · exact ⟨b :: part, parts, by simp [hb], List.cons_prefix_cons.mpr ⟨rfl, hpart⟩⟩

theorem mem_of_mem_spansFrom {k : Nat} {p : Char × GoString} {b : UInt8}
    (hp : p ∈ spansFrom k s) (hb : b ∈ p.2) : b ∈ s := by
  induction s generalizing k with
  | nil => cases k <;> cases hp
  | cons x s ih =>
    cases k with
    | succ k => exact List.mem_cons_of_mem _ (ih hp)
    | zero =>
      unfold spansFrom at hp
      split at hp
      · rcases List.mem_cons.mp hp with rfl | hp
        · exact List.mem_of_mem_take hb
        · exact List.mem_cons_of_mem _ (ih hp)
      · rcases List.mem_cons.mp hp with rfl | hp
        · exact List.mem_cons.mpr (Or.inl (List.mem_singleton.mp hb))
        · exact List.mem_cons_of_mem _ (ih hp)

theorem mem_of_mem_trimSpace {b : UInt8} (h : b ∈ trimSpace s) : b ∈ s := by
  obtain ⟨p, hp, hb⟩ := List.mem_flatMap.mp h
  have hp' := (List.dropWhile_sublist _).mem (List.mem_reverse.mp hp)
  exact mem_of_mem_spansFrom ((List.dropWhile_sublist _).mem (List.mem_reverse.mp hp')) hb

/-! ## Where a text occurs first -/

theorem cut_cons (b : UInt8) (s sub : GoString) : cut (b :: s) sub =
      if hasPrefix (b :: s) sub then some ([], (b :: s).drop sub.length)
      else (cut s sub).map fun p => (b :: p.1, p.2) := by
  unfold cut index
  rw [List.tails_cons, List.findIdx?_cons]
  split
  · simp
  · cases List.findIdx? (hasPrefix · sub) s.tails with
    | none => rfl
    | some i =>
      simp only [Option.map_some]
      rw [Nat.add_right_comm, List.drop_succ_cons, List.take_succ_cons]

theorem cut_of_first (hsub : sub ≠ [])
    (hfirst : ∀ u' w', u ++ sub ++ w = u' ++ sub ++ w' → u.length ≤ u'.length) :
    cut (u ++ sub ++ w) sub = some (u, w) := by
  induction u with
  | nil =>
    obtain ⟨b, sub', rfl⟩ := List.exists_cons_of_ne_nil hsub
    have hp : hasPrefix (b :: (sub' ++ w)) (b :: sub') = true :=
      List.isPrefixOf_iff_prefix.mpr ⟨w, rfl⟩
    rw [List.nil_append, List.cons_append, cut_cons, if_pos hp]
    simp
  | cons b u ih =>
    have hno : ¬ hasPrefix (b :: (u ++ sub ++ w)) sub = true := by
      intro hp
      obtain ⟨w', hw'⟩ := List.isPrefixOf_iff_prefix.mp hp
      have hlen := hfirst [] w' hw'.symm
      simp at hlen
    rw [List.cons_append, List.cons_append, cut_cons, if_neg hno, ih]
    · rfl
    · intro u' w' huw
      have hlen := hfirst (b :: u') w' (by simp only [List.cons_append, huw])
      simpa using hlen

theorem cut_of_not_mem (hu : c ∉ u) : cut (u ++ c :: sub ++ w) (c :: sub) = some (u, w) := by
  apply cut_of_first (List.cons_ne_nil c sub)
  intro u' w' h
  by_contra hlt
  have hlt' : u'.length < u.length := Nat.lt_of_not_le hlt
  have hc : (u ++ c :: sub ++ w)[u'.length]? = some c := by
    rw [h]
    simp
  rw [List.append_assoc, List.getElem?_append_left hlt'] at hc
  exact hu (List.mem_of_getElem? hc)

/-! ## What follows the first occurrence -/

/-- What follows the first occurrence of a string. -/
def after (s sub : GoString) : Option GoString := (cut s sub).map Prod.snd

theorem after_cons (b : UInt8) (s sub : GoString) : after (b :: s) sub =
      if hasPrefix (b :: s) sub then some ((b :: s).drop sub.length) else after s sub := by
  unfold after
  rw [cut_cons]
  split
  · rfl
  · exact Option.map_map _ _ _

theorem after_append
    (h : ∀ u w, s ++ t = u ++ sub ++ w → s.length ≤ u.length) : after (s ++ t) sub = after t sub := by
  induction s with
  | nil => rfl
  | cons b s ih =>
    have hno : ¬ hasPrefix (b :: (s ++ t)) sub = true := by
      intro hp
      obtain ⟨w, hw⟩ := List.isPrefixOf_iff_prefix.mp hp
      have hlen := h [] w hw.symm
      simp at hlen
    rw [List.cons_append, after_cons, if_neg hno]
    refine ih ?_
    intro u w huw
    have hlen := h (b :: u) w (by rw [List.cons_append, huw]; rfl)
    simpa using hlen

theorem length_le_of_after (h : after s sub = some w) : sub.length ≤ s.length := by
  induction s with
  | nil =>
    cases sub with
    | nil => exact Nat.le_refl 0
    | cons b sub => cases h
  | cons b s ih =>
    rw [after_cons] at h
    split at h
    · rename_i hp
      exact (List.isPrefixOf_iff_prefix.mp hp).length_le
    · exact Nat.le_succ_of_le (ih h)

theorem after_append_of_some (h : after s sub = some w) : after (s ++ t) sub = some (w ++ t) := by
  induction s with
  | nil =>
    cases sub with
    | nil =>
      cases h
      cases t with
      | nil => rfl
      | cons b t => rw [List.nil_append, after_cons]; rfl
    | cons b sub => cases h
  | cons b s ih =>
    rw [after_cons] at h
    rw [List.cons_append, after_cons, ← List.cons_append]
    split at h
    · rename_i hp
      obtain ⟨r, hr⟩ := List.isPrefixOf_iff_prefix.mp hp
      have hp' : hasPrefix (b :: s ++ t) sub = true :=
        List.isPrefixOf_iff_prefix.mpr ⟨r ++ t, by rw [← hr, List.append_assoc]⟩
      have hlen : sub.length ≤ (b :: s).length := (List.isPrefixOf_iff_prefix.mp hp).length_le
      rw [if_pos hp', ← Option.some.inj h, List.drop_append_of_le_length hlen]
    · rename_i hno
      have hno' : ¬ hasPrefix (b :: s ++ t) sub = true := by
        intro hp
        have hlen : sub.length ≤ (b :: s).length := Nat.le_succ_of_le (length_le_of_after h)
        have hshort : sub <+: b :: s := List.prefix_of_prefix_length_le
          (List.isPrefixOf_iff_prefix.mp hp) (List.prefix_append (b :: s) t) hlen
        exact hno (List.isPrefixOf_iff_prefix.mpr hshort)
      rw [if_neg hno']
      exact ih h

theorem after_eq_none (hsub : sub ≠ []) : after s sub = none ↔ ¬ sub <:+: s := by
  induction s with
  | nil =>
    obtain ⟨b, sub', rfl⟩ := List.exists_cons_of_ne_nil hsub
    refine ⟨?_, fun _ => rfl⟩
    intro _ h
    cases List.infix_nil.mp h
  | cons b s ih =>
    rw [after_cons, List.infix_cons_iff, not_or, ← ih]
    by_cases hp : hasPrefix (b :: s) sub = true
    · rw [if_pos hp]
      refine ⟨?_, fun h => absurd (List.isPrefixOf_iff_prefix.mp hp) h.1⟩
      intro h
      cases h
    · rw [if_neg hp]
      exact ⟨fun h => ⟨fun hp' => hp (List.isPrefixOf_iff_prefix.mpr hp'), h⟩, fun h => h.2⟩

theorem after_of_first (hsub : sub ≠ []) (h : s = u ++ sub ++ w)
    (hfirst : ∀ u' w', s = u' ++ sub ++ w' → u.length ≤ u'.length) : after s sub = some w := by
  subst h
  rw [after, cut_of_first hsub hfirst]
  rfl

theorem cut_eq_none (hsub : sub ≠ []) : cut s sub = none ↔ ¬ sub <:+: s := by
  rw [← after_eq_none hsub, after, Option.map_eq_none_iff]

theorem splitByte_append_cons (h : c ∉ a) (b : GoString) :
    splitByte c (a ++ c :: b) = a :: splitByte c b :=
  List.splitOn_append_cons_self_of_not_mem h b

theorem splitByte_eq_singleton (h : c ∉ a) : splitByte c a = [a] := List.splitOn_eq_singleton h

theorem splitByte_of_mem (h : c ∈ a) :
    ∃ first second parts, splitByte c a = first :: second :: parts := by
  obtain ⟨u, w, rfl, hu⟩ := List.eq_append_cons_of_mem h
  obtain ⟨part, parts, hparts, _⟩ := splitByte_eq_cons c w
  exact ⟨u, part, parts, by rw [splitByte_append_cons hu, hparts]⟩

theorem contains_of_append (h : s = a ++ sub ++ b) : contains s sub = true :=
  contains_iff.mpr ⟨a, b, h.symm⟩

/-! ## Decimal numbers -/

def digitByte (d : Nat) : UInt8 := UInt8.ofNat (48 + d)

/-- The decimal digits of a natural number, most significant first. -/
def decimal (n : Nat) : GoString :=
  if n = 0 then [digitByte 0] else (Nat.digits 10 n).reverse.map digitByte

/-- What `%d` prints. -/
def formatInt : Int → GoString
  | .ofNat n => decimal n
  | .negSucc n => 0x2D :: decimal (n + 1)

theorem toNat_digitByte {a : Nat} (ha : a < 10) : (digitByte a).toNat = 48 + a := by
  simp only [digitByte, UInt8.toNat_ofNat']
  omega

theorem digit_of_mem_decimal {n : Nat} {b : UInt8} (h : b ∈ decimal n) :
    48 ≤ b.toNat ∧ b.toNat ≤ 57 := by
  unfold decimal at h
  split at h
  · obtain rfl : b = 0x30 := List.mem_singleton.mp h
    decide
  · obtain ⟨k, hk, rfl⟩ := List.mem_map.mp h
    have hlt : k < 10 := Nat.digits_lt_base (by decide) (List.mem_reverse.mp hk)
    have hnat := toNat_digitByte hlt
    omega

theorem not_mem_formatInt {b : UInt8} (hdash : b ≠ 0x2D) (hdigit : b.toNat < 48 ∨ 57 < b.toNat)
    (i : Int) : b ∉ formatInt i := by
  have hdecimal : ∀ n, b ∉ decimal n := by
    intro n h
    have hb := digit_of_mem_decimal h
    omega
  cases i with
  | ofNat n => exact hdecimal n
  | negSucc n =>
    intro h
    rcases List.mem_cons.mp h with h | h
    · exact hdash h
    · exact hdecimal _ h

theorem dash_not_mem_decimal (n : Nat) : 0x2D ∉ decimal n := by
  intro h
  exact absurd (digit_of_mem_decimal h).1 (by decide)

theorem ofDigits_decimal (n : Nat) :
    Nat.ofDigits 10 ((decimal n).map fun b => b.toNat - 48).reverse = n := by
  unfold decimal
  split
  · rename_i h
    rw [h]
    rfl
  · have hdigits : (Nat.digits 10 n).reverse.map ((fun b => b.toNat - 48) ∘ digitByte) =
        (Nat.digits 10 n).reverse.map id := by
      apply List.map_congr_left
      intro k hk
      have hlt : k < 10 := Nat.digits_lt_base (by decide) (List.mem_reverse.mp hk)
      show (digitByte k).toNat - 48 = k
      rw [toNat_digitByte hlt]
      omega
    rw [List.map_map, hdigits, List.map_id, List.reverse_reverse, Nat.ofDigits_digits]

theorem decimal_injective : Function.Injective decimal := by
  intro a b h
  rw [← ofDigits_decimal a, h, ofDigits_decimal b]

theorem cutByte_decimal (n : Nat) (s : GoString) :
    cutByte 0x2D (decimal n ++ 0x2D :: s) = some (decimal n, s) :=
  cutByte_eq_some.mpr ⟨rfl, dash_not_mem_decimal n⟩

theorem decimal_ne_nil (n : Nat) : decimal n ≠ [] := by
  intro h
  have hzero : n = 0 := by
    rw [← ofDigits_decimal n, h]
    rfl
  rw [hzero] at h
  cases h

/-- What is printed before a dash can be read off. -/
theorem formatInt_dash_inj {a b : Int}
    (h : formatInt a ++ 0x2D :: s = formatInt b ++ 0x2D :: t) : a = b ∧ s = t := by
  have hdecimal : ∀ m n, decimal m ++ 0x2D :: s = decimal n ++ 0x2D :: t → m = n ∧ s = t := by
    intro m n heq
    have hcut := cutByte_decimal m s
    rw [heq, cutByte_decimal, Option.some.injEq, Prod.mk.injEq] at hcut
    exact ⟨decimal_injective hcut.1.symm, hcut.2.symm⟩
  -- a number without a sign does not start with a dash
  have hsign : ∀ n (u v : GoString), decimal n ++ 0x2D :: u ≠ 0x2D :: v := by
    intro n u v heq
    have hcut := cutByte_decimal n u
    rw [heq] at hcut
    exact decimal_ne_nil n (congrArg Prod.fst (Option.some.inj hcut).symm)
  cases a with
  | ofNat m =>
    cases b with
    | ofNat n =>
      obtain ⟨rfl, hst⟩ := hdecimal m n h
      exact ⟨rfl, hst⟩
    | negSucc n => exact absurd h (hsign m s _)
  | negSucc m =>
    cases b with
    | ofNat n => exact absurd h.symm (hsign n t _)
    | negSucc n =>
      obtain ⟨heq, hst⟩ := hdecimal (m + 1) (n + 1) (List.cons.inj h).2
      exact ⟨by omega, hst⟩

/-- A number is printed without a colon, so a port can be read off behind the last one. -/
theorem port_inj {a a' : GoString} {p p' : Int}
    (h : a ++ 0x3A :: formatInt p = a' ++ 0x3A :: formatInt p') : a = a' ∧ p = p' := by
  have hcut : cutLastByte 0x3A (a ++ 0x3A :: formatInt p) = some (a, formatInt p) :=
    cutLastByte_eq_some.mpr ⟨rfl, not_mem_formatInt (by decide) (Or.inr (by decide)) p⟩
  have hcut' : cutLastByte 0x3A (a' ++ 0x3A :: formatInt p') = some (a', formatInt p') :=
    cutLastByte_eq_some.mpr ⟨rfl, not_mem_formatInt (by decide) (Or.inr (by decide)) p'⟩
  rw [h, hcut', Option.some.injEq, Prod.mk.injEq] at hcut
  have hport : formatInt p ++ 0x2D :: [] = formatInt p' ++ 0x2D :: [] := by rw [hcut.2]
  exact ⟨hcut.1.symm, (formatInt_dash_inj hport).1⟩

/-- A lower-case hexadecimal digit. -/
def hexDigit (d : Nat) : UInt8 := if d < 10 then UInt8.ofNat (48 + d) else UInt8.ofNat (87 + d)

/-- What `%x` prints for a byte slice. -/
def formatHex (bs : List UInt8) : GoString :=
  bs.flatMap fun b => [hexDigit (b.toNat / 16), hexDigit (b.toNat % 16)]

example : toLower (lit "Ünicode DB") = lit "ünicode db" := by decide
example : trimSpace (lit " \t a b 　") = lit "a b" := by decide
example : splitByte 0x3A (lit "shop:ann::") = [lit "shop", lit "ann", [], []] := by decide
example : formatInt (-120) = lit "-120" := by decide

end GoStd
