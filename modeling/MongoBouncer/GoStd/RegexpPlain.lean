import MongoBouncer.Glob
import MongoBouncer.GoStd.Regexp

/-!
# Regular expressions made of patterns with asterisks

A pattern in which every asterisk is replaced by `.*` is a regular expression. If the other characters
have no meaning of their own in one, it matches the texts that fit the pattern, except that no
asterisk stands for a line break.

* `special`, `IsPlain` : the characters that have a meaning, and the patterns without any;
* `anchored`           : the regular expression, for the whole text.

Principal results: `compile_anchored` (how it is parsed) and `matchString_anchored` (what it matches).
-/

namespace GoStd

/-! ## UTF-8 -/

/-- The words of UTF-8 can be told apart wherever reading starts. -/
theorem selfSync_utf8 : Glob.SelfSync String.utf8EncodeChar (·.IsUTF8FirstByte) where
  word := by
    intro c
    obtain ⟨b, bs, hbs⟩ := List.exists_cons_of_ne_nil (utf8EncodeChar_ne_nil c)
    refine ⟨b, bs, hbs, ?_, ?_⟩
    · have h := UInt8.isUTF8FirstByte_getElem_zero_utf8EncodeChar (c := c)
      simpa [hbs] using h
    · intro b' hb' hfirst
      obtain ⟨i, hi, rfl⟩ := List.getElem_of_mem hb'
      have hlen : i + 1 < (String.utf8EncodeChar c).length := by
        rw [hbs, List.length_cons]
        omega
      have hget : (String.utf8EncodeChar c)[i + 1] = bs[i] := by
        simp only [hbs, List.getElem_cons_succ]
      rw [← hget] at hfirst
      have := UInt8.isUTF8FirstByte_getElem_utf8EncodeChar.mp hfirst
      omega
  unique := by
    intro c c' x y h
    have hc := decodeRune_encode_append c x
    rw [h, decodeRune_encode_append] at hc
    exact (Option.some.inj hc).symm

theorem starCode_utf8 :
    Glob.StarCode String.utf8EncodeChar '*' 0x2A (· != '\n') (· != (0x0A : UInt8)) where
  starWord := rfl
  otherWord := by
    intro c hc hmem
    exact hc (selfSync_utf8.eq_of_mem rfl hmem)
  symbols := by
    intro c
    by_cases hc : c = '\n'
    · subst hc
      rfl
    · have hbytes : (String.utf8EncodeChar c).all (· != (0x0A : UInt8)) = true := by
        rw [List.all_eq_true]
        intro b hb
        rw [bne_iff_ne]
        rintro rfl
        exact hc (selfSync_utf8.eq_of_mem rfl hb)
      rw [hbytes, bne_iff_ne]
      exact hc

namespace Regexp

/-! ## Parsing -/

/-- `.`: any rune but a line break. -/
def dot : Regexp := anyRune false

/-- The characters that have a meaning in a regular expression. -/
def special : List Char := ['\\', '.', '+', '*', '?', '(', ')', '|', '[', '\x7b', '^', '$']

/-- The source of the regular expression. -/
def dotted (ps : List Char) : List Char := ps.flatMap fun c => if c = '*' then ['.', '*'] else [c]

/-- Its pieces. -/
def starItems (ps : List Char) : List Regexp :=
  ps.map fun c => if c = '*' then dot.star true else literal c

/-- The asterisk is the only special character of the pattern. -/
def PlainRunes (ps : List Char) : Prop := ∀ c ∈ ps, c ∈ special → c = '*'

section Parse

variable {alts seq : List Regexp} {outer : List (Flags × Group)} {b : Bool}

theorem step_literal {c : Char} (hc : c ∉ special) (s : List Char) :
    step ⟨.perl, ⟨alts, seq⟩, outer, b⟩ (c :: s) =
      some (⟨.perl, ⟨alts, literal c :: seq⟩, outer, false⟩, s) := by
  simp only [special, List.mem_cons, List.not_mem_nil, or_false, not_or] at hc
  unfold step
  split <;> simp_all [Parser.literal, Parser.push, literal, Flags.perl]

theorem step_star {s : List Char} (h : s.head? ≠ some '?') (r : Regexp) :
    step ⟨.perl, ⟨alts, r :: seq⟩, outer, false⟩ ('*' :: s) =
      some (⟨.perl, ⟨alts, r.star true :: seq⟩, outer, true⟩, s) := by
  let p : Parser := ⟨.perl, ⟨alts, r :: seq⟩, outer, false⟩
  have hgreedy : p.greedy s = (true, s) := by
    unfold Parser.greedy
    split
    · exact absurd rfl h
    · rfl
  have hstep : step p ('*' :: s) = some
      (⟨.perl, ⟨alts, r.star (p.greedy s).1 :: seq⟩, outer, true⟩, (p.greedy s).2) := rfl
  rw [hstep, hgreedy]

theorem head_dotted_ne {ps : List Char} (hps : PlainRunes ps) :
    (dotted ps ++ ['$']).head? ≠ some '?' := by
  cases ps with
  | nil => decide
  | cons d ps =>
    by_cases hd : d = '*'
    · subst hd
      simp [dotted]
    · simp only [dotted, List.flatMap_cons, if_neg hd, List.cons_append, List.head?_cons]
      intro h
      rw [Option.some.inj h] at hps
      exact absurd (hps '?' List.mem_cons_self (by decide)) (by decide)

/-- A source in front of an end anchor adds its pieces to the open group. -/
theorem parse_dotted {ps : List Char} (hps : PlainRunes ps) {fuel : Nat}
    (hfuel : (dotted ps ++ ['$']).length ≤ fuel) :
    parse fuel ⟨.perl, ⟨alts, seq⟩, outer, b⟩ (dotted ps ++ ['$']) =
      some ⟨.perl, ⟨alts, anchor .endText :: ((starItems ps).reverse ++ seq)⟩, outer, false⟩ := by
  induction ps generalizing fuel seq b with
  | nil =>
    obtain ⟨fuel, rfl⟩ : ∃ k, fuel = k + 1 := ⟨fuel - 1, by simp [dotted] at hfuel; omega⟩
    cases fuel <;> rfl
  | cons c ps ih =>
    have hrest : PlainRunes ps := fun c' hc' => hps c' (List.mem_cons_of_mem c hc')
    by_cases hc : c = '*'
    · subst hc
      have hsource : dotted ('*' :: ps) ++ ['$'] = '.' :: '*' :: (dotted ps ++ ['$']) := rfl
      rw [hsource] at hfuel ⊢
      obtain ⟨fuel, rfl⟩ : ∃ k, fuel = k + 2 := ⟨fuel - 2, by simp at hfuel; omega⟩
      have hlen : (dotted ps ++ ['$']).length ≤ fuel := by
        simp only [List.length_cons] at hfuel
        omega
      have hdot : step ⟨.perl, ⟨alts, seq⟩, outer, b⟩ ('.' :: '*' :: (dotted ps ++ ['$'])) =
          some (⟨.perl, ⟨alts, dot :: seq⟩, outer, false⟩, '*' :: (dotted ps ++ ['$'])) := rfl
      simp only [parse, hdot, step_star (head_dotted_ne hrest), ih hrest hlen, Option.bind_eq_bind,
        Option.bind_some]
      simp [starItems]
    · have hplain : c ∉ special := fun h => hc (hps c List.mem_cons_self h)
      have hsource : dotted (c :: ps) ++ ['$'] = c :: (dotted ps ++ ['$']) := by
        simp [dotted, hc]
      rw [hsource] at hfuel ⊢
      obtain ⟨fuel, rfl⟩ : ∃ k, fuel = k + 1 := ⟨fuel - 1, by simp at hfuel; omega⟩
      have hlen : (dotted ps ++ ['$']).length ≤ fuel := by
        simp only [List.length_cons] at hfuel
        omega
      simp only [parse, step_literal hplain, ih hrest hlen, Option.bind_eq_bind, Option.bind_some]
      simp [starItems, hc]

end Parse

theorem concat_reverse (l : List Regexp) : concat l.reverse = l.foldr cat empty := by
  rw [concat, List.foldl_reverse]

/-- The pieces one after the other, up to the end of the text. -/
def pieces (ps : List Char) : Regexp := (starItems ps).foldr cat (cat (anchor .endText) empty)

end Regexp

/-- The regular expression of a pattern, for the whole of a text. -/
def anchored (p : GoString) : GoString := lit "^" ++ replaceByte 0x2A (lit ".*") p ++ lit "$"

theorem replaceByte_encode (ps : List Char) :
    replaceByte 0x2A (lit ".*") (encode ps) = encode (Regexp.dotted ps) := by
  induction ps with
  | nil => rfl
  | cons c ps ih =>
    have hcons : encode (c :: ps) = String.utf8EncodeChar c ++ encode ps := rfl
    have happend : ∀ a b : GoString, replaceByte 0x2A (lit ".*") (a ++ b) =
        replaceByte 0x2A (lit ".*") a ++ replaceByte 0x2A (lit ".*") b := by
      intro a b
      exact List.flatMap_append
    have hdotted : Regexp.dotted (c :: ps) =
        (if c = '*' then ['.', '*'] else [c]) ++ Regexp.dotted ps := rfl
    rw [hcons, happend, ih, hdotted, encode_append]
    congr 1
    by_cases hc : c = '*'
    · subst hc
      rfl
    · have hnone : 0x2A ∉ String.utf8EncodeChar c := starCode_utf8.otherWord c hc
      have hsame : replaceByte 0x2A (lit ".*") (String.utf8EncodeChar c) =
          (String.utf8EncodeChar c).flatMap fun b => [b] := by
        apply List.flatMap_congr
        intro b hb
        rw [if_neg]
        rintro rfl
        exact hnone hb
      rw [if_neg hc, hsame, List.flatMap_singleton']
      simp [encode]

theorem anchored_encode (ps : List Char) :
    anchored (encode ps) = encode ('^' :: (Regexp.dotted ps ++ ['$'])) := by
  have hcons : encode ('^' :: (Regexp.dotted ps ++ ['$'])) =
      lit "^" ++ encode (Regexp.dotted ps ++ ['$']) := rfl
  rw [anchored, replaceByte_encode, hcons, encode_append, List.append_assoc]
  rfl

/-- **How the regular expression of a plain pattern is parsed.** -/
theorem compile_anchored {ps : List Char} (hps : Regexp.PlainRunes ps) :
    Regexp.compile (anchored (encode ps)) =
      some (.cat (.anchor .beginText) (Regexp.pieces ps)) := by
  have hvalid : (spans (anchored (encode ps))).all
      (fun p => p.2 == String.utf8EncodeChar p.1) = true := by
    rw [anchored_encode, spans_encode, List.all_map, List.all_eq_true]
    intro c _
    exact beq_self_eq_true _
  have hsource : runes (anchored (encode ps)) = '^' :: (Regexp.dotted ps ++ ['$']) := by
    rw [anchored_encode, runes_encode]
  have hparse : Regexp.parse (runes (anchored (encode ps))).length .new
        (runes (anchored (encode ps))) =
      some ⟨.perl, ⟨[], .anchor .endText :: ((Regexp.starItems ps).reverse ++ [.anchor .beginText])⟩,
        [], false⟩ := by
    rw [hsource]
    exact Regexp.parse_dotted hps (Nat.le_refl _)
  unfold Regexp.compile
  rw [if_pos hvalid, hparse]
  show some (Regexp.concat (.anchor .endText ::
    ((Regexp.starItems ps).reverse ++ [.anchor .beginText]))) = _
  have hseq : Regexp.anchor .endText :: ((Regexp.starItems ps).reverse ++ [Regexp.anchor .beginText]) =
      (Regexp.anchor .beginText :: (Regexp.starItems ps ++ [Regexp.anchor .endText])).reverse := by
    simp
  rw [hseq, Regexp.concat_reverse, List.foldr_cons, List.foldr_append]
  rfl

/-! ## Matching -/

namespace Regexp

/-- The cursor after more runes. -/
def Cursor.past (x y : List (Char × GoString)) (before : List Char) : Cursor :=
  ⟨(x.map Prod.fst).reverse ++ before, y⟩

theorem ends_literal (c : Char) (before : List Char) (rest : List (Char × GoString)) (e : Cursor) :
    e ∈ ends (literal c) ⟨before, rest⟩ ↔
      ∃ p y, rest = p :: y ∧ p.1 = c ∧ e = ⟨p.1 :: before, y⟩ := by
  cases rest with
  | nil => simp [ends, literal]
  | cons p y => by_cases hp : p.1 = c <;> simp [ends, literal, takes_literal, hp]

theorem takes_dot (d : Char) :
    takes [⟨[(0x0A, 0x0A)], false, false⟩] true d = !decide (d = '\n') := by
  rw [← takes_literal '\n' d]
  simp [takes]

theorem ends_dot (before : List Char) (rest : List (Char × GoString)) : ends dot ⟨before, rest⟩ =
      match rest with
      | [] => []
      | p :: y => if p.1 = '\n' then [] else [⟨p.1 :: before, y⟩] := by
  cases rest with
  | nil => rfl
  | cons p y => by_cases hp : p.1 = '\n' <;> simp [ends, dot, anyRune, takes_dot, hp]

/-- `.*` may end behind any number of runes that has no line break among them. -/
theorem mem_starEnds_dot {n : Nat} {before : List Char} {rest : List (Char × GoString)} {e : Cursor}
    (hn : rest.length ≤ n) :
    e ∈ starEnds true (ends dot) n ⟨before, rest⟩ ↔
      ∃ x y, rest = x ++ y ∧ (x.map Prod.fst).all (· != '\n') = true ∧ e = Cursor.past x y before := by
  induction n generalizing before rest with
  | zero =>
    obtain rfl := List.length_eq_zero_iff.mp (Nat.le_zero.mp hn)
    constructor
    · intro h
      exact ⟨[], [], rfl, rfl, List.mem_singleton.mp h⟩
    · rintro ⟨x, y, hxy, -, rfl⟩
      obtain ⟨rfl, rfl⟩ := List.append_eq_nil_iff.mp hxy.symm
      exact List.mem_singleton.mpr rfl
  | succ n ih =>
    have hstep : e ∈ starEnds true (ends dot) (n + 1) ⟨before, rest⟩ ↔
        (∃ p y, rest = p :: y ∧ p.1 ≠ '\n' ∧
          e ∈ starEnds true (ends dot) n ⟨p.1 :: before, y⟩) ∨ e = ⟨before, rest⟩ := by
      simp only [starEnds, if_true, List.mem_append, List.mem_singleton, ends_dot]
      cases rest with
      | nil => simp
      | cons p y =>
        by_cases hp : p.1 = '\n'
        · simp [hp]
        · simp [hp]
    rw [hstep]
    constructor
    · rintro (⟨p, y, rfl, hp, he⟩ | rfl)
      · obtain ⟨x, z, rfl, hx, rfl⟩ := (ih (by simp at hn; omega)).mp he
        refine ⟨p :: x, z, rfl, ?_, ?_⟩
        · rw [List.map_cons, List.all_cons, hx, Bool.and_true, bne_iff_ne]
          exact hp
        · simp [Cursor.past]
      · exact ⟨[], rest, rfl, rfl, rfl⟩
    · rintro ⟨x, y, rfl, hx, rfl⟩
      cases x with
      | nil => exact Or.inr rfl
      | cons p x =>
        rw [List.map_cons, List.all_cons, Bool.and_eq_true, bne_iff_ne] at hx
        refine Or.inl ⟨p, x ++ y, rfl, hx.1, ?_⟩
        refine (ih (by simp at hn ⊢; omega)).mpr ⟨x, y, rfl, hx.2, ?_⟩
        simp [Cursor.past]

/-- **The pieces match the texts that fit the pattern.** -/
theorem exists_ends_pieces (ps : List Char) (before : List Char) (rest : List (Char × GoString)) :
    (∃ e, e ∈ ends (pieces ps) ⟨before, rest⟩) ↔
      Glob.Fits '*' (· != '\n') ps (rest.map Prod.fst) := by
  induction ps generalizing before rest with
  | nil =>
    cases rest with
    | nil | cons => simp [pieces, starItems, ends, Anchor.holds]
  | cons c ps ih =>
    by_cases hc : c = '*'
    · subst hc
      have hends : ∀ e, e ∈ ends (pieces ('*' :: ps)) ⟨before, rest⟩ ↔
          ∃ m ∈ starEnds true (ends dot) rest.length ⟨before, rest⟩, e ∈ ends (pieces ps) m := by
        intro e
        exact List.mem_flatMap
      rw [Glob.fits_star]
      constructor
      · rintro ⟨e, he⟩
        obtain ⟨m, hm, he⟩ := (hends e).mp he
        obtain ⟨x, y, rfl, hx, rfl⟩ := (mem_starEnds_dot (Nat.le_refl _)).mp hm
        exact ⟨x.map Prod.fst, y.map Prod.fst, List.map_append, hx, (ih _ y).mp ⟨e, he⟩⟩
      · rintro ⟨u, v, huv, hu, hv⟩
        obtain ⟨x, y, rfl, rfl, rfl⟩ := List.map_eq_append_iff.mp huv
        obtain ⟨e, he⟩ := (ih ((x.map Prod.fst).reverse ++ before) y).mpr hv
        exact ⟨e, (hends e).mpr
          ⟨Cursor.past x y before, (mem_starEnds_dot (Nat.le_refl _)).mpr ⟨x, y, rfl, hu, rfl⟩, he⟩⟩
    · have hends : ∀ e, e ∈ ends (pieces (c :: ps)) ⟨before, rest⟩ ↔
          ∃ m ∈ ends (literal c) ⟨before, rest⟩, e ∈ ends (pieces ps) m := by
        intro e
        have hpieces : pieces (c :: ps) = cat (literal c) (pieces ps) := by
          simp [pieces, starItems, hc]
        rw [hpieces]
        exact List.mem_flatMap
      rw [Glob.fits_cons hc]
      constructor
      · rintro ⟨e, he⟩
        obtain ⟨m, hm, he⟩ := (hends e).mp he
        obtain ⟨p, y, rfl, rfl, rfl⟩ := (ends_literal c before rest m).mp hm
        exact ⟨y.map Prod.fst, rfl, (ih _ y).mp ⟨e, he⟩⟩
      · rintro ⟨t, ht, hfits⟩
        obtain ⟨p, y, rfl, rfl, rfl⟩ := List.map_eq_cons_iff.mp ht
        obtain ⟨e, he⟩ := (ih (p.1 :: before) y).mpr hfits
        exact ⟨e, (hends e).mpr ⟨⟨p.1 :: before, y⟩, (ends_literal _ _ _ _).mpr ⟨p, y, rfl, rfl, rfl⟩, he⟩⟩

theorem isSome_findFrom_beginText (r : Regexp) (rest : List (Char × GoString)) :
    ((cat (anchor .beginText) r).findFrom [] rest).isSome = true ↔ ∃ e, e ∈ ends r ⟨[], rest⟩ := by
  have hlater : ∀ (l : List (Char × GoString)) (b : Char) (before : List Char),
      (cat (anchor .beginText) r).findFrom (b :: before) l = none := by
    intro l
    induction l with
    | nil =>
      intro b before
      rfl
    | cons p l ih =>
      intro b before
      show (cat (anchor .beginText) r).findFrom (p.1 :: b :: before) l = none
      exact ih p.1 (b :: before)
  have hends : ends (cat (anchor .beginText) r) ⟨[], rest⟩ = ends r ⟨[], rest⟩ := List.append_nil _
  rw [← hends]
  cases rest with
  | nil =>
    simp only [findFrom, Option.isSome_map]
    cases hlist : ends (cat (anchor .beginText) r) ⟨[], []⟩ with
    | nil => simp
    | cons e l => simp
  | cons p l =>
    simp only [findFrom]
    cases hlist : ends (cat (anchor .beginText) r) ⟨[], p :: l⟩ with
    | nil => simp [hlater]
    | cons e es => simp

end Regexp

/-- A pattern of valid UTF-8 in which the asterisk is the only special character. -/
def IsPlain (p : GoString) : Prop := encode (runes p) = p ∧ Regexp.PlainRunes (runes p)

instance (p : GoString) : Decidable (IsPlain p) :=
  @instDecidableAnd _ _ inferInstance (List.decidableBAll _ _)

/-- **What the regular expression of a plain pattern matches**: the texts that fit the pattern with no
line break for an asterisk. -/
theorem matchString_anchored {p s : GoString} (hp : IsPlain p) (hs : encode (runes s) = s) :
    matchString (anchored p) s = some true ↔
      Glob.Fits 0x2A (· != (0x0A : UInt8)) p s := by
  have hfits : Glob.Fits 0x2A (· != (0x0A : UInt8)) p s ↔
      Glob.Fits '*' (· != '\n') (runes p) (runes s) := by
    rw [← Glob.fits_flatMap selfSync_utf8 starCode_utf8]
    show _ ↔ Glob.Fits 0x2A (· != (0x0A : UInt8)) (encode (runes p)) (encode (runes s))
    rw [hp.1, hs]
  have hcompile := compile_anchored hp.2
  rw [hp.1] at hcompile
  rw [hfits, matchString, hcompile, Option.map_some, Option.some.injEq,
    Regexp.isSome_findFrom_beginText, Regexp.exists_ends_pieces]
  rfl

end GoStd
