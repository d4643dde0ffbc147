import Mathlib.Data.Bool.AllAny
import MongoBouncer.Wire.Bson

/-!
# Printed documents

`Document.String` of `bsoncore` prints a document as extended JSON: a key in quotes, a colon and a
blank, then the value; keys and strings are escaped. Of the escaping it is assumed that a quote comes
out behind a backslash and that letters come out as they are. Here a text search for `"name": "` in
such a text is compared with the fields of the document.

* `Json`, `Json.text`  : a document, and how it is printed;
* `Escaping`           : what is assumed of the escaping;
* `quotedAfterName`    : the text between the first `"name": "` and the next quote;
* `Json.firstName`     : the first string, in the order of printing, whose key is `name`, or ends
  in a quote and `name`.

Principal result: `quotedAfterName_document`, that the search finds what is printed for that string,
up to its first quote.
-/

namespace MongoBouncer

open GoStd

/-! ## The text that is searched for -/

/-- What the proxy searches for: the key `name` and the quote that opens its value. -/
def nameKey : GoString := lit "\"name\": \""

/-- The text up to the next quote, behind the first `"name": "`. -/
def quotedAfterName (text : GoString) : Option GoString :=
  (after text nameKey).bind fun rest => (cutByte 0x22 rest).map Prod.fst

/-- The text cannot go on what stands before it to a `"name": "`. -/
def Stops (text : GoString) : Prop := ∀ b rest, text = b :: rest → b ∉ nameKey

/-- Every quote of the text stands behind a backslash. -/
def Escaped (text : GoString) : Prop :=
  ∀ i : Nat, text[i]? = some (0x22 : UInt8) → ∃ j, i = j + 1 ∧ text[j]? = some (0x5C : UInt8)

section Occurrences

variable {text u w t rest : GoString}

theorem getElem?_nameKey (h : text = u ++ nameKey ++ w) {i : Nat} (hi : i < 9) :
    text[u.length + i]? = nameKey[i]? := by
  have hlen : nameKey.length = 9 := by decide
  rw [h, List.append_assoc, List.getElem?_append_right (Nat.le_add_right _ _),
    Nat.add_sub_cancel_left, List.getElem?_append_left (by omega)]

theorem nameKey_bytes (h : text = u ++ nameKey ++ w) :
    text[u.length]? = some 0x22 ∧ text[u.length + 1]? = some 0x6E ∧
    text[u.length + 2]? = some 0x61 ∧ text[u.length + 3]? = some 0x6D ∧
    text[u.length + 4]? = some 0x65 ∧ text[u.length + 5]? = some 0x22 ∧
    text[u.length + 6]? = some 0x3A ∧ text[u.length + 7]? = some 0x20 ∧
    text[u.length + 8]? = some 0x22 :=
  ⟨getElem?_nameKey h (i := 0) (by decide), getElem?_nameKey h (i := 1) (by decide),
    getElem?_nameKey h (i := 2) (by decide), getElem?_nameKey h (i := 3) (by decide),
    getElem?_nameKey h (i := 4) (by decide), getElem?_nameKey h (i := 5) (by decide),
    getElem?_nameKey h (i := 6) (by decide), getElem?_nameKey h (i := 7) (by decide),
    getElem?_nameKey h (i := 8) (by decide)⟩

theorem not_inside_escaped (ht : Escaped t) (h : 0x22 :: (t ++ rest) = u ++ nameKey ++ w) :
    t.length + 1 ≤ u.length + 5 := by
  by_contra hlt
  obtain ⟨-, -, -, -, he, hquote, -⟩ := nameKey_bytes h
  rw [List.getElem?_cons_succ, List.getElem?_append_left (by omega)] at hquote he
  obtain ⟨j, hj, hback⟩ := ht _ hquote
  obtain rfl : j = u.length + 3 := by omega
  rw [hback] at he
  exact absurd he (by decide)

theorem getElem?_closing (t rest : GoString) :
    (0x22 :: (t ++ 0x22 :: rest))[t.length + 1]? = some 0x22 := by
  rw [List.getElem?_cons_succ, List.getElem?_append_right (Nat.le_refl _), Nat.sub_self]
  rfl

theorem getElem?_behind (t rest : GoString) (i : Nat) :
    (0x22 :: (t ++ 0x22 :: rest))[t.length + 2 + i]? = rest[i]? := by
  have hplace : t.length + 2 + i = (t.length + (i + 1)) + 1 := by omega
  rw [hplace, List.getElem?_cons_succ, List.getElem?_append_right (by omega),
    Nat.add_sub_cancel_left, List.getElem?_cons_succ]

theorem head_of_getElem?_zero {b : UInt8} (h : rest[0]? = some b) : ∃ tail, rest = b :: tail := by
  cases rest with
  | nil => cases h
  | cons a tail =>
    cases h
    exact ⟨tail, rfl⟩

/-- The quote that closes a string is none of the bytes between those of an occurrence. -/
theorem closing_ne (h : 0x22 :: (t ++ 0x22 :: rest) = u ++ nameKey ++ w) :
    t.length + 1 ≠ u.length + 1 ∧ t.length + 1 ≠ u.length + 2 ∧ t.length + 1 ≠ u.length + 3 ∧
      t.length + 1 ≠ u.length + 4 := by
  obtain ⟨-, h1, h2, h3, h4, -⟩ := nameKey_bytes h
  have hclose := getElem?_closing t rest
  refine ⟨?_, ?_, ?_, ?_⟩
  · intro hx
    rw [hx, h1] at hclose
    exact absurd hclose (by decide)
  · intro hx
    rw [hx, h2] at hclose
    exact absurd hclose (by decide)
  · intro hx
    rw [hx, h3] at hclose
    exact absurd hclose (by decide)
  · intro hx
    rw [hx, h4] at hclose
    exact absurd hclose (by decide)

/-- An occurrence is not in a printed string, and does not begin there. -/
theorem behind_string (ht : Escaped t) (hrest : Stops rest)
    (h : 0x22 :: (t ++ 0x22 :: rest) = u ++ nameKey ++ w) : t.length + 2 ≤ u.length := by
  have hinside := not_inside_escaped ht h
  have hclosing := closing_ne h
  obtain ⟨-, h1, -, -, -, -, h6, -⟩ := nameKey_bytes h
  have hbehind := getElem?_behind t rest 0
  by_contra hlt
  -- the closing quote of the string is the first or the sixth byte of the occurrence
  have hcases : t.length + 2 + 0 = u.length + 1 ∨ t.length + 2 + 0 = u.length + 6 := by omega
  rcases hcases with hx | hx
  · rw [hx, h1] at hbehind
    obtain ⟨tail, htail⟩ := head_of_getElem?_zero hbehind.symm
    exact hrest _ _ htail (by decide)
  · rw [hx, h6] at hbehind
    obtain ⟨tail, htail⟩ := head_of_getElem?_zero hbehind.symm
    exact hrest _ _ htail (by decide)

/-- An occurrence with the quote that closes the key is the end of the key and the quote that opens
the value. -/
theorem field_of_closing (h : 0x22 :: (t ++ 0x22 :: 0x3A :: 0x20 :: rest) = u ++ nameKey ++ w)
    (hend : u.length + 5 = t.length + 1) :
    u ++ lit "\"name" = 0x22 :: t ∧ rest = 0x22 :: w := by
  have hsplit : (0x22 :: t) ++ (0x22 :: 0x3A :: 0x20 :: rest) =
      (u ++ lit "\"name") ++ (lit "\": \"" ++ w) := by
    have hkey : nameKey = lit "\"name" ++ lit "\": \"" := by decide
    rw [List.cons_append, h, hkey]
    simp only [List.append_assoc]
  have hlen : (0x22 :: t).length = (u ++ lit "\"name").length := by
    have hname : (lit "\"name").length = 5 := by decide
    rw [List.length_cons, List.length_append, hname]
    omega
  obtain ⟨hkey, hvalue⟩ := List.append_inj hsplit hlen
  have hopen : lit "\": \"" = [0x22, 0x3A, 0x20, 0x22] := by decide
  rw [hopen] at hvalue
  simp only [List.cons_append, List.nil_append, List.cons.injEq, true_and] at hvalue
  exact ⟨hkey.symm, hvalue⟩

/-- An occurrence at a printed field is in the value, or it is the end of the key and the quote that
opens the value. -/
theorem field_cases (ht : Escaped t)
    (h : 0x22 :: (t ++ 0x22 :: 0x3A :: 0x20 :: rest) = u ++ nameKey ++ w) :
    t.length + 4 ≤ u.length ∨ u ++ lit "\"name" = 0x22 :: t ∧ rest = 0x22 :: w := by
  have hinside := not_inside_escaped ht h
  have hclosing := closing_ne h
  obtain ⟨h0, h1, -⟩ := nameKey_bytes h
  have hcolon := getElem?_behind t (0x3A :: 0x20 :: rest) 0
  have hblank := getElem?_behind t (0x3A :: 0x20 :: rest) 1
  by_cases hend : u.length + 5 = t.length + 1
  · exact Or.inr (field_of_closing h hend)
  · left
    by_contra hlt
    have hcases : t.length + 2 + 1 = u.length ∨ t.length + 2 + 0 = u.length ∨
        t.length + 2 + 0 = u.length + 1 := by omega
    rcases hcases with hx | hx | hx
    · rw [hx, h0] at hblank
      exact absurd hblank (by simp)
    · rw [hx, h0] at hcolon
      exact absurd hcolon (by simp)
    · rw [hx, h1] at hcolon
      exact absurd hcolon (by simp)

end Occurrences

/-! ## Texts without the key -/

/-- The text does not end in the beginning of a `"name": "`. -/
def Finished (text : GoString) : Prop := ∀ t, t <:+ text → t ≠ [] → ¬ t <+: nameKey

/-- The text does not hold a `"name": "` either. -/
structure Clean (text : GoString) : Prop where
  finished : Finished text
  holds : ¬ nameKey <:+: text

theorem nameKey_ne_nil : nameKey ≠ [] := by decide

section Search

variable {text t rest : GoString}

theorem mem_of_prefix_nameKey (ht : t ≠ []) (h : t <+: nameKey) : 0x22 ∈ t := by
  obtain ⟨b, t', rfl⟩ := List.exists_cons_of_ne_nil ht
  obtain ⟨r, hr⟩ := h
  have hhead : nameKey.head? = some b := by rw [← hr]; rfl
  have hb : b = 0x22 := Option.some.inj (hhead.symm.trans (by decide))
  rw [hb]
  exact List.mem_cons_self

theorem clean_of_no_quote (h : 0x22 ∉ text) : Clean text where
  finished := fun t ht hne hp => h (ht.subset (mem_of_prefix_nameKey hne hp))
  holds := fun hk => h (hk.subset (by decide))

theorem finished_append {a r : GoString} {b : UInt8} (hb : b ∉ nameKey) (hr : 0x22 ∉ r) :
    Finished (a ++ b :: r) := by
  intro t ht hne hp
  have htail : b :: r <:+ a ++ b :: r := List.suffix_append a (b :: r)
  rcases List.suffix_or_suffix_of_suffix ht htail with hs | hs
  · rcases List.suffix_cons_iff.mp hs with rfl | hs
    · exact hb (hp.subset List.mem_cons_self)
    · exact hr (hs.subset (mem_of_prefix_nameKey hne hp))
  · exact hb (hp.subset (hs.subset List.mem_cons_self))

/-- A finished text is searched before what follows it. -/
theorem after_append_of_finished (h : Finished text) : after (text ++ rest) nameKey =
      ((after text nameKey).map (· ++ rest)).or (after rest nameKey) := by
  cases hafter : after text nameKey with
  | some w =>
    rw [after_append_of_some hafter]
    rfl
  | none =>
    have hno := (after_eq_none nameKey_ne_nil).mp hafter
    refine after_append ?_
    intro u w huw
    by_contra hlt
    -- an occurrence that begins in the text would be in it, or begin at its end
    have hdrop : text.drop u.length ++ rest = nameKey ++ w := by
      rw [← List.drop_append_of_le_length (by omega), huw, List.append_assoc, List.drop_left' rfl]
    have hne : text.drop u.length ≠ [] := by
      intro hnil
      have hlen := congrArg List.length hnil
      rw [List.length_drop, List.length_nil] at hlen
      omega
    have hsuffix : text.drop u.length <:+ text := List.drop_suffix _ _
    have hp : text.drop u.length <+: text.drop u.length ++ rest := List.prefix_append _ _
    have hp' : nameKey <+: text.drop u.length ++ rest := by
      rw [hdrop]
      exact List.prefix_append _ _
    rcases List.prefix_or_prefix_of_prefix hp hp' with hk | hk
    · exact h _ hsuffix hne hk
    · exact hno (hk.isInfix.trans hsuffix.isInfix)

theorem quotedAfterName_append_of_clean (h : Clean text) :
    quotedAfterName (text ++ rest) = quotedAfterName rest := by
  have hnone := (after_eq_none nameKey_ne_nil).mpr h.holds
  unfold quotedAfterName
  rw [after_append_of_finished h.finished, hnone]
  rfl

end Search

/-! ## Documents -/

/-- The printed text of a value that is neither a string nor made of other values. -/
structure Scalar where
  text : GoString
  clean : Clean text
  bare : text.head? ≠ some 0x22

/-- What is assumed of the escaping of keys and strings. -/
structure Escaping where
  text : GoString → GoString
  escaped : ∀ s, Escaped (text s)
  letters : ∀ s, (∀ b ∈ s, 0x61 ≤ b ∧ b ≤ 0x7A) → text s = s

/-- What is printed of a string up to its first quote. -/
def Escaping.quoted (e : Escaping) (s : GoString) : GoString := (e.text s).takeWhile (· ≠ 0x22)

mutual

inductive Json where
  | string (s : GoString)
  | scalar (t : Scalar)
  | array (items : Items)
  | document (fields : Fields)

inductive Items where
  | nil
  | cons (v : Json) (rest : Items)

/-- The fields of a document, in their order. -/
inductive Fields where
  | nil
  | cons (key : GoString) (v : Json) (rest : Fields)

end

/-- What stands before the rest of an array. -/
def Items.separator : Items → GoString
  | .nil => []
  | .cons _ _ => [0x2C]

/-- What stands before the rest of a document. -/
def Fields.separator : Fields → GoString
  | .nil => []
  | .cons _ _ _ => [0x2C]

mutual

/-- The printed text of a value. -/
def Json.text (e : Escaping) : Json → GoString
  | .string s => 0x22 :: (e.text s ++ [0x22])
  | .scalar t => t.text
  | .array items => 0x5B :: (items.text e ++ [0x5D])
  | .document fields => 0x7B :: (fields.text e ++ [0x7D])

def Items.text (e : Escaping) : Items → GoString
  | .nil => []
  | .cons v rest => v.text e ++ (rest.separator ++ rest.text e)

/-- The printed text of fields: each key in quotes, a colon and a blank, and the value. -/
def Fields.text (e : Escaping) : Fields → GoString
  | .nil => []
  | .cons key v rest =>
    0x22 :: (e.text key ++ 0x22 :: 0x3A :: 0x20 :: (v.text e ++ (rest.separator ++ rest.text e)))

end

def Json.stringValue : Json → Option GoString
  | .string s => some s
  | _ => none

theorem string_of_stringValue {v : Json} {s : GoString} (h : v.stringValue = some s) :
    v = .string s := by
  cases v with
  | string s' =>
    cases h
    rfl
  | _ => cases h

/-- The key is printed with `"name` at its end: it is `name`, or ends in a quote and `name`. -/
def Escaping.endsInName (e : Escaping) (key : GoString) : Bool :=
  hasSuffix (0x22 :: e.text key) (lit "\"name")

mutual

/-- The first string, in the order of printing, whose key ends in `"name`. -/
def Json.firstName (e : Escaping) : Json → Option GoString
  | .string _ => none
  | .scalar _ => none
  | .array items => items.firstName e
  | .document fields => fields.firstName e

def Items.firstName (e : Escaping) : Items → Option GoString
  | .nil => none
  | .cons v rest => (v.firstName e).or (rest.firstName e)

def Fields.firstName (e : Escaping) : Fields → Option GoString
  | .nil => none
  | .cons key v rest =>
    ((if e.endsInName key then v.stringValue else none).or (v.firstName e)).or (rest.firstName e)

end

section Search

variable (e : Escaping) {rest : GoString}

theorem stops_cons {b : UInt8} (hb : b ∉ nameKey) (rest : GoString) : Stops (b :: rest) := by
  rintro b' rest' ⟨⟩
  exact hb

theorem quotedAfterName_cons {b : UInt8} (hb : b ≠ 0x22) (rest : GoString) :
    quotedAfterName (b :: rest) = quotedAfterName rest := by
  have hclean : Clean [b] := clean_of_no_quote (by simpa using hb.symm)
  exact @quotedAfterName_append_of_clean [b] rest hclean

theorem quotedAfterName_string (s : GoString) (hrest : Stops rest) :
    quotedAfterName ((Json.string s).text e ++ rest) = quotedAfterName rest := by
  have htext : (Json.string s).text e ++ rest = 0x22 :: (e.text s ++ 0x22 :: rest) := by
    simp [Json.text]
  have hskip : after ((Json.string s).text e ++ rest) nameKey = after rest nameKey := by
    refine after_append ?_
    intro u w huw
    rw [htext] at huw
    have hlen := behind_string (e.escaped s) hrest huw
    simp only [Json.text, List.length_cons, List.length_append, List.length_nil]
    omega
  unfold quotedAfterName
  rw [hskip]

theorem exists_string_of_quote {v : Json} {w : GoString} (hrest : Stops rest)
    (h : v.text e ++ rest = 0x22 :: w) : ∃ s, v = .string s := by
  cases v with
  | string s => exact ⟨s, rfl⟩
  | scalar t =>
    exfalso
    cases htext : t.text with
    | nil =>
      rw [Json.text, htext, List.nil_append] at h
      exact hrest _ _ h (by decide)
    | cons b bs =>
      rw [Json.text, htext, List.cons_append] at h
      have hbare := t.bare
      rw [htext, (List.cons.inj h).1] at hbare
      exact hbare rfl
  | array | document =>
    rw [Json.text, List.cons_append] at h
    exact absurd (List.cons.inj h).1 (by decide)

theorem cutByte_quote (t rest : GoString) :
    (cutByte 0x22 (t ++ 0x22 :: rest)).map Prod.fst = some (t.takeWhile (· ≠ 0x22)) := by
  induction t with
  | nil => rfl
  | cons b t ih =>
    by_cases hb : b = 0x22
    · simp [cutByte, hb]
    · simp only [List.cons_append, cutByte, if_neg hb, Option.map_map]
      rw [List.takeWhile_cons, if_pos (by simpa using hb)]
      cases hcut : cutByte 0x22 (t ++ 0x22 :: rest) with
      | none =>
        rw [hcut] at ih
        cases ih
      | some p =>
        rw [hcut] at ih
        exact congrArg _ (congrArg (b :: ·) (Option.some.inj ih))

/-- The key `name` and the quote behind it are the first of their kind in the text of a field. -/
theorem quotedAfterName_named {key s : GoString} (hkey : e.endsInName key = true) :
    quotedAfterName (0x22 :: (e.text key ++ 0x22 :: 0x3A :: 0x20 ::
      ((Json.string s).text e ++ rest))) = some (e.quoted s) := by
  obtain ⟨u, hu⟩ := List.isSuffixOf_iff_suffix.mp hkey
  have htext : 0x22 :: (e.text key ++ 0x22 :: 0x3A :: 0x20 :: ((Json.string s).text e ++ rest)) =
      u ++ nameKey ++ (e.text s ++ 0x22 :: rest) := by
    have hsplit : nameKey = lit "\"name" ++ [0x22, 0x3A, 0x20, 0x22] := by decide
    rw [hsplit, ← List.append_assoc u, hu]
    simp [Json.text]
  have hafter : after (0x22 :: (e.text key ++ 0x22 :: 0x3A :: 0x20 ::
      ((Json.string s).text e ++ rest))) nameKey = some (e.text s ++ 0x22 :: rest) := by
    refine after_of_first nameKey_ne_nil htext ?_
    intro u' w' h'
    have hlen := congrArg List.length hu
    rw [List.length_append, List.length_cons] at hlen
    rcases field_cases (e.escaped key) h' with hfar | ⟨hu', -⟩
    · omega
    · have hlen' := congrArg List.length hu'
      rw [List.length_append, List.length_cons] at hlen'
      omega
  unfold quotedAfterName
  rw [hafter]
  exact cutByte_quote (e.text s) rest

/-- The value of a field is searched, unless the key and its opening quote are found. -/
theorem quotedAfterName_field (key : GoString) (v : Json) (hrest : Stops rest) :
    quotedAfterName (0x22 :: (e.text key ++ 0x22 :: 0x3A :: 0x20 :: (v.text e ++ rest))) =
      ((if e.endsInName key then v.stringValue else none).map e.quoted).or
        (quotedAfterName (v.text e ++ rest)) := by
  by_cases hfound : e.endsInName key = true ∧ ∃ s, v = .string s
  · obtain ⟨hkey, s, rfl⟩ := hfound
    rw [quotedAfterName_named e hkey, if_pos hkey]
    rfl
  · have hnone : (if e.endsInName key then v.stringValue else none) = none := by
      split
      · rename_i hkey
        cases v with
        | string s => exact absurd ⟨hkey, s, rfl⟩ hfound
        | scalar | array | document => rfl
      · rfl
    have hskip : after ((0x22 :: (e.text key ++ [0x22, 0x3A, 0x20])) ++ (v.text e ++ rest)) nameKey =
        after (v.text e ++ rest) nameKey := by
      refine after_append ?_
      intro u w huw
      have huw' : 0x22 :: (e.text key ++ 0x22 :: 0x3A :: 0x20 :: (v.text e ++ rest)) =
          u ++ nameKey ++ w := by
        rw [← huw]
        simp
      rcases field_cases (e.escaped key) huw' with hfar | ⟨hu, hvalue⟩
      · simp only [List.length_cons, List.length_append, List.length_nil]
        omega
      · have hkey : e.endsInName key = true := List.isSuffixOf_iff_suffix.mpr ⟨u, hu⟩
        exact absurd ⟨hkey, exists_string_of_quote e hrest hvalue⟩ hfound
    have htext : 0x22 :: (e.text key ++ 0x22 :: 0x3A :: 0x20 :: (v.text e ++ rest)) =
        (0x22 :: (e.text key ++ [0x22, 0x3A, 0x20])) ++ (v.text e ++ rest) := by simp
    rw [hnone, htext]
    unfold quotedAfterName
    rw [hskip]
    rfl

theorem stops_items (items : Items) (hrest : Stops rest) :
    Stops (items.separator ++ items.text e ++ rest) := by
  cases items with
  | nil => exact hrest
  | cons v items => exact stops_cons (by decide) _

theorem stops_fields (fields : Fields) (hrest : Stops rest) :
    Stops (fields.separator ++ fields.text e ++ rest) := by
  cases fields with
  | nil => exact hrest
  | cons key v fields => exact stops_cons (by decide) _

theorem quotedAfterName_items_separator (items : Items) (text : GoString) :
    quotedAfterName (items.separator ++ text) = quotedAfterName text := by
  cases items with
  | nil => rfl
  | cons v items => exact quotedAfterName_cons (by decide) text

theorem quotedAfterName_fields_separator (fields : Fields) (text : GoString) :
    quotedAfterName (fields.separator ++ text) = quotedAfterName text := by
  cases fields with
  | nil => rfl
  | cons key v fields => exact quotedAfterName_cons (by decide) text

theorem quotedAfterName_brackets {opening closing : UInt8} (hopening : opening ≠ 0x22)
    (hclosing : closing ∉ nameKey) {body : GoString} {found : Option GoString}
    (h : ∀ {rest}, Stops rest → quotedAfterName (body ++ rest) = found.or (quotedAfterName rest))
    (rest : GoString) :
    quotedAfterName (opening :: (body ++ [closing]) ++ rest) = found.or (quotedAfterName rest) := by
  have hquote : closing ≠ 0x22 := by
    rintro rfl
    exact hclosing (by decide)
  rw [List.cons_append, List.append_assoc, quotedAfterName_cons hopening, List.singleton_append,
    h (stops_cons hclosing rest), quotedAfterName_cons hquote]

mutual

theorem quotedAfterName_value (v : Json) {rest : GoString} (hrest : Stops rest) :
    quotedAfterName (v.text e ++ rest) =
      ((v.firstName e).map e.quoted).or (quotedAfterName rest) := by
  match v with
  | .string s => exact quotedAfterName_string e s hrest
  | .scalar t => exact quotedAfterName_append_of_clean t.clean
  | .array items =>
    exact quotedAfterName_brackets (by decide) (by decide) (quotedAfterName_items items) rest
  | .document fields =>
    exact quotedAfterName_brackets (by decide) (by decide) (quotedAfterName_fields fields) rest

theorem quotedAfterName_items (items : Items) {rest : GoString} (hrest : Stops rest) :
    quotedAfterName (items.text e ++ rest) =
      ((items.firstName e).map e.quoted).or (quotedAfterName rest) := by
  match items with
  | .nil => rfl
  | .cons v items =>
    have hstops := stops_items e items hrest
    rw [Items.text, List.append_assoc, quotedAfterName_value v hstops, List.append_assoc,
      quotedAfterName_items_separator, quotedAfterName_items items hrest, Items.firstName, Option.map_or,
      Option.or_assoc]

theorem quotedAfterName_fields (fields : Fields) {rest : GoString} (hrest : Stops rest) :
    quotedAfterName (fields.text e ++ rest) =
      ((fields.firstName e).map e.quoted).or (quotedAfterName rest) := by
  match fields with
  | .nil => rfl
  | .cons key v fields =>
    have hstops := stops_fields e fields hrest
    have htext : (Fields.cons key v fields).text e ++ rest =
        0x22 :: (e.text key ++ 0x22 :: 0x3A :: 0x20 ::
          (v.text e ++ (fields.separator ++ fields.text e ++ rest))) := by
      simp [Fields.text]
    rw [htext, quotedAfterName_field e key v hstops, quotedAfterName_value v hstops,
      List.append_assoc, quotedAfterName_fields_separator, quotedAfterName_fields fields hrest,
      Fields.firstName, Option.map_or, Option.map_or, Option.or_assoc, Option.or_assoc]

end

/-- **The search goes through a printed document, whatever follows it**, and finds the first string
whose key ends in `"name`. -/
theorem quotedAfterName_document (fields : Fields) (rest : GoString) :
    quotedAfterName ((Json.document fields).text e ++ rest) =
      ((fields.firstName e).map e.quoted).or (quotedAfterName rest) :=
  quotedAfterName_brackets (by decide) (by decide) (quotedAfterName_fields e fields) rest

end Search

/-! ## Lookups -/

/-- The value of the first field with the key. -/
def Fields.find : Fields → GoString → Option Json
  | .nil, _ => none
  | .cons key v rest, k => if key = k then some v else rest.find k

/-- The value of a path of keys through embedded documents. -/
def Fields.lookup : Fields → List GoString → Option Json
  | _, [] => none
  | fields, [k] => fields.find k
  | fields, k :: keys =>
    match fields.find k with
    | some (.document sub) => sub.lookup keys
    | _ => none

section Lookup

variable {e : Escaping} {k : GoString} {v : Json}

theorem infix_of_find {fields : Fields} (h : fields.find k = some v) :
    e.text k <:+: fields.text e ∧ v.text e <:+: fields.text e := by
  match fields with
  | .cons key v' rest =>
    rw [Fields.find] at h
    split at h
    · rename_i hkey
      cases h
      subst hkey
      constructor
      · exact ⟨[0x22], 0x22 :: 0x3A :: 0x20 :: (v.text e ++ (rest.separator ++ rest.text e)),
          by simp [Fields.text]⟩
      · exact ⟨0x22 :: (e.text key ++ [0x22, 0x3A, 0x20]), rest.separator ++ rest.text e,
          by simp [Fields.text]⟩
    · obtain ⟨hkey, hvalue⟩ := infix_of_find h
      have hrest : rest.text e <:+: (Fields.cons key v' rest).text e :=
        ⟨0x22 :: (e.text key ++ 0x22 :: 0x3A :: 0x20 :: (v'.text e ++ rest.separator)), [],
          by simp [Fields.text]⟩
      exact ⟨hkey.trans hrest, hvalue.trans hrest⟩

theorem infix_document (e : Escaping) (fields : Fields) :
    fields.text e <:+: (Json.document fields).text e :=
  ⟨[0x7B], [0x7D], by simp [Json.text]⟩

theorem firstName_of_find {fields : Fields} (h : fields.find k = some v)
    (hv : (v.firstName e).isSome ∨ e.endsInName k = true ∧ v.stringValue.isSome) :
    (fields.firstName e).isSome := by
  match fields with
  | .cons key v' rest =>
    rw [Fields.find] at h
    rw [Fields.firstName, Option.isSome_or, Option.isSome_or]
    split at h
    · rename_i hkey
      cases h
      subst hkey
      rcases hv with hv | ⟨hends, hstring⟩
      · simp [hv]
      · simp [hends, hstring]
    · simp [firstName_of_find h hv]

theorem endsInName_name (e : Escaping) : e.endsInName (lit "name") = true := by
  have htext : e.text (lit "name") = lit "name" := e.letters _ (List.all_iff_forall_prop.mp (by decide))
  unfold Escaping.endsInName
  rw [htext]
  decide

end Lookup

/-! ## A driver that prints -/

/-- How a driver prints documents: the fields that it reads, and the escaping. What is not even long
enough for an empty document is printed as nothing. -/
structure Driver.Printing (d : Driver) where
  escaping : Escaping
  fields : Document → Option Fields
  documentString : ∀ doc, d.documentString doc =
    ((fields doc).map fun fs => (Json.document fs).text escaping).getD []

/-- A backslash before quotes and backslashes. -/
def escapeByte (b : UInt8) : GoString := if b = 0x22 ∨ b = 0x5C then [0x5C, b] else [b]

theorem Escaped.append {a b : GoString} (ha : Escaped a) (hb : Escaped b) : Escaped (a ++ b) := by
  intro i hi
  by_cases hlt : i < a.length
  · rw [List.getElem?_append_left hlt] at hi
    obtain ⟨j, rfl, hj⟩ := ha i hi
    exact ⟨j, rfl, by rw [List.getElem?_append_left (by omega)]; exact hj⟩
  · rw [List.getElem?_append_right (by omega)] at hi
    obtain ⟨j, hj, hback⟩ := hb _ hi
    refine ⟨a.length + j, by omega, ?_⟩
    rw [List.getElem?_append_right (by omega), Nat.add_sub_cancel_left]
    exact hback

theorem escaped_escapeByte (b : UInt8) : Escaped (escapeByte b) := by
  unfold escapeByte
  split
  · rintro (_ | _ | i) hi
    · simp at hi
    · exact ⟨0, rfl, rfl⟩
    · simp at hi
  · rename_i hb
    rintro (_ | i) hi
    · exact absurd (Or.inl (Option.some.inj hi)) hb
    · simp at hi

/-- The escaping of `plainPrinting`; control characters stay as they are. -/
def plainEscaping : Escaping where
  text := fun s => s.flatMap escapeByte
  escaped := by
    intro s
    induction s with
    | nil =>
      intro i hi
      simp at hi
    | cons b s ih => exact (escaped_escapeByte b).append ih
  letters := by
    intro s hs
    have hone : ∀ b ∈ s, escapeByte b = [b] := by
      intro b hb
      obtain ⟨hlo, hhi⟩ := hs b hb
      refine if_neg ?_
      rintro (rfl | rfl)
      · exact absurd hlo (by decide)
      · exact absurd hlo (by decide)
    rw [List.flatMap_congr hone, List.flatMap_singleton']

/-- A number with its type. -/
def numberText (type : GoString) (i : Int) : GoString :=
  lit "\x7b\"$number" ++ type ++ lit "\":\"" ++ formatInt i ++ lit "\"\x7d"

/-- A number with its type, a truth value as it is; other values as `null`. -/
def scalarText : Value → GoString
  | .int32 i => numberText (lit "Int") i.toInt
  | .int64 i => numberText (lit "Long") i.toInt
  | .boolean b => if b then lit "true" else lit "false"
  | _ => lit "null"

theorem clean_numberText {type : GoString} (htype : 0x20 ∉ type) (i : Int) :
    Clean (numberText type i) where
  finished := by
    have hbrace : lit "\"\x7d" = [0x22] ++ [0x7D] := by decide
    unfold numberText
    rw [hbrace, ← List.append_assoc]
    exact finished_append (by decide) List.not_mem_nil
  holds := by
    intro h
    have hblank : 0x20 ∈ numberText type i := h.subset (by decide)
    have hdigits : 0x20 ∉ formatInt i := not_mem_formatInt (by decide) (Or.inl (by decide)) i
    simp only [numberText, List.mem_append, htype, hdigits, or_false] at hblank
    revert hblank
    decide

def Scalar.ofValue (v : Value) : Scalar where
  text := scalarText v
  clean := by
    cases v with
    | int32 i => exact clean_numberText (by decide) i.toInt
    | int64 i => exact clean_numberText (by decide) i.toInt
    | boolean b =>
      refine clean_of_no_quote ?_
      cases b <;> decide
    | string | binary | other => exact clean_of_no_quote (show 0x22 ∉ lit "null" by decide)
  bare := by
    cases v with
    | int32 | int64 =>
      intro h
      cases h
    | boolean b => cases b <;> decide
    | string | binary | other => exact show (lit "null").head? ≠ some 0x22 by decide

/-- The values of fields, which is how an array is laid out. -/
def Fields.items : Fields → Items
  | .nil => .nil
  | .cons _ v rest => .cons v rest.items

/-- The fields of a document behind its length. `fuel` bounds the elements and their depth. -/
def Bson.readFields : Nat → Bytes → Fields
  | 0, _ => .nil
  | fuel + 1, src =>
    match src with
    | [] => .nil
    | type :: src =>
      if type = 0 then .nil
      else
        match readCString src with
        | none => .nil
        | some (key, src) =>
          match readValue type src with
          | none => .nil
          | some (v, src) =>
            .cons key
              (match v with
                | .string s => .string s
                | .other type doc =>
                  if type = 0x03 then .document (readFields fuel (doc.drop 4))
                  else if type = 0x04 then .array (readFields fuel (doc.drop 4)).items
                  else .scalar (.ofValue v)
                | v => .scalar (.ofValue v))
              (readFields fuel src)

def Bson.printedFields (doc : Document) : Option Fields :=
  if doc.length < 5 then none else some (Bson.readFields doc.length (doc.drop 4))

/-- The driver that reads BSON and prints it as JSON. -/
def jsonDriver : Driver :=
  { plainDriver with
    documentString := fun doc =>
      ((Bson.printedFields doc).map fun fs => (Json.document fs).text plainEscaping).getD [] }

def jsonPrinting : jsonDriver.Printing where
  escaping := plainEscaping
  fields := Bson.printedFields
  documentString := fun _ => rfl

example : jsonDriver.documentString (Bson.document
    [("isMaster", .int32 1), ("client", Bson.embedded [("name", .string (lit "a\"b"))])]) =
      lit "\x7b\"isMaster\": \x7b\"$numberInt\":\"1\"\x7d," ++
        lit "\"client\": \x7b\"name\": \"a\\\"b\"\x7d\x7d" := by
  decide +kernel

end MongoBouncer
