import MongoBouncer.GoStd.Strings

/-!
# `base64.StdEncoding.EncodeToString`

The standard base64 encoding with padding. What users of the encoding as a map key rely on is
`encodeToString_injective`: different byte strings have different encodings.
-/

namespace GoStd.Base64

def alphabet : GoString :=
  lit "ABCDEFGHIJKLMNOPQRSTUVWXYZabcdefghijklmnopqrstuvwxyz0123456789+/"

/-- The character of a 6-bit group. -/
def symbol (n : Nat) : UInt8 := alphabet.getD n 0

def pad : UInt8 := 0x3D

def encodeToString : List UInt8 → GoString
  | [] => []
  | [a] => [symbol (a.toNat / 4), symbol (a.toNat % 4 * 16), pad, pad]
  | [a, b] =>
    [symbol (a.toNat / 4), symbol (a.toNat % 4 * 16 + b.toNat / 16),
      symbol (b.toNat % 16 * 4), pad]
  | a :: b :: c :: rest =>
    [symbol (a.toNat / 4), symbol (a.toNat % 4 * 16 + b.toNat / 16),
      symbol (b.toNat % 16 * 4 + c.toNat / 64), symbol (c.toNat % 64)] ++ encodeToString rest

/-- The place of a character in the alphabet. -/
def symbolValue (c : UInt8) : Nat := alphabet.idxOf c

theorem symbolValue_symbol_all : ∀ n, n < 64 → symbolValue (symbol n) = n := by decide +kernel

theorem symbol_inj {m n : Nat} (hm : m < 64) (hn : n < 64) (h : symbol m = symbol n) : m = n := by
  rw [← symbolValue_symbol_all m hm, h, symbolValue_symbol_all n hn]

theorem symbol_ne_pad : ∀ n, n < 64 → symbol n ≠ pad := by decide +kernel

theorem first_byte_eq {a a' : UInt8} {x y : Nat} (hx : x < 16) (hy : y < 16)
    (h1 : symbol (a.toNat / 4) = symbol (a'.toNat / 4))
    (h2 : symbol (a.toNat % 4 * 16 + x) = symbol (a'.toNat % 4 * 16 + y)) :
    a = a' ∧ x = y := by
  have ha := UInt8.toNat_lt a
  have ha' := UInt8.toNat_lt a'
  have e1 := symbol_inj (by omega) (by omega) h1
  have e2 := symbol_inj (by omega) (by omega) h2
  exact ⟨UInt8.toNat_inj.mp (by omega), by omega⟩

theorem second_byte_eq {b b' : UInt8} {x y : Nat} (hx : x < 4) (hy : y < 4)
    (h1 : b.toNat / 16 = b'.toNat / 16)
    (h2 : symbol (b.toNat % 16 * 4 + x) = symbol (b'.toNat % 16 * 4 + y)) :
    b = b' ∧ x = y := by
  have e2 := symbol_inj (by omega) (by omega) h2
  exact ⟨UInt8.toNat_inj.mp (by omega), by omega⟩

theorem encodeToString_injective_aux : ∀ s t : List UInt8,
    encodeToString s = encodeToString t → s = t
  | [], [], _ => rfl
  | [], [_], h => by cases h
  | [], [_, _], h => by cases h
  | [], _ :: _ :: _ :: _, h => by cases h
  | [_], [], h => by cases h
  | [_, _], [], h => by cases h
  | _ :: _ :: _ :: _, [], h => by cases h
  | [a], [a'], h => by
    simp only [encodeToString, List.cons.injEq, and_true] at h
    have := first_byte_eq (x := 0) (y := 0) (by omega) (by omega) h.1 h.2
    rw [this.1]
  | [_], [_, b'], h => by
    simp only [encodeToString, List.cons.injEq, and_true] at h
    exact absurd h.2.2.symm (symbol_ne_pad _ (by omega))
  | [_, b], [_], h => by
    simp only [encodeToString, List.cons.injEq, and_true] at h
    exact absurd h.2.2 (symbol_ne_pad _ (by omega))
  | [_], _ :: b' :: c' :: _, h => by
    have hc := UInt8.toNat_lt c'
    simp only [encodeToString, List.cons_append, List.cons.injEq] at h
    exact absurd h.2.2.1.symm (symbol_ne_pad _ (by omega))
  | _ :: b :: c :: _, [_], h => by
    have hc := UInt8.toNat_lt c
    simp only [encodeToString, List.cons_append, List.cons.injEq] at h
    exact absurd h.2.2.1 (symbol_ne_pad _ (by omega))
  | [_, _], _ :: _ :: c' :: _, h => by
    simp only [encodeToString, List.cons_append, List.cons.injEq] at h
    exact absurd h.2.2.2.1.symm (symbol_ne_pad _ (by omega))
  | _ :: _ :: c :: _, [_, _], h => by
    simp only [encodeToString, List.cons_append, List.cons.injEq] at h
    exact absurd h.2.2.2.1 (symbol_ne_pad _ (by omega))
  | [a, b], [a', b'], h => by
    have hb := UInt8.toNat_lt b
    have hb' := UInt8.toNat_lt b'
    simp only [encodeToString, List.cons.injEq, and_true] at h
    obtain ⟨ha, hx⟩ := first_byte_eq (by omega) (by omega) h.1 h.2.1
    have hbb := second_byte_eq (x := 0) (y := 0) (by omega) (by omega) hx h.2.2
    rw [ha, hbb.1]
  | a :: b :: c :: s, a' :: b' :: c' :: t, h => by
    have hb := UInt8.toNat_lt b
    have hb' := UInt8.toNat_lt b'
    have hc := UInt8.toNat_lt c
    have hc' := UInt8.toNat_lt c'
    simp only [encodeToString, List.cons_append, List.nil_append, List.cons.injEq] at h
    obtain ⟨h1, h2, h3, h4, hrest⟩ := h
    obtain ⟨ha, hx⟩ := first_byte_eq (by omega) (by omega) h1 h2
    obtain ⟨hbb, hy⟩ := second_byte_eq (by omega) (by omega) hx h3
    have hz := symbol_inj (by omega) (by omega) h4
    have hcc : c = c' := UInt8.toNat_inj.mp (by omega)
    rw [ha, hbb, hcc, encodeToString_injective_aux s t hrest]

/-- **Base64 is injective**: a map keyed by encodings distinguishes the byte strings. -/
theorem encodeToString_injective : Function.Injective encodeToString :=
  fun s t h => encodeToString_injective_aux s t h

example : encodeToString (lit "light w") = lit "bGlnaHQgdw==" := by decide

end GoStd.Base64
