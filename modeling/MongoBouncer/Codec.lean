import Mathlib.Data.List.Basic

/-!
# Readers and the formats they read

A reader takes a value off the front of a sequence of symbols and returns what comes after it, or
fails. A format writes a value as symbols.

* `Reads r e p`      : `r` reads back every value with `p` that `e` has written, whatever follows;
* `Consumes r e`     : whatever `r` takes is what `e` writes of the value;
* `Splits r`         : what `r` takes is the front of what it was given;
* `ReadsAll r src as`: reading again and again takes the values `as` off `src` and uses it up.

Principal results: `Reads.all` (values written one after the other are read one after the other)
and `Reads.map`.
-/

namespace Codec

variable {σ α β : Type}

/-- A reader: the value it takes and the symbols after it. -/
abbrev Reader (σ α : Type) : Type := List σ → Option (α × List σ)

/-- The reader undoes the format on the values that meet `p`, and leaves what follows. -/
def Reads (r : Reader σ α) (e : α → List σ) (p : α → Prop) : Prop :=
  ∀ a rest, p a → r (e a ++ rest) = some (a, rest)

/-- What the reader takes is what the format writes of the value. -/
def Consumes (r : Reader σ α) (e : α → List σ) : Prop :=
  ∀ src a rest, r src = some (a, rest) → src = e a ++ rest

/-- A reader of symbols takes the front of what it is given. -/
def Splits (r : Reader σ (List σ)) : Prop :=
  ∀ src a rest, r src = some (a, rest) → src = a ++ rest

/-- Reading again and again takes these values and nothing is left. -/
inductive ReadsAll (r : Reader σ α) : List σ → List α → Prop where
  | nil : ReadsAll r [] []
  | cons {src rest : List σ} {a : α} {as : List α} (head : r src = some (a, rest))
      (tail : ReadsAll r rest as) : ReadsAll r src (a :: as)

variable {r : Reader σ α} {e : α → List σ} {p : α → Prop}

theorem Reads.map (h : Reads r e p) (f : α → β) (g : β → α) (hg : ∀ b, p (g b))
    (hfg : ∀ b, f (g b) = b) :
    Reads (fun src => (r src).map fun s => (f s.1, s.2)) (e ∘ g) fun _ => True := by
  intro b rest _
  show (r (e (g b) ++ rest)).map (fun s => (f s.1, s.2)) = some (b, rest)
  rw [h (g b) rest (hg b), Option.map_some, hfg]

/-- **Values written one after the other are read one after the other.** -/
theorem Reads.all (h : Reads r e p) {as : List α} (has : ∀ a ∈ as, p a) :
    ReadsAll r (as.flatMap e) as := by
  induction as with
  | nil => exact ReadsAll.nil
  | cons a as ih =>
    rw [List.flatMap_cons]
    refine ReadsAll.cons (h a _ (has a List.mem_cons_self)) ?_
    apply ih
    intro b hb
    exact has b (List.mem_cons_of_mem a hb)

end Codec
