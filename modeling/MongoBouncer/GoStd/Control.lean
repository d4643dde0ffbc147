import Mathlib.Order.Notation

/-!
# Counted loops that return from the middle

A Go function of the shape `for i := 0; i < n; i++ { … continue … return r … }` followed by a
default return. `forLoop` runs such a body on a state, and `forLoop_rule` is the rule by which one
proves something of the whole loop: an invariant that every `continue` keeps, and what every
`return` establishes from it.
-/

namespace GoStd

variable {σ ρ : Type}

/-- How one iteration ends: `continue` with a state, or `return` of a value. -/
inductive Flow (σ ρ : Type) where
  | next (s : σ)
  | exit (r : ρ) (s : σ)

/-- `n` iterations from index `i`, and the default return after them. -/
def forLoop (body : Nat → σ → Flow σ ρ) (dflt : ρ) : Nat → Nat → σ → ρ × σ
  | 0, _, s => (dflt, s)
  | n + 1, i, s =>
    match body i s with
    | .next s' => forLoop body dflt n (i + 1) s'
    | .exit r s' => (r, s')

section Rules

variable {body : Nat → σ → Flow σ ρ} {dflt : ρ}

theorem forLoop_of_next {n i : Nat} {s s' : σ} (h : body i s = .next s') :
    forLoop body dflt (n + 1) i s = forLoop body dflt n (i + 1) s' := by
  simp only [forLoop, h]

theorem forLoop_of_exit {n i : Nat} {s s' : σ} {r : ρ} (h : body i s = .exit r s') :
    forLoop body dflt (n + 1) i s = (r, s') := by
  simp only [forLoop, h]

/-- `I` of the state that an iteration hands on, `Q` of what it returns. -/
def Flow.Meets (I : σ → Prop) (Q : ρ → σ → Prop) : Flow σ ρ → Prop
  | .next s => I s
  | .exit r s => Q r s

/-- The rule of the loop: `I` before every iteration, `Q` at every return. -/
theorem forLoop_rule {I : Nat → σ → Prop} {Q : ρ → σ → Prop}
    (hstep : ∀ i s, I i s → (body i s).Meets (I (i + 1)) Q) :
    ∀ (n i : Nat) (s : σ), I i s → (∀ s', I (i + n) s' → Q dflt s') →
      Q (forLoop body dflt n i s).1 (forLoop body dflt n i s).2 := by
  intro n
  induction n with
  | zero =>
    intro i s hI hend
    exact hend s hI
  | succ n ih =>
    intro i s hI hend
    have hmeets := hstep i s hI
    cases hb : body i s with
    | next s' =>
      rw [hb] at hmeets
      rw [forLoop_of_next hb]
      refine ih (i + 1) s' hmeets fun t ht => hend t ?_
      rwa [Nat.add_assoc, Nat.add_comm 1 n] at ht
    | exit r s' =>
      rw [hb] at hmeets
      rw [forLoop_of_exit hb]
      exact hmeets

end Rules

end GoStd
