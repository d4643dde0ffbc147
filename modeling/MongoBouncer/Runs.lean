import Mathlib.Data.List.Basic

/-!
# Runs of a labelled system

A system is a relation `R s e s'`: in state `s` the event `e` can happen and leads to `s'`. A run
is a list of events with its first and its last state.

* `Runs R s es s'` : the events `es` lead from `s` to `s'`.

Principal results: `Runs.invariant` and `Runs.invariant_log`, the induction over a run for a
property of the state and for one of the events so far as well; `Runs.append` and `Runs.mono`.
-/

/-- The events `es` lead from `s₀` to the last state. -/
inductive Runs {S E : Type} (R : S → E → S → Prop) (s₀ : S) : List E → S → Prop where
  | start : Runs R s₀ [] s₀
  | step {es : List E} {s s' : S} {e : E} (h : Runs R s₀ es s) (he : R s e s') :
      Runs R s₀ (es ++ [e]) s'

namespace Runs

variable {S E : Type} {R R' : S → E → S → Prop} {s₀ s s' : S} {es es' : List E}

theorem invariant_log {P : List E → S → Prop} (h : Runs R s₀ es s) (h₀ : P [] s₀)
    (hstep : ∀ es s e s', P es s → R s e s' → P (es ++ [e]) s') : P es s := by
  induction h with
  | start => exact h₀
  | step _ he ih => exact hstep _ _ _ _ ih he

theorem invariant {P : S → Prop} (h : Runs R s₀ es s) (h₀ : P s₀)
    (hstep : ∀ s e s', P s → R s e s' → P s') : P s :=
  h.invariant_log (P := fun _ => P) h₀ fun _ s e s' hs he => hstep s e s' hs he

theorem append (h : Runs R s₀ es s) (h' : Runs R s es' s') : Runs R s₀ (es ++ es') s' := by
  induction h' with
  | start => rwa [List.append_nil]
  | step _ he ih =>
    rw [← List.append_assoc]
    exact ih.step he

/-- A run whose events can happen in another system as well. -/
theorem mono (h : Runs R s₀ es s) (hR : ∀ s e s', e ∈ es → R s e s' → R' s e s') :
    Runs R' s₀ es s := by
  induction h with
  | start => exact .start
  | step _ he ih =>
    refine (ih ?_).step (hR _ _ _ (by simp) he)
    intro s e s' hmem
    exact hR s e s' (List.mem_append_left _ hmem)

end Runs
