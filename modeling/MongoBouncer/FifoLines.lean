import Mathlib.Logic.Function.Basic

/-!
# Asking over shared FIFO lines

Askers share lines to peers that answer every question once and in order. Asking and taking the
answer are two steps, and between them other askers may use the line. An asker that takes an answer
gets the oldest one on the line, whoever it is meant for.

* `Lines` : the answers under way on each line, and the line each asker waits on;
* `Lines.Step` : one step of an asker who only asks on a line with no answer under way;
* `Lines.Orderly` : whoever waits on a line waits alone, and the one answer on it is meant for them.

Principal results: `Lines.Orderly.step` and `Lines.Orderly.takes_own`.
-/

/-- Lines `C` shared by askers `K`, with answers `A`. -/
structure Lines (K C A : Type) where
  queue : C → List A
  waiting : K → Option C

namespace Lines

variable {K C A : Type} {meant : K → A → Prop} {l l' : Lines K C A}

/-- Whoever waits on a line waits alone, and the one answer on it is meant for them. -/
structure Orderly (meant : K → A → Prop) (l : Lines K C A) : Prop where
  own : ∀ k c, l.waiting k = some c → ∃ a, l.queue c = [a] ∧ meant k a
  alone : ∀ k k' c, l.waiting k = some c → l.waiting k' = some c → k = k'

theorem orderly_of_idle (h : ∀ k, l.waiting k = none) : Orderly meant l := by
  constructor
  · intro k c hk
    rw [h k] at hk
    cases hk
  · intro k k' c hk
    rw [h k] at hk
    cases hk

theorem Orderly.takes_own (h : Orderly meant l) {k : K} {c : C} {a : A} {rest : List A}
    (hwaiting : l.waiting k = some c) (hqueue : l.queue c = a :: rest) : meant k a := by
  obtain ⟨a', ha', hmeant⟩ := h.own k c hwaiting
  rw [hqueue] at ha'
  cases ha'
  exact hmeant

variable [DecidableEq K]

/-- `k` stops waiting without an answer. -/
def leave (l : Lines K C A) (k : K) : Lines K C A :=
  { l with waiting := Function.update l.waiting k none }

theorem Orderly.leave (h : Orderly meant l) (k : K) : Orderly meant (l.leave k) := by
  have hwait : ∀ k' c, (l.leave k).waiting k' = some c → l.waiting k' = some c := by
    intro k' c hk'
    by_cases hk : k' = k
    · simp [Lines.leave, hk] at hk'
    · simpa [Lines.leave, hk] using hk'
  constructor
  · intro k' c hk'
    exact h.own k' c (hwait k' c hk')
  · intro k₁ k₂ c h₁ h₂
    exact h.alone k₁ k₂ c (hwait k₁ c h₁) (hwait k₂ c h₂)

variable [DecidableEq C]

/-- The question of `k` on line `c` will be answered with `a`. -/
def ask (l : Lines K C A) (k : K) (c : C) (a : A) : Lines K C A :=
  { queue := Function.update l.queue c (l.queue c ++ [a])
    waiting := Function.update l.waiting k (some c) }

/-- `k` stops waiting on line `c`, and the answers `rest` are left on it. -/
def take (l : Lines K C A) (k : K) (c : C) (rest : List A) : Lines K C A :=
  { queue := Function.update l.queue c rest
    waiting := Function.update l.waiting k none }

/-- The steps of orderly askers; `meant k a` says that `a` answers the question of `k`. -/
inductive Step (meant : K → A → Prop) (l : Lines K C A) : Lines K C A → Prop where
  | ask (k : K) (c : C) (a : A) (hmeant : meant k a) (hempty : l.queue c = []) :
      Step meant l (l.ask k c a)
  | take (k : K) (c : C) (a : A) (rest : List A) (hwaiting : l.waiting k = some c)
      (hqueue : l.queue c = a :: rest) : Step meant l (l.take k c rest)
  | leave (k : K) : Step meant l (l.leave k)

theorem Orderly.ask (h : Orderly meant l) {k : K} {c : C} {a : A} (hmeant : meant k a)
    (hempty : l.queue c = []) : Orderly meant (l.ask k c a) := by
  -- nobody waits on a line without answers
  have hnobody : ∀ k', l.waiting k' ≠ some c := by
    intro k' hk'
    obtain ⟨a', ha', -⟩ := h.own k' c hk'
    rw [hempty] at ha'
    cases ha'
  constructor
  · intro k' c' hk'
    by_cases hk : k' = k
    · subst hk
      obtain rfl : c = c' := by simpa [Lines.ask] using hk'
      exact ⟨a, by simp [Lines.ask, hempty], hmeant⟩
    · have hk'' : l.waiting k' = some c' := by simpa [Lines.ask, hk] using hk'
      have hc : c' ≠ c := by
        rintro rfl
        exact hnobody k' hk''
      obtain ⟨a', ha', hm⟩ := h.own k' c' hk''
      exact ⟨a', by simpa [Lines.ask, hc] using ha', hm⟩
  · intro k₁ k₂ c' h₁ h₂
    by_cases hk₁ : k₁ = k
    · subst hk₁
      obtain rfl : c = c' := by simpa [Lines.ask] using h₁
      by_contra hne
      exact hnobody k₂ (by simpa [Lines.ask, Ne.symm hne] using h₂)
    · have h₁' : l.waiting k₁ = some c' := by simpa [Lines.ask, hk₁] using h₁
      by_cases hk₂ : k₂ = k
      · subst hk₂
        obtain rfl : c = c' := by simpa [Lines.ask] using h₂
        exact absurd h₁' (hnobody k₁)
      · exact h.alone k₁ k₂ c' h₁' (by simpa [Lines.ask, hk₂] using h₂)

theorem Orderly.take (h : Orderly meant l) {k : K} {c : C} (hwaiting : l.waiting k = some c)
    (rest : List A) : Orderly meant (l.take k c rest) := by
  have hwait : ∀ k' c', (l.take k c rest).waiting k' = some c' → l.waiting k' = some c' ∧ c' ≠ c := by
    intro k' c' hk'
    by_cases hk : k' = k
    · simp [Lines.take, hk] at hk'
    · have hk'' : l.waiting k' = some c' := by simpa [Lines.take, hk] using hk'
      refine ⟨hk'', ?_⟩
      rintro rfl
      exact hk (h.alone k' k c' hk'' hwaiting)
  constructor
  · intro k' c' hk'
    obtain ⟨hk'', hc⟩ := hwait k' c' hk'
    obtain ⟨a', ha', hm⟩ := h.own k' c' hk''
    exact ⟨a', by simpa [Lines.take, hc] using ha', hm⟩
  · intro k₁ k₂ c' h₁ h₂
    exact h.alone k₁ k₂ c' (hwait k₁ c' h₁).1 (hwait k₂ c' h₂).1

/-- **The steps of orderly askers keep the lines orderly.** -/
theorem Orderly.step (h : Orderly meant l) (hstep : Step meant l l') : Orderly meant l' := by
  cases hstep with
  | ask k c a hmeant hempty => exact h.ask hmeant hempty
  | take k c a rest hwaiting hqueue => exact h.take hwaiting rest
  | leave k => exact h.leave k

end Lines
