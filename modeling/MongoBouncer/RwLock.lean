import Mathlib.Logic.Relation

/-!
# Read-write locks

Calls `T` take locks `L` for reading or for writing. A writer excludes everybody else, a reader
excludes writers, and a writer that waits holds up the readers that come after it.

* `Table`     : which locks each call holds, and which one it asks for;
* `Free`      : the lock can be granted;
* `Waits`     : a call cannot go on before another one does;
* `Deadlock`  : calls that wait for each other in a cycle.

Principal results: `Table.Exclusive.step` (granting only free locks keeps them exclusive) and
`Table.not_deadlock` (calls that wait only for calls of greater weight do not deadlock).
-/

namespace RwLock

/-- How a lock is held. -/
inductive Mode where
  | read
  | write
  deriving DecidableEq, Repr

/-- Two calls cannot hold a lock in these modes at the same time. -/
def Mode.Excludes (m m' : Mode) : Prop := m = .write ∨ m' = .write

instance (m m' : Mode) : Decidable (m.Excludes m') := inferInstanceAs (Decidable (_ ∨ _))

theorem Mode.Excludes.symm {m m' : Mode} (h : m.Excludes m') : m'.Excludes m := Or.symm h

/-- The locks that the calls hold and ask for. -/
structure Table (T L : Type) where
  holds : T → L → Mode → Prop
  wants : T → L → Mode → Prop

namespace Table

variable {T L : Type} {s s' : Table T L}

/-- The lock can be granted in the mode. -/
def Free (s : Table T L) (l : L) (m : Mode) : Prop :=
  ∀ u m', s.holds u l m' → ¬ m.Excludes m'

/-- No two calls hold a lock in modes that exclude each other. -/
def Exclusive (s : Table T L) : Prop :=
  ∀ t u l m m', s.holds t l m → s.holds u l m' → m.Excludes m' → t = u

theorem Exclusive.step (h : s.Exclusive) (t : T)
    (hothers : ∀ u l m, u ≠ t → s'.holds u l m → s.holds u l m)
    (hown : ∀ l m, s'.holds t l m → s.holds t l m ∨ s.Free l m) : s'.Exclusive := by
  have hmixed : ∀ u l m m', u ≠ t → s'.holds t l m → s'.holds u l m' → ¬ m.Excludes m' := by
    intro u l m m' hu ht hu' hex
    rcases hown l m ht with hold | hfree
    · exact hu (h t u l m m' hold (hothers u l m' hu hu') hex).symm
    · exact hfree u m' (hothers u l m' hu hu') hex
  intro a b l m m' ha hb hex
  by_cases hat : a = t
  · by_cases hbt : b = t
    · exact hat.trans hbt.symm
    · subst hat
      exact absurd hex (hmixed b l m m' hbt ha hb)
  · by_cases hbt : b = t
    · subst hbt
      exact absurd hex.symm (hmixed a l m' m hat hb ha)
    · exact h a b l m m' (hothers a l m hat ha) (hothers b l m' hbt hb) hex

/-- `t` waits for `u`: `u` holds the lock that `t` asks for, or asks to write where `t` asks to
read. -/
def Waits (s : Table T L) (t u : T) : Prop :=
  ∃ l m, s.wants t l m ∧
    ((∃ m', s.holds u l m' ∧ m.Excludes m') ∨ (m = .read ∧ s.wants u l .write))

/-- Some calls wait for each other in a cycle. -/
def Deadlock (s : Table T L) : Prop := ∃ t, Relation.TransGen s.Waits t t

theorem lt_of_waits {f : T → Nat}
    (hf : ∀ t u l m, s.Waits t u → s.wants u l m → f t < f u) {t u : T}
    (h : Relation.TransGen s.Waits t u) {l : L} {m : Mode} (hu : s.wants u l m) : f t < f u := by
  induction h generalizing l m with
  | single h => exact hf _ _ l m h hu
  | tail _ h ih =>
    obtain ⟨l', m', hwants, -⟩ := id h
    exact Nat.lt_trans (ih hwants) (hf _ _ l m h hu)

/-- **Calls that wait only for calls of greater weight do not deadlock.** Of the calls that are
waited for, only those that wait themselves need a weight. -/
theorem not_deadlock (f : T → Nat)
    (hf : ∀ t u l m, s.Waits t u → s.wants u l m → f t < f u) : ¬ s.Deadlock := by
  rintro ⟨t, h⟩
  obtain ⟨u, ⟨l, m, hwants, -⟩, -⟩ := Relation.TransGen.head'_iff.mp h
  exact absurd (lt_of_waits hf h hwants) (Nat.lt_irrefl _)

end Table

end RwLock
