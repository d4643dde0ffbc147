import Mathlib.Data.List.Infix
import MongoBouncer.Runs

/-!
# The background gauge

`BackgroundGauge` of `util/metrics.go` hands out two callbacks, which send to two channels of a
hundred places; a message that finds its channel full is dropped. A goroutine takes the messages out
in any order and counts, but not below zero.

* `State`  : the messages in the channels, the counter, and the gauge;
* `Event`  : what happened, and whether it had its effect;
* `Turn`   : one step;
* `lostIncrements`, `lostDecrements` : the messages without effect.

Principal result: `counter_exact_iff`. Once the channels are empty the counter is the number of
increments less that of decrements, exactly when as many decrements were taken at zero as increments
at the largest number that the counter can step from.
-/

namespace MongoBouncer

namespace BackgroundGauge

/-- The capacity of the channels. -/
def capacity : Nat := 100

/-- The messages in the channels, which are all alike; the counter; and the gauge. -/
structure State where
  inc : Nat
  dec : Nat
  count : Nat
  gauge : Nat
  deriving DecidableEq, Repr

/-- The goroutine before its first message. -/
def State.start : State := { inc := 0, dec := 0, count := 0, gauge := 0 }

/-- What happened. A call has no effect if the channel is full, a message that is taken has none if
the counter stays. -/
inductive Event where
  | increment (sent : Bool)
  | decrement (sent : Bool)
  | takeInc (counted : Bool)
  | takeDec (counted : Bool)
  | tick (value : Nat)
  deriving DecidableEq, Repr

/-- A send that does not wait. -/
def send (pending : Nat) : Nat := if pending < capacity then pending + 1 else pending

/-- The natural numbers up to here, `2^53`, are numbers of a `float64`, and one more is not. -/
def floatLimit : Nat := 9007199254740992

/-- `count++` on a `float64`: at the limit the sum is rounded to the limit. -/
def succ (count : Nat) : Nat := if count < floatLimit then count + 1 else count

/-- `if count > 0 { count-- }`. -/
def pred (count : Nat) : Nat := if 0 < count then count - 1 else count

/-- One step of a caller or of the goroutine. The counter is the goroutine's own, so taking a
message and counting it is one step. -/
inductive Turn : State → Event → State → Prop where
  | increment (s : State) :
      Turn s (.increment (decide (s.inc < capacity))) { s with inc := send s.inc }
  | decrement (s : State) :
      Turn s (.decrement (decide (s.dec < capacity))) { s with dec := send s.dec }
  | takeInc (s : State) (h : 0 < s.inc) :
      Turn s (.takeInc (decide (s.count < floatLimit)))
        { s with inc := s.inc - 1, count := succ s.count }
  | takeDec (s : State) (h : 0 < s.dec) :
      Turn s (.takeDec (decide (0 < s.count))) { s with dec := s.dec - 1, count := pred s.count }
  | tick (s : State) : Turn s (.tick s.count) { s with gauge := s.count }

/-- The number of calls of `increment`. -/
def increments (es : List Event) : Nat := es.count (.increment true) + es.count (.increment false)

/-- The number of calls of `decrement`. -/
def decrements (es : List Event) : Nat := es.count (.decrement true) + es.count (.decrement false)

/-- Increments that were dropped or did not move the counter. -/
def lostIncrements (es : List Event) : Nat :=
  es.count (.increment false) + es.count (.takeInc false)

/-- Decrements that were dropped or did not move the counter. -/
def lostDecrements (es : List Event) : Nat :=
  es.count (.decrement false) + es.count (.takeDec false)

/-- The counter and the channels against the calls. -/
structure Counted (es : List Event) (s : State) : Prop where
  count : (s.count : Int) + s.inc + lostIncrements es + decrements es =
    increments es + s.dec + lostDecrements es
  bound : s.count + s.inc ≤ increments es
  pending : s.inc + s.dec ≤ es.length

variable {s s' : State} {es : List Event} {e : Event}

theorem counted_start : Counted [] .start := ⟨rfl, Nat.le_refl _, Nat.le_refl _⟩

theorem Counted.turn (h : Counted es s) (hturn : Turn s e s') : Counted (es ++ [e]) s' := by
  obtain ⟨hcount, hbound, hpending⟩ := h
  simp only [increments, decrements, lostIncrements, lostDecrements] at hcount hbound
  cases hturn with
  | increment =>
    by_cases hroom : s.inc < capacity <;> constructor <;>
      simp [increments, decrements, lostIncrements, lostDecrements, send, hroom] <;> omega
  | decrement =>
    by_cases hroom : s.dec < capacity <;> constructor <;>
      simp [increments, decrements, lostIncrements, lostDecrements, send, hroom] <;> omega
  | takeInc hready =>
    by_cases hlimit : s.count < floatLimit <;> constructor <;>
      simp [increments, decrements, lostIncrements, lostDecrements, succ, hlimit] <;> omega
  | takeDec hready =>
    by_cases hpos : 0 < s.count <;> constructor <;>
      simp [increments, decrements, lostIncrements, lostDecrements, pred, hpos] <;> omega
  | tick =>
    constructor <;> simp [increments, decrements, lostIncrements, lostDecrements] <;> omega

theorem counted_of_runs (h : Runs Turn .start es s) : Counted es s :=
  h.invariant_log counted_start fun _ _ _ _ hs hturn => hs.turn hturn

theorem counter_eq (h : Runs Turn .start es s) (hinc : s.inc = 0) (hdec : s.dec = 0) :
    (s.count : Int) = increments es - decrements es + (lostDecrements es - lostIncrements es) := by
  have hcount := (counted_of_runs h).count
  omega

/-- At no moment of the run is a channel full. -/
def NeverFull (es : List Event) : Prop :=
  ∀ es' s', es' <+: es → Runs Turn .start es' s' → s'.inc < capacity ∧ s'.dec < capacity

theorem not_dropped (h : Runs Turn .start es s) (hfull : NeverFull es) :
    es.count (.increment false) = 0 ∧ es.count (.decrement false) = 0 := by
  induction h with
  | start => exact ⟨rfl, rfl⟩
  | @step es s s' e hrun hturn ih =>
    obtain ⟨hinc, hdec⟩ := ih fun es' s' hes' => hfull es' s' (hes'.trans (List.prefix_append ..))
    obtain ⟨hroomInc, hroomDec⟩ := hfull es s (List.prefix_append ..) hrun
    have hsent : e ≠ .increment false ∧ e ≠ .decrement false := by
      cases hturn <;> simp [hroomInc, hroomDec]
    simp [hinc, hdec, hsent.1, hsent.2]

theorem counter_eq_of_neverFull (h : Runs Turn .start es s) (hfull : NeverFull es)
    (hinc : s.inc = 0) (hdec : s.dec = 0) :
    (s.count : Int) = increments es - decrements es +
      (es.count (.takeDec false) - es.count (.takeInc false)) := by
  have hcount := counter_eq h hinc hdec
  obtain ⟨hdropInc, hdropDec⟩ := not_dropped h hfull
  simp only [lostIncrements, lostDecrements, hdropInc, hdropDec] at hcount
  omega

/-- **Whenever the channels are empty the counter is the number of increments less that of
decrements, exactly when as many decrements were taken at zero as increments at the limit.** -/
theorem counter_exact_iff (h : Runs Turn .start es s) (hfull : NeverFull es) (hinc : s.inc = 0)
    (hdec : s.dec = 0) :
    (s.count : Int) = increments es - decrements es ↔
      es.count (.takeDec false) = es.count (.takeInc false) := by
  have hcount := counter_eq_of_neverFull h hfull hinc hdec
  omega

/-- With no more increments than a `float64` can count, each one that is taken is counted. -/
theorem takeInc_counted (h : Runs Turn .start es s) (hfew : increments es ≤ floatLimit) :
    es.count (.takeInc false) = 0 := by
  induction h with
  | start => rfl
  | @step es s s' e hrun hturn ih =>
    have hmore : increments es ≤ increments (es ++ [e]) := by
      simp only [increments, List.count_append]
      omega
    have hbound := (counted_of_runs hrun).bound
    have hcounted : e ≠ .takeInc false := by
      cases hturn with
      | takeInc hready =>
        have hlimit : s.count < floatLimit := by omega
        simp [hlimit]
      | _ => simp
    simp [ih (by omega), hcounted]

/-- For such runs the counter is right exactly when no decrement was taken at zero. -/
theorem counter_exact_iff_of_few (h : Runs Turn .start es s) (hfull : NeverFull es)
    (hinc : s.inc = 0) (hdec : s.dec = 0) (hfew : increments es ≤ floatLimit) :
    (s.count : Int) = increments es - decrements es ↔ .takeDec false ∉ es := by
  have hcount := counter_eq_of_neverFull h hfull hinc hdec
  have hcounted := takeInc_counted h hfew
  rw [← List.count_eq_zero]
  omega

theorem neverFull_of_length (h : es.length < capacity) : NeverFull es := by
  intro es' s' hes' hrun
  have hpending := (counted_of_runs hrun).pending
  have hlen := hes'.length_le
  omega

/-- A connection that is opened and closed, with its messages taken in this order. -/
def orderly : List Event :=
  [.increment true, .takeInc true, .decrement true, .takeDec true, .tick 0]

theorem runs_orderly : Runs Turn .start orderly .start :=
  ((((Runs.start.step (.increment _)).step (.takeInc _ (by decide))).step (.decrement _)).step
    (.takeDec _ (by decide))).step (.tick _)

theorem counter_exact_iff_orderly : ((0 : Nat) : Int) = increments orderly - decrements orderly :=
  (counter_exact_iff runs_orderly (neverFull_of_length (by decide)) rfl rfl).mpr (by decide)

theorem counter_exact_iff_of_few_orderly :
    ((0 : Nat) : Int) = increments orderly - decrements orderly ↔ .takeDec false ∉ orderly :=
  counter_exact_iff_of_few runs_orderly (neverFull_of_length (by decide)) rfl rfl (by decide)

/-- A short connection: both messages are pending together, and the second is taken first. -/
def overtaken : List Event :=
  [.increment true, .decrement true, .takeDec false, .takeInc true, .tick 1]

/-- The connection is closed, and the gauge shows one open connection from then on. -/
theorem overtaken_drifts :
    ∃ s, Runs Turn .start overtaken s ∧ NeverFull overtaken ∧
      (∀ es', es' <+: overtaken → decrements es' ≤ increments es') ∧ s.inc = 0 ∧ s.dec = 0 ∧
      increments overtaken = 1 ∧ decrements overtaken = 1 ∧ s.count = 1 ∧ s.gauge = 1 := by
  have hrun : Runs Turn .start overtaken { inc := 0, dec := 0, count := 1, gauge := 1 } :=
    ((((Runs.start.step (.increment _)).step (.decrement _)).step (.takeDec _ (by decide))).step
      (.takeInc _ (by decide))).step (.tick _)
  have hcalls : ∀ es' ∈ overtaken.inits, decrements es' ≤ increments es' := by decide
  refine ⟨_, hrun, neverFull_of_length (by decide), ?_, rfl, rfl, rfl, rfl, rfl, rfl⟩
  intro es' hes'
  exact hcalls es' ((List.mem_inits _ _).mpr hes')

end BackgroundGauge

end MongoBouncer
