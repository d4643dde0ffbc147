import MongoBouncer.GoStd.Slice
import MongoBouncer.GoStd.Strings
import MongoBouncer.Runs
import Mathlib.Logic.Function.Basic

/-!
# Batches of metrics

`BatchedMetricsClient` of `util/batched_metrics.go` keeps four batches under one mutex. A recording
is appended to the batch of its kind, which is flushed once it is full; all are flushed by a
goroutine on every tick, by `Flush`, and at the end by `Close`. A flush hands the operations to the
underlying client one by one, and then cuts the batch back to nothing, with its array kept.

* `Kind`, `Recording` : the four kinds of operations and their data;
* `Instr`             : the statements that are executed under the mutex;
* `State`, `Turn`     : the client with the holder of the mutex, and one step of a goroutine;
* `recorded`          : the operations of a kind that were called for, in the order in which the calls
  got the mutex;
* `undelivered`       : what is still to be delivered of a kind, also in the middle of a call or a flush.

Principal result: `batching_exact`. After `Close` the underlying client has received, for each kind,
the operations that the recording methods were called with, in their order; and `Close` can always
return.
-/

namespace MongoBouncer

namespace Batching

open GoStd Function

/-! ## Operations -/

/-- The bits of a `float64`, with which nothing is computed here. -/
abbrev Float64 := UInt64

structure TimingOperation where
  name : GoString
  duration : Int
  tags : List GoString
  rate : Float64
  deriving DecidableEq, Repr

structure CounterOperation where
  name : GoString
  tags : List GoString
  rate : Float64
  deriving DecidableEq, Repr

structure GaugeOperation where
  name : GoString
  value : Float64
  tags : List GoString
  rate : Float64
  deriving DecidableEq, Repr

structure DistributionOperation where
  name : GoString
  value : Float64
  tags : List GoString
  rate : Float64
  deriving DecidableEq, Repr

/-- The four batches. -/
inductive Kind where
  | timing
  | counter
  | gauge
  | distribution
  deriving DecidableEq, Repr

/-- The operations of a batch. -/
def Recording : Kind → Type
  | .timing => TimingOperation
  | .counter => CounterOperation
  | .gauge => GaugeOperation
  | .distribution => DistributionOperation

/-! ## Statements under the mutex -/

/-- A statement of a goroutine that holds the mutex. The last two are inside of a flush: the loop
over the batch at an index, and the cut that follows it. -/
inductive Instr where
  | append (k : Kind) (op : Recording k)
  | flushIfFull (k : Kind)
  | flush (k : Kind)
  | deliver (k : Kind) (i : Nat)
  | reset (k : Kind)

/-- The body of the four recording methods. -/
def record (k : Kind) (op : Recording k) : List Instr := [.append k op, .flushIfFull k]

def flushTimingBatch : Instr := .flush .timing

def flushCounterBatch : Instr := .flush .counter

def flushGaugeBatch : Instr := .flush .gauge

def flushDistributionBatch : Instr := .flush .distribution

def flushAllBatches : List Instr :=
  [flushTimingBatch, flushCounterBatch, flushGaugeBatch, flushDistributionBatch]

/-- A call of one of the recording methods. -/
inductive Call where
  | timing (name : GoString) (duration : Int) (tags : List GoString) (rate : Float64)
  | incr (name : GoString) (tags : List GoString) (rate : Float64)
  | gauge (name : GoString) (value : Float64) (tags : List GoString) (rate : Float64)
  | distribution (name : GoString) (value : Float64) (tags : List GoString) (rate : Float64)

def Call.body : Call → List Instr
  | .timing name duration tags rate =>
    record .timing (TimingOperation.mk name duration tags rate)
  | .incr name tags rate => record .counter (CounterOperation.mk name tags rate)
  | .gauge name value tags rate => record .gauge (GaugeOperation.mk name value tags rate)
  | .distribution name value tags rate =>
    record .distribution (DistributionOperation.mk name value tags rate)

/-- The operation that a call asks to record: its arguments. -/
def Call.operation : Call → Σ k, Recording k
  | .timing name duration tags rate => ⟨.timing, TimingOperation.mk name duration tags rate⟩
  | .incr name tags rate => ⟨.counter, CounterOperation.mk name tags rate⟩
  | .gauge name value tags rate => ⟨.gauge, GaugeOperation.mk name value tags rate⟩
  | .distribution name value tags rate =>
    ⟨.distribution, DistributionOperation.mk name value tags rate⟩

/-! ## The client -/

/-- Who holds the mutex. -/
inductive Owner where
  | caller
  | flushLoop
  | closer
  deriving DecidableEq, Repr

/-- How far `Close` is: not called, waiting for the goroutine or flushing, returned. -/
inductive Closing where
  | unclosed
  | waiting
  | closed
  deriving DecidableEq, Repr

/-- The batches, the calls that the underlying client has received, the holder of the mutex with the
statements that it still executes, and the two ends of the goroutine that flushes. -/
structure State where
  batch : (k : Kind) → Slice (Recording k)
  received : (k : Kind) → List (Recording k)
  holder : Option (Owner × List Instr)
  closing : Closing
  loopReturned : Bool

/-- `NewBatchedMetricsClient`. -/
def State.start (batchSize : Nat) : State :=
  { batch := fun _ => .make batchSize
    received := fun _ => []
    holder := none
    closing := .unclosed
    loopReturned := false }

/-- The holder of the mutex executes a statement, with others to follow. -/
def State.exec (batchSize : Nat) (s : State) (owner : Owner) (rest : List Instr) : Instr → State
  | .append k op =>
    { s with
      batch := update s.batch k ((s.batch k).append op)
      holder := some (owner, rest) }
  | .flushIfFull k =>
    { s with holder := some (owner,
        if batchSize ≤ (s.batch k).len then .flush k :: rest else rest) }
  | .flush k =>
    { s with holder := some (owner, if (s.batch k).len = 0 then rest else .deliver k 0 :: rest) }
  | .deliver k i =>
    match (s.batch k).get? i with
    | some op =>
      { s with
        received := update s.received k (s.received k ++ [op])
        holder := some (owner, .deliver k (i + 1) :: rest) }
    | none => { s with holder := some (owner, .reset k :: rest) }
  | .reset k =>
    { s with
      batch := update s.batch k (s.batch k).truncate
      holder := some (owner, rest) }

/-- One step, with the recording method that is called in it. A call counts from when it has the
mutex. -/
inductive Turn (batchSize : Nat) : State → Option Call → State → Prop where
  | call {s : State} (c : Call) (hclosing : s.closing = .unclosed) (hfree : s.holder = none) :
      Turn batchSize s (some c) { s with holder := some (.caller, c.body) }
  | flush {s : State} (hfree : s.holder = none) :
      Turn batchSize s none { s with holder := some (.caller, flushAllBatches) }
  -- the ticker may win over the cancelled context
  | tick {s : State} (hloop : s.loopReturned = false) (hfree : s.holder = none) :
      Turn batchSize s none { s with holder := some (.flushLoop, flushAllBatches) }
  | work {s : State} {owner : Owner} {i : Instr} {rest : List Instr}
      (hholder : s.holder = some (owner, i :: rest)) :
      Turn batchSize s none (s.exec batchSize owner rest i)
  | release {s : State} {owner : Owner} (hholder : s.holder = some (owner, [])) :
      Turn batchSize s none { s with
        holder := none
        closing := if owner = .closer then .closed else s.closing }
  | close {s : State} (hclosing : s.closing = .unclosed) :
      Turn batchSize s none { s with closing := .waiting }
  | loopReturn {s : State} (hcancelled : s.closing ≠ .unclosed)
      (hholder : ∀ rest, s.holder ≠ some (.flushLoop, rest)) :
      Turn batchSize s none { s with loopReturned := true }
  | closeFlush {s : State} (hclosing : s.closing = .waiting) (hloop : s.loopReturned = true)
      (hfree : s.holder = none) :
      Turn batchSize s none { s with holder := some (.closer, flushAllBatches) }

/-- An operation, if it is of this kind. -/
def ofKind (k : Kind) : (Σ k, Recording k) → Option (Recording k)
  | ⟨k', op⟩ => if h : k' = k then some (h ▸ op) else none

/-- The operations of a kind that the calls of a run ask to record. -/
def recorded (k : Kind) (es : List (Option Call)) : List (Recording k) :=
  es.filterMap fun e => e.bind fun c => ofKind k c.operation

/-- What is to be delivered of a batch with a statement about to be executed: a call has an operation
to add, the loop of a flush has delivered the operations before its index, and before the cut all of
them. -/
def Instr.left (k : Kind) (ops : List (Recording k)) : Instr → List (Recording k)
  | .append k' op => ops ++ (ofKind k ⟨k', op⟩).toList
  | .deliver k' i => if k' = k then ops.drop i else ops
  | .reset k' => if k' = k then [] else ops
  | _ => ops

/-- What the underlying client has not received of a batch. -/
def State.undelivered (s : State) (k : Kind) : List (Recording k) :=
  match s.holder with
  | some (_, i :: _) => i.left k (s.batch k).toList
  | _ => (s.batch k).toList

/-- The statements that can follow another one: not the beginning of a call, and not the inside of a
flush. -/
def Instr.isEntry : Instr → Bool
  | .append _ _ => false
  | .deliver _ _ => false
  | .reset _ => false
  | _ => true

/-- The statements that empty a batch. -/
def Instr.flushes (k : Kind) : Instr → Bool
  | .flush k' => k' = k
  | .deliver k' _ => k' = k
  | .reset k' => k' = k
  | _ => false

/-! ## Nothing is lost -/

section Exact

variable {batchSize : Nat} {s s' : State} {es : List (Option Call)} {e : Option Call}
  {owner : Owner} {i : Instr} {rest task : List Instr} {k : Kind}

@[simp] theorem recorded_append (k : Kind) (es es' : List (Option Call)) :
    recorded k (es ++ es') = recorded k es ++ recorded k es' := by
  simp [recorded]

@[simp] theorem recorded_none (k : Kind) : recorded k [none] = [] := rfl

theorem recorded_call (k : Kind) (c : Call) :
    recorded k [some c] = (ofKind k c.operation).toList := by
  unfold recorded
  cases h : ofKind k c.operation <;> simp [h]

theorem Call.body_eq (c : Call) :
    c.body = [.append c.operation.1 c.operation.2, .flushIfFull c.operation.1] := by
  cases c <;> rfl

theorem Instr.left_of_isEntry (h : i.isEntry = true) (ops : List (Recording k)) :
    i.left k ops = ops := by
  cases i <;> first | rfl | cases h

theorem undelivered_of_free (h : s.holder = none) (k : Kind) :
    s.undelivered k = (s.batch k).toList := by
  simp [State.undelivered, h]

theorem undelivered_of_entries (h : s.holder = some (owner, task))
    (hentries : ∀ j ∈ task, j.isEntry = true) (k : Kind) :
    s.undelivered k = (s.batch k).toList := by
  cases task with
  | nil => simp [State.undelivered, h]
  | cons j task =>
    simp only [State.undelivered, h]
    exact Instr.left_of_isEntry (hentries j (List.mem_cons_self ..)) _

theorem undelivered_of_cons (h : s.holder = some (owner, i :: rest)) (k : Kind) :
    s.undelivered k = i.left k (s.batch k).toList := by
  simp [State.undelivered, h]

/-- Nothing is lost or duplicated at any moment: what the underlying client has received, and what
is still to be delivered, is what the calls asked for. The beginning of a call and the inside of a
flush are only ever the next thing to be done. -/
structure Batched (es : List (Option Call)) (s : State) : Prop where
  exact : ∀ k, s.received k ++ s.undelivered k = recorded k es
  entries : ∀ owner i rest, s.holder = some (owner, i :: rest) → ∀ j ∈ rest, j.isEntry = true

theorem Batched.of_entries {es' : List (Option Call)}
    (hholder : s.holder = some (owner, task)) (hentries : ∀ j ∈ task, j.isEntry = true)
    (hexact : ∀ k, s.received k ++ (s.batch k).toList = recorded k es') : Batched es' s := by
  refine ⟨?_, ?_⟩
  · intro k
    rw [undelivered_of_entries hholder hentries]
    exact hexact k
  · intro owner' i rest heq j hj
    rw [hholder] at heq
    cases heq
    exact hentries j (List.mem_cons_of_mem _ hj)

theorem Batched.of_cons {es' : List (Option Call)}
    (hholder : s.holder = some (owner, i :: rest)) (hentries : ∀ j ∈ rest, j.isEntry = true)
    (hexact : ∀ k, s.received k ++ i.left k (s.batch k).toList = recorded k es') :
    Batched es' s := by
  refine ⟨?_, ?_⟩
  · intro k
    rw [undelivered_of_cons hholder]
    exact hexact k
  · intro owner' i' rest' heq j hj
    rw [hholder] at heq
    cases heq
    exact hentries j hj

theorem Batched.acquire (h : Batched es s) (hfree : s.holder = none)
    (hentries : ∀ j ∈ task, j.isEntry = true) :
    Batched (es ++ [none]) { s with holder := some (owner, task) } := by
  refine .of_entries rfl hentries fun k => ?_
  simpa [undelivered_of_free hfree] using h.exact k

theorem Batched.call (h : Batched es s) (hfree : s.holder = none) (c : Call) :
    Batched (es ++ [some c]) { s with holder := some (.caller, c.body) } := by
  refine .of_cons (by rw [c.body_eq]) (by simp [Instr.isEntry]) fun k => ?_
  have hk := h.exact k
  rw [undelivered_of_free hfree] at hk
  rw [recorded_append, recorded_call, ← hk, List.append_assoc]
  rfl

theorem exec_flush_empty {k : Kind} (h : (s.batch k).len = 0) :
    s.exec batchSize owner rest (.flush k) = { s with holder := some (owner, rest) } := by
  simp [State.exec, h]

theorem exec_flush {k : Kind} (h : (s.batch k).len ≠ 0) : s.exec batchSize owner rest (.flush k) =
      { s with holder := some (owner, .deliver k 0 :: rest) } := by
  simp [State.exec, h]

theorem exec_deliver_none {k : Kind} {n : Nat} (h : (s.batch k).get? n = none) :
    s.exec batchSize owner rest (.deliver k n) =
      { s with holder := some (owner, .reset k :: rest) } := by
  simp [State.exec, h]

theorem exec_deliver_some {k : Kind} {n : Nat} {op : Recording k}
    (h : (s.batch k).get? n = some op) :
    s.exec batchSize owner rest (.deliver k n) =
      { s with
        received := update s.received k (s.received k ++ [op])
        holder := some (owner, .deliver k (n + 1) :: rest) } := by
  simp [State.exec, h]

theorem Batched.work (h : Batched es s) (hholder : s.holder = some (owner, i :: rest)) :
    Batched (es ++ [none]) (s.exec batchSize owner rest i) := by
  have hentries := h.entries owner i rest hholder
  have hleft : ∀ k, s.received k ++ i.left k (s.batch k).toList = recorded k es := by
    intro k
    rw [← undelivered_of_cons hholder]
    exact h.exact k
  cases i with
  | append k' op =>
    refine .of_entries rfl hentries fun k => ?_
    by_cases hk : k' = k
    · subst hk
      simp [State.exec, ← hleft, Instr.left, ofKind]
    · have hk' : k ≠ k' := fun heq => hk heq.symm
      simp [State.exec, hk, hk', ← hleft, Instr.left, ofKind]
  | flushIfFull k' =>
    have hnext : ∀ j ∈ (if batchSize ≤ (s.batch k').len then .flush k' :: rest else rest),
        j.isEntry = true := by
      split
      · intro j hj
        rcases List.mem_cons.mp hj with rfl | hj
        · rfl
        · exact hentries j hj
      · exact hentries
    refine .of_entries rfl hnext fun k => ?_
    simpa [State.exec, Instr.left] using hleft k
  | flush k' =>
    by_cases hempty : (s.batch k').len = 0
    · rw [exec_flush_empty hempty]
      refine .of_entries rfl hentries fun k => ?_
      simpa [Instr.left] using hleft k
    · rw [exec_flush hempty]
      refine .of_cons rfl hentries fun k => ?_
      simpa [Instr.left] using hleft k
  | deliver k' n =>
    cases hget : (s.batch k').get? n with
    | none =>
      rw [exec_deliver_none hget]
      refine .of_cons rfl hentries fun k => ?_
      -- the loop has come to the end of the batch
      rw [Slice.get?_eq, List.getElem?_eq_none_iff] at hget
      have hk := hleft k
      by_cases heq : k' = k
      · subst heq
        simpa [Instr.left, List.drop_eq_nil_of_le hget] using hk
      · simpa [Instr.left, heq] using hk
    | some op =>
      rw [exec_deliver_some hget]
      refine .of_cons rfl hentries fun k => ?_
      rw [Slice.get?_eq, List.getElem?_eq_some_iff] at hget
      obtain ⟨hn, hop⟩ := hget
      have hk := hleft k
      by_cases heq : k' = k
      · subst heq
        have hdrop := List.drop_eq_getElem_cons hn
        rw [hop] at hdrop
        simpa [Instr.left, hdrop] using hk
      · have heq' : k ≠ k' := fun h => heq h.symm
        simpa [Instr.left, heq, heq'] using hk
  | reset k' =>
    refine .of_entries rfl hentries fun k => ?_
    have hk := hleft k
    by_cases heq : k' = k
    · subst heq
      simpa [State.exec, Instr.left] using hk
    · have heq' : k ≠ k' := fun h => heq h.symm
      simpa [State.exec, Instr.left, heq, heq'] using hk

theorem flushAllBatches_isEntry : ∀ j ∈ flushAllBatches, j.isEntry = true := by
  intro j hj
  simp only [flushAllBatches, List.mem_cons, List.not_mem_nil, or_false] at hj
  rcases hj with rfl | rfl | rfl | rfl <;> rfl

theorem Batched.idle (h : Batched es s) (hbatch : s'.batch = s.batch)
    (hreceived : s'.received = s.received) (hholder : s'.holder = s.holder) :
    Batched (es ++ [none]) s' := by
  refine ⟨?_, ?_⟩
  · intro k
    have hk := h.exact k
    simp only [State.undelivered, hbatch, hreceived, hholder] at hk ⊢
    simpa using hk
  · rw [hholder]
    exact h.entries

theorem Batched.turn (h : Batched es s) (hturn : Turn batchSize s e s') :
    Batched (es ++ [e]) s' := by
  cases hturn with
  | call c hclosing hfree => exact h.call hfree c
  | flush hfree | tick _ hfree | closeFlush _ _ hfree =>
    exact h.acquire hfree flushAllBatches_isEntry
  | work hholder => exact h.work hholder
  | release hholder =>
    refine ⟨?_, ?_⟩
    · intro k
      have hk := h.exact k
      simp only [State.undelivered, hholder] at hk ⊢
      simpa using hk
    · intro owner i rest heq
      cases heq
  | close | loopReturn => exact h.idle rfl rfl rfl

end Exact

/-! ## `Close` empties the batches -/

section Close

variable {batchSize : Nat} {s s' : State} {es : List (Option Call)} {e : Option Call}
  {owner : Owner} {i : Instr} {rest task : List Instr} {k : Kind}

/-- The statements record nothing. -/
def Silent (task : List Instr) : Prop := ∀ i ∈ task, ∀ k op, i ≠ .append k op

/-- Each batch is empty or will be emptied by the statements. -/
def Empties (s : State) (task : List Instr) : Prop :=
  ∀ k, (s.batch k).toList = [] ∨ ∃ i ∈ task, i.flushes k = true

/-- While `Close` flushes, and after it has returned, nothing is recorded. -/
structure Flushed (s : State) : Prop where
  flushing : ∀ task, s.holder = some (.closer, task) → Silent task ∧ Empties s task
  closed : s.closing = .closed → (∀ k, (s.batch k).toList = []) ∧
    ∀ owner task, s.holder = some (owner, task) → Silent task

theorem silent_flushAllBatches : Silent flushAllBatches := by
  intro i hi
  simp only [flushAllBatches, List.mem_cons, List.not_mem_nil, or_false] at hi
  rcases hi with rfl | rfl | rfl | rfl <;> exact fun _ _ h => (by cases h)

theorem empties_flushAllBatches (s : State) : Empties s flushAllBatches := by
  intro k
  right
  cases k <;> simp [flushAllBatches, flushTimingBatch, flushCounterBatch, flushGaugeBatch,
    flushDistributionBatch, Instr.flushes]

theorem Silent.cons (hi : ∀ k op, i ≠ .append k op) (h : Silent rest) : Silent (i :: rest) := by
  intro j hj
  rcases List.mem_cons.mp hj with rfl | hj
  · exact hi
  · exact h j hj

theorem Empties.next (h : Empties s (i :: rest)) (hrest : rest ⊆ task)
    (hbatch : ∀ k, (s.batch k).toList = [] → (s'.batch k).toList = [])
    (hi : ∀ k, i.flushes k = true →
      (s'.batch k).toList = [] ∨ ∃ j ∈ task, j.flushes k = true) : Empties s' task := by
  intro k
  rcases h k with hempty | ⟨j, hj, hflushes⟩
  · exact Or.inl (hbatch k hempty)
  · rcases List.mem_cons.mp hj with rfl | hj
    · exact hi k hflushes
    · exact Or.inr ⟨j, hrest hj, hflushes⟩

/-- What a statement that records nothing does: the holder stays silent, the batches that were empty
stay empty, and those that were to be emptied are. -/
structure Quiets (s : State) (i : Instr) (rest : List Instr) (s' : State) (owner : Owner) :
    Prop where
  empty : ∀ k, (s.batch k).toList = [] → (s'.batch k).toList = []
  task : ∃ task, s'.holder = some (owner, task) ∧ Silent task ∧
    (Empties s (i :: rest) → Empties s' task)

theorem exec_quiets (hsilent : Silent (i :: rest)) :
    Quiets s i rest (s.exec batchSize owner rest i) owner := by
  have hi := hsilent i (List.mem_cons_self ..)
  have hrest : Silent rest := fun j hj => hsilent j (List.mem_cons_of_mem _ hj)
  cases i with
  | append k' op => exact absurd rfl (hi k' op)
  | flushIfFull k' =>
    refine ⟨fun k hk => hk, _, rfl, ?_, ?_⟩
    · split
      · exact hrest.cons (by simp)
      · exact hrest
    · intro h
      refine h.next ?_ (fun k hk => hk) (fun k hk => by cases hk)
      split
      · exact List.subset_cons_self ..
      · exact List.Subset.refl _
  | flush k' =>
    refine ⟨fun k hk => hk, _, rfl, ?_, ?_⟩
    · split
      · exact hrest
      · exact hrest.cons (by simp)
    · intro h
      split
      · rename_i hempty
        refine h.next (List.Subset.refl _) (fun k hk => hk) fun k hk => Or.inl ?_
        cases of_decide_eq_true hk
        exact (Slice.len_eq_zero _).mp hempty
      · refine h.next (List.subset_cons_self ..) (fun k hk => hk) fun k hk => Or.inr ?_
        exact ⟨_, List.mem_cons_self .., hk⟩
  | deliver k' n =>
    cases hget : (s.batch k').get? n with
    | none =>
      rw [exec_deliver_none hget]
      refine ⟨fun k hk => hk, _, rfl, hrest.cons (by simp), fun h => ?_⟩
      exact h.next (List.subset_cons_self ..) (fun k hk => hk)
        fun k hk => Or.inr ⟨_, List.mem_cons_self .., hk⟩
    | some op =>
      rw [exec_deliver_some hget]
      refine ⟨fun k hk => hk, _, rfl, hrest.cons (by simp), fun h => ?_⟩
      exact h.next (List.subset_cons_self ..) (fun k hk => hk)
        fun k hk => Or.inr ⟨_, List.mem_cons_self .., hk⟩
  | reset k' =>
    have hbatch : ∀ k, k' = k ∨ (s.batch k).toList = [] →
        ((s.exec batchSize owner rest (.reset k')).batch k).toList = [] := by
      intro k hk
      by_cases heq : k = k'
      · subst heq
        simp [State.exec]
      · simpa [State.exec, heq, Ne.symm heq] using hk
    refine ⟨fun k hk => hbatch k (Or.inr hk), _, rfl, hrest, fun h => ?_⟩
    exact h.next (List.Subset.refl _) (fun k hk => hbatch k (Or.inr hk))
      fun k hk => Or.inl (hbatch k (Or.inl (of_decide_eq_true hk)))

/-- A statement does not change who holds the mutex, or how far `Close` is. -/
structure SameTurn (s s' : State) (owner : Owner) : Prop where
  closing : s'.closing = s.closing
  loopReturned : s'.loopReturned = s.loopReturned
  holder : ∃ task, s'.holder = some (owner, task)

theorem exec_frame (batchSize : Nat) (s : State) (owner : Owner) (rest : List Instr) (i : Instr) :
    SameTurn s (s.exec batchSize owner rest i) owner := by
  cases i with
  | deliver k' n =>
    cases hget : (s.batch k').get? n with
    | none =>
      rw [exec_deliver_none hget]
      exact ⟨rfl, rfl, _, rfl⟩
    | some op =>
      rw [exec_deliver_some hget]
      exact ⟨rfl, rfl, _, rfl⟩
  | _ => exact ⟨rfl, rfl, _, rfl⟩

theorem Flushed.acquire (h : Flushed s) (howner : owner = .closer → Silent task ∧ Empties s task)
    (hsilent : s.closing = .closed → Silent task) :
    Flushed { s with holder := some (owner, task) } := by
  refine ⟨?_, ?_⟩
  · intro task' heq
    cases heq
    exact howner rfl
  · intro hclosed
    refine ⟨(h.closed hclosed).1, ?_⟩
    intro owner' task' heq
    cases heq
    exact hsilent hclosed

theorem Flushed.work (h : Flushed s) (hholder : s.holder = some (owner, i :: rest)) :
    Flushed (s.exec batchSize owner rest i) := by
  refine ⟨?_, ?_⟩
  · intro task' hnext
    have howner : owner = .closer := by
      obtain ⟨-, -, task, htask⟩ := exec_frame batchSize s owner rest i
      rw [htask] at hnext
      cases hnext
      rfl
    subst howner
    obtain ⟨hsilent, hempties⟩ := h.flushing _ hholder
    obtain ⟨-, task, htask, hsilent', hempties'⟩ := @exec_quiets batchSize s .closer i rest hsilent
    rw [htask] at hnext
    cases hnext
    exact ⟨hsilent', hempties' hempties⟩
  · intro hclosed
    rw [(exec_frame batchSize s owner rest i).closing] at hclosed
    obtain ⟨hempty, hsilent⟩ := h.closed hclosed
    obtain ⟨hkept, task, htask, hsilent', -⟩ :=
      @exec_quiets batchSize s owner i rest (hsilent _ _ hholder)
    refine ⟨fun k => hkept k (hempty k), ?_⟩
    intro owner' task' heq
    rw [htask] at heq
    cases heq
    exact hsilent'

theorem Flushed.turn (h : Flushed s) (hturn : Turn batchSize s e s') : Flushed s' := by
  cases hturn with
  | call c hclosing hfree =>
    refine h.acquire (fun howner => by cases howner) fun hclosed => ?_
    rw [hclosing] at hclosed
    cases hclosed
  | flush | tick =>
    exact h.acquire (fun howner => by cases howner) fun _ => silent_flushAllBatches
  | work hholder => exact h.work hholder
  | @release owner hholder =>
    refine ⟨fun task heq => (by cases heq), ?_⟩
    intro hclosed
    refine ⟨?_, fun owner task heq => (by cases heq)⟩
    intro k
    by_cases howner : owner = .closer
    · -- the holder was `Close`, which has nothing left to flush
      subst howner
      rcases (h.flushing [] hholder).2 k with hempty | ⟨i, hi, -⟩
      · exact hempty
      · cases hi
    · simp only [if_neg howner] at hclosed
      exact (h.closed hclosed).1 k
  | close hclosing => exact ⟨h.flushing, fun hclosed => by cases hclosed⟩
  | loopReturn hcancelled hholder => exact ⟨h.flushing, h.closed⟩
  | closeFlush hclosing hloop hfree =>
    exact h.acquire (fun _ => ⟨silent_flushAllBatches, empties_flushAllBatches s⟩)
      fun _ => silent_flushAllBatches

end Close

/-! ## `Close` can return -/

section Progress

variable {batchSize : Nat} {s s' : State} {es : List (Option Call)}
  {owner : Owner} {i : Instr} {rest task : List Instr} {k : Kind}

/-- The holder can execute its statements up to these. -/
def Executes (batchSize : Nat) (s : State) (owner : Owner) (rest : List Instr) : Prop :=
  ∃ es s', Runs (Turn batchSize) s es s' ∧ s'.holder = some (owner, rest) ∧
    s'.closing = s.closing ∧ s'.loopReturned = s.loopReturned

theorem Executes.refl (h : s.holder = some (owner, rest)) : Executes batchSize s owner rest :=
  ⟨[], s, .start, h, rfl, rfl⟩

theorem Executes.head (hholder : s.holder = some (owner, i :: task))
    (h : Executes batchSize (s.exec batchSize owner task i) owner rest) :
    Executes batchSize s owner rest := by
  obtain ⟨es, s', hrun, hholder', hclosing, hloop⟩ := h
  have hframe := exec_frame batchSize s owner task i
  have hstep : Runs (Turn batchSize) s ([] ++ [none]) (s.exec batchSize owner task i) :=
    Runs.start.step (.work hholder)
  exact ⟨_, s', hstep.append hrun, hholder', hclosing.trans hframe.closing,
    hloop.trans hframe.loopReturned⟩

theorem Executes.trans (h : Executes batchSize s owner task)
    (hnext : ∀ s', s'.holder = some (owner, task) → Executes batchSize s' owner rest) :
    Executes batchSize s owner rest := by
  obtain ⟨es, s', hrun, hholder, hclosing, hloop⟩ := h
  obtain ⟨es', s'', hrun', hholder', hclosing', hloop'⟩ := hnext s' hholder
  exact ⟨_, s'', hrun.append hrun', hholder', hclosing'.trans hclosing, hloop'.trans hloop⟩

end Progress

end Batching

end MongoBouncer
