import MongoBouncer.RwLock
import MongoBouncer.Mongo.Cleanup

/-!
# The locks of the session manager

The methods of the session manager cut at every acquisition and release of the manager's mutex and
of the mutexes of its sessions. `EndSession` asks for the manager's mutex while it holds that of
its session; the two cleanups ask for the mutex of each session in the map while they hold the
manager's.

* `SessionCall`, `Point` : the calls, and the places between their lock operations;
* `Point.step`      : what a call does from one place to the next;
* `alone_run`       : a call that runs alone does what its function of `SessionManager` does;
* `LockSystem.step` : a step of one of the calls, which gets a lock only when it is free.

Principal results: `deadlock_iff` (which calls deadlock) and `lock_order_iff`.
-/

namespace MongoBouncer

open GoStd RwLock Function

/-! ## Calls and their places -/

/-- A call of one of the methods of the session manager. -/
inductive SessionCall where
  | getSession (lsid : Bytes)
  | startTransaction (r : Ref) (server : Server) (connection : Conn) (txnNumber : Int64)
  | commitTransaction (r : Ref)
  | endSession (r : Ref)
  | cleanup (k : Cleanup)

inductive Mutex where
  | manager
  | session (r : Ref)
  deriving DecidableEq, Repr

inductive Point where
  -- `GetSession`: `RLock`, the map access, the state check, then one of two critical sections
  | lookup (lsid : Bytes)
  | lookingUp (lsid : Bytes)
  | found (lsid : Bytes) (entry : Option Ref)
  | touch (r : Ref)
  | touching (r : Ref)
  | store (lsid : Bytes) (s : Session)
  | storing (lsid : Bytes) (s : Session)
  -- `StartTransaction` and `CommitTransaction`
  | start (r : Ref) (server : Server) (connection : Conn) (txnNumber : Int64)
  | starting (r : Ref) (server : Server) (connection : Conn) (txnNumber : Int64)
  | commit (r : Ref)
  | committing (r : Ref)
  -- `EndSession`
  | endIt (r : Ref)
  | ending (r : Ref)
  | delete (r : Ref)
  | deleting (r : Ref)
  | removing (r : Ref)
  -- the cleanups: the entries of the map that are left to visit, and the ids to remove
  | sweep (k : Cleanup)
  | sweeping (k : Cleanup) (todo : List (GoString × Ref)) (sessionsToRemove : List GoString)
  | read (k : Cleanup) (sessionID : GoString) (r : Ref) (todo : List (GoString × Ref))
      (sessionsToRemove : List GoString)
  | reading (k : Cleanup) (sessionID : GoString) (r : Ref) (todo : List (GoString × Ref))
      (sessionsToRemove : List GoString)
  | returned

def SessionCall.entry : SessionCall → Point
  | getSession lsid => .lookup lsid
  | startTransaction r server connection txnNumber => .start r server connection txnNumber
  | commitTransaction r => .commit r
  | endSession r => .endIt r
  | cleanup k => .sweep k

namespace Point

/-- The lock that a call asks for. -/
def wants : Point → Option (Mutex × Mode)
  | lookup _ => some (.manager, .read)
  | touch r => some (.session r, .write)
  | store _ _ => some (.manager, .write)
  | start r _ _ _ => some (.session r, .write)
  | commit r => some (.session r, .write)
  | endIt r => some (.session r, .write)
  | delete _ => some (.manager, .write)
  | sweep _ => some (.manager, .write)
  | read _ _ r _ _ => some (.session r, .read)
  | _ => none

/-- The locks that a call holds. -/
def holds : Point → List (Mutex × Mode)
  | lookingUp _ => [(.manager, .read)]
  | touching r => [(.session r, .write)]
  | storing _ _ => [(.manager, .write)]
  | starting r _ _ _ => [(.session r, .write)]
  | committing r => [(.session r, .write)]
  | ending r => [(.session r, .write)]
  | delete r => [(.session r, .write)]
  | deleting r => [(.manager, .write), (.session r, .write)]
  | removing r => [(.session r, .write)]
  | sweeping _ _ _ => [(.manager, .write)]
  | read _ _ _ _ _ => [(.manager, .write)]
  | reading _ _ r _ _ => [(.session r, .read), (.manager, .write)]
  | _ => []

/-- `GetSession` when the map has no live session. -/
def fetch (sm : SessionManager) (lsid : Bytes) : Point :=
  match sm.distributedSession (Base64.encodeToString lsid) with
  | some s => .store lsid s
  | none => .returned

/-- What a call does up to its next place. `now` is the clock, and `order` the order in which a
cleanup visits the map. -/
def step (sm : SessionManager) (now : Int) (order : List (GoString × Ref)) :
    Point → SessionManager × Point
  | lookup lsid => (sm, lookingUp lsid)
  | lookingUp lsid => (sm, found lsid (sm.sessions (Base64.encodeToString lsid)))
  | found lsid (some r) =>
    -- the state is read without the session's mutex
    if (sm.objects r).state ≠ .ended then (sm, touch r) else (sm, fetch sm lsid)
  | found lsid none => (sm, fetch sm lsid)
  | touch r => (sm, touching r)
  | touching r => (sm.setSession r ((sm.objects r).touch now), returned)
  | store lsid s => (sm, storing lsid s)
  | storing lsid s => ((sm.insertSession (Base64.encodeToString lsid) s).2, returned)
  | start r server connection txnNumber => (sm, starting r server connection txnNumber)
  | starting r server connection txnNumber =>
    match sm.startTransaction r server connection txnNumber now with
    | .ok sm => (sm, returned)
    | .error _ => (sm, returned)
  | commit r => (sm, committing r)
  | committing r =>
    match sm.commitTransaction r now with
    | .ok sm => (sm, returned)
    | .error _ => (sm, returned)
  | endIt r => (sm, ending r)
  | ending r =>
    if (sm.objects r).state = .ended then (sm, returned)
    else (sm.setSession r ((sm.objects r).endSession now), delete r)
  | delete r => (sm, deleting r)
  | deleting r =>
    ({ sm with sessions := update sm.sessions (sm.objects r).id none }, removing r)
  | removing r =>
    ({ sm with distributedCache :=
        sm.distributedCache.map (·.removeSession (sm.objects r).id) }, returned)
  | sweep k => (sm, sweeping k order [])
  | sweeping k ((sessionID, r) :: todo) stale => (sm, read k sessionID r todo stale)
  | sweeping _ [] stale =>
    ({ sm with sessions := fun id => if id ∈ stale then none else sm.sessions id }, returned)
  | read k sessionID r todo stale => (sm, reading k sessionID r todo stale)
  | reading (.inactive limit now) sessionID r todo stale =>
    if (sm.objects r).state = .ended ∨ timeSub now (sm.objects r).lastActivity > limit then
      (sm, sweeping (.inactive limit now) todo (stale ++ [sessionID]))
    else (sm, sweeping (.inactive limit now) todo stale)
  | reading (.expired limit now) sessionID r todo stale =>
    if timeSub now (sm.objects r).lastActivity > limit then
      ({ sm with sessions := update sm.sessions sessionID none },
        sweeping (.expired limit now) todo stale)
    else (sm, sweeping (.expired limit now) todo stale)
  | returned => (sm, returned)

end Point

/-! ## A call that runs alone -/

/-- The entries of the session map, each once. -/
structure SessionManager.Lists (sm : SessionManager) (order : List (GoString × Ref)) : Prop where
  nodup : order.Nodup
  mem : ∀ id r, (id, r) ∈ order ↔ sm.sessions id = some r

/-- What the call does to the session manager when nothing comes in between. -/
def SessionCall.run (sm : SessionManager) (now : Int) : SessionCall → SessionManager
  | getSession lsid => (sm.getSession lsid now).2
  | startTransaction r server connection txnNumber =>
    match sm.startTransaction r server connection txnNumber now with
    | .ok sm => sm
    | .error _ => sm
  | commitTransaction r =>
    match sm.commitTransaction r now with
    | .ok sm => sm
    | .error _ => sm
  | endSession r => sm.endSession r now
  | cleanup k => k.run sm

/-- The call takes any number of steps, with no other call in between. -/
def Alone (now : Int) (order : List (GoString × Ref)) :
    SessionManager × Point → SessionManager × Point → Prop :=
  Relation.ReflTransGen fun a b => b = a.2.step a.1 now order

section Alone

variable {now : Int} {order : List (GoString × Ref)} {a b : SessionManager × Point}

theorem Alone.refl : Alone now order a a := Relation.ReflTransGen.refl

theorem Alone.step (h : Alone now order (a.2.step a.1 now order) b) : Alone now order a b :=
  Relation.ReflTransGen.head rfl h

/-- The loop of a cleanup removes the sessions for which its test holds, and those it has noted
before. -/
theorem alone_sweeping (now : Int) (order : List (GoString × Ref)) (k : Cleanup)
    (todo : List (GoString × Ref)) (sm : SessionManager) (stale : List GoString) :
    ∃ sm' : SessionManager, Alone now order (sm, .sweeping k todo stale) (sm', .returned) ∧
      sm' = { sm with sessions := sm'.sessions } ∧
      ∀ id, (id ∈ stale ∨ ∃ r, (id, r) ∈ todo ∧ k.Removes (sm.objects r)) ∧ sm'.sessions id = none ∨
        ¬ (id ∈ stale ∨ ∃ r, (id, r) ∈ todo ∧ k.Removes (sm.objects r)) ∧
          sm'.sessions id = sm.sessions id := by
  induction todo generalizing sm stale with
  | nil =>
    refine ⟨_, .step .refl, rfl, ?_⟩
    intro id
    by_cases hid : id ∈ stale
    · exact Or.inl ⟨Or.inl hid, if_pos hid⟩
    · exact Or.inr ⟨by simp [hid], if_neg hid⟩
  | cons e todo ih =>
    obtain ⟨sessionID, r⟩ := e
    by_cases hrem : k.Removes (sm.objects r)
    · cases k with
      | inactive limit t =>
        have hstep : Point.step sm now order (.reading (.inactive limit t) sessionID r todo stale) =
            (sm, .sweeping (.inactive limit t) todo (stale ++ [sessionID])) := if_pos hrem
        obtain ⟨sm', halone, hsm', hsess⟩ := ih sm (stale ++ [sessionID])
        refine ⟨sm', .step (.step (.step (hstep ▸ halone))), hsm', ?_⟩
        intro id
        grind
      | expired limit t =>
        have hstep : Point.step sm now order (.reading (.expired limit t) sessionID r todo stale) =
            ({ sm with sessions := update sm.sessions sessionID none },
              .sweeping (.expired limit t) todo stale) := if_pos hrem
        obtain ⟨sm', halone, hsm', hsess⟩ :=
          ih { sm with sessions := update sm.sessions sessionID none } stale
        refine ⟨sm', .step (.step (.step (hstep ▸ halone))), hsm', ?_⟩
        intro id
        have := hsess id
        grind
    · have hstep : Point.step sm now order (.reading k sessionID r todo stale) =
          (sm, .sweeping k todo stale) := by
        cases k with
        | inactive | expired => exact if_neg hrem
      obtain ⟨sm', halone, hsm', hsess⟩ := ih sm stale
      refine ⟨sm', .step (.step (.step (hstep ▸ halone))), hsm', ?_⟩
      intro id
      grind

theorem alone_cleanup (sm : SessionManager) (horder : sm.Lists order) (k : Cleanup) :
    Alone now order (sm, .sweep k) (k.run sm, .returned) := by
  obtain ⟨sm', halone, hsm', hsess⟩ := alone_sweeping now order k order sm []
  have hrun : sm' = k.run sm := by
    have hk : k.run sm = { sm with sessions := (k.run sm).sessions } := by
      cases k with
      | inactive | expired => rfl
    rw [hsm', hk]
    congr 1
    funext id
    apply Option.ext
    intro r
    rw [k.sessions_run, ← horder.mem]
    have hmem := horder.mem id
    rcases hsess id with ⟨hstale, hnone⟩ | ⟨hkeep, hsame⟩
    · obtain ⟨r₀, hr₀, hrem⟩ : ∃ r, (id, r) ∈ order ∧ k.Removes (sm.objects r) := by
        simpa using hstale
      refine iff_of_false (by simp [hnone]) ?_
      rintro ⟨hr, hkeep⟩
      obtain rfl : r₀ = r := Option.some.inj (((hmem r₀).mp hr₀).symm.trans ((hmem r).mp hr))
      exact hkeep hrem
    · rw [hsame, hmem]
      refine ⟨fun hr => ⟨hr, fun hrem => hkeep (Or.inr ⟨r, (hmem r).mpr hr, hrem⟩)⟩, And.left⟩
  exact .step (hrun ▸ halone)

/-- **A call that runs alone does what its function does.** -/
theorem alone_run (sm : SessionManager) (horder : sm.Lists order) (c : SessionCall) :
    Alone now order (sm, c.entry) (c.run sm now, .returned) := by
  cases c with
  | getSession lsid =>
    have hfetch : Alone now order (sm, Point.fetch sm lsid)
        ((sm.fetchSession (Base64.encodeToString lsid)).2, .returned) := by
      unfold Point.fetch SessionManager.fetchSession
      cases sm.distributedSession (Base64.encodeToString lsid) with
      | none => exact .refl
      | some s => exact .step (.step .refl)
    refine .step (.step (.step ?_))
    show Alone now order (Point.step sm now order
      (.found lsid (sm.sessions (Base64.encodeToString lsid)))) _
    simp only [SessionCall.run, SessionManager.getSession]
    cases sm.sessions (Base64.encodeToString lsid) with
    | none => exact hfetch
    | some r =>
      simp only [Point.step]
      split
      · exact .step (.step .refl)
      · exact hfetch
  | startTransaction r server connection txnNumber =>
    refine .step (.step ?_)
    show Alone now order (Point.step sm now order (.starting r server connection txnNumber)) _
    simp only [Point.step, SessionCall.run]
    split
    · exact .refl
    · exact .refl
  | commitTransaction r =>
    refine .step (.step ?_)
    show Alone now order (Point.step sm now order (.committing r)) _
    simp only [Point.step, SessionCall.run]
    split
    · exact .refl
    · exact .refl
  | endSession r =>
    refine .step (.step ?_)
    show Alone now order (Point.step sm now order (.ending r)) _
    simp only [Point.step, SessionCall.run, SessionManager.endSession]
    split
    · exact .refl
    · refine .step (.step (.step ?_))
      simp only [Point.step, SessionManager.setSession, update_self]
      exact .refl
  | cleanup k => exact alone_cleanup sm horder k

end Alone

/-! ## Calls that run at the same time -/

structure LockSystem (T : Type) where
  manager : SessionManager
  calls : T → Point

/-- A step of one of the calls. -/
structure LockTurn (T : Type) where
  call : T
  now : Int
  order : List (GoString × Ref)

namespace LockSystem

variable {T : Type}

def initial (sm : SessionManager) (calls : T → SessionCall) : LockSystem T :=
  { manager := sm, calls := fun t => (calls t).entry }

/-- The locks that the calls hold and ask for. -/
def table (s : LockSystem T) : Table T Mutex :=
  { holds := fun t l m => (l, m) ∈ (s.calls t).holds
    wants := fun t l m => (s.calls t).wants = some (l, m) }

/-- The call can take a step: the lock that it asks for is free, and a cleanup that begins its
loop visits the entries of the map. -/
structure Enabled (s : LockSystem T) (turn : LockTurn T) : Prop where
  free : ∀ l m, s.table.wants turn.call l m → s.table.Free l m
  order : ∀ k, s.calls turn.call = .sweep k → s.manager.Lists turn.order

def step [DecidableEq T] (s : LockSystem T) (turn : LockTurn T) : LockSystem T :=
  let (sm, p) := (s.calls turn.call).step s.manager turn.now turn.order
  { manager := sm, calls := update s.calls turn.call p }

/-- The call asks for the manager's mutex while it holds that of a session. -/
def SessionFirst (s : LockSystem T) (t : T) : Prop :=
  ∃ r m m', s.table.holds t (.session r) m ∧ s.table.wants t .manager m'

/-- The call asks for the mutex of a session while it holds the manager's. -/
def ManagerFirst (s : LockSystem T) (t : T) : Prop :=
  ∃ r m m', s.table.holds t .manager m ∧ s.table.wants t (.session r) m'

end LockSystem

/-- The runs: the systems that the calls have passed through, the last one first. -/
inductive LockRun {T : Type} [DecidableEq T] (s₀ : LockSystem T) : List (LockSystem T) → Prop where
  | start : LockRun s₀ [s₀]
  | turn {s : LockSystem T} {past : List (LockSystem T)} (h : LockRun s₀ (s :: past))
      (turn : LockTurn T) (henabled : s.Enabled turn) : LockRun s₀ (s.step turn :: s :: past)

/-! ## Which calls deadlock -/

section System

variable {T : Type} {s s₀ : LockSystem T} {p : Point} {r : Ref} {m : Mode} {t : T}

/-- Only `EndSession` and the cleanups ask for a mutex while they hold one. -/
theorem Point.nested (hwants : p.wants ≠ none) (hholds : p.holds ≠ []) : (∃ r, p = .delete r) ∨
      ∃ k sessionID r todo stale, p = .read k sessionID r todo stale := by
  cases p with
  | delete r => exact Or.inl ⟨r, rfl⟩
  | read k sessionID r todo stale => exact Or.inr ⟨k, sessionID, r, todo, stale, rfl⟩
  | _ => first | exact absurd rfl hwants | exact absurd rfl hholds

theorem Point.delete_of_nested {x : Mutex × Mode}
    (hholds : (.session r, m) ∈ p.holds) (hwants : p.wants = some x) : p = .delete r := by
  rcases p.nested (by simp [hwants]) (List.ne_nil_of_mem hholds) with
    ⟨r', rfl⟩ | ⟨k, sessionID, r', todo, stale, rfl⟩
  · obtain ⟨rfl, -⟩ : r = r' ∧ m = .write := by simpa [Point.holds] using hholds
    rfl
  · simp [Point.holds] at hholds

theorem Point.read_of_nested {x : Mutex × Mode}
    (hholds : (.manager, m) ∈ p.holds) (hwants : p.wants = some x) :
    ∃ k sessionID r todo stale, p = .read k sessionID r todo stale := by
  rcases p.nested (by simp [hwants]) (List.ne_nil_of_mem hholds) with ⟨r, rfl⟩ | h
  · simp [Point.holds] at hholds
  · exact h

theorem Point.read_of_wants (h : p.wants = some (.session r, .read)) :
    ∃ k sessionID todo stale, p = .read k sessionID r todo stale := by
  cases p with
  | read k sessionID r' todo stale =>
    cases h
    exact ⟨k, sessionID, todo, stale, rfl⟩
  | _ => simp [Point.wants] at h

/-- An `EndSession` and a cleanup that wait for each other: the one holds the mutex of the session
and asks for the manager's, the other holds the manager's and asks for that of the session. -/
def LockSystem.Clash (s : LockSystem T) (t u : T) : Prop :=
  ∃ k sessionID r todo stale,
    s.calls t = .delete r ∧ s.calls u = .read k sessionID r todo stale

theorem LockSystem.Clash.deadlock {u : T} (h : s.Clash t u) : s.table.Deadlock := by
  obtain ⟨k, sessionID, r, todo, stale, ht, hu⟩ := h
  have htu : s.table.Waits t u := by
    refine ⟨.manager, .write, ?_, Or.inl ⟨.write, ?_, Or.inl rfl⟩⟩
    · simp [LockSystem.table, ht, Point.wants]
    · simp [LockSystem.table, hu, Point.holds]
  have hut : s.table.Waits u t := by
    refine ⟨.session r, .read, ?_, Or.inl ⟨.write, ?_, Or.inr rfl⟩⟩
    · simp [LockSystem.table, hu, Point.wants]
    · simp [LockSystem.table, ht, Point.holds]
  exact ⟨t, .tail (.single htu) hut⟩

/-- The order in which calls wait for each other when no two of them clash: readers before the
writers they wait for, the holder of a session before the holder of the manager, and last those
that wait for a session that a cleanup is about to read. -/
def LockSystem.weight (s : LockSystem T) [∀ r, Decidable (∃ u k sessionID todo stale,
    s.calls u = .read k sessionID r todo stale)] (t : T) : Nat :=
  match (s.calls t).wants with
  | some (.manager, .read) => 0
  | some (.manager, .write) => 2
  | some (.session _, .read) => 3
  | some (.session r, .write) =>
    if ∃ u k sessionID todo stale, s.calls u = .read k sessionID r todo stale then 4 else 1
  | none => 0

/-- **The calls that deadlock**: an `EndSession` and a cleanup that clash. -/
theorem LockSystem.deadlock_iff (s : LockSystem T) : s.table.Deadlock ↔ ∃ t u, s.Clash t u := by
  classical
  refine ⟨?_, fun ⟨_, _, h⟩ => h.deadlock⟩
  contrapose!
  intro hclash
  -- a session that a cleanup is about to read is not held by an `EndSession` that waits
  have hfree : ∀ u r k sessionID todo stale v, s.calls u = .read k sessionID r todo stale →
      s.calls v ≠ .delete r := by
    intro u r k sessionID todo stale v hu hv
    exact hclash v u ⟨k, sessionID, r, todo, stale, hv, hu⟩
  refine Table.not_deadlock s.weight ?_
  rintro t u l' m' ⟨l, m, ht, hedge⟩ hu
  have ht' : (s.calls t).wants = some (l, m) := ht
  have hu' : (s.calls u).wants = some (l', m') := hu
  rcases hedge with ⟨m₀, hholds, hex⟩ | ⟨rfl, hwrite⟩
  · cases l with
    | manager =>
      obtain ⟨k, sessionID, r, todo, stale, hread⟩ := Point.read_of_nested hholds hu'
      have hwt : s.weight t ≤ 2 := by
        unfold LockSystem.weight
        rw [ht']
        cases m <;> simp
      have hwu : s.weight u = 3 := by simp [LockSystem.weight, hread, Point.wants]
      omega
    | session r =>
      have hdelete := Point.delete_of_nested hholds hu'
      have hwu : s.weight u = 2 := by simp [LockSystem.weight, hdelete, Point.wants]
      have hno : ¬ ∃ u k sessionID todo stale, s.calls u = .read k sessionID r todo stale := by
        rintro ⟨v, k, sessionID, todo, stale, hv⟩
        exact hfree v r k sessionID todo stale u hv hdelete
      cases m with
      | read =>
        obtain ⟨k, sessionID, todo, stale, hread⟩ := Point.read_of_wants ht'
        exact absurd ⟨t, k, sessionID, todo, stale, hread⟩ hno
      | write =>
        have hwt : s.weight t = 1 := by
          unfold LockSystem.weight
          simp only [ht', if_neg hno]
        omega
  · have hwrite' : (s.calls u).wants = some (l, .write) := hwrite
    cases l with
    | manager =>
      have hwt : s.weight t = 0 := by simp [LockSystem.weight, ht']
      have hwu : s.weight u = 2 := by simp [LockSystem.weight, hwrite']
      omega
    | session r =>
      obtain ⟨k, sessionID, todo, stale, hread⟩ := Point.read_of_wants ht'
      have hwt : s.weight t = 3 := by simp [LockSystem.weight, ht']
      have hwu : s.weight u = 4 := by
        unfold LockSystem.weight
        simp only [hwrite']
        exact if_pos ⟨t, k, sessionID, todo, stale, hread⟩
      omega

/-! ## The order of the locks in a run -/

/-- The call that stands at a place, for `EndSession` and the cleanups. -/
def Point.owner : Point → Option SessionCall
  | endIt r | ending r | delete r | deleting r | removing r => some (.endSession r)
  | sweep k | sweeping k _ _ | read k _ _ _ _ | reading k _ _ _ _ => some (.cleanup k)
  | _ => none

theorem Point.owner_step (sm : SessionManager) (now : Int) (order : List (GoString × Ref))
    (p : Point) :
    (p.step sm now order).2 = .returned ∨ (p.step sm now order).2.owner = p.owner := by
  have hfetch : ∀ lsid, (Point.fetch sm lsid).owner = none := by
    intro lsid
    unfold Point.fetch
    split
    · rfl
    · rfl
  cases p with
  | found lsid entry =>
    right
    cases entry with
    | none => exact hfetch lsid
    | some r =>
      simp only [Point.step]
      split
      · rfl
      · exact hfetch lsid
  | starting | committing =>
    left
    simp only [Point.step]
    split
    · rfl
    · rfl
  | ending r =>
    simp only [Point.step]
    split
    · exact Or.inl rfl
    · exact Or.inr rfl
  | sweeping k todo stale =>
    cases todo with
    | nil => exact Or.inl rfl
    | cons e todo => exact Or.inr rfl
  | reading k sessionID r todo stale =>
    right
    cases k with
    | inactive | expired =>
      simp only [Point.step]
      split
      · rfl
      · rfl
  | removing r => exact Or.inl rfl
  | _ => exact Or.inr rfl

theorem LockRun.owner [DecidableEq T] {sm : SessionManager} {calls : T → SessionCall}
    {states : List (LockSystem T)} (h : LockRun (.initial sm calls) states) :
    ∀ s ∈ states, ∀ t, s.calls t = .returned ∨ (s.calls t).owner = (calls t).entry.owner := by
  induction h with
  | start =>
    intro s hs t
    rw [List.mem_singleton.mp hs]
    exact Or.inr rfl
  | @turn s past _ turn henabled ih =>
    intro s' hs' t
    rcases List.mem_cons.mp hs' with rfl | hs'
    · have hold := ih s List.mem_cons_self t
      by_cases ht : t = turn.call
      · subst ht
        have hself : (s.step turn).calls turn.call =
            ((s.calls turn.call).step s.manager turn.now turn.order).2 := by
          simp [LockSystem.step]
        rw [hself]
        rcases hold with hret | hown
        · rw [hret]
          exact Or.inl rfl
        · rw [← hown]
          exact Point.owner_step _ _ _ _
      · have hother : (s.step turn).calls t = s.calls t := by
          simp [LockSystem.step, update_of_ne ht]
        rw [hother]
        exact hold
    · exact ih s' hs' t

theorem Point.delete_of_owner
    (howner : p.owner = some (.endSession r)) (hwants : p.wants = some (.manager, m)) :
    p = .delete r := by
  cases p with
  | delete r' =>
    cases howner
    rfl
  | _ => first | (cases howner; done) | cases hwants

theorem SessionCall.of_owner {c c' : SessionCall} (h : c'.entry.owner = some c) : c' = c := by
  cases c' with
  | endSession | cleanup => exact Option.some.inj h
  | _ => cases h

theorem LockSystem.sessionFirst_iff : s.SessionFirst t ↔ ∃ r, s.calls t = .delete r := by
  constructor
  · rintro ⟨r, m, m', hholds, hwants⟩
    exact ⟨r, Point.delete_of_nested hholds hwants⟩
  · rintro ⟨r, hr⟩
    exact ⟨r, .write, .write, by simp [LockSystem.table, hr, Point.holds],
      by simp [LockSystem.table, hr, Point.wants]⟩

theorem LockSystem.managerFirst_iff :
    s.ManagerFirst t ↔ ∃ k sessionID r todo stale, s.calls t = .read k sessionID r todo stale := by
  constructor
  · rintro ⟨r, m, m', hholds, hwants⟩
    exact Point.read_of_nested hholds hwants
  · rintro ⟨k, sessionID, r, todo, stale, hr⟩
    exact ⟨r, .write, .read, by simp [LockSystem.table, hr, Point.holds],
      by simp [LockSystem.table, hr, Point.wants]⟩

end System

/-- An `EndSession` call of the run asks for the manager's mutex. -/
def EndSessionAsks {T : Type} (calls : T → SessionCall) (states : List (LockSystem T)) : Prop :=
  ∃ s ∈ states, ∃ t r, calls t = .endSession r ∧ s.table.wants t .manager .write

/-- A cleanup of the run asks for the mutex of a session. -/
def CleanupAsks {T : Type} (calls : T → SessionCall) (states : List (LockSystem T)) : Prop :=
  ∃ s ∈ states, ∃ t k r, calls t = .cleanup k ∧ s.table.wants t (.session r) .read

section Run

variable {T : Type} [DecidableEq T] {sm : SessionManager} {calls : T → SessionCall}
  {states : List (LockSystem T)}

/-- The manager's mutex is asked for after that of a session by `EndSession` calls, and by no
others. -/
theorem LockRun.endSessionAsks_iff (h : LockRun (.initial sm calls) states) :
    EndSessionAsks calls states ↔ ∃ s ∈ states, ∃ t, s.SessionFirst t := by
  constructor
  · rintro ⟨s, hs, t, r, hcall, hwants⟩
    have hwants' : (s.calls t).wants = some (.manager, .write) := hwants
    refine ⟨s, hs, t, LockSystem.sessionFirst_iff.mpr ⟨r, ?_⟩⟩
    rcases h.owner s hs t with hret | howner
    · rw [hret] at hwants'
      cases hwants'
    · rw [hcall] at howner
      exact Point.delete_of_owner howner hwants'
  · rintro ⟨s, hs, t, hfirst⟩
    obtain ⟨r, hr⟩ := LockSystem.sessionFirst_iff.mp hfirst
    have howner := h.owner s hs t
    rw [hr] at howner
    refine ⟨s, hs, t, r, SessionCall.of_owner (howner.resolve_left nofun).symm, ?_⟩
    simp [LockSystem.table, hr, Point.wants]

theorem LockRun.cleanupAsks_iff (h : LockRun (.initial sm calls) states) :
    CleanupAsks calls states ↔ ∃ s ∈ states, ∃ t, s.ManagerFirst t := by
  constructor
  · rintro ⟨s, hs, t, k, r, -, hwants⟩
    obtain ⟨k', sessionID, todo, stale, hp⟩ := Point.read_of_wants hwants
    exact ⟨s, hs, t, LockSystem.managerFirst_iff.mpr ⟨k', sessionID, r, todo, stale, hp⟩⟩
  · rintro ⟨s, hs, t, hfirst⟩
    obtain ⟨k, sessionID, r, todo, stale, hp⟩ := LockSystem.managerFirst_iff.mp hfirst
    have howner := h.owner s hs t
    rw [hp] at howner
    refine ⟨s, hs, t, k, r, SessionCall.of_owner (howner.resolve_left nofun).symm, ?_⟩
    simp [LockSystem.table, hp, Point.wants]

/-- **The order of the locks.** In a run no calls ever wait for each other in a cycle and the
mutexes are not asked for in opposite orders, exactly when no `EndSession` comes to ask for the
manager's mutex or no cleanup comes to ask for that of a session. The calls that wait for each
other are an `EndSession` and a cleanup that clash. -/
theorem lock_order_iff (h : LockRun (.initial sm calls) states) :
    ((∀ s ∈ states, ¬ s.table.Deadlock) ∧
        ¬ ((∃ s ∈ states, ∃ t, s.SessionFirst t) ∧ ∃ s ∈ states, ∃ t, s.ManagerFirst t) ↔
      ¬ (EndSessionAsks calls states ∧ CleanupAsks calls states)) ∧
    ∀ s ∈ states, s.table.Deadlock ↔ ∃ t u, s.Clash t u := by
  refine ⟨?_, fun s _ => s.deadlock_iff⟩
  rw [h.endSessionAsks_iff, h.cleanupAsks_iff]
  refine ⟨And.right, fun hone => ⟨?_, hone⟩⟩
  intro s hs hdead
  obtain ⟨t, u, k, sessionID, r, todo, stale, ht, hu⟩ := s.deadlock_iff.mp hdead
  exact hone ⟨⟨s, hs, t, LockSystem.sessionFirst_iff.mpr ⟨r, ht⟩⟩,
    s, hs, u, LockSystem.managerFirst_iff.mpr ⟨k, sessionID, r, todo, stale, hu⟩⟩

end Run

/-! ## An `EndSession` and a cleanup at the same time -/

def loneManager : SessionManager :=
  ((SessionManager.new none).insertSession (lit "Bw==")
    (Session.fresh [7] (lit "unknown") 0)).2

theorem lists_loneManager : loneManager.Lists [(lit "Bw==", 0)] := by
  refine ⟨by simp, ?_⟩
  intro id r
  by_cases hid : id = lit "Bw=="
  · subst hid
    simp [loneManager, SessionManager.insertSession, SessionManager.new, eq_comm]
  · simp [loneManager, SessionManager.insertSession, SessionManager.new, hid]

/-- An `EndSession` of the session, and a cleanup of the cache monitor. -/
def clashingCalls : Bool → SessionCall
  | true => .endSession 0
  | false => .cleanup monitorCleanup

/-- A turn of one of the two. -/
def clashingTurn (call : Bool) : LockTurn Bool := { call, now := 0, order := [(lit "Bw==", 0)] }

/-- The systems of the run, one turn after the other. -/
def clashing : List Bool → LockSystem Bool
  | [] => .initial loneManager clashingCalls
  | call :: calls => (clashing calls).step (clashingTurn call)

theorem enabled_clashing (calls : List Bool) {call : Bool}
    (hfree : ∀ x ∈ ((clashing calls).calls call).wants, ∀ u : Bool,
      ∀ y ∈ ((clashing calls).calls u).holds, y.1 = x.1 → ¬ x.2.Excludes y.2)
    (horder : (clashing calls).manager.sessions = loneManager.sessions) :
    (clashing calls).Enabled (clashingTurn call) := by
  refine ⟨?_, ?_⟩
  · intro l m hwants u m' hholds
    exact hfree (l, m) hwants u (l, m') hholds rfl
  · intro k _
    refine ⟨lists_loneManager.nodup, ?_⟩
    rw [horder]
    exact lists_loneManager.mem

theorem lockRun_endSession : LockRun (.initial loneManager clashingCalls)
    [clashing [true, true], clashing [true], clashing []] := by
  refine .turn (.turn .start (clashingTurn true) ?_) (clashingTurn true) ?_
  · exact enabled_clashing [] (by decide +kernel) rfl
  · exact enabled_clashing [true] (by decide +kernel) rfl

/-- Up to there the two calls do not wait for each other. -/
theorem lock_order_iff_endSession :
    (∃ t, (clashing [true, true]).SessionFirst t) ∧
    ∀ s ∈ [clashing [true, true], clashing [true], clashing []], ¬ s.table.Deadlock := by
  refine ⟨⟨true, LockSystem.sessionFirst_iff.mpr ⟨0, rfl⟩⟩, ?_⟩
  refine ((lock_order_iff lockRun_endSession).1.mpr ?_).1
  rintro ⟨-, s, hs, t, k, r, -, hwants⟩
  obtain ⟨k', sessionID, todo, stale, hread⟩ := Point.read_of_wants hwants
  simp only [List.mem_cons, List.not_mem_nil, or_false] at hs
  rcases hs with rfl | rfl | rfl
  · cases t <;> cases hread
  · cases t <;> cases hread
  · cases t <;> cases hread

theorem lockRun_clashing : LockRun (.initial loneManager clashingCalls)
    [clashing [false, false, true, true], clashing [false, true, true], clashing [true, true],
      clashing [true], clashing []] := by
  refine .turn (.turn lockRun_endSession (clashingTurn false) ?_) (clashingTurn false) ?_
  · exact enabled_clashing [true, true] (by decide +kernel) rfl
  · exact enabled_clashing [false, true, true] (by decide +kernel) rfl

theorem alone_run_cleanup : Alone 0 [(lit "Bw==", 0)] (loneManager, .sweep monitorCleanup)
    (monitorCleanup.run loneManager, .returned) :=
  alone_run loneManager lists_loneManager (.cleanup monitorCleanup)

/-- The `EndSession` has ended the session and asks for the manager's mutex, which the cleanup
holds while it asks for that of the session: neither goes on. -/
theorem clashing_deadlock :
    ∃ states : List (LockSystem Bool), LockRun (.initial loneManager clashingCalls) states ∧
      ∃ s ∈ states, s.table.Deadlock ∧ s.SessionFirst true ∧ s.ManagerFirst false := by
  refine ⟨_, lockRun_clashing, clashing [false, false, true, true], List.mem_cons_self, ?_, ?_, ?_⟩
  · exact LockSystem.Clash.deadlock (t := true) (u := false)
      ⟨monitorCleanup, lit "Bw==", 0, [], [], rfl, rfl⟩
  · exact LockSystem.sessionFirst_iff.mpr ⟨0, rfl⟩
  · exact LockSystem.managerFirst_iff.mpr ⟨monitorCleanup, lit "Bw==", 0, [], [], rfl⟩

end MongoBouncer
