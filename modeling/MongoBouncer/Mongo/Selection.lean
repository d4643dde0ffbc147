import MongoBouncer.Mongo.Transparency

/-!
# Servers that only another pod knows

`selectServer` asks the transaction cache and the cursor cache, and each of them asks the
distributed cache, if the client was made with it, when it has no entry of its own. A hit there
carries no server, so the selection succeeds with a nil server, and the call fails.

* `World.KnownElsewhere` : the transaction or the cursor of a request is in the distributed cache,
  and not in the caches of the client.

Principal result: `selectServer_ne_nil_iff`.
-/

namespace MongoBouncer

open GoStd Lruttl

namespace World

/-- The client was made with the distributed cache, which has an entry for the transaction. -/
def SharesTransaction (w : World) (m : ClientID) (lsID : Bytes) : Prop :=
  ∃ dc, w.cacheOf m = some dc ∧ dc.getTransaction lsID = true

/-- The client was made with the distributed cache, which has an entry for the cursor. -/
def SharesCursor (w : World) (m : ClientID) (cursorID : Int64) (collection : GoString) : Prop :=
  ∃ dc, w.cacheOf m = some dc ∧ dc.getCursor cursorID collection ≠ none

/-- The client has an entry for the cursor. -/
def HoldsCursor (w : World) (m : ClientID) (cursorID : Int64) (collection : GoString) : Prop :=
  LruTtl.peek (w.clients m).cursors (CursorCache.buildKey cursorID collection) ≠ none

/-- Only the distributed cache knows the transaction of the request; or no cache knows a
transaction of it, and only the distributed cache knows its cursor. -/
def KnownElsewhere (w : World) (m : ClientID) (req : Request) : Prop :=
  (∃ t, req.details = some t ∧ ¬ (w.clients m).transactions.Holds t.lsID ∧
      w.SharesTransaction m t.lsID) ∨
    (∀ t, req.details = some t → ¬ (w.clients m).transactions.Holds t.lsID ∧
      ¬ w.SharesTransaction m t.lsID) ∧
    req.cursorID ≠ 0 ∧ ¬ w.HoldsCursor m req.cursorID req.collection ∧
      w.SharesCursor m req.cursorID req.collection

end World

section Peek

variable {w : World} {m : ClientID} {req : Request}

theorem peek_transactions_eq_nil {lsID : Bytes} :
    (w.clients m).transactions.peek (w.cacheOf m) lsID = some none ↔
      ¬ (w.clients m).transactions.Holds lsID ∧ w.SharesTransaction m lsID := by
  unfold TransactionCache.peek TransactionCache.Holds World.SharesTransaction
  cases LruTtl.peek (w.clients m).transactions (Base64.encodeToString lsID) with
  | some v => simp
  | none => cases w.cacheOf m <;> simp

theorem peek_transactions_eq_none {lsID : Bytes} :
    (w.clients m).transactions.peek (w.cacheOf m) lsID = none ↔
      ¬ (w.clients m).transactions.Holds lsID ∧ ¬ w.SharesTransaction m lsID := by
  unfold TransactionCache.peek TransactionCache.Holds World.SharesTransaction
  cases LruTtl.peek (w.clients m).transactions (Base64.encodeToString lsID) with
  | some v => simp
  | none => cases w.cacheOf m <;> simp

theorem peek_cursors_eq_nil {cursorID : Int64} {collection : GoString} :
    (w.clients m).cursors.peek (w.cacheOf m) cursorID collection = some none ↔
      ¬ w.HoldsCursor m cursorID collection ∧ w.SharesCursor m cursorID collection := by
  unfold CursorCache.peek World.HoldsCursor World.SharesCursor
  cases LruTtl.peek (w.clients m).cursors (CursorCache.buildKey cursorID collection) with
  | some info => simp
  | none =>
    cases w.cacheOf m with
    | none => simp
    | some dc => simp [Option.isSome_iff_ne_none]

theorem cachedServer_eq_nil_iff : w.cachedServer m req = some none ↔ w.KnownElsewhere m req := by
  have hcursor : (if req.cursorID ≠ 0 then (w.clients m).cursors.peek (w.cacheOf m)
        req.cursorID req.collection else none) = some none ↔
      req.cursorID ≠ 0 ∧ ¬ w.HoldsCursor m req.cursorID req.collection ∧
        w.SharesCursor m req.cursorID req.collection := by
    by_cases hid : req.cursorID ≠ 0
    · rw [if_pos hid, peek_cursors_eq_nil]
      exact (and_iff_right hid).symm
    · rw [if_neg hid]
      simp [hid]
  unfold World.cachedServer World.KnownElsewhere
  cases ht : req.details with
  | none =>
    -- only the cursor counts
    simp only [Option.bind_none, reduceCtorEq, false_and, exists_false, false_implies, implies_true,
      true_and, false_or]
    exact hcursor
  | some t =>
    simp only [Option.bind_some, Option.some.injEq, exists_eq_left', forall_eq']
    cases hpeek : (w.clients m).transactions.peek (w.cacheOf m) t.lsID with
    | none =>
      obtain ⟨hlocal, hshared⟩ := peek_transactions_eq_none.mp hpeek
      simp only [hlocal, hshared, and_false, false_or, not_false_eq_true, and_self, true_and]
      exact hcursor
    | some server =>
      -- the cursor is not looked at
      simp only [Option.some.injEq]
      constructor
      · rintro rfl
        exact Or.inl (peek_transactions_eq_nil.mp hpeek)
      · rintro (hhere | ⟨hno, -⟩)
        · rw [peek_transactions_eq_nil.mpr hhere] at hpeek
          exact (Option.some.inj hpeek).symm
        · rw [peek_transactions_eq_none.mpr hno] at hpeek
          cases hpeek

end Peek

/-- A call whose request is known elsewhere, and whose session has no pinned server, fails for lack
of a server. -/
theorem roundTrip_of_knownElsewhere (d : Driver) {w : World} {m : ClientID} {req : Request}
    (h : w.KnownElsewhere m req) (hopen : (w.clients m).closed = false)
    (hpin : ∀ t, req.details = some t → (w.sessionFor t.lsID).getPinnedServer = none)
    (script : Script) :
    (roundTrip d m req script w).result =
      .error ⟨lit "no server available for database " ++ noServerDatabase req⟩ := by
  have hcached := cachedServer_eq_nil_iff.mpr h
  have hforced : (w.enter req script.now).2.forcedServer m req
      ((w.enter req script.now).1.map (w.enter req script.now).2.session) = some none := by
    unfold World.enter
    cases ht : req.details with
    | none =>
      simp only [Option.map_none, World.forcedServer, Option.bind_none]
      exact hcached
    | some t =>
      simp only
      rw [forcedServer_openSession, World.forcedServer, Option.bind_some, hpin t ht]
      exact hcached
  have hexit : attempt d m req (w.enter req script.now).1 script 0
      { world := (w.enter req script.now).2, deferred := [], events := [] } =
        .exit (.error ⟨lit "no server available for database " ++ noServerDatabase req⟩)
          { world := (w.enter req script.now).2, deferred := [], events := [] } := by
    unfold attempt
    simp only
    rw [World.chooseServer_eq, hforced]
  rw [roundTrip_open hopen]
  unfold retryLoop attempts
  rw [forLoop_of_exit hexit]

/-- **`selectServer` never succeeds with a nil server, exactly if the transaction and the cursor of
the request are not known elsewhere only**; if they are, and no server is pinned, the call fails for
lack of a server. -/
theorem selectServer_ne_nil_iff (d : Driver) (w : World) (m : ClientID) (req : Request)
    (up : Attempt) :
    ((∀ server, w.selectServer m req up = .ok server → server ≠ none) ↔
      ¬ w.KnownElsewhere m req) ∧
    (w.KnownElsewhere m req → (w.clients m).closed = false →
      (∀ t, req.details = some t → (w.sessionFor t.lsID).getPinnedServer = none) →
      ∀ script, (roundTrip d m req script w).result =
        .error ⟨lit "no server available for database " ++ noServerDatabase req⟩) := by
  refine ⟨?_, fun h hopen hpin script => roundTrip_of_knownElsewhere d h hopen hpin script⟩
  rw [← cachedServer_eq_nil_iff]
  unfold World.selectServer
  cases hcached : w.cachedServer m req with
  | none =>
    simp only [reduceCtorEq, not_false_eq_true, iff_true]
    intro server hserver
    cases hup : up.selectServer with
    | error e =>
      rw [hup] at hserver
      cases hserver
    | ok server' =>
      rw [hup] at hserver
      cases hserver
      exact Option.some_ne_none server'
  | some server => simp

/-! ## A transaction that goes on in another pod -/

def emptyCache : DistributedCache :=
  { sessionGroup := fun _ => none
    transactionGroup := fun _ => false
    cursorGroup := fun _ => none
    keyed := fun _ _ h => nomatch h }

/-- A pod after the first statement of a transaction. -/
def firstPod : World :=
  (startInsert.run plainDriver { newWorld with manager := .new (some emptyCache) }).world

/-- Another pod, which shares the distributed cache. -/
def secondPod : World := { newWorld with manager := .new firstPod.manager.distributedCache }

/-- The next statement of the transaction. -/
def nextInsert : Request :=
  .of plainDriver [] (Bson.opMsg (transactionFields [("insert", .string (lit "orders"))]))

/-- In the other pod the selection succeeds with a nil server, and the statement fails. -/
theorem secondPod_selects_nil :
    secondPod.selectServer 0 nextInsert (healthyScript.attempt 0) = .ok none ∧
      (roundTrip plainDriver 0 nextInsert healthyScript secondPod).result =
        .error (errorf "no server available for database shop") := by
  decide +kernel

end MongoBouncer
