import MongoBouncer.GoStd.Base64
import MongoBouncer.Wire.Operation

/-!
# Sessions and the session manager

Model of `mongo/session_manager.go` and of the part of `mongo/distributed_cache.go` it calls.
A `*Session` is a reference into the heap of the manager, because RoundTrip keeps such pointers
across calls that change or remove the map entry they were found under.

* `Session.*`        : what an operation does to one session object;
* `SessionManager.*` : the operations of the source, on a reference.

An operation that reads the clock takes the reading as its argument `now`.
-/

namespace MongoBouncer

open GoStd Function

/-- An `error`: its text. -/
structure GoError where
  text : GoString
  deriving DecidableEq, Repr

/-- `fmt.Errorf` or `errors.New` of a constant text. -/
def errorf (text : String) : GoError := ⟨lit text⟩

/-- `driver.Server`: its identity, and whether it implements `driver.ErrorProcessor`. -/
structure Server where
  id : Nat
  errorProcessor : Bool
  deriving DecidableEq, Repr

/-- `driver.Connection`: its identity. -/
abbrev Conn := Nat

/-- `*Session`. -/
abbrev Ref := Nat

inductive SessionState where
  | active | inactive | ended
  deriving DecidableEq, Repr

inductive TransactionState where
  | none | starting | inProgress | committed | aborted
  deriving DecidableEq, Repr

structure Session where
  id : GoString
  lsID : Bytes
  clientID : GoString
  state : SessionState
  createdAt : Int
  lastActivity : Int
  transactionState : TransactionState
  currentTxnNumber : Int64
  pinnedServer : Option Server
  pinnedConnection : Option Conn
  deriving DecidableEq, Repr

namespace Session

/-- The zero `Session`, which fills the part of the heap that is not allocated. -/
def zero : Session :=
  { id := [], lsID := [], clientID := [], state := .inactive, createdAt := 0, lastActivity := 0,
    transactionState := .none, currentTxnNumber := 0, pinnedServer := none,
    pinnedConnection := none }

/-- The session RoundTrip and `CreateSession` make for an lsid. -/
def fresh (lsID : Bytes) (clientID : GoString) (now : Int) : Session :=
  { id := Base64.encodeToString lsID, lsID, clientID, state := .active, createdAt := now,
    lastActivity := now, transactionState := .none, currentTxnNumber := 0, pinnedServer := none,
    pinnedConnection := none }

/-- `session.LastActivity = time.Now()`. -/
def touch (s : Session) (now : Int) : Session := { s with lastActivity := now }

def startTransaction (s : Session) (server : Server) (connection : Conn) (txnNumber : Int64)
    (now : Int) : Except GoError Session :=
  if s.state ≠ .active then
    .error (errorf "cannot start transaction on inactive session")
  else if s.transactionState ≠ .none then
    .error (errorf "transaction already in progress")
  else
    .ok { s with
      currentTxnNumber := txnNumber
      transactionState := .inProgress
      pinnedServer := some server
      pinnedConnection := some connection
      lastActivity := now }

/-- The common shape of `CommitTransaction` and `AbortTransaction`. -/
def finishTransaction (s : Session) (outcome : TransactionState) (text : String) (now : Int) :
    Except GoError Session :=
  if s.transactionState ≠ .inProgress then .error (errorf text)
  else .ok { s with transactionState := outcome, lastActivity := now }

def commitTransaction (s : Session) (now : Int) : Except GoError Session :=
  s.finishTransaction .committed "no transaction in progress to commit" now

def abortTransaction (s : Session) (now : Int) : Except GoError Session :=
  s.finishTransaction .aborted "no transaction in progress to abort" now

def unpinTransaction (s : Session) : Session :=
  { s with pinnedServer := none, pinnedConnection := none }

def resetTransactionState (s : Session) : Session :=
  { s with transactionState := .none, currentTxnNumber := 0, pinnedServer := none,
           pinnedConnection := none }

/-- `EndSession`, on a session that has not ended. -/
def endSession (s : Session) (now : Int) : Session :=
  let s := if s.transactionState = .inProgress then
      { s with transactionState := .aborted, pinnedServer := none, pinnedConnection := none }
    else s
  { s with state := .ended, lastActivity := now }

def getPinnedServer (s : Session) : Option Server :=
  if s.transactionState = .inProgress then s.pinnedServer else none

def getPinnedConnection (s : Session) : Option Conn :=
  if s.transactionState = .inProgress ∨ s.transactionState = .committed ∨
      s.transactionState = .aborted then s.pinnedConnection
  else none

def isTransactionActive (s : Session) : Bool := decide (s.transactionState = .inProgress)

end Session

/-! ## The distributed cache -/

/-- `SessionData`, without the two pointer names that are written but never read back. -/
structure SessionData where
  id : GoString
  lsID : Bytes
  clientID : GoString
  state : SessionState
  createdAt : Int
  lastActivity : Int
  transactionState : TransactionState
  currentTxnNumber : Int64
  deriving DecidableEq, Repr

/-- `DistributedCache` when it is enabled: the groups of the shared cache, each a map from keys to
the values the pods stored. Of a transaction only the presence is read back, of a cursor the
database name. -/
structure DistributedCache where
  sessionGroup : GoString → Option SessionData
  transactionGroup : GoString → Bool
  cursorGroup : GoString → Option GoString
  /-- Sessions are only ever stored under their own id. -/
  keyed : ∀ k s, sessionGroup k = some s → s.id = k

namespace DistributedCache

def storeSession (dc : DistributedCache) (s : Session) : DistributedCache :=
  { dc with
    sessionGroup := update dc.sessionGroup s.id (some
      { id := s.id, lsID := s.lsID, clientID := s.clientID, state := s.state,
        createdAt := s.createdAt, lastActivity := s.lastActivity,
        transactionState := s.transactionState, currentTxnNumber := s.currentTxnNumber })
    keyed := by
      intro k t h
      by_cases hk : k = s.id
      · subst hk
        simp only [update_self, Option.some.injEq] at h
        rw [← h]
      · rw [update_of_ne hk] at h
        exact dc.keyed k t h }

/-- `GetSession`: the stored fields, with nothing pinned. -/
def getSession (dc : DistributedCache) (sessionID : GoString) : Option Session :=
  (dc.sessionGroup sessionID).map fun s =>
    { id := s.id, lsID := s.lsID, clientID := s.clientID, state := s.state,
      createdAt := s.createdAt, lastActivity := s.lastActivity,
      transactionState := s.transactionState, currentTxnNumber := s.currentTxnNumber,
      pinnedServer := none, pinnedConnection := none }

def removeSession (dc : DistributedCache) (sessionID : GoString) : DistributedCache :=
  { dc with
    sessionGroup := update dc.sessionGroup sessionID none
    keyed := by
      intro k t h
      by_cases hk : k = sessionID
      · subst hk
        simp at h
      · rw [update_of_ne hk] at h
        exact dc.keyed k t h }

def transactionKey (lsid : Bytes) : GoString := lit "txn_" ++ formatHex lsid

def storeTransaction (dc : DistributedCache) (lsid : Bytes) : DistributedCache :=
  { dc with transactionGroup := update dc.transactionGroup (transactionKey lsid) true }

/-- `GetTransaction`: a hit carries no server. -/
def getTransaction (dc : DistributedCache) (lsid : Bytes) : Bool :=
  dc.transactionGroup (transactionKey lsid)

def removeTransaction (dc : DistributedCache) (lsid : Bytes) : DistributedCache :=
  { dc with transactionGroup := update dc.transactionGroup (transactionKey lsid) false }

def cursorKey (cursorID : Int64) (collection : GoString) : GoString :=
  lit "cursor_" ++ formatInt cursorID.toInt ++ lit "_" ++ collection

def storeCursor (dc : DistributedCache) (cursorID : Int64) (collection databaseName : GoString) :
    DistributedCache :=
  { dc with cursorGroup :=
      update dc.cursorGroup (cursorKey cursorID collection) (some databaseName) }

/-- `GetCursor`: the database name, and no server. -/
def getCursor (dc : DistributedCache) (cursorID : Int64) (collection : GoString) :
    Option GoString :=
  dc.cursorGroup (cursorKey cursorID collection)

def removeCursor (dc : DistributedCache) (cursorID : Int64) (collection : GoString) :
    DistributedCache :=
  { dc with cursorGroup := update dc.cursorGroup (cursorKey cursorID collection) none }

end DistributedCache

/-! ## The session manager -/

/-- `SessionManager`, with the heap its references point into. `distributedCache` is `none` when
the cache is absent or disabled. -/
structure SessionManager where
  sessions : GoString → Option Ref
  objects : Ref → Session
  next : Ref
  distributedCache : Option DistributedCache

namespace SessionManager

/-- `NewSessionManagerWithDistributedCache`. -/
def new (distributedCache : Option DistributedCache) : SessionManager :=
  { sessions := fun _ => none, objects := fun _ => .zero, next := 0, distributedCache }

/-- Writes the fields of a session object. -/
def setSession (sm : SessionManager) (r : Ref) (s : Session) : SessionManager :=
  { sm with objects := update sm.objects r s }

/-- Allocates a session object and maps an id to it. -/
def insertSession (sm : SessionManager) (sessionID : GoString) (s : Session) :
    Ref × SessionManager :=
  (sm.next, { sm with
    sessions := update sm.sessions sessionID (some sm.next)
    objects := update sm.objects sm.next s
    next := sm.next + 1 })

/-- What the distributed cache knows of a session, when it is enabled. -/
def distributedSession (sm : SessionManager) (sessionID : GoString) : Option Session :=
  sm.distributedCache.bind (·.getSession sessionID)

/-- The second half of `GetSession`: a session that only the distributed cache knows is stored in
the local map. -/
def fetchSession (sm : SessionManager) (sessionID : GoString) : Option Ref × SessionManager :=
  match sm.distributedSession sessionID with
  | some s => (some sm.next, (sm.insertSession sessionID s).2)
  | none => (none, sm)

def getSession (sm : SessionManager) (lsid : Bytes) (now : Int) : Option Ref × SessionManager :=
  let sessionID := Base64.encodeToString lsid
  match sm.sessions sessionID with
  | some r =>
    if (sm.objects r).state ≠ .ended then
      (some r, sm.setSession r ((sm.objects r).touch now))
    else sm.fetchSession sessionID
  | none => sm.fetchSession sessionID

def startTransaction (sm : SessionManager) (r : Ref) (server : Server) (connection : Conn)
    (txnNumber : Int64) (now : Int) : Except GoError SessionManager :=
  match (sm.objects r).startTransaction server connection txnNumber now with
  | .error e => .error e
  | .ok s =>
    .ok { sm.setSession r s with
      distributedCache := sm.distributedCache.map fun dc =>
        (dc.storeTransaction s.lsID).storeSession s }

def commitTransaction (sm : SessionManager) (r : Ref) (now : Int) :
    Except GoError SessionManager :=
  ((sm.objects r).commitTransaction now).map (sm.setSession r)

def abortTransaction (sm : SessionManager) (r : Ref) (now : Int) :
    Except GoError SessionManager :=
  ((sm.objects r).abortTransaction now).map (sm.setSession r)

def unpinTransaction (sm : SessionManager) (r : Ref) : SessionManager :=
  sm.setSession r (sm.objects r).unpinTransaction

def resetTransactionState (sm : SessionManager) (r : Ref) : SessionManager :=
  sm.setSession r (sm.objects r).resetTransactionState

def endSession (sm : SessionManager) (r : Ref) (now : Int) : SessionManager :=
  if (sm.objects r).state = .ended then sm
  else
    let s := (sm.objects r).endSession now
    { sm.setSession r s with
      sessions := update sm.sessions s.id none
      distributedCache := sm.distributedCache.map (·.removeSession s.id) }

end SessionManager

end MongoBouncer
