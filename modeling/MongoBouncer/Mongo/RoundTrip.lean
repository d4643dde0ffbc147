import MongoBouncer.GoStd.Control
import MongoBouncer.Mongo.Caches

/-!
# `Mongo.RoundTrip`

Model of RoundTrip of `mongo/mongo.go` with `selectServer`, `checkoutConnection`, `roundTrip`
and `isRetryableError`. One call looks its session up once, then makes at most
`maxRetries + 1` attempts; what the upstream cluster answers on each of them is a `Script`.

* `attempt`      : one iteration of the retry loop, cut at the points where the source returns or
  continues;
* `Deferred`     : the deferred closures, which pile up over the attempts of one call and run in
  LIFO order when it returns;
* `Event`        : what the call does to driver connections, in order.

Metrics, logging, health checks and `processError` change none of the modelled state and are
left out.
-/

namespace MongoBouncer

open GoStd Function

/-! ## The state of the proxy that round trips work on -/

/-- A `*Mongo`. -/
abbrev ClientID := Nat

/-- The session manager, the clients that share it, and the driver connections that are checked
out (handed out by `server.Connection` and not closed since). -/
structure World where
  manager : SessionManager
  clients : ClientID → Mongo
  checkedOut : List Conn

/-- What a call does to connections. `start` records a successful `StartTransaction`; a `write`
says whether `WriteWireMessage` succeeded. -/
inductive Event where
  | checkout (conn : Conn)
  | start (lsID : Bytes) (conn : Conn)
  | write (conn : Conn) (delivered : Bool)
  | close (conn : Conn)
  deriving DecidableEq, Repr

/-- `Message`, as RoundTrip returns it (`Op` is nil after an unacknowledged write). -/
structure Message where
  wm : Bytes
  op : Option Operation
  deriving DecidableEq, Repr

/-- What RoundTrip reads off the client's message. -/
structure Request where
  wm : Bytes
  cursorID : Int64
  command : Command
  collection : GoString
  details : Option TransactionDetails
  unacknowledged : Bool
  databaseName : GoString
  deriving DecidableEq, Repr

/-- The request of a wire message and the operation it was decoded to. -/
def Request.of (d : Driver) (wm : Bytes) (op : Operation) : Request :=
  { wm
    cursorID := (op.cursorID d).getD 0
    command := (op.commandAndCollection d).1
    collection := (op.commandAndCollection d).2
    details := op.transactionDetails d
    unacknowledged := op.unacknowledged
    databaseName := op.databaseName d }

/-- What the cluster answers during one attempt. `server.Connection` may hand out any connection
that is not checked out. -/
structure Attempt where
  now : Int
  selectServer : Except GoError Server
  connection : Server → (out : List Conn) → Except GoError { c : Conn // c ∉ out }
  writeWireMessage : Option GoError
  readWireMessage : Except GoError Bytes

/-- What the cluster answers during one call, attempt by attempt. -/
structure Script where
  now : Int
  attempt : Nat → Attempt

/-! ## Retryable errors -/

/-- The list in `isRetryableError`. -/
def retryableErrors : List GoString :=
  [lit "connection refused", lit "connection reset", lit "connection timeout",
   lit "network is unreachable", lit "no route to host", lit "temporary failure",
   lit "server selection error", lit "context deadline exceeded", lit "EOF",
   lit "socket was unexpectedly closed"]

/-- `isRetryableError`: the text is lower-cased, the patterns are not. -/
def isRetryableError (e : GoError) : Bool := retryableErrors.any (contains (toLower e.text))

def wrapNetworkError (d : Driver) (e : GoError) : GoError := ⟨d.networkErrorText e.text⟩

def maxRetries : Nat := 3

/-! ## Sessions, servers and connections -/

namespace World

/-- The session object behind a reference. -/
def session (w : World) (r : Ref) : Session := w.manager.objects r

/-- The session of the transaction fields: looked up, or made for the lsid. -/
def openSession (w : World) (t : TransactionDetails) (now : Int) : Ref × World :=
  match w.manager.getSession t.lsID now with
  | (some r, sm) => (r, { w with manager := sm })
  | (none, sm) =>
    let s := Session.fresh t.lsID (lit "unknown") now
    let (r, sm) := sm.insertSession s.id s
    (r, { w with manager := sm })

/-- The distributed cache of a client's own caches. It is the session manager's, and nil for a
client that was made without it. -/
def cacheOf (w : World) (m : ClientID) : Option DistributedCache :=
  if (w.clients m).distributed then w.manager.distributedCache else none

/-- The distributed cache after the client's caches have written to theirs. -/
def writeThrough (w : World) (m : ClientID) (f : DistributedCache → DistributedCache) :
    Option DistributedCache :=
  if (w.clients m).distributed then w.manager.distributedCache.map f
  else w.manager.distributedCache

@[simp] theorem isSome_writeThrough (w : World) (m : ClientID)
    (f : DistributedCache → DistributedCache) :
    (w.writeThrough m f).isSome = w.manager.distributedCache.isSome := by
  unfold writeThrough
  split <;> simp

/-- The server `selectServer` finds in the caches: by the transaction, then by the cursor. -/
def cachedServer (w : World) (m : ClientID) (req : Request) : Option (Option Server) :=
  let dc := w.cacheOf m
  match req.details.bind fun t => (w.clients m).transactions.peek dc t.lsID with
  | some server => some server
  | none =>
    if req.cursorID ≠ 0 then (w.clients m).cursors.peek dc req.cursorID req.collection else none

/-- `selectServer`; `none` is the nil server. -/
def selectServer (w : World) (m : ClientID) (req : Request) (up : Attempt) :
    Except GoError (Option Server) :=
  match w.cachedServer m req with
  | some server => .ok server
  | none => up.selectServer.map some

/-- The server of an attempt: the pinned one of the transaction, or a selected one. -/
def chooseServer (w : World) (m : ClientID) (req : Request) (session : Option Ref)
    (up : Attempt) : Except GoError (Option Server) :=
  match session.bind fun r => (w.session r).getPinnedServer with
  | some server => .ok (some server)
  | none => w.selectServer m req up

def checkoutConnection (w : World) (server : Server) (session : Option Ref) (up : Attempt) :
    Except GoError (Conn × World × List Event) :=
  match session.bind fun r => (w.session r).getPinnedConnection with
  | some conn => .ok (conn, w, [])
  | none =>
    match up.connection server w.checkedOut with
    | .error e => .error e
    | .ok conn => .ok (conn.1, { w with checkedOut := conn.1 :: w.checkedOut }, [.checkout conn.1])

/-- `conn.Close()`. -/
def close (w : World) (conn : Conn) : World :=
  { w with checkedOut := w.checkedOut.filter (· ≠ conn) }

/-- The switch on the command: what the manager becomes, and whether the command ends the
transaction. -/
def finishTransaction (w : World) (r : Ref) (command : Command) (now : Int) :
    Except GoError (World × Bool) :=
  match command with
  | .commitTransaction =>
    (w.manager.commitTransaction r now).map fun sm => ({ w with manager := sm }, true)
  | .abortTransaction =>
    (w.manager.abortTransaction r now).map fun sm => ({ w with manager := sm }, true)
  | .endSessions => .ok ({ w with manager := w.manager.endSession r now }, false)
  | _ => .ok (w, false)

/-- `StartTransaction`, when the message asks for it. -/
def startTransaction (w : World) (r : Ref) (t : TransactionDetails) (server : Server)
    (conn : Conn) (now : Int) : Except GoError (World × List Event) :=
  if t.isStartTransaction then
    (w.manager.startTransaction r server conn t.txnNumber now).map fun sm =>
      ({ w with manager := sm }, [.start t.lsID conn])
  else .ok (w, [])

/-- The update of the cursor cache after a reply. -/
def updateCursors (w : World) (m : ClientID) (req : Request) (server : Server)
    (responseCursorID : Option Int64) (now : Int) : World :=
  match responseCursorID with
  | none => w
  | some id =>
    let c := w.clients m
    if id ≠ 0 then
      let parsed := (parseCollectionName req.collection).database
      let databaseName :=
        if req.collection ≠ [] ∧ parsed ≠ [] then parsed else lit "default"
      let databaseName :=
        if databaseName = lit "default" ∧ c.databaseName ≠ lit "dynamic" ∧
            c.databaseName ≠ lit "default" then c.databaseName
        else databaseName
      let cursors := c.cursors.add now id req.collection server databaseName
      let dc := w.writeThrough m (·.storeCursor id req.collection databaseName)
      { w with
        clients := update w.clients m { c with cursors }
        manager := { w.manager with distributedCache := dc } }
    else if req.cursorID ≠ 0 then
      let cursors := c.cursors.remove req.cursorID req.collection
      let dc := w.writeThrough m (·.removeCursor req.cursorID req.collection)
      { w with
        clients := update w.clients m { c with cursors }
        manager := { w.manager with distributedCache := dc } }
    else w

/-- The update of the transaction cache after a reply. -/
def updateTransactions (w : World) (m : ClientID) (req : Request) (server : Server) (now : Int) :
    World :=
  let c := w.clients m
  match req.details with
  | none => w
  | some t =>
    if t.isStartTransaction then
      let transactions := c.transactions.add now t.lsID server
      let dc := w.writeThrough m (·.storeTransaction t.lsID)
      { w with
        clients := update w.clients m { c with transactions }
        manager := { w.manager with distributedCache := dc } }
    else if req.command = .abortTransaction ∨ req.command = .commitTransaction then
      let transactions := c.transactions.remove t.lsID
      let dc := w.writeThrough m (·.removeTransaction t.lsID)
      { w with
        clients := update w.clients m { c with transactions }
        manager := { w.manager with distributedCache := dc } }
    else w

end World

/-! ## Deferred closures -/

/-- The closures an attempt defers. -/
inductive Deferred where
  | unpinTransaction (session : Ref)
  | closeConnection (conn : Conn) (session : Option Ref) (isCommitOrAbortCommand : Bool)
  deriving DecidableEq, Repr

def Deferred.run (w : World) : Deferred → World × List Event
  | unpinTransaction r => ({ w with manager := w.manager.unpinTransaction r }, [])
  | closeConnection conn session true =>
    let w := w.close conn
    match session with
    | some r => ({ w with manager := w.manager.resetTransactionState r }, [.close conn])
    | none => (w, [.close conn])
  | closeConnection conn session false =>
    if session.all fun r => !(w.session r).isTransactionActive then (w.close conn, [.close conn])
    else (w, [])

/-- Runs the deferred closures, last deferred first. -/
def runDeferred : List Deferred → World → World × List Event
  | [], w => (w, [])
  | f :: fs, w =>
    let (w, ev) := f.run w
    let (w, evs) := runDeferred fs w
    (w, ev ++ evs)

/-! ## Attempts -/

/-- The state of a call between attempts: the world, the deferred closures (last one first) and
the events so far. -/
structure Frame where
  world : World
  deferred : List Deferred
  events : List Event

/-- How sending the message on a connection ends. -/
inductive Exchange where
  | again
  | fail (e : GoError)
  | unacknowledged
  | reply (wm : Bytes) (op : Operation)
  deriving DecidableEq, Repr

section Call

variable (d : Driver)

/-- `Mongo.roundTrip`: write, then read the reply unless the write is unacknowledged. -/
def roundTripOn (conn : Conn) (req : Request) (up : Attempt) :
    Except GoError Bytes × List Event :=
  match up.writeWireMessage with
  | some e => (.error (wrapNetworkError d e), [.write conn false])
  | none =>
    if req.unacknowledged then (.ok [], [.write conn true])
    else
      match up.readWireMessage with
      | .error e => (.error (wrapNetworkError d e), [.write conn true])
      | .ok res => (.ok res, [.write conn true])

/-- From the `ErrorProcessor` assertion to `Decode`, on attempt `i`. -/
def exchange (i : Nat) (server : Server) (conn : Conn) (req : Request) (up : Attempt) :
    Exchange × List Event :=
  if server.errorProcessor then
    match roundTripOn d conn req up with
    | (.error e, ev) => (if i < maxRetries ∧ isRetryableError e then .again else .fail e, ev)
    | (.ok wm, ev) =>
      if req.unacknowledged then (.unacknowledged, ev)
      else
        match decode d wm with
        | .error e => (if i < maxRetries then .again else .fail ⟨e.text⟩, ev)
        | .ok op => (.reply wm op, ev)
  else
    (if i < maxRetries then .again
      else .fail (errorf "server ErrorProcessor type assertion failed"), [])

/-- The database named in the error for a nil server. -/
def noServerDatabase (req : Request) : GoString :=
  let parsed := (parseCollectionName req.collection).database
  if req.databaseName ≠ [] then req.databaseName
  else if req.collection ≠ [] ∧ parsed ≠ [] then parsed
  else lit "default"

/-- The transaction state management of an attempt on connection `conn`. -/
def manageTransaction (f : Frame) (req : Request) (session : Option Ref) (server : Server)
    (conn : Conn) (now : Int) : Except (GoError × Frame) (Frame × Bool) :=
  match session, req.details with
  | some r, some t =>
    match f.world.startTransaction r t server conn now with
    | .error e => .error (e, f)
    | .ok (w, ev) =>
      let f := { f with world := w, events := f.events ++ ev }
      match w.finishTransaction r req.command now with
      | .error e => .error (e, f)
      | .ok (w, fin) =>
        .ok ({ f with
          world := w
          deferred := if fin then .unpinTransaction r :: f.deferred else f.deferred }, fin)
  | _, _ => .ok (f, false)

/-- The rest of an attempt once the closing closure is deferred: send the message, and on a reply
update the caches. -/
def sendAndUpdate (m : ClientID) (req : Request) (i : Nat) (server : Server) (conn : Conn)
    (up : Attempt) (f : Frame) : Flow Frame (Except GoError Message) :=
  let (x, ev) := exchange d i server conn req up
  let f := { f with events := f.events ++ ev }
  match x with
  | .again => .next f
  | .fail e => .exit (.error e) f
  | .unacknowledged => .exit (.ok { wm := [], op := none }) f
  | .reply wm op =>
    let w := f.world.updateCursors m req server (op.cursorID d) up.now
    .exit (.ok { wm, op := some op })
      { f with world := w.updateTransactions m req server up.now }

/-- One iteration of the retry loop. -/
def attempt (m : ClientID) (req : Request) (session : Option Ref) (script : Script) (i : Nat)
    (f : Frame) : Flow Frame (Except GoError Message) :=
  let up := script.attempt i
  match f.world.chooseServer m req session up with
  | .error e =>
    -- a call with a session returns the selection error at once, others retry it
    if session.isNone ∧ i < maxRetries then .next f else .exit (.error e) f
  | .ok none =>
    .exit (.error ⟨lit "no server available for database " ++ noServerDatabase req⟩) f
  | .ok (some server) =>
    match f.world.checkoutConnection server session up with
    | .error e => if i < maxRetries then .next f else .exit (.error e) f
    | .ok (conn, w, ev) =>
      let f := { f with world := w, events := f.events ++ ev }
      match manageTransaction f req session server conn up.now with
      -- the closing closure is not deferred yet
      | .error (e, f) => .exit (.error e) f
      | .ok (f, fin) =>
        sendAndUpdate d m req i server conn up
          { f with deferred := .closeConnection conn session fin :: f.deferred }

/-- What a call returns, the world it leaves and what it did to connections. -/
structure CallResult where
  result : Except GoError Message
  world : World
  events : List Event

/-- The retry loop: the result, and the frame in which the deferred closures run. -/
def attempts (m : ClientID) (req : Request) (session : Option Ref) (script : Script)
    (w : World) : Except GoError Message × Frame :=
  forLoop (attempt d m req session script) (.error (errorf "max retries exceeded"))
    (maxRetries + 1) 0 { world := w, deferred := [], events := [] }

/-- The retry loop and the deferred closures. -/
def retryLoop (m : ClientID) (req : Request) (session : Option Ref) (script : Script)
    (w : World) : CallResult :=
  let (result, f) := attempts d m req session script w
  let (w, ev) := runDeferred f.deferred f.world
  { result, world := w, events := f.events ++ ev }

def roundTrip (m : ClientID) (req : Request) (script : Script) (w : World) : CallResult :=
  if (w.clients m).closed then
    { result := .error (errorf "connection closed"), world := w, events := [] }
  else
    match req.details with
    | none => retryLoop d m req none script w
    | some t =>
      let (r, w) := w.openSession t script.now
      retryLoop d m req (some r) script w

end Call

end MongoBouncer
