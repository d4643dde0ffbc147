import Mathlib.Data.List.AList
import MongoBouncer.Proxy.Router

/-!
# The pool manager

Model of `pool/pool.go`: a pool for each database, which wraps one client, and the clients that
are registered with the connections they hold. Connections are pointers, so they are kept as
references into a heap.

* `Manager` with `getPool`, `registerClient`, `unregisterClient`, `getConnection`,
  `returnConnection`;
* `Manager.Serves` : every pool, and every connection a client holds, wraps a client that suits
  the database.

Principal results: `Manager.Serves.getConnection` and the lemmas that the other operations keep
`Serves`. Health checks, metrics and the statistics that only they read are left out.
-/

namespace MongoBouncer

open GoStd Function

/-- `PoolMode`; `NewManager` admits no other. -/
inductive PoolMode where
  | session
  | transaction
  | statement
  deriving DecidableEq, Repr

/-- A `*PooledConnection`. -/
abbrev ConnRef := Nat

/-- `PooledConnection`. The manager never replaces a pool, so its name stands for it. -/
structure PooledConnection where
  mongoClient : MongoClient
  pool : GoString
  inUse : Bool
  transactionID : GoString
  clientID : GoString
  deriving DecidableEq, Repr

/-- `ConnectionPool`, with the counter of its statistics. -/
structure ConnectionPool where
  mode : PoolMode
  mongoClient : MongoClient
  activeConnections : Nat
  deriving DecidableEq, Repr

structure ClientConnection where
  username : GoString
  database : GoString
  poolMode : PoolMode
  assignedConn : Option ConnRef
  transactionConn : Option ConnRef
  deriving DecidableEq, Repr

structure Manager where
  pools : GoString → Option ConnectionPool
  defaultMode : PoolMode
  maxClientConn : Int
  activeClients : AList fun _ : GoString => ClientConnection
  connections : ConnRef → Option PooledConnection
  next : ConnRef

namespace Manager

/-- `NewManager`: an unknown mode is session mode. -/
def new (defaultMode : GoString) (maxClientConn : Int) : Manager where
  pools := fun _ => none
  defaultMode :=
    if defaultMode = lit "transaction" then .transaction
    else if defaultMode = lit "statement" then .statement
    else .session
  maxClientConn
  activeClients := ∅
  connections := fun _ => none
  next := 0

def getPool (m : Manager) (database : GoString) (mongoClient : MongoClient) (mode : PoolMode) :
    ConnectionPool × Manager :=
  match m.pools database with
  | some pool => (pool, m)
  | none =>
    let pool : ConnectionPool := { mode, mongoClient, activeConnections := 0 }
    (pool, { m with pools := update m.pools database (some pool) })

def getClient (m : Manager) (clientID : GoString) : Option ClientConnection :=
  m.activeClients.lookup clientID

/-- A change to a registered client. -/
def setClient (m : Manager) (clientID : GoString) (client : ClientConnection) : Manager :=
  { m with activeClients := m.activeClients.insert clientID client }

/-- `RegisterClient`. A client that is registered already stays as it is. -/
def registerClient (m : Manager) (clientID username database : GoString) (poolMode : PoolMode) :
    Except GoError Manager :=
  match m.getClient clientID with
  | some _ => .ok m
  | none =>
    if m.maxClientConn > 0 ∧ (m.activeClients.entries.length : Int) ≥ m.maxClientConn then
      .error (errorf "max client connections reached")
    else
      .ok (m.setClient clientID
        { username, database, poolMode, assignedConn := none, transactionConn := none })

/-- `ConnectionPool.Return`, which ignores the connections of other pools. -/
def putBack (m : Manager) (pool : GoString) (conn : ConnRef) : Manager :=
  match m.connections conn with
  | none => m
  | some c =>
    if c.pool ≠ pool then m
    else
      { m with
        connections := update m.connections conn
          (some { c with inUse := false, clientID := [], transactionID := [] })
        pools := update m.pools pool ((m.pools pool).map fun p =>
          { p with activeConnections := p.activeConnections - 1 }) }

/-- `conn.Pool.Return(conn)`. -/
def putBackOwn (m : Manager) (conn : ConnRef) : Manager :=
  match m.connections conn with
  | none => m
  | some c => m.putBack c.pool conn

def unregisterClient (m : Manager) (clientID : GoString) : Manager :=
  match m.getClient clientID with
  | none => m
  | some client =>
    let m := match client.assignedConn with
      | some conn => m.putBackOwn conn
      | none => m
    let m := match client.transactionConn with
      | some conn => m.putBackOwn conn
      | none => m
    { m with activeClients := m.activeClients.erase clientID }

/-- `ConnectionPool.Checkout`: a new connection that wraps the client of the pool. -/
def checkout (m : Manager) (database : GoString) (mongoClient : MongoClient)
    (clientID transactionID : GoString) : ConnRef × Manager :=
  (m.next,
    { m with
      connections := update m.connections m.next
        (some { mongoClient, pool := database, inUse := true, transactionID, clientID })
      pools := update m.pools database ((m.pools database).map fun p =>
        { p with activeConnections := p.activeConnections + 1 })
      next := m.next + 1 })

/-- The transaction connection of a client, for another transaction than the one it holds. -/
def newTransactionConn (m : Manager) (clientID database : GoString) (pool : ConnectionPool)
    (client : ClientConnection) (transactionID : GoString) : ConnRef × Manager :=
  let (conn, m) := m.checkout database pool.mongoClient clientID transactionID
  (conn, m.setClient clientID { client with transactionConn := some conn })

def getConnection (m : Manager) (clientID database : GoString) (mongoClient : MongoClient)
    (isTransaction : Bool) (transactionID : GoString) : Except GoError (ConnRef × Manager) :=
  match m.getClient clientID with
  | none => .error (errorf "client not registered")
  | some client =>
    let (pool, m) := m.getPool database mongoClient client.poolMode
    match client.poolMode with
    | .session =>
      match client.assignedConn with
      | some conn => .ok (conn, m)
      | none =>
        let (conn, m) := m.checkout database pool.mongoClient clientID []
        .ok (conn, m.setClient clientID { client with assignedConn := some conn })
    | .transaction =>
      if isTransaction then
        match client.transactionConn with
        | some conn =>
          if (m.connections conn).map (·.transactionID) = some transactionID then .ok (conn, m)
          else
            .ok ((m.putBack database conn).newTransactionConn clientID database pool client
              transactionID)
        | none => .ok (m.newTransactionConn clientID database pool client transactionID)
      else .ok (m.checkout database pool.mongoClient clientID [])
    | .statement => .ok (m.checkout database pool.mongoClient clientID [])

def returnConnection (m : Manager) (clientID : GoString) (conn : ConnRef)
    (isEndOfTransaction : Bool) : Manager :=
  match m.getClient clientID with
  | none => m.putBackOwn conn
  | some client =>
    match client.poolMode with
    | .session => if some conn ≠ client.assignedConn then m.putBackOwn conn else m
    | .transaction =>
      if isEndOfTransaction ∧ client.transactionConn = some conn then
        (m.putBackOwn conn).setClient clientID { client with transactionConn := none }
      else if ¬isEndOfTransaction ∧ some conn ≠ client.transactionConn then m.putBackOwn conn
      else m
    | .statement => m.putBackOwn conn

/-! ## The clients behind the connections -/

/-- The client that a connection wraps. -/
def clientOf (m : Manager) (conn : ConnRef) : Option MongoClient :=
  (m.connections conn).map (·.mongoClient)

/-- The client that the pool of a database wraps. -/
def poolClient (m : Manager) (database : GoString) : Option MongoClient :=
  (m.pools database).map (·.mongoClient)

section Frames

variable (m : Manager) (clientID database transactionID : GoString) (conn : ConnRef)
  (client : ClientConnection) (mongoClient : MongoClient)

@[simp] theorem getClient_putBack (id : GoString) :
    (m.putBack database conn).getClient id = m.getClient id := by
  unfold putBack
  split
  · rfl
  · split <;> rfl

@[simp] theorem next_putBack : (m.putBack database conn).next = m.next := by
  unfold putBack
  split
  · rfl
  · split <;> rfl

@[simp] theorem clientOf_putBack (conn' : ConnRef) :
    (m.putBack database conn).clientOf conn' = m.clientOf conn' := by
  unfold putBack
  split
  · rfl
  · rename_i c hc
    split
    · rfl
    · by_cases h : conn' = conn
      · subst h
        simp [clientOf, hc]
      · simp [clientOf, h]

@[simp] theorem poolClient_putBack (db : GoString) :
    (m.putBack database conn).poolClient db = m.poolClient db := by
  unfold putBack
  split
  · rfl
  · split
    · rfl
    · by_cases h : db = database
      · subst h
        simp [poolClient, Function.comp_def]
      · simp [poolClient, h]

@[simp] theorem getClient_setClient (id : GoString) : (m.setClient clientID client).getClient id =
      if id = clientID then some client else m.getClient id := by
  unfold getClient setClient
  by_cases h : id = clientID
  · subst h
    simp
  · simp [h]

@[simp] theorem poolClient_setClient (db : GoString) :
    (m.setClient clientID client).poolClient db = m.poolClient db := rfl

@[simp] theorem getClient_checkout (id : GoString) :
    (m.checkout database mongoClient clientID transactionID).2.getClient id = m.getClient id := rfl

theorem clientOf_checkout (conn' : ConnRef) :
    (m.checkout database mongoClient clientID transactionID).2.clientOf conn' =
      if conn' = m.next then some mongoClient else m.clientOf conn' := by
  unfold checkout clientOf
  by_cases h : conn' = m.next
  · subst h
    simp
  · simp [h]

@[simp] theorem poolClient_checkout (db : GoString) :
    (m.checkout database mongoClient clientID transactionID).2.poolClient db = m.poolClient db := by
  unfold checkout poolClient
  by_cases h : db = database
  · subst h
    simp [Function.comp_def]
  · simp [h]

end Frames

theorem putBackOwn_cases (m : Manager) (conn : ConnRef) :
    m.putBackOwn conn = m ∨ ∃ pool, m.putBackOwn conn = m.putBack pool conn := by
  unfold putBackOwn
  split
  · exact Or.inl rfl
  · exact Or.inr ⟨_, rfl⟩

end Manager

def ClientConnection.held (c : ClientConnection) : List ConnRef :=
  c.assignedConn.toList ++ c.transactionConn.toList

namespace Manager

variable {m m' : Manager} {suits : GoString → MongoClient → Prop} {clientID database : GoString}

/-- Every pool, and every connection that a client holds, wraps a client that suits the database
it is for. -/
structure Serves (m : Manager) (suits : GoString → MongoClient → Prop) : Prop where
  pools : ∀ db c, m.poolClient db = some c → suits db c
  held : ∀ id client, m.getClient id = some client → ∀ conn ∈ client.held,
    ∃ c, m.clientOf conn = some c ∧ suits client.database c
  fresh : ∀ conn, m.next ≤ conn → m.clientOf conn = none

theorem serves_new (mode : GoString) (maxClientConn : Int) :
    (Manager.new mode maxClientConn).Serves suits := by
  refine ⟨?_, ?_, ?_⟩
  · intro db c h
    cases h
  · intro id client h
    cases h
  · intro conn _
    rfl

theorem Serves.of_frame (h : m.Serves suits) (hpool : ∀ db, m'.poolClient db = m.poolClient db)
    (hconn : ∀ conn, m'.clientOf conn = m.clientOf conn) (hnext : m'.next = m.next)
    (hclient : ∀ id c, m'.getClient id = some c → c.held = [] ∨
      ∃ c', m.getClient id = some c' ∧ c'.database = c.database ∧ c.held ⊆ c'.held) :
    m'.Serves suits := by
  refine ⟨?_, ?_, ?_⟩
  · intro db c hc
    rw [hpool] at hc
    exact h.pools db c hc
  · intro id client hid conn hmem
    rw [hconn]
    rcases hclient id client hid with hnil | ⟨c', hc', hdb, hsub⟩
    · rw [hnil] at hmem
      cases hmem
    · rw [← hdb]
      exact h.held id c' hc' conn (hsub hmem)
  · intro conn hle
    rw [hconn]
    rw [hnext] at hle
    exact h.fresh conn hle

theorem Serves.putBack (h : m.Serves suits) (conn : ConnRef) :
    (m.putBack database conn).Serves suits := by
  apply h.of_frame
  · exact fun db => poolClient_putBack m database conn db
  · exact fun conn' => clientOf_putBack m database conn conn'
  · exact next_putBack m database conn
  · intro id c hc
    rw [getClient_putBack] at hc
    exact Or.inr ⟨c, hc, rfl, List.Subset.refl _⟩

theorem Serves.putBackOwn (h : m.Serves suits) (conn : ConnRef) :
    (m.putBackOwn conn).Serves suits := by
  rcases m.putBackOwn_cases conn with hsame | ⟨pool, hpool⟩
  · rwa [hsame]
  · rw [hpool]
    exact h.putBack conn

theorem getClient_putBackOwn (m : Manager) (conn : ConnRef) (id : GoString) :
    (m.putBackOwn conn).getClient id = m.getClient id := by
  rcases m.putBackOwn_cases conn with hsame | ⟨pool, hpool⟩
  · rw [hsame]
  · rw [hpool, getClient_putBack]

variable {client : ClientConnection} {mongoClient : MongoClient}

theorem Serves.setClient (h : m.Serves suits)
    (hheld : ∀ conn ∈ client.held, ∃ c, m.clientOf conn = some c ∧ suits client.database c) :
    (m.setClient clientID client).Serves suits := by
  refine ⟨h.pools, ?_, h.fresh⟩
  intro id c hc
  rw [getClient_setClient] at hc
  split at hc
  · cases hc
    exact hheld
  · exact h.held id c hc

theorem Serves.registerClient (h : m.Serves suits) {username : GoString} {mode : PoolMode}
    (hreg : m.registerClient clientID username database mode = .ok m') : m'.Serves suits := by
  unfold Manager.registerClient at hreg
  split at hreg
  · cases hreg
    exact h
  · split at hreg
    · cases hreg
    · cases hreg
      apply h.setClient
      intro conn hmem
      cases hmem

theorem getClient_registerClient {username : GoString} {mode : PoolMode}
    (hnone : m.getClient clientID = none)
    (hreg : m.registerClient clientID username database mode = .ok m') :
    ∃ client, m'.getClient clientID = some client ∧ client.database = database := by
  unfold Manager.registerClient at hreg
  rw [hnone] at hreg
  simp only at hreg
  split at hreg
  · cases hreg
  · cases hreg
    exact ⟨_, by rw [getClient_setClient, if_pos rfl], rfl⟩

theorem Serves.erase (h : m.Serves suits) (clientID : GoString) :
    ({ m with activeClients := m.activeClients.erase clientID } : Manager).Serves suits := by
  refine ⟨h.pools, ?_, h.fresh⟩
  intro id client hid
  refine h.held id client ?_
  unfold getClient at hid ⊢
  by_cases hx : id = clientID
  · subst hx
    rw [AList.lookup_erase] at hid
    cases hid
  · rwa [AList.lookup_erase_ne hx] at hid

theorem Serves.unregisterClient (h : m.Serves suits) (clientID : GoString) :
    (m.unregisterClient clientID).Serves suits := by
  unfold Manager.unregisterClient
  split
  · exact h
  · rename_i client _
    apply Serves.erase
    cases client.assignedConn <;> cases client.transactionConn
    · exact h
    · exact h.putBackOwn _
    · exact h.putBackOwn _
    · exact (h.putBackOwn _).putBackOwn _

@[simp] theorem getClient_unregisterClient (m : Manager) (clientID : GoString) :
    (m.unregisterClient clientID).getClient clientID = none := by
  unfold Manager.unregisterClient
  split
  · assumption
  · exact AList.lookup_erase _ _

theorem Serves.getPool (h : m.Serves suits) (mode : PoolMode)
    (hs : m.poolClient database = none → suits database mongoClient) :
    (m.getPool database mongoClient mode).2.Serves suits ∧
      suits database (m.getPool database mongoClient mode).1.mongoClient := by
  unfold Manager.getPool
  split
  · rename_i pool hpool
    exact ⟨h, h.pools database _ (by simp [poolClient, hpool])⟩
  · rename_i hpool
    have hnew := hs (by simp [poolClient, hpool])
    refine ⟨⟨?_, h.held, h.fresh⟩, hnew⟩
    intro db c hc
    by_cases hdb : db = database
    · subst hdb
      simp only [poolClient, update_self, Option.map_some, Option.some.injEq] at hc
      rwa [← hc]
    · simp only [poolClient, update_of_ne hdb] at hc
      exact h.pools db c hc

@[simp] theorem getClient_getPool (m : Manager) (database : GoString) (mongoClient : MongoClient)
    (mode : PoolMode) (id : GoString) :
    (m.getPool database mongoClient mode).2.getClient id = m.getClient id := by
  unfold Manager.getPool
  split <;> rfl

theorem Serves.checkout (h : m.Serves suits) (mongoClient : MongoClient)
    (clientID transactionID : GoString) :
    (m.checkout database mongoClient clientID transactionID).2.Serves suits := by
  refine ⟨?_, ?_, ?_⟩
  · intro db c hc
    rw [poolClient_checkout] at hc
    exact h.pools db c hc
  · intro id client hid conn hmem
    obtain ⟨c, hc, hsuits⟩ := h.held id client hid conn hmem
    refine ⟨c, ?_, hsuits⟩
    rw [clientOf_checkout, if_neg, hc]
    -- a connection that is held is not the new one
    intro heq
    rw [heq, h.fresh m.next (Nat.le_refl _)] at hc
    cases hc
  · intro conn hle
    have hlt : m.next < conn := hle
    rw [clientOf_checkout, if_neg (Nat.ne_of_gt hlt)]
    exact h.fresh conn (Nat.le_of_lt hlt)

theorem clientOf_checkout_self (m : Manager) (database : GoString) (mongoClient : MongoClient)
    (clientID transactionID : GoString) :
    (m.checkout database mongoClient clientID transactionID).2.clientOf
      (m.checkout database mongoClient clientID transactionID).1 = some mongoClient := by
  rw [clientOf_checkout]
  exact if_pos rfl

theorem Serves.assign (h : m.Serves suits) {client' : ClientConnection}
    (hs : suits client.database mongoClient)
    (hc : m.getClient clientID = some client) (hdb : client'.database = client.database)
    (transactionID : GoString) (hheld : ∀ conn ∈ client'.held, conn = m.next ∨ conn ∈ client.held) :
    ((m.checkout database mongoClient clientID transactionID).2.setClient clientID
      client').Serves suits := by
  have hout : (m.checkout database mongoClient clientID transactionID).2.Serves suits :=
    h.checkout mongoClient clientID transactionID
  apply hout.setClient
  intro conn hmem
  rw [hdb]
  rcases hheld conn hmem with hnew | hold
  · refine ⟨mongoClient, ?_, hs⟩
    rw [hnew]
    exact clientOf_checkout_self m database mongoClient clientID transactionID
  · exact hout.held clientID client hc conn hold

/-- A manager that has handed out a connection which suits the database. -/
def Hands (suits : GoString → MongoClient → Prop) (database : GoString) (r : ConnRef × Manager) :
    Prop :=
  r.2.Serves suits ∧ ∃ c, r.2.clientOf r.1 = some c ∧ suits database c

section

variable (h : m.Serves suits)

include h

theorem Serves.hands_checkout
    (hs : suits database mongoClient) (clientID transactionID : GoString) :
    Hands suits database (m.checkout database mongoClient clientID transactionID) :=
  ⟨h.checkout mongoClient clientID transactionID, mongoClient,
    clientOf_checkout_self m database mongoClient clientID transactionID, hs⟩

theorem Serves.hands_held {conn : ConnRef}
    (hc : m.getClient clientID = some client) (hmem : conn ∈ client.held) :
    Hands suits client.database (conn, m) :=
  ⟨h, h.held clientID client hc conn hmem⟩

theorem Serves.hands_newTransactionConn
    {pool : ConnectionPool} (hc : m.getClient clientID = some client)
    (hs : suits client.database pool.mongoClient) (transactionID : GoString) :
    Hands suits client.database
      (m.newTransactionConn clientID client.database pool client transactionID) := by
  refine ⟨h.assign hs hc ?_ transactionID ?_, pool.mongoClient, ?_, hs⟩
  · rfl
  · intro conn hmem
    rcases List.mem_append.mp hmem with hold | hnew
    · exact Or.inr (List.mem_append_left _ hold)
    · exact Or.inl (List.mem_singleton.mp hnew)
  · exact clientOf_checkout_self m client.database pool.mongoClient clientID transactionID

theorem Serves.hands_assigned (hc : m.getClient clientID = some client)
    (hs : suits client.database mongoClient) :
    Hands suits client.database
      ((m.checkout client.database mongoClient clientID []).1,
        (m.checkout client.database mongoClient clientID []).2.setClient clientID
          { client with
            assignedConn := some (m.checkout client.database mongoClient clientID []).1 }) := by
  refine ⟨h.assign hs hc ?_ [] ?_, mongoClient, ?_, hs⟩
  · rfl
  · intro conn hmem
    rcases List.mem_append.mp hmem with hnew | hold
    · exact Or.inl (List.mem_singleton.mp hnew)
    · exact Or.inr (List.mem_append_right _ hold)
  · exact clientOf_checkout_self m client.database mongoClient clientID []

/-- **The connection that a client gets for its database wraps a client that suits it.** -/
theorem Serves.getConnection {isTransaction : Bool} {transactionID : GoString}
    {r : ConnRef × Manager} (hc : m.getClient clientID = some client)
    (hs : m.poolClient client.database = none → suits client.database mongoClient)
    (hget : m.getConnection clientID client.database mongoClient isTransaction transactionID =
      .ok r) : Hands suits client.database r := by
  obtain ⟨hpool, hsuits⟩ := h.getPool client.poolMode hs
  have hc' := hc
  rw [← getClient_getPool m client.database mongoClient client.poolMode clientID] at hc'
  unfold Manager.getConnection at hget
  rw [hc] at hget
  simp only at hget
  generalize m.getPool client.database mongoClient client.poolMode = pm at *
  split at hget
  · split at hget
    · rename_i conn hconn
      cases hget
      exact hpool.hands_held hc' (by simp [ClientConnection.held, hconn])
    · cases hget
      exact hpool.hands_assigned hc' hsuits
  · split at hget
    · split at hget
      · rename_i conn hconn
        split at hget
        · cases hget
          exact hpool.hands_held hc' (by simp [ClientConnection.held, hconn])
        · cases hget
          rw [← getClient_putBack pm.2 client.database conn clientID] at hc'
          exact (hpool.putBack conn).hands_newTransactionConn hc' hsuits transactionID
      · cases hget
        exact hpool.hands_newTransactionConn hc' hsuits transactionID
    · cases hget
      exact hpool.hands_checkout hsuits clientID []
  · cases hget
    exact hpool.hands_checkout hsuits clientID []

theorem Serves.returnConnection (clientID : GoString) (conn : ConnRef) (isEndOfTransaction : Bool) :
    (m.returnConnection clientID conn isEndOfTransaction).Serves suits := by
  unfold Manager.returnConnection
  split
  · exact h.putBackOwn conn
  · rename_i client hc
    split
    · split
      · exact h.putBackOwn conn
      · exact h
    · split
      · apply (h.putBackOwn conn).setClient
        intro conn' hmem
        refine (h.putBackOwn conn).held clientID client ?_ conn' ?_
        · rw [getClient_putBackOwn]
          exact hc
        · simp only [ClientConnection.held, Option.toList_none, List.append_nil] at hmem
          exact List.mem_append_left _ hmem
      · split
        · exact h.putBackOwn conn
        · exact h
    · exact h.putBackOwn conn

end

end Manager

end MongoBouncer
