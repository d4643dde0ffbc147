import MongoBouncer.Runs
import MongoBouncer.Proxy.Pool

/-!
# Calls of the pool manager

What the calls of clients do to the pool manager. The ledger keeps beside the manager which
connection was given to which client.

* `Manager.Call`, `Manager.perform` : the calls, and what they leave and give;
* `Manager.Ledger`, `Manager.Does`  : one call, entered into the ledger; a client returns only a
  connection it was given;
* `Manager.Acts`                    : a call acts on the client that makes it, and on connections
  given to that client;
* `Manager.Got`                     : the ways in which `GetConnection` gives a connection.

Principal results: `Manager.got_of_getConnection`, `Manager.registerClient_cases`,
`Manager.unregisterClient_eq`.
-/

namespace MongoBouncer

open GoStd

namespace Manager

/-! ## Calls -/

/-- A call of the manager that may change it. -/
inductive Call where
  | registerClient (clientID username database : GoString) (poolMode : PoolMode)
  | unregisterClient (clientID : GoString)
  | getConnection (clientID database : GoString) (mongoClient : MongoClient)
      (isTransaction : Bool) (transactionID : GoString)
  | returnConnection (clientID : GoString) (conn : ConnRef) (isEndOfTransaction : Bool)
  deriving DecidableEq, Repr

/-- The client that makes a call. -/
def Call.caller : Call → GoString
  | .registerClient clientID _ _ _ => clientID
  | .unregisterClient clientID => clientID
  | .getConnection clientID _ _ _ _ => clientID
  | .returnConnection clientID _ _ => clientID

/-- What a call leaves, and the connection it gives. -/
def perform (m : Manager) : Call → Manager × Option ConnRef
  | .registerClient clientID username database poolMode =>
    match m.registerClient clientID username database poolMode with
    | .ok m => (m, none)
    | .error _ => (m, none)
  | .unregisterClient clientID => (m.unregisterClient clientID, none)
  | .getConnection clientID database mongoClient isTransaction transactionID =>
    match m.getConnection clientID database mongoClient isTransaction transactionID with
    | .ok (conn, m) => (m, some conn)
    | .error _ => (m, none)
  | .returnConnection clientID conn isEndOfTransaction =>
    (m.returnConnection clientID conn isEndOfTransaction, none)

/-- A manager, and the connections it gave to its clients. -/
structure Ledger where
  manager : Manager
  given : List (GoString × ConnRef)

/-- A client returns only a connection it was given. -/
def Call.Proper (given : List (GoString × ConnRef)) : Call → Prop
  | .returnConnection clientID conn _ => (clientID, conn) ∈ given
  | _ => True

/-- A call, and the connection it gave. -/
abbrev Event := Call × Option ConnRef

def Ledger.enter (l : Ledger) (c : Call) : Ledger :=
  { manager := (l.manager.perform c).1
    given := l.given ++ (l.manager.perform c).2.toList.map fun conn => (c.caller, conn) }

inductive Does (l : Ledger) : Event → Ledger → Prop where
  | call (c : Call) (h : c.Proper l.given) : Does l (c, (l.manager.perform c).2) (l.enter c)

/-! ## What the operations leave alone -/

/-- Puts connections back, each into its own pool. -/
def release (m : Manager) (conns : List ConnRef) : Manager := conns.foldl putBackOwn m

section Frames

variable (m : Manager) {conn conn' : ConnRef} {conns : List ConnRef} {client : ClientConnection}
  {clientID database : GoString}

theorem unregisterClient_eq (h : m.getClient clientID = some client) : m.unregisterClient clientID =
      { m.release client.held with
        activeClients := (m.release client.held).activeClients.erase clientID } := by
  unfold unregisterClient
  rw [h]
  obtain ⟨username, database, poolMode, assignedConn, transactionConn⟩ := client
  cases assignedConn <;> cases transactionConn <;> rfl

theorem connections_putBack_of_ne (h : conn' ≠ conn) :
    (m.putBack database conn).connections conn' = m.connections conn' := by
  unfold putBack
  split
  · rfl
  · split
    · rfl
    · exact Function.update_of_ne h _ _

theorem connections_putBackOwn_of_ne (h : conn' ≠ conn) :
    (m.putBackOwn conn).connections conn' = m.connections conn' := by
  rcases m.putBackOwn_cases conn with hsame | ⟨pool, hpool⟩
  · rw [hsame]
  · rw [hpool, connections_putBack_of_ne m h]

theorem connections_putBack_eq_none (h : m.connections conn' = none) :
    (m.putBack database conn).connections conn' = none := by
  by_cases hc : conn' = conn
  · subst hc
    unfold putBack
    rw [h]
    exact h
  · rw [connections_putBack_of_ne m hc, h]

theorem connections_putBackOwn_eq_none (h : m.connections conn' = none) :
    (m.putBackOwn conn).connections conn' = none := by
  rcases m.putBackOwn_cases conn with hsame | ⟨pool, hpool⟩
  · rw [hsame, h]
  · rw [hpool, connections_putBack_eq_none m h]

@[simp] theorem next_putBackOwn : (m.putBackOwn conn).next = m.next := by
  rcases m.putBackOwn_cases conn with hsame | ⟨pool, hpool⟩
  · rw [hsame]
  · rw [hpool, next_putBack]

theorem getClient_release (id : GoString) : (m.release conns).getClient id = m.getClient id := by
  induction conns generalizing m with
  | nil => rfl
  | cons conn conns ih => exact (ih (m.putBackOwn conn)).trans (getClient_putBackOwn m conn id)

theorem next_release : (m.release conns).next = m.next := by
  induction conns generalizing m with
  | nil => rfl
  | cons conn conns ih => exact (ih (m.putBackOwn conn)).trans (next_putBackOwn m)

theorem connections_release_of_notMem (h : conn ∉ conns) :
    (m.release conns).connections conn = m.connections conn := by
  induction conns generalizing m with
  | nil => rfl
  | cons c conns ih =>
    rw [List.mem_cons, not_or] at h
    exact (ih (m.putBackOwn c) h.2).trans (connections_putBackOwn_of_ne m h.1)

theorem connections_release_eq_none (h : m.connections conn = none) :
    (m.release conns).connections conn = none := by
  induction conns generalizing m with
  | nil => exact h
  | cons c conns ih => exact ih (m.putBackOwn c) (connections_putBackOwn_eq_none m h)

theorem getClient_unregisterClient_of_ne {id : GoString} (h : id ≠ clientID) :
    (m.unregisterClient clientID).getClient id = m.getClient id := by
  cases hc : m.getClient clientID with
  | none =>
    unfold unregisterClient
    rw [hc]
  | some client =>
    rw [unregisterClient_eq m hc, ← getClient_release m id]
    exact AList.lookup_erase_ne h

theorem connections_checkout (mongoClient : MongoClient) (transactionID : GoString) :
    (m.checkout database mongoClient clientID transactionID).2.connections conn =
      if conn = m.next then
        some { mongoClient, pool := database, inUse := true, transactionID, clientID }
      else m.connections conn := by
  unfold checkout
  by_cases h : conn = m.next
  · subst h
    simp
  · simp [h]

@[simp] theorem connections_getPool (mongoClient : MongoClient) (mode : PoolMode) :
    (m.getPool database mongoClient mode).2.connections = m.connections := by
  unfold getPool
  split <;> rfl

@[simp] theorem next_getPool (mongoClient : MongoClient) (mode : PoolMode) :
    (m.getPool database mongoClient mode).2.next = m.next := by
  unfold getPool
  split <;> rfl

end Frames

/-! ## What a call does -/

/-- What is set when the manager is made. -/
def settings (m : Manager) : PoolMode × Int := (m.defaultMode, m.maxClientConn)

theorem settings_putBack (m : Manager) (database : GoString) (conn : ConnRef) :
    (m.putBack database conn).settings = m.settings := by
  unfold putBack
  split
  · rfl
  · split <;> rfl

theorem settings_release (m : Manager) (conns : List ConnRef) :
    (m.release conns).settings = m.settings := by
  induction conns generalizing m with
  | nil => rfl
  | cons conn conns ih =>
    refine (ih (m.putBackOwn conn)).trans ?_
    rcases m.putBackOwn_cases conn with hsame | ⟨pool, hpool⟩
    · rw [hsame]
    · rw [hpool, settings_putBack]

/-- A call by `clientID` that gives `given`: the settings and the other clients stay as they are,
and so do the connections that are not `mine`; what is given is `mine` or new. -/
structure Acts (m m' : Manager) (clientID : GoString) (mine : ConnRef → Prop)
    (given : Option ConnRef) : Prop where
  settings : m'.settings = m.settings
  others : ∀ id, id ≠ clientID → m'.getClient id = m.getClient id
  untouched : ∀ conn, conn < m.next → ¬ mine conn → m'.connections conn = m.connections conn
  next : m.next ≤ m'.next
  fresh : (∀ conn, m.next ≤ conn → m.connections conn = none) →
    ∀ conn, m'.next ≤ conn → m'.connections conn = none
  gives : ∀ conn, given = some conn → mine conn ∨ m.next ≤ conn ∧ conn < m'.next

section Acts

variable {m m' : Manager} {clientID database : GoString} {mine : ConnRef → Prop}
  {client : ClientConnection} {conn : ConnRef} {given : Option ConnRef}

theorem Acts.refl (m : Manager) (clientID : GoString) (mine : ConnRef → Prop) :
    m.Acts m clientID mine none :=
  ⟨rfl, fun _ _ => rfl, fun _ _ _ => rfl, Nat.le_refl _, id, fun _ h => nomatch h⟩

theorem Acts.setClient (h : m.Acts m' clientID mine given) :
    m.Acts (m'.setClient clientID client) clientID mine given :=
  { h with
    others := by
      intro id hid
      rw [getClient_setClient, if_neg hid]
      exact h.others id hid
    untouched := h.untouched
    next := h.next
    fresh := h.fresh
    gives := h.gives }

theorem acts_putBack (hmine : mine conn) : m.Acts (m.putBack database conn) clientID mine none where
  settings := settings_putBack m database conn
  others id _ := getClient_putBack m database conn id
  untouched conn' _ hc := connections_putBack_of_ne m fun heq => hc (heq ▸ hmine)
  next := Nat.le_of_eq (next_putBack m database conn).symm
  fresh h conn' hc := connections_putBack_eq_none m (h conn' (by rwa [next_putBack] at hc))
  gives _ h := nomatch h

theorem acts_release {conns : List ConnRef} (hmine : ∀ conn ∈ conns, mine conn) :
    m.Acts (m.release conns) clientID mine none where
  settings := settings_release m conns
  others id _ := getClient_release m id
  untouched conn' _ hc := connections_release_of_notMem m fun hmem => hc (hmine conn' hmem)
  next := Nat.le_of_eq (next_release m).symm
  fresh h conn' hc := connections_release_eq_none m (h conn' (by rwa [next_release] at hc))
  gives _ h := nomatch h

theorem acts_getPool (mongoClient : MongoClient) (mode : PoolMode) :
    m.Acts (m.getPool database mongoClient mode).2 clientID mine none where
  settings := by
    unfold Manager.getPool
    split <;> rfl
  others id _ := getClient_getPool m database mongoClient mode id
  untouched conn _ _ := by rw [connections_getPool]
  next := by rw [next_getPool]
  fresh h conn hc := by
    rw [connections_getPool]
    exact h conn (by rwa [next_getPool] at hc)
  gives _ h := nomatch h

theorem Acts.checkout (h : m.Acts m' clientID mine none) (mongoClient : MongoClient)
    (transactionID : GoString) :
    m.Acts (m'.checkout database mongoClient clientID transactionID).2 clientID mine
      (some (m'.checkout database mongoClient clientID transactionID).1) where
  settings := h.settings
  others id hid := by
    rw [getClient_checkout]
    exact h.others id hid
  untouched conn hlt hc := by
    rw [connections_checkout, if_neg (Nat.ne_of_lt (Nat.lt_of_lt_of_le hlt h.next))]
    exact h.untouched conn hlt hc
  next := Nat.le_succ_of_le h.next
  fresh hf conn hc := by
    have hlt : m'.next < conn := hc
    rw [connections_checkout, if_neg (Nat.ne_of_gt hlt)]
    exact h.fresh hf conn (Nat.le_of_lt hlt)
  gives conn hc := by
    cases hc
    exact Or.inr ⟨h.next, Nat.lt_succ_self _⟩

theorem Acts.trans {m'' : Manager} (h : m.Acts m' clientID mine none)
    (h' : m'.Acts m'' clientID mine given) : m.Acts m'' clientID mine given where
  settings := h'.settings.trans h.settings
  others id hid := (h'.others id hid).trans (h.others id hid)
  untouched conn hlt hc :=
    (h'.untouched conn (Nat.lt_of_lt_of_le hlt h.next) hc).trans (h.untouched conn hlt hc)
  next := Nat.le_trans h.next h'.next
  fresh hf := h'.fresh (h.fresh hf)
  gives conn hc := (h'.gives conn hc).imp_right fun hnew => ⟨Nat.le_trans h.next hnew.1, hnew.2⟩

end Acts

/-! ## What a client gets -/

/-- The ways in which `GetConnection` gives a connection, once the pool is there. -/
inductive Got (m : Manager) (clientID database : GoString) (pool : ConnectionPool)
    (client : ClientConnection) (isTransaction : Bool) (transactionID : GoString) :
    ConnRef → Manager → Prop where
  | assigned {conn : ConnRef} (hmode : client.poolMode = .session)
      (h : client.assignedConn = some conn) :
      Got m clientID database pool client isTransaction transactionID conn m
  | assign (hmode : client.poolMode = .session) (h : client.assignedConn = none) :
      Got m clientID database pool client isTransaction transactionID m.next
        ((m.checkout database pool.mongoClient clientID []).2.setClient clientID
          { client with assignedConn := some m.next })
  | pinned {conn : ConnRef} (hmode : client.poolMode = .transaction) (htx : isTransaction = true)
      (h : client.transactionConn = some conn)
      (htag : (m.connections conn).map (·.transactionID) = some transactionID) :
      Got m clientID database pool client isTransaction transactionID conn m
  | pin (hmode : client.poolMode = .transaction) (htx : isTransaction = true)
      (h : client.transactionConn = none) :
      Got m clientID database pool client isTransaction transactionID m.next
        ((m.checkout database pool.mongoClient clientID transactionID).2.setClient clientID
          { client with transactionConn := some m.next })
  | repin {old : ConnRef} (hmode : client.poolMode = .transaction) (htx : isTransaction = true)
      (h : client.transactionConn = some old)
      (htag : (m.connections old).map (·.transactionID) ≠ some transactionID) :
      Got m clientID database pool client isTransaction transactionID (m.putBack database old).next
        (((m.putBack database old).checkout database pool.mongoClient clientID
          transactionID).2.setClient clientID
          { client with transactionConn := some (m.putBack database old).next })
  | temporary (h : client.poolMode = .statement ∨
        client.poolMode = .transaction ∧ isTransaction = false) :
      Got m clientID database pool client isTransaction transactionID m.next
        (m.checkout database pool.mongoClient clientID []).2

section Client

variable {m m' : Manager} {clientID database transactionID : GoString} {conn : ConnRef}
  {client : ClientConnection} {mongoClient : MongoClient} {isTransaction isEndOfTransaction : Bool}

theorem got_of_getConnection
    (h : m.getConnection clientID database mongoClient isTransaction transactionID =
      .ok (conn, m')) :
    ∃ client, m.getClient clientID = some client ∧
      Got (m.getPool database mongoClient client.poolMode).2 clientID database
        (m.getPool database mongoClient client.poolMode).1 client isTransaction transactionID
        conn m' := by
  unfold getConnection at h
  split at h
  · cases h
  · rename_i client hc
    refine ⟨client, hc, ?_⟩
    generalize m.getPool database mongoClient client.poolMode = pm at h ⊢
    obtain ⟨pool, m⟩ := pm
    simp only at h
    split at h
    · rename_i hmode
      split at h
      · rename_i conn hconn
        cases h
        exact .assigned hmode hconn
      · rename_i hconn
        cases h
        exact .assign hmode hconn
    · rename_i hmode
      split at h
      · rename_i htx
        split at h
        · rename_i old hold
          split at h
          · rename_i htag
            cases h
            exact .pinned hmode htx hold htag
          · rename_i htag
            cases h
            exact .repin hmode htx hold htag
        · rename_i hnone
          cases h
          exact .pin hmode htx hnone
      · rename_i htx
        cases h
        exact .temporary (Or.inr ⟨hmode, by simpa using htx⟩)
    · rename_i hmode
      cases h
      exact .temporary (Or.inl hmode)

theorem getConnection_ok (hc : m.getClient clientID = some client) (database : GoString)
    (mongoClient : MongoClient) (isTransaction : Bool) (transactionID : GoString) :
    ∃ conn m', m.getConnection clientID database mongoClient isTransaction transactionID =
        .ok (conn, m') ∧
      Got (m.getPool database mongoClient client.poolMode).2 clientID database
        (m.getPool database mongoClient client.poolMode).1 client isTransaction transactionID
        conn m' := by
  cases hget : m.getConnection clientID database mongoClient isTransaction transactionID with
  | ok r =>
    obtain ⟨conn, m'⟩ := r
    obtain ⟨client', hc', hg⟩ := got_of_getConnection hget
    rw [hc] at hc'
    cases hc'
    exact ⟨conn, m', rfl, hg⟩
  | error e =>
    exfalso
    unfold getConnection at hget
    rw [hc] at hget
    simp only at hget
    split at hget
    · split at hget <;> cases hget
    · split at hget
      · split at hget
        · split at hget <;> cases hget
        · cases hget
      · cases hget
    · cases hget

theorem registerClient_cases {username : GoString} {poolMode : PoolMode}
    (h : m.registerClient clientID username database poolMode = .ok m') :
    m.getClient clientID ≠ none ∧ m' = m ∨ m.getClient clientID = none ∧ m' = m.setClient clientID
        { username, database, poolMode, assignedConn := none, transactionConn := none } := by
  unfold registerClient at h
  split at h
  · rename_i client hc
    cases h
    exact Or.inl ⟨by simp [hc], rfl⟩
  · rename_i hc
    split at h
    · cases h
    · cases h
      exact Or.inr ⟨hc, rfl⟩

end Client

end Manager

end MongoBouncer
