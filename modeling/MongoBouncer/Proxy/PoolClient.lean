import MongoBouncer.Proxy.Credentials
import MongoBouncer.Proxy.PoolThreads

/-!
# The client of the pool and the client of the route

A message that goes through the pool is sent on the client of the pool of its database. That pool
is made once, with the client that the route had then. After an error of the connection the route
gets a new client, and the pool keeps the old one. A message is one turn here: the interleaved
requests of `ClientThreads` take what a round trip makes of the pools from outside.

* `Manager.Settled`  : every connection that a client holds wraps the client of the pool of its
  database;
* `Service.Resolves` : the client that a message, whose credentials are not passed through, finds
  on its route;
* `Service.Stocked`  : every database with a pool has a client on its route.

Principal result: `pooled_client_iff`.
-/

namespace MongoBouncer

open GoStd

namespace Manager

/-! ## What the connections wrap -/

/-- Every connection that a client holds wraps the client of the pool of the client's database. -/
def Settled (m : Manager) : Prop := m.Serves fun db cl => m.poolClient db = some cl

section Settled

variable {m m' : Manager} {clientID database : GoString} {client : ClientConnection}
  {mongoClient : MongoClient} {conn : ConnRef} {isTransaction : Bool} {transactionID : GoString}

theorem Serves.mono {suits suits' : GoString → MongoClient → Prop} (h : m.Serves suits)
    (himp : ∀ db cl, suits db cl → suits' db cl) : m.Serves suits' where
  pools db cl hcl := himp db cl (h.pools db cl hcl)
  held id client hc conn hmem := by
    obtain ⟨cl, hcl, hsuits⟩ := h.held id client hc conn hmem
    exact ⟨cl, hcl, himp _ cl hsuits⟩
  fresh := h.fresh

theorem settled_new (mode : GoString) (maxClientConn : Int) : (new mode maxClientConn).Settled :=
  serves_new mode maxClientConn

theorem Settled.of_serves (h : m'.Serves fun db cl => m.poolClient db = some cl)
    (hpools : ∀ db, m'.poolClient db = m.poolClient db) : m'.Settled :=
  h.mono fun db _ hcl => (hpools db).trans hcl

theorem poolClient_putBackOwn (m : Manager) (conn : ConnRef) (db : GoString) :
    (m.putBackOwn conn).poolClient db = m.poolClient db := by
  rcases m.putBackOwn_cases conn with hsame | ⟨pool, hpool⟩
  · rw [hsame]
  · rw [hpool, poolClient_putBack]

theorem poolClient_release (m : Manager) (conns : List ConnRef) (db : GoString) :
    (m.release conns).poolClient db = m.poolClient db := by
  induction conns generalizing m with
  | nil => rfl
  | cons conn conns ih => exact (ih (m.putBackOwn conn)).trans (poolClient_putBackOwn m conn db)

theorem poolClient_unregisterClient (m : Manager) (clientID db : GoString) :
    (m.unregisterClient clientID).poolClient db = m.poolClient db := by
  cases hc : m.getClient clientID with
  | none => simp [unregisterClient, hc]
  | some client =>
    rw [unregisterClient_eq m hc]
    exact poolClient_release m client.held db

theorem poolClient_registerClient {username : GoString} {poolMode : PoolMode}
    (h : m.registerClient clientID username database poolMode = .ok m') (db : GoString) :
    m'.poolClient db = m.poolClient db := by
  rcases registerClient_cases h with ⟨-, rfl⟩ | ⟨-, rfl⟩
  · rfl
  · rfl

theorem poolClient_returnConnection (m : Manager) (clientID : GoString) (conn : ConnRef)
    (isEndOfTransaction : Bool) (db : GoString) :
    (m.returnConnection clientID conn isEndOfTransaction).poolClient db = m.poolClient db := by
  unfold returnConnection
  split
  · exact poolClient_putBackOwn m conn db
  · split
    · split
      · exact poolClient_putBackOwn m conn db
      · rfl
    · split
      · exact poolClient_putBackOwn m conn db
      · split
        · exact poolClient_putBackOwn m conn db
        · rfl
    · exact poolClient_putBackOwn m conn db

theorem Settled.unregisterClient (h : m.Settled) (clientID : GoString) :
    (m.unregisterClient clientID).Settled :=
  .of_serves (Serves.unregisterClient h clientID) (poolClient_unregisterClient m clientID)

theorem Settled.registerClient {username : GoString} {poolMode : PoolMode} (h : m.Settled)
    (hreg : m.registerClient clientID username database poolMode = .ok m') : m'.Settled :=
  .of_serves (Serves.registerClient h hreg) (poolClient_registerClient hreg)

theorem Settled.returnConnection (h : m.Settled) (clientID : GoString) (conn : ConnRef)
    (isEndOfTransaction : Bool) : (m.returnConnection clientID conn isEndOfTransaction).Settled :=
  .of_serves (Serves.returnConnection h clientID conn isEndOfTransaction)
    (poolClient_returnConnection m clientID conn isEndOfTransaction)

theorem poolClient_getPool (m : Manager) (database : GoString) (mongoClient : MongoClient)
    (mode : PoolMode) (db : GoString) :
    (m.getPool database mongoClient mode).2.poolClient db =
      if db = database then some ((m.poolClient database).getD mongoClient)
      else m.poolClient db := by
  unfold getPool
  split
  · rename_i pool hpool
    by_cases hdb : db = database
    · simp [hdb, poolClient, hpool]
    · simp [hdb]
  · rename_i hpool
    by_cases hdb : db = database
    · simp [hdb, poolClient, hpool]
    · simp [hdb, poolClient]

theorem poolClient_getConnection
    (h : m.getConnection clientID database mongoClient isTransaction transactionID =
      .ok (conn, m')) (db : GoString) :
    m'.poolClient db = if db = database then some ((m.poolClient database).getD mongoClient)
      else m.poolClient db := by
  obtain ⟨client, -, hg⟩ := got_of_getConnection h
  rw [← poolClient_getPool m database mongoClient client.poolMode db]
  cases hg with
  | assigned | pinned => rfl
  | assign | pin => rw [poolClient_setClient, poolClient_checkout]
  | repin hmode htx hconn htag =>
    rw [poolClient_setClient, poolClient_checkout, poolClient_putBack]
  | temporary hmode => rw [poolClient_checkout]

/-- **The connection that a client gets for its database wraps the client of the pool**, which is
the one given unless there was a pool. -/
theorem Settled.getConnection (h : m.Settled) (hc : m.getClient clientID = some client)
    (hget : m.getConnection clientID client.database mongoClient isTransaction transactionID =
      .ok (conn, m')) :
    m'.Settled ∧ m'.clientOf conn = some ((m.poolClient client.database).getD mongoClient) := by
  have hpools := poolClient_getConnection hget
  have hserves : m.Serves fun db cl => m'.poolClient db = some cl := by
    refine Serves.mono h ?_
    intro db cl hcl
    rw [hpools]
    split
    · rename_i hdb
      rw [← hdb, hcl]
      rfl
    · exact hcl
  obtain ⟨hsettled, cl, hcl, hpool⟩ := hserves.getConnection hc
    (fun hnone => by rw [hpools, if_pos rfl, hnone]; rfl) hget
  refine ⟨hsettled, hcl.trans ?_⟩
  rw [← hpool, hpools, if_pos rfl]

end Settled

theorem Settled.reregister {m m' : Manager} {c : Connection} {database : GoString} (h : m.Settled)
    (hreg : Proxy.reregister m c database = .ok m') :
    m'.Settled ∧ (∀ db, m'.poolClient db = m.poolClient db) ∧
      ∃ client, m'.getClient c.clientID = some client ∧ client.database = database := by
  obtain ⟨-, hclient⟩ := Proxy.reregister_spec hreg h
  unfold Proxy.reregister at hreg
  simp only at hreg
  generalize (if c.clientUsername = [] then lit "default" else c.clientUsername) = username at hreg
  split at hreg
  · exact ⟨h.registerClient hreg, poolClient_registerClient hreg, hclient⟩
  · split at hreg
    · refine ⟨(h.unregisterClient c.clientID).registerClient hreg, ?_, hclient⟩
      intro db
      rw [poolClient_registerClient hreg, poolClient_unregisterClient]
    · cases hreg
      exact ⟨h, fun _ => rfl, hclient⟩

end Manager

namespace Proxy

/-! ## What a round trip does to the pools -/

/-- The pools of `p'` are settled; they are those of `p`, and perhaps a new one for `database` that
wraps `client`. -/
def PoolsFrom (p p' : Proxy) (database : GoString) (client : MongoClient) : Prop :=
  ∀ m', p'.poolManager = some m' → m'.Settled ∧ ∀ db cl, m'.poolClient db = some cl →
    (∃ m, p.poolManager = some m ∧ m.poolClient db = some cl) ∨ db = database ∧ cl = client

/-- The pools that a proxy has are settled. -/
def Pooled (p : Proxy) : Prop := ∀ m, p.poolManager = some m → m.Settled

section Pools

variable {p p' : Proxy} {m m' : Manager} {c : Connection} {database : GoString}
  {client : MongoClient} (d : Driver) (wm : Bytes) (op : Operation) (up : Upstream)

theorem poolsFrom_of_manager (hp : p.poolManager = some m) (hp' : p'.poolManager = some m')
    (hsettled : m'.Settled) (hpools : ∀ db cl, m'.poolClient db = some cl →
      m.poolClient db = some cl ∨ db = database ∧ cl = client) :
    p.PoolsFrom p' database client := by
  intro m'' hm''
  rw [hp'] at hm''
  cases hm''
  refine ⟨hsettled, ?_⟩
  intro db cl hcl
  exact (hpools db cl hcl).imp_left fun hold => ⟨m, hp, hold⟩

theorem Pooled.poolsFrom (h : p.Pooled) (heq : p'.poolManager = p.poolManager) :
    p.PoolsFrom p' database client := by
  intro m hm
  rw [heq] at hm
  exact ⟨h m hm, fun db cl hcl => Or.inl ⟨m, hm, hcl⟩⟩

/-- The round trip on a connection of the pool is made on the client of the pool. -/
theorem pools_roundTripWithPool (hm : m.Settled) (hp : p.poolManager = some m)
    (hne : database ≠ []) :
    p.PoolsFrom (p.roundTripWithPool d m c database client wm op up).2.1 database client ∧
      ∀ cl, (p.roundTripWithPool d m c database client wm op up).2.2 = some cl →
        cl = (m.poolClient database).getD client := by
  unfold roundTripWithPool
  simp only [if_neg hne]
  split
  · refine ⟨poolsFrom_of_manager hp hp hm fun _ _ => Or.inl, ?_⟩
    intro cl hcl
    cases hcl
  · split
    · refine ⟨poolsFrom_of_manager hp rfl ?_ ?_, ?_⟩
      · split
        · exact hm.unregisterClient c.clientID
        · exact hm
      · intro db cl hcl
        split at hcl
        · rw [Manager.poolClient_unregisterClient] at hcl
          exact Or.inl hcl
        · exact Or.inl hcl
      · intro cl hcl
        cases hcl
    · rename_i m₁ hreg
      obtain ⟨hm₁, hpools₁, registered, hclient, rfl⟩ := hm.reregister hreg
      unfold pooledCall
      simp only
      split
      · refine ⟨poolsFrom_of_manager hp rfl hm₁ ?_, ?_⟩
        · intro db cl hcl
          rw [hpools₁] at hcl
          exact Or.inl hcl
        · intro cl hcl
          cases hcl
      · rename_i conn m₂ hget
        obtain ⟨hm₂, hwraps⟩ := hm₁.getConnection hclient hget
        have hpools₂ := Manager.poolClient_getConnection hget
        rw [hwraps]
        refine ⟨poolsFrom_of_manager hp rfl (hm₂.returnConnection c.clientID conn _) ?_, ?_⟩
        · intro db cl hcl
          rw [Manager.poolClient_returnConnection, hpools₂, hpools₁, hpools₁] at hcl
          split at hcl
          · rename_i hdb
            cases hold : m.poolClient registered.database with
            | none =>
              rw [hold] at hcl
              cases hcl
              exact Or.inr ⟨hdb, rfl⟩
            | some cl' =>
              rw [hold] at hcl
              cases hcl
              rw [hdb]
              exact Or.inl hold
          · exact Or.inl hcl
        · intro cl hcl
          cases hcl
          rw [hpools₁]

/-- The client of a round trip: that of the pool if there is one and credentials are not passed
through. -/
theorem pools_trip (c : Connection) (client : MongoClient) (hp : p.Pooled) (hne : database ≠ []) :
    p.PoolsFrom (p.trip d c database client wm op up).2.1 database client ∧
      (c.isUsingCredentialPassthrough = false →
        ∀ cl, (p.trip d c database client wm op up).2.2 = some cl →
          cl = (p.poolManager.bind (·.poolClient database)).getD client) := by
  unfold trip
  split
  · rename_i m hm huse
    obtain ⟨hpools, hsent⟩ := pools_roundTripWithPool d wm op up (hp m hm) hm hne
    refine ⟨hpools, ?_⟩
    intro _ cl hcl
    rw [hm]
    exact hsent cl hcl
  · rename_i hno
    refine ⟨hp.poolsFrom rfl, ?_⟩
    intro hpass cl hcl
    cases hcl
    cases hm : p.poolManager with
    | none => rfl
    | some m => exact absurd hpass (by simpa using hno m hm)

end Pools

/-! ## What a turn does to the pools and to the clients of the routes -/

/-- No pool is new. -/
def PoolsKept (p p' : Proxy) : Prop :=
  ∀ m', p'.poolManager = some m' → m'.Settled ∧ ∀ db cl, m'.poolClient db = some cl →
    ∃ m, p.poolManager = some m ∧ m.poolClient db = some cl

/-- Either no pool is new, and routes lose their clients at most; or a message for `database` takes
`client` from its route, and a new pool wraps that client. -/
inductive PoolStep (p p' : Proxy) : Prop where
  | plain (hpools : p.PoolsKept p')
      (hroutes : ∀ ref, (p'.routes ref).mongoClient = (p.routes ref).mongoClient ∨
        (p'.routes ref).mongoClient = none)
  | pooled {database : GoString} {ref : RouteRef} {client : MongoClient}
      (hroute : p.router.table.route database = .ok ref)
      (hpools : p.PoolsFrom p' database client)
      (hbefore : ∀ cl, (p.routes ref).mongoClient = some cl → cl = client)
      (hafter : ∀ cl, (p'.routes ref).mongoClient = some cl → cl = client)
      (hothers : ∀ ref', ref' ≠ ref → (p'.routes ref').mongoClient = (p.routes ref').mongoClient)

section Step

variable {p p' p'' : Proxy}

theorem Pooled.kept (h : p.Pooled) (heq : p'.poolManager = p.poolManager) : p.PoolsKept p' := by
  intro m hm
  rw [heq] at hm
  exact ⟨h m hm, fun db cl hcl => ⟨m, hm, hcl⟩⟩

theorem Pooled.poolStep_setManager (h : p.Pooled) (f : Manager → Manager)
    (hsettled : ∀ m, m.Settled → (f m).Settled)
    (hpools : ∀ m db, (f m).poolClient db = m.poolClient db) :
    PoolStep p { p with poolManager := p.poolManager.map f } := by
  refine .plain ?_ fun ref => Or.inl rfl
  intro m' hm'
  obtain ⟨m, hm, rfl⟩ := Option.map_eq_some_iff.mp hm'
  refine ⟨hsettled m (h m hm), ?_⟩
  intro db cl hcl
  rw [hpools] at hcl
  exact ⟨m, hm, hcl⟩

theorem poolStep_closeConnection (h : p.Pooled) (c : Connection) :
    PoolStep p (p.closeConnection c) :=
  h.poolStep_setManager (·.unregisterClient c.clientID) (fun _ hm => hm.unregisterClient c.clientID)
    fun m => m.poolClient_unregisterClient c.clientID

theorem poolStep_openConnection (h : p.Pooled) (clientID : GoString) :
    PoolStep p (p.openConnection clientID) := by
  refine h.poolStep_setManager _ ?_ ?_
  · intro m hm
    split
    · rename_i m' hreg
      exact hm.registerClient hreg
    · exact hm
  · intro m db
    split
    · rename_i m' hreg
      exact Manager.poolClient_registerClient hreg db
    · rfl

theorem PoolStep.pooled' (h : PoolStep p p') : p'.Pooled := by
  cases h with
  | plain hpools | pooled _ hpools => exact fun m hm => (hpools m hm).1

theorem PoolStep.closeConnection (h : PoolStep p p') (c : Connection) :
    PoolStep p (p'.closeConnection c) := by
  have hclose : ∀ m'', (p'.closeConnection c).poolManager = some m'' → m''.Settled ∧
      ∃ m', p'.poolManager = some m' ∧ ∀ db, m''.poolClient db = m'.poolClient db := by
    intro m'' hm''
    obtain ⟨m', hm', rfl⟩ := Option.map_eq_some_iff.mp hm''
    exact ⟨(h.pooled' m' hm').unregisterClient c.clientID, m', hm',
      m'.poolClient_unregisterClient c.clientID⟩
  cases h with
  | plain hpools hroutes =>
    refine .plain ?_ hroutes
    intro m'' hm''
    obtain ⟨hsettled, m', hm', hsame⟩ := hclose m'' hm''
    refine ⟨hsettled, fun db cl hcl => (hpools m' hm').2 db cl ?_⟩
    rw [← hsame, hcl]
  | pooled hroute hpools hbefore hafter hothers =>
    refine .pooled hroute ?_ hbefore hafter hothers
    intro m'' hm''
    obtain ⟨hsettled, m', hm', hsame⟩ := hclose m'' hm''
    refine ⟨hsettled, fun db cl hcl => (hpools m' hm').2 db cl ?_⟩
    rw [← hsame, hcl]

theorem poolStep_forward (hp : p.Pooled) (d : Driver) (c : Connection) {databaseName : GoString}
    (hne : databaseName ≠ []) (wm : Bytes) (op : Operation) (up : Upstream) :
    PoolStep p (p.forward d c databaseName wm op up).proxy := by
  have hforwards := forwards_forward d p c databaseName wm op up
  generalize p.forward d c databaseName wm op up = o at hforwards
  cases hforwards with
  | unrouted hroute => exact .plain (hp.kept rfl) fun ref => Or.inl rfl
  | unserved hroute hchoose =>
    exact .plain (hp.kept hchoose.poolManager)
      fun ref => Or.inl (hchoose.mongoClient_same (Or.inr ⟨_, rfl⟩) ref)
  | served hroute hchoose =>
    rename_i ref client p₂
    generalize hc' : p.prepared c databaseName ref = c' at *
    have hp₂ : p₂.Pooled := by
      intro m hm
      rw [hchoose.poolManager] at hm
      exact hp m hm
    have hroutes := (sameClients_trip d p₂ c' databaseName client wm op up).routes
    show PoolStep p ((p₂.trip d c' databaseName client wm op up).2.1.resetRoute ref
      (p₂.trip d c' databaseName client wm op up).1)
    cases hpass : c'.isUsingCredentialPassthrough with
    | true =>
      refine .plain (hp.kept ?_) ?_
      · rw [poolManager_resetRoute, (trip_of_passThrough d p₂ c' databaseName client wm op up
          hpass).1]
        exact hchoose.poolManager
      · intro ref'
        have hsame := hchoose.mongoClient_same (Or.inl hpass) ref'
        rcases mongoClient_resetRoute (p₂.trip d c' databaseName client wm op up).2.1 ref
          (p₂.trip d c' databaseName client wm op up).1 ref' with hkept | ⟨-, hnone⟩
        · left
          rw [hkept, hroutes]
          exact hsame
        · exact Or.inr hnone
    | false =>
      obtain ⟨hafter, hbefore, hothers⟩ := hchoose.mongoClient_of_direct hpass
      refine @PoolStep.pooled p _ databaseName ref client hroute ?_ hbefore ?_ ?_
      · intro m' hm'
        rw [poolManager_resetRoute] at hm'
        obtain ⟨hsettled, hpools⟩ := (pools_trip d wm op up c' client hp₂ hne).1 m' hm'
        refine ⟨hsettled, ?_⟩
        intro db cl hcl
        rcases hpools db cl hcl with ⟨m, hm, hold⟩ | hnew
        · rw [hchoose.poolManager] at hm
          exact Or.inl ⟨m, hm, hold⟩
        · exact Or.inr hnew
      · intro cl hcl
        rcases mongoClient_resetRoute (p₂.trip d c' databaseName client wm op up).2.1 ref
          (p₂.trip d c' databaseName client wm op up).1 ref with hkept | ⟨-, hnone⟩
        · rw [hkept, hroutes, hafter] at hcl
          exact (Option.some.inj hcl).symm
        · rw [hnone] at hcl
          cases hcl
      · intro ref' href
        rcases mongoClient_resetRoute (p₂.trip d c' databaseName client wm op up).2.1 ref
          (p₂.trip d c' databaseName client wm op up).1 ref' with hkept | ⟨hsame, -⟩
        · rw [hkept, hroutes, hothers ref' href]
          rfl
        · exact absurd hsame href

theorem poolStep_handleMessage (hp : p.Pooled) (d : Driver) (c : Connection) (wm : Bytes)
    (up : Upstream) : PoolStep p (p.handleMessage d c wm up).proxy := by
  cases hdec : decode d wm with
  | error e =>
    rw [handleMessage_of_error hdec]
    exact poolStep_closeConnection hp c
  | ok op =>
    have htrip : PoolStep p (p.roundTrip d (extractDatabaseName d c op).2 wm op up).proxy := by
      cases hhs : isHandshake d op with
      | true =>
        rw [roundTrip_of_handshake hhs]
        obtain ⟨router, hrouter, -⟩ := rerouted_handshake d p
          (extractDatabaseName d (extractDatabaseName d c op).2 op).2 op up.now
        rw [hrouter]
        exact .plain (hp.kept rfl) fun ref => Or.inl rfl
      | false =>
        rw [roundTrip_of_not_handshake hhs]
        exact poolStep_forward hp d _ (extractDatabaseName_ne_nil d _ op) wm op up
    rcases handleMessage_eq (p := p) (c := c) hdec up rfl with h | ⟨c', -, h⟩
    · rw [h]
      exact htrip.closeConnection c
    · rw [h]
      exact htrip

end Step

end Proxy

/-! ## Runs -/

namespace Service

/-- The client that the message finds on its route, when its credentials are not passed through. -/
def Resolves (d : Driver) (s : Service) (k : Nat) (wm : Bytes) (up : Upstream) (db : GoString)
    (client : MongoClient) : Prop :=
  ∃ c op ref, s.conns k = some c ∧ decode d wm = .ok op ∧ (extractDatabaseName d c op).1 = db ∧
    s.proxy.router.table.route db = .ok ref ∧
    s.proxy.useCredentialPassthrough (extractDatabaseName d c op).2 db (s.proxy.routes ref) = false ∧
    ((s.proxy.routed up.now db).selectClient (s.proxy.prepared (extractDatabaseName d c op).2 db ref)
      ref db up).1 = .ok client

/-- Every database with a pool has a client on its route. -/
def Stocked (s : Service) : Prop :=
  ∀ m db cl ref, s.proxy.poolManager = some m → m.poolClient db = some cl →
    s.proxy.router.table.route db = .ok ref → (s.proxy.routes ref).mongoClient ≠ none

/-- A turn that leaves every database with a pool a client on its route. -/
def StockedTurn (d : Driver) (s : Service) (t : Turn) (s' : Service) : Prop :=
  s' = (s.step d t).1 ∧ s'.Stocked

/-- The client of every pool is the client of the route. -/
def Matched (s : Service) : Prop :=
  ∀ m db cl ref, s.proxy.poolManager = some m → m.poolClient db = some cl →
    s.proxy.router.table.route db = .ok ref → (s.proxy.routes ref).mongoClient = some cl

section Run

variable {d : Driver} {auth passthrough metrics forwards : Bool} {pool : Option (GoString × Int)}
  {dc : Option DistributedCache} {databases : List DatabaseEntry} {log : List Entry} {s : Service}
  {ts : List Turn}

theorem poolStep_step (hp : s.proxy.Pooled) (t : Turn) :
    Proxy.PoolStep s.proxy (s.step d t).1.proxy := by
  have hsame : ∀ {p' : Proxy}, p'.poolManager = s.proxy.poolManager → p'.routes = s.proxy.routes →
      Proxy.PoolStep s.proxy p' :=
    fun hm hr => .plain (hp.kept hm) fun ref => Or.inl (by rw [hr])
  cases t with
  | connect clientID => exact Proxy.poolStep_openConnection hp clientID
  | message k wm up =>
    simp only [step]
    cases hc : s.conns k with
    | none => exact hsame rfl rfl
    | some c => exact Proxy.poolStep_handleMessage hp d c wm up
  | hangUp k =>
    simp only [step]
    cases hc : s.conns k with
    | none => exact hsame rfl rfl
    | some c => exact Proxy.poolStep_closeConnection hp c
  | pods dc =>
    simp only [step]
    split
    · exact hsame rfl rfl
    · exact hsame rfl rfl
  | expire clients => exact hsame rfl rfl

theorem poolManager_addDatabases (p : Proxy) (ref : RouteRef) :
    (p.addDatabases ref databases).poolManager = p.poolManager := by
  induction databases generalizing p ref with
  | nil => rfl
  | cons e es ih => exact ih (p.addDatabase ref e) (ref + 1)

theorem pools_start : (Service.start (.new auth passthrough metrics forwards
    (pool.map fun m => Manager.new m.1 m.2) dc) databases).proxy.poolManager =
      pool.map fun m => Manager.new m.1 m.2 :=
  poolManager_addDatabases _ 0

theorem Run.pooled (h : Run d (.start (.new auth passthrough metrics forwards
    (pool.map fun m => Manager.new m.1 m.2) dc) databases) log s) : s.proxy.Pooled := by
  induction h with
  | start =>
    intro m hm
    rw [pools_start] at hm
    obtain ⟨x, -, rfl⟩ := Option.map_eq_some_iff.mp hm
    exact Manager.settled_new x.1 x.2
  | turn hrun t ih => exact (poolStep_step ih t).pooled'

theorem sent_of_resolves (hp : s.proxy.Pooled) {k : Nat} {wm : Bytes} {up : Upstream}
    {db : GoString} {client cl : MongoClient} (hres : s.Resolves d k wm up db client)
    (hsent : .sent k cl ∈ (s.step d (.message k wm up)).2) :
    cl = (s.proxy.poolManager.bind (·.poolClient db)).getD client := by
  obtain ⟨c, op, ref, hc, hdec, rfl, hroute, hpass, hsel⟩ := hres
  obtain ⟨c', op', hc', hdec', hforward⟩ := forward_of_sent hsent
  rw [hc] at hc'
  rw [hdec] at hdec'
  cases hc'
  cases hdec'
  have hresolved := Proxy.chooses_selectClient (s.proxy.routed up.now (extractDatabaseName d c op).1)
    (s.proxy.prepared (extractDatabaseName d c op).2 (extractDatabaseName d c op).1 ref) ref
    (extractDatabaseName d c op).1 up
  rw [hsel] at hresolved
  have hforwards := Proxy.forwards_forward d s.proxy (extractDatabaseName d c op).2
    (extractDatabaseName d c op).1 wm op up
  generalize s.proxy.forward d (extractDatabaseName d c op).2 (extractDatabaseName d c op).1 wm op up
    = o at hforward hforwards
  cases hforwards with
  | unrouted | unserved => cases hforward
  | served hroute' hchoose =>
    rename_i ref' client' p₂
    rw [hroute] at hroute'
    cases hroute'
    cases hchoose.direct_unique hresolved hpass
    have hp₂ : p₂.Pooled := by
      intro m hm
      rw [hchoose.poolManager] at hm
      exact hp m hm
    have hcl := (Proxy.pools_trip d wm op up (s.proxy.prepared (extractDatabaseName d c op).2
      (extractDatabaseName d c op).1 ref) client hp₂ (extractDatabaseName_ne_nil d c op)).2 hpass cl
      hforward
    rw [hchoose.poolManager] at hcl
    exact hcl

/-- A turn that leaves every database with a pool a client keeps the clients matched. -/
theorem Matched.step (h : s.Matched) (hp : s.proxy.Pooled) {t : Turn}
    (htable : (s.step d t).1.proxy.router.table = s.proxy.router.table)
    (hstocked : (s.step d t).1.Stocked) : (s.step d t).1.Matched := by
  intro m db cl ref hm hcl href
  have hsome := hstocked m db cl ref hm hcl href
  rw [htable] at href
  cases poolStep_step (d := d) hp t with
  | plain hpools hroutes =>
    obtain ⟨m₀, hm₀, hold⟩ := (hpools m hm).2 db cl hcl
    rcases hroutes ref with hkept | hnone
    · rw [hkept]
      exact h m₀ db cl ref hm₀ hold href
    · exact absurd hnone hsome
  | pooled hroute hpools hbefore hafter hothers =>
    rename_i database ref' client
    obtain ⟨cl', hcl'⟩ := Option.ne_none_iff_exists'.mp hsome
    rcases (hpools m hm).2 db cl hcl with ⟨m₀, hm₀, hold⟩ | ⟨rfl, rfl⟩
    · have hmatched := h m₀ db cl ref hm₀ hold href
      by_cases heq : ref = ref'
      · subst heq
        rw [hcl', hafter cl' hcl', hbefore cl hmatched]
      · rw [hothers ref heq]
        exact hmatched
    · rw [hroute] at href
      cases href
      rw [hcl', hafter cl' hcl']

theorem run_of_stocked {s₀ : Service} (h : Runs (StockedTurn d) s₀ ts s) :
    ∃ log, Run d s₀ log s := by
  induction h with
  | start => exact ⟨[], .start⟩
  | step _ he ih =>
    obtain ⟨log, hrun⟩ := ih
    obtain ⟨rfl, -⟩ := he
    exact ⟨_, hrun.turn _⟩

theorem matched_of_stocked (h : Runs (StockedTurn d) (.start (.new auth passthrough metrics forwards
    (pool.map fun m => Manager.new m.1 m.2) dc) databases) ts s) : s.Matched := by
  induction h with
  | start =>
    intro m db cl ref hm hcl
    rw [pools_start] at hm
    obtain ⟨x, -, rfl⟩ := Option.map_eq_some_iff.mp hm
    cases hcl
  | step h he ih =>
    rename_i ts s s' t
    obtain ⟨log, hrun⟩ := run_of_stocked h
    obtain ⟨rfl, hstocked⟩ := he
    have hstart := (Proxy.sound_start auth passthrough metrics forwards pool dc databases).1
    have hsound := (hrun.sound hstart).2
    exact ih.step hrun.pooled (safe_step hrun.vouched hsound t).keeps.table hstocked

end Run

end Service

/-- **A message is sent on the client that it finds on its route, exactly if the pool of its
database is new or wraps that client**; so it is in every run that leaves no database with a pool
without a client on its route. -/
theorem pooled_client_iff {d : Driver} {auth passthrough metrics forwards : Bool}
    {pool : Option (GoString × Int)} {dc : Option DistributedCache}
    {databases : List DatabaseEntry} {log : List Service.Entry} {s : Service}
    (hrun : Service.Run d (.start (.new auth passthrough metrics forwards
      (pool.map fun m => Manager.new m.1 m.2) dc) databases) log s)
    {k : Nat} {wm : Bytes} {up : Upstream} {db : GoString} {client cl : MongoClient}
    (hres : s.Resolves d k wm up db client)
    (hsent : .sent k cl ∈ (s.step d (.message k wm up)).2) :
    (cl = client ↔ ∀ m cl', s.proxy.poolManager = some m → m.poolClient db = some cl' →
      cl' = client) ∧
    ∀ ts, Runs (Service.StockedTurn d) (.start (.new auth passthrough metrics forwards
      (pool.map fun m => Manager.new m.1 m.2) dc) databases) ts s → cl = client := by
  have hcl := Service.sent_of_resolves hrun.pooled hres hsent
  have hiff : cl = client ↔ ∀ m cl', s.proxy.poolManager = some m → m.poolClient db = some cl' →
      cl' = client := by
    constructor
    · intro heq m cl' hm hcl'
      rw [hm, Option.bind_some, hcl'] at hcl
      exact hcl.symm.trans heq
    · intro hpools
      cases hm : s.proxy.poolManager with
      | none =>
        rw [hm] at hcl
        exact hcl
      | some m =>
        rw [hm, Option.bind_some] at hcl
        cases hcl' : m.poolClient db with
        | none =>
          rw [hcl'] at hcl
          exact hcl
        | some cl' =>
          rw [hcl'] at hcl
          exact hcl.trans (hpools m cl' hm hcl')
  refine ⟨hiff, ?_⟩
  intro ts hstocked
  apply hiff.mpr
  intro m cl' hm hcl'
  obtain ⟨c, op, ref, -, -, -, hroute, hpass, hsel⟩ := hres
  have hmatched := Service.matched_of_stocked hstocked m db cl' ref hm hcl' hroute
  have hresolved := Proxy.chooses_selectClient (s.proxy.routed up.now db)
    (s.proxy.prepared (extractDatabaseName d c op).2 db ref) ref db up
  rw [hsel] at hresolved
  exact (hresolved.mongoClient_of_direct hpass).2.1 cl' hmatched

/-! ## A route that gets a new client -/

/-- A proxy without authentication, with a pool in session mode. -/
def openProxy : Proxy := .new false false false false (some (.new (lit "session") 0)) none

def openShop : Service :=
  ((Service.start openProxy [shopEntry]).step plainDriver (.connect (lit "10.0.0.7:5000"))).1

/-- A cluster that resets its connections. -/
def brokenUpstream : Upstream :=
  { calmUpstream with
    script := .steady (.answering ⟨0, true⟩ none (.error (errorf "connection reset by peer"))) }

theorem run_openShop : Service.Run plainDriver (.start (.new false false false false
    ((some (lit "session", (0 : Int))).map fun m => Manager.new m.1 m.2) none) [shopEntry]) []
    openShop :=
  .turn .start (.connect (lit "10.0.0.7:5000"))

/-- The proxy after a query, which has made the pool of its database. -/
def foundShop : Service := (openShop.step plainDriver (.message 0 shopFind calmUpstream)).1

theorem stocked_shop {s : Service}
    (htable : s.proxy.router.table = RouteTable.empty.addRoute (lit "shop") 0)
    (hclient : (s.proxy.routes 0).mongoClient = some shopClient) : s.Stocked := by
  have hlookup : ∀ n r, RouteTable.lookup { RouteTable.empty with
      routes := Function.update RouteTable.empty.routes (lit "shop") (some 0) } n = some r →
        r = 0 := by
    intro n r h
    by_cases hn : n = lit "shop"
    · subst hn
      simpa [RouteTable.lookup, eq_comm] using h
    · simp [RouteTable.lookup, hn, RouteTable.empty] at h
  intro m db cl ref _ _ href
  rw [htable] at href
  unfold RouteTable.route at href
  split at href
  · rename_i r hr
    cases href
    rw [hlookup _ ref hr, hclient]
    simp
  · cases href

/-- A second query finds the pool of the first, and is sent on the client of both. -/
theorem pooled_client_iff_foundShop :
    foundShop.proxy.poolManager.bind (·.poolClient (lit "shop")) = some shopClient ∧
      foundShop.Resolves plainDriver 0 shopFind calmUpstream (lit "shop") shopClient ∧
      ∀ cl, .sent 0 cl ∈ (foundShop.step plainDriver (.message 0 shopFind calmUpstream)).2 →
        cl = shopClient := by
  have hres : foundShop.Resolves plainDriver 0 shopFind calmUpstream (lit "shop") shopClient := by
    refine ⟨{ Connection.new (lit "10.0.0.7:5000") with
      intendedDatabase := lit "shop", databaseUsed := lit "shop" }, PoolSystem.queryUsers, 0, ?_⟩
    decide +kernel
  have hstocked : Runs (Service.StockedTurn plainDriver) (.start openProxy [shopEntry])
      ([] ++ [.connect (lit "10.0.0.7:5000")] ++ [.message 0 shopFind calmUpstream]) foundShop :=
    (Runs.start.step ⟨rfl, stocked_shop rfl (by decide +kernel)⟩).step
      ⟨rfl, stocked_shop rfl (by decide +kernel)⟩
  refine ⟨by decide +kernel, hres, fun cl hsent => ?_⟩
  exact (pooled_client_iff (run_openShop.turn (.message 0 shopFind calmUpstream)) hres hsent).2 _
    hstocked

/-- The client that the route gets after an error of the connection. -/
def newShopClient : MongoClient := { shopClient with id := 1 }

/-- The proxy after a query, a second one that fails with an error of the connection, and a new
connection. -/
def reopenedShop : Service :=
  ((foundShop.step plainDriver (.message 0 shopFind brokenUpstream)).1.step plainDriver
    (.connect (lit "10.0.0.8:5000"))).1

/-- The next query finds a new client on its route, and is sent on the old one. -/
theorem reopenedShop_sends_on_old_client :
    (∃ log, Service.Run plainDriver (.start openProxy [shopEntry]) log reopenedShop) ∧
      reopenedShop.Resolves plainDriver 1 shopFind calmUpstream (lit "shop") newShopClient ∧
      .sent 1 shopClient ∈ (reopenedShop.step plainDriver (.message 1 shopFind calmUpstream)).2 ∧
      shopClient ≠ newShopClient := by
  refine ⟨⟨_, ((run_openShop.turn (.message 0 shopFind calmUpstream)).turn
    (.message 0 shopFind brokenUpstream)).turn (.connect (lit "10.0.0.8:5000"))⟩, ?_,
    by decide +kernel, by decide⟩
  refine ⟨.new (lit "10.0.0.8:5000"), PoolSystem.queryUsers, 0, ?_⟩
  decide +kernel

end MongoBouncer
