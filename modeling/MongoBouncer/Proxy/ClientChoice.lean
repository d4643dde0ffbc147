import MongoBouncer.Proxy.Connection

/-!
# How a message finds its upstream client

`selectClient` takes the client of the route, or the one that is cached for the client's
credentials, and makes a new one where there is none. A new client is stored in the route and
registered for the cleanup at shutdown.

* `Proxy.Chooses`     : what `selectClient` can do;
* `Proxy.SameClients` : two proxies with the same routes and the same clients;
* `Proxy.Forwards`    : what the branch for other messages can do.

Principal results: `Proxy.chooses_selectClient`, `Proxy.forwards_forward`,
`Proxy.handleMessage_eq`.
-/

namespace MongoBouncer

open GoStd Lruttl

namespace Proxy

/-! ## The choice of a client -/

/-- The proxy after a lookup in the cache of credential clients of a route. -/
def lookedUp (p : Proxy) (ref : RouteRef) (now : Int) (key : GoString) : Proxy :=
  p.setCredentialClients ref ((p.routes ref).initCredentialClientsCache.get now key).2

/-- The proxy after a client for a connection string was made. -/
def connected (p : Proxy) (connectionString : GoString) : Proxy :=
  { p with
    nextClient := p.nextClient + 1
    world := { p.world with
      clients := Function.update p.world.clients p.nextClient
        (Mongo.connectedLocally (clientDatabaseName connectionString)) } }

/-- The credential client that is made for a connection. -/
def credentialClient (p : Proxy) (c : Connection) (host port : GoString) (u : Url)
    (up : Upstream) : MongoClient :=
  { id := p.nextClient
    connectionString := credentialConnectionString c host port u up.order.1
    credentials := some (c.clientUsername, c.clientPassword) }

def routeClient (p : Proxy) (ref : RouteRef) : MongoClient :=
  { id := p.nextClient
    connectionString := (p.routes ref).connectionString
    credentials := none }

/-- The proxy after a credential client was made, cached and registered. -/
def addCredentialClient (p : Proxy) (ref : RouteRef) (now : Int) (key : GoString)
    (client : MongoClient) : Proxy :=
  ((p.connected client.connectionString).setCredentialClients ref
    ((p.routes ref).initCredentialClientsCache.add now key client)).registerMongoClient key client

/-- The proxy after a client was made for a route, stored and registered. -/
def addRouteClient (p : Proxy) (ref : RouteRef) (target : GoString) (client : MongoClient) :
    Proxy :=
  ((p.connected client.connectionString).setRoute ref
    { p.routes ref with mongoClient := some client }).registerMongoClient target client

/-- What the choice of a client can do: a credential client is found, or made, or cannot be made;
the route has a client, or one is made, or it cannot be made. -/
inductive Chooses (p : Proxy) (c : Connection) (ref : RouteRef) (target : GoString)
    (up : Upstream) : Except GoError MongoClient → Proxy → Prop where
  | found {client : MongoClient} (hpass : c.isUsingCredentialPassthrough = true)
      (hit : (p.routes ref).initCredentialClientsCache.peek (credentialKey c) = some client) :
      Chooses p c ref target up (.ok client) (p.lookedUp ref up.now (credentialKey c))
  | notFound {e : GoError} (hpass : c.isUsingCredentialPassthrough = true)
      (miss : (p.routes ref).initCredentialClientsCache.peek (credentialKey c) = none) :
      Chooses p c ref target up (.error e) (p.lookedUp ref up.now (credentialKey c))
  | made {host port : GoString} {u : Url} (hpass : c.isUsingCredentialPassthrough = true)
      (miss : (p.routes ref).initCredentialClientsCache.peek (credentialKey c) = none)
      (hhost : extractHostFromRoute (p.routes ref).connectionString = (host, port))
      (hurl : Url.parse (p.routes ref).connectionString = some u) :
      Chooses p c ref target up (.ok (p.credentialClient c host port u up))
        (p.addCredentialClient ref up.now (credentialKey c) (p.credentialClient c host port u up))
  | present {client : MongoClient} (hpass : c.isUsingCredentialPassthrough = false)
      (hclient : (p.routes ref).mongoClient = some client) :
      Chooses p c ref target up (.ok client) p
  | absent {e : GoError} (hpass : c.isUsingCredentialPassthrough = false)
      (hnone : (p.routes ref).mongoClient = none) : Chooses p c ref target up (.error e) p
  | installed (hpass : c.isUsingCredentialPassthrough = false)
      (hnone : (p.routes ref).mongoClient = none) :
      Chooses p c ref target up (.ok (p.routeClient ref))
        (p.addRouteClient ref target (p.routeClient ref))

section Choice

variable {p : Proxy} {c : Connection} {ref : RouteRef} {target : GoString} {up : Upstream}

theorem connect_eq (p : Proxy) (up : Upstream) (connectionString : GoString)
    (credentials : Option (GoString × GoString)) :
    (∃ e, p.connect up connectionString credentials = .error e) ∨
      p.connect up connectionString credentials =
        .ok ({ id := p.nextClient, connectionString, credentials },
          p.connected connectionString) := by
  unfold connect
  split
  · exact Or.inl ⟨_, rfl⟩
  · exact Or.inr rfl

theorem lookedUp_of_miss {now : Int} {key : GoString}
    (h : (p.routes ref).initCredentialClientsCache.peek key = none) :
    p.lookedUp ref now key =
      p.setCredentialClients ref (p.routes ref).initCredentialClientsCache := by
  unfold lookedUp
  rw [LruTtl.get_of_miss now h]

theorem initCredentialClientsCache_setCredentialClients (p : Proxy) (ref : RouteRef)
    (cache : LruTtl GoString MongoClient) :
    ((p.setCredentialClients ref cache).routes ref).initCredentialClientsCache = cache := by
  simp [setCredentialClients, setRoute, RouteConfig.initCredentialClientsCache]

theorem setCredentialClients_twice (p : Proxy) (ref : RouteRef)
    (cache cache' : LruTtl GoString MongoClient) :
    (p.setCredentialClients ref cache).setCredentialClients ref cache' =
      p.setCredentialClients ref cache' := by
  simp [setCredentialClients, setRoute]

theorem createMongoClientWithCredentials_of_miss (up : Upstream)
    (miss : (p.routes ref).initCredentialClientsCache.peek (credentialKey c) = none) :
    (∃ e, (p.lookedUp ref up.now (credentialKey c)).createMongoClientWithCredentials c ref up =
        (.error e, p.lookedUp ref up.now (credentialKey c))) ∨
      ∃ host port u, extractHostFromRoute (p.routes ref).connectionString = (host, port) ∧
        Url.parse (p.routes ref).connectionString = some u ∧
        (p.lookedUp ref up.now (credentialKey c)).createMongoClientWithCredentials c ref up =
          (.ok (p.credentialClient c host port u up),
            p.addCredentialClient ref up.now (credentialKey c)
              (p.credentialClient c host port u up)) := by
  rw [lookedUp_of_miss miss]
  unfold createMongoClientWithCredentials
  rw [initCredentialClientsCache_setCredentialClients, LruTtl.get_of_miss up.now miss]
  have hsame : ((p.setCredentialClients ref (p.routes ref).initCredentialClientsCache).routes
      ref).connectionString = (p.routes ref).connectionString := by
    simp [setCredentialClients, setRoute]
  simp only [setCredentialClients_twice, hsame]
  generalize extractHostFromRoute (p.routes ref).connectionString = address
  obtain ⟨host, port⟩ := address
  split
  · exact Or.inl ⟨_, rfl⟩
  · split
    · exact Or.inl ⟨_, rfl⟩
    · rename_i u hurl
      rcases connect_eq (p.setCredentialClients ref (p.routes ref).initCredentialClientsCache) up
        (credentialConnectionString c host port u up.order.1)
        (some (c.clientUsername, c.clientPassword)) with ⟨e, he⟩ | hok
      · rw [he]
        exact Or.inl ⟨_, rfl⟩
      · rw [hok]
        refine Or.inr ⟨host, port, u, rfl, hurl, ?_⟩
        -- the cache is set twice, before and after the client is made
        have htwice := setCredentialClients_twice
          (p.connected (credentialConnectionString c host port u up.order.1)) ref
          (p.routes ref).initCredentialClientsCache
          ((p.routes ref).initCredentialClientsCache.add up.now (credentialKey c)
            (p.credentialClient c host port u up))
        exact congrArg (fun q => (Except.ok (p.credentialClient c host port u up),
          registerMongoClient q (credentialKey c) (p.credentialClient c host port u up))) htwice

theorem chooses_selectClient (p : Proxy) (c : Connection) (ref : RouteRef) (target : GoString)
    (up : Upstream) :
    p.Chooses c ref target up (p.selectClient c ref target up).1
      (p.selectClient c ref target up).2 := by
  unfold selectClient
  split
  · rename_i hpass
    unfold getOrCreateCredentialClient
    simp only [LruTtl.get_fst]
    split
    · rename_i client hit
      exact .found hpass hit
    · rename_i miss
      rcases createMongoClientWithCredentials_of_miss up miss with
        ⟨e, he⟩ | ⟨host, port, u, hhost, hurl, hok⟩
      · unfold lookedUp at he
        rw [he]
        exact .notFound hpass miss
      · unfold lookedUp at hok
        rw [hok]
        exact .made hpass miss hhost hurl
  · rename_i hpass
    split
    · rename_i client hclient
      exact .present (by simpa using hpass) hclient
    · rename_i hnone
      unfold createLazyMongoClient
      rw [hnone]
      rcases connect_eq p up (p.routes ref).connectionString none with ⟨e, he⟩ | hok
      · rw [he]
        exact .absent (by simpa using hpass) hnone
      · rw [hok]
        exact .installed (by simpa using hpass) hnone

theorem Chooses.poolManager {r : Except GoError MongoClient} {p' : Proxy}
    (h : p.Chooses c ref target up r p') : p'.poolManager = p.poolManager := by
  cases h with
  | _ => rfl

theorem mongoClient_setCredentialClients (p : Proxy) (ref : RouteRef)
    (cache : LruTtl GoString MongoClient) (ref' : RouteRef) :
    ((p.setCredentialClients ref cache).routes ref').mongoClient = (p.routes ref').mongoClient := by
  by_cases href : ref' = ref
  · simp [setCredentialClients, setRoute, href]
  · simp [setCredentialClients, setRoute, href]

theorem Chooses.mongoClient_same {r : Except GoError MongoClient} {p' : Proxy}
    (h : p.Chooses c ref target up r p')
    (hr : c.isUsingCredentialPassthrough = true ∨ ∃ e, r = .error e) (ref' : RouteRef) :
    (p'.routes ref').mongoClient = (p.routes ref').mongoClient := by
  cases h with
  | found | notFound => exact mongoClient_setCredentialClients p ref _ ref'
  | made hpass miss => exact mongoClient_setCredentialClients (p.connected _) ref _ ref'
  | present | absent => rfl
  | installed hpass hnone => simp [hpass] at hr

/-- The client that is chosen otherwise is the client of the route from then on, as it was if the
route had one. -/
theorem Chooses.mongoClient_of_direct {client : MongoClient} {p' : Proxy}
    (h : p.Chooses c ref target up (.ok client) p')
    (hpass : c.isUsingCredentialPassthrough = false) :
    (p'.routes ref).mongoClient = some client ∧
      (∀ cl, (p.routes ref).mongoClient = some cl → cl = client) ∧
      ∀ ref', ref' ≠ ref → p'.routes ref' = p.routes ref' := by
  cases h with
  | found hpass' | made hpass' => simp [hpass] at hpass'
  | present hpass' hclient =>
    refine ⟨hclient, ?_, fun _ _ => rfl⟩
    intro cl hcl
    rw [hclient] at hcl
    exact (Option.some.inj hcl).symm
  | installed hpass' hnone =>
    refine ⟨?_, ?_, ?_⟩
    · simp [addRouteClient, registerMongoClient, setRoute]
    · intro cl hcl
      rw [hnone] at hcl
      cases hcl
    · intro ref' href
      exact Function.update_of_ne href _ _

theorem Chooses.direct_unique {client client' : MongoClient} {p' p'' : Proxy}
    (h : p.Chooses c ref target up (.ok client) p')
    (h' : p.Chooses c ref target up (.ok client') p'')
    (hpass : c.isUsingCredentialPassthrough = false) : client = client' := by
  cases h with
  | found hpass' | made hpass' => simp [hpass] at hpass'
  | present hpass' hclient => exact (h'.mongoClient_of_direct hpass).2.1 client hclient
  | installed hpass' hnone =>
    cases h' with
    | found hpass'' | made hpass'' => simp [hpass] at hpass''
    | present hpass'' hclient =>
      rw [hnone] at hclient
      cases hclient
    | installed hpass'' hnone' => rfl

end Choice

/-! ## The round trip -/

/-- Two proxies with the same routes and the same clients. -/
structure SameClients (p p' : Proxy) : Prop where
  routes : p'.routes = p.routes
  mongoClients : p'.mongoClients = p.mongoClients
  nextClient : p'.nextClient = p.nextClient

theorem SameClients.refl (p : Proxy) : p.SameClients p := ⟨rfl, rfl, rfl⟩

theorem SameClients.trans {p p' p'' : Proxy} (h : p.SameClients p') (h' : p'.SameClients p'') :
    p.SameClients p'' :=
  ⟨h'.routes.trans h.routes, h'.mongoClients.trans h.mongoClients, h'.nextClient.trans h.nextClient⟩

/-- The proxy after a lookup of a route. -/
def routed (p : Proxy) (now : Int) (databaseName : GoString) : Proxy :=
  { p with router := (p.router.getRoute now databaseName).2 }

/-- The connection as it goes to the round trip of a message for a database. -/
def prepared (p : Proxy) (c : Connection) (databaseName : GoString) (ref : RouteRef) : Connection :=
  { c with
    intendedDatabase := databaseName
    isUsingCredentialPassthrough := p.useCredentialPassthrough c databaseName (p.routes ref) }

/-- The round trip on the chosen client, and the reset of the route. -/
def tripped (d : Driver) (p : Proxy) (c : Connection) (ref : RouteRef) (databaseName : GoString)
    (client : MongoClient) (wm : Bytes) (op : Operation) (up : Upstream) : Outcome :=
  let (result, p, sentTo) := p.trip d c databaseName client wm op up
  { result, conn := c, proxy := p.resetRoute ref result, accepted := none, sentTo }

section Trip

variable (d : Driver) (p : Proxy) (c : Connection) (databaseName : GoString) (client : MongoClient)
  (wm : Bytes) (op : Operation) (up : Upstream)

theorem sameClients_call : p.SameClients (p.call d client wm op up).2 := ⟨rfl, rfl, rfl⟩

theorem sameClients_pooledCall (m : Manager) :
    p.SameClients (p.pooledCall d m c databaseName client wm op up).2.1 := by
  unfold pooledCall
  simp only
  split
  · exact ⟨rfl, rfl, rfl⟩
  · split
    · exact ⟨rfl, rfl, rfl⟩
    · exact ⟨rfl, rfl, rfl⟩

theorem sameClients_trip : p.SameClients (p.trip d c databaseName client wm op up).2.1 := by
  unfold trip
  split
  · unfold roundTripWithPool
    simp only
    split
    · exact .refl p
    · split
      · exact ⟨rfl, rfl, rfl⟩
      · exact sameClients_pooledCall d p c _ client wm op up _
  · exact sameClients_call d p client wm op up

theorem trip_of_passThrough (hpass : c.isUsingCredentialPassthrough = true) :
    (p.trip d c databaseName client wm op up).2.1.poolManager = p.poolManager ∧
      (p.trip d c databaseName client wm op up).2.2 = some client := by
  unfold trip
  split
  · rename_i hpool
    rw [hpass] at hpool
    cases hpool
  · exact ⟨rfl, rfl⟩

/-- What the branch for other messages can do: there is no route, or no client, or a round trip. -/
inductive Forwards : Outcome → Prop where
  | unrouted {e e' : GoError} (hroute : p.router.table.route databaseName = .error e) :
      Forwards ((p.routed up.now databaseName).fail c e')
  | unserved {ref : RouteRef} {e : GoError} {p₂ : Proxy}
      (hroute : p.router.table.route databaseName = .ok ref)
      (hchoose : (p.routed up.now databaseName).Chooses (p.prepared c databaseName ref) ref
        databaseName up (.error e) p₂) :
      Forwards (p₂.fail (p.prepared c databaseName ref) e)
  | served {ref : RouteRef} {client : MongoClient} {p₂ : Proxy}
      (hroute : p.router.table.route databaseName = .ok ref)
      (hchoose : (p.routed up.now databaseName).Chooses (p.prepared c databaseName ref) ref
        databaseName up (.ok client) p₂) :
      Forwards (p₂.tripped d (p.prepared c databaseName ref) ref databaseName client wm op up)

theorem getRoute_ok (p : Proxy) (now : Int) (database : GoString) :
    (p.getRoute now database).1 = p.router.table.route database :=
  p.router.getRoute_eq now database

theorem forwards_forward :
    Forwards d p c databaseName wm op up (p.forward d c databaseName wm op up) := by
  have hget := p.getRoute_ok up.now databaseName
  unfold forward
  split
  · rename_i e p₁ heq
    have hp₁ : p₁ = p.routed up.now databaseName := (congrArg Prod.snd heq).symm
    rw [heq] at hget
    subst hp₁
    split
    · exact .unrouted hget.symm
    · exact .unrouted hget.symm
  · rename_i ref p₁ heq
    have hp₁ : p₁ = p.routed up.now databaseName := (congrArg Prod.snd heq).symm
    rw [heq] at hget
    subst hp₁
    have hchoose := chooses_selectClient (p.routed up.now databaseName)
      (p.prepared c databaseName ref) ref databaseName up
    cases hsel : (p.routed up.now databaseName).selectClient (p.prepared c databaseName ref) ref
        databaseName up with
    | mk r p₂ =>
      have hsel' : (p.routed up.now databaseName).selectClient { c with
          intendedDatabase := databaseName
          isUsingCredentialPassthrough := (p.routed up.now databaseName).useCredentialPassthrough c
            databaseName ((p.routed up.now databaseName).routes ref) } ref databaseName up =
          (r, p₂) := hsel
      rw [hsel] at hchoose
      simp only [hsel']
      cases r with
      | error e => exact .unserved hget.symm hchoose
      | ok client => exact .served hget.symm hchoose

end Trip

theorem mongoClient_resetRoute (p : Proxy) (ref : RouteRef) (result : Except GoError Response)
    (ref' : RouteRef) :
    ((p.resetRoute ref result).routes ref').mongoClient = (p.routes ref').mongoClient ∨
      ref' = ref ∧ ((p.resetRoute ref result).routes ref').mongoClient = none := by
  unfold resetRoute
  split
  · exact Or.inl rfl
  · split
    · by_cases href : ref' = ref
      · exact Or.inr ⟨href, by simp [setRoute, href]⟩
      · exact Or.inl (by simp [setRoute, href])
    · exact Or.inl rfl

theorem poolManager_resetRoute (p : Proxy) (ref : RouteRef) (result : Except GoError Response) :
    (p.resetRoute ref result).poolManager = p.poolManager := by
  unfold resetRoute
  split
  · rfl
  · split <;> rfl

/-! ## Messages -/

section Message

variable {d : Driver} {p : Proxy} {c : Connection} {wm : Bytes} {op : Operation} {up : Upstream}

theorem sameClients_closeConnection (p : Proxy) (c : Connection) :
    p.SameClients (p.closeConnection c) := ⟨rfl, rfl, rfl⟩

theorem roundTrip_of_handshake (h : isHandshake d op = true) :
    p.roundTrip d c wm op up = p.handshake d (extractDatabaseName d c op).2 op up.now := by
  simp [roundTrip, h]

theorem roundTrip_of_not_handshake (h : isHandshake d op = false) :
    p.roundTrip d c wm op up = p.forward d (extractDatabaseName d c op).2
      (extractDatabaseName d c op).1 wm op up := by
  simp [roundTrip, h]

theorem handleMessage_of_error {e : DecodeError} (h : decode d wm = .error e) :
    p.handleMessage d c wm up =
      { proxy := p.closeConnection c, conn := none, accepted := none, sentTo := none } := by
  simp [handleMessage, h]

/-- A decoded message ends its connection after the round trip, or leaves the connection of the
round trip, which may be asked for the database once more. -/
theorem handleMessage_eq (h : decode d wm = .ok op) (up : Upstream) {o : Outcome}
    (ho : p.roundTrip d (extractDatabaseName d c op).2 wm op up = o) :
    p.handleMessage d c wm up =
        { proxy := o.proxy.closeConnection c, conn := none, accepted := o.accepted,
          sentTo := o.sentTo } ∨
      ∃ c', (c' = o.conn ∨ c' = (extractDatabaseName d o.conn op).2) ∧ p.handleMessage d c wm up =
          { proxy := o.proxy, conn := some c', accepted := o.accepted, sentTo := o.sentTo } := by
  unfold handleMessage
  rw [h]
  simp only [ho]
  split
  · exact Or.inl rfl
  · split
    · exact Or.inr ⟨_, Or.inl rfl, rfl⟩
    · split
      · exact Or.inl rfl
      · split
        · exact Or.inr ⟨_, Or.inr rfl, rfl⟩
        · exact Or.inr ⟨_, Or.inl rfl, rfl⟩

end Message

end Proxy

end MongoBouncer
