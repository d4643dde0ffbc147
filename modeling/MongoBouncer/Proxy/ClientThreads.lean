import MongoBouncer.Proxy.Credentials
import MongoBouncer.Runs

/-!
# Requests that share the routes

The requests of the client connections, each on its way from the lookup of its route to the reset
after an error. A step is one access to what the requests share: a read of the client of a route, a
critical section, a call of a cache, or the making of a client. The steps of different requests
interleave in any order.

`createLazyMongoClient` makes its client with the lock of the route held. The reset takes that lock
to write, and everybody else reads the client of a route without it.

* `ClientPoint`        : how far a request is;
* `ClientSystem.step`  : the next step of a request, and what else can happen;
* `ClientSystem.Acts`  : what a step can do to the clients;
* `ClientSystem.play`  : the state that given events lead to.

Two predicates follow the clients: those that were made, and those that were closed.

Principal results: `ClientSystem.acts_of_step`, and `ClientSystem.forward_alone`: a request that is
not interrupted leaves the proxy that `forward` leaves.
-/

namespace MongoBouncer

open GoStd Lruttl Function

/-! ## The system -/

/-- A request: its connection, its route and the database it is for. -/
structure ClientRequest where
  conn : Connection
  ref : RouteRef
  target : GoString

/-- The client that a request goes on with: what it read from its route, which can be nil, or the
one that is kept for its credentials. -/
inductive Chosen where
  | ofRoute (client : Option MongoClient)
  | ofCredentials (client : MongoClient)
  deriving DecidableEq, Repr

/-- How far a request is. `again` tells the second lookup of `createMongoClientWithCredentials` from
the first one of `getOrCreateCredentialClient`. -/
inductive ClientPoint where
  | idle
  /-- before the test `route.MongoClient == nil` -/
  | checking (q : ClientRequest)
  /-- before `mongoClient = route.MongoClient` -/
  | reading (q : ClientRequest)
  /-- before the first test of `createLazyMongoClient` -/
  | lazyChecking (q : ClientRequest)
  /-- before its `return route.MongoClient` -/
  | lazyReading (q : ClientRequest)
  /-- before `clientMutex.Lock()` -/
  | locking (q : ClientRequest)
  /-- with the lock, before the second test -/
  | rechecking (q : ClientRequest)
  /-- with the lock, before the client is made -/
  | connecting (q : ClientRequest)
  /-- with the lock, before `route.MongoClient = mongoClient` -/
  | storing (q : ClientRequest) (client : MongoClient)
  /-- with the lock, before `RegisterMongoClient` -/
  | registering (q : ClientRequest) (client : MongoClient)
  /-- before the test of `InitCredentialClientsCache` -/
  | initializing (q : ClientRequest) (again : Bool)
  /-- before its assignment -/
  | allocating (q : ClientRequest) (again : Bool)
  /-- before `CredentialClients.Get` -/
  | lookingUp (q : ClientRequest) (again : Bool)
  /-- before the client with the credentials is made -/
  | connectingAs (q : ClientRequest)
  /-- before `CredentialClients.Add` -/
  | caching (q : ClientRequest) (client : MongoClient)
  /-- before `RegisterMongoClient` with the credentials as the key -/
  | registeringAs (q : ClientRequest) (client : MongoClient)
  /-- in the round trip -/
  | tripping (q : ClientRequest) (chosen : Chosen)
  /-- after an error of the connection, before the test `route.MongoClient != nil` -/
  | failed (q : ClientRequest) (chosen : Chosen)
  /-- before the critical section that sets the client of the route to nil -/
  | resetting (q : ClientRequest) (chosen : Chosen)

namespace ClientPoint

/-- The route whose lock is held. -/
def holds : ClientPoint → Option RouteRef
  | rechecking q => some q.ref
  | connecting q => some q.ref
  | storing q _ => some q.ref
  | registering q _ => some q.ref
  | _ => none

/-- The client that was made and is not registered yet. -/
def pending : ClientPoint → Option MongoClient
  | storing _ client => some client
  | registering _ client => some client
  | caching _ client => some client
  | registeringAs _ client => some client
  | _ => none

/-- The request and the client it has chosen. -/
def picked : ClientPoint → Option (ClientRequest × Chosen)
  | tripping q chosen => some (q, chosen)
  | failed q chosen => some (q, chosen)
  | resetting q chosen => some (q, chosen)
  | _ => none

end ClientPoint

/-- The proxy, the points of the requests and the locks of the routes. -/
structure ClientSystem where
  proxy : Proxy
  point : Nat → ClientPoint
  lock : RouteRef → Option Nat
  /-- how many clients were installed on a route so far -/
  installs : RouteRef → Nat
  /-- how many there were on its route when a request chose its client -/
  seen : Nat → Nat
  /-- the number of the next client at that time -/
  since : Nat → ClientID
  /-- the clients that were made -/
  created : MongoClient → Prop
  /-- the clients that were closed -/
  closed : MongoClient → Prop

/-- What can happen: a request comes to the lookup of its route, goes on, or gets an answer, with
what its round trip makes of the sessions and the pool; entries of a cache of credential clients
expire; all clients are closed. -/
inductive ClientEvent where
  | begin (k : Nat) (conn : Connection) (target : GoString) (now : Int)
  | go (k : Nat) (up : Upstream)
  | answer (k : Nat) (result : Except GoError Response) (world : World) (pool : Option Manager)
  | evict (ref : RouteRef) (now : Int)
  | closeAll

namespace ClientSystem

def move (s : ClientSystem) (k : Nat) (point : ClientPoint) : ClientSystem :=
  { s with point := update s.point k point }

/-- The request has chosen its client. -/
def pick (s : ClientSystem) (k : Nat) (q : ClientRequest) (chosen : Chosen) : ClientSystem :=
  { s.move k (.tripping q chosen) with
    seen := update s.seen k (s.installs q.ref)
    since := update s.since k s.proxy.nextClient }

def unlock (s : ClientSystem) (ref : RouteRef) : ClientSystem :=
  { s with lock := update s.lock ref none }

/-- A client was made, and the proxy counts it. -/
def make (s : ClientSystem) (client : MongoClient) (p : Proxy) : ClientSystem :=
  { s with proxy := p, created := fun c => s.created c ∨ c = client }

/-- `route.MongoClient = client`. -/
def install (s : ClientSystem) (ref : RouteRef) (client : MongoClient) : ClientSystem :=
  { s with
    proxy := s.proxy.setRoute ref { s.proxy.routes ref with mongoClient := some client }
    installs := update s.installs ref (s.installs ref + 1) }

/-- `RegisterMongoClient`. The client that was registered under the name loses that key. -/
def register (s : ClientSystem) (name : GoString) (client : MongoClient) : ClientSystem :=
  { s with proxy := s.proxy.registerMongoClient name client }

/-- The route with another cache of credential clients. -/
def setCache (s : ClientSystem) (ref : RouteRef) (cache : LruTtl GoString MongoClient) :
    ClientSystem :=
  { s with proxy := s.proxy.setCredentialClients ref cache }

/-- `route.MongoClient = nil`. -/
def clear (s : ClientSystem) (ref : RouteRef) : ClientSystem :=
  { s with proxy := s.proxy.setRoute ref { s.proxy.routes ref with mongoClient := none } }

/-- The client that `createMongoClientWithCredentials` makes when the lookup found none. -/
def connectAs (p : Proxy) (q : ClientRequest) (up : Upstream) :
    Except GoError (MongoClient × Proxy) :=
  let (host, port) := extractHostFromRoute (p.routes q.ref).connectionString
  if host = [] ∨ port = [] then
    .error (errorf "failed to extract host/port from route connection string")
  else
    match Url.parse (p.routes q.ref).connectionString with
    | none => .error (errorf "failed to parse route connection string: ")
    | some u =>
      p.connect up (credentialConnectionString q.conn host port u up.order.1)
        (some (q.conn.clientUsername, q.conn.clientPassword))

/-- The next step of a request; `none` if it waits for a lock or for an answer. -/
def go (s : ClientSystem) (k : Nat) (up : Upstream) : Option ClientSystem :=
  match s.point k with
  | .idle => none
  | .checking q =>
    some (s.move k (if (s.proxy.routes q.ref).mongoClient.isSome then .reading q
      else .lazyChecking q))
  | .reading q => some (s.pick k q (.ofRoute (s.proxy.routes q.ref).mongoClient))
  | .lazyChecking q =>
    some (s.move k (if (s.proxy.routes q.ref).mongoClient.isSome then .lazyReading q
      else .locking q))
  | .lazyReading q => some (s.pick k q (.ofRoute (s.proxy.routes q.ref).mongoClient))
  | .locking q =>
    if s.lock q.ref = none then
      some { s.move k (.rechecking q) with lock := update s.lock q.ref (some k) }
    else none
  | .rechecking q =>
    match (s.proxy.routes q.ref).mongoClient with
    | some client => some ((s.unlock q.ref).pick k q (.ofRoute (some client)))
    | none => some (s.move k (.connecting q))
  | .connecting q =>
    match s.proxy.connect up (s.proxy.routes q.ref).connectionString none with
    | .error _ => some ((s.unlock q.ref).move k .idle)
    | .ok (client, p) => some ((s.make client p).move k (.storing q client))
  | .storing q client => some ((s.install q.ref client).move k (.registering q client))
  | .registering q client =>
    some (((s.register q.target client).unlock q.ref).pick k q (.ofRoute (some client)))
  | .initializing q again =>
    some (s.move k (if (s.proxy.routes q.ref).credentialClients.isSome then .lookingUp q again
      else .allocating q again))
  | .allocating q again =>
    some ((s.setCache q.ref (LruTtl.new 200 (30 * minute))).move k (.lookingUp q again))
  | .lookingUp q again =>
    let (hit, cache) := (s.proxy.routes q.ref).initCredentialClientsCache.get up.now
      (Proxy.credentialKey q.conn)
    match hit with
    | some client => some ((s.setCache q.ref cache).pick k q (.ofCredentials client))
    | none =>
      some ((s.setCache q.ref cache).move k
        (if again then .connectingAs q else .initializing q true))
  | .connectingAs q =>
    match connectAs s.proxy q up with
    | .error _ => some (s.move k .idle)
    | .ok (client, p) => some ((s.make client p).move k (.caching q client))
  | .caching q client =>
    some ((s.setCache q.ref ((s.proxy.routes q.ref).initCredentialClientsCache.add up.now
      (Proxy.credentialKey q.conn) client)).move k (.registeringAs q client))
  | .registeringAs q client =>
    some ((s.register (Proxy.credentialKey q.conn) client).pick k q (.ofCredentials client))
  | .tripping _ _ => none
  | .failed q chosen =>
    some (s.move k (if (s.proxy.routes q.ref).mongoClient.isSome then .resetting q chosen
      else .idle))
  | .resetting q _ =>
    if s.lock q.ref = none then some ((s.clear q.ref).move k .idle) else none

/-- Where a request starts once its route is known. -/
def entry (q : ClientRequest) : ClientPoint :=
  if q.conn.isUsingCredentialPassthrough then .initializing q false else .checking q

/-- Where an answer leads. -/
def answered (q : ClientRequest) (chosen : Chosen) (result : Except GoError Response) :
    ClientPoint :=
  match result with
  | .ok _ => .idle
  | .error e => if Proxy.isConnectionError e then .failed q chosen else .idle

/-- One event; `none` if it cannot happen. -/
def step (s : ClientSystem) : ClientEvent → Option ClientSystem
  | .begin k conn target now =>
    match s.point k with
    | .idle =>
      match s.proxy.getRoute now target with
      | (.error _, p) => some { s with proxy := p }
      | (.ok ref, p) =>
        some ({ s with proxy := p }.move k
          (entry { conn := p.prepared conn target ref, ref, target }))
    | _ => none
  | .go k up => s.go k up
  | .answer k result world pool =>
    match s.point k with
    | .tripping q chosen =>
      some ({ s with proxy := { s.proxy with world, poolManager := pool } }.move k
        (answered q chosen result))
    | _ => none
  | .evict ref now =>
    match (s.proxy.routes ref).credentialClients with
    | none => none
    | some cache =>
      some (s.setCache ref (cache.removeOldestExpired now).2)
  | .closeAll =>
    some { s with
      proxy := { s.proxy with mongoClients := fun _ => none }
      closed := fun c => s.closed c ∨ ∃ name, s.proxy.mongoClients name = some c }

def Does (s : ClientSystem) (e : ClientEvent) (s' : ClientSystem) : Prop := s.step e = some s'

/-- No request, on the routes and clients of a proxy. -/
def start (p : Proxy) : ClientSystem :=
  { proxy := p
    point := fun _ => .idle
    lock := fun _ => none
    installs := fun _ => 0
    seen := fun _ => 0
    since := fun _ => 0
    created := fun c => ∃ ref, (p.routes ref).mongoClient = some c
    closed := fun _ => False }

/-- No request, on a proxy that has just started. -/
def startup (authEnabled regexCredentialPassthrough metrics forwards : Bool)
    (manager : Option Manager) (dc : Option DistributedCache) (databases : List DatabaseEntry) :
    ClientSystem :=
  start (Service.start
    (.new authEnabled regexCredentialPassthrough metrics forwards manager dc) databases).proxy

/-- The state that the events lead to. -/
def play : ClientSystem → List ClientEvent → Option ClientSystem
  | s, [] => some s
  | s, e :: es => (s.step e).bind (play · es)

variable {s s' : ClientSystem} {p : Proxy} {up : Upstream}

theorem runs_of_play {es : List ClientEvent} (h : play s es = some s') : Runs Does s es s' := by
  induction es generalizing s with
  | nil =>
    cases h
    exact .start
  | cons e es ih =>
    obtain ⟨s₁, hstep, hrest⟩ := Option.bind_eq_some_iff.mp h
    exact (Runs.start.step hstep).append (ih hrest)

theorem id_addDatabases (hp : ∀ ref c, (p.routes ref).mongoClient = some c → c.id < p.nextClient)
    (databases : List DatabaseEntry) (ref : RouteRef) :
    ∀ ref' c, ((p.addDatabases ref databases).routes ref').mongoClient = some c →
      c.id < (p.addDatabases ref databases).nextClient := by
  induction databases generalizing p ref with
  | nil => exact hp
  | cons e es ih =>
    refine ih ?_ (ref + 1)
    intro ref' c hc
    by_cases href : ref' = ref
    · subst href
      simp only [Proxy.addDatabase, update_self] at hc
      split at hc
      · cases hc
        exact Nat.lt_succ_self _
      · cases hc
    · simp only [Proxy.addDatabase, update_of_ne href] at hc
      exact Nat.lt_succ_of_lt (hp ref' c hc)

/-! ## What a step can do -/

/-- The clients of the routes, the registered ones and the number of the next one stay. -/
structure KeepsClients (p p' : Proxy) : Prop where
  routes : ∀ ref, (p'.routes ref).mongoClient = (p.routes ref).mongoClient
  mongoClients : p'.mongoClients = p.mongoClients
  nextClient : p'.nextClient = p.nextClient

theorem KeepsClients.refl (p : Proxy) : KeepsClients p p := ⟨fun _ => rfl, rfl, rfl⟩

theorem keepsClients_setCredentialClients (p : Proxy) (ref : RouteRef)
    (cache : LruTtl GoString MongoClient) : KeepsClients p (p.setCredentialClients ref cache) :=
  ⟨p.mongoClient_setCredentialClients ref cache, rfl, rfl⟩

/-- What a step can do to the clients. -/
inductive Acts (s : ClientSystem) : ClientEvent → ClientSystem → Prop where
  /-- nothing, and no request moves -/
  | kept {e : ClientEvent} {p : Proxy} (hp : KeepsClients s.proxy p) :
      Acts s e { s with proxy := p }
  /-- nothing; the request holds no lock, and goes on with the same client -/
  | moved {e : ClientEvent} {k : Nat} {p : Proxy} {point : ClientPoint}
      (hp : KeepsClients s.proxy p) (hfrom : (s.point k).holds = none)
      (hholds : point.holds = none) (hpending : point.pending = (s.point k).pending)
      (hpicked : point.picked = (s.point k).picked ∨ point.picked = none) :
      Acts s e ({ s with proxy := p }.move k point)
  /-- the request chooses its client, which for the client of the route is a read without lock -/
  | picked {e : ClientEvent} {k : Nat} {p : Proxy} {q : ClientRequest} {chosen : Chosen}
      (hp : KeepsClients s.proxy p) (hfrom : (s.point k).holds = none)
      (hpending : (s.point k).pending = none)
      (hread : ∀ own, chosen = .ofRoute own → own = (s.proxy.routes q.ref).mongoClient) :
      Acts s e ({ s with proxy := p }.pick k q chosen)
  | locked {k : Nat} {up : Upstream} {q : ClientRequest} (hpoint : s.point k = .locking q)
      (hfree : s.lock q.ref = none) :
      Acts s (.go k up)
        { s.move k (.rechecking q) with lock := update s.lock q.ref (some k) }
  | found {k : Nat} {up : Upstream} {q : ClientRequest} {client : MongoClient}
      (hpoint : s.point k = .rechecking q)
      (hclient : (s.proxy.routes q.ref).mongoClient = some client) :
      Acts s (.go k up) ((s.unlock q.ref).pick k q (.ofRoute (some client)))
  | missed {k : Nat} {up : Upstream} {q : ClientRequest} (hpoint : s.point k = .rechecking q)
      (hnone : (s.proxy.routes q.ref).mongoClient = none) :
      Acts s (.go k up) (s.move k (.connecting q))
  | gaveUp {k : Nat} {up : Upstream} {q : ClientRequest} (hpoint : s.point k = .connecting q) :
      Acts s (.go k up) ((s.unlock q.ref).move k .idle)
  | made {k : Nat} {up : Upstream} {q : ClientRequest} {client : MongoClient} {p : Proxy}
      {point : ClientPoint}
      (hpoint : s.point k = .connecting q ∧ point = .storing q client ∨
        s.point k = .connectingAs q ∧ point = .caching q client)
      (hid : client.id = s.proxy.nextClient) (hroutes : p.routes = s.proxy.routes)
      (hclients : p.mongoClients = s.proxy.mongoClients)
      (hnext : p.nextClient = s.proxy.nextClient + 1) :
      Acts s (.go k up) ((s.make client p).move k point)
  | installed {k : Nat} {up : Upstream} {q : ClientRequest} {client : MongoClient}
      (hpoint : s.point k = .storing q client) :
      Acts s (.go k up) ((s.install q.ref client).move k (.registering q client))
  | registered {k : Nat} {up : Upstream} {q : ClientRequest} {client : MongoClient}
      (hpoint : s.point k = .registering q client) :
      Acts s (.go k up)
        (((s.register q.target client).unlock q.ref).pick k q (.ofRoute (some client)))
  | registeredAs {k : Nat} {up : Upstream} {q : ClientRequest} {client : MongoClient}
      (hpoint : s.point k = .registeringAs q client) :
      Acts s (.go k up)
        ((s.register (Proxy.credentialKey q.conn) client).pick k q (.ofCredentials client))
  | cleared {k : Nat} {up : Upstream} {q : ClientRequest} {chosen : Chosen}
      (hpoint : s.point k = .resetting q chosen) (hfree : s.lock q.ref = none) :
      Acts s (.go k up) ((s.clear q.ref).move k .idle)
  | closed :
      Acts s .closeAll { s with
        proxy := { s.proxy with mongoClients := fun _ => none }
        closed := fun c => s.closed c ∨ ∃ name, s.proxy.mongoClients name = some c }

theorem answered_cases (q : ClientRequest) (chosen : Chosen) (result : Except GoError Response) :
    (answered q chosen result).holds = none ∧ (answered q chosen result).pending = none ∧
      ((answered q chosen result).picked = some (q, chosen) ∨
        (answered q chosen result).picked = none) := by
  unfold answered
  split
  · exact ⟨rfl, rfl, Or.inr rfl⟩
  · split
    · exact ⟨rfl, rfl, Or.inl rfl⟩
    · exact ⟨rfl, rfl, Or.inr rfl⟩

theorem connect_made {p' : Proxy} {connectionString : GoString}
    {credentials : Option (GoString × GoString)} {client : MongoClient}
    (h : p.connect up connectionString credentials = .ok (client, p')) :
    client.id = p.nextClient ∧ p'.routes = p.routes ∧ p'.mongoClients = p.mongoClients ∧
      p'.nextClient = p.nextClient + 1 := by
  rcases p.connect_eq up connectionString credentials with ⟨e, he⟩ | hok
  · rw [he] at h
    cases h
  · rw [hok] at h
    cases h
    exact ⟨rfl, rfl, rfl, rfl⟩

theorem connectAs_made {p' : Proxy} {q : ClientRequest} {client : MongoClient}
    (h : connectAs p q up = .ok (client, p')) :
    client.id = p.nextClient ∧ p'.routes = p.routes ∧ p'.mongoClients = p.mongoClients ∧
      p'.nextClient = p.nextClient + 1 := by
  unfold connectAs at h
  generalize extractHostFromRoute (p.routes q.ref).connectionString = address at h
  obtain ⟨host, port⟩ := address
  simp only at h
  split at h
  · cases h
  · split at h
    · cases h
    · exact connect_made h

/-- A point without a lock, a client in the making or a chosen client. -/
structure Bare (point : ClientPoint) : Prop where
  holds : point.holds = none
  pending : point.pending = none
  picked : point.picked = none

theorem Acts.tested {e : ClientEvent} {k : Nat} (c : Prop)
    [Decidable c] {point a b : ClientPoint} (hp : KeepsClients s.proxy p)
    (hpoint : s.point k = point) (hfrom : Bare point) (ha : Bare a) (hb : Bare b) :
    Acts s e ({ s with proxy := p }.move k (if c then a else b)) := by
  subst hpoint
  split
  · exact .moved hp hfrom.holds ha.holds (ha.pending.trans hfrom.pending.symm) (Or.inr ha.picked)
  · exact .moved hp hfrom.holds hb.holds (hb.pending.trans hfrom.pending.symm) (Or.inr hb.picked)

theorem acts_of_go {k : Nat} (h : s.go k up = some s') : Acts s (.go k up) s' := by
  unfold go at h
  cases hpoint : s.point k with
  | idle | tripping => simp [hpoint] at h
  | checking | lazyChecking | initializing =>
    simp only [hpoint, Option.some.injEq] at h
    subst h
    exact .tested _ (.refl _) hpoint ⟨rfl, rfl, rfl⟩ ⟨rfl, rfl, rfl⟩ ⟨rfl, rfl, rfl⟩
  | reading | lazyReading =>
    simp only [hpoint, Option.some.injEq] at h
    subst h
    refine .picked (.refl _) (by rw [hpoint]; rfl) (by rw [hpoint]; rfl) ?_
    intro own hown
    exact (Chosen.ofRoute.inj hown).symm
  | locking q =>
    simp only [hpoint] at h
    split at h
    · rename_i hfree
      cases h
      exact .locked hpoint hfree
    · cases h
  | rechecking q =>
    simp only [hpoint] at h
    split at h
    · rename_i client hclient
      cases h
      exact .found hpoint hclient
    · rename_i hnone
      cases h
      exact .missed hpoint hnone
  | connecting q =>
    simp only [hpoint] at h
    split at h
    · cases h
      exact .gaveUp hpoint
    · rename_i client p hconnect
      cases h
      obtain ⟨hid, hroutes, hclients, hnext⟩ := connect_made hconnect
      exact .made (Or.inl ⟨hpoint, rfl⟩) hid hroutes hclients hnext
  | storing q client =>
    simp only [hpoint, Option.some.injEq] at h
    subst h
    exact .installed hpoint
  | registering q client =>
    simp only [hpoint, Option.some.injEq] at h
    subst h
    exact .registered hpoint
  | allocating | caching =>
    simp only [hpoint, Option.some.injEq] at h
    subst h
    exact .moved (keepsClients_setCredentialClients _ _ _) (by rw [hpoint]; rfl) rfl
      (by rw [hpoint]; rfl) (Or.inr rfl)
  | lookingUp q again =>
    simp only [hpoint] at h
    split at h
    · cases h
      refine .picked (keepsClients_setCredentialClients _ _ _) (by rw [hpoint]; rfl)
        (by rw [hpoint]; rfl) ?_
      intro own hown
      cases hown
    · cases h
      exact .tested _ (keepsClients_setCredentialClients _ _ _) hpoint ⟨rfl, rfl, rfl⟩
        ⟨rfl, rfl, rfl⟩ ⟨rfl, rfl, rfl⟩
  | connectingAs q =>
    simp only [hpoint] at h
    split at h
    · cases h
      exact .moved (.refl _) (by rw [hpoint]; rfl) rfl (by rw [hpoint]; rfl) (Or.inr rfl)
    · rename_i client p hconnect
      cases h
      obtain ⟨hid, hroutes, hclients, hnext⟩ := connectAs_made hconnect
      exact .made (Or.inr ⟨hpoint, rfl⟩) hid hroutes hclients hnext
  | registeringAs q client =>
    simp only [hpoint, Option.some.injEq] at h
    subst h
    exact .registeredAs hpoint
  | failed q chosen =>
    simp only [hpoint, Option.some.injEq] at h
    subst h
    refine .moved (.refl _) (by rw [hpoint]; rfl) ?_ ?_ ?_
    · split <;> rfl
    · rw [hpoint]
      split <;> rfl
    · rw [hpoint]
      split
      · exact Or.inl rfl
      · exact Or.inr rfl
  | resetting q chosen =>
    simp only [hpoint] at h
    split at h
    · rename_i hfree
      cases h
      exact .cleared hpoint hfree
    · cases h

/-- **What a step can do to the clients.** -/
theorem acts_of_step {e : ClientEvent} (h : s.Does e s') : Acts s e s' := by
  unfold Does at h
  cases e with
  | begin k conn target now =>
    simp only [step] at h
    split at h
    · rename_i hpoint
      split at h
      · rename_i e p hroute
        cases h
        refine .kept ?_
        have hp : p = (s.proxy.getRoute now target).2 := (congrArg Prod.snd hroute).symm
        subst hp
        exact ⟨fun _ => rfl, rfl, rfl⟩
      · rename_i ref p hroute
        cases h
        have hp : p = (s.proxy.getRoute now target).2 := (congrArg Prod.snd hroute).symm
        subst hp
        exact .tested _ ⟨fun _ => rfl, rfl, rfl⟩ hpoint ⟨rfl, rfl, rfl⟩ ⟨rfl, rfl, rfl⟩
          ⟨rfl, rfl, rfl⟩
    · cases h
  | go k up => exact acts_of_go h
  | answer k result world pool =>
    simp only [step] at h
    split at h
    · rename_i q chosen hpoint
      cases h
      obtain ⟨hholds, hpending, hpicked⟩ := answered_cases q chosen result
      refine .moved ⟨fun _ => rfl, rfl, rfl⟩ (by rw [hpoint]; rfl) hholds
        (by rw [hpoint, hpending]; rfl) ?_
      rw [hpoint]
      exact hpicked
    · cases h
  | evict ref now =>
    simp only [step] at h
    split at h
    · cases h
    · cases h
      exact .kept (keepsClients_setCredentialClients _ _ _)
  | closeAll =>
    cases h
    exact .closed

/-! ## A request that is not interrupted -/

/-- The request that an event is of. -/
def eventOf : ClientEvent → Option Nat
  | .begin k _ _ _ => some k
  | .go k _ => some k
  | .answer k _ _ _ => some k
  | .evict _ _ => none
  | .closeAll => none

/-- Steps of one request lead from one state to the other. -/
def Alone (k : Nat) (s s' : ClientSystem) : Prop :=
  ∃ es, Runs Does s es s' ∧ ∀ e ∈ es, eventOf e = some k

namespace Alone

variable {k : Nat} {s s' s'' : ClientSystem}

theorem refl (k : Nat) (s : ClientSystem) : Alone k s s := ⟨[], .start, by simp⟩

theorem trans (h : Alone k s s') (h' : Alone k s' s'') : Alone k s s'' := by
  obtain ⟨es, hes, hk⟩ := h
  obtain ⟨es', hes', hk'⟩ := h'
  refine ⟨es ++ es', hes.append hes', ?_⟩
  intro e he
  rcases List.mem_append.mp he with he | he
  · exact hk e he
  · exact hk' e he

theorem step {e : ClientEvent} (h : Alone k s s') (hstep : s'.step e = some s'')
    (he : eventOf e = some k) : Alone k s s'' := by
  refine h.trans ⟨[e], Runs.start.step hstep, ?_⟩
  intro e' he'
  rw [List.mem_singleton.mp he', he]

theorem go (h : Alone k s s') (up : Upstream) (hstep : s'.go k up = some s'') : Alone k s s'' :=
  h.step (e := .go k up) hstep rfl

end Alone

/-- The request has a client, or has failed, as `selectClient` says. -/
structure Selected (s : ClientSystem) (k : Nat) (q : ClientRequest)
    (result : Except GoError MongoClient × Proxy) : Prop where
  proxy : s.proxy = result.2
  unlocked : ∀ ref, s.lock ref = none
  point : (∃ client chosen, result.1 = .ok client ∧
      (chosen = .ofRoute (some client) ∨ chosen = .ofCredentials client) ∧
      s.point k = .tripping q chosen) ∨
    ∃ e, result.1 = .error e ∧ s.point k = .idle

section Alone

variable {s : ClientSystem} {k : Nat} {q : ClientRequest}

@[simp] theorem point_move (s : ClientSystem) (k : Nat) (point : ClientPoint) :
    (s.move k point).point k = point := update_self _ _ _

@[simp] theorem point_pick (s : ClientSystem) (k : Nat) (q : ClientRequest) (chosen : Chosen) :
    (s.pick k q chosen).point k = .tripping q chosen := update_self _ _ _

theorem point_move_of_ne (s : ClientSystem) {j : Nat} (point : ClientPoint) (h : j ≠ k) :
    (s.move k point).point j = s.point j := update_of_ne h _ _

theorem point_pick_of_ne (s : ClientSystem) {j : Nat} (q : ClientRequest) (chosen : Chosen)
    (h : j ≠ k) : (s.pick k q chosen).point j = s.point j := update_of_ne h _ _

theorem select_alone_direct (hpoint : s.point k = .checking q) (hfree : ∀ ref, s.lock ref = none)
    (hdirect : q.conn.isUsingCredentialPassthrough = false) (up : Upstream) :
    ∃ s', Alone k s s' ∧ s'.Selected k q (s.proxy.selectClient q.conn q.ref q.target up) := by
  unfold Proxy.selectClient
  simp only [hdirect, Bool.false_eq_true, if_false]
  cases hclient : (s.proxy.routes q.ref).mongoClient with
  | some client =>
    have h₁ : Alone k s (s.move k (.reading q)) :=
      (Alone.refl k s).go up (by simp [ClientSystem.go, hpoint, hclient])
    have h₂ : Alone k s ((s.move k (.reading q)).pick k q (.ofRoute (some client))) :=
      h₁.go up (by simp [ClientSystem.go, ClientSystem.move, hclient])
    exact ⟨_, h₂, rfl, hfree, Or.inl ⟨client, _, rfl, Or.inl rfl, point_pick _ _ _ _⟩⟩
  | none =>
    have h₁ : Alone k s (s.move k (.lazyChecking q)) :=
      (Alone.refl k s).go up (by simp [ClientSystem.go, hpoint, hclient])
    have h₂ : Alone k s ((s.move k (.lazyChecking q)).move k (.locking q)) :=
      h₁.go up (by simp [ClientSystem.go, ClientSystem.move, hclient])
    generalize hs₂ : (s.move k (.lazyChecking q)).move k (.locking q) = s₂ at h₂
    have hpoint₂ : s₂.point k = .locking q := by rw [← hs₂, point_move]
    have hproxy₂ : s₂.proxy = s.proxy := by rw [← hs₂]; rfl
    have hlock₂ : ∀ ref, s₂.lock ref = none := by rw [← hs₂]; exact hfree
    let s₃ : ClientSystem :=
      { s₂.move k (.rechecking q) with lock := update s₂.lock q.ref (some k) }
    have h₃ : Alone k s s₃ := h₂.go up (by simp [ClientSystem.go, hpoint₂, hlock₂, s₃])
    have h₄ : Alone k s (s₃.move k (.connecting q)) :=
      h₃.go up (by simp [ClientSystem.go, ClientSystem.move, s₃, hproxy₂, hclient])
    have hunlocked : ∀ ref, update s₃.lock q.ref none ref = none := by
      intro ref
      by_cases href : ref = q.ref
      · simp [href]
      · simp [s₃, href, hlock₂]
    unfold Proxy.createLazyMongoClient
    simp only [hclient]
    cases hconnect : s.proxy.connect up (s.proxy.routes q.ref).connectionString none with
    | error e =>
      have h₅ : Alone k s (((s₃.move k (.connecting q)).unlock q.ref).move k .idle) := by
        refine h₄.go up ?_
        simp [ClientSystem.go, ClientSystem.move, s₃, hproxy₂, hconnect]
      exact ⟨_, h₅, hproxy₂, hunlocked, Or.inr ⟨_, rfl, point_move _ _ _⟩⟩
    | ok made =>
      obtain ⟨client, p⟩ := made
      let s₅ := ((s₃.move k (.connecting q)).make client p).move k (.storing q client)
      have h₅ : Alone k s s₅ := by
        refine h₄.go up ?_
        simp [ClientSystem.go, ClientSystem.move, s₃, hproxy₂, hconnect, s₅]
      let s₆ := (s₅.install q.ref client).move k (.registering q client)
      have h₆ : Alone k s s₆ := h₅.go up (by simp [ClientSystem.go, s₅, s₆])
      have h₇ : Alone k s (((s₆.register q.target client).unlock q.ref).pick k q
          (.ofRoute (some client))) := h₆.go up (by simp [ClientSystem.go, s₆])
      exact ⟨_, h₇, rfl, hunlocked, Or.inl ⟨client, _, rfl, Or.inl rfl, point_pick _ _ _ _⟩⟩

theorem create_of_miss (p : Proxy) (q : ClientRequest) (up : Upstream)
    {cache : LruTtl GoString MongoClient}
    (hget : (p.routes q.ref).initCredentialClientsCache.get up.now (Proxy.credentialKey q.conn) =
      (none, cache)) :
    (∃ e e', connectAs (p.setCredentialClients q.ref cache) q up = .error e ∧
      p.createMongoClientWithCredentials q.conn q.ref up =
        (.error e', p.setCredentialClients q.ref cache)) ∨
    ∃ client p', connectAs (p.setCredentialClients q.ref cache) q up = .ok (client, p') ∧
      p.createMongoClientWithCredentials q.conn q.ref up =
        (.ok client, (p'.setCredentialClients q.ref (cache.add up.now
          (Proxy.credentialKey q.conn) client)).registerMongoClient (Proxy.credentialKey q.conn)
            client) := by
  unfold Proxy.createMongoClientWithCredentials connectAs
  rw [hget]
  simp only
  generalize extractHostFromRoute
    ((p.setCredentialClients q.ref cache).routes q.ref).connectionString = address
  obtain ⟨host, port⟩ := address
  split
  · exact Or.inl ⟨_, _, rfl, rfl⟩
  · cases Url.parse ((p.setCredentialClients q.ref cache).routes q.ref).connectionString with
    | none => exact Or.inl ⟨_, _, rfl, rfl⟩
    | some u =>
      simp only
      cases (p.setCredentialClients q.ref cache).connect up
          (credentialConnectionString q.conn host port u up.order.1)
          (some (q.conn.clientUsername, q.conn.clientPassword)) with
      | error e => exact Or.inl ⟨_, _, rfl, rfl⟩
      | ok made => exact Or.inr ⟨_, _, rfl, rfl⟩

theorem create_alone (hpoint : s.point k = .lookingUp q true) (hfree : ∀ ref, s.lock ref = none)
    (up : Upstream) :
    ∃ s', Alone k s s' ∧
      s'.Selected k q (s.proxy.createMongoClientWithCredentials q.conn q.ref up) := by
  cases hget : (s.proxy.routes q.ref).initCredentialClientsCache.get up.now
      (Proxy.credentialKey q.conn) with
  | mk hit cache =>
    cases hit with
    | some client =>
      have h₁ : Alone k s ((s.setCache q.ref cache).pick k q (.ofCredentials client)) :=
        (Alone.refl k s).go up (by simp [ClientSystem.go, hpoint, hget])
      unfold Proxy.createMongoClientWithCredentials
      rw [hget]
      exact ⟨_, h₁, rfl, hfree, Or.inl ⟨client, _, rfl, Or.inr rfl, point_pick _ _ _ _⟩⟩
    | none =>
      let s₁ := (s.setCache q.ref cache).move k (.connectingAs q)
      have h₁ : Alone k s s₁ := (Alone.refl k s).go up (by simp [ClientSystem.go, hpoint, hget, s₁])
      rcases create_of_miss s.proxy q up hget with ⟨e, e', hconnect, heq⟩ | ⟨client, p, hconnect, heq⟩
      · have hconnect₁ : connectAs s₁.proxy q up = .error e := hconnect
        have h₂ : Alone k s (s₁.move k .idle) := h₁.go up (by simp [ClientSystem.go, s₁, hconnect₁])
        rw [heq]
        exact ⟨_, h₂, rfl, hfree, Or.inr ⟨_, rfl, point_move _ _ _⟩⟩
      · have hconnect₁ : connectAs s₁.proxy q up = .ok (client, p) := hconnect
        let s₂ := (s₁.make client p).move k (.caching q client)
        have h₂ : Alone k s s₂ := h₁.go up (by simp [ClientSystem.go, s₁, s₂, hconnect₁])
        -- the cache that the lookup left is still there
        have hcache : (s₂.proxy.routes q.ref).initCredentialClientsCache = cache := by
          show (p.routes q.ref).initCredentialClientsCache = cache
          rw [(connectAs_made hconnect).2.1]
          exact Proxy.initCredentialClientsCache_setCredentialClients _ _ _
        let s₃ := (s₂.setCache q.ref (cache.add up.now (Proxy.credentialKey q.conn) client)).move k
          (.registeringAs q client)
        have h₃ : Alone k s s₃ := h₂.go up (by simp [ClientSystem.go, s₂, s₃, ← hcache])
        have h₄ : Alone k s ((s₃.register (Proxy.credentialKey q.conn) client).pick k q
            (.ofCredentials client)) := h₃.go up (by simp [ClientSystem.go, s₃])
        rw [heq]
        exact ⟨_, h₄, rfl, hfree, Or.inl ⟨client, _, rfl, Or.inr rfl, point_pick _ _ _ _⟩⟩

theorem initialize_alone {again : Bool} (hpoint : s.point k = .initializing q again)
    (up : Upstream) :
    ∃ s', Alone k s s' ∧ s'.point k = .lookingUp q again ∧ s'.lock = s.lock ∧
      ((s.proxy.routes q.ref).credentialClients.isSome ∧ s'.proxy = s.proxy ∨
        s'.proxy = s.proxy.setCredentialClients q.ref
          (s.proxy.routes q.ref).initCredentialClientsCache) := by
  cases hcache : (s.proxy.routes q.ref).credentialClients with
  | some cache =>
    have h₁ : Alone k s (s.move k (.lookingUp q again)) :=
      (Alone.refl k s).go up (by simp [ClientSystem.go, hpoint, hcache])
    exact ⟨_, h₁, point_move _ _ _, rfl, Or.inl ⟨rfl, rfl⟩⟩
  | none =>
    have h₁ : Alone k s (s.move k (.allocating q again)) :=
      (Alone.refl k s).go up (by simp [ClientSystem.go, hpoint, hcache])
    have h₂ : Alone k s (((s.move k (.allocating q again)).setCache q.ref
        (LruTtl.new 200 (30 * minute))).move k (.lookingUp q again)) :=
      h₁.go up (by simp [ClientSystem.go])
    refine ⟨_, h₂, point_move _ _ _, rfl, Or.inr ?_⟩
    simp [RouteConfig.initCredentialClientsCache, hcache, setCache, move]

theorem select_alone_credentials (hpoint : s.point k = .initializing q false)
    (hfree : ∀ ref, s.lock ref = none) (hpass : q.conn.isUsingCredentialPassthrough = true)
    (up : Upstream) :
    ∃ s', Alone k s s' ∧ s'.Selected k q (s.proxy.selectClient q.conn q.ref q.target up) := by
  unfold Proxy.selectClient Proxy.getOrCreateCredentialClient
  simp only [hpass, if_true]
  obtain ⟨s₁, h₁, hpoint₁, hlock₁, hproxy₁⟩ := initialize_alone hpoint up
  -- with the cache made first, or not, the lookup leaves the same proxy
  have hroute : (s₁.proxy.routes q.ref).initCredentialClientsCache =
      (s.proxy.routes q.ref).initCredentialClientsCache := by
    rcases hproxy₁ with ⟨-, h⟩ | h
    · rw [h]
    · rw [h]
      exact Proxy.initCredentialClientsCache_setCredentialClients _ _ _
  have hset : ∀ cache, s₁.proxy.setCredentialClients q.ref cache =
      s.proxy.setCredentialClients q.ref cache := by
    intro cache
    rcases hproxy₁ with ⟨-, h⟩ | h
    · rw [h]
    · rw [h]
      exact Proxy.setCredentialClients_twice _ _ _ _
  cases hget : (s.proxy.routes q.ref).initCredentialClientsCache.get up.now
      (Proxy.credentialKey q.conn) with
  | mk hit cache =>
    have hget₁ := hget
    rw [← hroute] at hget₁
    cases hit with
    | some client =>
      have h₂ : Alone k s ((s₁.setCache q.ref cache).pick k q (.ofCredentials client)) :=
        h₁.go up (by simp [ClientSystem.go, hpoint₁, hget₁])
      refine ⟨_, h₂, hset cache, ?_, Or.inl ⟨client, _, rfl, Or.inr rfl, point_pick _ _ _ _⟩⟩
      intro ref
      show s₁.lock ref = none
      rw [hlock₁, hfree]
    | none =>
      let s₂ := (s₁.setCache q.ref cache).move k (.initializing q true)
      have h₂ : Alone k s s₂ := h₁.go up (by simp [ClientSystem.go, hpoint₁, hget₁, s₂])
      have hpoint₂ : s₂.point k = .initializing q true := point_move _ _ _
      obtain ⟨s₃, h₃, hpoint₃, hlock₃, hproxy₃⟩ := initialize_alone hpoint₂ up
      have heq : s₃.proxy = s.proxy.setCredentialClients q.ref cache := by
        have hs₂ : s₂.proxy = s.proxy.setCredentialClients q.ref cache := hset cache
        rcases hproxy₃ with ⟨-, h⟩ | h
        · rw [h, hs₂]
        · rw [h, hs₂, Proxy.initCredentialClientsCache_setCredentialClients,
            Proxy.setCredentialClients_twice]
      have hfree₃ : ∀ ref, s₃.lock ref = none := by
        intro ref
        rw [hlock₃]
        show s₁.lock ref = none
        rw [hlock₁, hfree]
      obtain ⟨s₄, h₄, hselected⟩ := create_alone hpoint₃ hfree₃ up
      refine ⟨s₄, (h₂.trans h₃).trans h₄, ?_⟩
      rw [heq] at hselected
      cases hresult : (s.proxy.setCredentialClients q.ref cache).createMongoClientWithCredentials
          q.conn q.ref up with
      | mk r p =>
        rw [hresult] at hselected
        obtain ⟨hp, hunlocked, hpt⟩ := hselected
        cases r with
        | error e =>
          refine ⟨hp, hunlocked, Or.inr ?_⟩
          rcases hpt with ⟨client, chosen, hok, -⟩ | ⟨e', -, hidle⟩
          · cases hok
          · exact ⟨_, rfl, hidle⟩
        | ok client => exact ⟨hp, hunlocked, hpt⟩

theorem select_alone (hpoint : s.point k = entry q) (hfree : ∀ ref, s.lock ref = none)
    (up : Upstream) :
    ∃ s', Alone k s s' ∧ s'.Selected k q (s.proxy.selectClient q.conn q.ref q.target up) := by
  unfold entry at hpoint
  cases hpass : q.conn.isUsingCredentialPassthrough with
  | true =>
    simp only [hpass, if_true] at hpoint
    exact select_alone_credentials hpoint hfree hpass up
  | false =>
    simp only [hpass, Bool.false_eq_true, if_false] at hpoint
    exact select_alone_direct hpoint hfree hpass up

/-- A round trip touches the sessions and the pool only. -/
theorem trip_eq (d : Driver) (p : Proxy) (c : Connection) (databaseName : GoString)
    (client : MongoClient) (wm : Bytes) (op : Operation) (up : Upstream) :
    (p.trip d c databaseName client wm op up).2.1 =
      { p with
        world := (p.trip d c databaseName client wm op up).2.1.world
        poolManager := (p.trip d c databaseName client wm op up).2.1.poolManager } := by
  unfold Proxy.trip
  split
  · unfold Proxy.roundTripWithPool
    simp only
    split
    · rfl
    · split
      · rfl
      · unfold Proxy.pooledCall
        simp only
        split
        · rfl
        · split
          · rfl
          · rfl
  · rfl

theorem reset_alone {chosen : Chosen} {result : Except GoError Response}
    (hpoint : s.point k = answered q chosen result) (hfree : ∀ ref, s.lock ref = none)
    (up : Upstream) :
    ∃ s', Alone k s s' ∧ s'.proxy = s.proxy.resetRoute q.ref result ∧ s'.point k = .idle ∧
      ∀ ref, s'.lock ref = none := by
  unfold Proxy.resetRoute
  unfold answered at hpoint
  cases result with
  | ok response => exact ⟨s, .refl k s, rfl, hpoint, hfree⟩
  | error e =>
    simp only at hpoint ⊢
    cases herror : Proxy.isConnectionError e with
    | false =>
      rw [herror, if_neg Bool.false_ne_true] at hpoint
      exact ⟨s, .refl k s, by simp, hpoint, hfree⟩
    | true =>
      rw [herror, if_pos rfl] at hpoint
      cases hclient : (s.proxy.routes q.ref).mongoClient.isSome with
      | false =>
        have h₁ : Alone k s (s.move k .idle) :=
          (Alone.refl k s).go up (by simp [ClientSystem.go, hpoint, hclient])
        exact ⟨_, h₁, by simp [move], point_move _ _ _, hfree⟩
      | true =>
        have h₁ : Alone k s (s.move k (.resetting q chosen)) :=
          (Alone.refl k s).go up (by simp [ClientSystem.go, hpoint, hclient])
        have h₂ : Alone k s (((s.move k (.resetting q chosen)).clear q.ref).move k .idle) := by
          refine h₁.go up ?_
          have hlock : (s.move k (.resetting q chosen)).lock q.ref = none := hfree q.ref
          simp [ClientSystem.go, hlock]
        exact ⟨_, h₂, rfl, point_move _ _ _, hfree⟩

/-- **A request that is not interrupted leaves the proxy that `forward` leaves.** -/
theorem forward_alone (d : Driver) (hidle : s.point k = .idle) (hfree : ∀ ref, s.lock ref = none)
    (c : Connection) (target : GoString) (wm : Bytes) (op : Operation) (up : Upstream) :
    ∃ s', Alone k s s' ∧ s'.proxy = (s.proxy.forward d c target wm op up).proxy ∧
      s'.point k = .idle ∧ ∀ ref, s'.lock ref = none := by
  unfold Proxy.forward
  cases hroute : s.proxy.getRoute up.now target with
  | mk r p =>
    cases r with
    | error e =>
      have h₁ : Alone k s { s with proxy := p } :=
        (Alone.refl k s).step (e := .begin k c target up.now) (by simp [step, hidle, hroute]) rfl
      refine ⟨_, h₁, ?_, hidle, hfree⟩
      simp only
      split
      · rfl
      · rfl
    | ok ref =>
      let q : ClientRequest := { conn := p.prepared c target ref, ref, target }
      let s₁ := { s with proxy := p }.move k (entry q)
      have h₁ : Alone k s s₁ :=
        (Alone.refl k s).step (e := .begin k c target up.now)
          (by simp [step, hidle, hroute, s₁, q]) rfl
      have hpoint₁ : s₁.point k = entry q := point_move _ _ _
      obtain ⟨s₂, h₂, hproxy₂, hfree₂, hpoint₂⟩ := select_alone hpoint₁ hfree up
      have hselect : s₁.proxy.selectClient q.conn q.ref q.target up =
        p.selectClient (p.prepared c target ref) ref target up := rfl
      have hgoal : p.selectClient { c with
          intendedDatabase := target
          isUsingCredentialPassthrough := p.useCredentialPassthrough c target (p.routes ref) } ref
          target up = p.selectClient (p.prepared c target ref) ref target up := rfl
      rw [hselect] at hproxy₂ hpoint₂
      simp only [hgoal]
      cases hresult : p.selectClient (p.prepared c target ref) ref target up with
      | mk r p₂ =>
        rw [hresult] at hproxy₂ hpoint₂
        rcases hpoint₂ with ⟨client, chosen, hok, -, hpoint₂⟩ | ⟨e, herror, hpoint₂⟩
        · cases hok
          have heq := trip_eq d p₂ (p.prepared c target ref) target client wm op up
          generalize htrip : p₂.trip d (p.prepared c target ref) target client wm op up =
            trip at heq
          obtain ⟨result, p₃, sentTo⟩ := trip
          let s₃ := { s₂ with proxy := p₃ }.move k (answered q chosen result)
          have h₃ : Alone k s s₃ := by
            refine (h₁.trans h₂).step
              (e := .answer k result p₃.world p₃.poolManager) ?_ rfl
            simp only [step, hpoint₂, hproxy₂]
            rw [← heq]
          have hpoint₃ : s₃.point k = answered q chosen result := point_move _ _ _
          obtain ⟨s₄, h₄, hproxy₄, hidle₄, hfree₄⟩ := reset_alone hpoint₃ hfree₂ up
          refine ⟨s₄, h₃.trans h₄, ?_, hidle₄, hfree₄⟩
          rw [hproxy₄]
          show p₃.resetRoute ref result =
            (p₂.tripped d (p.prepared c target ref) ref target client wm op up).proxy
          rw [Proxy.tripped, htrip]
        · cases herror
          exact ⟨s₂, h₁.trans h₂, hproxy₂, hpoint₂, hfree₂⟩

theorem forward_alone_shop : ∃ s, Alone 0 (start shopConnected.proxy) s ∧
    s.proxy = (shopConnected.proxy.forward plainDriver (.new []) (lit "shop") shopFind
      (Bson.opMsg []) calmUpstream).proxy ∧ s.point 0 = .idle ∧ ∀ ref, s.lock ref = none :=
  forward_alone plainDriver rfl (fun _ => rfl) (.new []) (lit "shop") shopFind (Bson.opMsg [])
    calmUpstream

end Alone

end ClientSystem

end MongoBouncer
