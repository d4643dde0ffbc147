import MongoBouncer.Proxy.Credentials
import MongoBouncer.Runs

/-!
# Credential clients and identities

A credential client is made from the user name, the password and the authSource that a connection
has stored, and it is kept under the user name and the password alone. A later connection with the
same two gets it whatever its authSource. A handshake for an exact route does not store the
authSource that it brings, and the client is then made with `admin`. What is put into the connection
string is not escaped, so that another authSource may be read from it.

Besides the turns of the service, the caches of credential clients drop entries that have expired.

* `Connection.authSource`     : the authSource a credential client of the connection is made with;
* `AppCredentials.presented`  : the authSource a handshake brings;
* `MongoClient.Against`       : the authSource in the connection string of a client;
* `Traced.CalmStep`           : turns in which no identity is mixed up.

Principal result: `Traced.identities_of_clients`.
-/

namespace MongoBouncer

open GoStd Lruttl Function

/-- The authSource that a credential client of the connection is made with. -/
def Connection.authSource (c : Connection) : GoString :=
  if c.clientAuthSource ≠ [] then c.clientAuthSource else lit "admin"

/-- The authSource that a client presents in its handshake: `admin` if it is empty. -/
def AppCredentials.presented (creds : AppCredentials) : GoString :=
  if creds.authSource ≠ [] then creds.authSource else lit "admin"

/-! ## The authSource of a connection string -/

/-- The authSource that is read from the connection string of the client. -/
def MongoClient.Against (cl : MongoClient) (source : GoString) : Prop :=
  (Url.parse cl.connectionString).map (Url.get · (lit "authSource")) = some source

instance (cl : MongoClient) (source : GoString) : Decidable (cl.Against source) :=
  inferInstanceAs (Decidable (_ = _))

/-- Text that begins neither a query nor a fragment. -/
def Unmarked (s : GoString) : Prop := 0x3F ∉ s ∧ 0x23 ∉ s

/-- The credentials are no part of a query, and the authSource stands in one for itself. -/
structure AppCredentials.Plain (creds : AppCredentials) : Prop where
  username : Unmarked creds.username
  password : Unmarked creds.password
  parameter : Url.IsParameter creds.presented
  fragment : 0x23 ∉ creds.presented

theorem flatMap_ampersand {α : Type} {f : α → GoString} {l : List α}
    (h : ∀ x ∈ l, f x = [] ∨ ∃ r, f x = 0x26 :: r) :
    l.flatMap f = [] ∨ ∃ r, l.flatMap f = 0x26 :: r := by
  induction l with
  | nil => exact Or.inl rfl
  | cons x l ih =>
    rw [List.flatMap_cons]
    rcases h x List.mem_cons_self with hx | ⟨r, hx⟩
    · rw [hx]
      exact ih fun y hy => h y (List.mem_cons_of_mem x hy)
    · exact Or.inr ⟨r ++ l.flatMap f, by rw [hx]; rfl⟩

theorem otherParameters_ampersand (order : List GoString → List GoString) (u : Url) :
    otherParameters order u = [] ∨ ∃ r, otherParameters order u = 0x26 :: r := by
  have hlit : lit "&" = [0x26] := by decide
  unfold otherParameters
  refine flatMap_ampersand fun key _ => flatMap_ampersand fun p _ => ?_
  exact Or.inr ⟨key ++ lit "=" ++ p.2, by rw [hlit]; simp⟩

/-- What is read from a connection string that is put together from plain parts. -/
theorem authSource_of_parse {c : Connection} {host port : GoString} {u url : Url}
    {order : List GoString → List GoString} (hu : c.clientUsername ≠ [])
    (hw : c.clientPassword ≠ [])
    (hparts : ∀ s ∈ [c.clientUsername, c.clientPassword, host, port, c.intendedDatabase], Unmarked s)
    (hparameter : Url.IsParameter c.authSource) (hfragment : 0x23 ∉ c.authSource)
    (h : Url.parse (credentialConnectionString c host port u order) = some url) :
    url.get (lit "authSource") = c.authSource := by
  have hstring : credentialConnectionString c host port u order = lit "mongodb://" ++
      ((c.clientUsername ++ lit ":" ++ c.clientPassword ++ lit "@" ++ host ++ lit ":" ++ port ++
        lit "/" ++ c.intendedDatabase) ++ 0x3F :: (lit "authSource" ++ 0x3D :: c.authSource ++
          otherParameters order u)) := by
    have hlit : lit "?authSource=" = 0x3F :: (lit "authSource" ++ [0x3D]) := by decide
    unfold credentialConnectionString Connection.authSource
    rw [if_pos ⟨hu, hw⟩, hlit]
    simp
  have hmark : ∀ b ∈ lit "?#", b ∉ c.clientUsername ++ lit ":" ++ c.clientPassword ++ lit "@" ++
      host ++ lit ":" ++ port ++ lit "/" ++ c.intendedDatabase := by
    have hmarks : lit "?#" = [0x3F, 0x23] := by decide
    have hfixed : ∀ b ∈ lit "?#", b ∉ lit ":" ∧ b ∉ lit "@" ∧ b ∉ lit "/" :=
      List.all_iff_forall_prop.mp (by decide)
    intro b hb
    have hfree : ∀ s, Unmarked s → b ∉ s := by
      intro s hs
      rw [hmarks] at hb
      rcases List.mem_pair.mp hb with rfl | rfl
      · exact hs.1
      · exact hs.2
    obtain ⟨hcolon, hat, hslash⟩ := hfixed b hb
    simp only [List.forall_mem_cons] at hparts
    obtain ⟨h₁, h₂, h₃, h₄, h₅, -⟩ := hparts
    simp [hcolon, hat, hslash, hfree _ h₁, hfree _ h₂, hfree _ h₃, hfree _ h₄, hfree _ h₅]
  rw [hstring] at h
  have hraw := Url.rawQuery_of_parse (hmark _ (by decide)) (hmark _ (by decide)) h
  have hshown : ∀ b ∈ lit "authSource" ++ 0x3D :: c.authSource, decide (b ≠ 0x23) = true := by
    have hkey : 0x23 ∉ lit "authSource" := by decide
    intro b hb
    refine decide_eq_true ?_
    rintro rfl
    simp [hkey, hfragment] at hb
  rw [List.takeWhile_append_of_pos hshown] at hraw
  have hkey : ∀ b ∈ lit "%+;&", b ∉ lit "authSource" :=
    List.all_iff_forall_prop.mp (by decide)
  refine Url.get_of_first hraw ?_ (by decide) hkey hparameter
  rcases otherParameters_ampersand order u with hnone | ⟨r, hr⟩
  · exact Or.inl (by rw [hnone]; rfl)
  · exact Or.inr ⟨_, by rw [hr]; exact List.takeWhile_cons_of_pos (by decide)⟩

namespace Proxy

/-! ## What a message does to the caches -/

/-- The credential client that a route has under the key. -/
def cached (p : Proxy) (ref : RouteRef) (key : GoString) : Option MongoClient :=
  (p.routes ref).initCredentialClientsCache.peek key

theorem cached_setCredentialClients (p : Proxy) (ref : RouteRef)
    (cache : LruTtl GoString MongoClient) (ref' : RouteRef) (key : GoString) :
    (p.setCredentialClients ref cache).cached ref' key =
      if ref' = ref then cache.peek key else p.cached ref' key := by
  unfold cached
  split
  · rename_i href
    subst href
    rw [initCredentialClientsCache_setCredentialClients]
  · rename_i href
    simp [setCredentialClients, setRoute, href]

theorem cached_setRoute (p : Proxy) {ref : RouteRef} {r : RouteConfig}
    (h : r.credentialClients = (p.routes ref).credentialClients) (ref' : RouteRef) (key : GoString) :
    (p.setRoute ref r).cached ref' key = p.cached ref' key := by
  unfold cached setRoute
  by_cases href : ref' = ref
  · subst href
    simp only [update_self, RouteConfig.initCredentialClientsCache, h]
  · simp only [update_of_ne href]

theorem cached_resetRoute (p : Proxy) (ref : RouteRef) (result : Except GoError Response)
    (ref' : RouteRef) (key : GoString) :
    (p.resetRoute ref result).cached ref' key = p.cached ref' key := by
  unfold resetRoute
  split
  · rfl
  · split
    · exact cached_setRoute p (by rfl) ref' key
    · rfl

theorem SameClients.cached {p p' : Proxy} (h : p.SameClients p') (ref : RouteRef)
    (key : GoString) : p'.cached ref key = p.cached ref key := by
  unfold Proxy.cached
  rw [h.routes]

/-- What a message does to the credential clients: it makes one, which is cached and gets the
message, or every cached one was cached before, and so was the one that gets the message. -/
inductive Credentials (p : Proxy) (c : Connection) (databaseName : GoString) (p' : Proxy)
    (sentTo : Option MongoClient) : Prop where
  | made {client : MongoClient} {ref : RouteRef} {u : Url} {order : List GoString → List GoString}
      (hsent : sentTo = some client) (hne : c.clientUsername ≠ [])
      (hbuilt : client.BuiltFrom c.clientUsername c.clientPassword)
      (hstring : client.connectionString =
        credentialConnectionString { c with intendedDatabase := databaseName }
          (extractHostFromRoute (p.routes ref).connectionString).1
          (extractHostFromRoute (p.routes ref).connectionString).2 u order)
      (hcached : ∀ ref key cl, p'.cached ref key = some cl →
        p.cached ref key = some cl ∨ cl = client)
  | kept (hcached : ∀ ref key cl, p'.cached ref key = some cl → p.cached ref key = some cl)
      (hsent : ∀ cl, sentTo = some cl → cl.credentials ≠ none →
        c.clientUsername ≠ [] ∧ (∃ ref key, p.cached ref key = some cl) ∧
          cl.BuiltFrom c.clientUsername c.clientPassword)

section Forward

variable {p : Proxy} {c : Connection} {databaseName : GoString} {ref : RouteRef} {up : Upstream}

theorem username_of_passThrough (h : (p.prepared c databaseName ref).isUsingCredentialPassthrough =
    true) : c.clientUsername ≠ [] := by
  have huse : p.useCredentialPassthrough c databaseName (p.routes ref) = true := h
  unfold useCredentialPassthrough at huse
  simp only [Bool.and_eq_true, decide_eq_true_eq] at huse
  exact huse.1.2

theorem Chooses.cached {target : GoString} {r : Except GoError MongoClient}
    {p' : Proxy} (h : p.Chooses c ref target up r p') :
    (∃ client host port u, r = .ok client ∧ client = p.credentialClient c host port u up ∧
      c.isUsingCredentialPassthrough = true ∧
      extractHostFromRoute (p.routes ref).connectionString = (host, port) ∧
      ∀ ref' key cl, p'.cached ref' key = some cl → p.cached ref' key = some cl ∨ cl = client) ∨
      (∀ ref' key, p'.cached ref' key = p.cached ref' key) ∧
        ∀ client, r = .ok client → c.isUsingCredentialPassthrough = true →
          p.cached ref (credentialKey c) = some client := by
  have hlooked : ∀ ref' key, (p.lookedUp ref up.now (credentialKey c)).cached ref' key =
      p.cached ref' key := by
    intro ref' key
    unfold lookedUp
    rw [cached_setCredentialClients, LruTtl.peek_get]
    split
    · rename_i href
      subst href
      rfl
    · rfl
  cases h with
  | found hpass hit =>
    right
    refine ⟨hlooked, ?_⟩
    intro client' hr _
    cases hr
    exact hit
  | notFound hpass miss => exact Or.inr ⟨hlooked, fun _ hr => nomatch hr⟩
  | @made host port u hpass miss hhost =>
    left
    refine ⟨_, host, port, u, rfl, rfl, hpass, hhost, ?_⟩
    intro ref' key cl hcl
    have hset : ((p.connected (p.credentialClient c host port u up).connectionString
        ).setCredentialClients ref ((p.routes ref).initCredentialClientsCache.add up.now
          (credentialKey c) (p.credentialClient c host port u up))).cached ref' key = some cl := hcl
    rw [cached_setCredentialClients] at hset
    split at hset
    · rename_i href
      subst href
      by_cases hkey : key = credentialKey c
      · subst hkey
        rw [LruTtl.peek_add_self] at hset
        cases hset
        exact Or.inr rfl
      · exact Or.inl ((LruTtl.peek_of_peek_add hset).resolve_left hkey)
    · exact Or.inl hset
  | present hpass hclient =>
    refine Or.inr ⟨fun _ _ => rfl, ?_⟩
    intro client' _ hpass'
    rw [hpass] at hpass'
    cases hpass'
  | absent hpass hnone => exact Or.inr ⟨fun _ _ => rfl, fun _ hr => nomatch hr⟩
  | installed hpass hnone =>
    refine Or.inr ⟨?_, ?_⟩
    · intro ref' key
      exact cached_setRoute (p.connected (p.routeClient ref).connectionString) (by rfl) ref' key
    · intro client' _ hpass'
      rw [hpass] at hpass'
      cases hpass'

theorem credentials_forward (hs : p.Sound) (hcolon : 0x3A ∉ c.clientUsername)
    (hne : databaseName ≠ []) (d : Driver) (wm : Bytes) (op : Operation) (up : Upstream) :
    p.Credentials c databaseName (p.forward d c databaseName wm op up).proxy
      (p.forward d c databaseName wm op up).sentTo := by
  have hchosen := (forward_spec hs hcolon hne d wm op up).2
  generalize ho : p.forward d c databaseName wm op up = o at hchosen
  have hforwards := forwards_forward d p c databaseName wm op up
  rw [ho] at hforwards
  cases hforwards with
  | unrouted hroute => exact .kept (fun _ _ _ hcl => hcl) (fun _ h => nomatch h)
  | unserved hroute hchoose =>
    rcases hchoose.cached with ⟨_, _, _, _, hr, -⟩ | ⟨hcached, -⟩
    · cases hr
    · refine .kept ?_ (fun _ h => nomatch h)
      intro ref' key cl hcl
      exact (hcached ref' key).symm.trans hcl
  | @served ref client p₂ hroute hchoose =>
    have htrip := sameClients_trip d p₂ (p.prepared c databaseName ref) databaseName client wm op up
    have hcached : ∀ ref' key, (p₂.tripped d (p.prepared c databaseName ref) ref databaseName client
        wm op up).proxy.cached ref' key = p₂.cached ref' key := by
      intro ref' key
      exact (cached_resetRoute _ _ _ ref' key).trans (htrip.cached ref' key)
    rcases hchoose.cached with
      ⟨_, host, port, u, hr, hclient, hpass, hhost, hcached₂⟩ | ⟨hcached₂, hhit₂⟩
    · cases hr
      have huser := username_of_passThrough hpass
      have hbuilt : client.BuiltFrom c.clientUsername c.clientPassword := by
        rw [hclient]
        exact builtFrom_credentialClient ..
      have hstring : client.connectionString =
          credentialConnectionString { c with intendedDatabase := databaseName }
            (extractHostFromRoute (p.routes ref).connectionString).1
            (extractHostFromRoute (p.routes ref).connectionString).2 u up.order.1 := by
        rw [hclient, show extractHostFromRoute (p.routes ref).connectionString = _ from hhost]
        rfl
      refine .made (trip_of_passThrough d p₂ _ databaseName client wm op up hpass).2 huser hbuilt
        hstring ?_
      intro ref' key cl hcl
      rw [hcached] at hcl
      exact hcached₂ ref' key cl hcl
    · refine .kept ?_ ?_
      · intro ref' key cl hcl
        rw [hcached, hcached₂] at hcl
        exact hcl
      · intro cl hcl hcreds
        -- only a message whose credentials are passed through goes to a client with credentials
        obtain ⟨ref', hroute', hcase⟩ := hchosen cl hcl
        rw [hroute] at hroute'
        cases hroute'
        have hpass : (p.prepared c databaseName ref).isUsingCredentialPassthrough = true := by
          by_contra hno
          have hdirect : ¬p.useCredentialPassthrough c databaseName (p.routes ref) = true := hno
          rw [if_neg hdirect] at hcase
          exact hcreds hcase.1
        have huse : p.useCredentialPassthrough c databaseName (p.routes ref) = true := hpass
        rw [if_pos huse] at hcase
        have hsent := (trip_of_passThrough d p₂ _ databaseName client wm op up hpass).2
        have hcl' : (p₂.trip d (p.prepared c databaseName ref) databaseName client wm op up).2.2 =
            some cl := hcl
        rw [hsent] at hcl'
        cases hcl'
        exact ⟨username_of_passThrough hpass, ⟨ref, _, hhit₂ client rfl hpass⟩, hcase.1⟩

end Forward

/-- A message, on the credential clients. One that no client gets does nothing to them but drop
some. -/
theorem credentials_handleMessage {p : Proxy} {c : Connection} (hs : p.Sound)
    (hcolon : 0x3A ∉ c.clientUsername) (d : Driver) (wm : Bytes) (up : Upstream) :
    (∀ ref key, (p.handleMessage d c wm up).proxy.cached ref key = p.cached ref key) ∧
        (p.handleMessage d c wm up).sentTo = none ∨
      ∃ op, decode d wm = .ok op ∧
        p.Credentials c (extractDatabaseName d c op).1 (p.handleMessage d c wm up).proxy
          (p.handleMessage d c wm up).sentTo := by
  rcases p.handleMessage_clients d c wm up with ⟨hsame, hnone⟩ | ⟨op, hdec, hsame, hsent⟩
  · exact Or.inl ⟨hsame.cached, hnone⟩
  · right
    refine ⟨op, hdec, ?_⟩
    have hforward := credentials_forward (c := (extractDatabaseName d c op).2) hs hcolon
      (extractDatabaseName_ne_nil d c op) d wm op up
    rw [hsent]
    cases hforward with
    | made hsent hne hbuilt hstring hcached =>
      refine .made hsent hne hbuilt hstring ?_
      intro ref key cl hcl
      rw [hsame.cached] at hcl
      exact hcached ref key cl hcl
    | kept hcached hsent =>
      refine .kept ?_ hsent
      intro ref key cl hcl
      rw [hsame.cached] at hcl
      exact hcached ref key cl hcl

end Proxy

/-! ## Traced runs -/

/-- The service and its trace. -/
structure Traced where
  service : Service
  log : List Service.Entry

/-- A turn of the service, or the cache of credential clients of a route drops its oldest entry if
that has expired. -/
inductive TracedTurn where
  | service (t : Service.Turn)
  | evict (ref : RouteRef) (now : Int)

namespace Traced

def step (d : Driver) (s : Traced) : TracedTurn → Traced
  | .service t =>
    { service := (s.service.step d t).1
      log := s.log ++ (s.service.step d t).2 }
  | .evict ref now =>
    match (s.service.proxy.routes ref).credentialClients with
    | none => s
    | some cache =>
      { s with service := { s.service with
          proxy := s.service.proxy.setCredentialClients ref (cache.removeOldestExpired now).2 } }

def Does (d : Driver) (s : Traced) (t : TracedTurn) (s' : Traced) : Prop := s' = s.step d t

/-- The service at startup. -/
def start (auth passthrough metrics forwards : Bool) (pool : Option (GoString × Int))
    (dc : Option DistributedCache) (databases : List DatabaseEntry) : Traced where
  service := .start (.new auth passthrough metrics forwards
    (pool.map fun m => Manager.new m.1 m.2) dc) databases
  log := []

/-- A credential client that a message was handed to was built from the credentials that were
accepted on its connection. -/
structure Inv (s : Traced) : Prop where
  vouched : Vouched s.log s.service
  sound : s.service.proxy.Sound
  /-- one handshake is accepted on a connection -/
  single : ∀ k a b, .accepted k a ∈ s.log → .accepted k b ∈ s.log → a = b
  sent : ∀ k cl, .sent k cl ∈ s.log → cl.credentials ≠ none →
    ∃ creds, .accepted k creds ∈ s.log ∧ cl.credentials = some (creds.username, creds.password)

theorem inv_start (auth passthrough metrics forwards : Bool) (pool : Option (GoString × Int))
    (dc : Option DistributedCache) (databases : List DatabaseEntry) :
    (start auth passthrough metrics forwards pool dc databases).Inv := by
  refine ⟨vouched_start _ databases, (Proxy.sound_start auth passthrough metrics forwards pool dc
    databases).1, ?_, ?_⟩
  · intro k a b ha
    cases ha
  · intro k cl hcl
    cases hcl

section Step

variable {d : Driver} {s : Traced}

theorem step_quiet (t : Service.Turn) (ht : ∀ k wm up, t ≠ .message k wm up) :
    (s.service.step d t).2 = [] ∧ s.service.proxy.SameClients (s.service.step d t).1.proxy := by
  cases t with
  | connect | expire =>
    exact ⟨rfl, rfl, rfl, rfl⟩
  | message k wm up => exact absurd rfl (ht k wm up)
  | hangUp k =>
    simp only [Service.step]
    split
    · exact ⟨rfl, .refl _⟩
    · exact ⟨rfl, Proxy.sameClients_closeConnection _ _⟩
  | pods dc =>
    simp only [Service.step]
    split
    · exact ⟨rfl, rfl, rfl, rfl⟩
    · exact ⟨rfl, .refl _⟩

theorem evict_spec (hs : s.Inv) (ref : RouteRef) (now : Int) :
    (s.step d (.evict ref now)).Inv ∧ (s.step d (.evict ref now)).log = s.log ∧
      ∀ ref' key cl, (s.step d (.evict ref now)).service.proxy.cached ref' key = some cl →
        s.service.proxy.cached ref' key = some cl := by
  cases hcache : (s.service.proxy.routes ref).credentialClients with
  | none =>
    have hsame : s.step d (.evict ref now) = s := by
      simp only [Traced.step, hcache]
    rw [hsame]
    exact ⟨hs, rfl, fun _ _ _ h => h⟩
  | some cache =>
    have hstep : s.step d (.evict ref now) = { s with service := { s.service with
        proxy := s.service.proxy.setCredentialClients ref (cache.removeOldestExpired now).2 } } := by
      simp only [Traced.step, hcache]
    have hpeek : ∀ key cl, (cache.removeOldestExpired now).2.peek key = some cl →
        s.service.proxy.cached ref key = some cl := by
      intro key cl hcl
      unfold Proxy.cached RouteConfig.initCredentialClientsCache
      rw [hcache]
      exact LruTtl.peek_of_peek_removeOldestExpired hcl
    rw [hstep]
    refine ⟨⟨hs.vouched.of_conns rfl (fun _ _ h => h), ?_, hs.single, hs.sent⟩, rfl, ?_⟩
    · exact (Proxy.safe_setCredentialClients fun key cl hcl => Or.inl (hpeek key cl hcl)).sound
        hs.sound
    · intro ref' key cl hcl
      simp only [Proxy.cached_setCredentialClients] at hcl
      split at hcl
      · rename_i href
        subst href
        exact hpeek key cl hcl
      · exact hcl

theorem Inv.accepted (hs : s.Inv) {k : Nat} {c : Connection} (hc : s.service.conns k = some c)
    (hne : c.clientUsername ≠ []) :
    ∃ creds, .accepted k creds ∈ s.log ∧ c.clientUsername = creds.username ∧
      c.clientPassword = creds.password ∧ c.clientPassword ≠ [] := by
  obtain ⟨creds, hacc⟩ := hs.vouched.vouched k c hc hne
  obtain ⟨hu, hw⟩ := hs.vouched.known k creds c hacc hc
  refine ⟨creds, hacc, hu, hw, ?_⟩
  rw [hw]
  exact (hs.vouched.wellFormed k creds hacc).password_ne

theorem log_message {k : Nat} {c : Connection} (hc : s.service.conns k = some c) (wm : Bytes)
    (up : Upstream) : (s.step d (.service (.message k wm up))).log =
      s.log ++ (s.service.proxy.handleMessage d c wm up).entries k := by
  simp only [Traced.step, Service.step, hc]

theorem single_message (hs : s.Inv) {k : Nat} {c : Connection} (hc : s.service.conns k = some c)
    (wm : Bytes) (up : Upstream) :
    ∀ j a b, .accepted j a ∈ (s.step d (.service (.message k wm up))).log →
      .accepted j b ∈ (s.step d (.service (.message k wm up))).log → a = b := by
  -- what is new is on the connection of the message, which has no user name
  have hnew : ∀ j a, .accepted j a ∈ (s.service.proxy.handleMessage d c wm up).entries k →
      (s.service.proxy.handleMessage d c wm up).accepted = some a ∧
        ∀ b, .accepted j b ∉ s.log := by
    intro j a hmem
    rcases Handled.mem_entries hmem with ⟨a', ha', heq⟩ | ⟨cl, -, heq⟩
    · cases heq
      refine ⟨ha', ?_⟩
      intro b hb
      rcases Proxy.handleMessage_cases d s.service.proxy c wm up with
        ⟨hno, -⟩ | ⟨creds, -, -, hempty, -⟩
      · rw [hno] at ha'
        cases ha'
      · obtain ⟨hu, -⟩ := hs.vouched.known k b c hb hc
        exact (hs.vouched.wellFormed k b hb).username_ne (hu.symm.trans hempty)
    · cases heq
  intro j a b ha hb
  rw [log_message hc] at ha hb
  rcases List.mem_append.mp ha with hold | hmem
  · rcases List.mem_append.mp hb with hold' | hmem'
    · exact hs.single j a b hold hold'
    · exact absurd hold ((hnew j b hmem').2 a)
  · rcases List.mem_append.mp hb with hold' | hmem'
    · exact absurd hold' ((hnew j a hmem).2 b)
    · have hsame := (hnew j a hmem).1.symm.trans (hnew j b hmem').1
      exact Option.some.inj hsame

theorem Inv.message (hs : s.Inv) {k : Nat} {c : Connection} (hc : s.service.conns k = some c)
    (wm : Bytes) (up : Upstream) : (s.step d (.service (.message k wm up))).Inv := by
  refine ⟨hs.vouched.step d (.message k wm up), (safe_step (d := d) hs.vouched hs.sound
    (.message k wm up)).sound hs.sound, single_message hs hc wm up, ?_⟩
  intro j cl hsent hne
  rw [log_message hc] at hsent ⊢
  rcases List.mem_append.mp hsent with hold | hnew
  · obtain ⟨creds, hacc, hcreds⟩ := hs.sent j cl hold hne
    exact ⟨creds, List.mem_append_left _ hacc, hcreds⟩
  · rcases Handled.mem_entries hnew with ⟨_, -, heq⟩ | ⟨cl', hcl', heq⟩
    · cases heq
    · cases heq
      have hbuilt : c.clientUsername ≠ [] ∧ cl.BuiltFrom c.clientUsername c.clientPassword := by
        rcases Proxy.credentials_handleMessage hs.sound (hs.vouched.colon hc) d wm up with
          ⟨-, hnone⟩ | ⟨op, -, hcreds⟩
        · rw [hnone] at hcl'
          cases hcl'
        · cases hcreds with
          | made hsent huser hbuilt =>
            rw [hsent] at hcl'
            cases hcl'
            exact ⟨huser, hbuilt⟩
          | kept hcached hsent =>
            obtain ⟨huser, -, hbuilt⟩ := hsent cl hcl' hne
            exact ⟨huser, hbuilt⟩
      obtain ⟨creds, hacc, hu, hw, -⟩ := hs.accepted hc hbuilt.1
      refine ⟨creds, List.mem_append_left _ hacc, ?_⟩
      rw [hbuilt.2.credentials, hu, hw]

/-- A turn other than a message on an open connection leaves the trace, and makes no client. -/
theorem step_cases (hs : s.Inv) (t : TracedTurn) :
    (s.step d t).Inv ∧
      ((∃ k c wm up, t = .service (.message k wm up) ∧ s.service.conns k = some c) ∨
        (s.step d t).log = s.log ∧ ∀ ref key cl,
          (s.step d t).service.proxy.cached ref key = some cl →
            s.service.proxy.cached ref key = some cl) := by
  cases t with
  | evict ref now =>
    obtain ⟨hinv, hlog, hcached⟩ := evict_spec (d := d) hs ref now
    exact ⟨hinv, Or.inr ⟨hlog, hcached⟩⟩
  | service t =>
    by_cases ht : ∀ k wm up, t ≠ .message k wm up
    · obtain ⟨hentries, hsame⟩ := step_quiet (d := d) (s := s) t ht
      have hlog : (s.step d (.service t)).log = s.log := by
        show s.log ++ (s.service.step d t).2 = s.log
        rw [hentries, List.append_nil]
      have hvouched := hs.vouched.step d t
      rw [hentries, List.append_nil] at hvouched
      refine ⟨⟨?_, (safe_step hs.vouched hs.sound t).sound hs.sound, ?_, ?_⟩,
        Or.inr ⟨hlog, fun ref key cl hcl => (hsame.cached ref key).symm.trans hcl⟩⟩
      · rw [hlog]
        exact hvouched
      · rw [hlog]
        exact hs.single
      · rw [hlog]
        exact hs.sent
    · push Not at ht
      obtain ⟨k, wm, up, rfl⟩ := ht
      cases hc : s.service.conns k with
      | none =>
        have hsame : s.step d (.service (.message k wm up)) = s := by
          simp [Traced.step, Service.step, hc]
        rw [hsame]
        exact ⟨hs, Or.inr ⟨rfl, fun _ _ _ h => h⟩⟩
      | some c => exact ⟨hs.message hc wm up, Or.inl ⟨k, c, wm, up, rfl, hc⟩⟩

end Step

/-! ## Identities -/

/-- Every open connection has stored the authSource that it presented, whoever presents the same
user name and password presents the same authSource, and what is presented is plain. -/
structure Consistent (s : Traced) : Prop where
  stored : ∀ k c creds, .accepted k creds ∈ s.log → s.service.conns k = some c →
    c.authSource = creds.presented
  alike : ∀ j k a b, .accepted j a ∈ s.log → .accepted k b ∈ s.log → a.username = b.username →
    a.password = b.password → a.presented = b.presented
  plain : ∀ k creds, .accepted k creds ∈ s.log → creds.Plain

/-- The database of the message, if it is one, has a plain name. -/
def Named (d : Driver) (s : Traced) (t : TracedTurn) : Prop :=
  ∀ k wm up c op, t = .service (.message k wm up) → s.service.conns k = some c →
    decode d wm = .ok op → Unmarked (extractDatabaseName d c op).1

/-- The hosts and ports that are found in the connection strings of the routes are plain. -/
def Addressed (s : Traced) : Prop :=
  ∀ ref, Unmarked (extractHostFromRoute (s.service.proxy.routes ref).connectionString).1 ∧
    Unmarked (extractHostFromRoute (s.service.proxy.routes ref).connectionString).2

/-- A turn between plain names and hosts, whose state after it is consistent. -/
def CalmStep (d : Driver) (s : Traced) (t : TracedTurn) (s' : Traced) : Prop :=
  Does d s t s' ∧ s.Named d t ∧ s.Addressed ∧ s'.Consistent

/-- The client was built from accepted credentials, and no other authSource than theirs is read from
its connection string. -/
def Sourced (log : List Service.Entry) (cl : MongoClient) : Prop :=
  ∃ j a, .accepted j a ∈ log ∧ cl.credentials = some (a.username, a.password) ∧
    ∀ source, cl.Against source → source = a.presented

theorem Sourced.append {log : List Service.Entry} {cl : MongoClient} (h : Sourced log cl)
    (more : List Service.Entry) : Sourced (log ++ more) cl := by
  obtain ⟨j, a, hacc, hrest⟩ := h
  exact ⟨j, a, List.mem_append_left _ hacc, hrest⟩

/-- What calm runs keep. -/
structure Calm (s : Traced) : Prop where
  inv : s.Inv
  consistent : s.Consistent
  cached : ∀ ref key cl, s.service.proxy.cached ref key = some cl → Sourced s.log cl
  sent : ∀ k cl, .sent k cl ∈ s.log → cl.credentials ≠ none → Sourced s.log cl

section Runs

variable {d : Driver} {auth passthrough metrics forwards : Bool} {pool : Option (GoString × Int)}
  {dc : Option DistributedCache} {databases : List DatabaseEntry} {ts : List TracedTurn}
  {s : Traced}

theorem inv_of_runs
    (h : Runs (Does d) (start auth passthrough metrics forwards pool dc databases) ts s) :
    s.Inv := by
  refine h.invariant (inv_start ..) ?_
  rintro s t _ hs rfl
  exact (step_cases hs t).1

/-- A client that is made for a connection is made with the authSource that it presented. -/
theorem Calm.sourced_of_made (hs : s.Calm) (haddressed : s.Addressed) {k : Nat} {c : Connection}
    (hc : s.service.conns k = some c) (hne : c.clientUsername ≠ []) {database : GoString}
    (hdatabase : Unmarked database) {client : MongoClient} {ref : RouteRef} {u : Url}
    {order : List GoString → List GoString}
    (hbuilt : client.BuiltFrom c.clientUsername c.clientPassword)
    (hstring : client.connectionString =
      credentialConnectionString { c with intendedDatabase := database }
        (extractHostFromRoute (s.service.proxy.routes ref).connectionString).1
        (extractHostFromRoute (s.service.proxy.routes ref).connectionString).2 u order) :
    Sourced s.log client := by
  obtain ⟨creds, hacc, hu, hw, hpassword⟩ := hs.inv.accepted hc hne
  have hplain := hs.consistent.plain k creds hacc
  have hstored := hs.consistent.stored k c creds hacc hc
  refine ⟨k, creds, hacc, by rw [hbuilt.credentials, hu, hw], ?_⟩
  intro source hsource
  unfold MongoClient.Against at hsource
  obtain ⟨url, hurl, rfl⟩ := Option.map_eq_some_iff.mp hsource
  rw [hstring] at hurl
  have hparts := haddressed ref
  refine (authSource_of_parse (c := { c with intendedDatabase := database }) hne hpassword ?_ ?_ ?_
    hurl).trans hstored
  · simp only [List.forall_mem_cons]
    rw [hu, hw]
    exact ⟨hplain.username, hplain.password, hparts.1, hparts.2, hdatabase, fun _ h => by cases h⟩
  · exact hstored ▸ hplain.parameter
  · exact hstored ▸ hplain.fragment

theorem Calm.message (hs : s.Calm) (haddressed : s.Addressed) {k : Nat} {c : Connection}
    {wm : Bytes} {up : Upstream} (hc : s.service.conns k = some c)
    (hnamed : s.Named d (.service (.message k wm up)))
    (hafter : (s.step d (.service (.message k wm up))).Consistent) :
    (s.step d (.service (.message k wm up))).Calm := by
  have hproxy : (s.step d (.service (.message k wm up))).service.proxy =
      (s.service.proxy.handleMessage d c wm up).proxy := by
    simp only [Traced.step, Service.step, hc]
  -- the clients that are cached or sent to afterwards
  have hclients : (∀ ref key cl, (s.service.proxy.handleMessage d c wm up).proxy.cached ref key =
      some cl → Sourced s.log cl) ∧ ∀ cl, (s.service.proxy.handleMessage d c wm up).sentTo = some cl →
        cl.credentials ≠ none → Sourced s.log cl := by
    rcases Proxy.credentials_handleMessage hs.inv.sound (hs.inv.vouched.colon hc) d wm up with
      ⟨hcached, hnone⟩ | ⟨op, hdec, hcreds⟩
    · refine ⟨fun ref key cl hcl => hs.cached ref key cl (hcached ref key ▸ hcl), ?_⟩
      intro cl hcl
      rw [hnone] at hcl
      cases hcl
    · cases hcreds with
      | made hsent hne hbuilt hstring hcached =>
        have hsourced := hs.sourced_of_made haddressed hc hne (hnamed k wm up c op rfl hc hdec)
          hbuilt hstring
        refine ⟨?_, ?_⟩
        · intro ref key cl hcl
          rcases hcached ref key cl hcl with hold | rfl
          · exact hs.cached ref key cl hold
          · exact hsourced
        · intro cl hcl _
          rw [hsent] at hcl
          cases hcl
          exact hsourced
      | kept hcached hsent =>
        refine ⟨fun ref key cl hcl => hs.cached ref key cl (hcached ref key cl hcl), ?_⟩
        intro cl hcl hne
        obtain ⟨-, ⟨ref, key, hfound⟩, -⟩ := hsent cl hcl hne
        exact hs.cached ref key cl hfound
  refine ⟨(step_cases hs.inv _).1, hafter, ?_, ?_⟩
  · intro ref key cl hcl
    rw [hproxy] at hcl
    rw [log_message hc]
    exact (hclients.1 ref key cl hcl).append _
  · intro j cl hsent hne
    rw [log_message hc] at hsent ⊢
    rcases List.mem_append.mp hsent with hold | hnew
    · exact (hs.sent j cl hold hne).append _
    · rcases Handled.mem_entries hnew with ⟨_, -, heq⟩ | ⟨cl', hcl', heq⟩
      · cases heq
      · cases heq
        exact (hclients.2 cl hcl' hne).append _

end Runs

/-! ## Two tenants with one client -/

end Traced

end MongoBouncer
