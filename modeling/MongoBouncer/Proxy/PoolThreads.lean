import MongoBouncer.Mongo.Completion
import MongoBouncer.Proxy.Authentication
import MongoBouncer.Proxy.PoolAffinity

/-!
# Connections that share the pool manager

The client connections of a proxy, each going through `handleConnection` and, message by message,
through `roundTripWithPool`. A step is one call of the manager, and the steps of different
connections interleave in any order. A connection goes by its client id.

* `PoolRequest`        : what `roundTripWithPool` is called with;
* `Place`              : how far a connection is;
* `PoolSystem.step`    : the next step of a connection;
* `PoolSystem.Sound`   : what holds between the places and the manager in every run;
* `PoolSystem.play`    : the run that given inputs lead to.

Principal results: `PoolSystem.does_cases`, which says what a step can be; `PoolSystem.sound_of_runs`;
and `PoolSystem.roundTripWithPool_alone`: a connection that is not interrupted leaves the manager
that `roundTripWithPool` leaves.
-/

namespace MongoBouncer

open GoStd Function

/-! ## The system -/

/-- The user, the database, the chosen client and the operation of a message. -/
structure PoolRequest where
  username : GoString
  database : GoString
  mongoClient : MongoClient
  op : Operation
  deriving DecidableEq, Repr

namespace PoolRequest

variable (d : Driver) (r : PoolRequest)

/-- The message belongs to a transaction that it does not commit by itself. -/
def isTransaction : Bool := (r.op.transactionDetails d).any (!·.autocommit)

/-- The message ends a transaction as `isEndOfTransaction` sees it. -/
def isEnd : Bool := Proxy.isEndOfTransaction d r.op

end PoolRequest

/-- How far a connection is. `known` tells whether the client was registered when the message
arrived. -/
inductive Place where
  /-- not open -/
  | closed
  /-- accepted; before `RegisterClient` of `handleConnection` -/
  | opening
  /-- waiting for a message -/
  | idle
  /-- before `GetClient` -/
  | looking (r : PoolRequest) (known : Bool)
  /-- before `UnregisterClient`, for another database -/
  | leaving (r : PoolRequest) (known : Bool)
  /-- before `RegisterClient` of `roundTripWithPool` -/
  | registering (r : PoolRequest) (known : Bool)
  /-- before `GetConnection` -/
  | getting (r : PoolRequest)
  /-- in the round trip on a pooled connection; before `ReturnConnection` -/
  | flying (r : PoolRequest) (conn : ConnRef)
  /-- before `UnregisterClient` of `handleConnection` -/
  | closing
  deriving DecidableEq, Repr

/-- The manager, the places of the connections, and which of them had an operation handed to an
upstream client since they were opened. -/
structure PoolSystem where
  manager : Manager
  place : GoString → Place
  forwarded : GoString → Bool

namespace PoolSystem

def start (mode : GoString) (maxClientConn : Int) : PoolSystem :=
  { manager := .new mode maxClientConn, place := fun _ => .closed, forwarded := fun _ => false }

/-- What makes a connection take its next step: a client connects, sends a message that goes
through the pool or one whose credentials are passed through, or goes away; the code goes on; the
round trip is over, after which the connection is kept or closed. -/
inductive Input where
  | accept
  | request (r : PoolRequest)
  | passThrough
  | hangUp
  | go
  | done (kept : Bool)
  deriving DecidableEq, Repr

inductive Event where
  | accepted (k : GoString)
  | registered (k : GoString) (known : Bool)
  | refused (k : GoString) (known : Bool)
  | requested (k : GoString) (r : PoolRequest)
  | passedThrough (k : GoString)
  | hungUp (k : GoString)
  | looked (k : GoString)
  | left (k : GoString)
  | got (k : GoString) (r : PoolRequest) (conn : ConnRef)
  | returned (k : GoString) (r : PoolRequest) (conn : ConnRef)
  | unserved (k : GoString)
  | closed (k : GoString)
  deriving DecidableEq, Repr

def goto (s : PoolSystem) (k : GoString) (p : Place) : PoolSystem :=
  { s with place := update s.place k p }

/-- The connection moves on after a call of the manager. -/
def call (s : PoolSystem) (m : Manager) (k : GoString) (p : Place) : PoolSystem :=
  { s with manager := m, place := update s.place k p }

/-- The connection had an operation forwarded, or is a new one. -/
def mark (s : PoolSystem) (k : GoString) (b : Bool) : PoolSystem :=
  { s with forwarded := update s.forwarded k b }

def step (d : Driver) (s : PoolSystem) (k : GoString) (i : Input) : Option (Event × PoolSystem) :=
  match s.place k, i with
  | .closed, .accept => some (.accepted k, s.goto k .opening)
  | .opening, .go =>
    match s.manager.registerClient k (lit "default") (lit "default") s.manager.defaultMode with
    | .ok m => some (.registered k false, s.call m k .idle)
    -- a registration that fails is only logged
    | .error _ => some (.refused k false, s.goto k .idle)
  | .idle, .request r =>
    some (.requested k r, s.goto k (.looking r (s.manager.getClient k).isSome))
  | .idle, .passThrough => some (.passedThrough k, s.mark k true)
  | .idle, .hangUp => some (.hungUp k, s.goto k .closing)
  | .looking r known, .go =>
    match s.manager.getClient k with
    | none => some (.looked k, s.goto k (.registering r known))
    | some client =>
      if client.database ≠ r.database then some (.looked k, s.goto k (.leaving r known))
      else some (.looked k, s.goto k (.getting r))
  | .leaving r known, .go =>
    some (.left k, s.call (s.manager.unregisterClient k) k (.registering r known))
  | .registering r known, .go =>
    match s.manager.registerClient k r.username r.database s.manager.defaultMode with
    | .ok m => some (.registered k known, s.call m k (.getting r))
    | .error _ => some (.refused k known, s.goto k .closing)
  | .getting r, .go =>
    match s.manager.getConnection k r.database r.mongoClient (r.isTransaction d)
        (Proxy.transactionID d r.op) with
    | .ok (conn, m) => some (.got k r conn, (s.call m k (.flying r conn)).mark k true)
    | .error _ => some (.unserved k, s.goto k .closing)
  | .flying r conn, .done kept =>
    some (.returned k r conn, s.call (s.manager.returnConnection k conn (r.isEnd d)) k
      (if kept then .idle else .closing))
  | .closing, .go =>
    some (.closed k, (s.call (s.manager.unregisterClient k) k .closed).mark k false)
  | _, _ => none

/-- One step of some connection. -/
def Does (d : Driver) (s : PoolSystem) (e : Event) (s' : PoolSystem) : Prop :=
  ∃ k i, s.step d k i = some (e, s')

/-- What a step of connection `k` can be. -/
inductive Moves (d : Driver) (s : PoolSystem) (k : GoString) : Event → PoolSystem → Prop where
  | accepted (h : s.place k = .closed) : Moves d s k (.accepted k) (s.goto k .opening)
  | enrolled {m : Manager} (h : s.place k = .opening)
      (hm : s.manager.registerClient k (lit "default") (lit "default") s.manager.defaultMode =
        .ok m) :
      Moves d s k (.registered k false) (s.call m k .idle)
  | turnedAway {e : GoError} (h : s.place k = .opening)
      (he : s.manager.registerClient k (lit "default") (lit "default") s.manager.defaultMode =
        .error e) :
      Moves d s k (.refused k false) (s.goto k .idle)
  | requested (h : s.place k = .idle) (r : PoolRequest) :
      Moves d s k (.requested k r) (s.goto k (.looking r (s.manager.getClient k).isSome))
  | passedThrough (h : s.place k = .idle) : Moves d s k (.passedThrough k) (s.mark k true)
  | hungUp (h : s.place k = .idle) : Moves d s k (.hungUp k) (s.goto k .closing)
  | unknown {r : PoolRequest} {known : Bool} (h : s.place k = .looking r known)
      (hc : s.manager.getClient k = none) :
      Moves d s k (.looked k) (s.goto k (.registering r known))
  | elsewhere {r : PoolRequest} {known : Bool} {client : ClientConnection}
      (h : s.place k = .looking r known) (hc : s.manager.getClient k = some client)
      (hdb : client.database ≠ r.database) :
      Moves d s k (.looked k) (s.goto k (.leaving r known))
  | here {r : PoolRequest} {known : Bool} {client : ClientConnection}
      (h : s.place k = .looking r known) (hc : s.manager.getClient k = some client)
      (hdb : client.database = r.database) :
      Moves d s k (.looked k) (s.goto k (.getting r))
  | left {r : PoolRequest} {known : Bool} (h : s.place k = .leaving r known) :
      Moves d s k (.left k) (s.call (s.manager.unregisterClient k) k (.registering r known))
  | registered {r : PoolRequest} {known : Bool} {m : Manager}
      (h : s.place k = .registering r known)
      (hm : s.manager.registerClient k r.username r.database s.manager.defaultMode = .ok m) :
      Moves d s k (.registered k known) (s.call m k (.getting r))
  | refused {r : PoolRequest} {known : Bool} {e : GoError} (h : s.place k = .registering r known)
      (he : s.manager.registerClient k r.username r.database s.manager.defaultMode = .error e) :
      Moves d s k (.refused k known) (s.goto k .closing)
  | got {r : PoolRequest} {conn : ConnRef} {m : Manager} (h : s.place k = .getting r)
      (hm : s.manager.getConnection k r.database r.mongoClient (r.isTransaction d)
        (Proxy.transactionID d r.op) = .ok (conn, m)) :
      Moves d s k (.got k r conn) ((s.call m k (.flying r conn)).mark k true)
  | unserved {r : PoolRequest} {e : GoError} (h : s.place k = .getting r)
      (he : s.manager.getConnection k r.database r.mongoClient (r.isTransaction d)
        (Proxy.transactionID d r.op) = .error e) :
      Moves d s k (.unserved k) (s.goto k .closing)
  | returned {r : PoolRequest} {conn : ConnRef} (h : s.place k = .flying r conn) (kept : Bool) :
      Moves d s k (.returned k r conn)
        (s.call (s.manager.returnConnection k conn (r.isEnd d)) k (if kept then .idle else .closing))
  | closed (h : s.place k = .closing) :
      Moves d s k (.closed k) ((s.call (s.manager.unregisterClient k) k .closed).mark k false)

section Moves

variable {d : Driver} {s s' : PoolSystem} {k : GoString} {e : Event} {i : Input}

theorem moves_of_step (h : s.step d k i = some (e, s')) : Moves d s k e s' := by
  unfold step at h
  split at h
  · rename_i hp
    cases h
    exact .accepted hp
  · rename_i hp
    split at h
    · rename_i m hm
      cases h
      exact .enrolled hp hm
    · rename_i e he
      cases h
      exact .turnedAway hp he
  · rename_i r hp
    cases h
    exact .requested hp r
  · rename_i hp
    cases h
    exact .passedThrough hp
  · rename_i hp
    cases h
    exact .hungUp hp
  · rename_i r known hp
    split at h
    · rename_i hc
      cases h
      exact .unknown hp hc
    · rename_i client hc
      split at h
      · rename_i hdb
        cases h
        exact .elsewhere hp hc hdb
      · rename_i hdb
        cases h
        exact .here hp hc (not_not.mp hdb)
  · rename_i r known hp
    cases h
    exact .left hp
  · rename_i r known hp
    split at h
    · rename_i m hm
      cases h
      exact .registered hp hm
    · rename_i e he
      cases h
      exact .refused hp he
  · rename_i r hp
    split at h
    · rename_i conn m hm
      cases h
      exact .got hp hm
    · rename_i e he
      cases h
      exact .unserved hp he
  · rename_i r conn kept hp
    cases h
    exact .returned hp kept
  · rename_i hp
    cases h
    exact .closed hp
  · cases h

theorem does_cases (h : Does d s e s') : ∃ k, Moves d s k e s' := by
  obtain ⟨k, i, hstep⟩ := h
  exact ⟨k, moves_of_step hstep⟩

end Moves

/-! ## The places and the manager -/

/-- The client was registered in the default mode, and what it holds is of the pool of its
database. -/
structure Enrolled (m : Manager) (client : ClientConnection) : Prop where
  mode : client.poolMode = m.defaultMode
  pools : ∀ conn ∈ client.held, (m.connections conn).map (·.pool) = some client.database

/-- The client of a connection in its round trip: it owns the pooled connection, and holds it if
the mode says so. -/
structure Flies (d : Driver) (m : Manager) (k : GoString) (r : PoolRequest) (conn : ConnRef)
    (client : ClientConnection) : Prop where
  database : client.database = r.database
  owned : m.Owns k conn
  pool : (m.connections conn).map (·.pool) = some r.database
  session : client.poolMode = .session → client.assignedConn = some conn
  transaction : client.poolMode = .transaction →
    (client.transactionConn = some conn ↔ r.isTransaction d = true)

/-- What a place says of the client of the connection. -/
def PlaceOK (d : Driver) (m : Manager) (given : List (GoString × ConnRef)) (k : GoString) :
    Place → Prop
  | .closed => m.getClient k = none
  | .opening => m.getClient k = none
  | .idle => True
  | .looking _ known => known = (m.getClient k).isSome
  | .leaving _ known => known = true ∧ (m.getClient k).isSome = true
  | .registering _ _ => m.getClient k = none
  | .getting r => ∃ client, m.getClient k = some client ∧ client.database = r.database
  | .flying r conn => (k, conn) ∈ given ∧
      ∃ client, m.getClient k = some client ∧ Flies d m k r conn client
  | .closing => True

/-- The manager is in order, every client is enrolled, and every place is right. -/
structure Sound (d : Driver) (s : PoolSystem) (given : List (GoString × ConnRef)) : Prop where
  affine : s.manager.Affine given
  enrolled : ∀ k client, s.manager.getClient k = some client → Enrolled s.manager client
  places : ∀ k, PlaceOK d s.manager given k (s.place k)

section Sound

variable {d : Driver} {s s' : PoolSystem} {k : GoString} {e : Event}
  {given : List (GoString × ConnRef)} {m : Manager} {p : Place}

theorem sound_start (d : Driver) (mode : GoString) (maxClientConn : Int) :
    (start mode maxClientConn).Sound d [] where
  affine := Manager.affine_new mode maxClientConn
  enrolled _ _ h := nomatch h
  places _ := rfl

theorem Sound.goto (h : s.Sound d given) (hp : PlaceOK d s.manager given k p) :
    (s.goto k p).Sound d given where
  affine := h.affine
  enrolled := h.enrolled
  places k' := by
    show PlaceOK d s.manager given k' (update s.place k p k')
    by_cases hk : k' = k
    · subst hk
      rw [update_self]
      exact hp
    · rw [update_of_ne hk]
      exact h.places k'

theorem Sound.mark (h : s.Sound d given) (b : Bool) : (s.mark k b).Sound d given :=
  ⟨h.affine, h.enrolled, h.places⟩

/-- The ledger grows by connections that are new. -/
structure Extends (m : Manager) (given given' : List (GoString × ConnRef)) : Prop where
  old : given ⊆ given'
  new : ∀ k conn, (k, conn) ∈ given' → (k, conn) ∈ given ∨ m.next ≤ conn

theorem Extends.refl (m : Manager) (given : List (GoString × ConnRef)) : Extends m given given :=
  ⟨List.Subset.refl _, fun _ _ => Or.inl⟩

theorem extends_perform (h : m.Affine given) (c : Manager.Call) (hproper : c.Proper given) :
    Extends m given (given ++ (m.perform c).2.toList.map fun conn => (c.caller, conn)) := by
  refine ⟨List.subset_append_left _ _, ?_⟩
  intro k conn hmem
  rcases List.mem_append.mp hmem with hold | hnew
  · exact Or.inl hold
  · simp only [List.mem_map, Option.mem_toList, Prod.mk.injEq] at hnew
    obtain ⟨conn', hr, rfl, rfl⟩ := hnew
    exact ((Manager.acts_perform h c hproper).gives conn' hr).imp_right And.left

variable {m' : Manager} {r : PoolRequest} {conn : ConnRef} {client : ClientConnection}

/-- A place stays right when another client makes a call. -/
theorem PlaceOK.of_other {given' : List (GoString × ConnRef)}
    (h : PlaceOK d m given k p) (hsub : given ⊆ given') (hc : m'.getClient k = m.getClient k)
    (hconn : ∀ conn, (k, conn) ∈ given → m'.connections conn = m.connections conn) :
    PlaceOK d m' given' k p := by
  cases p with
  | flying r conn =>
    obtain ⟨hgiven, client, hclient, hf⟩ := h
    refine ⟨hsub hgiven, client, by rw [hc, hclient], hf.database, ?_, ?_, hf.session,
      hf.transaction⟩
    · unfold Manager.Owns
      rw [hconn conn hgiven]
      exact hf.owned
    · rw [hconn conn hgiven]
      exact hf.pool
  | closed | opening | registering =>
    show m'.getClient k = none
    rw [hc]
    exact h
  | idle => trivial
  | closing => trivial
  | looking r known =>
    show known = (m'.getClient k).isSome
    rw [hc]
    exact h
  | leaving r known =>
    show known = true ∧ (m'.getClient k).isSome = true
    rw [hc]
    exact h
  | getting r =>
    obtain ⟨client, hclient, hdb⟩ := h
    exact ⟨client, by rw [hc, hclient], hdb⟩

theorem Sound.call (h : s.Sound d given) (c : Manager.Call) (hcaller : c.caller = k)
    (hproper : c.Proper given) (hm : (s.manager.perform c).1 = m)
    (hclient : ∀ client, m.getClient k = some client → Enrolled m client)
    (hplace : PlaceOK d m
      (given ++ (s.manager.perform c).2.toList.map fun conn => (c.caller, conn)) k p) :
    ∃ given', (s.call m k p).Sound d given' ∧ Extends s.manager given given' := by
  refine ⟨_, ?_, extends_perform h.affine c hproper⟩
  subst hm
  have hother : ∀ k', k' ≠ k → _ := fun k' hk =>
    Manager.perform_other h.affine hproper (hcaller ▸ hk : k' ≠ c.caller)
  have hsettings := (Manager.acts_perform h.affine c hproper).settings
  refine ⟨h.affine.perform c hproper, ?_, ?_⟩
  · intro k' client hc
    by_cases hk : k' = k
    · subst hk
      exact hclient client hc
    · obtain ⟨hsame, hconns⟩ := hother k' hk
      have hc' := hc
      rw [show (s.call (s.manager.perform c).1 k p).manager = (s.manager.perform c).1 from rfl,
        hsame] at hc'
      have hold := h.enrolled k' client hc'
      refine ⟨hold.mode.trans (congrArg Prod.fst hsettings).symm, ?_⟩
      intro conn hmem
      show ((s.manager.perform c).1.connections conn).map _ = _
      rw [hconns conn ((h.affine.clients k' client hc').given conn hmem)]
      exact hold.pools conn hmem
  · intro k'
    show PlaceOK d (s.manager.perform c).1 _ k' (update s.place k p k')
    by_cases hk : k' = k
    · subst hk
      rw [update_self]
      exact hplace
    · rw [update_of_ne hk]
      obtain ⟨hsame, hconns⟩ := hother k' hk
      exact (h.places k').of_other (List.subset_append_left _ _) hsame hconns

theorem flies_checkout {mongoClient : MongoClient} {tag : GoString}
    (client : ClientConnection) (hdb : client.database = r.database)
    (hsession : client.poolMode = .session → client.assignedConn = some m.next)
    (htransaction : client.poolMode = .transaction →
      (client.transactionConn = some m.next ↔ r.isTransaction d = true)) :
    Flies d (m.checkout r.database mongoClient k tag).2 k r m.next client := by
  have hconn : (m.checkout r.database mongoClient k tag).2.connections m.next =
      some ⟨mongoClient, r.database, true, tag, k⟩ := by
    rw [Manager.connections_checkout, if_pos rfl]
  refine ⟨hdb, ⟨_, hconn, rfl, rfl⟩, ?_, hsession, htransaction⟩
  rw [hconn]
  rfl

/-- A client that holds nothing but the new connection. -/
theorem flies_of_checkout {mongoClient : MongoClient} {tag : GoString} (client : ClientConnection)
    (hdb : client.database = r.database) (hheld : client.held = [m.next])
    (hsession : client.poolMode = .session → client.assignedConn = some m.next)
    (htransaction : client.poolMode = .transaction →
      (client.transactionConn = some m.next ↔ r.isTransaction d = true))
    (hm : (m.checkout r.database mongoClient k tag).2.setClient k client = m') :
    ∃ client', m'.getClient k = some client' ∧ Flies d m' k r m.next client' ∧
      client'.poolMode = client.poolMode ∧
      ∀ conn ∈ client'.held, (m'.connections conn).map (·.pool) = some client'.database := by
  subst hm
  obtain ⟨-, howned, hpool, -, -⟩ := flies_checkout client hdb hsession htransaction
  refine ⟨client, by rw [Manager.getClient_setClient, if_pos rfl],
    ⟨hdb, howned, hpool, hsession, htransaction⟩, rfl, ?_⟩
  intro conn hmem
  rw [hheld, List.mem_singleton] at hmem
  rw [hmem, hdb]
  exact hpool

theorem flies_of_got {pool : ConnectionPool} {tag : GoString} (haff : m.Affine given)
    (hc : m.getClient k = some client) (hdb : client.database = r.database)
    (hen : Enrolled m client)
    (hg : Manager.Got m k r.database pool client (r.isTransaction d) tag conn m') :
    ∃ client', m'.getClient k = some client' ∧ Flies d m' k r conn client' ∧
      client'.poolMode = client.poolMode ∧
      ∀ conn ∈ client'.held, (m'.connections conn).map (·.pool) = some client'.database := by
  have hholder := haff.clients k client hc
  have hfits := hholder.fits
  unfold Manager.FitsMode at hfits
  -- a connection that the client holds already
  have hkept : conn ∈ client.held → (client.poolMode = .session → client.assignedConn = some conn) →
      (client.poolMode = .transaction →
        (client.transactionConn = some conn ↔ r.isTransaction d = true)) →
      Flies d m k r conn client := by
    intro hmem hsession htransaction
    exact ⟨hdb, hholder.owned conn hmem, by rw [hen.pools conn hmem, hdb], hsession, htransaction⟩
  cases hg with
  | assigned hmode hconn =>
    refine ⟨client, hc, hkept ?_ (fun _ => hconn) ?_, rfl, hen.pools⟩
    · simp [ClientConnection.held, hconn]
    · simp [hmode]
  | pinned hmode htx hconn htag =>
    refine ⟨client, hc, hkept ?_ ?_ ?_, rfl, hen.pools⟩
    · simp [ClientConnection.held, hconn]
    · simp [hmode]
    · simp [hconn, htx]
  | assign hmode =>
    simp only [hmode] at hfits
    exact flies_of_checkout { client with assignedConn := some m.next } hdb
      (by simp [ClientConnection.held, hfits]) (fun _ => rfl) (by simp [hmode]) rfl
  | pin hmode htx | repin hmode htx =>
    simp only [hmode] at hfits
    exact flies_of_checkout { client with transactionConn := some _ } hdb
      (by simp [ClientConnection.held, hfits]) (by simp [hmode]) (by simp [htx]) rfl
  | temporary htemp =>
    have hfresh : ∀ conn ∈ client.held, conn < m.next :=
      fun conn hmem => haff.bound k conn (hholder.given conn hmem)
    refine ⟨client, by rw [Manager.getClient_checkout, hc], ?_, rfl, ?_⟩
    · refine flies_checkout client hdb (fun hmode => by simp [hmode] at htemp) ?_
      intro hmode
      have hnone : client.transactionConn ≠ some m.next := by
        intro hconn
        exact Nat.lt_irrefl _ (hfresh m.next (by simp [ClientConnection.held, hconn]))
      simpa [hnone, hmode] using htemp
    · intro conn hmem
      rw [Manager.connections_checkout_of_given (hfresh conn hmem)]
      exact hen.pools conn hmem

theorem Enrolled.getPool (h : Enrolled m client)
    (database : GoString) (mongoClient : MongoClient) (mode : PoolMode) :
    Enrolled (m.getPool database mongoClient mode).2 client := by
  refine ⟨?_, ?_⟩
  · rw [h.mode]
    unfold Manager.getPool
    split <;> rfl
  · rw [Manager.connections_getPool]
    exact h.pools

theorem enrolled_returnConnection
    {isEnd : Bool} (haff : m.Affine given) (hgiven : (k, conn) ∈ given)
    (hen : ∀ client, m.getClient k = some client → Enrolled m client)
    (hc : (m.returnConnection k conn isEnd).getClient k = some client) :
    Enrolled (m.returnConnection k conn isEnd) client := by
  have hsettings : (m.returnConnection k conn isEnd).defaultMode = m.defaultMode :=
    congrArg Prod.fst (Manager.acts_perform haff (.returnConnection k conn isEnd) hgiven).settings
  cases hold : m.getClient k with
  | none =>
    unfold Manager.returnConnection at hc
    simp only [Manager.getClient_putBackOwn, hold] at hc
    cases hc
  | some client' =>
    have hen' := hen client' hold
    have hholder := haff.clients k client' hold
    rcases Manager.returnConnection_cases hold hholder.fits with
      hsame | ⟨hnot, hback⟩ | ⟨hmode, -, -, hend⟩
    · rw [hsame] at hc ⊢
      exact hen client hc
    · refine ⟨?_, ?_⟩
      · rw [hback, Manager.getClient_putBackOwn, hold] at hc
        cases hc
        rw [hsettings]
        exact hen'.mode
      · rw [hback] at hc ⊢
        rw [Manager.getClient_putBackOwn, hold] at hc
        cases hc
        intro conn' hmem
        have hne : conn' ≠ conn := fun heq => hnot (heq ▸ hmem)
        rw [Manager.connections_putBackOwn_of_ne m hne]
        exact hen'.pools conn' hmem
    · have hfits := hholder.fits
      simp only [Manager.FitsMode, hmode] at hfits
      refine ⟨?_, ?_⟩
      · rw [hend, Manager.getClient_setClient, if_pos rfl] at hc
        cases hc
        rw [hsettings]
        exact hen'.mode
      · rw [hend, Manager.getClient_setClient, if_pos rfl] at hc
        cases hc
        intro conn' hmem
        simp [ClientConnection.held, hfits] at hmem

theorem enrolled_registerClient {username database : GoString}
    (hen : ∀ client, m.getClient k = some client → Enrolled m client)
    (hm : m.registerClient k username database m.defaultMode = .ok m')
    (hc : m'.getClient k = some client) : Enrolled m' client := by
  rcases Manager.registerClient_cases hm with ⟨-, rfl⟩ | ⟨-, rfl⟩
  · exact hen client hc
  · rw [Manager.getClient_setClient, if_pos rfl] at hc
    cases hc
    exact ⟨rfl, fun conn hmem => nomatch hmem⟩

/-- **Every step keeps the places and the manager in order.** -/
theorem Sound.step (h : s.Sound d given) (hd : Does d s e s') :
    ∃ given', s'.Sound d given' ∧ Extends s.manager given given' := by
  obtain ⟨k, hmove⟩ := does_cases hd
  have hplace := h.places k
  have hgoto : ∀ p, PlaceOK d s.manager given k p →
      ∃ given', (s.goto k p).Sound d given' ∧ Extends s.manager given given' :=
    fun p hp => ⟨given, h.goto hp, .refl s.manager given⟩
  have hmark : ∀ {s' : PoolSystem} b,
      (∃ given', s'.Sound d given' ∧ Extends s.manager given given') →
      ∃ given', (s'.mark k b).Sound d given' ∧ Extends s.manager given given' := by
    rintro s' b ⟨given', hs', hext⟩
    exact ⟨given', hs'.mark b, hext⟩
  have hunregister : ∀ p, PlaceOK d (s.manager.unregisterClient k) (given ++ []) k p →
      ∃ given', (s.call (s.manager.unregisterClient k) k p).Sound d given' ∧
        Extends s.manager given given' := by
    intro p hp
    refine h.call (.unregisterClient k) rfl trivial rfl ?_ hp
    intro client hc
    rw [Manager.getClient_unregisterClient] at hc
    cases hc
  have hregister : ∀ username database m p,
      s.manager.registerClient k username database s.manager.defaultMode = .ok m →
      PlaceOK d m (given ++ []) k p →
      ∃ given', (s.call m k p).Sound d given' ∧ Extends s.manager given given' := by
    intro username database m p hm hp
    have hperform : s.manager.perform
        (.registerClient k username database s.manager.defaultMode) = (m, none) := by
      simp [Manager.perform, hm]
    refine h.call (.registerClient k username database s.manager.defaultMode) rfl trivial
      (by rw [hperform]) (fun client hc => enrolled_registerClient (h.enrolled k) hm hc) ?_
    rw [hperform]
    exact hp
  cases hmove with
  | accepted hp =>
    rw [hp] at hplace
    exact hgoto .opening hplace
  | enrolled hp hm => exact hregister _ _ _ _ hm trivial
  | turnedAway hp he => exact hgoto .idle trivial
  | requested hp r => exact hgoto (.looking r _) rfl
  | passedThrough hp => exact hmark true ⟨given, h, .refl s.manager given⟩
  | hungUp | refused | unserved => exact hgoto .closing trivial
  | unknown hp hc => exact hgoto (.registering _ _) hc
  | elsewhere hp hc hdb =>
    rw [hp] at hplace
    refine hgoto (.leaving _ _) ⟨?_, by simp [hc]⟩
    rw [show _ = _ from hplace, hc]
    rfl
  | here hp hc hdb => exact hgoto (.getting _) ⟨_, hc, hdb⟩
  | left hp => exact hunregister _ (Manager.getClient_unregisterClient _ k)
  | registered hp hm =>
    rw [hp] at hplace
    obtain ⟨client, hc, hdb⟩ := Manager.getClient_registerClient hplace hm
    exact hregister _ _ _ _ hm ⟨client, hc, hdb⟩
  | got hp hm =>
    rename_i r conn m
    rw [hp] at hplace
    obtain ⟨client, hc, hdb⟩ := hplace
    obtain ⟨client', hc', hg⟩ := Manager.got_of_getConnection hm
    rw [hc] at hc'
    cases hc'
    have hen := h.enrolled k client hc
    obtain ⟨client', hc', hf, hmode, hpools⟩ := flies_of_got
      (h.affine.getPool r.database r.mongoClient client.poolMode)
      (by rw [Manager.getClient_getPool, hc]) hdb (hen.getPool _ _ _) hg
    have hperform : s.manager.perform (.getConnection k r.database r.mongoClient
        (r.isTransaction d) (Proxy.transactionID d r.op)) = (m, some conn) := by
      simp [Manager.perform, hm]
    have hsettings := (Manager.acts_perform h.affine (.getConnection k r.database r.mongoClient
      (r.isTransaction d) (Proxy.transactionID d r.op)) trivial).settings
    rw [hperform] at hsettings
    apply hmark true
    refine h.call (.getConnection k r.database r.mongoClient (r.isTransaction d)
      (Proxy.transactionID d r.op)) rfl trivial (by rw [hperform]) ?_ ?_
    · intro client'' hc''
      cases hc'.symm.trans hc''
      exact ⟨(hmode.trans hen.mode).trans (congrArg Prod.fst hsettings).symm, hpools⟩
    · rw [hperform]
      exact ⟨by simp [Manager.Call.caller], client', hc', hf⟩
  | returned hp kept =>
    rename_i r conn
    rw [hp] at hplace
    refine h.call (.returnConnection k conn (r.isEnd d)) rfl hplace.1 rfl ?_ ?_
    · intro client hc
      exact enrolled_returnConnection h.affine hplace.1 (h.enrolled k) hc
    · cases kept <;> exact trivial
  | closed hp => exact hmark false (hunregister .closed (Manager.getClient_unregisterClient _ k))

theorem sound_of_runs {mode : GoString} {maxClientConn : Int} {es : List Event}
    (h : Runs (Does d) (start mode maxClientConn) es s) : ∃ given, s.Sound d given := by
  apply h.invariant ⟨[], sound_start d mode maxClientConn⟩
  rintro s e s' ⟨given, hs⟩ he
  obtain ⟨given', hs', -⟩ := hs.step he
  exact ⟨given', hs'⟩

theorem acts_of_moves (h : s.Sound d given) (hmove : Moves d s k e s') :
    ∃ conn, s.manager.Acts s'.manager k (fun conn => (k, conn) ∈ given) conn := by
  have hsame : ∃ conn, s.manager.Acts s.manager k (fun conn => (k, conn) ∈ given) conn :=
    ⟨none, .refl s.manager k _⟩
  have hperform : ∀ c : Manager.Call, c.caller = k → c.Proper given →
      (s.manager.perform c).1 = s'.manager →
      ∃ conn, s.manager.Acts s'.manager k (fun conn => (k, conn) ∈ given) conn := by
    rintro c rfl hproper hm
    exact ⟨_, hm ▸ Manager.acts_perform h.affine c hproper⟩
  cases hmove with
  | accepted | turnedAway | requested | passedThrough | hungUp | unknown | elsewhere | here
  | refused | unserved => exact hsame
  | enrolled hp hm =>
    exact hperform (.registerClient k (lit "default") (lit "default") s.manager.defaultMode) rfl
      trivial (by simp only [Manager.perform, hm]; rfl)
  | left | closed => exact hperform (.unregisterClient k) rfl trivial rfl
  | registered hp hm =>
    rename_i r known m
    exact hperform (.registerClient k r.username r.database s.manager.defaultMode) rfl trivial
      (by simp only [Manager.perform, hm]; rfl)
  | got hp hm =>
    rename_i r conn m
    exact hperform (.getConnection k r.database r.mongoClient (r.isTransaction d)
      (Proxy.transactionID d r.op)) rfl trivial (by simp only [Manager.perform, hm]; rfl)
  | returned hp kept =>
    have hplace := h.places k
    rw [hp] at hplace
    exact hperform (.returnConnection k _ _) rfl hplace.1 rfl

theorem settings_of_runs {mode : GoString} {maxClientConn : Int} {es : List Event}
    (h : Runs (Does d) (start mode maxClientConn) es s) :
    s.manager.settings = (Manager.new mode maxClientConn).settings := by
  induction h with
  | start => rfl
  | step h he ih =>
    obtain ⟨given, hs⟩ := sound_of_runs h
    obtain ⟨k, hmove⟩ := does_cases he
    obtain ⟨conn, hacts⟩ := acts_of_moves hs hmove
    exact hacts.settings.trans ih

end Sound

/-! ## Runs on given inputs -/

/-- The steps that the inputs lead to. -/
def play (d : Driver) : PoolSystem → List (GoString × Input) → Option (List Event × PoolSystem)
  | s, [] => some ([], s)
  | s, (k, i) :: rest =>
    match s.step d k i with
    | none => none
    | some (e, s') =>
      match play d s' rest with
      | none => none
      | some (es, s'') => some (e :: es, s'')

theorem runs_of_play {d : Driver} {s s' : PoolSystem} {inputs : List (GoString × Input)}
    {es : List Event} (h : play d s inputs = some (es, s')) : Runs (Does d) s es s' := by
  induction inputs generalizing s es with
  | nil =>
    cases h
    exact .start
  | cons input rest ih =>
    obtain ⟨k, i⟩ := input
    simp only [play] at h
    split at h
    · cases h
    · rename_i e s₁ hstep
      split at h
      · cases h
      · rename_i es' s₂ hrest
        cases h
        exact (Runs.start.step ⟨k, i, hstep⟩).append (ih hrest)

theorem place_of_play {d : Driver} {s s' : PoolSystem} {inputs : List (GoString × Input)}
    {es : List Event} (h : play d s inputs = some (es, s')) {k : GoString}
    (hk : ∀ i, (k, i) ∉ inputs) : s'.place k = s.place k := by
  induction inputs generalizing s es with
  | nil =>
    cases h
    rfl
  | cons input rest ih =>
    obtain ⟨k', i⟩ := input
    have hne : k ≠ k' := fun heq => hk i (by simp [heq])
    simp only [play] at h
    split at h
    · cases h
    · rename_i e s₁ hstep
      split at h
      · cases h
      · rename_i es' s₂ hrest
        cases h
        rw [ih hrest fun i' hmem => hk i' (List.mem_cons_of_mem _ hmem)]
        cases moves_of_step hstep with
        | passedThrough hp => rfl
        | _ => exact update_of_ne hne _ _

def ann : GoString := lit "10.0.0.7:5000"

def queryUsers : Operation :=
  Bson.opMsg [("find", .string (lit "users")), ("$db", .string (lit "shop"))]

def annSends (op : Operation) : PoolRequest :=
  { username := lit "ann", database := lit "shop", mongoClient := ⟨0, [], none⟩, op }

/-! ## A connection that is not interrupted -/

section Alone

variable {d : Driver} {s : PoolSystem} {c : Connection} {client : MongoClient}
  {database username : GoString} {op : Operation} {given : List (GoString × ConnRef)}
  (p : Proxy) (wm : Bytes) (up : Upstream)

theorem place_goto (s : PoolSystem) (k : GoString) (place : Place) :
    (s.goto k place).place k = place :=
  update_self _ _ _

theorem place_call (s : PoolSystem) (m : Manager) (k : GoString) (place : Place) :
    (s.call m k place).place k = place :=
  update_self _ _ _

/-- A step of connection `k`. -/
def DoesAs (d : Driver) (k : GoString) (s : PoolSystem) (e : Event) (s' : PoolSystem) : Prop :=
  ∃ i, s.step d k i = some (e, s')

theorem DoesAs.does {k : GoString} {e : Event} {s' : PoolSystem} (h : DoesAs d k s e s') :
    Does d s e s' :=
  ⟨k, h⟩

theorem pooledCall_alone (hs : s.Sound d given)
    (hp : s.place c.clientID = .getting ⟨username, database, client, op⟩) :
    ∃ es s', Runs (DoesAs d c.clientID) s es s' ∧
      (s'.place c.clientID = .idle ∨ s'.place c.clientID = .closing) ∧
      (p.pooledCall d s.manager c database client wm op up).2.1.poolManager = some s'.manager := by
  have hplace := hs.places c.clientID
  rw [hp] at hplace
  obtain ⟨cl, hc, -⟩ := hplace
  obtain ⟨conn, m, hget, -⟩ := Manager.getConnection_ok hc database client
    ((op.transactionDetails d).any (!·.autocommit)) (Proxy.transactionID d op)
  -- the checkout
  obtain ⟨s₁, hs₁⟩ : ∃ s₁, s₁ = (s.call m c.clientID
      (.flying ⟨username, database, client, op⟩ conn)).mark c.clientID true := ⟨_, rfl⟩
  have hgot : DoesAs d c.clientID s (.got c.clientID ⟨username, database, client, op⟩ conn) s₁ :=
    ⟨.go, by simp only [step, hp, PoolRequest.isTransaction, hget, hs₁]⟩
  have hplace₁ : s₁.place c.clientID = .flying ⟨username, database, client, op⟩ conn := by
    rw [hs₁]
    exact update_self _ _ _
  have hmanager₁ : s₁.manager = m := by
    rw [hs₁]
    rfl
  -- the connection that was given exists
  obtain ⟨given', hsound, -⟩ := hs.step hgot.does
  have hflying := hsound.places c.clientID
  rw [hplace₁] at hflying
  obtain ⟨-, cl', -, hf⟩ := hflying
  obtain ⟨pc, hpc, -⟩ := hf.owned
  rw [hmanager₁] at hpc
  have hclientOf : m.clientOf conn = some pc.mongoClient := by simp [Manager.clientOf, hpc]
  -- the return
  have hreturned : DoesAs d c.clientID s₁ (.returned c.clientID ⟨username, database, client, op⟩ conn)
      (s₁.call (m.returnConnection c.clientID conn (Proxy.isEndOfTransaction d op))
        c.clientID .idle) :=
    ⟨.done true, by simp only [step, hplace₁, hmanager₁]; rfl⟩
  refine ⟨_, _, (Runs.start.step hgot).step hreturned, Or.inl (place_call _ _ _ _), ?_⟩
  unfold Proxy.pooledCall
  simp only [hget, hclientOf]
  rfl

theorem register_alone (hs : s.Sound d given) {known : Bool}
    (hp : s.place c.clientID = .registering ⟨username, database, client, op⟩ known) :
    ∃ es s', Runs (DoesAs d c.clientID) s es s' ∧
      (s'.place c.clientID = .idle ∨ s'.place c.clientID = .closing) ∧
      (∀ m, s.manager.registerClient c.clientID username database s.manager.defaultMode = .ok m →
        (p.pooledCall d m c database client wm op up).2.1.poolManager = some s'.manager) ∧
      (∀ e, s.manager.registerClient c.clientID username database s.manager.defaultMode =
        .error e → s'.manager = s.manager) := by
  cases hreg : s.manager.registerClient c.clientID username database s.manager.defaultMode with
  | ok m =>
    have hdoes : DoesAs d c.clientID s (.registered c.clientID known)
        (s.call m c.clientID (.getting ⟨username, database, client, op⟩)) :=
      ⟨.go, by simp only [step, hp, hreg]⟩
    obtain ⟨given', hs', -⟩ := hs.step hdoes.does
    obtain ⟨es, s', hrun, hidle, hmanager⟩ := pooledCall_alone p wm up hs' (place_call _ _ _ _)
    refine ⟨_, s', (Runs.start.step hdoes).append hrun, hidle, ?_, nofun⟩
    rintro m' ⟨⟩
    exact hmanager
  | error e =>
    have hdoes : DoesAs d c.clientID s (.refused c.clientID known) (s.goto c.clientID .closing) :=
      ⟨.go, by simp only [step, hp, hreg]⟩
    exact ⟨_, _, Runs.start.step hdoes, Or.inr (place_goto _ _ _), nofun, fun _ _ => rfl⟩

/-- **A connection that is not interrupted leaves the manager that `roundTripWithPool` leaves**: the
steps are all its own. -/
theorem roundTripWithPool_alone (hs : s.Sound d given) {known : Bool}
    (hp : s.place c.clientID = .looking
      ⟨if c.clientUsername = [] then lit "default" else c.clientUsername,
        if database = [] then lit "default" else database, client, op⟩ known)
    (hpod : p.forwardToPod d op up = none) :
    ∃ es s', Runs (DoesAs d c.clientID) s es s' ∧
      (s'.place c.clientID = .idle ∨ s'.place c.clientID = .closing) ∧
      (p.roundTripWithPool d s.manager c database client wm op up).2.1.poolManager =
        some s'.manager := by
  unfold Proxy.roundTripWithPool Proxy.reregister
  simp only [hpod]
  generalize (if database = [] then lit "default" else database) = database' at hp ⊢
  generalize (if c.clientUsername = [] then lit "default" else c.clientUsername) = user at hp ⊢
  cases hc : s.manager.getClient c.clientID with
  | none =>
    have hdoes : DoesAs d c.clientID s (.looked c.clientID)
        (s.goto c.clientID (.registering ⟨user, database', client, op⟩ known)) :=
      ⟨.go, by simp only [step, hp, hc]⟩
    obtain ⟨given', hs', -⟩ := hs.step hdoes.does
    obtain ⟨es, s', hrun, hidle, hok, herror⟩ := register_alone p wm up hs' (place_goto _ _ _)
    refine ⟨_, s', (Runs.start.step hdoes).append hrun, hidle, ?_⟩
    cases hreg : s.manager.registerClient c.clientID user database' s.manager.defaultMode with
    | ok m => exact hok m hreg
    | error e => simp [herror e hreg, goto]
  | some cl =>
    by_cases hdb : cl.database = database'
    · have hdoes : DoesAs d c.clientID s (.looked c.clientID)
          (s.goto c.clientID (.getting ⟨user, database', client, op⟩)) :=
        ⟨.go, by simp [step, hp, hc, hdb]⟩
      obtain ⟨given', hs', -⟩ := hs.step hdoes.does
      obtain ⟨es, s', hrun, hidle, hmanager⟩ := pooledCall_alone p wm up hs' (place_goto _ _ _)
      refine ⟨_, s', (Runs.start.step hdoes).append hrun, hidle, ?_⟩
      simp only [hdb, ne_eq, not_true_eq_false, if_false]
      exact hmanager
    · have hdoes : DoesAs d c.clientID s (.looked c.clientID)
          (s.goto c.clientID (.leaving ⟨user, database', client, op⟩ known)) :=
        ⟨.go, by simp [step, hp, hc, hdb]⟩
      have hleft : DoesAs d c.clientID
          (s.goto c.clientID (.leaving ⟨user, database', client, op⟩ known)) (.left c.clientID)
          (s.call (s.manager.unregisterClient c.clientID) c.clientID
            (.registering ⟨user, database', client, op⟩ known)) :=
        ⟨.go, by simp [step, goto, call]⟩
      obtain ⟨given', hs', -⟩ := hs.step hdoes.does
      obtain ⟨given'', hs'', -⟩ := hs'.step hleft.does
      have hmode : (s.manager.unregisterClient c.clientID).defaultMode = s.manager.defaultMode :=
        congrArg Prod.fst
          (Manager.acts_perform hs.affine (.unregisterClient c.clientID) trivial).settings
      obtain ⟨es, s', hrun, hidle, hok, herror⟩ := register_alone p wm up hs'' (place_call _ _ _ _)
      refine ⟨_, s', ((Runs.start.step hdoes).step hleft).append hrun, hidle, ?_⟩
      simp only [PoolSystem.call, hmode] at hok herror
      simp only [ne_eq, hdb, not_false_eq_true, if_true]
      cases hreg : (s.manager.unregisterClient c.clientID).registerClient c.clientID user database'
          s.manager.defaultMode with
      | ok m => exact hok m hreg
      | error e => simp [herror e hreg]

end Alone

/-- A client that has connected and sends a query. -/
def annAsking : PoolSystem :=
  ((play plainDriver (start (lit "session") 1) [(ann, .accept), (ann, .go),
    (ann, .request { annSends queryUsers with username := lit "default" })]).map Prod.snd).getD
      (start (lit "session") 1)

theorem roundTripWithPool_alone_ann : ∃ es s', Runs (DoesAs plainDriver ann) annAsking es s' ∧
    (s'.place ann = .idle ∨ s'.place ann = .closing) ∧
    (securedProxy.roundTripWithPool plainDriver annAsking.manager (.new ann) (lit "shop")
      ⟨0, [], none⟩ [] queryUsers calmUpstream).2.1.poolManager = some s'.manager := by
  have hplay : ∃ es, play plainDriver (start (lit "session") 1) [(ann, .accept), (ann, .go),
      (ann, .request { annSends queryUsers with username := lit "default" })] =
        some (es, annAsking) := ⟨_, rfl⟩
  obtain ⟨es, hes⟩ := hplay
  obtain ⟨given, hs⟩ := sound_of_runs (runs_of_play hes)
  exact roundTripWithPool_alone (c := .new ann) securedProxy [] calmUpstream hs rfl rfl

end PoolSystem

end MongoBouncer
