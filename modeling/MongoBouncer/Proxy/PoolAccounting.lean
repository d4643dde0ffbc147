import Mathlib.Data.Set.Card
import MongoBouncer.Proxy.PoolThreads

/-!
# The counters of the pools

The counter of a pool is raised by `Checkout` and lowered by `Return`. It should tell how many
connections of the pool are in a round trip or held by a registered client.

* `Manager.Counted`      : every counter tells how many connections of the pool are in use;
* `PoolSystem.used`      : the connections of a pool in a round trip, or held by a client;
* `PoolSystem.Lost`      : a connection that is in use, but not used;
* `PoolSystem.Event.Leaks` : a return in transaction mode that ends a transaction, of a connection
  that was not got for a transaction.

A connection is lost when it leaks and stays lost, and in no other way (`PoolSystem.lost_iff`), so
the counters are right exactly in the runs without leaks.

Principal result: `PoolSystem.pool_accounting_iff`.
-/

namespace MongoBouncer

open GoStd

namespace Manager

/-! ## Connections in use -/

/-- The connection is in use. -/
def InUse (m : Manager) (conn : ConnRef) : Prop :=
  ∃ c, m.connections conn = some c ∧ c.inUse = true

/-- The connections of a pool that are in use. -/
def inUse (m : Manager) (database : GoString) : Set ConnRef :=
  {conn | (m.connections conn).map (·.pool) = some database ∧ m.InUse conn}

/-- Every counter tells how many connections of the pool are in use. -/
structure Counted (m : Manager) : Prop where
  counter : ∀ database pool, m.pools database = some pool →
    pool.activeConnections = (m.inUse database).ncard
  unused : ∀ database, m.pools database = none → m.inUse database = ∅

section InUse

variable {m m' : Manager} {conn conn' : ConnRef} {database clientID : GoString}
  {given : List (GoString × ConnRef)}

theorem Owns.inUse (h : m.Owns clientID conn) : m.InUse conn := by
  obtain ⟨c, hc, hin, -⟩ := h
  exact ⟨c, hc, hin⟩

theorem inUse_congr (h : m'.connections conn = m.connections conn) :
    m'.InUse conn ↔ m.InUse conn := by
  unfold InUse
  rw [h]

theorem counted_new (mode : GoString) (maxClientConn : Int) :
    (Manager.new mode maxClientConn).Counted where
  counter _ _ h := nomatch h
  unused database _ := by
    apply Set.eq_empty_of_forall_notMem
    rintro conn ⟨h, -⟩
    cases h

theorem Counted.of_eq (h : m.Counted) (hpools : m'.pools = m.pools)
    (hconns : m'.connections = m.connections) : m'.Counted := by
  have hset : m'.inUse = m.inUse := by
    unfold inUse InUse
    rw [hconns]
  refine ⟨?_, ?_⟩
  · rw [hset, hpools]
    exact h.counter
  · rw [hset, hpools]
    exact h.unused

theorem Counted.update {entry : Option ConnectionPool} (h : m.Counted)
    (hpools : m'.pools = Function.update m.pools database entry)
    (hother : ∀ db, db ≠ database → m'.inUse db = m.inUse db)
    (hsome : ∀ pool, entry = some pool → pool.activeConnections = (m'.inUse database).ncard)
    (hnone : entry = none → m'.inUse database = ∅) : m'.Counted := by
  have hpool : ∀ db, m'.pools db = if db = database then entry else m.pools db := by
    intro db
    rw [hpools, Function.update_apply]
  refine ⟨?_, ?_⟩
  · intro db pool hdb
    rw [hpool] at hdb
    split at hdb
    · subst db
      exact hsome pool hdb
    · rename_i hne
      rw [hother db hne]
      exact h.counter db pool hdb
  · intro db hdb
    rw [hpool] at hdb
    split at hdb
    · subst db
      exact hnone hdb
    · rename_i hne
      rw [hother db hne]
      exact h.unused db hdb

theorem connections_putBackOwn_self {c : PooledConnection} (hc : m.connections conn = some c) :
    (m.putBackOwn conn).connections conn =
      some { c with inUse := false, clientID := [], transactionID := [] } := by
  simp [putBackOwn, putBack, hc]

theorem inUse_putBackOwn : (m.putBackOwn conn).InUse conn' ↔ m.InUse conn' ∧ conn' ≠ conn := by
  by_cases h : conn' = conn
  · subst h
    simp only [ne_eq, not_true_eq_false, and_false, iff_false]
    rintro ⟨c, hc, hin⟩
    cases hold : m.connections conn' with
    | none =>
      rw [connections_putBackOwn_eq_none m hold] at hc
      cases hc
    | some c' =>
      rw [connections_putBackOwn_self hold] at hc
      cases hc
      cases hin
  · rw [inUse_congr (connections_putBackOwn_of_ne m h)]
    simp [h]

theorem inUse_release {conns : List ConnRef} :
    (m.release conns).InUse conn ↔ m.InUse conn ∧ conn ∉ conns := by
  induction conns generalizing m with
  | nil => simp [release]
  | cons c conns ih =>
    show ((m.putBackOwn c).release conns).InUse conn ↔ _
    rw [ih, inUse_putBackOwn, List.mem_cons, not_or, and_assoc]

theorem map_pool_putBackOwn : ((m.putBackOwn conn).connections conn').map (·.pool) =
      (m.connections conn').map (·.pool) := by
  by_cases h : conn' = conn
  · subst h
    cases hold : m.connections conn' with
    | none => rw [connections_putBackOwn_eq_none m hold]
    | some c =>
      rw [connections_putBackOwn_self hold]
      rfl
  · rw [connections_putBackOwn_of_ne m h]

theorem finite_inUse (hfresh : ∀ conn, m.next ≤ conn → m.connections conn = none)
    (database : GoString) : (m.inUse database).Finite := by
  apply (Set.finite_lt_nat m.next).subset
  rintro conn ⟨-, c, hc, -⟩
  by_contra hge
  rw [hfresh conn (Nat.le_of_not_lt hge)] at hc
  cases hc

theorem Counted.putBackOwn (h : m.Counted) (hin : m.InUse conn) : (m.putBackOwn conn).Counted := by
  obtain ⟨c, hc, hinuse⟩ := hin
  have hset : ∀ database, (m.putBackOwn conn).inUse database = m.inUse database \ {conn} := by
    intro database
    ext conn'
    simp only [inUse, Set.mem_ofPred_eq, Set.mem_sdiff, Set.mem_singleton_iff, inUse_putBackOwn,
      map_pool_putBackOwn, and_assoc]
  have hpools : (m.putBackOwn conn).pools = Function.update m.pools c.pool
      ((m.pools c.pool).map fun p => { p with activeConnections := p.activeConnections - 1 }) := by
    simp [Manager.putBackOwn, putBack, hc]
  have hmem : conn ∈ m.inUse c.pool := ⟨by rw [hc]; rfl, c, hc, hinuse⟩
  refine h.update hpools ?_ ?_ ?_
  · intro database hne
    rw [hset]
    apply Set.sdiff_singleton_eq_self
    rintro ⟨hpool, -⟩
    rw [hc, Option.map_some, Option.some.injEq] at hpool
    exact hne hpool.symm
  · intro pool hpool
    obtain ⟨p, hp, rfl⟩ := Option.map_eq_some_iff.mp hpool
    rw [hset, Set.ncard_sdiff_singleton_of_mem hmem, ← h.counter c.pool p hp]
  · intro hnone
    rw [hset, h.unused c.pool (Option.map_eq_none_iff.mp hnone)]
    exact Set.empty_sdiff _

theorem Counted.checkout (h : m.Counted)
    (hfresh : ∀ conn, m.next ≤ conn → m.connections conn = none)
    (hsome : m.pools database ≠ none) (mongoClient : MongoClient) (tag : GoString) :
    (m.checkout database mongoClient clientID tag).2.Counted := by
  obtain ⟨pool, hpool⟩ := Option.ne_none_iff_exists'.mp hsome
  have hnext : m.next ∉ m.inUse database := by
    rintro ⟨-, c, hc, -⟩
    rw [hfresh m.next (Nat.le_refl _)] at hc
    cases hc
  have hset : ∀ db, (m.checkout database mongoClient clientID tag).2.inUse db =
      if db = database then insert m.next (m.inUse db) else m.inUse db := by
    intro db
    ext conn
    simp only [inUse, InUse, Set.mem_ofPred_eq, connections_checkout]
    by_cases hconn : conn = m.next
    · subst hconn
      by_cases hdb : db = database
      · simp [hdb]
      · simp [hdb, hfresh m.next (Nat.le_refl _), Ne.symm hdb]
    · by_cases hdb : db = database
      · simp [hconn, hdb]
      · simp [hconn, hdb]
  refine h.update rfl (fun db hdb => by rw [hset, if_neg hdb]) ?_ ?_
  · rw [hpool]
    rintro _ ⟨⟩
    rw [hset, if_pos rfl, Set.ncard_insert_of_notMem hnext (finite_inUse hfresh database),
      ← h.counter database pool hpool]
  · intro hnone
    rw [hpool] at hnone
    cases hnone

theorem Counted.getPool (h : m.Counted) (mongoClient : MongoClient) (mode : PoolMode) :
    (m.getPool database mongoClient mode).2.Counted := by
  have hset : (m.getPool database mongoClient mode).2.inUse = m.inUse := by
    unfold inUse InUse
    rw [connections_getPool]
  unfold Manager.getPool at hset ⊢
  split at hset
  · exact h
  · rename_i hnone
    refine h.update rfl (fun db _ => congrFun hset db) ?_ nofun
    rintro _ ⟨⟩
    rw [hset, h.unused database hnone, Set.ncard_empty]

theorem Counted.release {conns : List ConnRef} (h : m.Counted) (hnodup : conns.Nodup)
    (hin : ∀ conn ∈ conns, m.InUse conn) : (m.release conns).Counted := by
  induction conns generalizing m with
  | nil => exact h
  | cons c conns ih =>
    rw [List.nodup_cons] at hnodup
    refine ih (h.putBackOwn (hin c List.mem_cons_self)) hnodup.2 ?_
    intro conn hmem
    rw [inUse_putBackOwn]
    exact ⟨hin conn (List.mem_cons_of_mem _ hmem), fun heq => hnodup.1 (heq ▸ hmem)⟩

theorem pools_putBack_ne_none {db : GoString} (h : m.pools db ≠ none) :
    (m.putBack database conn).pools db ≠ none := by
  unfold putBack
  split
  · exact h
  · split
    · exact h
    · by_cases hdb : db = database
      · subst hdb
        simpa using h
      · simpa [hdb] using h

theorem pools_getPool (m : Manager) (database : GoString) (mongoClient : MongoClient)
    (mode : PoolMode) : (m.getPool database mongoClient mode).2.pools database =
      some (m.getPool database mongoClient mode).1 := by
  unfold Manager.getPool
  split
  · assumption
  · simp

theorem next_returnConnection (m : Manager) (clientID : GoString) (conn : ConnRef)
    (isEndOfTransaction : Bool) :
    (m.returnConnection clientID conn isEndOfTransaction).next = m.next := by
  unfold returnConnection
  split
  · exact next_putBackOwn m
  · split
    · split
      · exact next_putBackOwn m
      · rfl
    · split
      · exact next_putBackOwn m
      · split
        · exact next_putBackOwn m
        · rfl
    · exact next_putBackOwn m

end InUse

end Manager

namespace PoolSystem

/-! ## Connections that are used -/

/-- The connection of client `k` is in a round trip on the pooled connection, or holds it. -/
def Uses (s : PoolSystem) (k : GoString) (conn : ConnRef) : Prop :=
  (∃ r, s.place k = .flying r conn) ∨
    ∃ client, s.manager.getClient k = some client ∧ conn ∈ client.held

/-- The connections of a pool that are in a round trip or held by a registered client. -/
def used (s : PoolSystem) (database : GoString) : Set ConnRef :=
  {conn | (s.manager.connections conn).map (·.pool) = some database ∧ ∃ k, s.Uses k conn}

/-- The connection is in use, but nobody uses it. -/
def Lost (s : PoolSystem) (conn : ConnRef) : Prop :=
  s.manager.InUse conn ∧ ∀ k, ¬ s.Uses k conn

/-- A return in transaction mode that should end a transaction, of a connection that was not got
for one. -/
def Event.Leaks (d : Driver) (mode : PoolMode) (conn : ConnRef) : Event → Prop
  | .returned _ r conn' => conn' = conn ∧ mode = .transaction ∧ r.isEnd d = true ∧
      r.isTransaction d = false
  | _ => False

section Lost

variable {d : Driver} {s s' : PoolSystem} {k : GoString} {e : Event}
  {given : List (GoString × ConnRef)} {conn : ConnRef} {m : Manager} {p : Place}

theorem Sound.given_of_uses (h : s.Sound d given) (hu : s.Uses k conn) : (k, conn) ∈ given := by
  rcases hu with ⟨r, hp⟩ | ⟨client, hc, hmem⟩
  · have hplace := h.places k
    rw [hp] at hplace
    exact hplace.1
  · exact (h.affine.clients k client hc).given conn hmem

theorem Sound.inUse_of_uses (h : s.Sound d given) (hu : s.Uses k conn) : s.manager.InUse conn := by
  rcases hu with ⟨r, hp⟩ | ⟨client, hc, hmem⟩
  · have hplace := h.places k
    rw [hp] at hplace
    obtain ⟨-, client, -, hf⟩ := hplace
    exact hf.owned.inUse
  · exact ((h.affine.clients k client hc).owned conn hmem).inUse

theorem Sound.lost_of_given (h : s.Sound d given) (hgiven : (k, conn) ∈ given) :
    s.Lost conn ↔ s.manager.InUse conn ∧ ¬ s.Uses k conn := by
  constructor
  · rintro ⟨hin, hunused⟩
    exact ⟨hin, hunused k⟩
  · rintro ⟨hin, hunused⟩
    refine ⟨hin, ?_⟩
    intro k' hu
    rw [h.affine.once k' k conn (h.given_of_uses hu) hgiven] at hu
    exact hunused hu

theorem uses_of_not_flying (hp : ∀ r conn, s.place k ≠ .flying r conn) :
    s.Uses k conn ↔ ∃ client, s.manager.getClient k = some client ∧ conn ∈ client.held := by
  constructor
  · rintro (⟨r, hr⟩ | hheld)
    · exact absurd hr (hp r conn)
    · exact hheld
  · exact Or.inr

/-- A step after which the same connections are in use and held, from and to a place without a
round trip. -/
theorem lost_of_same (hconns : m.connections = s.manager.connections)
    (hheld : ∀ k', (∃ client, m.getClient k' = some client ∧ conn ∈ client.held) ↔
      ∃ client, s.manager.getClient k' = some client ∧ conn ∈ client.held)
    (hp : ∀ r conn, s.place k ≠ .flying r conn) (hp' : ∀ r conn, p ≠ .flying r conn) :
    (s.call m k p).Lost conn ↔ s.Lost conn := by
  have huses : ∀ k', (s.call m k p).Uses k' conn ↔ s.Uses k' conn := by
    intro k'
    by_cases hk : k' = k
    · subst hk
      rw [uses_of_not_flying hp, uses_of_not_flying (by rw [place_call]; exact hp')]
      exact hheld k'
    · unfold Uses
      rw [show (s.call m k p).place k' = s.place k' from Function.update_of_ne hk _ _]
      exact or_congr_right (hheld k')
  unfold Lost
  simp only [huses]
  exact and_congr_left fun _ => Manager.inUse_congr (congrFun hconns conn)

theorem lost_goto (hp : ∀ r conn, s.place k ≠ .flying r conn)
    (hp' : ∀ r conn, p ≠ .flying r conn) : (s.goto k p).Lost conn ↔ s.Lost conn :=
  lost_of_same (m := s.manager) rfl (fun _ => Iff.rfl) hp hp'

theorem lost_call (h : s.Sound d given) (c : Manager.Call) (leaks : ConnRef → Prop)
    (conn : ConnRef) (hcaller : c.caller = k) (hproper : c.Proper given)
    (hm : (s.manager.perform c).1 = m) {given' : List (GoString × ConnRef)}
    (h' : (s.call m k p).Sound d given') (hext : Extends s.manager given given')
    (hleaks : ∀ conn, leaks conn → (k, conn) ∈ given)
    (hnew : ∀ conn, s.manager.next ≤ conn → conn < m.next → (s.call m k p).Uses k conn)
    (hown : ∀ conn, (k, conn) ∈ given → ((m.InUse conn ∧ ¬ (s.call m k p).Uses k conn) ↔
      (s.manager.InUse conn ∧ ¬ s.Uses k conn) ∨ leaks conn)) :
    (s.call m k p).Lost conn ↔ s.Lost conn ∨ leaks conn := by
  subst hm
  have hacts := Manager.acts_perform h.affine c hproper
  by_cases hgiven : (k, conn) ∈ given
  · rw [h'.lost_of_given (hext.old hgiven), h.lost_of_given hgiven]
    exact hown conn hgiven
  · have hnoleak : ¬ leaks conn := fun hl => hgiven (hleaks conn hl)
    by_cases hlt : conn < s.manager.next
    · -- neither the connection nor what the others use changes
      have hconn : (s.manager.perform c).1.connections conn = s.manager.connections conn :=
        hacts.untouched conn hlt (by rw [hcaller]; exact hgiven)
      have huses : ∀ k', (s.call (s.manager.perform c).1 k p).Uses k' conn ↔ s.Uses k' conn := by
        intro k'
        by_cases hk : k' = k
        · subst hk
          constructor
          · intro hu
            rcases hext.new k' conn (h'.given_of_uses hu) with hold | hge
            · exact absurd hold hgiven
            · exact absurd hlt (Nat.not_lt.mpr hge)
          · intro hu
            exact absurd (h.given_of_uses hu) hgiven
        · unfold Uses
          rw [show (s.call (s.manager.perform c).1 k p).place k' = s.place k' from
              Function.update_of_ne hk _ _,
            show (s.call (s.manager.perform c).1 k p).manager.getClient k' =
              s.manager.getClient k' from hacts.others k' (hcaller ▸ hk)]
      unfold Lost
      simp only [huses, hnoleak, or_false]
      exact and_congr_left fun _ => Manager.inUse_congr hconn
    · -- a connection that did not exist before
      have hge : s.manager.next ≤ conn := Nat.le_of_not_lt hlt
      have hnot : ¬ s.Lost conn := by
        rintro ⟨⟨c', hc', -⟩, -⟩
        rw [h.affine.fresh conn hge] at hc'
        cases hc'
      simp only [hnot, hnoleak, or_self, iff_false]
      rintro ⟨⟨c', hc', -⟩, hunused⟩
      by_cases hlt' : conn < (s.manager.perform c).1.next
      · exact hunused k (hnew conn hge hlt')
      · have hnone := h'.affine.fresh conn (Nat.le_of_not_lt hlt')
        rw [hc'] at hnone
        cases hnone

/-- A client that unregisters, and is in no round trip, puts back all it uses. -/
theorem lost_unregister (h : s.Sound d given) (hp : ∀ r conn, s.place k ≠ .flying r conn)
    (hp' : ∀ r conn, p ≠ .flying r conn) {given' : List (GoString × ConnRef)}
    (h' : (s.call (s.manager.unregisterClient k) k p).Sound d given')
    (hext : Extends s.manager given given') :
    (s.call (s.manager.unregisterClient k) k p).Lost conn ↔ s.Lost conn := by
  have hnext : (s.manager.unregisterClient k).next = s.manager.next := by
    cases hc : s.manager.getClient k with
    | none => simp [Manager.unregisterClient, hc]
    | some client =>
      rw [Manager.unregisterClient_eq _ hc]
      exact Manager.next_release _
  have hunused : ∀ conn, ¬ (s.call (s.manager.unregisterClient k) k p).Uses k conn := by
    intro conn
    rw [uses_of_not_flying (by rw [place_call]; exact hp')]
    rintro ⟨client, hc, -⟩
    rw [show (s.call (s.manager.unregisterClient k) k p).manager =
      s.manager.unregisterClient k from rfl, Manager.getClient_unregisterClient] at hc
    cases hc
  have hlost : (s.call (s.manager.unregisterClient k) k p).Lost conn ↔ s.Lost conn ∨ False := by
    refine lost_call h (.unregisterClient k) (fun _ => False) conn rfl trivial rfl h' hext
      (fun _ hl => hl.elim) ?_ ?_
    · intro conn hge hlt
      rw [hnext] at hlt
      exact absurd hlt (Nat.not_lt.mpr hge)
    · intro conn _
      rw [or_false, uses_of_not_flying hp]
      simp only [hunused conn, not_false_eq_true, and_true]
      cases hc : s.manager.getClient k with
      | none => simp [Manager.unregisterClient, hc]
      | some client =>
        rw [Manager.unregisterClient_eq _ hc]
        show (s.manager.release client.held).InUse conn ↔ _
        rw [Manager.inUse_release]
        simp
  rw [hlost, or_false]

variable {database tag : GoString} {client : ClientConnection} {r : PoolRequest}

theorem lost_register {username : GoString}
    (hm : s.manager.registerClient k username database s.manager.defaultMode = .ok m)
    (hp : ∀ r conn, s.place k ≠ .flying r conn) (hp' : ∀ r conn, p ≠ .flying r conn) :
    (s.call m k p).Lost conn ↔ s.Lost conn := by
  rcases Manager.registerClient_cases hm with ⟨-, rfl⟩ | ⟨hnone, rfl⟩
  · exact lost_goto hp hp'
  · refine lost_of_same rfl ?_ hp hp'
    intro k'
    rw [Manager.getClient_setClient]
    split
    · subst k'
      simp [hnone, ClientConnection.held]
    · rfl

/-- What a client has after `GetConnection`, against what it had: it keeps what it held, or puts it
back, and what it got is new or was held. -/
structure Took (m m' : Manager) (client client' : ClientConnection) (conn : ConnRef) : Prop where
  kept : ∀ c : Nat, c < m.next → (m'.InUse c ↔ m.InUse c ∧ (c ∈ client.held → c ∈ client'.held))
  mine : ∀ c : Nat, c < m.next → c = conn ∨ c ∈ client'.held → c ∈ client.held
  new : ∀ c : Nat, ¬ c < m.next → c < m'.next → c = conn

theorem putBack_eq_putBackOwn (hpool : (m.connections conn).map (·.pool) = some database) :
    m.putBack database conn = m.putBackOwn conn := by
  unfold Manager.putBackOwn
  cases hc : m.connections conn with
  | none =>
    rw [hc] at hpool
    cases hpool
  | some c =>
    rw [hc] at hpool
    cases hpool
    rfl

theorem inUse_checkout_of_lt {mongoClient : MongoClient} {c : ConnRef} (hlt : c < m.next) :
    (m.checkout database mongoClient k tag).2.InUse c ↔ m.InUse c :=
  Manager.inUse_congr (Manager.connections_checkout_of_given hlt)

theorem Took.held (hmem : conn ∈ client.held) : Took m m client client conn where
  kept c _ := by simp
  mine c _ hc := by
    rcases hc with rfl | hc
    · exact hmem
    · exact hc
  new c hge hlt := absurd hlt hge

theorem Took.checkout {m₁ : Manager} {mongoClient : MongoClient}
    {client' : ClientConnection} (hnext : m₁.next = m.next) (hheld : client'.held = [m₁.next])
    (hback : ∀ c : Nat, c < m.next → (m₁.InUse c ↔ m.InUse c ∧ c ∉ client.held)) :
    Took m ((m₁.checkout database mongoClient k tag).2.setClient k client') client client'
      m₁.next where
  kept c hlt := by
    show (m₁.checkout database mongoClient k tag).2.InUse c ↔ _
    have hne : c ≠ m.next := Nat.ne_of_lt hlt
    rw [inUse_checkout_of_lt (by rw [hnext]; exact hlt), hback c hlt, hheld, hnext]
    simp [hne]
  mine c hlt hc := by
    simp only [hheld, hnext, List.mem_singleton, or_self] at hc
    exact absurd hlt (Nat.not_lt_of_ge (Nat.le_of_eq hc.symm))
  new c hge hlt := by
    rw [← hnext] at hge
    exact Nat.le_antisymm (Nat.le_of_lt_succ hlt) (Nat.le_of_not_lt hge)

theorem took_of_got {m' : Manager} {pool : ConnectionPool} (haff : m.Affine given)
    (hc : m.getClient k = some client) (hdb : client.database = r.database)
    (hen : Enrolled m client)
    (hg : Manager.Got m k r.database pool client (r.isTransaction d) tag conn m') :
    ∃ client', m'.getClient k = some client' ∧ Took m m' client client' conn := by
  have hfits := (haff.clients k client hc).fits
  unfold Manager.FitsMode at hfits
  cases hg with
  | assigned _ hconn | pinned _ _ hconn =>
    exact ⟨client, hc, .held (by simp [ClientConnection.held, hconn])⟩
  | assign hmode hconn =>
    simp only [hmode] at hfits
    refine ⟨{ client with assignedConn := some m.next },
      by rw [Manager.getClient_setClient, if_pos rfl], .checkout rfl ?_ ?_⟩
    · simp [ClientConnection.held, hfits]
    · simp [ClientConnection.held, hconn, hfits]
  | pin hmode htx hconn =>
    simp only [hmode] at hfits
    refine ⟨{ client with transactionConn := some m.next },
      by rw [Manager.getClient_setClient, if_pos rfl], .checkout rfl ?_ ?_⟩
    · simp [ClientConnection.held, hfits]
    · simp [ClientConnection.held, hconn, hfits]
  | repin hmode htx hconn htag =>
    rename_i old
    simp only [hmode] at hfits
    have hown : m.putBack r.database old = m.putBackOwn old :=
      putBack_eq_putBackOwn (by
        rw [← hdb]
        exact hen.pools old (by simp [ClientConnection.held, hconn]))
    refine ⟨{ client with transactionConn := some (m.putBack r.database old).next },
      by rw [Manager.getClient_setClient, if_pos rfl],
      .checkout (Manager.next_putBack m _ _) ?_ ?_⟩
    · simp [ClientConnection.held, hfits]
    · intro c _
      rw [hown, Manager.inUse_putBackOwn]
      simp [ClientConnection.held, hconn, hfits]
  | temporary htemp =>
    refine ⟨client, by rw [Manager.getClient_checkout, hc], ?_, ?_, ?_⟩
    · intro c hlt
      simp [inUse_checkout_of_lt hlt]
    · rintro c hlt (rfl | hc')
      · omega
      · exact hc'
    · intro c hge hlt
      have hlt' : c < Nat.succ m.next := hlt
      omega

/-- What becomes of the connection that a client returns: the client goes on holding it, or it is
put back, or it leaks. -/
theorem returned_cases (hc : m.getClient k = some client) (hfits : Manager.FitsMode client)
    (hf : Flies d m k r conn client) (hmode : client.poolMode = m.defaultMode) :
    (m.returnConnection k conn (r.isEnd d) = m ∧ conn ∈ client.held ∧
        ¬ (Event.returned k r conn).Leaks d m.defaultMode conn) ∨
      ((m.returnConnection k conn (r.isEnd d)).pools = (m.putBackOwn conn).pools ∧
        (m.returnConnection k conn (r.isEnd d)).connections = (m.putBackOwn conn).connections ∧
        (∃ client', (m.returnConnection k conn (r.isEnd d)).getClient k = some client' ∧
          ∀ c, c ∈ client'.held ↔ c ∈ client.held ∧ c ≠ conn) ∧
        ¬ (Event.returned k r conn).Leaks d m.defaultMode conn) ∨
      (m.returnConnection k conn (r.isEnd d) = m ∧ conn ∉ client.held ∧
        (Event.returned k r conn).Leaks d m.defaultMode conn) := by
  unfold Manager.FitsMode at hfits
  -- a connection that the client does not hold and puts back
  have hback : conn ∉ client.held → ∃ client', (m.putBackOwn conn).getClient k = some client' ∧
      ∀ c, c ∈ client'.held ↔ c ∈ client.held ∧ c ≠ conn := by
    intro hnot
    refine ⟨client, by rw [Manager.getClient_putBackOwn, hc], ?_⟩
    intro c
    constructor
    · intro hmem
      exact ⟨hmem, fun heq => hnot (heq ▸ hmem)⟩
    · exact And.left
  unfold Event.Leaks Manager.returnConnection
  rw [hc, ← hmode]
  simp only
  cases hpm : client.poolMode with
  | session =>
    have hassigned := hf.session hpm
    refine Or.inl ⟨?_, ?_, ?_⟩
    · simp [hassigned]
    · simp [ClientConnection.held, hassigned]
    · simp
  | statement =>
    simp only [hpm] at hfits
    refine Or.inr (Or.inl ⟨rfl, rfl, hback ?_, ?_⟩)
    · simp [ClientConnection.held, hfits.1, hfits.2]
    · simp
  | transaction =>
    simp only [hpm] at hfits
    have htx := hf.transaction hpm
    cases hend : r.isEnd d with
    | true =>
      by_cases hconn : client.transactionConn = some conn
      · refine Or.inr (Or.inl ?_)
        simp only [hconn, and_self, if_true]
        refine ⟨rfl, rfl, ⟨{ client with transactionConn := none }, ?_, ?_⟩, ?_⟩
        · rw [Manager.getClient_setClient, if_pos rfl, hpm]
        · simp [ClientConnection.held, hfits, hconn]
        · simp [htx.mp hconn]
      · refine Or.inr (Or.inr ⟨?_, ?_, ?_⟩)
        · simp [hconn]
        · simpa [ClientConnection.held, hfits] using hconn
        · have hnot : ¬ r.isTransaction d = true := fun h => hconn (htx.mpr h)
          simpa using hnot
    | false =>
      by_cases hconn : client.transactionConn = some conn
      · refine Or.inl ⟨?_, ?_, ?_⟩
        · simp [hconn]
        · simp [ClientConnection.held, hconn]
        · simp
      · refine Or.inr (Or.inl ?_)
        have hne : some conn ≠ client.transactionConn := fun h => hconn h.symm
        simp only [hconn, Bool.false_eq_true, false_and, if_false, not_false_eq_true, hne, ne_eq,
          and_self, if_true]
        refine ⟨trivial, trivial, hback ?_, ?_⟩
        · simpa [ClientConnection.held, hfits] using hconn
        · simp

/-- **A step loses the connection that leaks in it, and no other.** -/
theorem lost_step (h : s.Sound d given) (hd : Does d s e s') (conn : ConnRef) :
    s'.Lost conn ↔ s.Lost conn ∨ e.Leaks d s.manager.defaultMode conn := by
  obtain ⟨given', h', hext⟩ := h.step hd
  obtain ⟨k, hmove⟩ := does_cases hd
  have hgoto : ∀ {p}, (∀ r conn, s.place k ≠ .flying r conn) → (∀ r conn, p ≠ .flying r conn) →
      ((s.goto k p).Lost conn ↔ s.Lost conn ∨ False) := by
    intro p hp hp'
    rw [lost_goto hp hp', or_false]
  cases hmove with
  | accepted hp | turnedAway hp | requested hp | hungUp hp | unknown hp | elsewhere hp | here hp
  | refused hp | unserved hp => exact hgoto (by simp [hp]) (by simp)
  | enrolled hp hm | registered hp hm =>
    rw [lost_register hm (by simp [hp]) (by simp)]
    simp [Event.Leaks]
  | passedThrough hp => exact (or_false _).symm ▸ Iff.rfl
  | left hp =>
    rw [lost_unregister h (by simp [hp]) (by simp) h' hext]
    simp [Event.Leaks]
  | got hp hm =>
    rename_i r conn₁ m
    have hplace := h.places k
    rw [hp] at hplace
    obtain ⟨client, hc, hdb⟩ := hplace
    obtain ⟨client₀, hc₀, hg⟩ := Manager.got_of_getConnection hm
    rw [hc] at hc₀
    cases hc₀
    obtain ⟨client', hc', htook⟩ := took_of_got
      (h.affine.getPool r.database r.mongoClient client.poolMode)
      (by rw [Manager.getClient_getPool, hc]) hdb
      ((h.enrolled k client hc).getPool _ _ _) hg
    have hperform : (s.manager.perform (.getConnection k r.database r.mongoClient
        (r.isTransaction d) (Proxy.transactionID d r.op))).1 = m := by
      simp [Manager.perform, hm]
    have h'' : (s.call m k (.flying r conn₁)).Sound d given' := ⟨h'.affine, h'.enrolled, h'.places⟩
    have huses : ∀ c, (s.call m k (.flying r conn₁)).Uses k c ↔ c = conn₁ ∨ c ∈ client'.held := by
      intro c
      unfold Uses
      rw [place_call]
      show (∃ r', Place.flying r conn₁ = .flying r' c) ∨
        (∃ client, m.getClient k = some client ∧ c ∈ client.held) ↔ _
      simp [hc', eq_comm]
    show (s.call m k (.flying r conn₁)).Lost conn ↔ s.Lost conn ∨ False
    refine lost_call h (.getConnection k r.database r.mongoClient (r.isTransaction d)
      (Proxy.transactionID d r.op)) (fun _ => False) conn rfl trivial hperform h'' hext
      (fun _ hl => hl.elim) ?_ ?_
    · intro c hge hlt
      apply (huses c).mpr
      refine Or.inl (htook.new c ?_ hlt)
      rw [Manager.next_getPool]
      exact Nat.not_lt.mpr hge
    · intro c hgiven
      have hlt := h.affine.bound k c hgiven
      have hkept := htook.kept c (by rw [Manager.next_getPool]; exact hlt)
      have hmine := htook.mine c (by rw [Manager.next_getPool]; exact hlt)
      have hsame : (s.manager.getPool r.database r.mongoClient client.poolMode).2.InUse c ↔
          s.manager.InUse c := Manager.inUse_congr (by rw [Manager.connections_getPool])
      rw [or_false, huses, uses_of_not_flying (by simp [hp])]
      simp only [hc, Option.some.injEq, exists_eq_left', hkept, hsame]
      constructor
      · rintro ⟨⟨hin, himp⟩, hnot⟩
        exact ⟨hin, fun hmem => hnot (Or.inr (himp hmem))⟩
      · rintro ⟨hin, hnot⟩
        exact ⟨⟨hin, fun hmem => absurd hmem hnot⟩, fun hor => hnot (hmine hor)⟩
  | returned hp kept =>
    rename_i r conn₁
    have hplace := h.places k
    rw [hp] at hplace
    obtain ⟨hgiven, client, hc, hf⟩ := hplace
    have hcases := returned_cases hc (h.affine.clients k client hc).fits hf
      (h.enrolled k client hc).mode
    have hp' : ∀ r' conn', (if kept then Place.idle else .closing) ≠ .flying r' conn' := by
      cases kept <;> simp
    have huses : ∀ c, s.Uses k c ↔ c = conn₁ ∨ c ∈ client.held := by
      intro c
      unfold Uses
      simp [hp, hc, eq_comm]
    have hleaks : ∀ c, (Event.returned k r conn₁).Leaks d s.manager.defaultMode c ↔ c = conn₁ ∧
        (Event.returned k r conn₁).Leaks d s.manager.defaultMode conn₁ := by
      intro c
      constructor
      · rintro ⟨heq, hl⟩
        exact ⟨heq.symm, rfl, hl⟩
      · rintro ⟨heq, -, hl⟩
        exact ⟨heq.symm, hl⟩
    refine lost_call h (.returnConnection k conn₁ (r.isEnd d))
      ((Event.returned k r conn₁).Leaks d s.manager.defaultMode) conn rfl hgiven rfl h' hext ?_ ?_ ?_
    · intro c hl
      rw [hl.1] at hgiven
      exact hgiven
    · intro c hge hlt
      rw [Manager.next_returnConnection] at hlt
      exact absurd hlt (Nat.not_lt.mpr hge)
    · intro c _
      rw [huses, uses_of_not_flying (by rw [place_call]; exact hp'), hleaks c]
      show (s.manager.returnConnection k conn₁ (r.isEnd d)).InUse c ∧
        ¬ (∃ client, (s.manager.returnConnection k conn₁ (r.isEnd d)).getClient k = some client ∧
          c ∈ client.held) ↔ _
      rcases hcases with ⟨hsame, hmem, hnoleak⟩ | ⟨-, hconns, ⟨client', hc', hheld⟩, hnoleak⟩ |
        ⟨hsame, hmem, hleak⟩
      · simp only [hsame, hc, Option.some.injEq, exists_eq_left', hnoleak, and_false, or_false]
        have himp : c = conn₁ → c ∈ client.held := fun heq => heq ▸ hmem
        tauto
      · have hin : (s.manager.returnConnection k conn₁ (r.isEnd d)).InUse c ↔
            s.manager.InUse c ∧ c ≠ conn₁ := by
          rw [← Manager.inUse_putBackOwn]
          exact Manager.inUse_congr (by rw [hconns])
        simp only [hin, hc', Option.some.injEq, exists_eq_left', hheld, hnoleak, and_false, or_false]
        tauto
      · simp only [hsame, hc, Option.some.injEq, exists_eq_left', hleak, and_true]
        have hin : c = conn₁ → s.manager.InUse c := fun heq => heq ▸ hf.owned.inUse
        have hnot : c = conn₁ → c ∉ client.held := fun heq => heq ▸ hmem
        tauto
  | closed hp =>
    have h'' : (s.call (s.manager.unregisterClient k) k .closed).Sound d given' :=
      ⟨h'.affine, h'.enrolled, h'.places⟩
    show (s.call (s.manager.unregisterClient k) k .closed).Lost conn ↔ _
    rw [lost_unregister h (by simp [hp]) (by simp) h'' hext]
    simp [Event.Leaks]

theorem nodup_held (h : Manager.FitsMode client) : client.held.Nodup := by
  unfold Manager.FitsMode at h
  unfold ClientConnection.held
  cases hpm : client.poolMode <;> simp only [hpm] at h
  · cases client.assignedConn <;> simp [h]
  · cases client.transactionConn <;> simp [h]
  · simp [h.1, h.2]

theorem counted_unregister (h : s.Sound d given) (hcounted : s.manager.Counted) :
    (s.manager.unregisterClient k).Counted := by
  cases hc : s.manager.getClient k with
  | none => simpa [Manager.unregisterClient, hc] using hcounted
  | some client =>
    have hholder := h.affine.clients k client hc
    rw [Manager.unregisterClient_eq _ hc]
    refine (hcounted.release (nodup_held hholder.fits) ?_).of_eq rfl rfl
    intro conn hmem
    exact (hholder.owned conn hmem).inUse

theorem counted_register {username : GoString} (hcounted : s.manager.Counted)
    (hm : s.manager.registerClient k username database s.manager.defaultMode = .ok m) :
    m.Counted := by
  rcases Manager.registerClient_cases hm with ⟨-, rfl⟩ | ⟨-, rfl⟩
  · exact hcounted
  · exact hcounted.of_eq rfl rfl

theorem counted_got {m' : Manager} {pool : ConnectionPool} (haff : m.Affine given)
    (hcounted : m.Counted) (hpool : m.pools r.database ≠ none)
    (hc : m.getClient k = some client) (hdb : client.database = r.database)
    (hen : Enrolled m client)
    (hg : Manager.Got m k r.database pool client (r.isTransaction d) tag conn m') : m'.Counted := by
  cases hg with
  | assigned | pinned => exact hcounted
  | assign | pin => exact (hcounted.checkout haff.fresh hpool _ _).of_eq rfl rfl
  | repin hmode htx hconn htag =>
    rename_i old
    have hmem : old ∈ client.held := by simp [ClientConnection.held, hconn]
    have hin : m.InUse old := ((haff.clients k client hc).owned old hmem).inUse
    have hown : m.putBack r.database old = m.putBackOwn old :=
      putBack_eq_putBackOwn (hdb ▸ hen.pools old hmem)
    have hback : (m.putBack r.database old).Counted := by
      rw [hown]
      exact hcounted.putBackOwn hin
    refine (hback.checkout ?_ (Manager.pools_putBack_ne_none hpool) _ _).of_eq rfl rfl
    intro conn hge
    rw [Manager.next_putBack] at hge
    exact Manager.connections_putBack_eq_none m (haff.fresh conn hge)
  | temporary htemp => exact hcounted.checkout haff.fresh hpool _ _

theorem counted_step (h : s.Sound d given) (hcounted : s.manager.Counted) (hd : Does d s e s') :
    s'.manager.Counted := by
  obtain ⟨k, hmove⟩ := does_cases hd
  have hplace := h.places k
  cases hmove with
  | accepted | turnedAway | requested | passedThrough | hungUp | unknown | elsewhere | here
  | refused | unserved => exact hcounted
  | enrolled _ hm | registered _ hm => exact counted_register hcounted hm
  | left | closed => exact counted_unregister h hcounted
  | got hp hm =>
    rename_i r conn m
    rw [hp] at hplace
    obtain ⟨client, hc, hdb⟩ := hplace
    obtain ⟨client', hc', hg⟩ := Manager.got_of_getConnection hm
    rw [hc] at hc'
    cases hc'
    exact counted_got (h.affine.getPool r.database r.mongoClient client.poolMode)
      (hcounted.getPool _ _) (by simp [Manager.pools_getPool])
      (by rw [Manager.getClient_getPool, hc]) hdb ((h.enrolled k client hc).getPool _ _ _) hg
  | returned hp kept =>
    rename_i r conn
    rw [hp] at hplace
    obtain ⟨-, client, hc, hf⟩ := hplace
    rcases returned_cases hc (h.affine.clients k client hc).fits hf (h.enrolled k client hc).mode with
      ⟨hsame, -⟩ | ⟨hpools, hconns, -⟩ | ⟨hsame, -⟩
    · rw [hsame]
      exact hcounted
    · exact (hcounted.putBackOwn hf.owned.inUse).of_eq hpools hconns
    · rw [hsame]
      exact hcounted

end Lost

/-! ## Whole runs -/

section Runs

variable {d : Driver} {s : PoolSystem} {es : List Event} {mode : GoString} {maxClientConn : Int}

theorem counted_of_runs (h : Runs (Does d) (start mode maxClientConn) es s) :
    s.manager.Counted := by
  have hinv := h.invariant (P := fun s => (∃ given, s.Sound d given) ∧ s.manager.Counted)
    ⟨⟨[], sound_start d mode maxClientConn⟩, Manager.counted_new mode maxClientConn⟩ ?_
  · exact hinv.2
  · rintro s e s' ⟨⟨given, hs⟩, hcounted⟩ he
    obtain ⟨given', hs', -⟩ := hs.step he
    exact ⟨⟨given', hs'⟩, counted_step hs hcounted he⟩

/-- The connections that are lost in a run are those that leaked in it. -/
theorem lost_iff (h : Runs (Does d) (start mode maxClientConn) es s) (conn : ConnRef) :
    s.Lost conn ↔
      ∃ e ∈ es, e.Leaks d (Manager.new mode maxClientConn).defaultMode conn := by
  induction h with
  | start =>
    simp only [List.not_mem_nil, false_and, exists_false, iff_false]
    rintro ⟨⟨c, hc, -⟩, -⟩
    cases hc
  | step h he ih =>
    obtain ⟨given, hs⟩ := sound_of_runs h
    have hmode := congrArg Prod.fst (settings_of_runs h)
    simp only [Manager.settings] at hmode
    rw [lost_step hs he conn, ih, hmode]
    simp only [List.mem_append, List.mem_singleton, or_and_right, exists_or, exists_eq_left]

end Runs

/-- **The counter of every pool tells how many of its connections are in a round trip or held by a
registered client, exactly in the runs without leaks**; in those it is 0 once every connection is
closed. -/
theorem pool_accounting_iff {d : Driver} {mode : GoString} {maxClientConn : Int}
    {es : List Event} {s : PoolSystem}
    (h : Runs (Does d) (start mode maxClientConn) es s) :
    ((∀ database pool, s.manager.pools database = some pool →
        pool.activeConnections = (s.used database).ncard) ↔
      ∀ e ∈ es, ∀ conn, ¬ e.Leaks d (Manager.new mode maxClientConn).defaultMode conn) ∧
    ((∀ k, s.place k = .closed) →
      (∀ e ∈ es, ∀ conn, ¬ e.Leaks d (Manager.new mode maxClientConn).defaultMode conn) →
      ∀ database pool, s.manager.pools database = some pool → pool.activeConnections = 0) := by
  obtain ⟨given, hs⟩ := sound_of_runs h
  have hcounted := counted_of_runs h
  have hsub : ∀ database, s.used database ⊆ s.manager.inUse database := by
    rintro database conn ⟨hpool, k, hu⟩
    exact ⟨hpool, hs.inUse_of_uses hu⟩
  have hiff : (∀ database pool, s.manager.pools database = some pool →
        pool.activeConnections = (s.used database).ncard) ↔
      ∀ e ∈ es, ∀ conn, ¬ e.Leaks d (Manager.new mode maxClientConn).defaultMode conn := by
    constructor
    · intro hright e he conn hleak
      obtain ⟨⟨c, hc, hin⟩, hunused⟩ := (lost_iff h conn).mpr ⟨e, he, hleak⟩
      have hmem : conn ∈ s.manager.inUse c.pool := ⟨by rw [hc]; rfl, c, hc, hin⟩
      cases hpool : s.manager.pools c.pool with
      | none =>
        rw [hcounted.unused c.pool hpool] at hmem
        cases hmem
      | some pool =>
        -- the lost connection makes the counter too large
        have hlt := Set.ncard_lt_ncard
          (Set.ssubset_iff_subset_ne.mpr ⟨hsub c.pool, fun heq => by
            rw [← heq] at hmem
            obtain ⟨-, k, hu⟩ := hmem
            exact hunused k hu⟩)
          (Manager.finite_inUse hs.affine.fresh c.pool)
        have hcounter := hcounted.counter c.pool pool hpool
        have := hright c.pool pool hpool
        omega
    · intro hnoleak database pool hpool
      rw [hcounted.counter database pool hpool]
      congr 1
      apply Set.Subset.antisymm _ (hsub database)
      rintro conn ⟨hdb, hin⟩
      refine ⟨hdb, ?_⟩
      by_contra hunused
      obtain ⟨e, he, hleak⟩ := (lost_iff h conn).mp ⟨hin, fun k hu => hunused ⟨k, hu⟩⟩
      exact hnoleak e he conn hleak
  refine ⟨hiff, ?_⟩
  intro hclosed hnoleak database pool hpool
  rw [hiff.mpr hnoleak database pool hpool]
  have hempty : s.used database = ∅ := by
    apply Set.eq_empty_of_forall_notMem
    rintro conn ⟨-, k, hu⟩
    rcases hu with ⟨r, hr⟩ | ⟨client, hc, -⟩
    · rw [hclosed k] at hr
      cases hr
    · have hplace := hs.places k
      rw [hclosed k] at hplace
      rw [show s.manager.getClient k = none from hplace] at hc
      cases hc
  rw [hempty, Set.ncard_empty]

/-! ## A visit -/

/-- The client opens a connection, sends one message and closes the connection. -/
def visit (op : Operation) : List (GoString × Input) :=
  [.accept, .go, .request (annSends op), .go, .go, .go, .go, .done true, .hangUp, .go].map (ann, ·)

def visitEvents (op : Operation) : List Event :=
  [.accepted ann, .registered ann false, .requested ann (annSends op), .looked ann, .left ann,
    .registered ann true, .got ann (annSends op) 0, .returned ann (annSends op) 0, .hungUp ann,
    .closed ann]

theorem visit_run (op : Operation) {n : Nat}
    (h : (play plainDriver (start (lit "transaction") 0) (visit op)).map (fun x =>
        (x.1, x.2.place ann, (x.2.manager.pools (lit "shop")).map (·.activeConnections))) =
      some (visitEvents op, .closed, some n)) :
    ∃ s pool, Runs (Does plainDriver) (start (lit "transaction") 0) (visitEvents op) s ∧
      (∀ k, s.place k = .closed) ∧
      s.manager.pools (lit "shop") = some pool ∧ pool.activeConnections = n := by
  obtain ⟨⟨es', s⟩, hplay, hx⟩ := Option.map_eq_some_iff.mp h
  simp only [Prod.mk.injEq] at hx
  obtain ⟨rfl, hplace, hpool⟩ := hx
  obtain ⟨pool, hp, hn⟩ := Option.map_eq_some_iff.mp hpool
  refine ⟨s, pool, runs_of_play hplay, ?_, hp, hn⟩
  intro k
  by_cases hk : k = ann
  · rw [hk]
    exact hplace
  · rw [place_of_play hplay fun i hmem => by simp [visit, hk] at hmem]
    rfl

theorem pool_accounting_iff_query : ∃ s pool,
    Runs (Does plainDriver) (start (lit "transaction") 0) (visitEvents queryUsers) s ∧
      s.manager.pools (lit "shop") = some pool ∧ pool.activeConnections = 0 := by
  obtain ⟨s, pool, hrun, hclosed, hpool, -⟩ := visit_run queryUsers (n := 0) (by decide +kernel)
  refine ⟨s, pool, hrun, hpool, (pool_accounting_iff hrun).2 hclosed ?_ _ _ hpool⟩
  intro e he conn
  have hend : (annSends queryUsers).isEnd plainDriver = false := by decide +kernel
  simp only [visitEvents, List.mem_cons, List.not_mem_nil, or_false] at he
  rcases he with rfl | rfl | rfl | rfl | rfl | rfl | rfl | rfl | rfl | rfl <;>
    simp [Event.Leaks, hend]

/-- An end of sessions, which belongs to no transaction. -/
def endSessions : Operation :=
  Bson.opMsg [("endSessions", .int32 1), ("$db", .string (lit "shop"))]

/-- In transaction mode the connection of an end of sessions is counted for ever. -/
theorem endSessions_leaks : ∃ s pool,
    Runs (Does plainDriver) (start (lit "transaction") 0) (visitEvents endSessions) s ∧
      (∀ k, s.place k = .closed) ∧
      s.manager.pools (lit "shop") = some pool ∧ pool.activeConnections = 1 :=
  visit_run endSessions (by decide +kernel)

end PoolSystem

end MongoBouncer
