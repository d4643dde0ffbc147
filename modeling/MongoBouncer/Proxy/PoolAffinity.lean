import MongoBouncer.Proxy.PoolCalls

/-!
# Which client has which pooled connection

Any number of clients call the pool manager in any order; each returns only connections it was
given.

* `Manager.Affine`        : a connection is given to one client only, and what a client holds was
  given to it, is in use and carries its id;
* `Manager.InTransaction` : a client holds a connection for a transaction;
* `Manager.Call.Ends`     : the calls after which it does so no longer.

A call acts on the client that makes it and on what that client was given, so `Affine` has to be
checked for that client alone (`Manager.Affine.of_acts`).

Principal result: `Manager.pool_mode_affinity`.
-/

namespace MongoBouncer

open GoStd

namespace Manager

/-! ## The invariant -/

/-- The client holds only what its mode provides for. -/
def FitsMode (client : ClientConnection) : Prop :=
  match client.poolMode with
  | .session => client.transactionConn = none
  | .transaction => client.assignedConn = none
  | .statement => client.assignedConn = none ∧ client.transactionConn = none

/-- The connection is in use and carries the id of the client. -/
def Owns (m : Manager) (clientID : GoString) (conn : ConnRef) : Prop :=
  ∃ c, m.connections conn = some c ∧ c.inUse = true ∧ c.clientID = clientID

/-- What a registered client holds fits its mode, was given to it, and is its own. -/
structure Holder (m : Manager) (given : List (GoString × ConnRef)) (clientID : GoString)
    (client : ClientConnection) : Prop where
  fits : FitsMode client
  given : ∀ conn ∈ client.held, (clientID, conn) ∈ given
  owned : ∀ conn ∈ client.held, m.Owns clientID conn

/-- Every connection was given to one client only, and every client is a proper holder. -/
structure Affine (m : Manager) (given : List (GoString × ConnRef)) : Prop where
  fresh : ∀ conn, m.next ≤ conn → m.connections conn = none
  bound : ∀ id conn, (id, conn) ∈ given → conn < m.next
  once : ∀ id id' conn, (id, conn) ∈ given → (id', conn) ∈ given → id = id'
  clients : ∀ id client, m.getClient id = some client → m.Holder given id client

section Invariant

variable {m m' : Manager} {given given' : List (GoString × ConnRef)} {clientID : GoString}
  {client : ClientConnection} {conn : ConnRef}

theorem affine_new (mode : GoString) (maxClientConn : Int) :
    (Manager.new mode maxClientConn).Affine [] where
  fresh _ _ := rfl
  bound _ _ h := nomatch h
  once _ _ _ h := nomatch h
  clients _ _ h := nomatch h

theorem holder_of_held_eq_nil (ha : client.assignedConn = none)
    (ht : client.transactionConn = none) : m.Holder given clientID client := by
  have hheld : client.held = [] := by simp [ClientConnection.held, ha, ht]
  refine ⟨?_, ?_, ?_⟩
  · unfold FitsMode
    split
    · exact ht
    · exact ha
    · exact ⟨ha, ht⟩
  · simp [hheld]
  · simp [hheld]

theorem Holder.of_frame (h : m.Holder given clientID client) (hsub : given ⊆ given')
    (hconn : ∀ conn ∈ client.held, m'.connections conn = m.connections conn) :
    m'.Holder given' clientID client where
  fits := h.fits
  given conn hmem := hsub (h.given conn hmem)
  owned conn hmem := by
    unfold Owns
    rw [hconn conn hmem]
    exact h.owned conn hmem

theorem Affine.of_acts (h : m.Affine given) {r : Option ConnRef}
    (ha : m.Acts m' clientID (fun conn => (clientID, conn) ∈ given) r)
    (hown : ∀ client, m'.getClient clientID = some client →
      m'.Holder (given ++ r.toList.map fun conn => (clientID, conn)) clientID client) :
    m'.Affine (given ++ r.toList.map fun conn => (clientID, conn)) := by
  have hnew : ∀ id conn, (id, conn) ∈ r.toList.map (fun conn => (clientID, conn)) →
      id = clientID ∧ r = some conn := by
    intro id conn hmem
    simp only [List.mem_map, Option.mem_toList, Prod.mk.injEq] at hmem
    obtain ⟨conn', hr, rfl, rfl⟩ := hmem
    exact ⟨rfl, hr⟩
  -- a connection that is given now was not given to anybody else before
  have hold : ∀ id conn, (id, conn) ∈ given → r = some conn → id = clientID := by
    intro id conn hmem hr
    rcases ha.gives conn hr with hmine | ⟨hle, -⟩
    · exact h.once id clientID conn hmem hmine
    · exact absurd (h.bound id conn hmem) (Nat.not_lt.mpr hle)
  refine ⟨ha.fresh h.fresh, ?_, ?_, ?_⟩
  · intro id conn hmem
    rcases List.mem_append.mp hmem with hmem | hmem
    · exact Nat.lt_of_lt_of_le (h.bound id conn hmem) ha.next
    · rcases ha.gives conn (hnew id conn hmem).2 with hmine | ⟨-, hlt⟩
      · exact Nat.lt_of_lt_of_le (h.bound clientID conn hmine) ha.next
      · exact hlt
  · intro id id' conn hmem hmem'
    rcases List.mem_append.mp hmem with h₁ | h₁ <;> rcases List.mem_append.mp hmem' with h₂ | h₂
    · exact h.once id id' conn h₁ h₂
    · obtain ⟨heq, hr⟩ := hnew id' conn h₂
      rw [heq]
      exact hold id conn h₁ hr
    · obtain ⟨heq, hr⟩ := hnew id conn h₁
      rw [heq]
      exact (hold id' conn h₂ hr).symm
    · rw [(hnew id conn h₁).1, (hnew id' conn h₂).1]
  · intro id client hc
    by_cases hid : id = clientID
    · subst hid
      exact hown client hc
    · rw [ha.others id hid] at hc
      have hholder := h.clients id client hc
      apply hholder.of_frame (List.subset_append_left _ _)
      intro conn hmem
      have hgiven := hholder.given conn hmem
      apply ha.untouched conn (h.bound id conn hgiven)
      intro hmine
      exact hid (h.once id clientID conn hgiven hmine)

/-! ### One call -/

/-- The client that `ReturnConnection` finds holds the connection no longer, or did not hold it, or
nothing happens. -/
theorem returnConnection_cases {isEndOfTransaction : Bool} (hc : m.getClient clientID = some client)
    (hfits : FitsMode client) :
    m.returnConnection clientID conn isEndOfTransaction = m ∨ conn ∉ client.held ∧
        m.returnConnection clientID conn isEndOfTransaction = m.putBackOwn conn ∨
      client.poolMode = .transaction ∧ isEndOfTransaction = true ∧
        client.transactionConn = some conn ∧
        m.returnConnection clientID conn isEndOfTransaction =
          (m.putBackOwn conn).setClient clientID { client with transactionConn := none } := by
  unfold returnConnection
  rw [hc]
  unfold FitsMode at hfits
  simp only
  split
  · rename_i hmode
    simp only [hmode] at hfits
    split
    · rename_i hne
      refine Or.inr (Or.inl ⟨?_, rfl⟩)
      simpa [ClientConnection.held, hfits, eq_comm] using hne
    · exact Or.inl rfl
  · rename_i hmode
    simp only [hmode] at hfits
    split
    · rename_i hend
      exact Or.inr (Or.inr ⟨hmode, hend.1, hend.2, rfl⟩)
    · split
      · rename_i hne
        refine Or.inr (Or.inl ⟨?_, rfl⟩)
        simpa [ClientConnection.held, hfits, eq_comm] using hne.2
      · exact Or.inl rfl
  · rename_i hmode
    simp only [hmode] at hfits
    refine Or.inr (Or.inl ⟨?_, rfl⟩)
    simp [ClientConnection.held, hfits.1, hfits.2]

theorem acts_putBackOwn {mine : ConnRef → Prop} (hmine : mine conn) :
    m.Acts (m.putBackOwn conn) clientID mine none := by
  rcases m.putBackOwn_cases conn with hsame | ⟨pool, hpool⟩
  · rw [hsame]
    exact .refl m clientID mine
  · rw [hpool]
    exact acts_putBack hmine

theorem acts_returnConnection (h : m.Affine given) {isEndOfTransaction : Bool}
    (hgiven : (clientID, conn) ∈ given) :
    m.Acts (m.returnConnection clientID conn isEndOfTransaction) clientID
      (fun conn => (clientID, conn) ∈ given) none := by
  have hput : m.Acts (m.putBackOwn conn) clientID (fun conn => (clientID, conn) ∈ given) none :=
    acts_putBackOwn hgiven
  cases hc : m.getClient clientID with
  | none =>
    unfold returnConnection
    rw [hc]
    exact hput
  | some client =>
    rcases returnConnection_cases hc (h.clients clientID client hc).fits with
      hsame | ⟨-, hback⟩ | ⟨-, -, -, hend⟩
    · rw [hsame]
      exact .refl m clientID _
    · rw [hback]
      exact hput
    · rw [hend]
      exact hput.setClient

variable {database transactionID : GoString}

theorem Got.acts {pool : ConnectionPool} {isTransaction : Bool}
    {mine : ConnRef → Prop} (hmine : ∀ conn ∈ client.held, mine conn)
    (hg : Got m clientID database pool client isTransaction transactionID conn m') :
    m.Acts m' clientID mine (some conn) := by
  have hkept : ∀ conn ∈ client.held, m.Acts m clientID mine (some conn) := by
    intro conn hmem
    refine { Acts.refl m clientID mine with gives := ?_ }
    intro conn' hconn'
    cases hconn'
    exact Or.inl (hmine conn hmem)
  cases hg with
  | assigned _ h | pinned _ _ h => exact hkept conn (by simp [ClientConnection.held, h])
  | assign | pin => exact ((Acts.refl m clientID mine).checkout _ _).setClient
  | repin hmode htx h htag =>
    rename_i old
    have hold : mine old := hmine old (by simp [ClientConnection.held, h])
    exact ((acts_putBack hold).checkout _ _).setClient
  | temporary h => exact (Acts.refl m clientID mine).checkout _ _

theorem connections_checkout_of_given {mongoClient : MongoClient} (hbound : conn < m.next) :
    (m.checkout database mongoClient clientID transactionID).2.connections conn =
      m.connections conn := by
  rw [connections_checkout, if_neg (Nat.ne_of_lt hbound)]

theorem holder_of_checkout {mongoClient : MongoClient}
    (hfits : FitsMode client) (hheld : client.held = [m.next]) {client' : ClientConnection}
    (hc : ((m.checkout database mongoClient clientID transactionID).2.setClient clientID
      client).getClient clientID = some client') :
    ((m.checkout database mongoClient clientID transactionID).2.setClient clientID client).Holder
      (given ++ [(clientID, m.next)]) clientID client' := by
  rw [getClient_setClient, if_pos rfl] at hc
  cases hc
  refine ⟨hfits, ?_, ?_⟩
  · intro conn hmem
    rw [hheld, List.mem_singleton] at hmem
    simp [hmem]
  · intro conn hmem
    rw [hheld, List.mem_singleton] at hmem
    refine ⟨{ mongoClient, pool := database, inUse := true, transactionID, clientID }, ?_, rfl, rfl⟩
    show (m.checkout database mongoClient clientID transactionID).2.connections conn = some _
    rw [connections_checkout, if_pos hmem]

theorem Got.holder {pool : ConnectionPool}
    {isTransaction : Bool} (h : m.Affine given) (hc : m.getClient clientID = some client)
    (hg : Got m clientID database pool client isTransaction transactionID conn m')
    {client' : ClientConnection} (hc' : m'.getClient clientID = some client') :
    m'.Holder (given ++ [(clientID, conn)]) clientID client' := by
  have hholder := h.clients clientID client hc
  have hfits := hholder.fits
  unfold FitsMode at hfits
  cases hg with
  | assigned | pinned =>
    rw [hc] at hc'
    cases hc'
    exact hholder.of_frame (List.subset_append_left _ _) fun _ _ => rfl
  | assign hmode | pin hmode | repin hmode =>
    simp only [hmode] at hfits
    refine holder_of_checkout ?_ ?_ hc'
    · simp [FitsMode, hmode, hfits]
    · simp [ClientConnection.held, hfits]
  | temporary hmode =>
    rw [getClient_checkout, hc] at hc'
    cases hc'
    apply hholder.of_frame (List.subset_append_left _ _)
    intro conn hmem
    exact connections_checkout_of_given (h.bound clientID conn (hholder.given conn hmem))

theorem Affine.getPool (h : m.Affine given) (database : GoString) (mongoClient : MongoClient)
    (mode : PoolMode) : (m.getPool database mongoClient mode).2.Affine given := by
  refine ⟨?_, ?_, h.once, ?_⟩
  · rw [connections_getPool, next_getPool]
    exact h.fresh
  · rw [next_getPool]
    exact h.bound
  · intro id client hc
    rw [getClient_getPool] at hc
    apply (h.clients id client hc).of_frame (List.Subset.refl _)
    intro conn _
    rw [connections_getPool]

theorem acts_perform (h : m.Affine given) (c : Call) (hproper : c.Proper given) :
    m.Acts (m.perform c).1 c.caller (fun conn => (c.caller, conn) ∈ given) (m.perform c).2 := by
  cases c with
  | registerClient clientID username database poolMode =>
    simp only [perform, Call.caller]
    split
    · rename_i m' hreg
      rcases registerClient_cases hreg with ⟨-, hsame⟩ | ⟨-, hset⟩
      · rw [hsame]
        exact .refl m clientID _
      · rw [hset]
        exact (Acts.refl m clientID _).setClient
    · exact .refl m clientID _
  | unregisterClient clientID =>
    simp only [perform, Call.caller]
    cases hc : m.getClient clientID with
    | none =>
      unfold Manager.unregisterClient
      rw [hc]
      exact .refl m clientID _
    | some client =>
      have hrel : m.Acts (m.release client.held) clientID (fun conn => (clientID, conn) ∈ given)
          none := acts_release (h.clients clientID client hc).given
      rw [unregisterClient_eq m hc]
      refine { hrel with others := ?_ }
      intro id hid
      rw [← unregisterClient_eq m hc]
      exact getClient_unregisterClient_of_ne m hid
  | getConnection clientID database mongoClient isTransaction transactionID =>
    simp only [perform, Call.caller]
    split
    · rename_i conn m' hget
      obtain ⟨client, hc, hg⟩ := got_of_getConnection hget
      exact (acts_getPool mongoClient client.poolMode).trans
        (hg.acts (h.clients clientID client hc).given)
    · exact .refl m clientID _
  | returnConnection clientID conn isEndOfTransaction =>
    exact acts_returnConnection h hproper

/-- **Every call keeps the invariant.** -/
theorem Affine.perform (h : m.Affine given) (c : Call) (hproper : c.Proper given) :
    (m.perform c).1.Affine
      (given ++ (m.perform c).2.toList.map fun conn => (c.caller, conn)) := by
  apply h.of_acts (acts_perform h c hproper)
  cases c with
  | registerClient clientID username database poolMode =>
    intro client hc
    cases hreg : m.registerClient clientID username database poolMode with
    | ok m' =>
      simp only [Manager.perform, hreg] at hc ⊢
      rcases registerClient_cases hreg with ⟨-, hsame⟩ | ⟨-, hset⟩
      · subst hsame
        simpa [Call.caller] using h.clients clientID client hc
      · subst hset
        simp only [Call.caller, getClient_setClient, if_pos] at hc
        cases hc
        exact holder_of_held_eq_nil rfl rfl
    | error e =>
      simp only [Manager.perform, hreg] at hc ⊢
      simpa [Call.caller] using h.clients clientID client hc
  | unregisterClient clientID =>
    intro client hc
    simp [Manager.perform, Call.caller] at hc
  | getConnection clientID database mongoClient isTransaction transactionID =>
    intro client' hc'
    cases hget : m.getConnection clientID database mongoClient isTransaction transactionID with
    | ok r =>
      simp only [Manager.perform, hget] at hc' ⊢
      obtain ⟨client, hc, hg⟩ := got_of_getConnection hget
      exact hg.holder (h.getPool database mongoClient client.poolMode)
        (by rw [getClient_getPool, hc]) hc'
    | error e =>
      simp only [Manager.perform, hget] at hc' ⊢
      simpa [Call.caller] using h.clients clientID client' hc'
  | returnConnection clientID conn isEndOfTransaction =>
    intro client' hc'
    simp only [Manager.perform, Call.caller, Option.toList_none, List.map_nil,
      List.append_nil] at hc' ⊢
    cases hc : m.getClient clientID with
    | none =>
      unfold Manager.returnConnection at hc'
      simp only [getClient_putBackOwn, hc] at hc'
      cases hc'
    | some client =>
      have hholder := h.clients clientID client hc
      rcases returnConnection_cases hc hholder.fits with
        hsame | ⟨hnot, hback⟩ | ⟨hmode, -, -, hend⟩
      · rw [hsame] at hc' ⊢
        exact h.clients clientID client' hc'
      · rw [hback] at hc' ⊢
        rw [getClient_putBackOwn, hc] at hc'
        cases hc'
        apply hholder.of_frame (List.Subset.refl _)
        intro conn' hmem
        exact connections_putBackOwn_of_ne m fun heq => hnot (heq ▸ hmem)
      · rw [hend] at hc' ⊢
        rw [getClient_setClient, if_pos rfl] at hc'
        cases hc'
        have hfits := hholder.fits
        simp only [FitsMode, hmode] at hfits
        exact holder_of_held_eq_nil hfits rfl

end Invariant

/-! ## Whole runs -/

section Runs

variable {l l' : Ledger} {es : List Event} {clientID transactionID : GoString} {conn : ConnRef}
  {client : ClientConnection}

theorem Ledger.affine_of_runs {l₀ : Ledger} (h₀ : l₀.manager.Affine l₀.given)
    (h : Runs Does l₀ es l) : l.manager.Affine l.given := by
  apply h.invariant h₀
  intro l e l' hl he
  cases he with
  | call c hc => exact hl.perform c hc

/-- The call asks for a connection for the client. -/
def Call.Gets (clientID : GoString) (c : Call) : Prop :=
  ∃ database mongoClient isTransaction transactionID,
    c = .getConnection clientID database mongoClient isTransaction transactionID

variable {m : Manager} {given : List (GoString × ConnRef)} {c : Call}

theorem perform_other (h : m.Affine given) (hc : c.Proper given) (hne : clientID ≠ c.caller) :
    (m.perform c).1.getClient clientID = m.getClient clientID ∧ ∀ conn, (clientID, conn) ∈ given →
        (m.perform c).1.connections conn = m.connections conn := by
  have hacts := acts_perform h c hc
  refine ⟨hacts.others clientID hne, ?_⟩
  intro conn hgiven
  apply hacts.untouched conn (h.bound clientID conn hgiven)
  intro hmine
  exact hne (h.once clientID c.caller conn hgiven hmine)

theorem perform_registerClient (hc : m.getClient clientID = some client)
    (username database : GoString) (poolMode : PoolMode) :
    m.perform (.registerClient clientID username database poolMode) = (m, none) := by
  simp [perform, registerClient, hc]

/-- One call, and a client in session mode that does not unregister: it stays in session mode, what
it was assigned stays assigned, and what it gets is its assigned connection. -/
theorem session_step (h : m.Affine given)
    (hc : m.getClient clientID = some client) (hmode : client.poolMode = .session)
    (hproper : c.Proper given) (hstay : c ≠ .unregisterClient clientID) :
    ∃ client', (m.perform c).1.getClient clientID = some client' ∧ client'.poolMode = .session ∧
      (∀ conn, client.assignedConn = some conn → client'.assignedConn = some conn) ∧
      (c.Gets clientID → ∃ conn, (m.perform c).2 = some conn ∧
        client'.assignedConn = some conn) := by
  by_cases hcaller : clientID = c.caller
  swap
  · refine ⟨client, ?_, hmode, fun _ => id, ?_⟩
    · rw [(perform_other h hproper hcaller).1, hc]
    · rintro ⟨database, mongoClient, isTransaction, transactionID, rfl⟩
      exact absurd rfl hcaller
  · cases c with
    | registerClient id username database poolMode =>
      obtain rfl : clientID = id := hcaller
      refine ⟨client, ?_, hmode, fun _ => id, fun hget => by simp [Call.Gets] at hget⟩
      rw [perform_registerClient hc]
      exact hc
    | unregisterClient id => exact absurd (congrArg Call.unregisterClient hcaller.symm) hstay
    | getConnection id database mongoClient isTransaction transactionID =>
      obtain rfl : clientID = id := hcaller
      obtain ⟨conn, m', hget, hg⟩ :=
        getConnection_ok hc database mongoClient isTransaction transactionID
      simp only [perform, hget]
      cases hg with
      | assigned _ hconn =>
        exact ⟨client, by rw [getClient_getPool, hc], hmode, fun _ => id, fun _ => ⟨_, rfl, hconn⟩⟩
      | assign _ hconn =>
        refine ⟨{ client with assignedConn := some _ }, ?_, hmode, ?_, fun _ => ⟨_, rfl, rfl⟩⟩
        · rw [getClient_setClient, if_pos rfl]
        intro conn hsome
        rw [hconn] at hsome
        cases hsome
      | pinned hmode' | pin hmode' | repin hmode' => cases hmode.symm.trans hmode'
      | temporary hmode' => simp [hmode] at hmode'
    | returnConnection id conn isEndOfTransaction =>
      obtain rfl : clientID = id := hcaller
      refine ⟨client, ?_, hmode, fun _ => id, fun hget => by simp [Call.Gets] at hget⟩
      simp only [perform]
      rcases returnConnection_cases hc (h.clients clientID client hc).fits with
        hsame | ⟨-, hback⟩ | ⟨hmode', -⟩
      · rw [hsame, hc]
      · rw [hback, getClient_putBackOwn, hc]
      · cases hmode.symm.trans hmode'

/-- The calls that end the transaction for which the client got the connection. -/
def Call.Ends (clientID transactionID : GoString) (conn : ConnRef) : Call → Prop
  | .registerClient _ _ _ _ => False
  | .unregisterClient id => id = clientID
  | .getConnection id _ _ isTransaction other =>
    id = clientID ∧ isTransaction = true ∧ other ≠ transactionID
  | .returnConnection id conn' isEndOfTransaction =>
    id = clientID ∧ conn' = conn ∧ isEndOfTransaction = true

/-- The call asks for a connection for the transaction. -/
def Call.GetsFor (clientID transactionID : GoString) (c : Call) : Prop :=
  ∃ database mongoClient, c = .getConnection clientID database mongoClient true transactionID

/-- The client is in the transaction, on the connection. -/
structure InTransaction (m : Manager) (clientID transactionID : GoString) (conn : ConnRef)
    (client : ClientConnection) : Prop where
  registered : m.getClient clientID = some client
  mode : client.poolMode = .transaction
  holds : client.transactionConn = some conn
  tagged : (m.connections conn).map (·.transactionID) = some transactionID

theorem InTransaction.step
    (ht : m.InTransaction clientID transactionID conn client) (h : m.Affine given)
    (hproper : c.Proper given) (hends : ¬ c.Ends clientID transactionID conn) :
    (m.perform c).1.InTransaction clientID transactionID conn client ∧
      (c.GetsFor clientID transactionID → (m.perform c).2 = some conn) := by
  have hheld : conn ∈ client.held := by simp [ClientConnection.held, ht.holds]
  have hholder := h.clients clientID client ht.registered
  have hgiven := hholder.given conn hheld
  by_cases hcaller : clientID = c.caller
  swap
  · obtain ⟨hclient, hconns⟩ := perform_other h hproper hcaller
    refine ⟨⟨by rw [hclient, ht.registered], ht.mode, ht.holds, ?_⟩, ?_⟩
    · rw [hconns conn hgiven]
      exact ht.tagged
    · rintro ⟨database, mongoClient, rfl⟩
      exact absurd rfl hcaller
  · cases c with
    | registerClient id username database poolMode =>
      obtain rfl : clientID = id := hcaller
      rw [perform_registerClient ht.registered]
      exact ⟨ht, fun hget => by simp [Call.GetsFor] at hget⟩
    | unregisterClient id => exact absurd hcaller.symm hends
    | getConnection id database mongoClient isTransaction other =>
      obtain rfl : clientID = id := hcaller
      obtain ⟨conn', m', hget, hg⟩ :=
        getConnection_ok ht.registered database mongoClient isTransaction other
      simp only [perform, hget]
      have hpool : (m.getPool database mongoClient client.poolMode).2.InTransaction clientID
          transactionID conn client :=
        ⟨by rw [getClient_getPool, ht.registered], ht.mode, ht.holds, by
          rw [connections_getPool]
          exact ht.tagged⟩
      -- a transaction other than this one would end it
      have hother : isTransaction = true → other = transactionID := by
        intro htx
        by_contra hne
        exact hends ⟨rfl, htx, hne⟩
      cases hg with
      | assigned hmode | assign hmode => cases ht.mode.symm.trans hmode
      | pinned _ _ hconn =>
        rw [ht.holds] at hconn
        cases hconn
        exact ⟨hpool, fun _ => rfl⟩
      | pin _ _ hnone => cases ht.holds.symm.trans hnone
      | repin _ htx hconn htag =>
        rw [ht.holds] at hconn
        cases hconn
        rw [hother htx] at htag
        exact absurd hpool.tagged htag
      | temporary htemp =>
        refine ⟨⟨hpool.registered, ht.mode, ht.holds, ?_⟩, ?_⟩
        · rw [connections_checkout_of_given (by rw [next_getPool]; exact h.bound _ _ hgiven)]
          exact hpool.tagged
        · rintro ⟨database', mongoClient', heq⟩
          cases heq
          simp [ht.mode] at htemp
    | returnConnection id conn' isEndOfTransaction =>
      obtain rfl : clientID = id := hcaller
      refine ⟨?_, fun hget => by simp [Call.GetsFor] at hget⟩
      simp only [perform]
      rcases returnConnection_cases ht.registered hholder.fits with
        hsame | ⟨hnot, hback⟩ | ⟨-, hend, hconn, -⟩
      · rw [hsame]
        exact ht
      · rw [hback]
        have hne : conn ≠ conn' := fun heq => hnot (heq ▸ hheld)
        refine ⟨by rw [getClient_putBackOwn, ht.registered], ht.mode, ht.holds, ?_⟩
        rw [connections_putBackOwn_of_ne m hne]
        exact ht.tagged
      · rw [ht.holds] at hconn
        cases hconn
        exact absurd ⟨rfl, rfl, hend⟩ hends

theorem inTransaction_of_get
    (hc : m.getClient clientID = some client) (hmode : client.poolMode = .transaction)
    (database : GoString) (mongoClient : MongoClient) (transactionID : GoString) :
    ∃ conn client', (m.perform
        (.getConnection clientID database mongoClient true transactionID)).2 = some conn ∧
      (m.perform (.getConnection clientID database mongoClient true transactionID)).1.InTransaction
        clientID transactionID conn client' := by
  obtain ⟨conn, m', hget, hg⟩ := getConnection_ok hc database mongoClient true transactionID
  simp only [perform, hget]
  have htag : ∀ (m : Manager) pool, ((m.checkout database pool clientID transactionID).2.connections
      m.next).map (·.transactionID) = some transactionID := by
    intro m pool
    rw [connections_checkout, if_pos rfl]
    rfl
  cases hg with
  | assigned hmode' | assign hmode' => cases hmode.symm.trans hmode'
  | pinned _ _ hconn htag =>
    exact ⟨conn, client, rfl, by rw [getClient_getPool, hc], hmode, hconn, htag⟩
  | pin | repin =>
    refine ⟨_, { client with transactionConn := some _ }, rfl, ?_, hmode, rfl, htag _ _⟩
    rw [getClient_setClient, if_pos rfl]
  | temporary htemp => simp [hmode] at htemp

theorem session_runs (h : l.manager.Affine l.given)
    (hc : l.manager.getClient clientID = some client) (hmode : client.poolMode = .session)
    (hrun : Runs Does l es l') (hstay : ∀ e ∈ es, e.1 ≠ .unregisterClient clientID) :
    ∃ client', l'.manager.getClient clientID = some client' ∧
      ∀ e ∈ es, e.1.Gets clientID → ∃ conn, e.2 = some conn ∧ client'.assignedConn = some conn := by
  -- the client stays in session mode, and what it got so far is what it is assigned
  have hinv := hrun.invariant_log (P := fun es l => (∀ e ∈ es, e.1 ≠ .unregisterClient clientID) →
    l.manager.Affine l.given ∧ ∃ client', l.manager.getClient clientID = some client' ∧
      client'.poolMode = .session ∧ ∀ e ∈ es, e.1.Gets clientID →
        ∃ conn, e.2 = some conn ∧ client'.assignedConn = some conn)
    (fun _ => ⟨h, client, hc, hmode, fun e he => nomatch he⟩) ?_
  · obtain ⟨-, client', hc', -, hgets⟩ := hinv hstay
    exact ⟨client', hc', hgets⟩
  · rintro es l e l' ih ⟨c, hproper⟩ hstay
    rw [List.forall_mem_append] at hstay
    obtain ⟨haff, client, hc, hmode, hgets⟩ := ih hstay.1
    obtain ⟨client', hc', hmode', hkeeps, hget⟩ :=
      session_step haff hc hmode hproper (hstay.2 _ (List.mem_singleton_self _))
    refine ⟨haff.perform c hproper, client', hc', hmode', ?_⟩
    intro e he hgetsE
    rcases List.mem_append.mp he with hold | hnew
    · obtain ⟨conn, hconn, hassigned⟩ := hgets e hold hgetsE
      exact ⟨conn, hconn, hkeeps conn hassigned⟩
    · rw [List.mem_singleton] at hnew
      subst hnew
      exact hget hgetsE

theorem transaction_runs (h : l.manager.Affine l.given)
    (ht : l.manager.InTransaction clientID transactionID conn client)
    (hrun : Runs Does l es l') (hends : ∀ e ∈ es, ¬ e.1.Ends clientID transactionID conn) :
    l'.manager.InTransaction clientID transactionID conn client ∧
      ∀ e ∈ es, e.1.GetsFor clientID transactionID → e.2 = some conn := by
  have hinv := hrun.invariant_log (P := fun es l =>
    (∀ e ∈ es, ¬ e.1.Ends clientID transactionID conn) → l.manager.Affine l.given ∧
      l.manager.InTransaction clientID transactionID conn client ∧
      ∀ e ∈ es, e.1.GetsFor clientID transactionID → e.2 = some conn)
    (fun _ => ⟨h, ht, fun e he => nomatch he⟩) ?_
  · exact (hinv hends).2
  · rintro es l e l' ih ⟨c, hproper⟩ hends
    rw [List.forall_mem_append] at hends
    obtain ⟨haff, ht, hgets⟩ := ih hends.1
    obtain ⟨ht', hget⟩ := ht.step haff hproper (hends.2 _ (List.mem_singleton_self _))
    refine ⟨haff.perform c hproper, ht', ?_⟩
    rw [List.forall_mem_append]
    refine ⟨hgets, ?_⟩
    intro e he
    rw [List.mem_singleton] at he
    subst he
    exact hget

end Runs

/-- **Pool-mode affinity.** After any run `es` of calls:

* a client in session mode gets one connection, in use and its own, in every continuation in which
  it does not unregister;
* a client in transaction mode that gets a connection for a transaction gets it for every other
  request of that transaction, in use, its own and tagged with it, in every continuation in which
  no call ends the transaction;
* no connection is held by, or was ever given to, two clients. -/
theorem pool_mode_affinity {mode : GoString} {maxClientConn : Int} {es : List Event} {l : Ledger}
    (h : Runs Does { manager := .new mode maxClientConn, given := [] } es l) :
    (∀ clientID client es' l', l.manager.getClient clientID = some client →
      client.poolMode = .session → Runs Does l es' l' →
      (∀ e ∈ es', e.1 ≠ .unregisterClient clientID) →
      ∃ conn, ∀ e ∈ es', e.1.Gets clientID →
        e.2 = some conn ∧ l'.manager.Owns clientID conn) ∧
    (∀ clientID client database mongoClient transactionID r l₁,
      l.manager.getClient clientID = some client → client.poolMode = .transaction →
      Does l (.getConnection clientID database mongoClient true transactionID, r) l₁ →
      ∃ conn, r = some conn ∧ ∀ es' l', Runs Does l₁ es' l' →
        (∀ e ∈ es', ¬ e.1.Ends clientID transactionID conn) →
        l'.manager.Owns clientID conn ∧
        (l'.manager.connections conn).map (·.transactionID) = some transactionID ∧
        ∀ e ∈ es', e.1.GetsFor clientID transactionID → e.2 = some conn) ∧
    (∀ clientID clientID' client client' conn, l.manager.getClient clientID = some client →
      l.manager.getClient clientID' = some client' → conn ∈ client.held →
      conn ∈ client'.held → clientID = clientID') ∧
    (∀ clientID clientID' conn, (clientID, conn) ∈ l.given → (clientID', conn) ∈ l.given →
      clientID = clientID') := by
  have haff := Ledger.affine_of_runs (affine_new mode maxClientConn) h
  refine ⟨?_, ?_, ?_, haff.once⟩
  · intro clientID client es' l' hc hmode hrun hstay
    obtain ⟨client', hc', hgets⟩ := session_runs haff hc hmode hrun hstay
    have haff' := Ledger.affine_of_runs haff hrun
    refine ⟨client'.assignedConn.getD 0, ?_⟩
    intro e he hget
    obtain ⟨conn, hconn, hassigned⟩ := hgets e he hget
    rw [hassigned]
    refine ⟨hconn, (haff'.clients clientID client' hc').owned conn ?_⟩
    simp [ClientConnection.held, hassigned]
  · intro clientID client database mongoClient transactionID r l₁ hc hmode hdoes
    obtain ⟨conn, client', hr, ht⟩ :=
      inTransaction_of_get hc hmode database mongoClient transactionID
    have haff₁ : l₁.manager.Affine l₁.given := Ledger.affine_of_runs haff (Runs.start.step hdoes)
    generalize hcall : (Call.getConnection clientID database mongoClient true transactionID, r) = e
      at hdoes
    cases hdoes with
    | call c hproper =>
      cases hcall
      refine ⟨conn, hr, ?_⟩
      intro es' l' hrun hends
      obtain ⟨ht', hgets⟩ := transaction_runs haff₁ ht hrun hends
      have haff' := Ledger.affine_of_runs haff₁ hrun
      refine ⟨(haff'.clients clientID client' ht'.registered).owned conn ?_, ht'.tagged, hgets⟩
      simp [ClientConnection.held, ht'.holds]
  · intro clientID clientID' client client' conn hc hc' hmem hmem'
    exact haff.once clientID clientID' conn ((haff.clients clientID client hc).given conn hmem)
      ((haff.clients clientID' client' hc').given conn hmem')

/-- Ann is registered in session mode and Bob in transaction mode. -/
def twoClients : Ledger :=
  (Ledger.enter { manager := .new (lit "session") 0, given := [] }
    (.registerClient (lit "ann") (lit "ann") (lit "shop") .session)).enter
    (.registerClient (lit "bob") (lit "bob") (lit "shop") .transaction)

def annGets : Call := .getConnection (lit "ann") (lit "shop") ⟨0, [], none⟩ false []

def bobGets : Call := .getConnection (lit "bob") (lit "shop") ⟨0, [], none⟩ true (lit "01-1")

theorem runs_twoClients : ∃ es, Runs Does { manager := .new (lit "session") 0, given := [] } es
    twoClients :=
  ⟨_, (Runs.start.step (.call _ trivial)).step (.call _ trivial)⟩

theorem pool_mode_affinity_twoClients :
    ((∃ conn, ∀ e ∈ [(annGets, some 0), (bobGets, some 1), (annGets, some 0)],
        e.1.Gets (lit "ann") → e.2 = some conn ∧
          (((twoClients.enter annGets).enter bobGets).enter annGets).manager.Owns (lit "ann") conn)) ∧
      ∃ conn, (twoClients.manager.perform bobGets).2 = some conn ∧
        ((twoClients.enter bobGets).enter bobGets).manager.Owns (lit "bob") conn := by
  obtain ⟨es, hes⟩ := runs_twoClients
  obtain ⟨hsession, htransaction, -, -⟩ := pool_mode_affinity hes
  refine ⟨?_, ?_⟩
  · refine hsession (lit "ann") _ _ _ (by rfl) (by rfl)
      (((Runs.start.step (.call annGets trivial)).step (.call bobGets trivial)).step
        (.call annGets trivial)) ?_
    intro e he
    simp at he
    rcases he with rfl | rfl | rfl
    · exact fun h => nomatch h
    · exact fun h => nomatch h
    · exact fun h => nomatch h
  · obtain ⟨conn, hconn, hrest⟩ := htransaction (lit "bob") _ (lit "shop") ⟨0, [], none⟩
      (lit "01-1") _ _ (by rfl) (by rfl) (.call bobGets trivial)
    refine ⟨conn, hconn, (hrest _ _ (Runs.start.step (.call bobGets trivial)) ?_).1⟩
    intro e he
    simp only [List.nil_append, List.mem_singleton] at he
    subst he
    simp [bobGets, Call.Ends]

end Manager

end MongoBouncer

