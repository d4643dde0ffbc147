import MongoBouncer.Mongo.Pinning

/-!
# The transaction caches of the clients

The session of a transaction belongs to all clients, but each client has its own cache from lsids
to servers. An entry is added by the client that saw startTransaction, and removed by the client
that saw the commit or abort, and only after a decoded reply.

* `Settled`  : no cache has an entry for a session without a transaction;
* `Settles`  : of a call. It does not finish a transaction whose entry it leaves behind;
* `Cached`   : the invariant. Every entry belongs to a transaction in progress.

Principal results: `Cached.run` (a call that settles keeps the invariant) and `caches_settled`.
-/

namespace MongoBouncer

open GoStd

/-! ## What a call makes of the caches -/

section Caches

variable {d : Driver} {m m' : ClientID} {req : Request} {session : Option Ref} {script : Script}
  {w : World}

theorem transactions_setCursors (clients : ClientID → Mongo) (m m' : ClientID)
    (cursors : CursorCache) :
    (Function.update clients m { clients m with cursors } m').transactions =
      (clients m').transactions := by
  by_cases hm : m' = m
  · rw [hm, Function.update_self]
  · rw [Function.update_of_ne hm]

theorem transactions_updateCursors (w : World) (m m' : ClientID) (req : Request) (server : Server)
    (id : Option Int64) (now : Int) :
    ((w.updateCursors m req server id now).clients m').transactions =
      (w.clients m').transactions := by
  unfold World.updateCursors
  split
  · rfl
  · simp only
    split
    · exact transactions_setCursors w.clients m m' _
    · split
      · exact transactions_setCursors w.clients m m' _
      · rfl

/-- The transaction cache of the client after a reply. -/
def TransactionCache.recorded (cache : TransactionCache) (req : Request) (server : Server)
    (now : Int) : TransactionCache :=
  match req.details with
  | none => cache
  | some t =>
    if t.isStartTransaction then cache.add now t.lsID server
    else if req.command.endsTransaction then cache.remove t.lsID
    else cache

theorem transactions_updateTransactions (w : World) (m m' : ClientID) (req : Request)
    (server : Server) (now : Int) :
    ((w.updateTransactions m req server now).clients m').transactions =
      if m' = m then (w.clients m).transactions.recorded req server now
      else (w.clients m').transactions := by
  have hends : (req.command = .abortTransaction ∨ req.command = .commitTransaction) ↔
      req.command.endsTransaction = true := by
    rw [endsTransaction_iff]
    exact or_comm
  unfold World.updateTransactions TransactionCache.recorded
  simp only [hends]
  cases req.details with
  | none => by_cases hm : m' = m <;> simp [hm]
  | some t =>
    by_cases hm : m' = m
    · subst hm
      simp only [if_true]
      split
      · simp
      · split
        · simp
        · rfl
    · simp only [hm, if_false]
      split
      · simp [hm]
      · split
        · simp [hm]
        · rfl

theorem runDeferred_frame (ds : List Deferred) (w : World) :
    (runDeferred ds w).1.clients = w.clients ∧
      (runDeferred ds w).1.manager.distributedCache = w.manager.distributedCache := by
  induction ds generalizing w with
  | nil => exact ⟨rfl, rfl⟩
  | cons x ds ih =>
    suffices hx : (x.run w).1.clients = w.clients ∧
        (x.run w).1.manager.distributedCache = w.manager.distributedCache from
      ⟨(ih _).1.trans hx.1, (ih _).2.trans hx.2⟩
    cases x with
    | unpinTransaction r => exact ⟨rfl, rfl⟩
    | closeConnection conn s fin =>
      cases fin with
      | true => cases s <;> exact ⟨rfl, rfl⟩
      | false =>
        simp only [Deferred.run]
        split <;> exact ⟨rfl, rfl⟩

theorem sendAndUpdate_reply (d : Driver) (m : ClientID) (req : Request) (i : Nat) (server : Server)
    (conn : Conn) (up : Attempt) (f : Frame) :
    (∃ f', sendAndUpdate d m req i server conn up f = .next f' ∧ f'.world = f.world) ∨
    (∃ res f', sendAndUpdate d m req i server conn up f = .exit res f' ∧ f'.world = f.world ∧
      isReply res = false) ∨
    ∃ wm op f', sendAndUpdate d m req i server conn up f = .exit (.ok ⟨wm, some op⟩) f' ∧
      f'.world = (f.world.updateCursors m req server (op.cursorID d) up.now).updateTransactions m req
        server up.now ∧
      f'.deferred = f.deferred ∧ f.events ⊆ f'.events := by
  rcases hx : exchange d i server conn req up with ⟨x, ev⟩
  simp only [sendAndUpdate, hx]
  cases x with
  | again => exact Or.inl ⟨_, rfl, rfl⟩
  | fail | unacknowledged => exact Or.inr (Or.inl ⟨_, _, rfl, rfl, rfl⟩)
  | reply wm op =>
    exact Or.inr (Or.inr ⟨wm, op, _, rfl, rfl, rfl, List.subset_append_left _ _⟩)

/-- What a call has made of the caches when its loop ends. -/
inductive Recorded (m : ClientID) (req : Request) (session : Option Ref) (w : World)
    (res : Except GoError Message) (f : Frame) : Prop where
  | unchanged (h : f.world.clients = w.clients) (hres : isReply res = false)
  | replied (server : Server) (now : Int) (hres : isReply res = true)
      (h : ∀ m', (f.world.clients m').transactions =
        if m' = m then (w.clients m).transactions.recorded req server now
        else (w.clients m').transactions)
      (hstart : ∀ t, session.isSome → req.details = some t → t.isStartTransaction = true →
        ∃ c, .start t.lsID c ∈ f.events)
      (hsent : f.deferred ≠ [])

/-- An attempt without a reply leaves the caches as they are. One with a reply was sent, after the
start of its transaction if it has one, and puts the reply into the caches. -/
theorem attempt_reply_rule {I : Frame → Prop} {Q : Except GoError Message → Frame → Prop}
    (hs : SessionOf req session) {i : Nat} {f : Frame}
    (hnext : ∀ f', f'.world.clients = f.world.clients → I f')
    (hsilent : ∀ res f', f'.world.clients = f.world.clients → isReply res = false → Q res f')
    (hreply : ∀ server wm op (w₁ : World) f',
      f.world.chooseServer m req session (script.attempt i) = .ok (some server) →
      w₁.clients = f.world.clients →
      f'.world = (w₁.updateCursors m req server (op.cursorID d)
        (script.attempt i).now).updateTransactions m req server (script.attempt i).now →
      f'.deferred ≠ [] →
      (∀ t, session.isSome → req.details = some t → t.isStartTransaction = true →
        ∃ c, .start t.lsID c ∈ f'.events) → Q (.ok ⟨wm, some op⟩) f') :
    (attempt d m req session script i f).Meets I Q := by
  have hsend : ∀ (server : Server) (conn : Conn) (g : Frame),
      f.world.chooseServer m req session (script.attempt i) = .ok (some server) →
      g.world.clients = f.world.clients → g.deferred ≠ [] →
      (∀ t, session.isSome → req.details = some t → t.isStartTransaction = true →
        ∃ c, .start t.lsID c ∈ g.events) →
      (sendAndUpdate d m req i server conn (script.attempt i) g).Meets I Q := by
    intro server conn g hserver hg hdeferred hstart
    rcases sendAndUpdate_reply d m req i server conn (script.attempt i) g with
      ⟨g', hg', hw⟩ | ⟨res', g', hg', hw, hres⟩ | ⟨wm, op, g', hg', hw, hd, hev⟩
    · rw [hg']
      exact hnext g' (by rw [hw, hg])
    · rw [hg']
      exact hsilent res' g' (by rw [hw, hg]) hres
    · rw [hg']
      refine hreply server wm op g.world g' hserver hg hw (by rw [hd]; exact hdeferred) ?_
      intro t hsome ht hst
      obtain ⟨c, hc⟩ := hstart t hsome ht hst
      exact ⟨c, hev hc⟩
  cases attempt_cases d m req script hs i f with
  | stopped h =>
    rcases h with h | ⟨e, h⟩
    · rw [h]
      exact hnext f rfl
    · rw [h]
      exact hsilent _ f rfl rfl
  | refused r t server conn w' ev e hr ht hserver hconn hmanage h =>
    rw [h]
    exact hsilent _ _ (World.manager_checkoutConnection hconn).2 rfl
  | sentOutside server conn w' ev hr hserver hconn h =>
    rw [h]
    refine hsend server conn _ hserver (World.manager_checkoutConnection hconn).2 (by simp) ?_
    intro t hsome
    rw [hr] at hsome
    cases hsome
  | sentInside r t server conn w' w'' ev s fin hr ht hserver hconn hmanage hworld hgroups h =>
    rw [h]
    refine hsend server conn _ hserver ?_ (by simp) ?_
    · exact hworld.clients.trans (World.manager_checkoutConnection hconn).2
    · intro t' _ ht' hst
      obtain rfl : t = t' := Option.some.inj (ht.symm.trans ht')
      exact ⟨conn, by simp [hst]⟩

theorem attempts_recorded (hs : SessionOf req session) :
    Recorded m req session w (attempts d m req session script w).1
      (attempts d m req session script w).2 := by
  refine attempts_rule_exit (I := fun f => f.world.clients = w.clients) rfl ?_
    fun f hf => .unchanged hf rfl
  intro i f hf
  refine attempt_reply_rule hs (fun f' h => h.trans hf) (fun res f' h => .unchanged (h.trans hf)) ?_
  intro server wm op w₁ f' _ hw₁ hf' hdeferred hstart
  refine .replied server (script.attempt i).now rfl ?_ hstart hdeferred
  intro m'
  rw [hf', transactions_updateTransactions]
  simp only [transactions_updateCursors, hw₁, hf]

theorem retryLoop_reply_resets {r : Ref} (hs : SessionOf req (some r)) (hw : PinInv w)
    (hends : req.command.endsTransaction = true)
    (hreply : isReply (retryLoop d m req (some r) script w).result = true) :
    ((retryLoop d m req (some r) script w).world.session r).transactionState = .none := by
  have hsound : Frame.Sound w req (some r) (attempts d m req (some r) script w).2 :=
    attempts_sound hs hw
  have hrecorded : Recorded m req (some r) w (attempts d m req (some r) script w).1
      (attempts d m req (some r) script w).2 := attempts_recorded hs
  rw [retryLoop_eq] at hreply
  rw [retryLoop_world]
  generalize (attempts d m req (some r) script w).2 = f at hsound hrecorded
  cases hrecorded with
  | unchanged h hres =>
    rw [hres] at hreply
    cases hreply
  | replied server now hres h hstart hsent =>
    cases hsound.tidy with
    | closing cs own deferred unfinished healthy =>
      rw [deferred, unfinished rfl hends] at hsent
      exact absurd rfl hsent
    | finishing r' c hr own ends deferred outcome =>
      cases hr
      rw [deferred, runDeferred_finishing, session_of_reset]
      rfl

end Caches

/-! ## Calls -/

/-- What a call on client `m` has made of the transaction caches. -/
inductive CacheEffect (m : ClientID) (req : Request) (w : World) (res : CallResult) : Prop where
  | unchanged (hres : isReply res.result = false) (h : res.world.clients = w.clients)
  | recorded (server : Server) (now : Int) (hres : isReply res.result = true)
      (h : ∀ m', (res.world.clients m').transactions =
        if m' = m then (w.clients m).transactions.recorded req server now
        else (w.clients m').transactions)
      (hstart : ∀ t, req.details = some t → t.isStartTransaction = true →
        ∃ c, .start t.lsID c ∈ res.events)

theorem CacheEffect.of_clients {m : ClientID} {req : Request} {w w' : World} {res : CallResult}
    (h : CacheEffect m req w res) (hclients : w.clients = w'.clients) :
    CacheEffect m req w' res := by
  cases h with
  | unchanged hres h => exact .unchanged hres (h.trans hclients)
  | recorded server now hres h hstart =>
    rw [hclients] at h
    exact .recorded server now hres h hstart

section Run

variable {d : Driver} {w : World} {call : Call} {L : Bytes} {m' : ClientID}

theorem retryLoop_cacheEffect {m : ClientID} {req : Request} {session : Option Ref}
    {script : Script} (hs : SessionOf req session) :
    CacheEffect m req w (retryLoop d m req session script w) := by
  have hrecorded : Recorded m req session w (attempts d m req session script w).1
      (attempts d m req session script w).2 := attempts_recorded hs
  rw [retryLoop_eq]
  cases hrecorded with
  | unchanged h hres =>
    exact .unchanged hres ((runDeferred_frame _ _).1.trans h)
  | replied server now hres h hstart hsent =>
    refine .recorded server now hres ?_ ?_
    · intro m'
      simp only [(runDeferred_frame _ _).1]
      exact h m'
    · intro t ht hst
      have hsome : session.isSome = true := hs.trans (by rw [ht]; rfl)
      obtain ⟨c, hc⟩ := hstart t hsome ht hst
      exact ⟨c, List.mem_append_left _ hc⟩

theorem run_cacheEffect (d : Driver) (w : World) (call : Call) :
    CacheEffect call.client (call.request d) w (call.run d w) := by
  unfold Call.run
  cases hc : (w.clients call.client).closed with
  | true =>
    rw [roundTrip_closed hc]
    exact .unchanged rfl rfl
  | false =>
    cases ht : (call.request d).details with
    | none =>
      rw [roundTrip_of_none hc ht]
      exact retryLoop_cacheEffect (sessionOf_none ht)
    | some t =>
      rw [roundTrip_of_some hc ht]
      exact (retryLoop_cacheEffect (sessionOf_some ht _)).of_clients
        (w.openSession_opened t call.script.now).clients

theorem holds_run (h : ((call.run d w).world.clients m').transactions.Holds L) :
    (w.clients m').transactions.Holds L ∨
      ∃ t c, (call.request d).details = some t ∧ t.lsID = L ∧ t.isStartTransaction = true ∧
        isReply (call.run d w).result = true ∧ .start L c ∈ (call.run d w).events := by
  cases run_cacheEffect d w call with
  | unchanged hres heq =>
    rw [heq] at h
    exact Or.inl h
  | recorded server now hres heq hstart =>
    rw [heq] at h
    split at h
    · rename_i hm
      subst hm
      unfold TransactionCache.recorded at h
      split at h
      · exact Or.inl h
      · rename_i t ht
        split at h
        · rename_i hst
          rcases TransactionCache.holds_of_holds_add h with rfl | hold
          · obtain ⟨c, hc⟩ := hstart t ht hst
            exact Or.inr ⟨t, c, ht, rfl, hst, hres, hc⟩
          · exact Or.inl hold
        · split at h
          · exact Or.inl (TransactionCache.holds_remove.mp h).2
          · exact Or.inl h
    · exact Or.inl h

theorem not_holds_run {t : TransactionDetails} (ht : (call.request d).details = some t)
    (hst : t.isStartTransaction = false) (hends : (call.request d).command.endsTransaction = true)
    (hreply : isReply (call.run d w).result = true) :
    ¬ ((call.run d w).world.clients call.client).transactions.Holds t.lsID := by
  cases run_cacheEffect d w call with
  | unchanged hres heq =>
    rw [hreply] at hres
    cases hres
  | recorded server now hres heq hstart =>
    rw [heq, if_pos rfl]
    simp [TransactionCache.recorded, ht, hst, hends, TransactionCache.holds_remove]

theorem holds_run_of_holds (h : (w.clients m').transactions.Holds L)
    (hother : m' ≠ call.client ∨ isReply (call.run d w).result = false) :
    ((call.run d w).world.clients m').transactions.Holds L := by
  cases run_cacheEffect d w call with
  | unchanged hres heq =>
    rw [heq]
    exact h
  | recorded server now hres heq hstart =>
    rw [heq]
    rcases hother with hm | hno
    · rw [if_neg hm]
      exact h
    · rw [hno] at hres
      cases hres

/-! ## Caches that agree with the sessions -/

/-- No client has an entry for a session without a transaction. -/
def Settled (w : World) : Prop :=
  ∀ lsID r, w.manager.sessions (Base64.encodeToString lsID) = some r →
    (w.session r).transactionState = .none → ∀ m, ¬ (w.clients m).transactions.Holds lsID

/-- A call that finishes a transaction or its session leaves no entry for it: a message that also
starts the transaction gets no reply; a commit or abort comes in on the one client that has the
entry, and gets a reply; an endSessions comes when there is no entry. -/
def Call.Settles (d : Driver) (w : World) (call : Call) : Prop :=
  (w.clients call.client).closed = false → ∀ t, (call.request d).details = some t →
    (call.request d).command.completes = true →
    if t.isStartTransaction then isReply (call.run d w).result = false
    else ∀ m, (w.clients m).transactions.Holds t.lsID →
      (call.request d).command ≠ .endSessions ∧ m = call.client ∧
        isReply (call.run d w).result = true

/-- Every entry belongs to a transaction in progress. -/
structure Cached (w : World) : Prop where
  inv : SessionInv w
  held : ∀ m L, (w.clients m).transactions.Holds L → ∃ r c, Holding w L r c

theorem Cached.settled (h : Cached w) : Settled w := by
  intro lsID r hr hnone m hm
  obtain ⟨r', c, hold⟩ := h.held m lsID hm
  rw [hold.mapped] at hr
  cases hr
  have hprog := (hold.inv.pins.healthy r c hold.pinned).2.2
  rw [hnone] at hprog
  cases hprog

/-- **A call that settles keeps every entry with a transaction in progress.** -/
theorem Cached.run (h : Cached w) (hcall : call.Settles d w) : Cached (call.run d w).world := by
  refine ⟨sessionInv_roundTrip h.inv, ?_⟩
  intro m L hafter
  cases hc : (w.clients call.client).closed with
  | true =>
    rw [Call.run, roundTrip_closed hc] at hafter ⊢
    exact h.held m L hafter
  | false =>
    have hbefore := holds_run hafter
    by_cases hL : call.carries d L
    case neg =>
      -- another lsid: the entry is an old one, and the call left its transaction alone
      rcases hbefore with hold | ⟨t, c, ht, htL, -⟩
      · obtain ⟨r, c, hold⟩ := h.held m L hold
        exact ⟨r, c, (hold.other hL).1⟩
      · exact absurd ⟨t, ht, htL⟩ hL
    obtain ⟨t, ht, htL⟩ := hL
    cases hcomplete : (call.request d).command.completes with
    | false =>
      rcases hbefore with hold | ⟨t', c, -, -, -, -, hstart⟩
      · obtain ⟨r, c, hold⟩ := h.held m L hold
        exact ⟨r, c, (hold.inside ⟨t, ht, htL⟩ hcomplete).1⟩
      · obtain ⟨⟨r, hold⟩, -⟩ := startCall_holding h.inv ⟨t, ht, htL⟩ hcomplete hstart
        exact ⟨r, c, hold⟩
    | true =>
      have hsettles := hcall hc t ht hcomplete
      cases hst : t.isStartTransaction with
      | true =>
        rw [if_pos hst] at hsettles
        rcases hbefore with hold | ⟨t', c, -, -, -, hreply, -⟩
        · obtain ⟨r, c, hold⟩ := h.held m L hold
          exact ⟨r, c, (hold.restart ht htL hst).1⟩
        · rw [hsettles] at hreply
          cases hreply
      | false =>
        rw [if_neg (by simp [hst])] at hsettles
        rcases hbefore with hold | ⟨t', c, ht', -, hst', -⟩
        · subst htL
          obtain ⟨hne, rfl, hreply⟩ := hsettles m hold
          have hends : (call.request d).command.endsTransaction = true := by
            rw [endsTransaction_iff]
            simpa [Command.completes, hne] using hcomplete
          exact absurd hafter (not_holds_run ht hst hends hreply)
        · obtain rfl : t = t' := Option.some.inj (ht.symm.trans ht')
          rw [hst] at hst'
          cases hst'

theorem run_mapped (hw : SessionInv w) (hopen : (w.clients call.client).closed = false)
    {t : TransactionDetails} (ht : (call.request d).details = some t)
    (hne : (call.request d).command ≠ .endSessions) :
    (call.run d w).world.manager.sessions (Base64.encodeToString t.lsID) =
      some (w.openSession t call.script.now).1 := by
  obtain ⟨hinv, hmapped, -⟩ := sessionInv_openSession hw t call.script.now
  rw [Call.run, roundTrip_of_some hopen ht]
  refine retryLoop_mapped (sessionOf_some ht _) hinv hmapped ?_ fun _ => hne
  intro r' hr'
  cases hr'
  exact ⟨_, hmapped⟩

/-- **A commit or abort leaves the caches settled exactly when it settles.** -/
theorem Cached.settled_run_iff (h : Cached w) (hopen : (w.clients call.client).closed = false)
    (hends : (call.request d).command.endsTransaction = true) :
    Settled (call.run d w).world ↔ call.Settles d w := by
  refine ⟨?_, fun hs => (h.run hs).settled⟩
  intro hset _ t ht _
  have hne : (call.request d).command ≠ .endSessions := by
    intro he
    rw [he] at hends
    cases hends
  have hmapped := run_mapped h.inv hopen ht hne
  split
  · rename_i hst
    by_contra hno
    have hreply : isReply (call.run d w).result = true := by simpa using hno
    refine hset _ _ hmapped ?_ call.client ?_
    · -- the transaction was started and ended by this message
      have hinv := (sessionInv_openSession h.inv t call.script.now).1
      rw [Call.run, roundTrip_of_some hopen ht] at hreply ⊢
      exact retryLoop_reply_resets (sessionOf_some ht _) hinv.pins hends hreply
    · cases run_cacheEffect d w call with
      | unchanged hres heq => exact absurd hreply (by simp [hres])
      | recorded server now hres heq hstart =>
        rw [heq, if_pos rfl]
        simp [TransactionCache.recorded, ht, hst, TransactionCache.holds_add_self]
  · rename_i hst
    intro m hm
    obtain ⟨r, c, hold⟩ := h.held m t.lsID hm
    obtain ⟨f, hended, -, hworld⟩ := run_of_ends h.inv.pins hopen ht (by simpa using hst) hends
      hold.mapped hold.pinned
    rw [(hold.openSession_self rfl call.script.now).1] at hmapped
    have hnone : ((call.run d w).world.session r).transactionState = .none := by
      rw [hworld, session_of_reset]
      rfl
    refine ⟨hne, ?_⟩
    by_contra hno
    refine hset _ _ hmapped hnone m (holds_run_of_holds hm ?_)
    by_cases hm' : m = call.client
    · right
      simpa [hm'] using hno
    · exact Or.inl hm'

end Run

/-! ## Runs -/

/-- Every call of the run settles in the world it is made in. -/
def SettlingRun (d : Driver) (w : World) (calls : List Call) : Prop :=
  ∀ pre call post, calls = pre ++ call :: post → call.Settles d (runAll d pre w)

theorem settlingRun_cons {d : Driver} {w : World} {call : Call} {calls : List Call} :
    SettlingRun d w (call :: calls) ↔
      call.Settles d w ∧ SettlingRun d (call.run d w).world calls := by
  constructor
  · intro h
    refine ⟨h [] call calls rfl, fun pre call' post hsplit => ?_⟩
    exact h (call :: pre) call' post (by rw [hsplit]; rfl)
  · rintro ⟨hcall, hcalls⟩ pre call' post hsplit
    cases pre with
    | nil =>
      cases hsplit
      exact hcall
    | cons first pre =>
      cases hsplit
      exact hcalls pre call' post rfl

theorem Cached.runAll {d : Driver} {w : World} (calls : List Call) (h : Cached w)
    (hrun : SettlingRun d w calls) : Cached (runAll d calls w) := by
  induction calls generalizing w with
  | nil => exact h
  | cons call calls ih =>
    obtain ⟨hcall, hcalls⟩ := settlingRun_cons.mp hrun
    exact ih (h.run hcall) hcalls

/-- **In every run whose calls all settle, no client has an entry for a session without a
transaction**; and after such a run a commit or abort on an open client keeps it so exactly when
it settles. -/
theorem caches_settled {d : Driver} (dc : Option DistributedCache) (clients : ClientID → Mongo)
    (out : List Conn) (calls : List Call)
    (hempty : ∀ m L, ¬ (clients m).transactions.Holds L)
    (hrun : SettlingRun d { manager := .new dc, clients, checkedOut := out } calls) :
    Settled (runAll d calls { manager := .new dc, clients, checkedOut := out }) ∧
      ∀ call : Call,
        ((runAll d calls { manager := .new dc, clients, checkedOut := out }).clients
          call.client).closed = false →
        (call.request d).command = .commitTransaction ∨
          (call.request d).command = .abortTransaction →
        (Settled (call.run d
            (runAll d calls { manager := .new dc, clients, checkedOut := out })).world ↔
          call.Settles d (runAll d calls { manager := .new dc, clients, checkedOut := out })) := by
  have hinit : Cached { manager := .new dc, clients, checkedOut := out } :=
    ⟨sessionInv_new dc clients out, fun m L hm => absurd hm (hempty m L)⟩
  have hcached := hinit.runAll calls hrun
  refine ⟨hcached.settled, ?_⟩
  intro call hopen hends
  exact hcached.settled_run_iff hopen (endsTransaction_iff.mpr hends)

/-- The commit of the transaction on its client. -/
def ownClientCommit : Call := { brokenCommit with client := 0, script := healthyScript }

theorem settlingRun_ownClientCommit :
    SettlingRun plainDriver newWorld [startInsert, ownClientCommit] := by
  have hno : (startInsert.request plainDriver).command.completes = false := by decide +kernel
  have hcommit : (ownClientCommit.request plainDriver).details = some ⟨[7], 1, false, false⟩ ∧
      (ownClientCommit.request plainDriver).command ≠ .endSessions ∧
      isReply (ownClientCommit.run plainDriver startedWorld).result = true := by decide +kernel
  obtain ⟨hdetails, hcommand, hreply⟩ := hcommit
  refine settlingRun_cons.mpr ⟨?_, settlingRun_cons.mpr ⟨?_, ?_⟩⟩
  · intro _ t _ hcomplete
    rw [hno] at hcomplete
    cases hcomplete
  · intro _ t ht _
    cases hdetails.symm.trans ht
    refine fun m hm => ⟨hcommand, ?_, hreply⟩
    -- the start left the caches of the other clients alone
    by_contra hother
    have hm' : ((startInsert.run plainDriver newWorld).world.clients m).transactions.Holds [7] := hm
    cases run_cacheEffect plainDriver newWorld startInsert with
    | unchanged _ h =>
      rw [h] at hm'
      exact TransactionCache.not_holds_new [7] hm'
    | recorded _ _ _ h =>
      rw [h, if_neg (show ¬ m = startInsert.client from hother)] at hm'
      exact TransactionCache.not_holds_new [7] hm'
  · intro pre _ _ h
    cases pre <;> cases h

theorem caches_settled_ownClientCommit :
    (startedWorld.clients 0).transactions.Holds [7] ∧
      Settled (ownClientCommit.run plainDriver startedWorld).world :=
  ⟨by decide +kernel, (caches_settled none (fun _ => .connected (lit "shop")) []
    [startInsert, ownClientCommit] (fun _ L => TransactionCache.not_holds_new L)
    settlingRun_ownClientCommit).1⟩

/-- The commit of the transaction on another client. -/
def otherClientCommit : Call := { brokenCommit with script := healthyScript }

/-- After the start on client 0 and the commit on client 1, both successful, the session has no
transaction and client 0 still has its entry. -/
theorem otherClientCommit_not_settled :
    isReply (otherClientCommit.run plainDriver startedWorld).result = true ∧
      ¬ Settled (otherClientCommit.run plainDriver startedWorld).world := by
  have hafter : isReply (otherClientCommit.run plainDriver startedWorld).result = true ∧
      (otherClientCommit.run plainDriver startedWorld).world.manager.sessions
        (Base64.encodeToString [7]) = some 0 ∧
      ((otherClientCommit.run plainDriver startedWorld).world.session 0).transactionState = .none ∧
      ((otherClientCommit.run plainDriver startedWorld).world.clients 0).transactions.Holds [7] := by
    decide +kernel
  obtain ⟨hreply, hsession, hstate, hholds⟩ := hafter
  exact ⟨hreply, fun h => h [7] 0 hsession hstate 0 hholds⟩

end MongoBouncer
