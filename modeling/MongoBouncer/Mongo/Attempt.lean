import MongoBouncer.Mongo.RoundTrip

/-!
# What one attempt can do

The inversion lemmas of the retry loop, on which every result about RoundTrip rests:

* `Session.manage`          : the transaction state management of an attempt as a function of the
  session object alone, and `manageTransaction_cases`, which says that this is all it does;
* `checkoutConnection_cases`: the connection of an attempt is the pinned one or a fresh one;
* `sendAndUpdate_cases`     : sending changes no session and closes nothing;
* `attempt_cases`           : the ways an attempt can go.
-/

namespace MongoBouncer

open GoStd

/-! ## The session under the transaction state management -/

namespace Session

/-- The switch on the command, on the session. -/
def finish (s : Session) (command : Command) (now : Int) : Except GoError (Session × Bool) :=
  match command with
  | .commitTransaction => (s.commitTransaction now).map (·, true)
  | .abortTransaction => (s.abortTransaction now).map (·, true)
  | .endSessions => .ok (if s.state = .ended then s else s.endSession now, false)
  | _ => .ok (s, false)

/-- `StartTransaction` when the message asks for it, then the switch on the command. -/
def manage (s : Session) (t : TransactionDetails) (command : Command) (server : Server)
    (conn : Conn) (now : Int) : Except GoError (Session × Bool) :=
  if t.isStartTransaction then
    match s.startTransaction server conn t.txnNumber now with
    | .error e => .error e
    | .ok s => s.finish command now
  else s.finish command now

/-- The session after a successful `StartTransaction`. -/
def started (s : Session) (server : Server) (conn : Conn) (txnNumber : Int64) (now : Int) :
    Session :=
  { s with currentTxnNumber := txnNumber, transactionState := .inProgress,
           pinnedServer := some server, pinnedConnection := some conn, lastActivity := now }

theorem startTransaction_eq_ok {s s' : Session} {server : Server} {conn : Conn} {n : Int64}
    {now : Int} :
    s.startTransaction server conn n now = .ok s' ↔
      s.state = .active ∧ s.transactionState = .none ∧ s' = s.started server conn n now := by
  unfold startTransaction started
  split
  · rename_i h
    simp [h]
  · rename_i h
    split
    · rename_i h'
      simp [h']
    · rename_i h'
      simp only [ne_eq, Decidable.not_not] at h h'
      simp only [Except.ok.injEq, h, h', true_and]
      exact eq_comm

theorem finishTransaction_eq_ok {s s' : Session} {o : TransactionState} {text : String}
    {now : Int} {fin : Bool} :
    (s.finishTransaction o text now).map (·, true) = .ok (s', fin) ↔
      s.transactionState = .inProgress ∧ fin = true ∧
        s' = { s with transactionState := o, lastActivity := now } := by
  unfold finishTransaction
  split
  · rename_i h
    simp [h, Except.map]
  · rename_i h
    simp only [ne_eq, Decidable.not_not] at h
    simp only [Except.map, Except.ok.injEq, Prod.mk.injEq, h, true_and]
    constructor
    · rintro ⟨rfl, rfl⟩
      exact ⟨rfl, rfl⟩
    · rintro ⟨rfl, rfl⟩
      exact ⟨rfl, rfl⟩

end Session

def Command.endsTransaction (c : Command) : Bool :=
  decide (c = .commitTransaction ∨ c = .abortTransaction)

/-- What the command makes of the transaction state. -/
def Command.outcome : Command → TransactionState
  | .commitTransaction => .committed
  | _ => .aborted

theorem Command.outcome_ne_inProgress (c : Command) : c.outcome ≠ .inProgress := by
  cases c <;> decide

theorem Command.outcome_ne_none (c : Command) : c.outcome ≠ .none := by
  cases c <;> decide

namespace Session

variable {s s' : Session} {command : Command} {now : Int} {fin : Bool}

theorem finish_of_ends (hc : command.endsTransaction = true) :
    s.finish command now = .ok (s', fin) ↔ s.transactionState = .inProgress ∧ fin = true ∧
        s' = { s with transactionState := command.outcome, lastActivity := now } := by
  simp only [Command.endsTransaction, decide_eq_true_eq] at hc
  rcases hc with rfl | rfl
  · exact finishTransaction_eq_ok
  · exact finishTransaction_eq_ok

/-- The switch on the command, for every other command: it never fails, and only `endSessions`
changes the session. -/
theorem finish_of_not_ends (hc : command.endsTransaction = false) : s.finish command now =
      .ok (if command = .endSessions ∧ s.state ≠ .ended then s.endSession now else s, false) := by
  simp only [Command.endsTransaction, decide_eq_false_iff_not, not_or] at hc
  cases command with
  | commitTransaction => exact absurd rfl hc.1
  | abortTransaction => exact absurd rfl hc.2
  | endSessions =>
    unfold finish
    by_cases h : s.state = .ended
    · simp [h]
    · simp [h]
  | _ => simp [finish]

/-- The session that the switch on the command sees. -/
def afterStart (s : Session) (t : TransactionDetails) (server : Server) (conn : Conn)
    (now : Int) : Session :=
  if t.isStartTransaction then s.started server conn t.txnNumber now else s

/-- The session that a successful switch on the command leaves. -/
def afterFinish (s : Session) (command : Command) (now : Int) : Session :=
  if command.endsTransaction then { s with transactionState := command.outcome, lastActivity := now }
  else if command = .endSessions ∧ s.state ≠ .ended then s.endSession now
  else s

theorem finish_eq_ok : s.finish command now = .ok (s', fin) ↔
      (command.endsTransaction = true → s.transactionState = .inProgress) ∧
        fin = command.endsTransaction ∧ s' = s.afterFinish command now := by
  cases hc : command.endsTransaction with
  | true =>
    rw [finish_of_ends hc]
    simp [afterFinish, hc]
  | false =>
    rw [finish_of_not_ends hc]
    simp only [afterFinish, hc, Except.ok.injEq, Prod.mk.injEq, Bool.false_eq_true,
      if_false, false_implies, true_and]
    constructor
    · rintro ⟨rfl, rfl⟩
      exact ⟨rfl, rfl⟩
    · rintro ⟨rfl, rfl⟩
      exact ⟨rfl, rfl⟩

/-- When the transaction state management lets an attempt go on, and with which session. -/
theorem manage_eq_ok {t : TransactionDetails} {server : Server} {conn : Conn} :
    s.manage t command server conn now = .ok (s', fin) ↔
      (t.isStartTransaction = true → s.state = .active ∧ s.transactionState = .none) ∧
        (command.endsTransaction = true →
          t.isStartTransaction = true ∨ s.transactionState = .inProgress) ∧
        fin = command.endsTransaction ∧
        s' = (s.afterStart t server conn now).afterFinish command now := by
  unfold manage afterStart
  cases hst : t.isStartTransaction with
  | false => simp [finish_eq_ok]
  | true =>
    cases hs : s.startTransaction server conn t.txnNumber now with
    | error e =>
      have hno : ¬ (s.state = .active ∧ s.transactionState = .none) := by
        rintro ⟨h1, h2⟩
        have hok : s.startTransaction server conn t.txnNumber now = .ok _ :=
          startTransaction_eq_ok.mpr ⟨h1, h2, rfl⟩
        rw [hs] at hok
        cases hok
      simp [hno]
    | ok s₁ =>
      obtain ⟨h1, h2, rfl⟩ := startTransaction_eq_ok.mp hs
      simp [finish_eq_ok, h1, h2, started]

theorem exists_manage_error {t : TransactionDetails} {server : Server} {conn : Conn}
    (h : ∀ s' fin, s.manage t command server conn now ≠ .ok (s', fin)) :
    ∃ e, s.manage t command server conn now = .error e := by
  cases hm : s.manage t command server conn now with
  | error e => exact ⟨e, rfl⟩
  | ok p => exact absurd hm (h p.1 p.2)

end Session

/-! ## The world under the transaction state management -/

namespace World

@[simp] theorem session_mk (sm : SessionManager) (clients : ClientID → Mongo) (out : List Conn)
    (r : Ref) : (World.mk sm clients out).session r = sm.objects r := rfl

@[simp] theorem mem_checkedOut_close {w : World} {c x : Conn} :
    x ∈ (w.close c).checkedOut ↔ x ∈ w.checkedOut ∧ x ≠ c := by
  simp [close]

/-- What the transaction state management changes: one session object, which `endSessions` also
takes out of the map. -/
structure Managed (w w' : World) (r : Ref) (s : Session) (command : Command) : Prop where
  session : ∀ r', w'.session r' = if r' = r then s else w.session r'
  clients : w'.clients = w.clients
  checkedOut : w'.checkedOut = w.checkedOut
  next : w'.manager.next = w.manager.next
  sessions : w'.manager.sessions = w.manager.sessions ∨
    command = .endSessions ∧ w'.manager.sessions =
      Function.update w.manager.sessions (w.session r).id none

theorem Managed.refl (w : World) (r : Ref) (command : Command) :
    w.Managed w r (w.session r) command := by
  refine ⟨?_, rfl, rfl, rfl, Or.inl rfl⟩
  intro r'
  by_cases hr : r' = r
  · simp [hr]
  · simp [hr]

theorem Managed.set (w : World) (r : Ref) (s : Session) (command : Command) :
    w.Managed { w with manager := w.manager.setSession r s } r s command := by
  refine ⟨?_, rfl, rfl, rfl, Or.inl rfl⟩
  intro r'
  by_cases hr : r' = r
  · simp [SessionManager.setSession, hr]
  · simp [SessionManager.setSession, hr, World.session]

theorem Managed.trans {w₀ w₁ w₂ : World} {r : Ref} {s₁ s₂ : Session} {command : Command}
    (h₁ : w₀.Managed w₁ r s₁ command) (hid : s₁.id = (w₀.session r).id)
    (h₂ : w₁.Managed w₂ r s₂ command) : w₀.Managed w₂ r s₂ command := by
  refine ⟨?_, h₂.clients.trans h₁.clients, h₂.checkedOut.trans h₁.checkedOut,
    h₂.next.trans h₁.next, ?_⟩
  · intro r'
    rw [h₂.session, h₁.session]
    by_cases hr : r' = r
    · simp [hr]
    · simp [hr]
  · have hid' : (w₁.session r).id = (w₀.session r).id := by
      rw [h₁.session r, if_pos rfl, hid]
    rcases h₁.sessions with h | ⟨hc, h⟩ <;> rcases h₂.sessions with h' | ⟨hc', h'⟩
    · exact Or.inl (h'.trans h)
    · exact Or.inr ⟨hc', by rw [h', h, hid']⟩
    · exact Or.inr ⟨hc, h'.trans h⟩
    · exact Or.inr ⟨hc, by rw [h', h, hid', Function.update_idem]⟩

/-- What `selectServer` can read of the distributed cache: transactions and cursors. -/
def groups (w : World) : Option ((GoString → Bool) × (GoString → Option GoString)) :=
  w.manager.distributedCache.map fun dc => (dc.transactionGroup, dc.cursorGroup)

/-- `StoreTransaction` in the distributed cache, when there is one. -/
def storeTransaction (w : World) (lsID : Bytes) : World :=
  { w with manager := { w.manager with
      distributedCache := w.manager.distributedCache.map (·.storeTransaction lsID) } }

theorem cachedServer_congr {w w' : World} {m : ClientID} (hg : w'.groups = w.groups)
    (hc : w'.clients m = w.clients m) (req : Request) :
    w'.cachedServer m req = w.cachedServer m req := by
  have hcache : (w'.cacheOf m).map (fun dc => (dc.transactionGroup, dc.cursorGroup)) =
      (w.cacheOf m).map fun dc => (dc.transactionGroup, dc.cursorGroup) := by
    unfold cacheOf
    rw [hc]
    split
    · exact hg
    · rfl
  have htxn : ∀ lsID, ((w'.cacheOf m).any fun dc => dc.getTransaction lsID) =
      (w.cacheOf m).any fun dc => dc.getTransaction lsID := by
    intro lsID
    have h := congrArg (fun g => Option.any (fun p => p.1 (DistributedCache.transactionKey lsID)) g)
      hcache
    simpa [Option.any_map, Function.comp_def, DistributedCache.getTransaction] using h
  have hcur : ∀ id collection,
      ((w'.cacheOf m).any fun dc => (dc.getCursor id collection).isSome) =
      (w.cacheOf m).any fun dc => (dc.getCursor id collection).isSome := by
    intro id collection
    have h := congrArg (fun g => Option.any
      (fun p => (p.2 (DistributedCache.cursorKey id collection)).isSome) g) hcache
    simpa [Option.any_map, Function.comp_def, DistributedCache.getCursor] using h
  simp only [cachedServer, TransactionCache.peek, CursorCache.peek, htxn, hcur, hc]

theorem startTransaction_cases (w : World) (r : Ref) (t : TransactionDetails) (server : Server)
    (conn : Conn) (now : Int) (command : Command) :
    (∃ e, t.isStartTransaction = true ∧
      (w.session r).startTransaction server conn t.txnNumber now = .error e ∧
      w.startTransaction r t server conn now = .error e) ∨
    ∃ w', (t.isStartTransaction = true →
        (w.session r).startTransaction server conn t.txnNumber now =
          .ok ((w.session r).afterStart t server conn now)) ∧
      w.startTransaction r t server conn now =
        .ok (w', if t.isStartTransaction then [.start t.lsID conn] else []) ∧
      w.Managed w' r ((w.session r).afterStart t server conn now) command ∧
      w'.groups = if t.isStartTransaction then (w.storeTransaction (w.session r).lsID).groups
        else w.groups := by
  unfold startTransaction SessionManager.startTransaction Session.afterStart
  cases hst : t.isStartTransaction with
  | false => exact Or.inr ⟨w, by simp, by simp, Managed.refl w r command, by simp⟩
  | true =>
    cases hs : (w.session r).startTransaction server conn t.txnNumber now with
    | error e =>
      rw [session] at hs
      exact Or.inl ⟨e, rfl, rfl, by simp [hs, Except.map]⟩
    | ok s₁ =>
      right
      rw [session] at hs
      obtain ⟨-, -, rfl⟩ := Session.startTransaction_eq_ok.mp hs
      simp only [if_true, hs, Except.map]
      have hm := Managed.set w r ((w.session r).started server conn t.txnNumber now) command
      refine ⟨_, fun _ => rfl, rfl, ⟨hm.session, rfl, rfl, rfl, Or.inl rfl⟩, ?_⟩
      simp [groups, storeTransaction, DistributedCache.storeSession, Session.started, session,
        Function.comp_def]

theorem finishTransaction_of_ends (w : World) (r : Ref) {command : Command} (now : Int)
    (hc : command.endsTransaction = true) :
    w.finishTransaction r command now = ((w.session r).finish command now).map fun p =>
      ({ w with manager := w.manager.setSession r p.1 }, p.2) := by
  simp only [Command.endsTransaction, decide_eq_true_eq] at hc
  have hmap : ∀ x : Except GoError Session,
      ((x.map (w.manager.setSession r)).map fun sm => ({ w with manager := sm }, true)) =
        (x.map (·, true)).map fun p => ({ w with manager := w.manager.setSession r p.1 }, p.2) := by
    intro x
    cases x <;> rfl
  rcases hc with rfl | rfl
  · exact hmap _
  · exact hmap _

theorem finishTransaction_cases (w : World) (r : Ref) (command : Command) (now : Int) :
    (∃ e, (w.session r).finish command now = .error e ∧
      w.finishTransaction r command now = .error e) ∨
    ∃ s' fin w', (w.session r).finish command now = .ok (s', fin) ∧
      w.finishTransaction r command now = .ok (w', fin) ∧ w.Managed w' r s' command ∧
      w'.groups = w.groups := by
  cases command with
  | commitTransaction | abortTransaction =>
    rw [finishTransaction_of_ends w r now rfl]
    cases (w.session r).finish _ now with
    | error e => exact Or.inl ⟨e, rfl, rfl⟩
    | ok p => exact Or.inr ⟨p.1, p.2, _, rfl, rfl, Managed.set w r p.1 _, rfl⟩
  | endSessions =>
    right
    by_cases he : (w.session r).state = .ended
    · refine ⟨w.session r, false, w, by simp [Session.finish, he], ?_, Managed.refl w r _, rfl⟩
      rw [session] at he
      simp [finishTransaction, SessionManager.endSession, he]
    · refine ⟨(w.session r).endSession now, false, _, by simp [Session.finish, he], rfl, ?_⟩
      rw [session] at he
      have hid : ((w.session r).endSession now).id = (w.session r).id := by
        unfold Session.endSession
        split <;> rfl
      refine ⟨⟨?_, rfl, rfl, ?_, ?_⟩, ?_⟩
      · intro r'
        by_cases hr : r' = r
        · simp [SessionManager.endSession, he, SessionManager.setSession, hr, session]
        · simp [SessionManager.endSession, he, SessionManager.setSession, hr, session]
      · simp [SessionManager.endSession, he, SessionManager.setSession]
      · right
        refine ⟨rfl, ?_⟩
        simp only [SessionManager.endSession, he, if_false]
        rw [← hid]
        rfl
      · simp [groups, SessionManager.endSession, he, DistributedCache.removeSession,
          Function.comp_def]
  | _ => exact Or.inr ⟨w.session r, false, w, rfl, rfl, Managed.refl w r _, rfl⟩

end World

/-- **The transaction state management changes the session as `Session.manage` says**, and
nothing when it refuses. -/
theorem manageTransaction_cases {f : Frame} {req : Request} {r : Ref} {t : TransactionDetails}
    (server : Server) (conn : Conn) (now : Int) (ht : req.details = some t) :
    (∃ e, (f.world.session r).manage t req.command server conn now = .error e ∧
      manageTransaction f req (some r) server conn now = .error (e, f)) ∨
    ∃ s fin w, (f.world.session r).manage t req.command server conn now = .ok (s, fin) ∧
      f.world.Managed w r s req.command ∧
      (w.groups = if t.isStartTransaction then
        (f.world.storeTransaction (f.world.session r).lsID).groups else f.world.groups) ∧
      manageTransaction f req (some r) server conn now = .ok
        ({ world := w
           deferred := if fin then .unpinTransaction r :: f.deferred else f.deferred
           events := f.events ++ if t.isStartTransaction then [.start t.lsID conn] else [] },
         fin) := by
  unfold manageTransaction Session.manage
  rw [ht]
  rcases f.world.startTransaction_cases r t server conn now req.command with
    ⟨e, hst, hs, hw⟩ | ⟨w₁, hs, hw, hm₁, hg₁⟩
  · exact Or.inl ⟨e, by simp [hst, hs], by simp [hw]⟩
  · have hsess : w₁.session r = (f.world.session r).afterStart t server conn now := by
      rw [hm₁.session, if_pos rfl]
    have hmanage : (if t.isStartTransaction = true then
        match (f.world.session r).startTransaction server conn t.txnNumber now with
        | .error e => .error e
        | .ok s => s.finish req.command now
      else (f.world.session r).finish req.command now) = (w₁.session r).finish req.command now := by
      rw [hsess]
      cases hst : t.isStartTransaction with
      | false => simp [Session.afterStart, hst]
      | true => simp [hs hst]
    rcases w₁.finishTransaction_cases r req.command now with 
      ⟨e, hf, hw'⟩ | ⟨s, fin, w₂, hf, hw', hm₂, hg₂⟩
    · -- a transaction that was just started can be finished, so nothing was started here
      have hnot : t.isStartTransaction = false := by
        cases hst : t.isStartTransaction with
        | false => rfl
        | true =>
          have hok : (w₁.session r).finish req.command now = .ok _ :=
            Session.finish_eq_ok.mpr ⟨fun _ => by simp [hsess, Session.afterStart, hst,
              Session.started], rfl, rfl⟩
          rw [hf] at hok
          cases hok
      left
      refine ⟨e, by rw [hmanage, hf], ?_⟩
      have hw₁ : w₁ = f.world := by
        simp only [World.startTransaction, hnot, Bool.false_eq_true, if_false, Except.ok.injEq,
          Prod.mk.injEq, and_true] at hw
        exact hw.symm
      subst hw₁
      simp [hw, hw', hnot]
    · right
      refine ⟨s, fin, w₂, by rw [hmanage, hf], ?_, hg₂.trans hg₁, by simp [hw, hw']⟩
      refine hm₁.trans ?_ hm₂
      simp only [Session.afterStart]
      split <;> rfl

/-! ## Connections -/

namespace World

/-- The connection of an attempt: the pinned one of its session, or one that was not checked
out. -/
theorem checkoutConnection_cases (w : World) (server : Server) (session : Option Ref)
    (up : Attempt) :
    (∃ e, w.checkoutConnection server session up = .error e ∧
      (session.bind fun r => (w.session r).getPinnedConnection) = none) ∨
    (∃ c, (session.bind fun r => (w.session r).getPinnedConnection) = some c ∧
      w.checkoutConnection server session up = .ok (c, w, [])) ∨
    ∃ c, (session.bind fun r => (w.session r).getPinnedConnection) = none ∧ c ∉ w.checkedOut ∧
      w.checkoutConnection server session up =
        .ok (c, { w with checkedOut := c :: w.checkedOut }, [.checkout c]) := by
  unfold checkoutConnection
  cases hp : session.bind fun r => (w.session r).getPinnedConnection with
  | some c => exact Or.inr (Or.inl ⟨c, rfl, rfl⟩)
  | none =>
    cases hc : up.connection server w.checkedOut with
    | error e => exact Or.inl ⟨e, rfl, rfl⟩
    | ok c => exact Or.inr (Or.inr ⟨c.1, rfl, c.2, rfl⟩)

section Checkout

variable {w w' : World} {server : Server} {session : Option Ref} {up : Attempt} {conn : Conn}
  {ev : List Event}

theorem checkoutConnection_eq_ok (h : w.checkoutConnection server session up = .ok (conn, w', ev)) :
    (session.bind fun r => (w.session r).getPinnedConnection) = some conn ∧ w' = w ∧ ev = [] ∨
      (session.bind fun r => (w.session r).getPinnedConnection) = none ∧ conn ∉ w.checkedOut ∧
        w' = { w with checkedOut := conn :: w.checkedOut } ∧ ev = [.checkout conn] := by
  rcases w.checkoutConnection_cases server session up with
    ⟨e, he, -⟩ | ⟨c, hp, hc⟩ | ⟨c, hp, hnot, hc⟩
  · rw [he] at h
    cases h
  · rw [hc] at h
    cases h
    exact Or.inl ⟨hp, rfl, rfl⟩
  · rw [hc] at h
    cases h
    exact Or.inr ⟨hp, hnot, rfl, rfl⟩

theorem checkoutConnection_of_pinned {r : Ref} {c : Conn}
    (hpin : (w.session r).getPinnedConnection = some c)
    (h : w.checkoutConnection server (some r) up = .ok (conn, w', ev)) :
    conn = c ∧ w' = w ∧ ev = [] := by
  simp only [checkoutConnection, Option.bind_some, hpin, Except.ok.injEq, Prod.mk.injEq] at h
  exact ⟨h.1.symm, h.2.1.symm, h.2.2.symm⟩

section

variable (h : w.checkoutConnection server session up = .ok (conn, w', ev))

include h

theorem manager_checkoutConnection : w'.manager = w.manager ∧ w'.clients = w.clients := by
  rcases checkoutConnection_eq_ok h with ⟨-, rfl, -⟩ | ⟨-, -, rfl, -⟩
  · exact ⟨rfl, rfl⟩
  · exact ⟨rfl, rfl⟩

theorem groups_checkoutConnection : w'.groups = w.groups := by
  rw [groups, groups, (manager_checkoutConnection h).1]

theorem session_checkoutConnection (r : Ref) : w'.session r = w.session r :=
  congrArg (fun sm : SessionManager => sm.objects r) (manager_checkoutConnection h).1

end

end Checkout

end World

/-! ## Sending -/

/-- The two worlds differ at most in the caches. -/
structure World.SameSessions (w w' : World) : Prop where
  objects : w'.manager.objects = w.manager.objects
  sessions : w'.manager.sessions = w.manager.sessions
  next : w'.manager.next = w.manager.next
  checkedOut : w'.checkedOut = w.checkedOut

theorem World.SameSessions.refl (w : World) : w.SameSessions w := ⟨rfl, rfl, rfl, rfl⟩

theorem World.SameSessions.trans {w₀ w₁ w₂ : World} (h₁ : w₀.SameSessions w₁)
    (h₂ : w₁.SameSessions w₂) : w₀.SameSessions w₂ :=
  ⟨h₂.objects.trans h₁.objects, h₂.sessions.trans h₁.sessions, h₂.next.trans h₁.next,
    h₂.checkedOut.trans h₁.checkedOut⟩

theorem World.SameSessions.session {w w' : World} (h : w.SameSessions w') (r : Ref) :
    w'.session r = w.session r :=
  congrFun h.objects r

theorem World.sameSessions_updateCursors (w : World) (m : ClientID) (req : Request)
    (server : Server) (id : Option Int64) (now : Int) :
    w.SameSessions (w.updateCursors m req server id now) := by
  unfold World.updateCursors
  split
  · exact World.SameSessions.refl w
  · split
    · exact ⟨rfl, rfl, rfl, rfl⟩
    · split
      · exact ⟨rfl, rfl, rfl, rfl⟩
      · exact World.SameSessions.refl w

theorem World.sameSessions_updateTransactions (w : World) (m : ClientID) (req : Request)
    (server : Server) (now : Int) : w.SameSessions (w.updateTransactions m req server now) := by
  unfold World.updateTransactions
  split
  · exact World.SameSessions.refl w
  · split
    · exact ⟨rfl, rfl, rfl, rfl⟩
    · split
      · exact ⟨rfl, rfl, rfl, rfl⟩
      · exact World.SameSessions.refl w

section Call

variable (d : Driver) (m : ClientID) (req : Request) (session : Option Ref) (script : Script)

theorem exchange_events (i : Nat) (server : Server) (conn : Conn) (up : Attempt) :
    (exchange d i server conn req up).2 = [] ∨
      ∃ b, (exchange d i server conn req up).2 = [.write conn b] := by
  unfold exchange roundTripOn
  split
  · cases up.writeWireMessage with
    | some e => exact Or.inr ⟨false, rfl⟩
    | none =>
      right
      refine ⟨true, ?_⟩
      by_cases hu : req.unacknowledged = true
      · simp [hu]
      · simp only [hu]
        cases up.readWireMessage with
        | error e => rfl
        | ok wm => cases h : decode d wm <;> simp [h]
  · exact Or.inl rfl

/-- The frame with which an iteration ends. -/
def Flow.frame {ρ : Type} : Flow Frame ρ → Frame
  | .next f => f
  | .exit _ f => f

variable {f : Frame} {ρ : Type} {I P : Frame → Prop} {i : Nat} {e : GoError} {server : Server}
  {w : World} {flow : Flow Frame ρ}

theorem Flow.frame_of_stopped {flow : Flow Frame (Except GoError Message)}
    (h : flow = .next f ∨ ∃ e, flow = .exit (.error e) f) : Flow.frame flow = f := by
  rcases h with rfl | ⟨e, rfl⟩
  · rfl
  · rfl

theorem Flow.meets_of_next {Q : Frame → Prop}
    (hnext : ∀ f, flow = .next f → I f) (hframe : Q (Flow.frame flow)) :
    flow.Meets I fun _ => Q := by
  cases flow with
  | next f => exact hnext f rfl
  | exit res f => exact hframe

theorem Flow.meets_of_frame (h : P (Flow.frame flow)) : flow.Meets P fun _ => P := by
  refine Flow.meets_of_next ?_ h
  rintro f rfl
  exact h

/-- Sending keeps the deferred closures and every session; only a reply touches the caches. -/
theorem sendAndUpdate_cases (i : Nat) (server : Server) (conn : Conn) (up : Attempt) (f : Frame) :
    ∃ ev, (ev = [] ∨ ∃ b, ev = [.write conn b]) ∧
      (sendAndUpdate d m req i server conn up f = .next { f with events := f.events ++ ev } ∨
        ∃ res w, f.world.SameSessions w ∧ sendAndUpdate d m req i server conn up f =
            .exit res { f with world := w, events := f.events ++ ev }) := by
  have hev := exchange_events d req i server conn up
  rcases hx : exchange d i server conn req up with ⟨x, ev⟩
  rw [hx] at hev
  refine ⟨ev, hev, ?_⟩
  simp only [sendAndUpdate, hx]
  cases x with
  | again => exact Or.inl rfl
  | fail | unacknowledged => exact Or.inr ⟨_, _, World.SameSessions.refl _, rfl⟩
  | reply wm op =>
    exact Or.inr ⟨_, _, (World.sameSessions_updateCursors _ _ _ _ _ _).trans
      (World.sameSessions_updateTransactions _ _ _ _ _), rfl⟩

theorem frame_sendAndUpdate (i : Nat) (server : Server) (conn : Conn) (up : Attempt) (f : Frame) :
    ∃ ev w, (ev = [] ∨ ∃ b, ev = [.write conn b]) ∧ f.world.SameSessions w ∧
      Flow.frame (sendAndUpdate d m req i server conn up f) =
        { f with world := w, events := f.events ++ ev } := by
  obtain ⟨ev, hev, h | ⟨res, w, hw, h⟩⟩ := sendAndUpdate_cases d m req i server conn up f
  · exact ⟨ev, f.world, hev, World.SameSessions.refl _, by rw [h]; rfl⟩
  · exact ⟨ev, w, hev, hw, by rw [h]; rfl⟩

/-- The call has a session exactly when its message carries transaction fields. -/
def SessionOf (req : Request) (session : Option Ref) : Prop :=
  session.isSome = req.details.isSome

variable {d m req session script}

theorem attempt_of_chooseServer_error
    (hserver : f.world.chooseServer m req session (script.attempt i) = .error e) :
    attempt d m req session script i f =
      if session.isNone ∧ i < maxRetries then .next f else .exit (.error e) f := by
  unfold attempt
  simp only [hserver]

theorem attempt_of_nil_server
    (hserver : f.world.chooseServer m req session (script.attempt i) = .ok none) :
    attempt d m req session script i f = .exit
      (.error ⟨lit "no server available for database " ++ noServerDatabase req⟩) f := by
  unfold attempt
  simp only [hserver]

section

variable (hserver : f.world.chooseServer m req session (script.attempt i) = .ok (some server))

include hserver

theorem attempt_of_checkout_error
    (hconn : f.world.checkoutConnection server session (script.attempt i) = .error e) :
    attempt d m req session script i f =
      if i < maxRetries then .next f else .exit (.error e) f := by
  unfold attempt
  simp only [hserver, hconn]

theorem attempt_of_manageTransaction {f' : Frame} {conn : Conn} {ev : List Event} {fin : Bool}
    (hconn : f.world.checkoutConnection server session (script.attempt i) = .ok (conn, w, ev))
    (hm : manageTransaction { f with world := w, events := f.events ++ ev } req session server conn
      (script.attempt i).now = .ok (f', fin)) :
    attempt d m req session script i f = sendAndUpdate d m req i server conn (script.attempt i)
        { f' with deferred := .closeConnection conn session fin :: f'.deferred } := by
  unfold attempt
  simp only [hserver, hconn, hm]

theorem attempt_of_manageTransaction_error {f' : Frame} {conn : Conn} {ev : List Event}
    (hconn : f.world.checkoutConnection server session (script.attempt i) = .ok (conn, w, ev))
    (hm : manageTransaction { f with world := w, events := f.events ++ ev } req session server conn
      (script.attempt i).now = .error (e, f')) :
    attempt d m req session script i f = .exit (.error e) f' := by
  unfold attempt
  simp only [hserver, hconn, hm]

end

variable (d m req session script)

/-- The ways an attempt can go: it gets no connection, the transaction state management refuses
it, or it sends its message, outside or inside a session. -/
inductive Attempted (d : Driver) (m : ClientID) (req : Request) (session : Option Ref)
    (script : Script) (i : Nat) (f : Frame) : Prop where
  | stopped
      (h : attempt d m req session script i f = .next f ∨
        ∃ e, attempt d m req session script i f = .exit (.error e) f)
      (hstop : ∀ server,
        f.world.chooseServer m req session (script.attempt i) = .ok (some server) →
        ∃ e, f.world.checkoutConnection server session (script.attempt i) = .error e)
  | refused (r : Ref) (t : TransactionDetails) (server : Server) (conn : Conn) (w : World)
      (ev : List Event) (e : GoError) (hr : session = some r) (ht : req.details = some t)
      (hserver : f.world.chooseServer m req session (script.attempt i) = .ok (some server))
      (hconn : f.world.checkoutConnection server session (script.attempt i) = .ok (conn, w, ev))
      (hmanage : (w.session r).manage t req.command server conn (script.attempt i).now = .error e)
      (h : attempt d m req session script i f =
        .exit (.error e) { f with world := w, events := f.events ++ ev })
  | sentOutside (server : Server) (conn : Conn) (w : World) (ev : List Event)
      (hr : session = none)
      (hserver : f.world.chooseServer m req session (script.attempt i) = .ok (some server))
      (hconn : f.world.checkoutConnection server session (script.attempt i) = .ok (conn, w, ev))
      (h : attempt d m req session script i f =
        sendAndUpdate d m req i server conn (script.attempt i)
          { world := w
            deferred := .closeConnection conn session false :: f.deferred
            events := f.events ++ ev })
  | sentInside (r : Ref) (t : TransactionDetails) (server : Server) (conn : Conn) (w w' : World)
      (ev : List Event) (s : Session) (fin : Bool) (hr : session = some r)
      (ht : req.details = some t)
      (hserver : f.world.chooseServer m req session (script.attempt i) = .ok (some server))
      (hconn : f.world.checkoutConnection server session (script.attempt i) = .ok (conn, w, ev))
      (hmanage : (w.session r).manage t req.command server conn (script.attempt i).now =
        .ok (s, fin))
      (hworld : w.Managed w' r s req.command)
      (hgroups : w'.groups = if t.isStartTransaction then
        (w.storeTransaction (w.session r).lsID).groups else w.groups)
      (h : attempt d m req session script i f =
        sendAndUpdate d m req i server conn (script.attempt i)
          { world := w'
            deferred := .closeConnection conn session fin ::
              if fin then .unpinTransaction r :: f.deferred else f.deferred
            events := (f.events ++ ev) ++
              if t.isStartTransaction then [.start t.lsID conn] else [] })

variable {session}

theorem attempt_cases (hs : SessionOf req session) (i : Nat) (f : Frame) :
    Attempted d m req session script i f := by
  cases hserver : f.world.chooseServer m req session (script.attempt i) with
  | error e =>
    refine .stopped ?_ (by simp [hserver])
    rw [attempt_of_chooseServer_error hserver]
    split
    · exact Or.inl rfl
    · exact Or.inr ⟨e, rfl⟩
  | ok o =>
    cases o with
    | none => exact .stopped (Or.inr ⟨_, attempt_of_nil_server hserver⟩) (by simp [hserver])
    | some server =>
      cases hconn : f.world.checkoutConnection server session (script.attempt i) with
      | error e =>
        refine .stopped ?_ ?_
        · rw [attempt_of_checkout_error hserver hconn]
          split
          · exact Or.inl rfl
          · exact Or.inr ⟨e, rfl⟩
        · intro server' hserver'
          rw [hserver] at hserver'
          cases hserver'
          exact ⟨e, hconn⟩
      | ok p =>
        obtain ⟨conn, w, ev⟩ := p
        cases session with
        | none =>
          exact .sentOutside server conn w ev rfl hserver hconn
            (attempt_of_manageTransaction hserver hconn rfl)
        | some r =>
          obtain ⟨t, ht⟩ := Option.isSome_iff_exists.mp (hs.symm.trans rfl)
          rcases manageTransaction_cases (f := { f with world := w, events := f.events ++ ev })
            (r := r) server conn (script.attempt i).now ht with
            ⟨e, he, hm⟩ | ⟨s, fin, w', hok, hw', hg, hm⟩
          · exact .refused r t server conn w ev e rfl ht hserver hconn he
              (attempt_of_manageTransaction_error hserver hconn hm)
          · exact .sentInside r t server conn w w' ev s fin rfl ht hserver hconn hok hw' hg
              (attempt_of_manageTransaction hserver hconn hm)

/-! ## The loop -/

variable {d m req script}

/-- An invariant `I` of the frames that are retried, and what it gives for the result. -/
theorem attempts_rule_exit {Q : Except GoError Message → Frame → Prop} (hinit : I ⟨w, [], []⟩)
    (hstep : ∀ i f, I f → (attempt d m req session script i f).Meets I Q)
    (hend : ∀ f, I f → Q (.error (errorf "max retries exceeded")) f) :
    Q (attempts d m req session script w).1 (attempts d m req session script w).2 :=
  forLoop_rule (I := fun _ => I) hstep _ _ _ hinit fun f => hend f

theorem attempts_rule (hinit : P ⟨w, [], []⟩)
    (hstep : ∀ i f, P f → P (Flow.frame (attempt d m req session script i f))) :
    P (attempts d m req session script w).2 :=
  attempts_rule_exit (I := P) (Q := fun _ => P) hinit
    (fun i f hf => Flow.meets_of_frame (hstep i f hf)) fun _ h => h

theorem attempts_rule_first (hfirst : P (Flow.frame (attempt d m req session script 0 ⟨w, [], []⟩)))
    (hstep : ∀ i f, P f → P (Flow.frame (attempt d m req session script i f))) :
    P (attempts d m req session script w).2 := by
  unfold attempts
  cases h : attempt d m req session script 0 ⟨w, [], []⟩ with
  | exit res f =>
    rw [forLoop_of_exit h]
    rwa [h] at hfirst
  | next f =>
    rw [forLoop_of_next h]
    rw [h] at hfirst
    exact forLoop_rule (I := fun _ => P) (Q := fun _ => P)
      (fun i f hf => Flow.meets_of_frame (hstep i f hf)) _ _ _ hfirst fun _ h => h

variable (d m req script)

/-- An attempt on a session that keeps its connection pinned and refuses the message changes
nothing. -/
theorem attempt_frozen {r : Ref} {t : TransactionDetails} (ht : req.details = some t)
    {c : Conn} (hpin : (f.world.session r).getPinnedConnection = some c)
    (hrefuse : ∀ server conn now,
      ∃ e, (f.world.session r).manage t req.command server conn now = .error e) (i : Nat) :
    Flow.frame (attempt d m req (some r) script i f) = f := by
  have hs : SessionOf req (some r) := by simp [SessionOf, ht]
  cases attempt_cases d m req script hs i f with
  | stopped h => exact Flow.frame_of_stopped h
  | refused r' t' server conn w ev e hr' ht' hserver hconn hmanage h =>
    obtain ⟨-, rfl, rfl⟩ := World.checkoutConnection_of_pinned hpin hconn
    rw [h]
    simp [Flow.frame]
  | sentOutside server conn w ev hr' => cases hr'
  | sentInside r' t' server conn w w' ev s fin hr' ht' hserver hconn hmanage hworld hgroups h =>
    obtain ⟨-, rfl, rfl⟩ := World.checkoutConnection_of_pinned hpin hconn
    cases hr'
    obtain rfl : t = t' := Option.some.inj (ht.symm.trans ht')
    obtain ⟨e, he⟩ := hrefuse server conn (script.attempt i).now
    rw [he] at hmanage
    cases hmanage

end Call

end MongoBouncer
