import MongoBouncer.Mongo.Selection
import MongoBouncer.Mongo.Cleanup

/-!
# Pods that share a distributed cache

Several pods, each with its own session manager, and one distributed cache. A round trip of a pod
works on its own sessions and on the cache, and the next one, of any pod, sees the cache as the
last one left it.

`StartTransaction` puts a copy of the session into the cache and `EndSession` takes it out.
`CommitTransaction`, `AbortTransaction` and `ResetTransactionState` do not write it, so a copy is
always that of a transaction in progress, also after the transaction has ended.

A pod that has a session of its own for an lsid does not look at the copy.

* `World.copy`    : the copy of a session that the cache holds;
* `World.Copies`  : what a call does to the copies;
* `Pods.Agrees`   : `GetSession` of a pod returns nothing, or a session without a transaction;
* `Pods.Aside`    : the pod has a session of its own, outside any transaction.

Principal results: `run_copies`, `Pods.aside_run` and `Pods.pods_agree`.
-/

namespace MongoBouncer

open GoStd Function

/-! ## Copies of sessions -/

/-- The copy of an active session whose transaction is in progress. -/
def SessionData.Running (sd : SessionData) : Prop :=
  sd.state = .active ∧ sd.transactionState = .inProgress

/-- The distributed cache's copy of a session. -/
def World.copy (w : World) (k : GoString) : Option SessionData :=
  w.manager.distributedCache.bind (·.sessionGroup k)

/-- The message asks for a transaction to be started. -/
def Request.Starts (req : Request) : Prop := ∃ t, req.details = some t ∧ t.isStartTransaction = true

/-- What a call does to the copies: only the one of its own session changes. It becomes that of a
transaction in progress if one is started, and `endSessions` can take it out. -/
structure World.Copies (w : World) (key : GoString) (req : Request) (w' : World) : Prop where
  enabled : w.manager.distributedCache.isSome → w'.manager.distributedCache.isSome
  others : ∀ k, k ≠ key → w'.copy k = w.copy k
  own : w.manager.distributedCache.isSome →
    w'.copy key = w.copy key ∨ (req.Starts ∧ ∃ sd, w'.copy key = some sd ∧ sd.Running) ∨
      req.command = .endSessions ∧ w'.copy key = none

namespace World.Copies

variable {w w₁ w₂ : World} {key : GoString} {req : Request}

theorem same (hdc : w₁.manager.distributedCache.isSome = w.manager.distributedCache.isSome)
    (hcopy : ∀ k, w₁.copy k = w.copy k) : w.Copies key req w₁ :=
  ⟨fun h => hdc.trans h, fun k _ => hcopy k, fun _ => Or.inl (hcopy key)⟩

theorem unchanged (hdc : w₁.manager.distributedCache = w.manager.distributedCache) :
    w.Copies key req w₁ :=
  same (by rw [hdc]) fun k => by rw [World.copy, hdc, World.copy]

theorem trans (h : w.Copies key req w₁) (h' : w₁.Copies key req w₂) : w.Copies key req w₂ := by
  refine ⟨fun hdc => h'.enabled (h.enabled hdc), ?_, ?_⟩
  · intro k hk
    rw [h'.others k hk, h.others k hk]
  · intro hdc
    rcases h'.own (h.enabled hdc) with hsame | hother
    · rw [hsame]
      exact h.own hdc
    · exact Or.inr hother

end World.Copies

theorem startTransaction_copies {w w' : World} {r : Ref} {t : TransactionDetails} {server : Server}
    {conn : Conn} {now : Int} {ev : List Event} {req : Request} (ht : req.details = some t)
    (h : w.startTransaction r t server conn now = .ok (w', ev)) :
    w.Copies (w.session r).id req w' := by
  unfold World.startTransaction SessionManager.startTransaction at h
  cases hst : t.isStartTransaction with
  | false =>
    simp only [hst, Bool.false_eq_true, if_false, Except.ok.injEq, Prod.mk.injEq] at h
    obtain ⟨rfl, rfl⟩ := h
    exact .unchanged rfl
  | true =>
    cases hs : (w.session r).startTransaction server conn t.txnNumber now with
    | error e =>
      rw [World.session] at hs
      simp [hst, hs, Except.map] at h
    | ok s =>
      rw [World.session] at hs
      simp only [hst, if_true, hs, Except.map, Except.ok.injEq, Prod.mk.injEq] at h
      obtain ⟨rfl, rfl⟩ := h
      obtain ⟨hactive, -, rfl⟩ := Session.startTransaction_eq_ok.mp hs
      refine ⟨?_, ?_, ?_⟩
      · intro hdc
        simpa using hdc
      · intro k hk
        cases hdc : w.manager.distributedCache with
        | none => simp [World.copy, hdc]
        | some dc =>
          have hk' : k ≠ ((w.manager.objects r).started server conn t.txnNumber now).id := hk
          simp [World.copy, hdc, DistributedCache.storeSession, DistributedCache.storeTransaction,
            update_of_ne hk']
      · intro hsome
        obtain ⟨dc, hdc⟩ := Option.isSome_iff_exists.mp hsome
        right
        left
        refine ⟨⟨t, ht, hst⟩, ?_⟩
        simp only [World.copy, hdc, Option.map_some, Option.bind_some,
          DistributedCache.storeSession]
        exact ⟨_, update_self _ _ _, hactive, rfl⟩

/-- The switch on the command leaves the copies alone, except for `endSessions`. -/
theorem finishTransaction_copies {w w' : World} {r : Ref} {req : Request} {now : Int}
    {fin : Bool} (h : w.finishTransaction r req.command now = .ok (w', fin)) :
    w.Copies (w.session r).id req w' := by
  cases hcommand : req.command with
  | commitTransaction | abortTransaction =>
    rw [hcommand, World.finishTransaction_of_ends w r now rfl] at h
    cases hs : (w.session r).finish _ now with
    | error e =>
      rw [hs] at h
      cases h
    | ok p =>
      rw [hs] at h
      cases h
      exact .unchanged rfl
  | endSessions =>
    rw [hcommand] at h
    obtain ⟨rfl, -⟩ := h
    unfold SessionManager.endSession
    split
    · exact .unchanged rfl
    · have hid : ((w.manager.objects r).endSession now).id = (w.session r).id := by
        unfold Session.endSession
        split <;> rfl
      refine ⟨?_, ?_, ?_⟩
      · intro hdc
        simpa using hdc
      · intro k hk
        cases hdc : w.manager.distributedCache with
        | none => simp [World.copy, hdc]
        | some dc =>
          simp [World.copy, hdc, hid, DistributedCache.removeSession, update_of_ne hk]
      · intro hsome
        obtain ⟨dc, hdc⟩ := Option.isSome_iff_exists.mp hsome
        right
        right
        refine ⟨hcommand, ?_⟩
        simp [World.copy, hdc, hid, DistributedCache.removeSession]
  | _ =>
    simp only [hcommand, World.finishTransaction, Except.ok.injEq, Prod.mk.injEq] at h
    obtain ⟨rfl, -⟩ := h
    exact .unchanged rfl

theorem manageTransaction_copies {f f' : Frame} {req : Request} {session : Option Ref}
    {server : Server} {conn : Conn} {now : Int} {fin : Bool} {key : GoString}
    (hid : ∀ r, session = some r → (f.world.session r).id = key)
    (h : manageTransaction f req session server conn now = .ok (f', fin)) :
    f.world.Copies key req f'.world := by
  unfold manageTransaction at h
  split at h
  · rename_i r t ht
    split at h
    · cases h
    · rename_i w₁ ev hstart
      split at h
      · cases h
      · rename_i w₂ fin' hfinish
        cases h
        have hkey := hid r rfl
        have hid₁ : (w₁.session r).id = key := by
          rcases f.world.startTransaction_cases r t server conn now req.command with
            ⟨e, -, -, hw⟩ | ⟨w', -, hw, hm, -⟩
          · rw [hstart] at hw
            cases hw
          · rw [hstart] at hw
            cases hw
            rw [hm.session, if_pos rfl, Session.id_afterStart, hkey]
        have h₁ := startTransaction_copies ht hstart
        have h₂ := finishTransaction_copies hfinish
        rw [hkey] at h₁
        rw [hid₁] at h₂
        exact h₁.trans h₂
  · cases h
    exact .unchanged rfl

/-! ## What a call does to the copies -/

section Call

variable {d : Driver} {m : ClientID} {req : Request} {session : Option Ref} {script : Script}
  {w : World} {key : GoString}

theorem copy_writeThrough (w : World) (m : ClientID) {f : DistributedCache → DistributedCache}
    (hf : ∀ dc k, (f dc).sessionGroup k = dc.sessionGroup k) (k : GoString) :
    (w.writeThrough m f).bind (·.sessionGroup k) = w.copy k := by
  unfold World.writeThrough World.copy
  split
  · cases w.manager.distributedCache <;> simp [hf]
  · rfl

theorem updateCursors_copies (w : World) (m : ClientID) (req : Request) (server : Server)
    (id : Option Int64) (now : Int) :
    w.Copies key req (w.updateCursors m req server id now) := by
  unfold World.updateCursors
  split
  · exact .unchanged rfl
  · split
    · exact .same (by simp) (copy_writeThrough w m fun _ _ => rfl)
    · split
      · exact .same (by simp) (copy_writeThrough w m fun _ _ => rfl)
      · exact .unchanged rfl

theorem updateTransactions_copies (w : World) (m : ClientID) (req : Request) (server : Server)
    (now : Int) : w.Copies key req (w.updateTransactions m req server now) := by
  unfold World.updateTransactions
  split
  · exact .unchanged rfl
  · split
    · exact .same (by simp) (copy_writeThrough w m fun _ _ => rfl)
    · split
      · exact .same (by simp) (copy_writeThrough w m fun _ _ => rfl)
      · exact .unchanged rfl

theorem sendAndUpdate_copies (d : Driver) (m : ClientID) (req : Request) (key : GoString)
    (i : Nat) (server : Server) (conn : Conn) (up : Attempt) (f : Frame) :
    f.world.Copies key req (Flow.frame (sendAndUpdate d m req i server conn up f)).world := by
  rcases hx : exchange d i server conn req up with ⟨x, ev⟩
  simp only [sendAndUpdate, hx]
  cases x with
  | again | fail | unacknowledged => exact .unchanged rfl
  | reply wm op =>
    exact (updateCursors_copies _ _ _ _ _ _).trans (updateTransactions_copies _ _ _ _ _)

theorem attempt_copies {f : Frame} (hs : SessionOf req session)
    (hid : ∀ r, session = some r → (f.world.session r).id = key)
    (hf : w.Copies key req f.world) (i : Nat) :
    w.Copies key req (Flow.frame (attempt d m req session script i f)).world := by
  cases hserver : f.world.chooseServer m req session (script.attempt i) with
  | error e =>
    rw [attempt_of_chooseServer_error hserver]
    split
    · exact hf
    · exact hf
  | ok o =>
    cases o with
    | none =>
      rw [attempt_of_nil_server hserver]
      exact hf
    | some server =>
      cases hconn : f.world.checkoutConnection server session (script.attempt i) with
      | error e =>
        rw [attempt_of_checkout_error hserver hconn]
        split
        · exact hf
        · exact hf
      | ok p =>
        obtain ⟨conn, w', ev⟩ := p
        have hchecked : w.Copies key req w' := by
          refine hf.trans (.unchanged ?_)
          rw [(World.manager_checkoutConnection hconn).1]
        have hid' : ∀ r, session = some r → (w'.session r).id = key := by
          intro r hr
          rw [World.session_checkoutConnection hconn]
          exact hid r hr
        cases hm : manageTransaction { f with world := w', events := f.events ++ ev } req session
            server conn (script.attempt i).now with
        | error p =>
          -- what refuses the message changes nothing
          obtain ⟨e, f'⟩ := p
          have hf' : f' = { f with world := w', events := f.events ++ ev } := by
            cases session with
            | none => simp [manageTransaction] at hm
            | some r =>
              obtain ⟨t, ht⟩ := Option.isSome_iff_exists.mp (hs.symm.trans rfl)
              rcases manageTransaction_cases (f := { f with world := w', events := f.events ++ ev })
                (r := r) server conn (script.attempt i).now ht with ⟨e', -, he⟩ | ⟨_, _, _, -, -, -, hok⟩
              · rw [hm] at he
                cases he
                rfl
              · rw [hm] at hok
                cases hok
          subst hf'
          rw [attempt_of_manageTransaction_error hserver hconn hm]
          exact hchecked
        | ok p =>
          obtain ⟨f', fin⟩ := p
          rw [attempt_of_manageTransaction hserver hconn hm]
          have hsent := sendAndUpdate_copies d m req key i server conn (script.attempt i)
            { f' with deferred := .closeConnection conn session fin :: f'.deferred }
          exact (hchecked.trans (manageTransaction_copies hid' hm)).trans hsent

theorem retryLoop_copies (hs : SessionOf req session)
    (hid : ∀ r, session = some r → (w.session r).id = key) :
    w.Copies key req (retryLoop d m req session script w).world := by
  have hloop : w.Kept req session (attempts d m req session script w).2.world ∧
      w.Copies key req (attempts d m req session script w).2.world := by
    refine attempts_rule (P := fun f => w.Kept req session f.world ∧ w.Copies key req f.world)
      ⟨.refl, .unchanged rfl⟩ ?_
    rintro i f ⟨hkept, hcopies⟩
    refine ⟨attempt_sessions_rule hs .same (fun h hr _ hm hw => h.manage hr hm hw) hkept, ?_⟩
    refine attempt_copies hs ?_ hcopies i
    intro r hr
    rw [hkept.ids, hid r hr]
  exact hloop.2.trans (.unchanged (runDeferred_frame _ _).2)

end Call

section Run

variable {d : Driver} {w : World} {call : Call}

/-- **A call changes the copy of its own session at most**: a started transaction is copied, and
`endSessions` can remove the copy. -/
theorem run_copies (d : Driver) (call : Call) (key : GoString) (hw : SessionInv w)
    (hkey : ∀ t, (call.request d).details = some t → Base64.encodeToString t.lsID = key) :
    w.Copies key (call.request d) (call.run d w).world := by
  unfold Call.run
  cases hc : (w.clients call.client).closed with
  | true =>
    rw [roundTrip_closed hc]
    exact .unchanged rfl
  | false =>
    cases ht : (call.request d).details with
    | none =>
      rw [roundTrip_of_none hc ht]
      exact retryLoop_copies (sessionOf_none ht) (by simp)
    | some t =>
      rw [roundTrip_of_some hc ht]
      obtain ⟨hinv, hmapped, -⟩ := sessionInv_openSession hw t call.script.now
      have hopened : w.Copies key (call.request d) (w.openSession t call.script.now).2 :=
        .unchanged (w.openSession_opened t call.script.now).distributed
      refine hopened.trans (retryLoop_copies (sessionOf_some ht _) ?_)
      intro r hr
      cases hr
      rw [(hinv.mapped _ _ hmapped).1, hkey t ht]

theorem copy_run_other (hw : SessionInv w) {L : Bytes} (hcall : ¬ call.carries d L) :
    (call.run d w).world.copy (Base64.encodeToString L) = w.copy (Base64.encodeToString L) := by
  cases ht : (call.request d).details with
  | none =>
    have hcopies := run_copies d call (0 :: Base64.encodeToString L) hw (by simp [ht])
    exact hcopies.others _ (List.cons_ne_self _ _).symm
  | some t =>
    have hcopies := run_copies d call (Base64.encodeToString t.lsID) hw (by simp [ht])
    refine hcopies.others _ ?_
    intro heq
    exact hcall ⟨t, ht, (Base64.encodeToString_injective heq).symm⟩

/-- Every copy is that of a transaction in progress. -/
def World.CopiesRunning (w : World) : Prop := ∀ k sd, w.copy k = some sd → sd.Running

theorem copiesRunning_run (hw : SessionInv w) (hdc : w.manager.distributedCache.isSome)
    (h : w.CopiesRunning) : (call.run d w).world.CopiesRunning := by
  intro k sd hsd
  cases ht : (call.request d).details with
  | none =>
    have hcopies := run_copies d call (0 :: k) hw (by simp [ht])
    rw [hcopies.others k (List.cons_ne_self _ _).symm] at hsd
    exact h k sd hsd
  | some t =>
    have hcopies := run_copies d call (Base64.encodeToString t.lsID) hw (by simp [ht])
    by_cases hk : k = Base64.encodeToString t.lsID
    · subst hk
      rcases hcopies.own hdc with hsame | ⟨-, sd', hsd', hrun⟩ | ⟨-, hnone⟩
      · rw [hsame] at hsd
        exact h _ sd hsd
      · rw [hsd'] at hsd
        cases hsd
        exact hrun
      · rw [hnone] at hsd
        cases hsd
    · rw [hcopies.others k hk] at hsd
      exact h k sd hsd

end Run

/-! ## The session that `GetSession` returns -/

/-- The session that a pod makes of a copy. -/
def SessionData.session (sd : SessionData) : Session :=
  { id := sd.id, lsID := sd.lsID, clientID := sd.clientID, state := sd.state,
    createdAt := sd.createdAt, lastActivity := sd.lastActivity,
    transactionState := sd.transactionState, currentTxnNumber := sd.currentTxnNumber,
    pinnedServer := none, pinnedConnection := none }

namespace World

variable {w w' : World} {L : Bytes} {r : Ref}

theorem distributedSession_eq (w : World) (k : GoString) :
    w.manager.distributedSession k = (w.copy k).map SessionData.session := by
  unfold SessionManager.distributedSession copy
  cases w.manager.distributedCache with
  | none => rfl
  | some dc => rfl

/-- Whether a session is found, and which, depends on its map entry, its object and its copy. -/
theorem storedSession_congr
    (hsessions : w'.manager.sessions (Base64.encodeToString L) =
      w.manager.sessions (Base64.encodeToString L))
    (hobject : ∀ r, w.manager.sessions (Base64.encodeToString L) = some r →
      w'.session r = w.session r)
    (hcopy : w'.copy (Base64.encodeToString L) = w.copy (Base64.encodeToString L)) :
    w'.storedSession L = w.storedSession L := by
  unfold storedSession
  rw [hsessions, distributedSession_eq, distributedSession_eq, hcopy]
  cases hr : w.manager.sessions (Base64.encodeToString L) with
  | none => rfl
  | some r =>
    simp only
    rw [hobject r hr]

theorem exists_live (h : ¬ w.Unmapped L) :
    ∃ r, w.manager.sessions (Base64.encodeToString L) = some r ∧ (w.session r).state ≠ .ended := by
  unfold Unmapped at h
  push Not at h
  exact h

theorem sessionFor_of_live (hr : w.manager.sessions (Base64.encodeToString L) = some r)
    (hlive : (w.session r).state ≠ .ended) : w.sessionFor L = w.session r := by
  simp [sessionFor, storedSession, hr, hlive]

theorem Unmapped.sessionFor_none_iff (h : w.Unmapped L) (hcopies : w.CopiesRunning) :
    (w.sessionFor L).transactionState = .none ↔ w.copy (Base64.encodeToString L) = none := by
  rw [sessionFor, (h.getSession 0).2, distributedSession_eq]
  cases hc : w.copy (Base64.encodeToString L) with
  | none => simp [Session.fresh]
  | some sd =>
    have hrun := (hcopies _ sd hc).2
    simp [SessionData.session, hrun]

theorem getSession_none_iff (w : World) (L : Bytes) (now : Int) :
    (∀ r sm, w.manager.getSession L now = (some r, sm) → (sm.objects r).transactionState = .none) ↔
      (w.sessionFor L).transactionState = .none := by
  by_cases hun : w.Unmapped L
  · obtain ⟨hget, hstored⟩ := hun.getSession now
    rw [hget, sessionFor, hstored]
    unfold SessionManager.fetchSession
    cases w.manager.distributedSession (Base64.encodeToString L) with
    | none => simp [Session.fresh]
    | some s => simp [SessionManager.insertSession]
  · obtain ⟨r, hr, hlive⟩ := exists_live hun
    have hlive' : (w.manager.objects r).state ≠ .ended := hlive
    rw [sessionFor_of_live hr hlive]
    simp [SessionManager.getSession, hr, hlive', SessionManager.setSession, Session.touch,
      World.session]

end World

/-! ## What a call does to its own session and to the others -/

section Own

variable {d : Driver} {m : ClientID} {req : Request} {session : Option Ref} {script : Script}
  {w : World} {t : TransactionDetails} {r : Ref}

theorem retryLoop_state (d : Driver) (m : ClientID) (script : Script) (w : World)
    (hs : SessionOf req session) (r : Ref) :
    ((retryLoop d m req session script w).world.session r).state = (w.session r).state ∨
      req.command = .endSessions ∧
        ((retryLoop d m req session script w).world.session r).state = .ended := by
  rw [retryLoop_world, (runDeferred_keeps _ _).2 r]
  refine attempts_rule (P := fun f => (f.world.session r).state = (w.session r).state ∨
    req.command = .endSessions ∧ (f.world.session r).state = .ended) (Or.inl rfl) ?_
  intro i f hf
  refine attempt_sessions_rule (P := fun w' => (w'.session r).state = (w.session r).state ∨
    req.command = .endSessions ∧ (w'.session r).state = .ended) hs ?_ ?_ hf
  · intro w₁ w₂ h hobj _ _
    have hsess : w₂.session r = w₁.session r := congrFun hobj r
    rwa [hsess]
  · intro w₁ w₂ r' t server conn now s fin h hr _ hm hw
    rw [hw.session]
    split
    · rename_i heq
      subst heq
      by_cases he : req.command = .endSessions
      · exact Or.inr ⟨he, state_manage hm (Or.inl he)⟩
      · left
        obtain ⟨-, -, -, rfl⟩ := Session.manage_eq_ok.mp hm
        have hold : (w₁.session r).state = (w.session r).state := by
          rcases h with h | ⟨he', -⟩
          · exact h
          · exact absurd he' he
        rw [← hold]
        unfold Session.afterFinish Session.afterStart
        split
        · split <;> rfl
        · simp only [he, false_and, if_false]
          split <;> rfl
    · exact h

/-- The session has not ended and has no transaction. -/
def Session.Free (s : Session) : Prop := s.state ≠ .ended ∧ s.transactionState = .none

/-- A message that starts no transaction and does not end the session leaves it without one. -/
theorem retryLoop_free (ht : req.details = some t) (hstart : t.isStartTransaction = false)
    (hne : req.command ≠ .endSessions) (hw : PinInv w) (hfree : (w.session r).Free) :
    ((retryLoop d m req (some r) script w).world.session r).Free := by
  have hs := sessionOf_some ht r
  have hsound : Frame.Sound w req (some r) (attempts d m req (some r) script w).2 :=
    attempts_sound hs hw
  have hattempts : ((attempts d m req (some r) script w).2.world.session r).Free := by
    refine attempts_rule (P := fun f => (f.world.session r).Free) hfree ?_
    intro i f hf
    refine attempt_sessions_rule (P := fun w' => (w'.session r).Free) hs ?_ ?_ hf
    · intro w₁ w₂ h hobj _ _
      have hsess : w₂.session r = w₁.session r := congrFun hobj r
      rwa [hsess]
    · intro w₁ w₂ r' t' server conn now s fin h hr ht' hm hw'
      cases hr
      obtain rfl : t = t' := Option.some.inj (ht.symm.trans ht')
      obtain ⟨-, hends, -, rfl⟩ := Session.manage_eq_ok.mp hm
      -- a commit or abort is refused
      have hno : ¬ req.command.endsTransaction = true := by
        intro he
        rcases hends he with hyes | hprog
        · rw [hstart] at hyes
          cases hyes
        · rw [h.2] at hprog
          cases hprog
      rw [hw'.session, if_pos rfl]
      simpa [Session.afterFinish, Session.afterStart, hstart, hno, hne] using h
  rw [retryLoop_world]
  generalize (attempts d m req (some r) script w).2 = f at hsound hattempts
  cases hsound.tidy with
  | closing cs own deferred unfinished healthy =>
    rw [deferred]
    obtain ⟨hmanager, -⟩ := runDeferred_closing (some r) cs f.world
    unfold World.session at hattempts ⊢
    rwa [hmanager]
  | finishing r' c hr' own ends deferred outcome =>
    cases hr'
    rw [deferred, runDeferred_finishing]
    rw [session_of_reset]
    exact ⟨hattempts.1, rfl⟩

theorem opened_active (hcopies : w.CopiesRunning) {s : Session} {L : Bytes} {now : Int}
    (hs : w.storedSession L = some s ∧
        w.manager.distributedSession (Base64.encodeToString L) = some s ∨
      w.storedSession L = none ∧ s = Session.fresh L (lit "unknown") now) :
    s.state = .active := by
  rcases hs with ⟨-, hd⟩ | ⟨-, rfl⟩
  · rw [World.distributedSession_eq] at hd
    obtain ⟨sd, hsd, rfl⟩ := Option.map_eq_some_iff.mp hd
    exact (hcopies _ sd hsd).1
  · rfl

/-- The session of the map for the lsid has no transaction. -/
def World.Aside (w : World) (L : Bytes) : Prop :=
  ∃ r, w.manager.sessions (Base64.encodeToString L) = some r ∧ (w.session r).Free

theorem World.Aside.sessionFor {L : Bytes} (h : w.Aside L) :
    (w.sessionFor L).transactionState = .none := by
  obtain ⟨r, hr, hlive, hnone⟩ := h
  rw [World.sessionFor_of_live hr hlive, hnone]

theorem aside_run_own {call : Call} (hw : SessionInv w) (ht : (call.request d).details = some t)
    (hstart : t.isStartTransaction = false) (hne : (call.request d).command ≠ .endSessions)
    (h : w.Aside t.lsID) : (call.run d w).world.Aside t.lsID := by
  cases hc : (w.clients call.client).closed with
  | true => rwa [Call.run, roundTrip_closed hc]
  | false =>
    obtain ⟨r, hr, hfree⟩ := h
    have hopened := w.openSession_of_live hr hfree.1 call.script.now
    have hpins := (sessionInv_openSession hw t call.script.now).1.pins
    have hmapped := run_mapped hw hc ht hne
    rw [hopened] at hmapped hpins
    refine ⟨r, hmapped, ?_⟩
    rw [Call.run, roundTrip_of_some hc ht, hopened]
    refine retryLoop_free ht hstart hne hpins ?_
    simpa [SessionManager.setSession, World.session, Session.touch, Session.Free] using hfree

/-- **A commit or abort of a transaction that is pinned to a connection** leaves its session without
one. -/
theorem aside_run_of_pinned {call : Call} (hw : SessionInv w)
    (hopen : (w.clients call.client).closed = false) (ht : (call.request d).details = some t)
    (hstart : t.isStartTransaction = false)
    (hends : (call.request d).command.endsTransaction = true)
    (hr : w.manager.sessions (Base64.encodeToString t.lsID) = some r) {c : Conn}
    (hpin : (w.session r).pinnedConnection = some c) : (call.run d w).world.Aside t.lsID := by
  have hne : (call.request d).command ≠ .endSessions := by
    intro he
    rw [he] at hends
    cases hends
  obtain ⟨hactive, -, -⟩ := hw.pins.healthy r c hpin
  have hlive : (w.session r).state ≠ .ended := by
    rw [hactive]
    simp
  have hmapped := run_mapped hw hopen ht hne
  rw [w.openSession_of_live hr hlive call.script.now] at hmapped
  obtain ⟨f, hended, -, hworld⟩ := run_of_ends hw.pins hopen ht hstart hends hr hpin
  refine ⟨r, hmapped, ?_⟩
  rw [hworld, session_of_reset]
  refine ⟨?_, rfl⟩
  show (f.world.session r).state ≠ .ended
  rw [hended.active]
  simp

theorem session_run_other {call : Call} {L : Bytes} (hw : SessionInv w)
    (hcall : ¬ call.carries d L) :
    (call.run d w).world.manager.sessions (Base64.encodeToString L) =
        w.manager.sessions (Base64.encodeToString L) ∧
      ∀ r, w.manager.sessions (Base64.encodeToString L) = some r →
        (call.run d w).world.session r = w.session r := by
  cases hc : (w.clients call.client).closed with
  | true =>
    rw [Call.run, roundTrip_closed hc]
    exact ⟨rfl, fun _ _ => rfl⟩
  | false =>
    cases ht : (call.request d).details with
    | none =>
      rw [Call.run, roundTrip_of_none hc ht]
      have hs := sessionOf_none ht
      have hkept : w.Kept (call.request d) none
          (retryLoop d call.client (call.request d) none call.script w).world := retryLoop_kept hs
      constructor
      · rcases hkept.sessions with h | ⟨-, r, hr, -⟩
        · rw [h]
        · cases hr
      · intro r hr
        exact ((attempts_sound hs hw.pins).runDeferred_others hw.pins (by simp)).1
    | some t =>
      rw [Call.run, roundTrip_of_some hc ht]
      have hs := sessionOf_some ht (w.openSession t call.script.now).1
      obtain ⟨hinv, hmapped, hkeys⟩ := sessionInv_openSession hw t call.script.now
      have hkey : Base64.encodeToString L ≠ Base64.encodeToString t.lsID := by
        intro heq
        exact hcall ⟨t, ht, (Base64.encodeToString_injective heq).symm⟩
      have hkept : (w.openSession t call.script.now).2.Kept (call.request d)
          (some (w.openSession t call.script.now).1)
          (retryLoop d call.client (call.request d) (some (w.openSession t call.script.now).1)
            call.script (w.openSession t call.script.now).2).world := retryLoop_kept hs
      constructor
      · rw [← hkeys _ hkey]
        rcases hkept.sessions with h | ⟨-, r, hr, h⟩
        · rw [h]
        · cases hr
          rw [h, update_of_ne]
          rwa [(hinv.mapped _ _ hmapped).1]
      · intro r hr
        have hne : r ≠ (w.openSession t call.script.now).1 := by
          intro heq
          rw [← hkeys _ hkey, heq] at hr
          exact hkey ((hinv.mapped _ _ hr).1.symm.trans (hinv.mapped _ _ hmapped).1)
        have hsome : some (w.openSession t call.script.now).1 ≠ some r :=
          fun h => hne (Option.some.inj h).symm
        refine ((attempts_sound hs hinv.pins).runDeferred_others hinv.pins hsome).1.trans ?_
        exact (w.openSession_opened t call.script.now).others r hne

theorem storedSession_run_other {call : Call} {L : Bytes} (hw : SessionInv w)
    (hcall : ¬ call.carries d L) :
    (call.run d w).world.storedSession L = w.storedSession L :=
  World.storedSession_congr (session_run_other hw hcall).1 (session_run_other hw hcall).2
    (copy_run_other hw hcall)

/-- No session of the map is inactive. -/
def World.NoneInactive (w : World) : Prop :=
  ∀ k r, w.manager.sessions k = some r → (w.session r).state ≠ .inactive

theorem noneInactive_openSession (hw : SessionInv w) (hcopies : w.CopiesRunning)
    (h : w.NoneInactive) (t : TransactionDetails) (now : Int) :
    (w.openSession t now).2.NoneInactive := by
  intro k r' hr'
  rcases w.openSession_cases t now with ⟨r, -, -, -, heq⟩ | ⟨s, -, hs, heq⟩
  · rw [heq] at hr' ⊢
    have hold := h k r' hr'
    by_cases hr : r' = r
    · subst hr
      simpa [SessionManager.setSession, Session.touch] using hold
    · simpa [SessionManager.setSession, hr, World.session] using hold
  · rw [heq] at hr' ⊢
    by_cases hk : k = Base64.encodeToString t.lsID
    · subst hk
      obtain rfl : w.manager.next = r' := by
        simpa [SessionManager.insertSession] using hr'
      have hactive := opened_active hcopies hs
      simp [SessionManager.insertSession, hactive]
    · have hold : w.manager.sessions k = some r' := by
        simpa [SessionManager.insertSession, hk] using hr'
      have hne : r' ≠ w.manager.next := Nat.ne_of_lt (hw.mapped k r' hold).2
      simpa [SessionManager.insertSession, hne, World.session] using h k r' hold

theorem noneInactive_retryLoop (h : w.NoneInactive) (hs : SessionOf req session) :
    (retryLoop d m req session script w).world.NoneInactive := by
  intro k r hr
  have hkept : w.Kept req session (retryLoop d m req session script w).world := retryLoop_kept hs
  have hmapped : w.manager.sessions k = some r := by
    rcases hkept.sessions with hsame | ⟨-, r', -, hdel⟩
    · rwa [hsame] at hr
    · rw [hdel] at hr
      by_cases hk : k = (w.session r').id
      · simp [hk] at hr
      · rwa [update_of_ne hk] at hr
  rcases retryLoop_state d m script w hs r with hstate | ⟨-, hstate⟩
  · rw [hstate]
    exact h k r hmapped
  · rw [hstate]
    simp

theorem noneInactive_run {call : Call} (hw : SessionInv w) (hcopies : w.CopiesRunning)
    (h : w.NoneInactive) : (call.run d w).world.NoneInactive := by
  unfold Call.run
  cases hc : (w.clients call.client).closed with
  | true => rwa [roundTrip_closed hc]
  | false =>
    rw [roundTrip_open hc]
    refine noneInactive_retryLoop ?_ (sessionOf_enter w _ _)
    unfold World.enter
    cases (call.request d).details with
    | none => exact h
    | some t => exact noneInactive_openSession hw hcopies h t _

end Own

/-! ## The pods -/

/-- Pods by number, and the distributed cache they share. -/
structure Pods where
  cache : DistributedCache
  pod : Nat → World

/-- A round trip of a pod, or clients that a pod opens, closes or sweeps. -/
inductive PodEvent where
  | call (pod : Nat) (call : Call)
  | clients (pod : Nat) (clients : ClientID → Mongo)

/-- The event is a round trip for the lsid. -/
def PodEvent.carries (d : Driver) (L : Bytes) : PodEvent → Prop
  | .call _ c => c.carries d L
  | .clients _ _ => False

/-- If the event is a round trip of the pod for the lsid, it neither starts a transaction nor ends the
session. -/
def PodEvent.Plain (d : Driver) (j : Nat) (L : Bytes) : PodEvent → Prop
  | .call i c => i = j → ∀ t, (c.request d).details = some t → t.lsID = L →
      t.isStartTransaction = false ∧ (c.request d).command ≠ .endSessions
  | .clients _ _ => True

namespace Pods

/-- What a round trip of the pod works on: its own sessions and clients, and the cache. -/
def view (s : Pods) (i : Nat) : World :=
  { s.pod i with manager := { (s.pod i).manager with distributedCache := some s.cache } }

def step (d : Driver) (s : Pods) : PodEvent → Pods
  | .call i call =>
    let w := (call.run d (s.view i)).world
    { cache := w.manager.distributedCache.getD s.cache, pod := update s.pod i w }
  | .clients i clients => { s with pod := update s.pod i { s.pod i with clients } }

def run (d : Driver) (s : Pods) (es : List PodEvent) : Pods := es.foldl (step d) s

/-- Pods with new session managers, and nothing in the cache. -/
def start (clients : Nat → ClientID → Mongo) : Pods :=
  { cache := emptyCache, pod := fun i => .new (some emptyCache) (clients i) }

/-- `GetSession` of pod `j` returns nothing, or a session whose transaction state is None. -/
def Agrees (s : Pods) (j : Nat) (L : Bytes) : Prop :=
  ∀ now r sm, (s.view j).manager.getSession L now = (some r, sm) →
    (sm.objects r).transactionState = .none

theorem agrees_iff {s : Pods} {j : Nat} {L : Bytes} :
    s.Agrees j L ↔ ((s.view j).sessionFor L).transactionState = .none :=
  ⟨fun h => (World.getSession_none_iff _ _ 0).mp (h 0),
    fun h now => (World.getSession_none_iff _ _ now).mpr h⟩

/-- What holds of the pods between round trips. -/
structure Inv (s : Pods) : Prop where
  sessions : ∀ j, SessionInv (s.view j)
  noneInactive : ∀ j, (s.view j).NoneInactive
  running : ∀ k sd, s.cache.sessionGroup k = some sd → sd.Running

theorem Inv.copiesRunning {s : Pods} (h : s.Inv) (j : Nat) : (s.view j).CopiesRunning :=
  fun k sd hsd => h.running k sd hsd

section Step

variable {d : Driver} {s : Pods} {i : Nat} {call : Call} {L : Bytes}

theorem enabled_run (h : s.Inv) (i : Nat) (call : Call) :
    (call.run d (s.view i)).world.manager.distributedCache.isSome := by
  cases ht : (call.request d).details with
  | none =>
    exact (run_copies d call [] (h.sessions i) (by simp [ht])).enabled rfl
  | some t =>
    exact (run_copies d call (Base64.encodeToString t.lsID) (h.sessions i) (by simp [ht])).enabled
      rfl

theorem view_eq {w : World} (hpod : s.pod i = w)
    (hdc : w.manager.distributedCache = some s.cache) : s.view i = w := by
  subst hpod
  unfold view
  rw [← hdc]

theorem view_call_self (h : s.Inv) :
    (s.step d (.call i call)).view i = (call.run d (s.view i)).world := by
  obtain ⟨dc, hdc⟩ := Option.isSome_iff_exists.mp (enabled_run (d := d) h i call)
  refine view_eq (update_self _ _ _) ?_
  simp only [step, hdc, Option.getD_some]

theorem cache_call (h : s.Inv) (k : GoString) :
    (s.step d (.call i call)).cache.sessionGroup k = (call.run d (s.view i)).world.copy k := by
  obtain ⟨dc, hdc⟩ := Option.isSome_iff_exists.mp (enabled_run (d := d) h i call)
  simp only [step, World.copy, hdc, Option.getD_some, Option.bind_some]

theorem pod_call_other {j : Nat} (hj : j ≠ i) : (s.step d (.call i call)).pod j = s.pod j :=
  update_of_ne hj _ _

theorem view_clients (s : Pods) (i : Nat) (clients : ClientID → Mongo) (j : Nat) :
    ((s.step d (.clients i clients)).view j).manager = (s.view j).manager ∧
      ((s.step d (.clients i clients)).view j).checkedOut = (s.view j).checkedOut := by
  by_cases hj : j = i
  · subst hj
    simp [step, view]
  · simp [step, view, hj]

theorem Inv.step (h : s.Inv) (e : PodEvent) : (s.step d e).Inv := by
  cases e with
  | call i call =>
    refine ⟨?_, ?_, ?_⟩
    · intro j
      by_cases hj : j = i
      · subst hj
        rw [view_call_self h]
        exact sessionInv_roundTrip (h.sessions j)
      · exact (h.sessions j).same (by simp [view, pod_call_other hj])
          (by simp [view, pod_call_other hj]) (by simp [view, pod_call_other hj])
          (by simp [view, pod_call_other hj])
    · intro j
      by_cases hj : j = i
      · subst hj
        rw [view_call_self h]
        exact noneInactive_run (h.sessions j) (h.copiesRunning j) (h.noneInactive j)
      · have hold := h.noneInactive j
        unfold World.NoneInactive World.session view at hold ⊢
        simpa only [pod_call_other hj] using hold
    · intro k sd hsd
      rw [cache_call h] at hsd
      exact copiesRunning_run (h.sessions i) rfl (h.copiesRunning i) k sd hsd
  | clients i clients =>
    refine ⟨?_, ?_, h.running⟩
    · intro j
      obtain ⟨hm, hout⟩ := view_clients (d := d) s i clients j
      exact (h.sessions j).same (by rw [hm]) (by rw [hm]) (by rw [hm]) hout
    · intro j
      have hold := h.noneInactive j
      unfold World.NoneInactive World.session at hold ⊢
      rwa [(view_clients (d := d) s i clients j).1]

theorem inv_start (clients : Nat → ClientID → Mongo) : (start clients).Inv :=
  ⟨fun _ => sessionInv_new _ _ _, fun _ _ _ h => (nomatch h), fun _ _ h => (nomatch h)⟩

theorem Inv.run (h : s.Inv) (es : List PodEvent) : (s.run d es).Inv := by
  induction es generalizing s with
  | nil => exact h
  | cons e es ih => exact ih (h.step e)

/-- An event that is no round trip for the lsid changes nothing of what `GetSession` returns. -/
theorem agrees_step_other (h : s.Inv) {e : PodEvent} (he : ¬ e.carries d L) (j : Nat) :
    (s.step d e).Agrees j L ↔ s.Agrees j L := by
  have hstored : ((s.step d e).view j).storedSession L = (s.view j).storedSession L := by
    cases e with
    | call i call =>
      by_cases hj : j = i
      · subst hj
        rw [view_call_self h]
        exact storedSession_run_other (h.sessions j) he
      · refine World.storedSession_congr ?_ ?_ ?_
        · simp [view, pod_call_other hj]
        · intro r _
          simp [view, pod_call_other hj]
        · exact (cache_call h _).trans (copy_run_other (h.sessions i) he)
    | clients i clients =>
      have hmanager := (view_clients (d := d) s i clients j).1
      unfold World.storedSession World.session
      rw [hmanager]
  rw [agrees_iff, agrees_iff, World.sessionFor, World.sessionFor, hstored]

theorem agrees_run_other (h : s.Inv) {es : List PodEvent} (hes : ∀ e ∈ es, ¬ e.carries d L)
    (j : Nat) : (s.run d es).Agrees j L ↔ s.Agrees j L := by
  induction es generalizing s with
  | nil => exact Iff.rfl
  | cons e es ih =>
    have htail := ih (h.step (d := d) e) fun x hx => hes x (List.mem_cons_of_mem _ hx)
    exact htail.trans (agrees_step_other h (hes e List.mem_cons_self) j)

/-- A pod without a session of its own looks the session up in the cache, where a message that starts
no transaction leaves the copy as it is. -/
theorem agrees_call_unmapped (h : s.Inv) {t : TransactionDetails}
    (ht : (call.request d).details = some t) (hstart : t.isStartTransaction = false)
    (hends : (call.request d).command.endsTransaction = true) {j : Nat} (hj : j ≠ i)
    (hun : (s.view j).Unmapped t.lsID) : (s.step d (.call i call)).Agrees j t.lsID ↔
      s.cache.sessionGroup (Base64.encodeToString t.lsID) = none := by
  have hpod : (s.step d (.call i call)).pod j = s.pod j := pod_call_other hj
  have hun' : ((s.step d (.call i call)).view j).Unmapped t.lsID := by
    unfold World.Unmapped World.session view at hun ⊢
    simpa only [hpod] using hun
  have hcopy : ((s.step d (.call i call)).view j).copy (Base64.encodeToString t.lsID) =
      (call.run d (s.view i)).world.copy (Base64.encodeToString t.lsID) := cache_call h _
  rw [agrees_iff, hun'.sessionFor_none_iff ((h.step _).copiesRunning j), hcopy]
  have hcopies := run_copies d call (Base64.encodeToString t.lsID) (h.sessions i) (by simp [ht])
  rcases hcopies.own rfl with hsame | ⟨⟨t', ht', hyes⟩, -⟩ | ⟨he, -⟩
  · rw [hsame]
    rfl
  · rw [ht] at ht'
    cases ht'
    rw [hstart] at hyes
    cases hyes
  · rw [he] at hends
    cases hends

/-- The pod has a session of its own for the lsid, outside any transaction. -/
def Aside (s : Pods) (j : Nat) (L : Bytes) : Prop := (s.view j).Aside L

/-- The pod has the transaction of the lsid, on a connection of its own. -/
def Drives (s : Pods) (i : Nat) (L : Bytes) : Prop :=
  ∃ r c, (s.view i).manager.sessions (Base64.encodeToString L) = some r ∧
    ((s.view i).session r).pinnedConnection = some c

theorem Aside.agrees {j : Nat} (h : s.Aside j L) : s.Agrees j L := agrees_iff.mpr h.sessionFor

theorem aside_step (h : s.Inv) {e : PodEvent} {j : Nat} (he : e.Plain d j L) (haside : s.Aside j L) :
    (s.step d e).Aside j L := by
  obtain ⟨r, hr, hfree⟩ := haside
  cases e with
  | clients i clients =>
    have hmanager := (view_clients (d := d) s i clients j).1
    refine ⟨r, ?_, ?_⟩
    · rw [hmanager]
      exact hr
    · rw [World.session, hmanager]
      exact hfree
  | call i call =>
    by_cases hj : j = i
    · subst hj
      unfold Aside
      rw [view_call_self h]
      by_cases hcarries : call.carries d L
      · obtain ⟨t, ht, rfl⟩ := hcarries
        obtain ⟨hstart, hne⟩ := he rfl t ht rfl
        exact aside_run_own (h.sessions j) ht hstart hne ⟨r, hr, hfree⟩
      · obtain ⟨hsame, hobject⟩ := session_run_other (h.sessions j) hcarries
        exact ⟨r, hsame.trans hr, by rwa [hobject r hr]⟩
    · have hpod : (s.step d (.call i call)).pod j = s.pod j := pod_call_other hj
      refine ⟨r, ?_, ?_⟩
      · rw [← hr]
        simp [view, hpod]
      · simpa [view, hpod, World.session] using hfree

theorem aside_run (h : s.Inv) {es : List PodEvent} {j : Nat} (hes : ∀ e ∈ es, e.Plain d j L)
    (haside : s.Aside j L) : (s.run d es).Aside j L := by
  induction es generalizing s with
  | nil => exact haside
  | cons e es ih =>
    exact ih (h.step e) (fun x hx => hes x (List.mem_cons_of_mem _ hx))
      (aside_step h (hes e List.mem_cons_self) haside)

theorem Inv.starts (h : s.Inv) {j : Nat} (hagrees : s.Agrees j L) (server : Server) (conn : Conn)
    (txnNumber : Int64) (now : Int) :
    ∃ session, ((s.view j).sessionFor L).startTransaction server conn txnNumber now =
      .ok session := by
  have hnone := agrees_iff.mp hagrees
  refine ⟨_, Session.startTransaction_eq_ok.mpr ⟨?_, hnone, rfl⟩⟩
  by_cases hun : (s.view j).Unmapped L
  · have hcopy := (hun.sessionFor_none_iff (h.copiesRunning j)).mp hnone
    simp [World.sessionFor, (hun.getSession 0).2, World.distributedSession_eq, hcopy, Session.fresh]
  · obtain ⟨r, hr, hne⟩ := World.exists_live hun
    rw [World.sessionFor_of_live hr hne]
    have hactive := h.noneInactive j _ r hr
    cases hstate : ((s.view j).session r).state with
    | active => rfl
    | inactive => exact absurd hstate hactive
    | ended => exact absurd hstate hne

end Step

/-- **Which pods agree after a commit or abort**, which starts no transaction itself, until the session
is used again: the pod that makes the call, if it has the transaction on a connection and the client is
open, or has a session without one; another pod, if it once had a session of its own without a
transaction, and has since neither started one nor ended the session; and a pod that has none of its
own exactly if the cache holds no copy. Then a new transaction can start on the pod. -/
theorem pods_agree {d : Driver} (clients : Nat → ClientID → Mongo) (before between : List PodEvent)
    (i : Nat) (call : Call) (later : List PodEvent) {t : TransactionDetails}
    (ht : (call.request d).details = some t) (hstart : t.isStartTransaction = false)
    (hcommand : (call.request d).command = .commitTransaction ∨
      (call.request d).command = .abortTransaction)
    (hlater : ∀ e ∈ later, ¬ e.carries d t.lsID) {s₀ s s' : Pods}
    (hs₀ : s₀ = (start clients).run d before) (hs : s = s₀.run d between)
    (hs' : s' = (s.step d (.call i call)).run d later) :
    (((s.pod i).clients call.client).closed = false ∧ s.Drives i t.lsID ∨ s.Aside i t.lsID →
      s'.Agrees i t.lsID) ∧
    (∀ j, j ≠ i →
      (s₀.Aside j t.lsID → (∀ e ∈ between, e.Plain d j t.lsID) → s'.Agrees j t.lsID) ∧
      ((s.view j).Unmapped t.lsID → (s'.Agrees j t.lsID ↔
        s.cache.sessionGroup (Base64.encodeToString t.lsID) = none))) ∧
    ∀ j, s'.Agrees j t.lsID → ∀ server conn txnNumber now, ∃ session,
      ((s'.view j).sessionFor t.lsID).startTransaction server conn txnNumber now =
        .ok session := by
  have hinv₀ : s₀.Inv := hs₀ ▸ (inv_start clients).run before
  have hinv : s.Inv := hs ▸ hinv₀.run between
  have hinv' : s'.Inv := hs' ▸ (hinv.step _).run later
  have hends := endsTransaction_iff.mpr hcommand
  have hkept : ∀ j, s'.Agrees j t.lsID ↔ (s.step d (.call i call)).Agrees j t.lsID := by
    intro j
    rw [hs']
    exact agrees_run_other (hinv.step _) hlater j
  refine ⟨?_, ?_, fun j hagrees => hinv'.starts hagrees⟩
  · intro hown
    rw [hkept]
    apply Aside.agrees
    unfold Aside
    rw [view_call_self hinv]
    rcases hown with ⟨hopen, r, c, hr, hpin⟩ | haside
    · exact aside_run_of_pinned (hinv.sessions i) hopen ht hstart hends hr hpin
    · refine aside_run_own (hinv.sessions i) ht hstart ?_ haside
      intro he
      rw [he] at hends
      cases hends
  · intro j hj
    refine ⟨?_, ?_⟩
    · intro haside hplain
      rw [hkept]
      have hcall : PodEvent.Plain d j t.lsID (.call i call) := fun hij => absurd hij.symm hj
      refine (aside_step hinv hcall ?_).agrees
      rw [hs]
      exact aside_run hinv₀ hplain haside
    · intro hun
      rw [hkept]
      exact agrees_call_unmapped hinv ht hstart hends hj hun

def idlePods : Pods := start fun _ _ => .connected (lit "shop")

/-- A statement of the session that starts no transaction. -/
def sessionFind : Call :=
  { client := 0, wm := []
    op := Bson.opMsg (transactionFields [("find", .string (lit "orders"))])
    script := healthyScript }

/-- Pod 1 has read in the session, -/
def readPods : Pods := idlePods.run plainDriver [.call 1 sessionFind]

/-- and pod 0 has started a transaction in it after that. -/
def sharedPods : Pods := readPods.run plainDriver [.call 0 startInsert]

theorem pods_agree_sharedPods :
    ((sharedPods.view 0).session 0).transactionState = .inProgress ∧
      (sharedPods.step plainDriver (.call 0 otherClientCommit)).Agrees 0 [7] ∧
      (sharedPods.step plainDriver (.call 0 otherClientCommit)).Agrees 1 [7] := by
  have heval : ((sharedPods.view 0).session 0).transactionState = .inProgress ∧
      ((sharedPods.pod 0).clients otherClientCommit.client).closed = false ∧
      (sharedPods.view 0).manager.sessions (Base64.encodeToString [7]) = some 0 ∧
      ((sharedPods.view 0).session 0).pinnedConnection = some 1 ∧
      (readPods.view 1).manager.sessions (Base64.encodeToString [7]) = some 0 ∧
      ((readPods.view 1).session 0).state = .active ∧
      ((readPods.view 1).session 0).transactionState = .none := by decide +kernel
  obtain ⟨hprog, hopen, hmapped, hpin, hmapped', hactive, hnone⟩ := heval
  have hread : readPods = (start fun _ _ => .connected (lit "shop")).run plainDriver
    [.call 1 sessionFind] := rfl
  have hshared : sharedPods = readPods.run plainDriver [.call 0 startInsert] := rfl
  have hcommitted : sharedPods.step plainDriver (.call 0 otherClientCommit) =
    (sharedPods.step plainDriver (.call 0 otherClientCommit)).run plainDriver [] := rfl
  obtain ⟨hown, hothers, -⟩ := pods_agree (t := ⟨[7], 1, false, false⟩) _ _ _ 0 otherClientCommit []
    (by decide +kernel) rfl (Or.inl (by decide +kernel)) (by simp) hread hshared hcommitted
  have hdrives : sharedPods.Drives 0 [7] := ⟨0, 1, hmapped, hpin⟩
  have haside : readPods.Aside 1 [7] := ⟨0, hmapped', by rw [hactive]; simp, hnone⟩
  refine ⟨hprog, hown (Or.inl ⟨hopen, hdrives⟩), (hothers 1 (by decide)).1 haside ?_⟩
  intro e he
  rw [List.mem_singleton.mp he]
  exact fun h => absurd h (by decide)

end Pods

/-! ## A transaction that other pods see go on -/

/-- Two pods; the first has started a transaction. -/
def startedPods : Pods := Pods.idlePods.run plainDriver [.call 0 startInsert]

def committedPods : Pods := startedPods.step plainDriver (.call 0 otherClientCommit)

/-- The commit succeeds, but `GetSession` of the second pod returns the session with its transaction
in progress, on which no other transaction can start. -/
theorem committedPods_disagree :
    isReply (otherClientCommit.run plainDriver (startedPods.view 0)).result = true ∧
      ((committedPods.view 0).sessionFor [7]).transactionState = .none ∧
      ((committedPods.view 1).manager.getSession [7] 0).1 = some 0 ∧
      (((committedPods.view 1).manager.getSession [7] 0).2.objects 0).transactionState =
        .inProgress ∧
      ((((committedPods.view 1).manager.getSession [7] 0).2.objects 0).startTransaction ⟨0, true⟩ 1
        2 0 = .error (errorf "transaction already in progress")) := by
  decide +kernel
end MongoBouncer
