import MongoBouncer.Mongo.Interleave
import MongoBouncer.Mongo.Pinning

/-!
# One session object for an lsid

RoundTrip looks the session of an lsid up, and inserts a new `Session` object when it finds none.
The two are separate critical sections. Two calls can both miss, and the object that the second
one inserts takes the place of the first one in the map, with the transaction that was started on
it in between.

* `Session.Moves`   : what every operation on a session object keeps;
* `Shift`           : the ways a step of a call changes the session map;
* `System.Uncontested`  : the turn inserts no session for an lsid that has a live one in the map, as
  when the lookup and the insertion were one critical section;
* `System.Sharing`  : the invariant: a live session object that serves a call is the one in the map.

Principal results: `Thread.shift`, `Sharing.step`, `Sharing.keepsLive_iff` and
`one_session_object`.
-/

namespace MongoBouncer

open GoStd Function

/-! ## Operations on a session object -/

namespace Session

/-- An ended session holds no transaction. -/
def Closed (s : Session) : Prop :=
  s.state = .ended → s.transactionState = .inProgress → s.pinnedConnection = none

/-- What the operations on a session object keep. -/
structure Moves (s s' : Session) : Prop where
  id : s'.id = s.id
  ended : s.state = .ended → s'.state = .ended
  closed : s.Closed → s'.Closed

namespace Moves

variable {s : Session}

theorem refl : s.Moves s := ⟨rfl, fun h => h, fun h => h⟩

theorem touch (now : Int) : s.Moves (s.touch now) := ⟨rfl, fun h => h, fun h => h⟩

theorem unpin : s.Moves s.unpinTransaction := ⟨rfl, fun h => h, fun _ _ _ => rfl⟩

theorem reset : s.Moves s.resetTransactionState := ⟨rfl, fun h => h, fun _ _ _ => rfl⟩

theorem start {server : Server} {conn : Conn} {n : Int64} {now : Int} (h : s.state = .active) :
    s.Moves (s.started server conn n now) := by
  refine ⟨rfl, fun h => h, ?_⟩
  intro _ he
  have hactive : (s.started server conn n now).state = .active := h
  rw [hactive] at he
  cases he

theorem endSession (now : Int) : s.Moves (s.endSession now) := by
  refine ⟨?_, fun _ => rfl, ?_⟩
  · unfold Session.endSession
    split
    · rfl
    · rfl
  · intro _ _ hp
    unfold Session.endSession at hp ⊢
    split
    · rfl
    · rename_i hne
      simp only [hne, if_false] at hp

theorem finish {command : Command} {now : Int} {s' : Session} {fin : Bool}
    (h : s.finish command now = .ok (s', fin)) : s.Moves s' := by
  obtain ⟨-, -, rfl⟩ := finish_eq_ok.mp h
  unfold afterFinish
  split
  · refine ⟨rfl, fun h => h, ?_⟩
    intro _ _ hp
    exact absurd hp (Command.outcome_ne_inProgress command)
  · split
    · exact endSession now
    · exact refl

end Moves

end Session

/-- Every session object moves. -/
def World.Moves (w w' : World) : Prop := ∀ r, (w.session r).Moves (w'.session r)

namespace World.Moves

variable {w : World}

theorem refl : w.Moves w := fun _ => .refl

theorem setSession {r : Ref} {s : Session} (h : (w.session r).Moves s) :
    w.Moves { w with manager := w.manager.setSession r s } := by
  intro r'
  by_cases hr : r' = r
  · subst hr
    simpa [SessionManager.setSession] using h
  · simp only [SessionManager.setSession, World.session_mk, update_of_ne hr]
    exact .refl

theorem managed {w' : World} {r : Ref} {s : Session} {command : Command}
    (h : w.Managed w' r s command) (hs : (w.session r).Moves s) : w.Moves w' := by
  intro r'
  rw [h.session r']
  split
  · rename_i hr
    subst hr
    exact hs
  · exact .refl

theorem deferred (x : Deferred) : w.Moves (x.run w).1 := by
  cases x with
  | unpinTransaction r => exact setSession .unpin
  | closeConnection conn s fin =>
    cases fin with
    | true =>
      cases s with
      | none => exact refl
      | some r => exact setSession (w := w.close conn) .reset
    | false =>
      simp only [Deferred.run]
      split
      · exact refl
      · exact refl

end World.Moves

/-! ## What a step does to the session map -/

/-- The places of a call agree with its message and its session. -/
structure Thread.Placed (th : Thread) : Prop where
  creating : ∀ t, th.pc = .creating t → th.req.details = some t
  finishing : ∀ i server conn r, th.pc = .finishing i server conn r → th.session = some r
  session : th.session.isSome → th.req.details.isSome

/-- The ways a step of a call changes the session map: it leaves the map, it finds the session in
the map, it inserts a new object, or it ends its session. -/
inductive Shift (w : World) (th : Thread) (w' : World) (th' : Thread) : Prop where
  | kept (hsessions : w'.manager.sessions = w.manager.sessions)
      (hnext : w'.manager.next = w.manager.next) (hmoves : w.Moves w')
      (hsession : th'.session = th.session)
  | found (t : TransactionDetails) (r : Ref) (ht : th.req.details = some t)
      (hr : w.manager.sessions (Base64.encodeToString t.lsID) = some r)
      (hsessions : w'.manager.sessions = w.manager.sessions)
      (hnext : w'.manager.next = w.manager.next) (hmoves : w.Moves w')
      (hsession : th'.session = some r)
  | inserted (t : TransactionDetails) (s : Session) (ht : th.req.details = some t)
      (hwhen : w.Unmapped t.lsID ∨ th.pc = .creating t)
      (hid : s.id = Base64.encodeToString t.lsID) (hclosed : s.pinnedConnection = none)
      (hw' : w' = { w with
        manager := (w.manager.insertSession (Base64.encodeToString t.lsID) s).2 })
      (hsession : th'.session = some w.manager.next)
  | ended (r : Ref) (hr : th.session = some r) (hlive : (w.session r).state ≠ .ended)
      (hended : (w'.session r).state = .ended)
      (hsessions : w'.manager.sessions =
        update w.manager.sessions (w.session r).id none)
      (hnext : w'.manager.next = w.manager.next) (hmoves : w.Moves w')
      (hsession : th'.session = th.session)

section Step

variable {d : Driver} {w : World} {th : Thread} {up : Attempt}

theorem Shift.of_same {w' : World} {th' : Thread} (h : w.SameSessions w')
    (hsession : th'.session = th.session) : Shift w th w' th' := by
  refine .kept h.sessions h.next ?_ hsession
  intro r
  rw [h.session r]
  exact .refl

/-- The lookup: the session of the map when it is live, else that of the distributed cache. -/
theorem shift_opening (hpc : th.pc = .opening) :
    Shift w th (th.step d w up).1 (th.step d w up).2 := by
  unfold Thread.step
  simp only [hpc]
  split
  · exact .of_same (.refl w) rfl
  · split
    · exact .of_same (.refl w) rfl
    · rename_i t ht
      by_cases hlive : w.Unmapped t.lsID
      · rw [(hlive.getSession up.now).1]
        unfold SessionManager.fetchSession
        cases hd : w.manager.distributedSession (Base64.encodeToString t.lsID) with
        | none => exact .of_same (.refl w) rfl
        | some s =>
          have hpinned : s.pinnedConnection = none := by
            obtain ⟨dc, -, hdc⟩ := Option.bind_eq_some_iff.mp hd
            obtain ⟨sd, -, rfl⟩ := Option.map_eq_some_iff.mp hdc
            rfl
          exact .inserted t s ht (Or.inl hlive) (SessionManager.id_distributedSession hd) hpinned
            rfl rfl
      · unfold World.Unmapped at hlive
        push Not at hlive
        obtain ⟨r, hr, he⟩ := hlive
        have he' : (w.manager.objects r).state ≠ .ended := he
        have hget : w.manager.getSession t.lsID up.now =
            (some r, w.manager.setSession r ((w.session r).touch up.now)) := by
          simp only [SessionManager.getSession, hr, if_pos he']
          rfl
        rw [hget]
        exact .found t r ht hr rfl rfl (.setSession (.touch up.now)) rfl

theorem shift_starting {i : Nat} {server : Server} {conn : Conn}
    (hpc : th.pc = .starting i server conn) :
    Shift w th (th.step d w up).1 (th.step d w up).2 := by
  unfold Thread.step
  simp only [hpc]
  split
  · rename_i r t hr ht
    rcases w.startTransaction_cases r t server conn up.now .unknown with
      ⟨e, -, -, h⟩ | ⟨w', hstart, h, hw', -⟩
    · rw [h]
      exact .of_same (.refl w) rfl
    · rw [h]
      have hmoves : (w.session r).Moves ((w.session r).afterStart t server conn up.now) := by
        unfold Session.afterStart
        split
        · rename_i hst
          exact .start (Session.startTransaction_eq_ok.mp (hstart hst)).1
        · exact .refl
      rcases hw'.sessions with hs | ⟨hc, -⟩
      · exact .kept hs hw'.next (.managed hw' hmoves) rfl
      · cases hc
  · exact .of_same (.refl w) rfl

/-- `EndSession` takes a session out of the map only when it has not ended before. -/
theorem shift_endSession {r : Ref} {th' : Thread} (hr : th.session = some r)
    (hsession : th'.session = th.session) (now : Int) :
    Shift w th { w with manager := w.manager.endSession r now } th' := by
  by_cases he : (w.manager.objects r).state = .ended
  · have hsame : w.manager.endSession r now = w.manager := by
      simp [SessionManager.endSession, he]
    rw [hsame]
    exact .of_same (.refl w) hsession
  · have hid : ((w.session r).endSession now).id = (w.session r).id :=
      (Session.Moves.endSession now).id
    have hend : w.manager.endSession r now =
        { w.manager.setSession r ((w.session r).endSession now) with
          sessions := update w.manager.sessions (w.session r).id none
          distributedCache := w.manager.distributedCache.map
            (·.removeSession (w.session r).id) } := by
      rw [← hid]
      simp only [SessionManager.endSession, he, if_false]
      rfl
    have hmoves : w.Moves { w with manager := w.manager.endSession r now } := by
      rw [hend]
      exact World.Moves.setSession (w := w) (Session.Moves.endSession now)
    refine .ended r hr he ?_ ?_ ?_ hmoves hsession
    · rw [hend]
      simp [SessionManager.setSession, Session.endSession]
    · rw [hend]
    · rw [hend]
      rfl

theorem shift_finishing (hplaced : th.Placed) {i : Nat} {server : Server} {conn : Conn} {r : Ref}
    (hpc : th.pc = .finishing i server conn r) :
    Shift w th (th.step d w up).1 (th.step d w up).2 := by
  have hr := hplaced.finishing i server conn r hpc
  unfold Thread.step
  simp only [hpc]
  by_cases hc : th.req.command = .endSessions
  · have hend : w.finishTransaction r th.req.command up.now =
        .ok ({ w with manager := w.manager.endSession r up.now }, false) := by
      rw [hc]
      rfl
    rw [hend]
    exact shift_endSession hr (by rfl) up.now
  · rcases w.finishTransaction_cases r th.req.command up.now with
      ⟨e, -, h⟩ | ⟨s, fin, w', hs, h, hw', -⟩
    · rw [h]
      exact .of_same (.refl w) rfl
    · rw [h]
      rcases hw'.sessions with hsame | ⟨hc', -⟩
      · exact .kept hsame hw'.next (.managed hw' (.finish hs)) rfl
      · exact absurd hc' hc

/-- **What one step of a call does to the session map.** -/
theorem Thread.shift (hplaced : th.Placed) : Shift w th (th.step d w up).1 (th.step d w up).2 := by
  cases hpc : th.pc with
  | opening => exact shift_opening hpc
  | creating t =>
    unfold Thread.step
    simp only [hpc]
    exact .inserted t (Session.fresh t.lsID (lit "unknown") up.now) (hplaced.creating t hpc)
      (Or.inr hpc) rfl rfl rfl rfl
  | checkingOut i server =>
    unfold Thread.step
    simp only [hpc]
    split
    · exact .of_same (.refl w) rfl
    · rename_i conn w' ev h
      have hm := (World.manager_checkoutConnection h).1
      refine .kept (by rw [hm]) (by rw [hm]) ?_ rfl
      intro r
      rw [World.session_checkoutConnection h r]
      exact .refl
  | starting i server conn => exact shift_starting hpc
  | finishing i server conn r => exact shift_finishing hplaced hpc
  | updating i server wm op =>
    unfold Thread.step
    simp only [hpc]
    exact .of_same ((w.sameSessions_updateCursors th.client th.req server (op.cursorID d)
      up.now).trans (World.sameSessions_updateTransactions _ th.client th.req server up.now)) rfl
  | returning res =>
    unfold Thread.step
    simp only [hpc]
    split
    · exact .of_same (.refl w) rfl
    · rename_i x xs _
      have hkept : w.Kept th.req none (x.run w).1 := World.Kept.refl.run x
      exact .kept (hkept.sessions.resolve_right (by simp)) hkept.next (.deferred x) rfl
  | _ =>
    unfold Thread.step
    simp only [hpc]
    repeat' split
    all_goals exact .of_same (.refl w) rfl

theorem Thread.step_placed (hplaced : th.Placed) : (th.step d w up).2.Placed := by
  have hgoto : ∀ pc : Pc, (∀ t, pc ≠ .creating t) →
      (∀ i server conn r, pc ≠ .finishing i server conn r) → (th.goto pc).Placed :=
    fun pc h₁ h₂ => ⟨fun t ht => absurd ht (h₁ t), fun i sv c r hr => absurd hr (h₂ i sv c r),
      hplaced.session⟩
  have hafter : ∀ i retry e, (th.goto (.afterError i retry e)).Placed := by
    intro i retry e
    unfold Pc.afterError
    split
    · exact hgoto _ nofun nofun
    · exact hgoto _ nofun nofun
  unfold Thread.step
  split
  · split
    · exact hgoto _ nofun nofun
    · split
      · exact hgoto _ nofun nofun
      · rename_i t ht
        split
        · exact ⟨nofun, nofun, fun _ => by rw [ht]; rfl⟩
        · refine ⟨?_, nofun, hplaced.session⟩
          rintro t' ⟨⟩
          exact ht
  · rename_i t hpc
    exact ⟨nofun, nofun, fun _ => by rw [hplaced.creating t hpc]; rfl⟩
  · split
    · split
      · exact hafter _ _ _
      · exact hgoto _ nofun nofun
      · exact hgoto _ nofun nofun
    · exact hgoto _ nofun nofun
  · split
    · exact hafter _ _ _
    · exact hgoto _ nofun nofun
  · split
    · rename_i r t hr ht
      split
      · exact hgoto _ nofun nofun
      · refine ⟨nofun, ?_, hplaced.session⟩
        rintro i' server' conn' r' ⟨⟩
        exact hr
    · exact ⟨nofun, nofun, hplaced.session⟩
  · split
    · exact hgoto _ nofun nofun
    · exact ⟨nofun, nofun, hplaced.session⟩
  · split
    · split
      · exact hafter _ _ _
      · split
        · exact hgoto _ nofun nofun
        · exact hgoto _ nofun nofun
    · exact hafter _ _ _
  · split
    · exact hafter _ _ _
    · split
      · exact hafter _ _ _
      · exact hgoto _ nofun nofun
  · exact hgoto _ nofun nofun
  · rename_i res hpc
    split
    · exact hgoto _ nofun nofun
    · exact ⟨by simp [hpc], by simp [hpc], hplaced.session⟩
  · exact hplaced

end Step

/-! ## Session objects that serve an lsid -/

namespace World

/-- The session objects of the map are in order. -/
structure Ordered (w : World) : Prop where
  closed : ∀ r, (w.session r).Closed
  mapped : ∀ key r, w.manager.sessions key = some r →
    (w.session r).id = key ∧ r < w.manager.next

/-- The session object serves the lsid: unless it has ended, it is the one in the map. -/
structure Serves (w : World) (lsID : Bytes) (r : Ref) : Prop where
  id : (w.session r).id = Base64.encodeToString lsID
  allocated : r < w.manager.next
  mapped : (w.session r).state ≠ .ended →
    w.manager.sessions (Base64.encodeToString lsID) = some r

theorem Serves.unique {w : World} {lsID : Bytes} {r r' : Ref} (h : w.Serves lsID r)
    (h' : w.Serves lsID r') (hr : (w.session r).state ≠ .ended)
    (hr' : (w.session r').state ≠ .ended) : r = r' :=
  Option.some.inj ((h.mapped hr).symm.trans (h'.mapped hr'))

variable {w : World} {key : GoString} {s : Session}

theorem session_insertSession_of_ne {r : Ref} (hr : r ≠ w.manager.next) :
    World.session { w with manager := (w.manager.insertSession key s).2 } r = w.session r := by
  simp [SessionManager.insertSession, hr, World.session]

theorem session_insertSession_next :
    World.session { w with manager := (w.manager.insertSession key s).2 } w.manager.next = s := by
  simp [SessionManager.insertSession, World.session]

theorem Ordered.insertSession (h : w.Ordered) (hid : s.id = key)
    (hclosed : s.pinnedConnection = none) :
    World.Ordered { w with manager := (w.manager.insertSession key s).2 } := by
  refine ⟨?_, ?_⟩
  · intro r
    by_cases hr : r = w.manager.next
    · rw [hr, session_insertSession_next]
      exact fun _ _ => hclosed
    · rw [session_insertSession_of_ne hr]
      exact h.closed r
  · intro key' r hr
    by_cases hk : key' = key
    · subst hk
      obtain rfl : w.manager.next = r := by simpa [SessionManager.insertSession] using hr
      rw [session_insertSession_next]
      exact ⟨hid, Nat.lt_succ_self _⟩
    · have hr' : w.manager.sessions key' = some r := by
        simpa [SessionManager.insertSession, hk] using hr
      obtain ⟨hid', hlt⟩ := h.mapped key' r hr'
      rw [session_insertSession_of_ne (Nat.ne_of_lt hlt)]
      exact ⟨hid', Nat.lt_succ_of_lt hlt⟩

theorem Serves.insertSession {lsID lsID' : Bytes} {r : Ref} (h : w.Serves lsID r)
    (hun : w.Unmapped lsID') :
    World.Serves { w with
      manager := (w.manager.insertSession (Base64.encodeToString lsID') s).2 } lsID r := by
  have hsession : World.session { w with
      manager := (w.manager.insertSession (Base64.encodeToString lsID') s).2 } r = w.session r :=
    session_insertSession_of_ne (Nat.ne_of_lt h.allocated)
  refine ⟨?_, Nat.lt_succ_of_lt h.allocated, ?_⟩
  · rw [hsession]
    exact h.id
  · intro hlive
    rw [hsession] at hlive
    have hmap := h.mapped hlive
    have hkey : Base64.encodeToString lsID ≠ Base64.encodeToString lsID' := by
      intro hk
      rw [hk] at hmap
      exact hlive (hun r hmap)
    simpa [SessionManager.insertSession, hkey] using hmap

theorem Ordered.moves {w' : World} (h : w.Ordered) (hmoves : w.Moves w')
    (hnext : w'.manager.next = w.manager.next)
    (hsub : ∀ key r, w'.manager.sessions key = some r → w.manager.sessions key = some r) :
    w'.Ordered := by
  refine ⟨fun r => (hmoves r).closed (h.closed r), ?_⟩
  intro key r hr
  rw [(hmoves r).id, hnext]
  exact h.mapped key r (hsub key r hr)

theorem Serves.moves {w' : World} {lsID : Bytes} {r : Ref} (h : w.Serves lsID r)
    (hmoves : w.Moves w') (hnext : w'.manager.next = w.manager.next)
    (hmap : (w'.session r).state ≠ .ended →
      w.manager.sessions (Base64.encodeToString lsID) = some r →
      w'.manager.sessions (Base64.encodeToString lsID) = some r) : w'.Serves lsID r := by
  refine ⟨(hmoves r).id.trans h.id, by rw [hnext]; exact h.allocated, ?_⟩
  intro hlive
  exact hmap hlive (h.mapped fun he => hlive ((hmoves r).ended he))

end World

section Shift

variable {w w' : World} {th th' : Thread}

theorem Shift.ordered (h : Shift w th w' th') (hw : w.Ordered) : w'.Ordered := by
  cases h with
  | kept hsessions hnext hmoves =>
    exact hw.moves hmoves hnext fun key r hr => by rwa [hsessions] at hr
  | found t r ht hr hsessions hnext hmoves =>
    exact hw.moves hmoves hnext fun key r hr => by rwa [hsessions] at hr
  | inserted t s ht hwhen hid hclosed hw' =>
    rw [hw']
    exact hw.insertSession hid hclosed
  | ended r hr hlive hended hsessions hnext hmoves =>
    refine hw.moves hmoves hnext ?_
    intro key r' hr'
    rw [hsessions] at hr'
    by_cases hk : key = (w.session r).id
    · simp [hk] at hr'
    · rwa [update_of_ne hk] at hr'

/-- An object keeps serving its lsid, if no object is inserted beside a live one. -/
theorem Shift.serves (h : Shift w th w' th') (hguard : ∀ t, th.pc = .creating t → w.Unmapped t.lsID)
    (hown : ∀ r, th.session = some r → ∃ lsID, w.Serves lsID r) {lsID : Bytes} {r : Ref}
    (hr : w.Serves lsID r) : w'.Serves lsID r := by
  cases h with
  | kept hsessions hnext hmoves | found _ _ _ _ hsessions hnext hmoves =>
    exact hr.moves hmoves hnext fun _ hmap => by rwa [hsessions]
  | inserted t s ht hwhen hid hclosed hw' =>
    rw [hw']
    exact hr.insertSession (hwhen.elim (fun h => h) (hguard t))
  | ended r' hr' hlive hended hsessions hnext hmoves =>
    refine hr.moves hmoves hnext ?_
    intro hlive' hmap
    -- the entry that is deleted is that of the session that ended
    obtain ⟨lsID', hserves⟩ := hown r' hr'
    have hkey : Base64.encodeToString lsID ≠ (w.session r').id := by
      intro hk
      have hmap' := hserves.mapped hlive
      rw [← hserves.id, ← hk, hmap] at hmap'
      rw [Option.some.inj hmap'] at hlive'
      exact hlive' hended
    rwa [hsessions, update_of_ne hkey]

theorem Shift.own (h : Shift w th w' th') (hw : w.Ordered)
    (hguard : ∀ t, th.pc = .creating t → w.Unmapped t.lsID) {t : TransactionDetails}
    (ht : th.req.details = some t)
    (hown : ∀ r, th.session = some r → w.Serves t.lsID r) {r : Ref}
    (hr : th'.session = some r) : w'.Serves t.lsID r := by
  have hkeeps : ∀ {r}, w.Serves t.lsID r → w'.Serves t.lsID r :=
    fun hserves => h.serves hguard (fun r hr => ⟨t.lsID, hown r hr⟩) hserves
  cases h with
  | kept _ _ _ hsession | ended _ _ _ _ _ _ _ hsession => exact hkeeps (hown r (hsession ▸ hr))
  | found t' r' ht' hr' hsessions hnext hmoves hsession =>
    obtain rfl : t = t' := Option.some.inj (ht.symm.trans ht')
    obtain rfl : r' = r := Option.some.inj (hsession.symm.trans hr)
    obtain ⟨hid, hlt⟩ := hw.mapped _ r' hr'
    exact hkeeps ⟨hid, hlt, fun _ => hr'⟩
  | inserted t' s ht' hwhen hid hclosed hw' hsession =>
    obtain rfl : t = t' := Option.some.inj (ht.symm.trans ht')
    obtain rfl : w.manager.next = r := Option.some.inj (hsession.symm.trans hr)
    rw [hw']
    refine ⟨by rw [World.session_insertSession_next]; exact hid, Nat.lt_succ_self _, ?_⟩
    intro _
    simp [SessionManager.insertSession]

end Shift

/-! ## The system -/

/-- No live session object of the map is replaced by another one. -/
def World.KeepsLive (w w' : World) : Prop :=
  ∀ key r r', w.manager.sessions key = some r → (w.session r).state ≠ .ended →
    w'.manager.sessions key = some r' → r' = r

/-- No session object of the map that has a transaction in progress and a pinned connection is
replaced by another one. -/
def World.KeepsPinned (w w' : World) : Prop :=
  ∀ key r r', w.manager.sessions key = some r →
    (w.session r).transactionState = .inProgress → (w.session r).pinnedConnection.isSome →
    w'.manager.sessions key = some r' → r' = r

theorem World.KeepsLive.pinned {w w' : World} (h : w.KeepsLive w') (hw : w.Ordered) :
    w.KeepsPinned w' := by
  intro key r r' hr hstate hpinned hr'
  refine h key r r' hr ?_ hr'
  intro he
  rw [hw.closed r he hstate] at hpinned
  cases hpinned

theorem Shift.keepsLive {w w' : World} {th th' : Thread} (h : Shift w th w' th')
    (hguard : ∀ t, th.pc = .creating t → w.Unmapped t.lsID) : w.KeepsLive w' := by
  intro key r r' hr hlive hr'
  cases h with
  | kept hsessions | found _ _ _ _ hsessions =>
    rw [hsessions, hr] at hr'
    exact (Option.some.inj hr').symm
  | inserted t s ht hwhen hid hclosed hw' =>
    have hun : w.Unmapped t.lsID := hwhen.elim (fun h => h) (hguard t)
    have hkey : key ≠ Base64.encodeToString t.lsID := by
      rintro rfl
      exact hlive (hun r hr)
    rw [hw'] at hr'
    have hr'' : w.manager.sessions key = some r' := by
      simpa [SessionManager.insertSession, hkey] using hr'
    exact Option.some.inj (hr''.symm.trans hr)
  | ended r₀ hr₀ hlive₀ hended hsessions =>
    rw [hsessions] at hr'
    by_cases hk : key = (w.session r₀).id
    · simp [hk] at hr'
    · rw [update_of_ne hk, hr] at hr'
      exact (Option.some.inj hr').symm

theorem Thread.keepsLive_iff {d : Driver} {w : World} {th : Thread} {up : Attempt}
    (hplaced : th.Placed) (hw : w.Ordered) :
    w.KeepsLive (th.step d w up).1 ↔ ∀ t, th.pc = .creating t → w.Unmapped t.lsID := by
  constructor
  · intro hkeeps t hpc r hr
    by_contra hlive
    have hins : (th.step d w up).1.manager.sessions (Base64.encodeToString t.lsID) =
        some w.manager.next := by
      simp [Thread.step, hpc, SessionManager.insertSession, Session.fresh]
    have hnext := hkeeps _ r _ hr hlive hins
    exact absurd hnext (Nat.ne_of_gt (hw.mapped _ r hr).2)
  · intro hguard
    exact (Thread.shift hplaced).keepsLive hguard

namespace System

/-- The turn does not insert a session for an lsid that has a live session in the map. -/
def Uncontested (s : System) (turn : Turn) : Prop :=
  ∀ t, (s.threads turn.call).pc = .creating t → s.world.Unmapped t.lsID

/-- The session object serves the lsid in one of the calls. -/
def Uses (s : System) (k : Nat) (lsID : Bytes) (r : Ref) : Prop :=
  (s.threads k).session = some r ∧ ∃ t, (s.threads k).req.details = some t ∧ t.lsID = lsID

/-- The invariant of the uncontested runs. -/
structure Sharing (s : System) : Prop where
  ordered : s.world.Ordered
  placed : ∀ k, (s.threads k).Placed
  serves : ∀ k lsID r, s.Uses k lsID r → s.world.Serves lsID r

instance (w : World) (lsID : Bytes) : Decidable (w.Unmapped lsID) :=
  decidable_of_iff (∀ r ∈ w.manager.sessions (Base64.encodeToString lsID),
    (w.session r).state = .ended) Iff.rfl

instance (s : System) (turn : Turn) : Decidable (s.Uncontested turn) :=
  match h : (s.threads turn.call).pc with
  | .creating t => decidable_of_iff (s.world.Unmapped t.lsID) (by simp [Uncontested, h])
  | .opening | .choosing _ | .checkingOut _ _ | .starting _ _ _ | .finishing _ _ _ _
  | .writing _ _ _ | .reading _ _ _ | .updating _ _ _ _ | .returning _ | .returned _ =>
    isTrue (by simp [Uncontested, h])

variable {d : Driver} {s s' : System} {turn : Turn}

theorem step_world (hstep : s.step d turn = some s') :
    s'.world = ((s.threads turn.call).step d s.world turn.up).1 ∧
      s'.threads = update s.threads turn.call
        ((s.threads turn.call).step d s.world turn.up).2 := by
  obtain ⟨wire, -, rfl⟩ := Option.map_eq_some_iff.mp hstep
  exact ⟨rfl, rfl⟩

theorem Sharing.shift (h : s.Sharing) (hstep : s.step d turn = some s') :
    Shift s.world (s.threads turn.call) s'.world (s'.threads turn.call) := by
  obtain ⟨hworld, hthreads⟩ := step_world hstep
  rw [hworld, hthreads, update_self]
  exact Thread.shift (h.placed turn.call)

/-- **An uncontested turn keeps the invariant.** -/
theorem Sharing.step (h : s.Sharing) (hguard : s.Uncontested turn)
    (hstep : s.step d turn = some s') : s'.Sharing := by
  have hshift := h.shift hstep
  obtain ⟨-, hthreads⟩ := step_world hstep
  have hreq : (s'.threads turn.call).req = (s.threads turn.call).req := by
    rw [hthreads, update_self]
    exact Thread.step_req _ _ _ _
  -- the session of the call whose turn it is serves the lsid of its message
  have hown : ∀ r, (s.threads turn.call).session = some r →
      ∃ t, (s.threads turn.call).req.details = some t ∧ s.world.Serves t.lsID r := by
    intro r hr
    obtain ⟨t, ht⟩ := Option.isSome_iff_exists.mp ((h.placed turn.call).session (by rw [hr]; rfl))
    exact ⟨t, ht, h.serves turn.call t.lsID r ⟨hr, t, ht, rfl⟩⟩
  refine ⟨hshift.ordered h.ordered, ?_, ?_⟩
  · intro k
    rw [hthreads]
    by_cases hk : k = turn.call
    · subst hk
      rw [update_self]
      exact Thread.step_placed (h.placed turn.call)
    · rw [update_of_ne hk]
      exact h.placed k
  · rintro k lsID r ⟨hr, t, ht, rfl⟩
    by_cases hk : k = turn.call
    · subst hk
      rw [hreq] at ht
      refine hshift.own h.ordered hguard ht ?_ hr
      intro r₀ hr₀
      exact h.serves turn.call t.lsID r₀ ⟨hr₀, t, ht, rfl⟩
    · rw [hthreads, update_of_ne hk] at hr ht
      refine hshift.serves hguard ?_ (h.serves k t.lsID r ⟨hr, t, ht, rfl⟩)
      intro r₀ hr₀
      obtain ⟨t₀, -, hserves⟩ := hown r₀ hr₀
      exact ⟨t₀.lsID, hserves⟩

theorem Sharing.keepsLive_iff (h : s.Sharing) (hstep : s.step d turn = some s') :
    s.world.KeepsLive s'.world ↔ s.Uncontested turn := by
  rw [(step_world hstep).1]
  exact Thread.keepsLive_iff (h.placed turn.call) h.ordered

theorem Sharing.same {w : World} (h : s.Sharing) (hsame : s.world.SameSessions w) :
    Sharing { s with world := w } := by
  refine ⟨⟨?_, ?_⟩, h.placed, ?_⟩
  · intro r
    rw [hsame.session r]
    exact h.ordered.closed r
  · intro key r hr
    rw [hsame.session r, hsame.next]
    rw [hsame.sessions] at hr
    exact h.ordered.mapped key r hr
  · intro k lsID r hr
    obtain ⟨hid, hlt, hmap⟩ := h.serves k lsID r hr
    refine ⟨by rwa [hsame.session r], by rwa [hsame.next], ?_⟩
    rwa [hsame.session r, hsame.sessions]

end System

/-- The systems that calls lead to, turn after turn, in any order, as long as no session is inserted
beside a live one. In between, other pods may change the distributed cache, and clients may come,
go, or lose cache entries. -/
inductive UncontestedRun (d : Driver) (s₀ : System) : System → Prop where
  | start : UncontestedRun d s₀ s₀
  | turn {s s' : System} (h : UncontestedRun d s₀ s) (turn : Turn) (hguard : s.Uncontested turn)
      (hstep : s.step d turn = some s') : UncontestedRun d s₀ s'
  | pods {s : System} (h : UncontestedRun d s₀ s) (dc : DistributedCache)
      (hdc : s.world.manager.distributedCache.isSome) :
      UncontestedRun d s₀ { s with world := { s.world with
        manager := { s.world.manager with distributedCache := some dc } } }
  | clients {s : System} (h : UncontestedRun d s₀ s) (clients : ClientID → Mongo) :
      UncontestedRun d s₀ { s with world := { s.world with clients } }

theorem Reachable.sessionInv {d : Driver} {w : World} (h : Reachable d w) : SessionInv w := by
  induction h with
  | init dc clients => exact sessionInv_new dc clients []
  | call _ c ih => exact sessionInv_roundTrip ih
  | pods _ _ _ ih | clients _ _ ih => exact ih.same rfl rfl rfl rfl

theorem SessionInv.ordered {w : World} (h : SessionInv w) : w.Ordered := by
  refine ⟨?_, h.mapped⟩
  intro r he _
  cases hp : (w.session r).pinnedConnection with
  | none => rfl
  | some c =>
    rw [(h.pins.healthy r c hp).1] at he
    cases he

theorem sharing_initial {w : World} (h : SessionInv w) (client : Nat → ClientID)
    (req : Nat → Request) : (System.initial w client req).Sharing :=
  ⟨h.ordered, fun _ => ⟨nofun, nofun, nofun⟩, fun _ _ _ ⟨h, _⟩ => nomatch h⟩

theorem UncontestedRun.sharing {d : Driver} {s₀ s : System} (h₀ : s₀.Sharing)
    (h : UncontestedRun d s₀ s) : s.Sharing := by
  induction h with
  | start => exact h₀
  | turn _ turn hguard hstep ih => exact ih.step hguard hstep
  | pods _ _ _ ih | clients _ _ ih => exact ih.same ⟨rfl, rfl, rfl, rfl⟩

/-- **One session object for an lsid.** In a run in which no session was inserted beside a live
one, the live objects with which calls serve an lsid are one and the same. The next turn replaces
no live object exactly when it is uncontested too, and then none with a pinned transaction. -/
theorem one_session_object {d : Driver} {w : World} (hw : Reachable d w)
    {client : Nat → ClientID} {req : Nat → Request} {s : System}
    (h : UncontestedRun d (.initial w client req) s) :
    (∀ k k' lsID r r', s.Uses k lsID r → s.Uses k' lsID r' →
      (s.world.session r).state ≠ .ended → (s.world.session r').state ≠ .ended → r = r') ∧
    ∀ turn s', s.step d turn = some s' →
      (s.world.KeepsLive s'.world ↔ s.Uncontested turn) ∧
      (s.Uncontested turn → s.world.KeepsPinned s'.world) := by
  have hsharing := h.sharing (sharing_initial hw.sessionInv client req)
  refine ⟨?_, ?_⟩
  · intro k k' lsID r r' hr hr'
    exact (hsharing.serves k lsID r hr).unique (hsharing.serves k' lsID r' hr')
  · intro turn s' hstep
    refine ⟨hsharing.keepsLive_iff hstep, ?_⟩
    intro hguard
    exact ((hsharing.keepsLive_iff hstep).mpr hguard).pinned hsharing.ordered

/-! ## Two statements that begin a transaction -/

/-- Turns that are checked one by one. -/
def System.runUncontested (d : Driver) (s : System) (turns : List Turn) : Option System :=
  turns.foldlM (fun s turn => if s.Uncontested turn then s.step d turn else none) s

theorem UncontestedRun.of_turns {d : Driver} {s₀ s s' : System} (turns : List Turn)
    (h₀ : UncontestedRun d s₀ s) (h : s.runUncontested d turns = some s') : UncontestedRun d s₀ s' :=
  System.checked_rule (fun turn h hguard hstep => h.turn turn hguard hstep) turns h₀ h

/-- Calls that each send the first statement of the transaction. -/
def racingStarts : System :=
  .initial newWorld (fun _ => 0) fun _ => startInsert.request plainDriver

/-- A turn of call `k` on a healthy cluster. -/
def racingTurn (k : Nat) : Turn :=
  { call := k, up := healthyScript.attempt 0, reply := Bson.opMsgBytes [] }

/-- The system in which call 0 has started its transaction. -/
def firstStarted : System :=
  (racingStarts.runUncontested plainDriver (List.replicate 5 (racingTurn 0))).getD racingStarts

theorem uncontestedRun_firstStarted : UncontestedRun plainDriver racingStarts firstStarted := by
  refine UncontestedRun.of_turns (List.replicate 5 (racingTurn 0)) .start ?_
  have hsome : (racingStarts.runUncontested plainDriver
      (List.replicate 5 (racingTurn 0))).isSome = true := by decide +kernel
  obtain ⟨s, hs⟩ := Option.isSome_iff_exists.mp hsome
  rw [firstStarted, hs]
  rfl

/-- Call 1 looks the session up after that, and the transaction keeps its object. -/
theorem one_session_object_firstStarted :
    (firstStarted.world.session 0).transactionState = .inProgress ∧
      ∀ s', firstStarted.step plainDriver (racingTurn 1) = some s' →
        firstStarted.world.KeepsPinned s'.world := by
  refine ⟨by decide +kernel, ?_⟩
  intro s' hstep
  exact ((one_session_object (reachable_newWorld plainDriver) uncontestedRun_firstStarted).2
    (racingTurn 1) s' hstep).2 (by decide +kernel)

/-- Both calls look the session up before either inserts one. Call 0 starts its transaction on
connection 1 with session object 0; then call 1 puts object 1 in its place. -/
theorem racing_lookup_replaces_transaction :
    (racingStarts.run plainDriver ([racingTurn 0, racingTurn 1] ++
        List.replicate 4 (racingTurn 0))).map (fun s =>
          (s.world.manager.sessions (lit "Bw=="), (s.world.session 0).transactionState,
            (s.world.session 0).pinnedConnection)) =
      some (some 0, .inProgress, some 1) ∧
    (racingStarts.run plainDriver ([racingTurn 0, racingTurn 1] ++
        List.replicate 4 (racingTurn 0) ++ [racingTurn 1])).map (fun s =>
          (s.world.manager.sessions (lit "Bw=="), (s.world.session 0).transactionState,
            (s.world.session 0).pinnedConnection)) =
      some (some 1, .inProgress, some 1) := by
  refine ⟨by decide +kernel, by decide +kernel⟩

end MongoBouncer
