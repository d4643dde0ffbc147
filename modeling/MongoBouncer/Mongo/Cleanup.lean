import MongoBouncer.Mongo.Pinning

/-!
# Session cleanup

`CleanupInactiveSessions` and `CleanupExpiredSessions` take sessions out of the map by their last
activity alone. A session whose transaction is idle for longer than the limit is dropped with its
connection still pinned, and no later message can find it again.

* `Cleanup`     : one run of either cleanup, with its limit and its time;
* `Activity`    : the steps of a run, calls and cleanups in any order;
* `Reclaimable` : every open pinned connection can still be committed, aborted or ended;
* `Spares`      : no session with a pinned connection has been idle for longer than the limit.

Principal results: `pinsMapped_roundTrip` (calls never lose a pinned connection),
`SessionInv.cleanup_safe_iff`, `SessionInv.pinsMapped_cleaned_iff` and, over whole runs,
`cleanups_keep_pinned_iff`.
-/

namespace MongoBouncer

open GoStd

/-! ## The two cleanups -/

/-- `t.Sub(u)` of two times: a difference outside the range of `time.Duration` saturates. -/
def timeSub (t u : Int) : Int := max (-2 ^ 63) (min (2 ^ 63 - 1) (t - u))

namespace SessionManager

/-- A loop over the map that deletes the sessions for which the test holds. -/
def removeSessions (sm : SessionManager) (test : Session → Bool) : SessionManager :=
  { sm with sessions := fun id => (sm.sessions id).filter fun r => !test (sm.objects r) }

def cleanupInactiveSessions (sm : SessionManager) (maxInactiveTime now : Int) : SessionManager :=
  sm.removeSessions fun s =>
    decide (s.state = .ended ∨ timeSub now s.lastActivity > maxInactiveTime)

def cleanupExpiredSessions (sm : SessionManager) (maxAge now : Int) : SessionManager :=
  sm.removeSessions fun s => decide (timeSub now s.lastActivity > maxAge)

end SessionManager

/-- A run of one of the cleanups. -/
inductive Cleanup where
  | inactive (maxInactiveTime now : Int)
  | expired (maxAge now : Int)
  deriving DecidableEq, Repr

namespace Cleanup

def run : Cleanup → SessionManager → SessionManager
  | inactive maxInactiveTime now, sm => sm.cleanupInactiveSessions maxInactiveTime now
  | expired maxAge now, sm => sm.cleanupExpiredSessions maxAge now

def limit : Cleanup → Int
  | inactive maxInactiveTime _ => maxInactiveTime
  | expired maxAge _ => maxAge

def now : Cleanup → Int
  | inactive _ now => now
  | expired _ now => now

/-- The session has been without activity for longer than the limit. -/
def Idle (k : Cleanup) (s : Session) : Prop := k.limit < timeSub k.now s.lastActivity

/-- The test by which the cleanup removes a session. -/
def Removes : Cleanup → Session → Prop
  | inactive limit now, s => s.state = .ended ∨ limit < timeSub now s.lastActivity
  | expired limit now, s => limit < timeSub now s.lastActivity

theorem sessions_run (k : Cleanup) (sm : SessionManager) (id : GoString) (r : Ref) :
    (k.run sm).sessions id = some r ↔ sm.sessions id = some r ∧ ¬ k.Removes (sm.objects r) := by
  cases k with
  | inactive limit now =>
    simp [run, SessionManager.cleanupInactiveSessions, SessionManager.removeSessions, Removes,
      Option.filter_eq_some_iff]
  | expired limit now =>
    simp [run, SessionManager.cleanupExpiredSessions, SessionManager.removeSessions, Removes,
      Option.filter_eq_some_iff]

theorem objects_run (k : Cleanup) (sm : SessionManager) : (k.run sm).objects = sm.objects := by
  cases k with
  | inactive | expired => rfl

theorem next_run (k : Cleanup) (sm : SessionManager) : (k.run sm).next = sm.next := by
  cases k with
  | inactive | expired => rfl

theorem removes_of_active (k : Cleanup) {s : Session} (h : s.state = .active) :
    k.Removes s ↔ k.Idle s := by
  cases k with
  | inactive limit now => simp [Removes, Idle, h, Cleanup.limit, Cleanup.now]
  | expired limit now => rfl

end Cleanup

/-! ## Runs of calls and cleanups -/

/-- A step of a run: a call, a cleanup, or, as between the calls of `Reachable`, a change of the
distributed cache by other pods or of the clients. -/
inductive Activity where
  | call (c : Call)
  | cleanup (k : Cleanup)
  | pods (dc : DistributedCache)
  | clients (clients : ClientID → Mongo)

def World.cleaned (w : World) (k : Cleanup) : World := { w with manager := k.run w.manager }

def Activity.run (d : Driver) (w : World) : Activity → World
  | call c => (c.run d w).world
  | cleanup k => w.cleaned k
  | pods dc =>
    if w.manager.distributedCache.isSome then
      { w with manager := { w.manager with distributedCache := some dc } }
    else w
  | clients cs => { w with clients := cs }

/-- The property holds in every world that the run passes through. -/
def Throughout (d : Driver) (P : World → Prop) (w : World) : List Activity → Prop
  | [] => P w
  | a :: as => P w ∧ Throughout d P (a.run d w) as

/-- The property holds of every cleanup of the run, in the world in which it runs. -/
def EveryCleanup (d : Driver) (P : Cleanup → World → Prop) (w : World) : List Activity → Prop
  | [] => True
  | a :: as => (∀ k, a = .cleanup k → P k w) ∧ EveryCleanup d P (a.run d w) as

/-- The world in which the run ends. -/
def World.after (d : Driver) (w : World) (as : List Activity) : World :=
  as.foldl (Activity.run d) w

/-! ## Pinned connections -/

/-- The session object can be reached through its id, and its transaction can be committed,
aborted, or dropped with the session. -/
structure World.Completable (w : World) (r : Ref) : Prop where
  found : ∀ lsID now, Base64.encodeToString lsID = (w.session r).id →
    (w.manager.getSession lsID now).1 = some r
  commits : ∀ now, (w.manager.commitTransaction r now).isOk
  aborts : ∀ now, (w.manager.abortTransaction r now).isOk
  ends : ∀ now, ((w.manager.endSession r now).objects r).pinnedConnection = none ∧
    (w.manager.endSession r now).sessions (w.session r).id = none

/-- Every open pinned connection belongs to a session that is still in the map and that can be
committed, aborted or ended. -/
def World.Reclaimable (w : World) : Prop :=
  ∀ r c, (w.session r).pinnedConnection = some c → c ∈ w.checkedOut →
    w.manager.sessions (w.session r).id = some r ∧ w.Completable r

/-- None of the sessions that the cleanup removes has a pinned connection that is still open. -/
def Cleanup.Safe (k : Cleanup) (w : World) : Prop :=
  ∀ id r c, w.manager.sessions id = some r → (k.run w.manager).sessions id = none →
    (w.session r).pinnedConnection = some c → c ∉ w.checkedOut

/-- No session of the map with a pinned connection has been idle for longer than the limit. -/
def Cleanup.Spares (k : Cleanup) (w : World) : Prop :=
  ∀ id r, w.manager.sessions id = some r → (w.session r).pinnedConnection.isSome →
    ¬ k.Idle (w.session r)

/-- The session of a pinned connection is in the map, under its id. -/
def World.PinsMapped (w : World) : Prop :=
  ∀ r c, (w.session r).pinnedConnection = some c → w.manager.sessions (w.session r).id = some r

theorem completable_of_inProgress {w : World} {r : Ref} (hactive : (w.session r).state = .active)
    (hstate : (w.session r).transactionState = .inProgress)
    (hmap : w.manager.sessions (w.session r).id = some r) : w.Completable r := by
  have hactive' : (w.manager.objects r).state = .active := hactive
  have hstate' : (w.manager.objects r).transactionState = .inProgress := hstate
  refine ⟨?_, ?_, ?_, ?_⟩
  · intro lsID now hid
    simp [SessionManager.getSession, hid, hmap, hactive']
  · intro now
    simp [SessionManager.commitTransaction, Session.commitTransaction, Session.finishTransaction,
      hstate', Except.map, Except.isOk, Except.toBool]
  · intro now
    simp [SessionManager.abortTransaction, Session.abortTransaction, Session.finishTransaction,
      hstate', Except.map, Except.isOk, Except.toBool]
  · intro now
    simp [SessionManager.endSession, SessionManager.setSession, Session.endSession, hactive',
      hstate', World.session]

theorem SessionInv.reclaimable_iff {w : World} (h : SessionInv w) :
    w.Reclaimable ↔ w.PinsMapped := by
  constructor
  · intro hrec r c hc
    exact (hrec r c hc (h.pins.checkedOut r c hc)).1
  · intro hmap r c hc _
    obtain ⟨hactive, -, hstate⟩ := h.pins.healthy r c hc
    exact ⟨hmap r c hc, completable_of_inProgress hactive hstate (hmap r c hc)⟩

/-! ## A call leaves the sessions of pinned connections in the map -/

/-- `endSessions` ends the session, and no command brings an ended one back. -/
theorem state_manage {s s' : Session} {t : TransactionDetails} {command : Command}
    {server : Server} {conn : Conn} {now : Int} {fin : Bool}
    (h : s.manage t command server conn now = .ok (s', fin))
    (he : command = .endSessions ∨ s.state = .ended) : s'.state = .ended := by
  obtain ⟨-, -, -, rfl⟩ := Session.manage_eq_ok.mp h
  have hstart : (s.afterStart t server conn now).state = s.state := by
    unfold Session.afterStart
    split
    · rfl
    · rfl
  unfold Session.afterFinish
  split
  · rename_i hends
    rcases he with rfl | he
    · cases hends
    · exact hstart.trans he
  · split
    · rfl
    · rename_i hne
      rcases he with rfl | he
      · by_contra hns
        exact hne ⟨rfl, hns⟩
      · exact hstart.trans he

/-- A session that a call takes out of the map has ended. -/
def World.Dropped (w : World) (session : Option Ref) (w' : World) : Prop :=
  w'.manager.sessions = w.manager.sessions ∨
    ∃ r, session = some r ∧ (w'.session r).state = .ended

section Call

variable {d : Driver} {m : ClientID} {req : Request} {session : Option Ref} {script : Script}
  {w w' w'' : World}

theorem attempts_dropped (hs : SessionOf req session) :
    w.Dropped session (attempts d m req session script w).2.world := by
  refine attempts_rule (P := fun f => w.Dropped session f.world) (Or.inl rfl) ?_
  intro i f hf
  refine attempt_sessions_rule hs ?_ ?_ hf
  · intro w₁ w₂ h hobj hsess _
    rcases h with h | ⟨r, hr, he⟩
    · exact Or.inl (hsess.trans h)
    · refine Or.inr ⟨r, hr, ?_⟩
      rwa [World.session, hobj]
  · intro w₁ w₂ r t server conn now s fin h hr _ hm hw
    have hself : w₂.session r = s := by
      rw [hw.session r, if_pos rfl]
    rcases hw.sessions with hsame | ⟨hcommand, -⟩
    · rcases h with h | ⟨r', hr', he⟩
      · exact Or.inl (hsame.trans h)
      · obtain rfl : r = r' := Option.some.inj (hr.symm.trans hr')
        exact Or.inr ⟨r, hr, hself ▸ state_manage hm (Or.inr he)⟩
    · exact Or.inr ⟨r, hr, hself ▸ state_manage hm (Or.inl hcommand)⟩

theorem Deferred.run_keeps (x : Deferred) (w : World) :
    (x.run w).1.manager.sessions = w.manager.sessions ∧
      ∀ r, ((x.run w).1.session r).state = (w.session r).state := by
  have hset : ∀ (w : World) (r : Ref) (s : Session), s.state = (w.session r).state →
      ∀ r', ((w.manager.setSession r s).objects r').state = (w.session r').state := by
    intro w r s hs r'
    by_cases hr : r' = r
    · subst hr
      simp [SessionManager.setSession, hs]
    · simp [SessionManager.setSession, hr, World.session]
  cases x with
  | unpinTransaction r => exact ⟨rfl, hset w r _ rfl⟩
  | closeConnection conn s fin =>
    cases fin with
    | true =>
      cases s with
      | none => exact ⟨rfl, fun _ => rfl⟩
      | some r => exact ⟨rfl, hset (w.close conn) r _ rfl⟩
    | false =>
      simp only [Deferred.run]
      split
      · exact ⟨rfl, fun _ => rfl⟩
      · exact ⟨rfl, fun _ => rfl⟩

theorem runDeferred_keeps (ds : List Deferred) (w : World) :
    (runDeferred ds w).1.manager.sessions = w.manager.sessions ∧
      ∀ r, ((runDeferred ds w).1.session r).state = (w.session r).state := by
  induction ds generalizing w with
  | nil => exact ⟨rfl, fun _ => rfl⟩
  | cons x ds ih =>
    obtain ⟨hsess, hstate⟩ := ih (x.run w).1
    obtain ⟨hsess', hstate'⟩ := x.run_keeps w
    exact ⟨hsess.trans hsess', fun r => (hstate r).trans (hstate' r)⟩

theorem retryLoop_dropped (hs : SessionOf req session) :
    w.Dropped session (retryLoop d m req session script w).world := by
  obtain ⟨hsess, hstate⟩ := runDeferred_keeps (attempts d m req session script w).2.deferred
    (attempts d m req session script w).2.world
  have hdropped : w.Dropped session (attempts d m req session script w).2.world :=
    attempts_dropped hs
  rcases hdropped with h | ⟨r, hr, he⟩
  · exact Or.inl (hsess.trans h)
  · exact Or.inr ⟨r, hr, (hstate r).trans he⟩

/-- The attempts of a call: its own session is in the map when they begin, and another one that
has a connection pinned is not touched. -/
theorem pinsMapped_retryLoop (h : SessionInv w) (hpins : w.PinsMapped) (hs : SessionOf req session)
    (hown : ∀ r, session = some r → w.manager.sessions (w.session r).id = some r) :
    (retryLoop d m req session script w).world.PinsMapped := by
  have hkept : w.Kept req session (retryLoop d m req session script w).world := retryLoop_kept hs
  have hinv : SessionInv (retryLoop d m req session script w).world := sessionInv_retryLoop h hs
  have hmap : ∀ r c, ((retryLoop d m req session script w).world.session r).pinnedConnection =
      some c → w.manager.sessions (w.session r).id = some r := by
    intro r c hc
    by_cases hr : session = some r
    · exact hown r hr
    · have hsound : Frame.Sound w req session (attempts d m req session script w).2 :=
        attempts_sound hs h.pins
      rw [retryLoop_world, (hsound.runDeferred_others h.pins hr).1] at hc
      exact hpins r c hc
  have hdropped : w.Dropped session (retryLoop d m req session script w).world :=
    retryLoop_dropped hs
  intro r c hc
  rw [hkept.ids]
  rcases hdropped with hsame | ⟨r₀, hr₀, he⟩
  · rw [hsame]
    exact hmap r c hc
  · have hne : r ≠ r₀ := by
      rintro rfl
      have hactive := (hinv.pins.healthy r c hc).1
      rw [he] at hactive
      cases hactive
    rcases hkept.sessions with hsame | ⟨-, r', hr', hdel⟩
    · rw [hsame]
      exact hmap r c hc
    · obtain rfl : r₀ = r' := Option.some.inj (hr₀.symm.trans hr')
      have hid : (w.session r).id ≠ (w.session r₀).id := by
        intro heq
        have h₁ := hmap r c hc
        rw [heq, hown r₀ hr₀] at h₁
        exact hne (Option.some.inj h₁).symm
      rw [hdel, Function.update_of_ne hid]
      exact hmap r c hc

theorem pinsMapped_openSession (h : SessionInv w) (hpins : w.PinsMapped) (t : TransactionDetails)
    (now : Int) : (w.openSession t now).2.PinsMapped := by
  have hopened := w.openSession_opened t now
  intro r c hc
  rcases w.openSession_cases t now with ⟨r₀, -, -, -, heq⟩ | ⟨s, hun, -, heq⟩
  · rw [heq] at hopened hc ⊢
    by_cases hr : r = r₀
    · subst hr
      have hc' : (w.session r).pinnedConnection = some c := (hopened.pinned c hc).1
      simpa [SessionManager.setSession, Session.touch] using hpins r c hc'
    · rw [hopened.others r hr] at hc ⊢
      exact hpins r c hc
  · rw [heq] at hopened hc ⊢
    by_cases hr : r = w.manager.next
    · -- the new session object has no connection
      subst hr
      have hc' := (hopened.pinned c hc).1
      have hlt := (h.mapped _ _ (hpins _ c hc')).2
      exact absurd hlt (Nat.lt_irrefl _)
    · rw [hopened.others r hr] at hc ⊢
      have hmap := hpins r c hc
      have hkey : (w.session r).id ≠ Base64.encodeToString t.lsID := by
        intro hk
        rw [hk] at hmap
        have hactive := (h.pins.healthy r c hc).1
        rw [hun r hmap] at hactive
        cases hactive
      simpa [SessionManager.insertSession, hkey] using hmap

/-- **A call never loses a pinned connection.** -/
theorem pinsMapped_roundTrip (h : SessionInv w) (hpins : w.PinsMapped) :
    (roundTrip d m req script w).world.PinsMapped := by
  cases hc : (w.clients m).closed with
  | true => rwa [roundTrip_closed hc]
  | false =>
    cases ht : req.details with
    | none =>
      rw [roundTrip_of_none hc ht]
      exact pinsMapped_retryLoop h hpins (sessionOf_none ht) (by simp)
    | some t =>
      rw [roundTrip_of_some hc ht]
      obtain ⟨hinv, hmap, -⟩ := sessionInv_openSession h t script.now
      refine pinsMapped_retryLoop hinv (pinsMapped_openSession h hpins t script.now)
        (sessionOf_some ht _) ?_
      intro r hr
      cases hr
      rw [(hinv.mapped _ _ hmap).1]
      exact hmap

end Call

/-! ## What a cleanup does -/

section Runs

variable {d : Driver} {w : World}

section

variable (h : SessionInv w)

include h

theorem sessionInv_cleaned (k : Cleanup) : SessionInv (w.cleaned k) := by
  have hsession : ∀ r, (w.cleaned k).session r = w.session r := fun r =>
    congrFun (k.objects_run w.manager) r
  refine ⟨⟨?_, ?_, ?_⟩, ?_⟩
  · intro r
    rw [hsession]
    exact h.pins.healthy r
  · intro r c hc
    rw [hsession] at hc
    exact h.pins.checkedOut r c hc
  · intro r r' c hc hc'
    rw [hsession] at hc hc'
    exact h.pins.disjoint r r' c hc hc'
  · intro id r hr
    rw [hsession]
    have hnext : (w.cleaned k).manager.next = w.manager.next := k.next_run w.manager
    rw [hnext]
    exact h.mapped id r ((k.sessions_run w.manager id r).mp hr).1

theorem SessionInv.removes_iff (k : Cleanup) {r : Ref} {c : Conn}
    (hc : (w.session r).pinnedConnection = some c) :
    k.Removes (w.session r) ↔ k.Idle (w.session r) :=
  k.removes_of_active (h.pins.healthy r c hc).1

/-- **When a cleanup removes no session with an open pinned connection.** -/
theorem SessionInv.cleanup_safe_iff (k : Cleanup) : k.Safe w ↔ k.Spares w := by
  constructor
  · intro hsafe id r hr hpin hidle
    obtain ⟨c, hc⟩ := Option.isSome_iff_exists.mp hpin
    refine hsafe id r c hr ?_ hc (h.pins.checkedOut r c hc)
    cases hk : (k.run w.manager).sessions id with
    | none => rfl
    | some r' =>
      obtain ⟨hr', hkeep⟩ := (k.sessions_run w.manager id r').mp hk
      obtain rfl : r = r' := Option.some.inj (hr.symm.trans hr')
      exact absurd ((h.removes_iff k hc).mpr hidle) hkeep
  · intro hspares id r c hr hnone hc _
    apply hspares id r hr (by rw [hc]; rfl)
    rw [← h.removes_iff k hc]
    by_contra hkeep
    have hsome := (k.sessions_run w.manager id r).mpr ⟨hr, hkeep⟩
    rw [hnone] at hsome
    cases hsome

theorem SessionInv.pinsMapped_cleaned_iff (hpins : w.PinsMapped)
    (k : Cleanup) : (w.cleaned k).PinsMapped ↔ k.Spares w := by
  have hsession : ∀ r, (w.cleaned k).session r = w.session r := fun r =>
    congrFun (k.objects_run w.manager) r
  constructor
  · intro hmap id r hr hpin hidle
    obtain ⟨c, hc⟩ := Option.isSome_iff_exists.mp hpin
    have hkept := hmap r c (by rw [hsession]; exact hc)
    exact ((k.sessions_run w.manager _ r).mp hkept).2 ((h.removes_iff k hc).mpr hidle)
  · intro hspares r c hc
    rw [hsession] at hc ⊢
    have hr := hpins r c hc
    refine (k.sessions_run w.manager _ r).mpr ⟨hr, ?_⟩
    intro hrem
    exact hspares _ r hr (by rw [hc]; rfl) ((h.removes_iff k hc).mp hrem)

theorem sessionInv_activity (a : Activity) : SessionInv (a.run d w) := by
  cases a with
  | call c => exact sessionInv_roundTrip h
  | cleanup k => exact sessionInv_cleaned h k
  | pods dc =>
    simp only [Activity.run]
    split
    · exact h.same rfl rfl rfl rfl
    · exact h
  | clients cs => exact h.same rfl rfl rfl rfl

theorem SessionInv.pinsMapped_activity_iff (hpins : w.PinsMapped)
    (a : Activity) : (a.run d w).PinsMapped ↔ ∀ k, a = .cleanup k → k.Spares w := by
  cases a with
  | call c => exact iff_of_true (pinsMapped_roundTrip h hpins) nofun
  | cleanup k =>
    rw [show Activity.run d w (.cleanup k) = w.cleaned k from rfl, h.pinsMapped_cleaned_iff hpins]
    constructor
    · rintro hk _ ⟨⟩
      exact hk
    · intro hk
      exact hk k rfl
  | pods dc =>
    refine iff_of_true ?_ nofun
    simp only [Activity.run]
    split
    · exact hpins
    · exact hpins
  | clients cs => exact iff_of_true hpins nofun

theorem SessionInv.reclaimable_throughout_iff (hpins : w.PinsMapped) (as : List Activity) :
    Throughout d World.Reclaimable w as ↔ EveryCleanup d Cleanup.Spares w as := by
  induction as generalizing w with
  | nil => exact iff_of_true (h.reclaimable_iff.mpr hpins) trivial
  | cons a as ih =>
    have hstep := h.pinsMapped_activity_iff (d := d) hpins a
    have hinv : SessionInv (a.run d w) := sessionInv_activity h a
    constructor
    · rintro ⟨-, hrest⟩
      -- the rest of the run begins in a world whose pinned connections are all reclaimable
      have hnow : (a.run d w).Reclaimable := by
        cases as with
        | nil => exact hrest
        | cons b bs => exact hrest.1
      have hpins' := hinv.reclaimable_iff.mp hnow
      exact ⟨hstep.mp hpins', (ih hinv hpins').mp hrest⟩
    · rintro ⟨hk, hrest⟩
      have hpins' := hstep.mpr hk
      exact ⟨h.reclaimable_iff.mpr hpins, (ih hinv hpins').mpr hrest⟩

theorem sessionInv_after (as : List Activity) : SessionInv (w.after d as) := by
  induction as generalizing w with
  | nil => exact h
  | cons a as ih => exact ih (sessionInv_activity h a)

end

end Runs

def World.new (dc : Option DistributedCache) (clients : ClientID → Mongo) : World :=
  { manager := .new dc, clients, checkedOut := [] }

/-- **Cleanup against pinned connections.** After any run, a cleanup removes no session with an
open pinned connection exactly when it spares the sessions that have one. Over a run, every open
pinned connection stays reclaimable exactly when every cleanup of the run spares them. -/
theorem cleanups_keep_pinned_iff (d : Driver) (dc : Option DistributedCache)
    (clients : ClientID → Mongo) (as : List Activity) :
    (∀ k : Cleanup, k.Safe ((World.new dc clients).after d as) ↔
      k.Spares ((World.new dc clients).after d as)) ∧
    (Throughout d World.Reclaimable (World.new dc clients) as ↔
      EveryCleanup d Cleanup.Spares (World.new dc clients) as) := by
  have hinv : SessionInv (World.new dc clients) := sessionInv_new dc clients []
  have hpins : (World.new dc clients).PinsMapped := by
    intro r c hc
    cases hc
  exact ⟨(sessionInv_after hinv as).cleanup_safe_iff, hinv.reclaimable_throughout_iff hpins as⟩

/-- The cleanup of the cache monitor, six minutes after the epoch. -/
def monitorCleanup : Cleanup := .inactive (5 * 60 * 10 ^ 9) (6 * 60 * 10 ^ 9)

/-- A transaction is started at time 0 and its next message is late. The cleanup drops its session
with connection 1 open and pinned. The commit that follows finds no transaction, and the
connection stays pinned and open. -/
theorem monitorCleanup_drops_transaction :
    ¬ monitorCleanup.Safe (newWorld.after plainDriver [.call startInsert]) ∧
    ¬ Throughout plainDriver World.Reclaimable newWorld
      [.call startInsert, .cleanup monitorCleanup, .call brokenCommit] ∧
    1 ∈ (newWorld.after plainDriver
      [.call startInsert, .cleanup monitorCleanup, .call brokenCommit]).checkedOut := by
  -- the session is in the map until the cleanup, which leaves the connection open
  have hbefore : (newWorld.after plainDriver [.call startInsert]).manager.sessions (lit "Bw==") =
        some 0 ∧
      (monitorCleanup.run (newWorld.after plainDriver [.call startInsert]).manager).sessions
        (lit "Bw==") = none ∧
      ((newWorld.after plainDriver [.call startInsert]).session 0).pinnedConnection = some 1 ∧
      1 ∈ (newWorld.after plainDriver [.call startInsert]).checkedOut := by
    decide +kernel
  obtain ⟨hmapped, hdropped, hpinned, hopen⟩ := hbefore
  refine ⟨?_, ?_, by decide +kernel⟩
  · intro h
    exact h (lit "Bw==") 0 1 hmapped hdropped hpinned hopen
  · rintro ⟨-, -, h, -⟩
    generalize hworld : (Activity.cleanup monitorCleanup).run plainDriver
      ((Activity.call startInsert).run plainDriver newWorld) = w at h
    have hafter : (w.session 0).pinnedConnection = some 1 ∧ 1 ∈ w.checkedOut ∧
        w.manager.sessions (w.session 0).id ≠ some 0 := by
      rw [← hworld]
      decide +kernel
    obtain ⟨hpinned', hopen', hgone⟩ := hafter
    exact hgone (h 0 1 hpinned' hopen').1

end MongoBouncer
