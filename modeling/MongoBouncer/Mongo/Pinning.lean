import MongoBouncer.Mongo.Completion

/-!
# A transaction stays on its connection

Runs of calls on clients that share one session manager. From the call that starts a transaction on
connection `C` to the call that commits or aborts it, every message of the transaction is written on
`C`, `C` is not closed, and no other message is written on it.

* `SessionInv`   : of a world between calls. Besides the pins, the map sends every key to a session
  object with that id;
* `Holding`    : the transaction of an lsid is in progress on a connection;
* `Began`, `Riding` : the frames of the call that starts it and of the calls inside it.

Principal results: `Holding.other` and `Holding.inside` (what one call does), `startCall_holding`
and `transaction_stays_on_its_connection`.
-/

namespace MongoBouncer

open GoStd

/-! ## The invariant of the session manager -/

/-- The sessions of a world between calls. -/
structure SessionInv (w : World) : Prop where
  pins : PinInv w
  mapped : ∀ k r, w.manager.sessions k = some r → (w.session r).id = k ∧ r < w.manager.next

theorem SessionInv.same {w w' : World} (h : SessionInv w)
    (hsessions : w'.manager.sessions = w.manager.sessions)
    (hobjects : w'.manager.objects = w.manager.objects) (hnext : w'.manager.next = w.manager.next)
    (hout : w'.checkedOut = w.checkedOut) : SessionInv w' := by
  have hsession : ∀ r, w'.session r = w.session r := fun r => congrFun hobjects r
  refine ⟨⟨?_, ?_, ?_⟩, ?_⟩
  · intro r
    rw [hsession]
    exact h.pins.healthy r
  · intro r c
    rw [hsession, hout]
    exact h.pins.checkedOut r c
  · intro r r' c
    rw [hsession, hsession]
    exact h.pins.disjoint r r' c
  · intro k r
    rw [hsession, hsessions, hnext]
    exact h.mapped k r

section Kept

variable {d : Driver} {m : ClientID} {req : Request} {session : Option Ref} {script : Script}
  {w w' : World}

theorem World.Kept.setSession (h : w.Kept req session w') {r : Ref} {s : Session}
    (hs : s.id = (w'.session r).id) :
    w.Kept req session { w' with manager := w'.manager.setSession r s } := by
  refine ⟨?_, h.next, h.sessions⟩
  intro r'
  by_cases hr : r' = r
  · subst hr
    simp [SessionManager.setSession, hs, h.ids]
  · simp only [SessionManager.setSession, World.session_mk, Function.update_of_ne hr]
    exact h.ids r'

theorem World.Kept.run (h : w.Kept req session w') (x : Deferred) :
    w.Kept req session (x.run w').1 := by
  have hclose : ∀ conn, w.Kept req session (w'.close conn) := fun _ => ⟨h.ids, h.next, h.sessions⟩
  cases x with
  | unpinTransaction r => exact h.setSession rfl
  | closeConnection conn s fin =>
    cases fin with
    | true =>
      cases s with
      | none => exact hclose conn
      | some r => exact (hclose conn).setSession rfl
    | false =>
      simp only [Deferred.run]
      split
      · exact hclose conn
      · exact h

theorem World.Kept.deferred (h : w.Kept req session w') (ds : List Deferred) :
    w.Kept req session (runDeferred ds w').1 := by
  induction ds generalizing w' with
  | nil => exact h
  | cons x ds ih => exact ih (h.run x)

theorem retryLoop_kept (hs : SessionOf req session) :
    w.Kept req session (retryLoop d m req session script w).world := by
  rw [retryLoop_world]
  exact (attempts_kept hs).deferred _

theorem sessionInv_retryLoop (h : SessionInv w) (hs : SessionOf req session) :
    SessionInv (retryLoop d m req session script w).world := by
  have hk : w.Kept req session (retryLoop d m req session script w).world := retryLoop_kept hs
  refine ⟨retryLoop_pinInv hs h.pins, ?_⟩
  intro k r hr
  rw [hk.ids, hk.next]
  rcases hk.sessions with hsame | ⟨-, r', -, hdel⟩
  · rw [hsame] at hr
    exact h.mapped k r hr
  · rw [hdel] at hr
    by_cases hkey : k = (w.session r').id
    · simp [hkey] at hr
    · rw [Function.update_of_ne hkey] at hr
      exact h.mapped k r hr

/-- Opening a session: the lsid is mapped to the session of the call, other keys stay. -/
theorem sessionInv_openSession (h : SessionInv w) (t : TransactionDetails) (now : Int) :
    SessionInv (w.openSession t now).2 ∧
      (w.openSession t now).2.manager.sessions (Base64.encodeToString t.lsID) =
        some (w.openSession t now).1 ∧
      ∀ k, k ≠ Base64.encodeToString t.lsID →
        (w.openSession t now).2.manager.sessions k = w.manager.sessions k := by
  have hopened := w.openSession_opened t now
  rcases w.openSession_cases t now with ⟨r, hr, -, -, heq⟩ | ⟨s, hun, hs, heq⟩
  · rw [heq] at hopened ⊢
    refine ⟨⟨hopened.pinInv h.pins, ?_⟩, hr, fun _ _ => rfl⟩
    intro k r' hr'
    obtain ⟨hid, hlt⟩ := h.mapped k r' hr'
    refine ⟨?_, hlt⟩
    by_cases hrr : r' = r
    · subst hrr
      simpa [SessionManager.setSession, Session.touch] using hid
    · rw [hopened.others r' hrr]
      exact hid
  · have hid : s.id = Base64.encodeToString t.lsID := by
      rcases hs with ⟨-, hd⟩ | ⟨-, rfl⟩
      · exact SessionManager.id_distributedSession hd
      · rfl
    rw [heq] at hopened ⊢
    refine ⟨⟨hopened.pinInv h.pins, ?_⟩, ?_, ?_⟩
    · intro k r' hr'
      by_cases hk : k = Base64.encodeToString t.lsID
      · subst hk
        obtain rfl : w.manager.next = r' := by
          simpa [SessionManager.insertSession] using hr'
        refine ⟨?_, Nat.lt_succ_self _⟩
        simpa [SessionManager.insertSession] using hid
      · have hr'' : w.manager.sessions k = some r' := by
          simpa [SessionManager.insertSession, hk] using hr'
        obtain ⟨hid', hlt⟩ := h.mapped k r' hr''
        refine ⟨?_, Nat.lt_succ_of_lt hlt⟩
        rw [hopened.others r' (Nat.ne_of_lt hlt)]
        exact hid'
    · simp [SessionManager.insertSession]
    · intro k hk
      simp [SessionManager.insertSession, hk]

theorem sessionInv_roundTrip (h : SessionInv w) : SessionInv (roundTrip d m req script w).world := by
  cases hc : (w.clients m).closed with
  | true => rwa [roundTrip_closed hc]
  | false =>
    cases ht : req.details with
    | none =>
      rw [roundTrip_of_none hc ht]
      exact sessionInv_retryLoop h (sessionOf_none ht)
    | some t =>
      rw [roundTrip_of_some hc ht]
      exact sessionInv_retryLoop (sessionInv_openSession h t script.now).1 (sessionOf_some ht _)

theorem sessionInv_new (dc : Option DistributedCache) (clients : ClientID → Mongo)
    (out : List Conn) : SessionInv { manager := .new dc, clients, checkedOut := out } := by
  refine ⟨⟨?_, ?_, ?_⟩, ?_⟩
  · intro r c hc
    cases hc
  · intro r c hc
    cases hc
  · intro r r' c hc
    cases hc
  · intro k r hr
    cases hr

end Kept

/-! ## A transaction in progress -/

/-- The transaction of the lsid `L`, with session object `r`, is in progress on `c`. -/
structure Holding (w : World) (L : Bytes) (r : Ref) (c : Conn) : Prop where
  inv : SessionInv w
  mapped : w.manager.sessions (Base64.encodeToString L) = some r
  pinned : (w.session r).pinnedConnection = some c

/-- The message of the call carries the lsid, with txnNumber and autocommit. -/
def Call.carries (d : Driver) (L : Bytes) (call : Call) : Prop :=
  ∃ t, (call.request d).details = some t ∧ t.lsID = L

/-- The command is commitTransaction, abortTransaction or endSessions. -/
def Command.completes (c : Command) : Bool :=
  decide (c = .commitTransaction ∨ c = .abortTransaction ∨ c = .endSessions)

theorem Command.not_completes {c : Command} (h : c.completes = false) :
    c.endsTransaction = false ∧ c ≠ .endSessions := by
  simp only [Command.completes, decide_eq_false_iff_not, not_or] at h
  simp [Command.endsTransaction, h]

theorem afterFinish_of_not_completes {s : Session} {command : Command} {now : Int}
    (h : command.completes = false) : s.afterFinish command now = s := by
  obtain ⟨hends, hne⟩ := command.not_completes h
  simp [Session.afterFinish, hends, hne]

section Call

variable {d : Driver} {m : ClientID} {req : Request} {session : Option Ref} {script : Script}
  {w : World} {L : Bytes} {r : Ref} {c : Conn} {t : TransactionDetails}

theorem retryLoop_mapped (hs : SessionOf req session) (hw : SessionInv w) {k : GoString}
    (hr : w.manager.sessions k = some r)
    (hown : ∀ r', session = some r' → ∃ k', w.manager.sessions k' = some r')
    (hkeep : session = some r → req.command ≠ .endSessions) :
    (retryLoop d m req session script w).world.manager.sessions k = some r := by
  have hk : w.Kept req session (retryLoop d m req session script w).world := retryLoop_kept hs
  rcases hk.sessions with hsame | ⟨hc, r', hr', hdel⟩
  · rw [hsame, hr]
  · rw [hdel, Function.update_of_ne, hr]
    intro hkey
    obtain ⟨k', hk'⟩ := hown r' hr'
    rw [hkey, (hw.mapped k' r' hk').1, hk'] at hr
    cases hr
    exact hkeep hr' hc

theorem Holding.retryLoop_other (h : Holding w L r c) (hs : SessionOf req session)
    (hown : ∀ r', session = some r' → ∃ k', w.manager.sessions k' = some r')
    (hne : session ≠ some r) :
    Holding (retryLoop d m req session script w).world L r c ∧
      .close c ∉ (retryLoop d m req session script w).events ∧
      ∀ b, .write c b ∉ (retryLoop d m req session script w).events := by
  have hf : Frame.Sound w req session (attempts d m req session script w).2 :=
    attempts_sound hs h.inv.pins
  obtain ⟨hsess, hconn⟩ := hf.runDeferred_others h.inv.pins hne
  refine ⟨⟨sessionInv_retryLoop h.inv hs, ?_, ?_⟩, (hconn c h.pinned).2⟩
  · exact retryLoop_mapped hs h.inv h.mapped hown fun h' => absurd h' hne
  · rw [retryLoop_world, hsess]
    exact h.pinned

theorem Holding.openSession_self (h : Holding w L r c) (hL : t.lsID = L) (now : Int) :
    (w.openSession t now).1 = r ∧ Holding (w.openSession t now).2 L r c := by
  subst hL
  have hinv := (sessionInv_openSession h.inv t now).1
  have hactive := (h.inv.pins.healthy r c h.pinned).1
  rw [w.openSession_of_live h.mapped (by rw [hactive]; simp) now] at hinv ⊢
  refine ⟨rfl, hinv, h.mapped, ?_⟩
  simpa [SessionManager.setSession, Session.touch] using h.pinned

theorem Holding.openSession_other (h : Holding w L r c) (hL : t.lsID ≠ L) (now : Int) :
    (w.openSession t now).1 ≠ r ∧ Holding (w.openSession t now).2 L r c := by
  obtain ⟨hinv, hown, hkeys⟩ := sessionInv_openSession h.inv t now
  have hkey : Base64.encodeToString L ≠ Base64.encodeToString t.lsID :=
    fun he => hL (Base64.encodeToString_injective he).symm
  have hmapped : (w.openSession t now).2.manager.sessions (Base64.encodeToString L) = some r := by
    rw [hkeys _ hkey, h.mapped]
  have hne : (w.openSession t now).1 ≠ r := by
    intro heq
    rw [heq] at hown
    exact hkey ((hinv.mapped _ _ hmapped).1.symm.trans (hinv.mapped _ _ hown).1)
  refine ⟨hne, hinv, hmapped, ?_⟩
  rw [(w.openSession_opened t now).others r hne.symm]
  exact h.pinned

/-- **A call for another lsid, or outside transactions, leaves the transaction and its connection
alone.** -/
theorem Holding.other (h : Holding w L r c) {call : Call} (hcall : ¬ call.carries d L) :
    Holding (call.run d w).world L r c ∧ .close c ∉ (call.run d w).events ∧
      ∀ b, .write c b ∉ (call.run d w).events := by
  unfold Call.run
  cases hc : (w.clients call.client).closed with
  | true =>
    rw [roundTrip_closed hc]
    exact ⟨h, by simp, by simp⟩
  | false =>
    cases ht : (call.request d).details with
    | none =>
      rw [roundTrip_of_none hc ht]
      exact h.retryLoop_other (sessionOf_none ht) (by simp) (by simp)
    | some t =>
      rw [roundTrip_of_some hc ht]
      have hL : t.lsID ≠ L := fun hL => hcall ⟨t, ht, hL⟩
      obtain ⟨hne, hw⟩ := h.openSession_other hL call.script.now
      refine hw.retryLoop_other (sessionOf_some ht _) ?_ fun he => hne (Option.some.inj he)
      intro r' hr'
      cases hr'
      exact ⟨_, (sessionInv_openSession h.inv t call.script.now).2.1⟩

/-! ## Calls inside the transaction -/

/-- The frame of a call inside the transaction: `s` is its session, which no attempt changes. -/
structure Riding (s : Session) (r : Ref) (c : Conn) (f : Frame) : Prop where
  session : f.world.session r = s
  deferred : ∃ n, f.deferred = (List.replicate n c).map (.closeConnection · (some r) false)
  written : ∀ x ∈ f.events, ∃ b, x = .write c b

theorem attempt_riding {s : Session} (ht : req.details = some t)
    (hcommand : req.command.completes = false) (hs : s.Healthy) (hp : s.pinnedConnection = some c)
    {i : Nat} {f : Frame} (hf : Riding s r c f) :
    Riding s r c (Flow.frame (attempt d m req (some r) script i f)) := by
  have hprog := (hs c hp).2.2
  have hpin : (f.world.session r).getPinnedConnection = some c := by
    rw [hf.session, hs.getPinnedConnection, hp]
  cases attempt_cases d m req script (sessionOf_some ht r) i f with
  | stopped h =>
    rw [Flow.frame_of_stopped h]
    exact hf
  | refused r' t' server conn w' ev e hr' ht' hserver hconn hmanage h =>
    obtain ⟨-, rfl, rfl⟩ := World.checkoutConnection_of_pinned hpin hconn
    rw [h]
    simpa [Flow.frame] using hf
  | sentOutside server conn w' ev hr' => cases hr'
  | sentInside r' t' server conn w' w'' ev s' fin hr' ht' hserver hconn hmanage hworld hgroups h =>
    obtain ⟨rfl, rfl, rfl⟩ := World.checkoutConnection_of_pinned hpin hconn
    cases hr'
    rw [hf.session] at hmanage
    obtain ⟨hstart, -, rfl, rfl⟩ := Session.manage_eq_ok.mp hmanage
    -- a second startTransaction would have been refused
    have hnot : t'.isStartTransaction = false := by
      cases hst : t'.isStartTransaction with
      | false => rfl
      | true => exact absurd (hprog.symm.trans (hstart hst).2) (by decide)
    have hsess : w''.session r = s := by
      rw [hworld.session, if_pos rfl, afterFinish_of_not_completes hcommand]
      simp [Session.afterStart, hnot]
    obtain ⟨n, hn⟩ := hf.deferred
    rw [h]
    obtain ⟨ev, w₃, hev, hw₃, hframe⟩ := frame_sendAndUpdate d m req i server conn
      (script.attempt i) _
    rw [hframe]
    refine ⟨(hw₃.session r).trans hsess, ⟨n + 1, ?_⟩, ?_⟩
    · simp [hn, List.replicate_succ, (Command.not_completes hcommand).1]
    · intro x hx
      simp only [hnot, Bool.false_eq_true, if_false, List.append_nil] at hx
      rcases List.mem_append.mp hx with hx | hx
      · exact hf.written x hx
      · rcases hev with rfl | ⟨b, rfl⟩
        · cases hx
        · exact ⟨b, List.mem_singleton.mp hx⟩

/-- **A call inside the transaction writes on its connection only and closes nothing.** -/
theorem Holding.inside (h : Holding w L r c) {call : Call} (hcall : call.carries d L)
    (hcommand : (call.request d).command.completes = false) :
    Holding (call.run d w).world L r c ∧ ∀ x ∈ (call.run d w).events, ∃ b, x = .write c b := by
  obtain ⟨t, ht, hL⟩ := hcall
  unfold Call.run
  cases hc : (w.clients call.client).closed with
  | true =>
    rw [roundTrip_closed hc]
    exact ⟨h, by simp⟩
  | false =>
    rw [roundTrip_of_some hc ht]
    obtain ⟨hr, hw⟩ := h.openSession_self hL call.script.now
    rw [hr]
    generalize (w.openSession t call.script.now).2 = w₁ at hw
    have hhealthy := hw.inv.pins.healthy r
    have hs := sessionOf_some ht r
    have hriding : Riding (w₁.session r) r c
        (attempts d call.client (call.request d) (some r) call.script w₁).2 :=
      attempts_rule ⟨rfl, ⟨0, rfl⟩, by simp⟩
        fun _ _ hf => attempt_riding ht hcommand hhealthy hw.pinned hf
    obtain ⟨n, hn⟩ := hriding.deferred
    obtain ⟨hmanager, -, -, hevents⟩ := runDeferred_closing (some r) (List.replicate n c)
      (attempts d call.client (call.request d) (some r) call.script w₁).2.world
    -- the transaction is in progress, so the closures close nothing
    have hbusy : World.idle (attempts d call.client (call.request d) (some r) call.script w₁).2.world
        (some r) = false := by
      simp [World.idle, Session.isTransactionActive, hriding.session, (hhealthy c hw.pinned).2.2]
    refine ⟨⟨sessionInv_retryLoop hw.inv hs, ?_, ?_⟩, ?_⟩
    · refine retryLoop_mapped hs hw.inv hw.mapped ?_ fun _ => (Command.not_completes hcommand).2
      intro r' hr'
      cases hr'
      exact ⟨_, hw.mapped⟩
    · rw [retryLoop_world, hn, World.session, hmanager]
      exact (congrArg Session.pinnedConnection hriding.session).trans hw.pinned
    · rw [retryLoop_events, hn, hevents, hbusy]
      simpa using hriding.written

/-! ## The call that starts the transaction -/

/-- The frame of a call that has not started a transaction. If its message asks for one, it has
only checked connections out. -/
structure Waiting (t : TransactionDetails) (f : Frame) : Prop where
  notStarted : ∀ L c, .start L c ∉ f.events
  clean : t.isStartTransaction = true → f.deferred = [] ∧ ∀ c b, .write c b ∉ f.events

/-- The frame of a call that has started the transaction of `r` on `c`. -/
structure Began (t : TransactionDetails) (r : Ref) (c : Conn) (f : Frame) : Prop where
  isStart : t.isStartTransaction = true
  pinned : (f.world.session r).pinnedConnection = some c
  inProgress : (f.world.session r).transactionState = .inProgress
  deferred : f.deferred = [.closeConnection c (some r) false]
  started : ∀ L x, .start L x ∈ f.events → x = c
  written : ∀ x b, .write x b ∈ f.events → x = c

theorem Waiting.checkout {f : Frame} (hf : Waiting t f) {server : Server} {up : Attempt}
    {conn : Conn} {w' : World} {ev : List Event}
    (h : f.world.checkoutConnection server session up = .ok (conn, w', ev)) :
    Waiting t { f with world := w', events := f.events ++ ev } := by
  have hev : ev = [] ∨ ∃ c, ev = [.checkout c] := by
    rcases World.checkoutConnection_eq_ok h with ⟨-, -, hev⟩ | ⟨-, -, -, hev⟩
    · exact Or.inl hev
    · exact Or.inr ⟨conn, hev⟩
  refine ⟨?_, ?_⟩
  · intro L c
    rcases hev with rfl | ⟨c', rfl⟩ <;> simp [hf.notStarted L c]
  · intro hst
    obtain ⟨hd, hw⟩ := hf.clean hst
    refine ⟨hd, ?_⟩
    intro c b
    rcases hev with rfl | ⟨c', rfl⟩ <;> simp [hw c b]

theorem attempt_starting (ht : req.details = some t) (hcommand : req.command.completes = false)
    {i : Nat} {f : Frame} (hf : Waiting t f ∨ ∃ c, Began t r c f) :
    Waiting t (Flow.frame (attempt d m req (some r) script i f)) ∨
      ∃ c, Began t r c (Flow.frame (attempt d m req (some r) script i f)) := by
  rcases hf with hf | ⟨c, hf⟩
  · cases attempt_cases d m req script (sessionOf_some ht r) i f with
    | stopped h =>
      rw [Flow.frame_of_stopped h]
      exact Or.inl hf
    | refused r' t' server conn w' ev e hr' ht' hserver hconn hmanage h =>
      rw [h]
      exact Or.inl (hf.checkout hconn)
    | sentOutside server conn w' ev hr' => cases hr'
    | sentInside r' t' server conn w' w'' ev s' fin hr' ht' hserver hconn hmanage hworld hgroups h =>
      cases hr'
      obtain rfl : t = t' := Option.some.inj (ht.symm.trans ht')
      obtain ⟨hstart, -, rfl, rfl⟩ := Session.manage_eq_ok.mp hmanage
      have hf' := hf.checkout hconn
      obtain ⟨evs, w₃, hevs, hw₃, hframe⟩ := frame_sendAndUpdate d m req i server conn
        (script.attempt i) _
      rw [h, hframe]
      have hwrite : ∀ x, x ∈ evs → ∃ b, x = .write conn b := by
        intro x hx
        rcases hevs with rfl | ⟨b, rfl⟩
        · cases hx
        · exact ⟨b, List.mem_singleton.mp hx⟩
      cases hst : t.isStartTransaction with
      | false =>
        left
        refine ⟨?_, by simp [hst]⟩
        intro L c hx
        simp only [Bool.false_eq_true, if_false, List.append_nil] at hx
        rcases List.mem_append.mp hx with hx | hx
        · exact hf'.notStarted L c hx
        · obtain ⟨b, hb⟩ := hwrite _ hx
          cases hb
      | true =>
        right
        obtain ⟨hd, hclean⟩ := hf'.clean hst
        have hsess : w₃.session r =
            (w'.session r).started server conn t.txnNumber (script.attempt i).now := by
          rw [hw₃.session r, hworld.session, if_pos rfl, afterFinish_of_not_completes hcommand]
          simp [Session.afterStart, hst]
        refine ⟨conn, hst, ?_, ?_, ?_, ?_, ?_⟩
        · rw [hsess]
          rfl
        · rw [hsess]
          rfl
        · simp only [(Command.not_completes hcommand).1, Bool.false_eq_true, if_false]
          rw [show f.deferred = [] from hd]
        · intro L x hx
          simp only [if_true, List.mem_append, List.mem_singleton] at hx
          rcases hx with (hx | hx) | hx
          · exact absurd (List.mem_append.mpr hx) (hf'.notStarted L x)
          · exact (Event.start.inj hx).2
          · obtain ⟨b, hb⟩ := hwrite _ hx
            cases hb
        · intro x b hx
          simp only [if_true, List.mem_append, List.mem_singleton] at hx
          rcases hx with (hx | hx) | hx
          · exact absurd (List.mem_append.mpr hx) (hclean x b)
          · cases hx
          · obtain ⟨b', hb⟩ := hwrite _ hx
            exact (Event.write.inj hb).1
  · -- a further attempt finds the transaction in progress and is refused
    right
    refine ⟨c, ?_⟩
    rw [attempt_frozen d m req script ht (c := c)]
    · exact hf
    · simp [Session.getPinnedConnection, hf.inProgress, hf.pinned]
    · intro server conn now
      exact Session.manage_of_started hf.isStart (by rw [hf.inProgress]; decide)

/-- **The call that starts a transaction leaves it in progress on its connection**, which is the
only one it wrote on, and does not close it. -/
theorem startCall_holding (hw : SessionInv w) {call : Call} (hcall : call.carries d L)
    (hcommand : (call.request d).command.completes = false)
    (hstart : .start L c ∈ (call.run d w).events) :
    (∃ r, Holding (call.run d w).world L r c) ∧ .close c ∉ (call.run d w).events ∧
      ∀ x b, .write x b ∈ (call.run d w).events → x = c := by
  obtain ⟨t, ht, rfl⟩ := hcall
  unfold Call.run at hstart ⊢
  cases hclosed : (w.clients call.client).closed with
  | true =>
    rw [roundTrip_closed hclosed] at hstart
    cases hstart
  | false =>
    rw [roundTrip_of_some hclosed ht] at hstart ⊢
    obtain ⟨hinv, hmapped, -⟩ := sessionInv_openSession hw t call.script.now
    generalize (w.openSession t call.script.now).1 = r at hstart hmapped ⊢
    generalize (w.openSession t call.script.now).2 = w₁ at hstart hinv hmapped ⊢
    have hs := sessionOf_some ht r
    have hf : Waiting t (attempts d call.client (call.request d) (some r) call.script w₁).2 ∨
        ∃ c, Began t r c (attempts d call.client (call.request d) (some r) call.script w₁).2 :=
      attempts_rule (P := fun f => Waiting t f ∨ ∃ c, Began t r c f)
        (Or.inl ⟨by simp, fun _ => ⟨rfl, by simp⟩⟩) fun _ _ hf => attempt_starting ht hcommand hf
    have hsound : Frame.Sound w₁ (call.request d) (some r)
        (attempts d call.client (call.request d) (some r) call.script w₁).2 :=
      attempts_sound hs hinv.pins
    have hmapped' : (retryLoop d call.client (call.request d) (some r) call.script
        w₁).world.manager.sessions (Base64.encodeToString t.lsID) = some r := by
      refine retryLoop_mapped hs hinv hmapped ?_ fun _ => (Command.not_completes hcommand).2
      intro r' hr'
      cases hr'
      exact ⟨_, hmapped⟩
    have hinv' : SessionInv (retryLoop d call.client (call.request d) (some r) call.script w₁).world :=
      sessionInv_retryLoop hinv hs
    rw [retryLoop_events] at hstart ⊢
    rw [retryLoop_world] at hmapped' hinv' ⊢
    generalize (attempts d call.client (call.request d) (some r) call.script w₁).2 = f
      at hf hsound hstart hmapped' hinv' ⊢
    have hstart' : .start t.lsID c ∈ f.events := by
      rcases List.mem_append.mp hstart with h | h
      · exact h
      · obtain ⟨x, hx⟩ := mem_runDeferred h
        cases hx
    rcases hf with hf | ⟨c', hf⟩
    · exact absurd hstart' (hf.notStarted _ _)
    · obtain rfl := hf.started _ _ hstart'
      have hbusy : (f.world.session r).isTransactionActive = true := by
        simp [Session.isTransactionActive, hf.inProgress]
      have hrun : runDeferred f.deferred f.world = (f.world, []) := by
        simp [hf.deferred, runDeferred, Deferred.run, hbusy]
      rw [hrun] at hmapped' hinv' ⊢
      rw [List.append_nil]
      exact ⟨⟨r, hinv', hmapped', hf.pinned⟩, hsound.notClosed c, hf.written⟩

theorem Holding.restart (h : Holding w L r c) {call : Call}
    (ht : (call.request d).details = some t) (hL : t.lsID = L)
    (hst : t.isStartTransaction = true) :
    Holding (call.run d w).world L r c ∧ (call.run d w).events = [] := by
  unfold Call.run
  cases hc : (w.clients call.client).closed with
  | true =>
    rw [roundTrip_closed hc]
    exact ⟨h, rfl⟩
  | false =>
    rw [roundTrip_of_some hc ht]
    obtain ⟨hr, hw⟩ := h.openSession_self hL call.script.now
    rw [hr]
    generalize (w.openSession t call.script.now).2 = w₁ at hw
    have hhealthy := hw.inv.pins.healthy r
    obtain ⟨-, -, hprog⟩ := hhealthy c hw.pinned
    have hframe : (attempts d call.client (call.request d) (some r) call.script w₁).2 =
        ⟨w₁, [], []⟩ := by
      refine attempts_rule (P := fun f => f = ⟨w₁, [], []⟩) rfl ?_
      rintro i f rfl
      refine attempt_frozen d call.client (call.request d) call.script ht (c := c) ?_ ?_ i
      · rw [hhealthy.getPinnedConnection]
        exact hw.pinned
      · exact fun _ _ _ => Session.manage_of_started hst (by rw [hprog]; decide)
    rw [retryLoop_eq, hframe]
    exact ⟨hw, rfl⟩

/-! ## The call that ends the transaction -/

/-- **A commit or abort is written on the connection of the transaction only.** -/
theorem Holding.ending (h : Holding w L r c) {call : Call} (hcall : call.carries d L)
    (hends : (call.request d).command.endsTransaction = true) :
    ∀ x b, .write x b ∈ (call.run d w).events → x = c := by
  obtain ⟨t, ht, hL⟩ := hcall
  cases hst : t.isStartTransaction with
  | true =>
    intro x b hx
    rw [(h.restart ht hL hst).2] at hx
    cases hx
  | false =>
    cases hc : (w.clients call.client).closed with
    | true =>
      intro x b hx
      rw [Call.run, roundTrip_closed hc] at hx
      cases hx
    | false =>
      subst hL
      obtain ⟨f, hended, hevents, -⟩ := run_of_ends h.inv.pins hc ht hst hends h.mapped h.pinned
      intro x b hx
      rw [hevents] at hx
      rcases List.mem_append.mp hx with hx | hx
      · exact hended.written x b hx
      · cases List.mem_singleton.mp hx

end Call

/-! ## Runs -/

/-- The world after the calls, made one at a time. -/
def runAll (d : Driver) (calls : List Call) (w : World) : World :=
  calls.foldl (fun w call => (call.run d w).world) w

theorem sessionInv_runAll {d : Driver} (calls : List Call) {w : World} (h : SessionInv w) :
    SessionInv (runAll d calls w) := by
  induction calls generalizing w with
  | nil => exact h
  | cons call calls ih => exact ih (sessionInv_roundTrip h)

theorem Holding.runAll {d : Driver} {L : Bytes} {r : Ref} {c : Conn} (calls : List Call)
    {w : World} (h : Holding w L r c)
    (hcalls : ∀ call ∈ calls, call.carries d L → (call.request d).command.completes = false) :
    Holding (runAll d calls w) L r c := by
  induction calls generalizing w with
  | nil => exact h
  | cons call calls ih =>
    refine ih ?_ fun x hx => hcalls x (List.mem_cons_of_mem _ hx)
    by_cases hL : call.carries d L
    · exact (h.inside hL (hcalls call List.mem_cons_self hL)).1
    · exact (h.other hL).1

/-- **From its start to its end a transaction stays on its connection.** After any calls, let
`first` start a transaction for `L` on `C`, and let no call of `during` complete it. Then the
messages that carry `L` are written on `C` only, up to and including a final commit or abort;
`C` is not closed before that call; and no other message is written on `C`. -/
theorem transaction_stays_on_its_connection {d : Driver} (dc : Option DistributedCache)
    (clients : ClientID → Mongo) (out : List Conn) (before : List Call) (first : Call)
    (during : List Call) {L : Bytes} {C : Conn} (w₀ : World)
    (hw₀ : w₀ = runAll d before { manager := .new dc, clients, checkedOut := out })
    (hfirst : first.carries d L) (hcommand : (first.request d).command.completes = false)
    (hstart : .start L C ∈ (first.run d w₀).events)
    (hduring : ∀ call ∈ during, call.carries d L → (call.request d).command.completes = false) :
    (∀ c b, .write c b ∈ (first.run d w₀).events → c = C) ∧
      .close C ∉ (first.run d w₀).events ∧
      (∀ pre call post, during = pre ++ call :: post →
        .close C ∉ (call.run d (runAll d pre (first.run d w₀).world)).events ∧
        (call.carries d L → ∀ c b,
          .write c b ∈ (call.run d (runAll d pre (first.run d w₀).world)).events → c = C) ∧
        (¬ call.carries d L → ∀ b,
          .write C b ∉ (call.run d (runAll d pre (first.run d w₀).world)).events)) ∧
      ∀ last : Call, last.carries d L →
        (last.request d).command = .commitTransaction ∨
          (last.request d).command = .abortTransaction →
        ∀ c b, .write c b ∈ (last.run d (runAll d during (first.run d w₀).world)).events →
          c = C := by
  have hinv : SessionInv w₀ := hw₀ ▸ sessionInv_runAll before (sessionInv_new dc clients out)
  obtain ⟨⟨r, hhold⟩, hclose, hwrite⟩ := startCall_holding hinv hfirst hcommand hstart
  refine ⟨hwrite, hclose, ?_, ?_⟩
  · intro pre call post hsplit
    have hpre : Holding (runAll d pre (first.run d w₀).world) L r C :=
      hhold.runAll pre fun x hx => hduring x (by simp [hsplit, hx])
    by_cases hL : call.carries d L
    · obtain ⟨-, hevents⟩ := hpre.inside hL (hduring call (by simp [hsplit]) hL)
      refine ⟨?_, ?_, fun h => absurd hL h⟩
      · intro hx
        obtain ⟨b, hb⟩ := hevents _ hx
        cases hb
      · intro _ c b hx
        obtain ⟨b', hb⟩ := hevents _ hx
        exact (Event.write.inj hb).1
    · obtain ⟨-, hclosed, hwritten⟩ := hpre.other hL
      exact ⟨hclosed, fun h => absurd h hL, fun _ => hwritten⟩
  · intro last hlast hends
    exact (hhold.runAll during hduring).ending hlast (endsTransaction_iff.mpr hends)

/-- An ordinary statement on another client, with the first statement's transaction open. -/
def plainFind : Call :=
  { client := 1, wm := []
    op := Bson.opMsg [("find", .string (lit "orders")), ("$db", .string (lit "shop"))]
    script := healthyScript }

theorem not_carries_plainFind (L : Bytes) : ¬ plainFind.carries plainDriver L := by
  rintro ⟨t, ht, -⟩
  have hnone : (plainFind.request plainDriver).details = none := by decide +kernel
  rw [hnone] at ht
  cases ht

theorem transaction_stays_on_its_connection_shop :
    (∀ c b, .write c b ∈ (startInsert.run plainDriver newWorld).events → c = 1) ∧
      ∀ c b, .write c b ∈
        (brokenCommit.run plainDriver (runAll plainDriver [plainFind] startedWorld)).events →
        c = 1 := by
  have h := transaction_stays_on_its_connection (d := plainDriver) none
    (fun _ => .connected (lit "shop")) [] [] startInsert [plainFind] (L := [7]) (C := 1)
    newWorld rfl ⟨⟨[7], 1, true, false⟩, by decide +kernel, rfl⟩ (by decide +kernel)
    (by decide +kernel) (by
      intro call hcall hL
      rw [List.mem_singleton.mp hcall] at hL
      exact absurd hL (not_carries_plainFind [7]))
  exact ⟨h.1, h.2.2.2 brokenCommit ⟨⟨[7], 1, false, false⟩, by decide +kernel, rfl⟩
    (Or.inl (by decide +kernel))⟩

end MongoBouncer
