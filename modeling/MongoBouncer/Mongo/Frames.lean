import MongoBouncer.Mongo.Attempt

/-!
# The frame of a call and the pins of the sessions

Two invariants that hold for every call, whatever the cluster answers:

* `PinInv`      : of a world between calls. A pinned connection is checked out, belongs to one
  session object only, and that session has its transaction in progress;
* `Frame.Sound` : of a frame between two attempts of one call. The call has touched only its own
  session, and only connections that it checked out itself or that this session had pinned.

Principal results: `attempt_sound` (one attempt keeps `Sound`), `attempts_sound` (so does the
loop) and `retryLoop_pinInv` (with the deferred closures, a call keeps `PinInv`).
-/

namespace MongoBouncer

open GoStd

/-! ## The invariants -/

/-- A session that has a connection pinned has a transaction in progress on it. -/
def Session.Healthy (s : Session) : Prop :=
  ∀ c, s.pinnedConnection = some c →
    s.state = .active ∧ s.pinnedServer.isSome ∧ s.transactionState = .inProgress

/-- The pins of a world between calls. -/
structure PinInv (w : World) : Prop where
  healthy : ∀ r, (w.session r).Healthy
  checkedOut : ∀ r c, (w.session r).pinnedConnection = some c → c ∈ w.checkedOut
  disjoint : ∀ r r' c, (w.session r).pinnedConnection = some c →
    (w.session r').pinnedConnection = some c → r = r'

/-- The connection was handed out by these events, or the session of the call had it pinned when
the call began. -/
def Own (w : World) (session : Option Ref) (events : List Event) (c : Conn) : Prop :=
  .checkout c ∈ events ∨ ∃ r, session = some r ∧ (w.session r).pinnedConnection = some c

/-- The deferred closures of a frame: the connections of its attempts to close, or, once a command
has ended the transaction, its one connection to close and the session to reset. -/
inductive Tidy (w : World) (req : Request) (session : Option Ref) (f : Frame) : Prop where
  | closing (cs : List Conn) (own : ∀ c ∈ cs, Own w session f.events c)
      (deferred : f.deferred = cs.map (.closeConnection · session false))
      (unfinished : session.isSome → req.command.endsTransaction = true → cs = [])
      (healthy : ∀ r, session = some r → (f.world.session r).Healthy)
  | finishing (r : Ref) (c : Conn) (hr : session = some r) (own : Own w session f.events c)
      (ends : req.command.endsTransaction = true)
      (deferred : f.deferred = [.closeConnection c (some r) true, .unpinTransaction r])
      (outcome : (f.world.session r).transactionState = req.command.outcome)

/-- The frame of a call that began its attempts in `w`. -/
structure Frame.Sound (w : World) (req : Request) (session : Option Ref) (f : Frame) : Prop where
  others : ∀ r, session ≠ some r → f.world.session r = w.session r
  checkedOut : ∀ c, c ∈ f.world.checkedOut ↔ c ∈ w.checkedOut ∨ .checkout c ∈ f.events
  fresh : ∀ c, .checkout c ∈ f.events → c ∉ w.checkedOut
  notClosed : ∀ c, .close c ∉ f.events
  written : ∀ c b, .write c b ∈ f.events → Own w session f.events c
  pinned : ∀ r c, session = some r → (f.world.session r).pinnedConnection = some c →
    Own w session f.events c
  tidy : Tidy w req session f

theorem Own.mono {w : World} {session : Option Ref} {ev ev' : List Event} {c : Conn}
    (h : Own w session ev c) (hev : ev ⊆ ev') : Own w session ev' c := by
  rcases h with h | h
  · exact Or.inl (hev h)
  · exact Or.inr h

/-! ## What the transaction state management does to a session -/

namespace Session

variable {s s' : Session} {c conn : Conn} {now : Int} {command : Command} {t : TransactionDetails}
  {server : Server} {fin : Bool}

theorem getPinnedConnection_eq_some
    (h : s.getPinnedConnection = some c) : s.pinnedConnection = some c := by
  unfold getPinnedConnection at h
  split at h
  · exact h
  · cases h

theorem Healthy.getPinnedConnection (h : s.Healthy) :
    s.getPinnedConnection = s.pinnedConnection := by
  unfold Session.getPinnedConnection
  split
  · rfl
  · rename_i hs
    cases hp : s.pinnedConnection with
    | none => rfl
    | some c => exact absurd (Or.inl (h c hp).2.2) hs

theorem endSession_pinnedConnection (h : (s.endSession now).pinnedConnection = some c) :
    s.pinnedConnection = some c ∧ s.transactionState ≠ .inProgress := by
  unfold endSession at h
  by_cases hp : s.transactionState = .inProgress
  · simp [hp] at h
  · simp only [hp, if_false] at h
    exact ⟨h, hp⟩

theorem afterFinish_pinnedConnection (h : (s.afterFinish command now).pinnedConnection = some c) :
    s.pinnedConnection = some c := by
  unfold afterFinish at h
  split at h
  · exact h
  · split at h
    · exact (endSession_pinnedConnection h).1
    · exact h

theorem afterStart_pinnedConnection
    (h : (s.afterStart t server conn now).pinnedConnection = some c) :
    c = conn ∨ s.pinnedConnection = some c := by
  unfold afterStart at h
  split at h
  · exact Or.inl (Option.some.inj h).symm
  · exact Or.inr h

theorem manage_pinnedConnection (h : s.manage t command server conn now = .ok (s', fin))
    (hc : s'.pinnedConnection = some c) : c = conn ∨ s.pinnedConnection = some c := by
  obtain ⟨-, -, -, rfl⟩ := manage_eq_ok.mp h
  exact afterStart_pinnedConnection (afterFinish_pinnedConnection hc)

theorem Healthy.afterStart (h : s.Healthy)
    (hs : t.isStartTransaction = true → s.state = .active) (server : Server) (conn : Conn)
    (now : Int) : (s.afterStart t server conn now).Healthy := by
  unfold Session.afterStart
  split
  · rename_i hst
    intro c _
    exact ⟨hs hst, rfl, rfl⟩
  · exact h

theorem Healthy.afterFinish (h : s.Healthy)
    (hc : command.endsTransaction = false) (now : Int) : (s.afterFinish command now).Healthy := by
  unfold Session.afterFinish
  simp only [hc, Bool.false_eq_true, if_false]
  split
  · intro c hp
    obtain ⟨hp', hne⟩ := endSession_pinnedConnection hp
    exact absurd (h c hp').2.2 hne
  · exact h

theorem Healthy.manage (hs : s.Healthy) (hc : command.endsTransaction = false)
    (h : s.manage t command server conn now = .ok (s', fin)) : s'.Healthy := by
  obtain ⟨hst, -, -, rfl⟩ := manage_eq_ok.mp h
  exact (hs.afterStart (fun ht => (hst ht).1) server conn now).afterFinish hc now

theorem manage_outcome (hc : command.endsTransaction = true)
    (h : s.manage t command server conn now = .ok (s', fin)) :
    s'.transactionState = command.outcome := by
  obtain ⟨-, -, -, rfl⟩ := manage_eq_ok.mp h
  simp [afterFinish, hc]

/-- Once a command has ended the transaction, the next attempt of the same call is refused. -/
theorem manage_of_outcome (hc : command.endsTransaction = true)
    (h : s.transactionState = command.outcome) :
    ∃ e, s.manage t command server conn now = .error e := by
  refine exists_manage_error fun s' fin hok => ?_
  obtain ⟨hst, hfin, -⟩ := manage_eq_ok.mp hok
  rcases hfin hc with ht | hp
  · exact absurd (h.symm.trans (hst ht).2) command.outcome_ne_none
  · exact absurd (h.symm.trans hp) command.outcome_ne_inProgress

theorem manage_of_started (hst : t.isStartTransaction = true)
    (h : s.transactionState ≠ .none) : ∃ e, s.manage t command server conn now = .error e :=
  exists_manage_error fun _ _ hok => h ((manage_eq_ok.mp hok).1 hst).2

end Session

theorem Session.id_afterStart (s : Session) (t : TransactionDetails) (server : Server) (conn : Conn)
    (now : Int) : (s.afterStart t server conn now).id = s.id := by
  unfold Session.afterStart
  split <;> rfl

theorem Session.id_afterFinish (s : Session) (command : Command) (now : Int) :
    (s.afterFinish command now).id = s.id := by
  unfold Session.afterFinish Session.endSession
  split
  · rfl
  · split
    · simp only
      split <;> rfl
    · rfl

/-! ## One attempt -/

namespace Frame.Sound

variable {w : World} {req : Request} {session : Option Ref} {f : Frame}

theorem initial (hw : PinInv w) : Sound w req session ⟨w, [], []⟩ where
  others := fun _ _ => rfl
  checkedOut := by simp
  fresh := by simp
  notClosed := by simp
  written := by simp
  pinned := fun r _ hr hp => Or.inr ⟨r, hr, hp⟩
  tidy := .closing [] (by simp) rfl (fun _ _ => rfl) fun r _ => hw.healthy r

theorem send (hf : Sound w req session f) {conn : Conn} (hown : Own w session f.events conn)
    {ev : List Event} (hev : ev = [] ∨ ∃ b, ev = [.write conn b]) {w' : World}
    (hw : f.world.SameSessions w') :
    Sound w req session { f with world := w', events := f.events ++ ev } := by
  have hmem : ∀ x, x ∈ f.events ++ ev ↔
      x ∈ f.events ∨ ∃ b, ev = [.write conn b] ∧ x = .write conn b := by
    intro x
    rcases hev with rfl | ⟨b, rfl⟩
    · simp
    · simp
  have hcheck : ∀ c, .checkout c ∈ f.events ++ ev ↔ .checkout c ∈ f.events := by
    intro c
    simp [hmem]
  have hsub : f.events ⊆ f.events ++ ev := List.subset_append_left _ _
  refine ⟨?_, ?_, ?_, ?_, ?_, ?_, ?_⟩
  · intro r hr
    rw [← hf.others r hr]
    exact hw.session r
  · intro c
    simp only [hw.checkedOut, hcheck, hf.checkedOut c]
  · intro c hc
    exact hf.fresh c ((hcheck c).mp hc)
  · intro c hc
    rcases (hmem _).mp hc with h | ⟨b, -, h⟩
    · exact hf.notClosed c h
    · cases h
  · intro c b hc
    rcases (hmem _).mp hc with h | ⟨b, -, h⟩
    · exact (hf.written c _ h).mono hsub
    · obtain ⟨rfl, -⟩ := Event.write.inj h
      exact hown.mono hsub
  · intro r c hr hp
    rw [show World.session w' r = f.world.session r from hw.session r] at hp
    exact (hf.pinned r c hr hp).mono hsub
  · cases hf.tidy with
    | closing cs own deferred unfinished healthy =>
      refine .closing cs (fun c hc => (own c hc).mono hsub) deferred unfinished ?_
      intro r hr
      rw [show World.session w' r = f.world.session r from hw.session r]
      exact healthy r hr
    | finishing r c hr own ends deferred outcome =>
      refine .finishing r c hr (own.mono hsub) ends deferred ?_
      rw [show World.session w' r = f.world.session r from hw.session r]
      exact outcome

theorem checkout (hf : Sound w req session f) {server : Server} {up : Attempt} {conn : Conn}
    {w' : World} {ev : List Event}
    (h : f.world.checkoutConnection server session up = .ok (conn, w', ev)) :
    Sound w req session { f with world := w', events := f.events ++ ev } ∧
      Own w session (f.events ++ ev) conn ∧ w'.session = f.world.session := by
  rcases World.checkoutConnection_eq_ok h with ⟨hp, rfl, rfl⟩ | ⟨-, hnot, rfl, rfl⟩
  · obtain ⟨r, hr, hp⟩ := Option.bind_eq_some_iff.mp hp
    have hown := hf.pinned r conn hr (Session.getPinnedConnection_eq_some hp)
    exact ⟨by simpa using hf, by simpa using hown, rfl⟩
  · have hsub : f.events ⊆ f.events ++ [.checkout conn] := List.subset_append_left _ _
    refine ⟨⟨hf.others, ?_, ?_, ?_, ?_, ?_, ?_⟩, Or.inl (by simp), rfl⟩
    · intro x
      simp only [List.mem_cons, hf.checkedOut x, List.mem_append, List.not_mem_nil, or_false,
        Event.checkout.injEq]
      tauto
    · intro x hx
      simp only [List.mem_append, List.mem_cons, List.not_mem_nil, or_false,
        Event.checkout.injEq] at hx
      rcases hx with hx | rfl
      · exact hf.fresh x hx
      · exact fun hw => hnot ((hf.checkedOut x).mpr (Or.inl hw))
    · intro x hx
      simp only [List.mem_append, List.mem_cons, List.not_mem_nil, or_false, reduceCtorEq] at hx
      exact hf.notClosed x hx
    · intro x b hx
      simp only [List.mem_append, List.mem_cons, List.not_mem_nil, or_false, reduceCtorEq] at hx
      exact (hf.written x b hx).mono hsub
    · intro r x hr hx
      exact (hf.pinned r x hr hx).mono hsub
    · cases hf.tidy with
      | closing cs own deferred unfinished healthy =>
        exact .closing cs (fun x hx => (own x hx).mono hsub) deferred unfinished healthy
      | finishing r x hr own ends deferred outcome =>
        exact .finishing r x hr (own.mono hsub) ends deferred outcome

/-- The transaction state management lets the attempt go on, and the closing closure is
deferred. -/
theorem manage (hf : Sound w req session f) {r : Ref} (hr : session = some r)
    {t : TransactionDetails} {server : Server} {conn : Conn} {now : Int}
    (hown : Own w session f.events conn) {s : Session} {fin : Bool}
    (hm : (f.world.session r).manage t req.command server conn now = .ok (s, fin)) {w' : World}
    (hw : f.world.Managed w' r s req.command) :
    Sound w req session
      { world := w'
        deferred := .closeConnection conn session fin ::
          if fin then .unpinTransaction r :: f.deferred else f.deferred
        events := f.events ++ if t.isStartTransaction then [.start t.lsID conn] else [] } := by
  subst hr
  have hmem : ∀ x, x ∈ f.events ++ (if t.isStartTransaction then [.start t.lsID conn] else []) ↔
      x ∈ f.events ∨ t.isStartTransaction = true ∧ x = .start t.lsID conn := by
    intro x
    cases t.isStartTransaction <;> simp
  have hcheck : ∀ c, .checkout c ∈
      f.events ++ (if t.isStartTransaction then [.start t.lsID conn] else []) ↔
      .checkout c ∈ f.events := by
    intro c
    simp [hmem]
  have hsub := List.subset_append_left f.events
    (if t.isStartTransaction then [.start t.lsID conn] else [])
  have hfin : fin = req.command.endsTransaction := (Session.manage_eq_ok.mp hm).2.2.1
  have hsess : w'.session r = s := by rw [hw.session, if_pos rfl]
  refine ⟨?_, ?_, ?_, ?_, ?_, ?_, ?_⟩
  · intro r' hr'
    rw [← hf.others r' hr', hw.session, if_neg fun h => hr' (by rw [h])]
  · intro c
    simp only [hw.checkedOut, hcheck, hf.checkedOut c]
  · intro c hc
    exact hf.fresh c ((hcheck c).mp hc)
  · intro c hc
    rcases (hmem _).mp hc with h | ⟨-, h⟩
    · exact hf.notClosed c h
    · cases h
  · intro c b hc
    rcases (hmem _).mp hc with h | ⟨-, h⟩
    · exact (hf.written c b h).mono hsub
    · cases h
  · intro r' c hr' hp
    cases hr'
    rw [hsess] at hp
    rcases Session.manage_pinnedConnection hm hp with rfl | hold
    · exact hown.mono hsub
    · exact (hf.pinned r c rfl hold).mono hsub
  · cases hf.tidy with
    | closing cs own deferred unfinished healthy =>
      cases hc : req.command.endsTransaction with
      | true =>
        have hcs := unfinished rfl hc
        refine .finishing r conn rfl (hown.mono hsub) hc ?_ ?_
        · simp only [hfin, hc, if_true, deferred, hcs, List.map_nil]
        · rw [hsess]
          exact Session.manage_outcome hc hm
      | false =>
        refine .closing (conn :: cs) ?_ ?_ ?_ ?_
        · intro x hx
          rcases List.mem_cons.mp hx with rfl | hx
          · exact hown.mono hsub
          · exact (own x hx).mono hsub
        · simp only [hfin, hc, Bool.false_eq_true, if_false, deferred, List.map_cons]
        · intro _ h
          rw [hc] at h
          cases h
        · intro r' hr'
          cases hr'
          rw [hsess]
          exact (healthy r rfl).manage hc hm
    | finishing r' x hr' own ends deferred outcome =>
      -- the transaction has been ended by an earlier attempt, so this one was refused
      cases hr'
      obtain ⟨e, he⟩ : ∃ e, (f.world.session r).manage t req.command server conn now = .error e :=
        Session.manage_of_outcome ends outcome
      rw [he] at hm
      cases hm

theorem defer (hf : Sound w req none f) {conn : Conn} (hown : Own w none f.events conn) :
    Sound w req none { f with deferred := .closeConnection conn none false :: f.deferred } := by
  refine ⟨hf.others, hf.checkedOut, hf.fresh, hf.notClosed, hf.written, hf.pinned, ?_⟩
  cases hf.tidy with
  | closing cs own deferred unfinished healthy =>
    refine .closing (conn :: cs) ?_ ?_ ?_ healthy
    · intro x hx
      rcases List.mem_cons.mp hx with rfl | hx
      · exact hown
      · exact own x hx
    · simp only [deferred, List.map_cons]
    · intro h
      cases h
  | finishing r c hr own ends deferred outcome => cases hr

end Frame.Sound

section Call

variable {d : Driver} {m : ClientID} {req : Request} {session : Option Ref} {script : Script}
  {w : World}

/-- **One attempt keeps the frame sound**, whether it is retried or returns. -/
theorem attempt_sound (hs : SessionOf req session) {i : Nat} {f : Frame}
    (hf : Frame.Sound w req session f) :
    Frame.Sound w req session (Flow.frame (attempt d m req session script i f)) := by
  have hsend : ∀ (f : Frame) (server : Server) (conn : Conn) (up : Attempt),
      Frame.Sound w req session f → Own w session f.events conn →
      Frame.Sound w req session (Flow.frame (sendAndUpdate d m req i server conn up f)) := by
    intro f server conn up hf hown
    obtain ⟨ev, w', hev, hw', h⟩ := frame_sendAndUpdate d m req i server conn up f
    rw [h]
    exact hf.send hown hev hw'
  cases attempt_cases d m req script hs i f with
  | stopped h =>
    rw [Flow.frame_of_stopped h]
    exact hf
  | refused r t server conn w' ev e hr ht hserver hconn hmanage h =>
    rw [h]
    exact (hf.checkout hconn).1
  | sentOutside server conn w' ev hr hserver hconn h =>
    subst hr
    obtain ⟨hf', hown, -⟩ := hf.checkout hconn
    rw [h]
    exact hsend _ _ _ _ (hf'.defer hown) hown
  | sentInside r t server conn w' w'' ev s fin hr ht hserver hconn hmanage hworld hgroups h =>
    obtain ⟨hf', hown, -⟩ := hf.checkout hconn
    rw [h]
    exact hsend _ _ _ _ (hf'.manage hr hown hmanage hworld)
      (hown.mono (List.subset_append_left _ _))

theorem attempts_sound (hs : SessionOf req session) (hw : PinInv w) :
    Frame.Sound w req session (attempts d m req session script w).2 :=
  attempts_rule (.initial hw) fun _ _ hf => attempt_sound hs hf

end Call

/-! ## The identity of sessions -/

/-- A call keeps the ids of the session objects, and takes at most its own session out of the
map. -/
structure World.Kept (w : World) (req : Request) (session : Option Ref) (w' : World) : Prop where
  ids : ∀ r, (w'.session r).id = (w.session r).id
  next : w'.manager.next = w.manager.next
  sessions : w'.manager.sessions = w.manager.sessions ∨
    req.command = .endSessions ∧ ∃ r, session = some r ∧
      w'.manager.sessions = Function.update w.manager.sessions (w.session r).id none

namespace World.Kept

variable {w w' w'' : World} {req : Request} {session : Option Ref}

theorem refl : w.Kept req session w := ⟨fun _ => rfl, rfl, Or.inl rfl⟩

theorem same (h : w.Kept req session w') (hobj : w''.manager.objects = w'.manager.objects)
    (hsess : w''.manager.sessions = w'.manager.sessions)
    (hnext : w''.manager.next = w'.manager.next) : w.Kept req session w'' := by
  refine ⟨?_, hnext.trans h.next, ?_⟩
  · intro r
    rw [World.session, hobj]
    exact h.ids r
  · rw [hsess]
    exact h.sessions

theorem manage (h : w.Kept req session w') {r : Ref} (hr : session = some r)
    {t : TransactionDetails} {server : Server} {conn : Conn} {now : Int} {s : Session} {fin : Bool}
    (hm : (w'.session r).manage t req.command server conn now = .ok (s, fin))
    (hw : w'.Managed w'' r s req.command) : w.Kept req session w'' := by
  have hid : s.id = (w'.session r).id := by
    obtain ⟨-, -, -, rfl⟩ := Session.manage_eq_ok.mp hm
    exact (Session.id_afterFinish _ _ _).trans (Session.id_afterStart _ _ _ _ _)
  refine ⟨?_, hw.next.trans h.next, ?_⟩
  · intro r'
    rw [hw.session]
    split
    · rename_i hr'
      subst hr'
      rw [hid, h.ids]
    · exact h.ids r'
  · have hkey := h.ids r
    rcases hw.sessions with hs | ⟨hc, hs⟩
    · rw [hs]
      exact h.sessions
    · right
      refine ⟨hc, r, hr, ?_⟩
      rw [hs, hkey]
      rcases h.sessions with h' | ⟨-, r', hr', h'⟩
      · rw [h']
      · obtain rfl : r = r' := Option.some.inj (hr.symm.trans hr')
        rw [h', Function.update_idem]

end World.Kept

section Call

variable {d : Driver} {m : ClientID} {req : Request} {session : Option Ref} {script : Script}
  {w : World}

/-- The session objects and the map of a call change only in the transaction state management: a
property of them that it keeps is kept by an attempt. -/
theorem attempt_sessions_rule {P : World → Prop} (hs : SessionOf req session)
    (hsame : ∀ {w w' : World}, P w → w'.manager.objects = w.manager.objects →
      w'.manager.sessions = w.manager.sessions → w'.manager.next = w.manager.next → P w')
    (hmanage : ∀ {w w' : World} {r : Ref} {t : TransactionDetails} {server : Server} {conn : Conn}
      {now : Int} {s : Session} {fin : Bool}, P w → session = some r → req.details = some t →
      (w.session r).manage t req.command server conn now = .ok (s, fin) →
      w.Managed w' r s req.command → P w') {i : Nat} {f : Frame} (hf : P f.world) :
    P (Flow.frame (attempt d m req session script i f)).world := by
  have hcheckout : ∀ {server conn w' ev},
      f.world.checkoutConnection server session (script.attempt i) = .ok (conn, w', ev) → P w' := by
    intro server conn w' ev h
    have hm := (World.manager_checkoutConnection h).1
    exact hsame hf (by rw [hm]) (by rw [hm]) (by rw [hm])
  have hsend : ∀ (f : Frame) (server : Server) (conn : Conn) (up : Attempt), P f.world →
      P (Flow.frame (sendAndUpdate d m req i server conn up f)).world := by
    intro f server conn up hf
    obtain ⟨ev, w', -, hw', h⟩ := frame_sendAndUpdate d m req i server conn up f
    rw [h]
    exact hsame hf hw'.objects hw'.sessions hw'.next
  cases attempt_cases d m req script hs i f with
  | stopped h =>
    rw [Flow.frame_of_stopped h]
    exact hf
  | refused r t server conn w' ev e hr ht hserver hconn hm h =>
    rw [h]
    exact hcheckout hconn
  | sentOutside server conn w' ev hr hserver hconn h =>
    rw [h]
    exact hsend _ _ _ _ (hcheckout hconn)
  | sentInside r t server conn w' w'' ev s fin hr ht hserver hconn hm hworld hgroups h =>
    rw [h]
    exact hsend _ _ _ _ (hmanage (hcheckout hconn) hr ht hm hworld)

theorem attempts_kept (hs : SessionOf req session) :
    w.Kept req session (attempts d m req session script w).2.world :=
  attempts_rule (P := fun f => w.Kept req session f.world) .refl fun _ _ hf =>
    attempt_sessions_rule hs .same (fun h hr _ hm hw => h.manage hr hm hw) hf

end Call

/-! ## The deferred closures -/

/-- No transaction of the session is in progress, so its connections are closed. -/
def World.idle (w : World) (session : Option Ref) : Bool :=
  session.all fun r => !(w.session r).isTransactionActive

theorem mem_runDeferred {ds : List Deferred} {w : World} {x : Event}
    (hx : x ∈ (runDeferred ds w).2) : ∃ c, x = .close c := by
  induction ds generalizing w with
  | nil => cases hx
  | cons f ds ih =>
    rcases List.mem_append.mp hx with hx | hx
    · cases f with
      | unpinTransaction r => cases hx
      | closeConnection conn s fin =>
        refine ⟨conn, ?_⟩
        cases fin with
        | true =>
          cases s <;> exact List.mem_singleton.mp hx
        | false =>
          simp only at hx
          split at hx
          · exact List.mem_singleton.mp hx
          · cases hx
    · exact ih hx

/-- Closing closures close their connections, unless the transaction is in progress. -/
theorem runDeferred_closing (session : Option Ref) (cs : List Conn) (w : World) :
    (runDeferred (cs.map (.closeConnection · session false)) w).1.manager = w.manager ∧
    (runDeferred (cs.map (.closeConnection · session false)) w).1.clients = w.clients ∧
    (∀ c, c ∈ (runDeferred (cs.map (.closeConnection · session false)) w).1.checkedOut ↔
      c ∈ w.checkedOut ∧ ¬ (w.idle session = true ∧ c ∈ cs)) ∧
    (runDeferred (cs.map (.closeConnection · session false)) w).2 =
      if w.idle session then cs.map .close else [] := by
  induction cs generalizing w with
  | nil => simp [runDeferred]
  | cons c cs ih =>
    have hidle : (w.close c).idle session = w.idle session := rfl
    cases h : w.idle session with
    | false =>
      have hrun : Deferred.run w (.closeConnection c session false) = (w, []) := by
        simp only [World.idle] at h
        simp [Deferred.run, h]
      obtain ⟨h1, h2, h3, h4⟩ := ih w
      rw [h] at h3 h4
      simp only [List.map_cons, runDeferred, hrun]
      exact ⟨h1, h2, by simpa using h3, by simpa using h4⟩
    | true =>
      have hrun : Deferred.run w (.closeConnection c session false) = (w.close c, [.close c]) := by
        simp only [World.idle] at h
        simp [Deferred.run, h]
      obtain ⟨h1, h2, h3, h4⟩ := ih (w.close c)
      rw [hidle, h] at h3 h4
      simp only [List.map_cons, runDeferred, hrun]
      refine ⟨h1, h2, ?_, by simp [h4]⟩
      intro x
      rw [h3 x]
      simp only [World.mem_checkedOut_close, List.mem_cons, true_and, not_or]
      tauto

/-- The closures of a command that ended the transaction close its connection and clear the
session. -/
theorem runDeferred_finishing (r : Ref) (c : Conn) (w : World) :
    runDeferred [.closeConnection c (some r) true, .unpinTransaction r] w =
      ({ w.close c with
          manager := (w.manager.resetTransactionState r).unpinTransaction r }, [.close c]) := rfl

theorem session_reset_unpin (sm : SessionManager) (r r' : Ref) :
    ((sm.resetTransactionState r).unpinTransaction r).objects r' =
      if r' = r then (sm.objects r).resetTransactionState else sm.objects r' := by
  by_cases hr : r' = r
  · subst hr
    simp [SessionManager.resetTransactionState, SessionManager.unpinTransaction,
      SessionManager.setSession, Session.resetTransactionState, Session.unpinTransaction]
  · simp [SessionManager.resetTransactionState, SessionManager.unpinTransaction,
      SessionManager.setSession, hr]

/-! ## A call keeps the pins in order -/

theorem Own.not_pinned {w : World} {session : Option Ref} {ev : List Event} {c : Conn}
    (h : Own w session ev c) (hfresh : ∀ c, .checkout c ∈ ev → c ∉ w.checkedOut) (hw : PinInv w)
    {r : Ref} (hr : session ≠ some r) : (w.session r).pinnedConnection ≠ some c := by
  intro hp
  rcases h with h | ⟨r', hr', hp'⟩
  · exact hfresh c h (hw.checkedOut r c hp)
  · exact hr (by rw [hr', hw.disjoint r r' c hp hp'])

section Call

variable {d : Driver} {m : ClientID} {req : Request} {session : Option Ref} {script : Script}
  {w : World}

theorem retryLoop_eq : retryLoop d m req session script w =
      { result := (attempts d m req session script w).1
        world := (runDeferred (attempts d m req session script w).2.deferred
          (attempts d m req session script w).2.world).1
        events := (attempts d m req session script w).2.events ++
          (runDeferred (attempts d m req session script w).2.deferred
            (attempts d m req session script w).2.world).2 } := rfl

theorem retryLoop_world : (retryLoop d m req session script w).world =
      (runDeferred (attempts d m req session script w).2.deferred
        (attempts d m req session script w).2.world).1 := rfl

theorem retryLoop_events : (retryLoop d m req session script w).events =
      (attempts d m req session script w).2.events ++
        (runDeferred (attempts d m req session script w).2.deferred
          (attempts d m req session script w).2.world).2 := rfl

/-- Running the deferred closures of a sound frame: other sessions stay as they were, and so do
their pinned connections. -/
theorem Frame.Sound.runDeferred_others {f : Frame} (hf : Frame.Sound w req session f)
    (hw : PinInv w) {r : Ref} (hr : session ≠ some r) :
    (runDeferred f.deferred f.world).1.session r = w.session r ∧
      ∀ c, (w.session r).pinnedConnection = some c →
        c ∈ (runDeferred f.deferred f.world).1.checkedOut ∧
        .close c ∉ f.events ++ (runDeferred f.deferred f.world).2 ∧
        ∀ b, .write c b ∉ f.events ++ (runDeferred f.deferred f.world).2 := by
  have hin : ∀ c, (w.session r).pinnedConnection = some c → c ∈ f.world.checkedOut :=
    fun c hc => (hf.checkedOut c).mpr (Or.inl (hw.checkedOut r c hc))
  have hwrite : ∀ c, (w.session r).pinnedConnection = some c → ∀ b, .write c b ∉ f.events :=
    fun c hc b h => (hf.written c b h).not_pinned hf.fresh hw hr hc
  cases hf.tidy with
  | closing cs own deferred unfinished healthy =>
    obtain ⟨h1, h2, h3, h4⟩ := runDeferred_closing session cs f.world
    rw [deferred]
    have hcs : ∀ c, (w.session r).pinnedConnection = some c → c ∉ cs :=
      fun c hc h => (own c h).not_pinned hf.fresh hw hr hc
    refine ⟨?_, ?_⟩
    · rw [← hf.others r hr]
      exact congrArg (fun sm : SessionManager => sm.objects r) h1
    · intro c hc
      refine ⟨(h3 c).mpr ⟨hin c hc, fun h => hcs c hc h.2⟩, ?_, ?_⟩
      · rw [h4, List.mem_append, not_or]
        refine ⟨hf.notClosed c, ?_⟩
        split
        · simpa using hcs c hc
        · simp
      · intro b
        rw [h4, List.mem_append, not_or]
        refine ⟨hwrite c hc b, ?_⟩
        split
        · simp
        · simp
  | finishing r' x hr' own ends deferred outcome =>
    rw [deferred, runDeferred_finishing]
    have hne : r ≠ r' := fun h => hr (by rw [hr', h])
    refine ⟨?_, ?_⟩
    · rw [← hf.others r hr]
      exact (session_reset_unpin _ r' r).trans (if_neg hne)
    · intro c hc
      have hcx : c ≠ x := fun h => own.not_pinned hf.fresh hw hr (h ▸ hc)
      refine ⟨?_, ?_, ?_⟩
      · exact World.mem_checkedOut_close.mpr ⟨hin c hc, hcx⟩
      · simp [hf.notClosed c, hcx]
      · intro b
        simp [hwrite c hc b]

/-- Running the deferred closures of a sound frame: the session of the call is left healthy, and
what it has pinned is a checked-out connection of the call. -/
theorem Frame.Sound.runDeferred_own {f : Frame} (hf : Frame.Sound w req session f)
    {r : Ref} (hr : session = some r) (hw : PinInv w) :
    ((runDeferred f.deferred f.world).1.session r).Healthy ∧
      ∀ c, ((runDeferred f.deferred f.world).1.session r).pinnedConnection = some c →
        Own w session f.events c ∧ c ∈ (runDeferred f.deferred f.world).1.checkedOut := by
  cases hf.tidy with
  | closing cs own deferred unfinished healthy =>
    obtain ⟨h1, h2, h3, h4⟩ := runDeferred_closing session cs f.world
    rw [deferred]
    have hsess : (runDeferred (cs.map (.closeConnection · session false)) f.world).1.session r =
        f.world.session r := congrArg (fun sm : SessionManager => sm.objects r) h1
    rw [hsess]
    refine ⟨healthy r hr, ?_⟩
    intro c hc
    have hown := hf.pinned r c hr hc
    have hbusy : f.world.idle session = false := by
      simp [World.idle, hr, Session.isTransactionActive, (healthy r hr c hc).2.2]
    refine ⟨hown, (h3 c).mpr ⟨?_, by simp [hbusy]⟩⟩
    rcases hown with h | ⟨r', hr', hp⟩
    · exact (hf.checkedOut c).mpr (Or.inr h)
    · exact (hf.checkedOut c).mpr (Or.inl (hw.checkedOut r' c hp))
  | finishing r' x hr' own ends deferred outcome =>
    obtain rfl : r' = r := Option.some.inj (hr'.symm.trans hr)
    rw [deferred, runDeferred_finishing]
    have hnone : ({ f.world.close x with
        manager := (f.world.manager.resetTransactionState r').unpinTransaction r' } :
          World).session r' = (f.world.session r').resetTransactionState :=
      (session_reset_unpin _ r' r').trans (if_pos rfl)
    rw [hnone]
    refine ⟨?_, ?_⟩
    · intro c hc
      cases hc
    · intro c hc
      cases hc

/-- **A call keeps the pins of all sessions in order**, whatever the cluster answers. -/
theorem retryLoop_pinInv (hs : SessionOf req session) (hw : PinInv w) :
    PinInv (retryLoop d m req session script w).world := by
  have hf : Frame.Sound w req session (attempts d m req session script w).2 := attempts_sound hs hw
  rw [retryLoop_world]
  generalize (attempts d m req session script w).2 = f at hf
  have hothers : ∀ r, session ≠ some r →
      (runDeferred f.deferred f.world).1.session r = w.session r :=
    fun r hr => (hf.runDeferred_others hw hr).1
  refine ⟨?_, ?_, ?_⟩
  · intro r
    by_cases hr : session = some r
    · exact (hf.runDeferred_own hr hw).1
    · rw [hothers r hr]
      exact hw.healthy r
  · intro r c hc
    by_cases hr : session = some r
    · exact ((hf.runDeferred_own hr hw).2 c hc).2
    · rw [hothers r hr] at hc
      exact ((hf.runDeferred_others hw hr).2 c hc).1
  · intro r r' c hc hc'
    by_cases hr : session = some r <;> by_cases hr' : session = some r'
    · exact Option.some.inj (hr.symm.trans hr')
    · rw [hothers r' hr'] at hc'
      exact absurd hc' (((hf.runDeferred_own hr hw).2 c hc).1.not_pinned hf.fresh hw hr')
    · rw [hothers r hr] at hc
      exact absurd hc (((hf.runDeferred_own hr' hw).2 c hc').1.not_pinned hf.fresh hw hr)
    · rw [hothers r hr] at hc
      rw [hothers r' hr'] at hc'
      exact hw.disjoint r r' c hc hc'

end Call

end MongoBouncer
