import MongoBouncer.Mongo.Pinning

/-!
# How often a write is delivered

The retry loop repeats an attempt after a read error and after an undecodable reply, when the
message has been delivered already. Only two things stop it: the transaction state management,
which refuses a second startTransaction and a second commit, and an unacknowledged message, which
is never read for.

* `WrittenOnce` : once a message has been written with success, it is not written again;
* `Writing`     : what an attempt adds to the events, and the frame it sends in;
* `World.forcedServer` : the server that an attempt cannot choose freely.

Principal result: `writtenOnce_iff`.
-/

namespace MongoBouncer

open GoStd

/-- The message is written, with or without success. -/
def Event.isWrite : Event → Bool
  | .write _ _ => true
  | _ => false

/-- The message is written with success. -/
def Event.delivers : Event → Bool
  | .write _ b => b
  | _ => false

/-- Once the message has been written with success, it is not written again. -/
def WrittenOnce (events : List Event) : Prop :=
  events.Pairwise fun x y => x.delivers = true → y.isWrite = false

instance (events : List Event) : Decidable (WrittenOnce events) :=
  inferInstanceAs (Decidable (List.Pairwise _ _))

/-- No write. -/
def Quiet (events : List Event) : Prop := ∀ x ∈ events, x.isWrite = false

/-- No successful write. -/
def Undelivered (events : List Event) : Prop := ∀ x ∈ events, x.delivers = false

/-- At most one write, and nothing else. -/
def OneWrite (events : List Event) : Prop := events = [] ∨ ∃ c b, events = [.write c b]

theorem Event.delivers_of_not_isWrite {x : Event} (h : x.isWrite = false) : x.delivers = false := by
  cases x with
  | write c b => cases h
  | _ => rfl

variable {q evs : List Event}

theorem Quiet.undelivered (h : Quiet q) : Undelivered q :=
  fun x hx => Event.delivers_of_not_isWrite (h x hx)

theorem Quiet.append {q' : List Event} (h : Quiet q) (h' : Quiet q') : Quiet (q ++ q') := by
  intro x hx
  rcases List.mem_append.mp hx with hx | hx
  · exact h x hx
  · exact h' x hx

theorem Undelivered.append {evs' : List Event} (h : Undelivered evs)
    (h' : Undelivered evs') : Undelivered (evs ++ evs') := by
  intro x hx
  rcases List.mem_append.mp hx with hx | hx
  · exact h x hx
  · exact h' x hx

theorem Undelivered.writtenOnce (h : Undelivered evs) : WrittenOnce evs := by
  refine List.Pairwise.imp_of_mem ?_ (List.pairwise_of_forall (R := fun _ _ => True) fun _ _ => trivial)
  intro x y hx _ _ hdel
  rw [h x hx] at hdel
  cases hdel

theorem WrittenOnce.append_quiet (h : WrittenOnce evs) (hq : Quiet q) : WrittenOnce (evs ++ q) := by
  refine List.pairwise_append.mpr ⟨h, hq.undelivered.writtenOnce, ?_⟩
  intro x _ y hy _
  exact hq y hy

theorem Undelivered.append_oneWrite {v : List Event} (h : Undelivered evs) (hv : OneWrite v) :
    WrittenOnce (evs ++ v) := by
  refine List.pairwise_append.mpr ⟨h.writtenOnce, ?_, ?_⟩
  · rcases hv with rfl | ⟨c, b, rfl⟩ <;> simp
  · intro x hx y _ hdel
    rw [h x hx] at hdel
    cases hdel

theorem WrittenOnce.delivered_le (h : WrittenOnce evs) : evs.countP Event.delivers ≤ 1 := by
  induction evs with
  | nil => simp
  | cons x evs ih =>
    obtain ⟨hx, hevs⟩ := List.pairwise_cons.mp h
    by_cases hdel : x.delivers = true
    · have hnone : evs.countP Event.delivers = 0 := by
        rw [List.countP_eq_zero]
        intro y hy
        simp [Event.delivers_of_not_isWrite (hx y hy hdel)]
      simp [hdel, hnone]
    · simpa [hdel] using ih hevs

/-! ## The server of an attempt -/

/-- The server that the session or the caches force on an attempt; `none` leaves the choice to
the cluster, `some none` is the nil server. -/
def World.forcedServer (w : World) (m : ClientID) (req : Request) (s : Option Session) :
    Option (Option Server) :=
  match s.bind Session.getPinnedServer with
  | some server => some (some server)
  | none => w.cachedServer m req

/-- Some answer of the cluster gives an attempt a server it can send to. -/
def usable : Option (Option Server) → Bool
  | none => true
  | some none => false
  | some (some server) => server.errorProcessor

theorem World.chooseServer_eq (w : World) (m : ClientID) (req : Request) (session : Option Ref)
    (up : Attempt) :
    w.chooseServer m req session up = match w.forcedServer m req (session.map w.session) with
      | some server => .ok server
      | none => up.selectServer.map some := by
  unfold World.chooseServer World.selectServer World.forcedServer
  rw [Option.bind_map]
  cases h : session.bind fun r => (w.session r).getPinnedServer with
  | some server => simp [h]
  | none =>
    cases w.cachedServer m req with
    | none => simp [h]
    | some server => simp [h]

theorem World.chooseServer_usable (w : World) (up : Attempt) {m : ClientID} {req : Request}
    {session : Option Ref}
    (husable : usable (w.forcedServer m req (session.map w.session)) = true)
    (hup : ∃ server, up.selectServer = .ok server ∧ server.errorProcessor = true) :
    ∃ server, server.errorProcessor = true ∧ w.chooseServer m req session up = .ok (some server) := by
  rw [World.chooseServer_eq]
  cases hforced : w.forcedServer m req (session.map w.session) with
  | none =>
    obtain ⟨server, hserver, hep⟩ := hup
    exact ⟨server, hep, by rw [hserver]; rfl⟩
  | some o =>
    rw [hforced] at husable
    cases o with
    | none => cases husable
    | some server => exact ⟨server, husable, rfl⟩

theorem World.checkoutConnection_ok {up : Attempt}
    (hup : ∀ server out, ∃ c, up.connection server out = .ok c) (w : World) (server : Server)
    (session : Option Ref) : ∃ p, w.checkoutConnection server session up = .ok p := by
  unfold World.checkoutConnection
  split
  · exact ⟨_, rfl⟩
  · obtain ⟨c, hc⟩ := hup server w.checkedOut
    exact ⟨_, by rw [hc]⟩

/-! ## What an attempt writes -/

section Call

variable {d : Driver} {m : ClientID} {req : Request} {session : Option Ref} {script : Script}
  {w : World} {r : Ref} {t : TransactionDetails}

/-- The attempt sends in the frame `g`: the session is as the transaction state management left it,
and nothing has been written yet. -/
structure SendsIn (d : Driver) (m : ClientID) (req : Request) (session : Option Ref)
    (script : Script) (i : Nat) (f : Frame) (server : Server) (conn : Conn) (g : Frame) : Prop where
  chosen : f.world.chooseServer m req session (script.attempt i) = .ok (some server)
  flow : attempt d m req session script i f =
    sendAndUpdate d m req i server conn (script.attempt i) g
  quiet : ∃ q, Quiet q ∧ g.events = f.events ++ q
  managed : ∀ r t, session = some r → req.details = some t → ∃ fin,
    (f.world.session r).manage t req.command server conn (script.attempt i).now =
      .ok (g.world.session r, fin)
  clients : g.world.clients = f.world.clients
  groups : (∀ t, req.details = some t → t.isStartTransaction = false) →
    g.world.groups = f.world.groups
  deferred : g.deferred ≠ []

/-- The ways an attempt can go, by what it writes: nothing, or what sending on a connection
writes. -/
inductive Writing (d : Driver) (m : ClientID) (req : Request) (session : Option Ref)
    (script : Script) (i : Nat) (f : Frame) : Prop where
  | quiet (q : List Event) (hq : Quiet q)
      (h : (Flow.frame (attempt d m req session script i f)).events = f.events ++ q)
      (hnext : ∀ f', attempt d m req session script i f = .next f' → f' = f)
      (hexit : ∀ res f', attempt d m req session script i f = .exit res f' → isReply res = false)
  | sent (server : Server) (conn : Conn) (g : Frame)
      (h : SendsIn d m req session script i f server conn g)

variable {f : Frame} {server : Server} {conn : Conn} {w' : World} {ev : List Event} {i : Nat}
  {s : Session}

theorem checkout_quiet
    {up : Attempt} (h : f.world.checkoutConnection server session up = .ok (conn, w', ev)) :
    Quiet ev := by
  rcases World.checkoutConnection_eq_ok h with ⟨-, -, rfl⟩ | ⟨-, -, -, rfl⟩
  · intro x hx
    cases hx
  · intro x hx
    cases List.mem_singleton.mp hx
    rfl

theorem sendsIn_outside
    (hserver : f.world.chooseServer m req none (script.attempt i) = .ok (some server))
    (hconn : f.world.checkoutConnection server none (script.attempt i) = .ok (conn, w', ev))
    (h : attempt d m req none script i f = sendAndUpdate d m req i server conn (script.attempt i)
      { world := w'
        deferred := .closeConnection conn none false :: f.deferred
        events := f.events ++ ev }) :
    SendsIn d m req none script i f server conn
      { world := w'
        deferred := .closeConnection conn none false :: f.deferred
        events := f.events ++ ev } where
  chosen := hserver
  flow := h
  quiet := ⟨ev, checkout_quiet hconn, rfl⟩
  managed := fun r t hr => by cases hr
  clients := (World.manager_checkoutConnection hconn).2
  groups := fun _ => World.groups_checkoutConnection hconn
  deferred := by simp

theorem sendsIn_inside {w'' : World} {fin : Bool} (ht : req.details = some t)
    (hserver : f.world.chooseServer m req (some r) (script.attempt i) = .ok (some server))
    (hconn : f.world.checkoutConnection server (some r) (script.attempt i) = .ok (conn, w', ev))
    (hmanage : (w'.session r).manage t req.command server conn (script.attempt i).now =
      .ok (s, fin)) (hworld : w'.Managed w'' r s req.command)
    (hgroups : w''.groups = if t.isStartTransaction then
      (w'.storeTransaction (w'.session r).lsID).groups else w'.groups)
    {g : Frame} (hg : g = { world := w''
                            deferred := .closeConnection conn (some r) fin ::
                              if fin then .unpinTransaction r :: f.deferred else f.deferred
                            events := (f.events ++ ev) ++
                              if t.isStartTransaction then [.start t.lsID conn] else [] })
    (h : attempt d m req (some r) script i f =
      sendAndUpdate d m req i server conn (script.attempt i) g) :
    SendsIn d m req (some r) script i f server conn g := by
  subst hg
  refine ⟨hserver, h, ?_, ?_, ?_, ?_, by simp⟩
  · refine ⟨ev ++ if t.isStartTransaction then [.start t.lsID conn] else [], ?_,
      List.append_assoc _ _ _⟩
    refine (checkout_quiet hconn).append ?_
    intro x hx
    split at hx
    · cases List.mem_singleton.mp hx
      rfl
    · cases hx
  · intro r' t' hr' ht'
    cases hr'
    obtain rfl : t = t' := Option.some.inj (ht.symm.trans ht')
    refine ⟨fin, ?_⟩
    rw [World.session_checkoutConnection hconn] at hmanage
    simp only [hworld.session, if_true]
    exact hmanage
  · exact hworld.clients.trans (World.manager_checkoutConnection hconn).2
  · intro hst
    rw [hst t ht, if_neg (by decide)] at hgroups
    exact hgroups.trans (World.groups_checkoutConnection hconn)

theorem attempt_writing (d : Driver) (m : ClientID) (script : Script) (hs : SessionOf req session)
    (i : Nat) (f : Frame) : Writing d m req session script i f := by
  cases attempt_cases d m req script hs i f with
  | stopped h =>
    refine .quiet [] (by simp [Quiet]) ?_ ?_ ?_
    · rw [Flow.frame_of_stopped h, List.append_nil]
    · intro f' hf'
      rcases h with h | ⟨e, h⟩
      · rw [h] at hf'
        cases hf'
        rfl
      · rw [h] at hf'
        cases hf'
    · intro res f' hf'
      rcases h with h | ⟨e, h⟩
      · rw [h] at hf'
        cases hf'
      · rw [h] at hf'
        cases hf'
        rfl
  | refused r t server conn w' ev e hr ht hserver hconn hmanage h =>
    refine .quiet ev (checkout_quiet hconn) (by simp [h, Flow.frame]) ?_ ?_
    · intro f' hf'
      rw [h] at hf'
      cases hf'
    · intro res f' hf'
      rw [h] at hf'
      cases hf'
      rfl
  | sentOutside server conn w' ev hr hserver hconn h =>
    subst hr
    exact .sent server conn _ (sendsIn_outside hserver hconn h)
  | sentInside r t server conn w' w'' ev s fin hr ht hserver hconn hmanage hworld hgroups h =>
    subst hr
    exact .sent server conn _ (sendsIn_inside ht hserver hconn hmanage hworld hgroups rfl h)

/-- The session lets the message through. -/
def Session.Allows (s : Session) (t : TransactionDetails) (command : Command) : Prop :=
  (t.isStartTransaction = true → s.state = .active ∧ s.transactionState = .none) ∧
    (command.endsTransaction = true →
      t.isStartTransaction = true ∨ s.transactionState = .inProgress)

theorem Session.Allows.manage {command : Command} (h : s.Allows t command)
    (server : Server) (conn : Conn) (now : Int) : ∃ p, s.manage t command server conn now = .ok p :=
  ⟨_, Session.manage_eq_ok.mpr ⟨h.1, h.2, rfl, rfl⟩⟩

theorem attempt_sends (d : Driver) (hs : SessionOf req session)
    (hserver : f.world.chooseServer m req session (script.attempt i) = .ok (some server))
    (hconn : ∃ p, f.world.checkoutConnection server session (script.attempt i) = .ok p)
    (hallows : ∀ r t, session = some r → req.details = some t →
      (f.world.session r).Allows t req.command) :
    ∃ conn g, SendsIn d m req session script i f server conn g := by
  obtain ⟨p, hp⟩ := hconn
  cases attempt_cases d m req script hs i f with
  | stopped h hstop =>
    obtain ⟨e, he⟩ := hstop server hserver
    rw [hp] at he
    cases he
  | refused r t server' conn w' ev e hr ht hserver' hconn hmanage h =>
    rw [World.session_checkoutConnection hconn] at hmanage
    obtain ⟨p, hp⟩ := (hallows r t hr ht).manage server' conn (script.attempt i).now
    rw [hp] at hmanage
    cases hmanage
  | sentOutside server' conn w' ev hr hserver' hconn h =>
    rw [hserver] at hserver'
    cases hserver'
    subst hr
    exact ⟨conn, _, sendsIn_outside hserver hconn h⟩
  | sentInside r t server' conn w' w'' ev s fin hr ht hserver' hconn hmanage hworld hgroups h =>
    rw [hserver] at hserver'
    cases hserver'
    subst hr
    exact ⟨conn, _, sendsIn_inside ht hserver hconn hmanage hworld hgroups rfl h⟩

/-- What sending writes: nothing to a server without an error processor, and nothing with success
when an unacknowledged message is to be sent again. -/
theorem exchange_oneWrite (d : Driver) (req : Request) (i : Nat) (server : Server) (conn : Conn)
    (up : Attempt) :
    OneWrite (exchange d i server conn req up).2 ∧
      (server.errorProcessor = false → (exchange d i server conn req up).2 = []) ∧
      (req.unacknowledged = true → (exchange d i server conn req up).1 = .again →
        Undelivered (exchange d i server conn req up).2) := by
  refine ⟨?_, ?_, ?_⟩
  · rcases exchange_events d req i server conn up with h | ⟨b, h⟩
    · exact Or.inl h
    · exact Or.inr ⟨conn, b, h⟩
  · intro hep
    simp [exchange, hep]
  · intro hu hagain
    unfold exchange roundTripOn at hagain ⊢
    cases hep : server.errorProcessor with
    | false => simp [Undelivered]
    | true =>
      cases hw : up.writeWireMessage with
      | some e =>
        simp [Undelivered, Event.delivers]
      | none => simp [hep, hw, hu] at hagain

theorem sendAndUpdate_writes (d : Driver) (m : ClientID) (req : Request) (i : Nat) (server : Server)
    (conn : Conn) (up : Attempt) (g : Frame) :
    (Flow.frame (sendAndUpdate d m req i server conn up g)).events =
        g.events ++ (exchange d i server conn req up).2 ∧
      ∀ f', sendAndUpdate d m req i server conn up g = .next f' →
        f'.world = g.world ∧ (exchange d i server conn req up).1 = .again := by
  rcases hx : exchange d i server conn req up with ⟨x, ev⟩
  simp only [sendAndUpdate, hx]
  cases x with
  | again =>
    refine ⟨rfl, ?_⟩
    intro f' hf'
    cases hf'
    exact ⟨rfl, rfl⟩
  | fail | unacknowledged | reply =>
    refine ⟨rfl, ?_⟩
    intro f' hf'
    cases hf'

/-! ## Calls that write their message once -/

/-- An unacknowledged message is sent again only while it has not been delivered. -/
theorem writtenOnce_of_unacknowledged (hs : SessionOf req session)
    (hu : req.unacknowledged = true) :
    WrittenOnce (attempts d m req session script w).2.events := by
  refine attempts_rule_exit (I := fun f => Undelivered f.events)
    (Q := fun _ f => WrittenOnce f.events) (by simp [Undelivered]) ?_ fun f hf => hf.writtenOnce
  intro i f hf
  refine Flow.meets_of_next (Q := fun f => WrittenOnce f.events) ?_ ?_
  · intro f' hf'
    cases attempt_writing d m script hs i f with
    | quiet q hq h hnext hexit =>
      rw [hnext f' hf']
      exact hf
    | sent server conn g h =>
      obtain ⟨q, hq, hevents⟩ := h.quiet
      rw [h.flow] at hf'
      obtain ⟨hev, hagain⟩ := sendAndUpdate_writes d m req i server conn (script.attempt i) g
      rw [hf', Flow.frame, hevents] at hev
      rw [hev]
      exact (hf.append hq.undelivered).append
        ((exchange_oneWrite d req i server conn _).2.2 hu (hagain f' hf').2)
  · cases attempt_writing d m script hs i f with
    | quiet q hq h hnext hexit =>
      rw [h]
      exact (hf.append hq.undelivered).writtenOnce
    | sent server conn g h =>
      obtain ⟨q, hq, hevents⟩ := h.quiet
      rw [h.flow, (sendAndUpdate_writes d m req i server conn (script.attempt i) g).1, hevents]
      exact (hf.append hq.undelivered).append_oneWrite (exchange_oneWrite d req i server conn _).1

/-- After a startTransaction, commit or abort that was let through, the next one is refused. -/
theorem manage_again {s' : Session} {command : Command} {now : Int} {fin : Bool}
    (hcommand : t.isStartTransaction = true ∨ command.endsTransaction = true)
    (h : s.manage t command server conn now = .ok (s', fin)) (server' : Server) (conn' : Conn)
    (now' : Int) : ∃ e, s'.manage t command server' conn' now' = .error e := by
  cases hends : command.endsTransaction with
  | true => exact Session.manage_of_outcome hends (Session.manage_outcome hends h)
  | false =>
    rw [hends] at hcommand
    have hst := hcommand.resolve_right (by simp)
    obtain ⟨hready, -, -, rfl⟩ := Session.manage_eq_ok.mp h
    refine Session.manage_of_started hst ?_
    simp only [Session.afterStart, hst, if_true, Session.afterFinish, hends, Bool.false_eq_true,
      if_false]
    split
    · simp [Session.endSession, Session.started]
    · simp [Session.started]

theorem writtenOnce_of_refused (ht : req.details = some t)
    (hcommand : t.isStartTransaction = true ∨ req.command.endsTransaction = true) :
    WrittenOnce (attempts d m req (some r) script w).2.events := by
  have hs := sessionOf_some ht r
  refine attempts_rule_exit
    (I := fun f => Undelivered f.events ∨ WrittenOnce f.events ∧ ∀ server conn now,
      ∃ e, (f.world.session r).manage t req.command server conn now = .error e)
    (Q := fun _ f => WrittenOnce f.events) (Or.inl (by simp [Undelivered])) ?_ ?_
  · intro i f hf
    cases attempt_writing d m script hs i f with
    | quiet q hq h hnext hexit =>
      refine Flow.meets_of_next (Q := fun f => WrittenOnce f.events) ?_ ?_
      · intro f' hf'
        rw [hnext f' hf']
        exact hf
      · rw [h]
        rcases hf with hf | ⟨hf, -⟩
        · exact (hf.append hq.undelivered).writtenOnce
        · exact hf.append_quiet hq
    | sent server conn g h =>
      obtain ⟨fin, hmanage⟩ := h.managed r t rfl ht
      rcases hf with hf | ⟨-, hrefuse⟩
      · have honce : WrittenOnce (Flow.frame (attempt d m req (some r) script i f)).events := by
          obtain ⟨q, hq, hevents⟩ := h.quiet
          rw [h.flow, (sendAndUpdate_writes d m req i server conn (script.attempt i) g).1, hevents]
          exact (hf.append hq.undelivered).append_oneWrite
            (exchange_oneWrite d req i server conn _).1
        refine Flow.meets_of_next (Q := fun f => WrittenOnce f.events) ?_ honce
        intro f' hf'
        rw [hf'] at honce
        rw [h.flow] at hf'
        have hworld := ((sendAndUpdate_writes d m req i server conn (script.attempt i) g).2 f' hf').1
        refine Or.inr ⟨honce, ?_⟩
        rw [hworld]
        exact manage_again hcommand hmanage
      · obtain ⟨e, he⟩ := hrefuse server conn (script.attempt i).now
        rw [he] at hmanage
        cases hmanage
  · rintro f (hf | ⟨hf, -⟩)
    · exact hf.writtenOnce
    · exact hf

/-! ## Messages that leave the session as it is -/

/-- The message is no startTransaction, commit, abort or endSessions of a session. -/
def Request.Plain (req : Request) : Prop :=
  ∀ t, req.details = some t → t.isStartTransaction = false ∧ req.command.completes = false

/-- The frame of a call that has changed nothing an attempt reads. -/
structure Unmoved (w : World) (session : Option Ref) (f : Frame) : Prop where
  session : ∀ r, session = some r → f.world.session r = w.session r
  clients : f.world.clients = w.clients
  groups : f.world.groups = w.groups

theorem Unmoved.forcedServer (h : Unmoved w session f) (m : ClientID) (req : Request) :
    f.world.forcedServer m req (session.map f.world.session) =
      w.forcedServer m req (session.map w.session) := by
  have hsession : session.map f.world.session = session.map w.session := by
    cases session with
    | none => rfl
    | some r => simp [h.session r rfl]
  unfold World.forcedServer
  rw [hsession, World.cachedServer_congr h.groups (congrFun h.clients m)]

theorem manage_plain (hplain : req.Plain) (ht : req.details = some t) (s : Session)
    (server : Server) (conn : Conn) (now : Int) :
    s.manage t req.command server conn now = .ok (s, false) := by
  obtain ⟨hst, hcommand⟩ := hplain t ht
  obtain ⟨hends, -⟩ := Command.not_completes hcommand
  refine Session.manage_eq_ok.mpr ⟨by simp [hst], by simp [hends], hends.symm, ?_⟩
  rw [afterFinish_of_not_completes hcommand]
  simp [Session.afterStart, hst]

theorem plain_allows (hplain : req.Plain) (ht : req.details = some t) (s : Session) :
    s.Allows t req.command := by
  obtain ⟨hst, hcommand⟩ := hplain t ht
  exact ⟨by simp [hst], by simp [(Command.not_completes hcommand).1]⟩

theorem Unmoved.of_world {f' : Frame} (h : Unmoved w session f) (hw : f'.world = f.world) :
    Unmoved w session f' := by
  refine ⟨?_, ?_, ?_⟩
  · rw [hw]
    exact h.session
  · rw [hw]
    exact h.clients
  · rw [hw]
    exact h.groups

theorem Unmoved.sends {g : Frame} (h : Unmoved w session f) (hs : SessionOf req session)
    (hplain : req.Plain)
    (hsends : SendsIn d m req session script i f server conn g) : Unmoved w session g := by
  refine ⟨?_, hsends.clients.trans h.clients,
    (hsends.groups fun t ht => (hplain t ht).1).trans h.groups⟩
  intro r hr
  obtain ⟨t, ht⟩ : ∃ t, req.details = some t := by
    subst hr
    exact Option.isSome_iff_exists.mp (hs.symm.trans rfl)
  obtain ⟨fin, hmanage⟩ := hsends.managed r t hr ht
  rw [manage_plain hplain ht, Except.ok.injEq, Prod.mk.injEq] at hmanage
  rw [← hmanage.1]
  exact h.session r hr

theorem writtenOnce_of_unusable (hs : SessionOf req session) (hplain : req.Plain)
    (hun : usable (w.forcedServer m req (session.map w.session)) = false) :
    WrittenOnce (attempts d m req session script w).2.events := by
  refine attempts_rule_exit (I := fun f => Unmoved w session f ∧ Quiet f.events)
    (Q := fun _ f => WrittenOnce f.events) ⟨⟨fun _ _ => rfl, rfl, rfl⟩, by simp [Quiet]⟩ ?_
    fun f hf => hf.2.undelivered.writtenOnce
  rintro i f ⟨hsame, hf⟩
  cases attempt_writing d m script hs i f with
  | quiet q hq h hnext hexit =>
    refine Flow.meets_of_next (Q := fun f => WrittenOnce f.events) ?_ ?_
    · intro f' hf'
      rw [hnext f' hf']
      exact ⟨hsame, hf⟩
    · rw [h]
      exact (hf.append hq).undelivered.writtenOnce
  | sent server conn g h =>
    have hep : server.errorProcessor = false := by
      have hserver := h.chosen
      rw [World.chooseServer_eq, hsame.forcedServer] at hserver
      cases hforced : w.forcedServer m req (session.map w.session) with
      | none =>
        rw [hforced] at hun
        cases hun
      | some o =>
        rw [hforced] at hun hserver
        cases hserver
        exact hun
    obtain ⟨q, hq, hevents⟩ := h.quiet
    have hwrites := sendAndUpdate_writes d m req i server conn (script.attempt i) g
    rw [(exchange_oneWrite d req i server conn (script.attempt i)).2.1 hep, List.append_nil,
      hevents] at hwrites
    have hquiet := hf.append hq
    rw [h.flow]
    refine Flow.meets_of_next (Q := fun f => WrittenOnce f.events) ?_ ?_
    · intro f' hf'
      refine ⟨(hsame.sends hs hplain h).of_world (hwrites.2 f' hf').1, ?_⟩
      have hev := hwrites.1
      rw [hf'] at hev
      rw [show f'.events = _ from hev]
      exact hquiet
    · rw [hwrites.1]
      exact hquiet.undelivered.writtenOnce

end Call

/-! ## Calls that write their message again and again -/

/-- A cluster that takes every message and breaks the connection before the reply. -/
def lossyScript : Script := .steady (.answering ⟨0, true⟩ none (.error connectionReset))

section Lossy

variable {d : Driver} {m : ClientID} {req : Request} {session : Option Ref} {w : World} {f : Frame}
  {i : Nat}

theorem exchange_lossy (hu : req.unacknowledged = false) {server : Server}
    (hep : server.errorProcessor = true) (conn : Conn) :
    exchange d i server conn req (lossyScript.attempt i) =
      (if i < maxRetries then .again else .fail (wrapNetworkError d connectionReset),
        [.write conn true]) := by
  have hwrite : (lossyScript.attempt i).writeWireMessage = none := rfl
  have hread : (lossyScript.attempt i).readWireMessage = .error connectionReset := rfl
  simp [exchange, roundTripOn, hep, hu, hwrite, hread, isRetryableError_connectionReset]

section

variable (hs : SessionOf req session) (hplain : req.Plain) (hu : req.unacknowledged = false)
  (husable : usable (w.forcedServer m req (session.map w.session)) = true)

include hs hplain hu husable

/-- Every attempt delivers the message, and all but the last are repeated. -/
theorem attempt_lossy (hf : Unmoved w session f) :
    ∃ f', f'.events.countP Event.delivers = f.events.countP Event.delivers + 1 ∧
      Unmoved w session f' ∧
      attempt d m req session lossyScript i f = if i < maxRetries then .next f'
        else .exit (.error (wrapNetworkError d connectionReset)) f' := by
  rw [← hf.forcedServer] at husable
  obtain ⟨server, hep, hserver⟩ := f.world.chooseServer_usable (lossyScript.attempt i) husable
    ⟨⟨0, true⟩, rfl, rfl⟩
  obtain ⟨conn, g, hsends⟩ := attempt_sends d hs hserver
    (World.checkoutConnection_ok (fun _ _ => ⟨_, rfl⟩) f.world server session)
    fun r t _ ht => plain_allows hplain ht (f.world.session r)
  obtain ⟨q, hq, hevents⟩ := hsends.quiet
  have hg := hf.sends hs hplain hsends
  rw [hsends.flow]
  simp only [sendAndUpdate, exchange_lossy hu hep]
  refine ⟨{ g with events := g.events ++ [.write conn true] }, ?_,
    ⟨hg.session, hg.clients, hg.groups⟩, ?_⟩
  · have hquiet : q.countP Event.delivers = 0 := by
      rw [List.countP_eq_zero]
      intro x hx
      simp [hq.undelivered x hx]
    simp [hevents, List.countP_append, hquiet, Event.delivers]
  · by_cases hi : i < maxRetries
    · simp [hi]
    · simp [hi]

/-- **A plain message is delivered four times** when every connection breaks before the reply. -/
theorem attempts_lossy :
    4 ≤ (attempts d m req session lossyScript w).2.events.countP Event.delivers := by
  refine forLoop_rule (I := fun i f => Unmoved w session f ∧ i ≤ f.events.countP Event.delivers)
    (Q := fun _ f => 4 ≤ f.events.countP Event.delivers) ?_ _ _ _
    ⟨⟨fun _ _ => rfl, rfl, rfl⟩, Nat.zero_le _⟩ fun f hf => hf.2
  rintro i f ⟨hsame, hcount⟩
  obtain ⟨f', hcount', hsame', h⟩ := attempt_lossy (d := d) (i := i) hs hplain hu husable hsame
  rw [h]
  split
  · exact ⟨hsame', by omega⟩
  · rename_i hi
    show 4 ≤ f'.events.countP Event.delivers
    simp only [maxRetries] at hi
    omega

end

end Lossy

/-! ## Exactly the messages that are written once -/

/-- No behaviour of the cluster makes the call write its message again after a delivery. -/
def World.DeliversOnce (w : World) (m : ClientID) (req : Request) : Prop :=
  (w.clients m).closed = true ∨ req.unacknowledged = true ∨
    (∃ t, req.details = some t ∧
      (t.isStartTransaction = true ∨ req.command = .commitTransaction)) ∨
    usable (w.forcedServer m req (req.details.map fun t => w.sessionFor t.lsID)) = false

theorem cachedServer_openSession (w : World) (m : ClientID) (req : Request)
    (t : TransactionDetails) (now : Int) :
    (w.openSession t now).2.cachedServer m req = w.cachedServer m req := by
  have hopened := w.openSession_opened t now
  refine World.cachedServer_congr ?_ (congrFun hopened.clients m) req
  simp only [World.groups, hopened.distributed]

theorem forcedServer_openSession (w : World) (m : ClientID) (req : Request)
    (t : TransactionDetails) (now : Int) :
    (w.openSession t now).2.forcedServer m req
        ((some (w.openSession t now).1).map (w.openSession t now).2.session) =
      w.forcedServer m req (some (w.sessionFor t.lsID)) := by
  obtain ⟨created, touched, hsess⟩ := w.openSession_sessionFor t now
  simp only [World.forcedServer, Option.map_some, hsess, cachedServer_openSession,
    Option.bind_some, Session.getPinnedServer]

theorem Command.plain_of_isWrite {c : Command} (hwrite : c.isWrite = true)
    (hcommit : c ≠ .commitTransaction) : c.completes = false := by
  cases c with
  | commitTransaction => exact absurd rfl hcommit
  | abortTransaction => cases hwrite
  | endSessions => cases hwrite
  | _ => rfl

theorem quiet_runDeferred (ds : List Deferred) (w : World) : Quiet (runDeferred ds w).2 := by
  intro x hx
  obtain ⟨c, rfl⟩ := mem_runDeferred hx
  rfl

/-- **A write command is not written again after it was delivered, whatever the cluster answers,
exactly when** its client is closed, it is unacknowledged, it starts or commits a transaction of a
session, or the session or a cache forces a server on it that it cannot be sent to. -/
theorem writtenOnce_iff {d : Driver} (w : World) (m : ClientID) (wm : Bytes) (op : Operation)
    (hwrite : (Request.of d wm op).command.isWrite = true) :
    (∀ script, WrittenOnce (roundTrip d m (.of d wm op) script w).events) ↔
      w.DeliversOnce m (.of d wm op) := by
  generalize Request.of d wm op = req at hwrite
  -- outside the refused messages the request is plain
  have hplain : (¬ ∃ t, req.details = some t ∧
      (t.isStartTransaction = true ∨ req.command = .commitTransaction)) → req.Plain := by
    intro h t ht
    simp only [not_exists, not_and, not_or] at h
    obtain ⟨hst, hcommit⟩ := h t ht
    exact ⟨by simpa using hst, Command.plain_of_isWrite hwrite hcommit⟩
  constructor
  · intro hall
    by_contra hno
    simp only [World.DeliversOnce, not_or, Bool.not_eq_true, Bool.not_eq_false] at hno
    obtain ⟨hopen, hu, hrefuse, husable⟩ := hno
    have honce := hall lossyScript
    have hcount : 4 ≤ (roundTrip d m req lossyScript w).events.countP Event.delivers := by
      cases ht : req.details with
      | none =>
        rw [ht] at husable
        rw [roundTrip_of_none hopen ht, retryLoop_events, List.countP_append]
        exact (attempts_lossy (sessionOf_none ht) (hplain hrefuse) hu husable).trans
          (Nat.le_add_right _ _)
      | some t =>
        rw [ht, Option.map_some, ← forcedServer_openSession w m req t lossyScript.now] at husable
        rw [roundTrip_of_some hopen ht, retryLoop_events, List.countP_append]
        exact (attempts_lossy (sessionOf_some ht _) (hplain hrefuse) hu husable).trans
          (Nat.le_add_right _ _)
    have hle := honce.delivered_le
    omega
  · intro h script
    cases hc : (w.clients m).closed with
    | true =>
      rw [roundTrip_closed hc]
      exact List.Pairwise.nil
    | false =>
      have honce : ∀ (session : Option Ref) (w₁ : World), SessionOf req session →
          w₁.forcedServer m req (session.map w₁.session) =
            w.forcedServer m req (req.details.map fun t => w.sessionFor t.lsID) →
          WrittenOnce (retryLoop d m req session script w₁).events := by
        intro session w₁ hs hforced
        rw [retryLoop_events]
        refine WrittenOnce.append_quiet ?_ (quiet_runDeferred _ _)
        by_cases hrefuse : ∃ t, req.details = some t ∧
            (t.isStartTransaction = true ∨ req.command = .commitTransaction)
        · obtain ⟨t, ht, hcommand⟩ := hrefuse
          obtain ⟨r, rfl⟩ : ∃ r, session = some r :=
            Option.isSome_iff_exists.mp (hs.trans (by rw [ht]; rfl))
          exact writtenOnce_of_refused ht
            (hcommand.imp_right fun h => endsTransaction_iff.mpr (Or.inl h))
        · rcases h with h | hu | h | h
          · rw [hc] at h
            cases h
          · exact writtenOnce_of_unacknowledged hs hu
          · exact absurd h hrefuse
          · rw [← hforced] at h
            exact writtenOnce_of_unusable hs (hplain hrefuse) h
      cases ht : req.details with
      | none =>
        rw [roundTrip_of_none hc ht]
        refine honce none w (sessionOf_none ht) ?_
        rw [ht]
        rfl
      | some t =>
        rw [roundTrip_of_some hc ht]
        refine honce _ _ (sessionOf_some ht _) ?_
        rw [forcedServer_openSession, ht]
        rfl

/-- The first statement of a transaction is written once. -/
theorem writtenOnce_iff_startInsert :
    (Request.of plainDriver [] startInsert.op).command.isWrite = true ∧
    ∀ script, WrittenOnce (roundTrip plainDriver 0 (.of plainDriver [] startInsert.op) script
      newWorld).events := by
  have hwrite : (Request.of plainDriver [] startInsert.op).command.isWrite = true := by
    decide +kernel
  refine ⟨hwrite, (writtenOnce_iff newWorld 0 [] startInsert.op hwrite).mpr ?_⟩
  exact Or.inr (Or.inr (Or.inl ⟨⟨[7], 1, true, false⟩, by decide +kernel, Or.inl rfl⟩))

/-- An ordinary insert, on a cluster that loses every reply. -/
def lossyInsert : Call :=
  { client := 0, wm := []
    op := Bson.opMsg [("insert", .string (lit "orders")), ("$db", .string (lit "shop"))]
    script := lossyScript }

/-- The insert is delivered four times. -/
theorem lossyInsert_redelivered :
    (lossyInsert.request plainDriver).command.isWrite = true ∧
      (lossyInsert.run plainDriver newWorld).events.countP Event.delivers = 4 ∧
      ¬ WrittenOnce (lossyInsert.run plainDriver newWorld).events := by
  refine ⟨by decide +kernel, by decide +kernel, by decide +kernel⟩

end MongoBouncer
