import MongoBouncer.Mongo.Affinity
import MongoBouncer.Mongo.Delivery

/-!
# Retries that the client does not notice

A call whose first attempts fail and whose next attempt is answered, beside the call that is
answered at once. The retry is not noticed when the reply is returned and every session is left in
the transaction state of the undisturbed call.

* `Fault`    : the steps of an attempt that the cluster can fail, with the error;
* `Suffers`  : the attempts of a call meet these faults in turn, and the next one is answered;
* `Ready`    : the frames in which an answered attempt ends as it would have at first;
* `Dead`     : the frames from which no attempt gets a reply.

A fault before the transaction state management leaves the frame as it was. A fault after it hands
on a session that has been started, committed or aborted already, and that refuses the message.

Principal result: `transparent_iff`.
-/

namespace MongoBouncer

open GoStd

/-! ## Faults -/

/-- Where the cluster fails an attempt, and how. -/
inductive Fault where
  | selection (e : GoError)
  | checkout (e : GoError)
  | write (e : GoError)
  | read (e : GoError)
  | undecodable (wm : Bytes)
  deriving DecidableEq, Repr

/-- Selection finds a server, and every server hands out connections. -/
structure Attempt.Connects (up : Attempt) : Prop where
  selects : ∃ server, up.selectServer = .ok server ∧ server.errorProcessor = true
  connects : ∀ server out, ∃ c, up.connection server out = .ok c

/-- The cluster answers the attempt with a reply that decodes. -/
structure Attempt.Answers (up : Attempt) (d : Driver) (reply : Bytes) (op : Operation) : Prop where
  reaches : up.Connects
  written : up.writeWireMessage = none
  replied : up.readWireMessage = .ok reply
  decoded : decode d reply = .ok op

/-- The attempt runs into the fault: selection only fails when no server is forced on the attempt,
and checking a connection out only when none is pinned. -/
def Fault.Hits (d : Driver) (m : ClientID) (req : Request) (session : Option Ref) (w : World)
    (up : Attempt) : Fault → Prop
  | selection e =>
    w.forcedServer m req (session.map w.session) = none ∧ up.selectServer = .error e
  | checkout e =>
    (session.bind fun r => (w.session r).getPinnedConnection) = none ∧
      (∃ server, up.selectServer = .ok server ∧ server.errorProcessor = true) ∧
      ∀ server out, up.connection server out = .error e
  | write e => up.Connects ∧ up.writeWireMessage = some e
  | read e => up.Connects ∧ up.writeWireMessage = none ∧ up.readWireMessage = .error e
  | undecodable wm =>
    up.Connects ∧ up.writeWireMessage = none ∧ up.readWireMessage = .ok wm ∧
      ∃ e, decode d wm = .error e

/-- From attempt `i` and frame `f` on, the call meets the faults one after the other, and the
attempt after them is answered. -/
def Suffers (d : Driver) (m : ClientID) (req : Request) (session : Option Ref) (script : Script)
    (reply : Bytes) (op : Operation) : List Fault → Nat → Frame → Prop
  | [], i, _ => (script.attempt i).Answers d reply op
  | x :: xs, i, f =>
    x.Hits d m req session f.world (script.attempt i) ∧
      ∀ f', attempt d m req session script i f = .next f' →
        Suffers d m req session script reply op xs (i + 1) f'

/-- Sending the message a second time is let through as the first time was: it does not start,
commit or abort the transaction of a session, and if it ends the session, the caches do not leave
it a server it cannot be sent to. -/
def World.Repeatable (w : World) (m : ClientID) (req : Request) : Prop :=
  ∀ t, req.details = some t →
    t.isStartTransaction = false ∧ req.command.endsTransaction = false ∧
      (req.command = .endSessions → usable (w.cachedServer m req) = true)

/-- The faults that a call of the message recovers from. -/
def Fault.Recovers (d : Driver) (w : World) (m : ClientID) (req : Request) : Fault → Prop
  | selection _ => req.details = none
  | checkout _ => True
  | write e => isRetryableError (wrapNetworkError d e) = true ∧ w.Repeatable m req
  | read e => isRetryableError (wrapNetworkError d e) = true ∧ w.Repeatable m req
  | undecodable _ => w.Repeatable m req

/-! ## The transaction state that a message leaves -/

/-- The transaction state in which the transaction state management leaves a session. -/
def Session.stateAfter (s : Session) (t : TransactionDetails) (command : Command) :
    TransactionState :=
  if command.endsTransaction then command.outcome
  else if command = .endSessions ∧ s.state ≠ .ended ∧
      (t.isStartTransaction = true ∨ s.transactionState = .inProgress) then .aborted
  else if t.isStartTransaction then .inProgress
  else s.transactionState

theorem Session.manage_stateAfter {s s' : Session} {t : TransactionDetails} {command : Command}
    {server : Server} {conn : Conn} {now : Int} {fin : Bool}
    (h : s.manage t command server conn now = .ok (s', fin)) :
    s'.transactionState = s.stateAfter t command := by
  obtain ⟨-, -, -, rfl⟩ := Session.manage_eq_ok.mp h
  unfold Session.afterFinish Session.stateAfter Session.afterStart
  cases hends : command.endsTransaction with
  | true => simp
  | false =>
    cases hst : t.isStartTransaction with
    | true =>
      by_cases hend : command = .endSessions ∧ s.state ≠ .ended
      · simp [hend, Session.started, Session.endSession]
      · simp [Session.started, hend]
    | false =>
      by_cases hend : command = .endSessions ∧ s.state ≠ .ended
      · by_cases hprog : s.transactionState = .inProgress
        · simp [hend, hprog, Session.endSession]
        · simp [hend, hprog, Session.endSession]
      · have hend' : ¬ (command = .endSessions ∧ s.state ≠ .ended ∧
            s.transactionState = .inProgress) := fun h => hend ⟨h.1, h.2.1⟩
        simp [hend, hend']

theorem Session.stateAfter_endSession (s : Session) {t : TransactionDetails}
    (hst : t.isStartTransaction = false) (hs : s.state ≠ .ended) (now : Int) :
    (s.endSession now).stateAfter t .endSessions = s.stateAfter t .endSessions := by
  by_cases hprog : s.transactionState = .inProgress
  · simp [Session.stateAfter, Session.endSession, Command.endsTransaction, hst, hs, hprog]
  · simp [Session.stateAfter, Session.endSession, Command.endsTransaction, hst, hprog]

theorem Session.getPinnedServer_endSession (s : Session) (now : Int) :
    (s.endSession now).getPinnedServer = none := by
  by_cases hprog : s.transactionState = .inProgress
  · simp [Session.getPinnedServer, Session.endSession, hprog]
  · simp [Session.getPinnedServer, Session.endSession, hprog]

/-! ## Faults after the message is let through -/

/-- The faults that come after the transaction state management. -/
def Fault.late : Fault → Bool
  | selection _ | checkout _ => false
  | write _ | read _ | undecodable _ => true

/-- The loop goes on after the fault. -/
def Fault.retried (d : Driver) : Fault → Bool
  | write e | read e => isRetryableError (wrapNetworkError d e)
  | _ => true

section Exchange

variable {d : Driver} {m : ClientID} {req : Request} {session : Option Ref} {w : World}
  {up : Attempt} {x : Fault} {i : Nat} {server : Server}

theorem Fault.recovers_late (hlate : x.late = true) :
    x.Recovers d w m req ↔ x.retried d = true ∧ w.Repeatable m req := by
  cases x with
  | selection e => cases hlate
  | checkout e => cases hlate
  | undecodable wm => simp [Fault.Recovers, Fault.retried]
  | _ => rfl

theorem Fault.Hits.connects (hlate : x.late = true) (h : x.Hits d m req session w up) :
    up.Connects := by
  cases x with
  | selection e => cases hlate
  | checkout e => cases hlate
  | _ => exact h.1

theorem exchange_late (hlate : x.late = true) (h : x.Hits d m req session w up)
    (hep : server.errorProcessor = true) (hu : req.unacknowledged = false) (hi : i < maxRetries)
    (conn : Conn) :
    (x.retried d = true → (exchange d i server conn req up).1 = .again) ∧
      (x.retried d = false → ∃ e, (exchange d i server conn req up).1 = .fail e) := by
  unfold exchange roundTripOn
  cases x with
  | selection e => cases hlate
  | checkout e => cases hlate
  | write e =>
    obtain ⟨-, hwrite⟩ := h
    refine ⟨?_, ?_⟩
    · intro hr
      have hr' : isRetryableError (wrapNetworkError d e) = true := hr
      simp [hep, hwrite, hi, hr']
    · intro hr
      have hr' : isRetryableError (wrapNetworkError d e) = false := hr
      simp [hep, hwrite, hr']
  | read e =>
    obtain ⟨-, hwrite, hread⟩ := h
    refine ⟨?_, ?_⟩
    · intro hr
      have hr' : isRetryableError (wrapNetworkError d e) = true := hr
      simp [hep, hwrite, hread, hu, hi, hr']
    · intro hr
      have hr' : isRetryableError (wrapNetworkError d e) = false := hr
      simp [hep, hwrite, hread, hu, hr']
  | undecodable wm =>
    obtain ⟨-, hwrite, hread, e, he⟩ := h
    refine ⟨?_, ?_⟩
    · intro _
      simp [hep, hwrite, hread, hu, he, hi]
    · intro hr
      cases hr

variable {reply : Bytes} {op : Operation} {conn : Conn}

theorem exchange_answers (h : up.Answers d reply op)
    (hep : server.errorProcessor = true) (hu : req.unacknowledged = false) (conn : Conn) :
    (exchange d i server conn req up).1 = .reply reply op := by
  unfold exchange roundTripOn
  simp [hep, h.written, h.replied, hu, h.decoded]

theorem exchange_reply (h : (exchange d i server conn req up).1 = .reply reply op) :
    server.errorProcessor = true ∧ req.unacknowledged = false := by
  unfold exchange roundTripOn at h
  cases hep : server.errorProcessor with
  | false =>
    simp only [hep, Bool.false_eq_true, if_false] at h
    split at h <;> cases h
  | true =>
    refine ⟨rfl, ?_⟩
    cases hu : req.unacknowledged with
    | false => rfl
    | true =>
      simp only [hep, hu, if_true] at h
      cases hw : up.writeWireMessage with
      | none =>
        rw [hw] at h
        cases h
      | some e =>
        rw [hw] at h
        simp only at h
        split at h <;> cases h

theorem exchange_unusable (hep : server.errorProcessor = false) (d : Driver) (i : Nat)
    (conn : Conn) (req : Request) (up : Attempt) :
    (exchange d i server conn req up).1 = .again ∨
      ∃ e, (exchange d i server conn req up).1 = .fail e := by
  unfold exchange
  by_cases hi : i < maxRetries
  · simp [hep, hi]
  · simp [hep, hi]

theorem sendAndUpdate_of_again (h : (exchange d i server conn req up).1 = .again) (g : Frame) :
    ∃ f', f'.world = g.world ∧ sendAndUpdate d m req i server conn up g = .next f' := by
  refine ⟨{ g with events := g.events ++ (exchange d i server conn req up).2 }, rfl, ?_⟩
  unfold sendAndUpdate
  simp only [h]

theorem sendAndUpdate_of_fail {e : GoError}
    (h : (exchange d i server conn req up).1 = .fail e) (g : Frame) :
    ∃ f', sendAndUpdate d m req i server conn up g = .exit (.error e) f' := by
  refine ⟨{ g with events := g.events ++ (exchange d i server conn req up).2 }, ?_⟩
  unfold sendAndUpdate
  simp only [h]

theorem sendAndUpdate_of_reply
    (h : (exchange d i server conn req up).1 = .reply reply op) (g : Frame) :
    ∃ f', g.world.SameSessions f'.world ∧
      sendAndUpdate d m req i server conn up g = .exit (.ok ⟨reply, some op⟩) f' := by
  obtain ⟨ev, -, hnext | ⟨res, w', hw', hexit⟩⟩ := sendAndUpdate_cases d m req i server conn up g
  · unfold sendAndUpdate at hnext
    simp only [h] at hnext
    cases hnext
  · refine ⟨{ g with world := w', events := g.events ++ ev }, hw', hexit.trans ?_⟩
    unfold sendAndUpdate at hexit
    simp only [h, Flow.exit.injEq] at hexit
    rw [← hexit.1]

theorem exchange_of_isReply {g f' : Frame} {res : Except GoError Message}
    (hres : isReply res = true) (h : sendAndUpdate d m req i server conn up g = .exit res f') :
    ∃ reply op, (exchange d i server conn req up).1 = .reply reply op := by
  unfold sendAndUpdate at h
  cases hx : (exchange d i server conn req up).1 with
  | reply reply op => exact ⟨reply, op, rfl⟩
  | again =>
    simp only [hx] at h
    cases h
  | fail | unacknowledged =>
    simp only [hx, Flow.exit.injEq] at h
    rw [← h.1] at hres
    cases hres

end Exchange

/-! ## Frames between the attempts -/

/-- In the world `v` of a later attempt the message is treated as in the world `w` of the first. -/
structure Ready (m : ClientID) (req : Request) (session : Option Ref) (w v : World) :
    Prop where
  allows : ∀ r t, session = some r → req.details = some t →
    (v.session r).Allows t req.command
  server : usable (v.forcedServer m req (session.map v.session)) = true
  cached : v.cachedServer m req = w.cachedServer m req
  unpinned : ∀ r, session = some r → (v.session r).state = .ended →
    (v.session r).getPinnedServer = none
  state : ∀ r t, session = some r → req.details = some t →
    (v.session r).stateAfter t req.command = (w.session r).stateAfter t req.command

/-- No further attempt gets a reply: the session refuses the message, or it has ended and
there is no server for the message. -/
inductive Dead (m : ClientID) (req : Request) (r : Ref) (t : TransactionDetails) (v : World) :
    Prop where
  | refused (h : ∀ server conn now,
      ∃ e, (v.session r).manage t req.command server conn now = .error e)
  | noServer (hst : t.isStartTransaction = false) (hcommand : req.command = .endSessions)
      (hended : (v.session r).state = .ended)
      (hserver : (v.session r).getPinnedServer = none)
      (hun : usable (v.cachedServer m req) = false)

section Step

variable {d : Driver} {m : ClientID} {req : Request} {session : Option Ref} {script : Script}
  {w : World} {f g : Frame} {i : Nat} {server : Server} {conn : Conn} {r : Ref}
  {t : TransactionDetails}

/-- What a message that neither starts nor ends a transaction does to its session. -/
theorem SendsIn.session_cases (h : SendsIn d m req (some r) script i f server conn g)
    (ht : req.details = some t) (hst : t.isStartTransaction = false)
    (hends : req.command.endsTransaction = false) :
    g.world.session r = f.world.session r ∧
        (req.command = .endSessions → (f.world.session r).state = .ended) ∨
      req.command = .endSessions ∧ (f.world.session r).state ≠ .ended ∧
        ∃ now, g.world.session r = (f.world.session r).endSession now := by
  obtain ⟨fin, hmanage⟩ := h.managed r t rfl ht
  obtain ⟨-, -, -, hg⟩ := Session.manage_eq_ok.mp hmanage
  simp only [Session.afterStart, hst, Session.afterFinish, hends, Bool.false_eq_true,
    if_false] at hg
  by_cases hend : req.command = .endSessions ∧ (f.world.session r).state ≠ .ended
  · rw [if_pos hend] at hg
    exact Or.inr ⟨hend.1, hend.2, _, hg⟩
  · rw [if_neg hend] at hg
    refine Or.inl ⟨hg, ?_⟩
    intro hcommand
    by_contra hne
    exact hend ⟨hcommand, hne⟩

theorem SendsIn.cached (h : SendsIn d m req session script i f server conn g)
    (hst : ∀ t, req.details = some t → t.isStartTransaction = false) :
    g.world.cachedServer m req = f.world.cachedServer m req :=
  World.cachedServer_congr (h.groups hst) (congrFun h.clients m) req

theorem Ready.sent (h : Ready m req session w f.world) (hs : SessionOf req session)
    (hrep : w.Repeatable m req) (hsends : SendsIn d m req session script i f server conn g) :
    Ready m req session w g.world := by
  have hcached := hsends.cached fun t ht => (hrep t ht).1
  cases session with
  | none =>
    refine ⟨by simp, ?_, hcached.trans h.cached, by simp, by simp⟩
    have hserver := h.server
    simp only [World.forcedServer, Option.map_none, Option.bind_none] at hserver ⊢
    rwa [hcached]
  | some r =>
    obtain ⟨t, ht⟩ := Option.isSome_iff_exists.mp (hs.symm.trans rfl)
    obtain ⟨hst, hends, huse⟩ := hrep t ht
    have hserver := h.server
    rcases hsends.session_cases ht hst hends with ⟨hsame, -⟩ | ⟨hcommand, hne, now, hend⟩
    · refine ⟨?_, ?_, hcached.trans h.cached, ?_, ?_⟩
      · rintro r' t' ⟨⟩ ht'
        rw [hsame]
        exact h.allows r t' rfl ht'
      · simp only [World.forcedServer, Option.map_some, Option.bind_some]
        rw [hsame, hcached]
        exact hserver
      · rintro r' ⟨⟩
        rw [hsame]
        exact h.unpinned r rfl
      · rintro r' t' ⟨⟩ ht'
        rw [hsame]
        exact h.state r t' rfl ht'
    · refine ⟨?_, ?_, hcached.trans h.cached, ?_, ?_⟩
      · rintro r' t' - ht'
        obtain rfl : t = t' := Option.some.inj (ht.symm.trans ht')
        exact ⟨by simp [hst], by simp [hends]⟩
      · simp only [World.forcedServer, Option.map_some, Option.bind_some]
        rw [hend, Session.getPinnedServer_endSession, hcached, h.cached]
        exact huse hcommand
      · rintro r' ⟨⟩ -
        rw [hend, Session.getPinnedServer_endSession]
      · rintro r' t' ⟨⟩ ht'
        obtain rfl : t = t' := Option.some.inj (ht.symm.trans ht')
        rw [← h.state r t rfl ht, hend, hcommand]
        exact Session.stateAfter_endSession _ hst hne now

theorem Ready.sent_dead (h : Ready m req session w f.world) (hs : SessionOf req session)
    (hrep : ¬ w.Repeatable m req) (hsends : SendsIn d m req session script i f server conn g) :
    ∃ r t, session = some r ∧ req.details = some t ∧ Dead m req r t g.world := by
  unfold World.Repeatable at hrep
  push Not at hrep
  obtain ⟨t, ht, hrep⟩ := hrep
  obtain ⟨r, rfl⟩ : ∃ r, session = some r :=
    Option.isSome_iff_exists.mp (hs.trans (by rw [ht]; rfl))
  refine ⟨r, t, rfl, ht, ?_⟩
  by_cases hagain : t.isStartTransaction = true ∨ req.command.endsTransaction = true
  · obtain ⟨fin, hmanage⟩ := hsends.managed r t rfl ht
    exact .refused (manage_again hagain hmanage)
  · simp only [not_or, Bool.not_eq_true] at hagain
    obtain ⟨hst, hends⟩ := hagain
    obtain ⟨hcommand, hun⟩ := hrep hst hends
    have hun' : usable (f.world.cachedServer m req) = false := by
      rw [h.cached]
      simpa using hun
    have hserver := h.server
    simp only [World.forcedServer, Option.map_some, Option.bind_some] at hserver
    rcases hsends.session_cases ht hst hends with ⟨-, hended⟩ | ⟨-, hne, now, hend⟩
    · -- the session had ended before, so the cached server was the server of the first attempt
      rw [h.unpinned r rfl (hended hcommand), hun'] at hserver
      cases hserver
    · refine .noServer hst hcommand ?_ ?_ ?_
      · rw [hend]
        rfl
      · rw [hend, Session.getPinnedServer_endSession]
      · rw [hsends.cached fun t' ht' => by rwa [← Option.some.inj (ht.symm.trans ht')]]
        exact hun'

theorem Dead.step (d : Driver) (script : Script) (ht : req.details = some t) (i : Nat)
    (h : Dead m req r t f.world) :
    (attempt d m req (some r) script i f).Meets (fun f' => Dead m req r t f'.world)
      fun res _ => isReply res = false := by
  cases attempt_writing d m script (sessionOf_some ht r) i f with
  | quiet q hq _ hnext hexit =>
    cases hatt : attempt d m req (some r) script i f with
    | next f' =>
      rw [hnext f' hatt]
      exact h
    | exit res f' => exact hexit res f' hatt
  | sent server conn g hsends =>
    cases h with
    | refused hrefuse =>
      obtain ⟨fin, hmanage⟩ := hsends.managed r t rfl ht
      obtain ⟨e, he⟩ := hrefuse server conn (script.attempt i).now
      rw [he] at hmanage
      cases hmanage
    | noServer hst hcommand hended hserver hun =>
      have hends : req.command.endsTransaction = false := by
        rw [hcommand]
        rfl
      have hcached := hsends.cached fun t' ht' => by rwa [← Option.some.inj (ht.symm.trans ht')]
      have hep : server.errorProcessor = false := by
        have hchosen := hsends.chosen
        simp only [World.chooseServer_eq, World.forcedServer, Option.map_some, Option.bind_some,
          hserver] at hchosen
        cases hforced : f.world.cachedServer m req with
        | none =>
          rw [hforced] at hun
          cases hun
        | some o =>
          rw [hforced] at hun hchosen
          cases hchosen
          exact hun
      rcases exchange_unusable hep d i conn req (script.attempt i) with hx | ⟨e, hx⟩
      · obtain ⟨f', hf', hnext⟩ := sendAndUpdate_of_again (m := m) hx g
        rw [hsends.flow, hnext]
        show Dead m req r t f'.world
        rw [hf']
        rcases hsends.session_cases ht hst hends with ⟨hsame, -⟩ | ⟨-, hne, -⟩
        · exact .noServer hst hcommand (by rw [hsame]; exact hended) (by rw [hsame]; exact hserver)
            (by rw [hcached]; exact hun)
        · exact absurd hended hne
      · obtain ⟨f', hexit⟩ := sendAndUpdate_of_fail (m := m) hx g
        rw [hsends.flow, hexit]
        rfl

theorem Ready.sends (d : Driver) (h : Ready m req session w f.world) (hs : SessionOf req session)
    (hup : (script.attempt i).Connects) :
    ∃ server conn g, server.errorProcessor = true ∧
      SendsIn d m req session script i f server conn g := by
  obtain ⟨server, hep, hserver⟩ :=
    f.world.chooseServer_usable (script.attempt i) h.server hup.selects
  obtain ⟨conn, g, hsends⟩ := attempt_sends d hs hserver
    (World.checkoutConnection_ok hup.connects f.world server session) h.allows
  exact ⟨server, conn, g, hep, hsends⟩

theorem chooseServer_of_hits {w : World} {up : Attempt} {e : GoError}
    (hx : (Fault.selection e).Hits d m req session w up) :
    w.chooseServer m req session up = .error e := by
  obtain ⟨hforced, hsel⟩ := hx
  rw [World.chooseServer_eq, hforced, hsel]
  rfl

/-- An answered attempt in a ready world returns the reply, and leaves the session in the state
that the first attempt would have left it in. -/
theorem Ready.answered (d : Driver) (h : Ready m req session w f.world)
    (hs : SessionOf req session) (hu : req.unacknowledged = false) {reply : Bytes}
    {op : Operation} (hup : (script.attempt i).Answers d reply op) :
    ∃ f', attempt d m req session script i f = .exit (.ok ⟨reply, some op⟩) f' ∧
      ∀ r t, session = some r → req.details = some t →
        (f'.world.session r).transactionState = (w.session r).stateAfter t req.command := by
  obtain ⟨server, conn, g, hep, hsends⟩ := h.sends d hs hup.reaches
  obtain ⟨f', hsame, hexit⟩ := sendAndUpdate_of_reply (m := m)
    (exchange_answers (i := i) hup hep hu conn) g
  refine ⟨f', hsends.flow.trans hexit, ?_⟩
  intro r t hr ht
  obtain ⟨fin, hmanage⟩ := hsends.managed r t hr ht
  rw [hsame.session, ← h.state r t hr ht]
  exact Session.manage_stateAfter hmanage

section

variable (h : Ready m req session w f.world) (hs : SessionOf req session)
  (hu : req.unacknowledged = false) (hi : i < maxRetries)

include h hs hu hi

theorem Ready.recovers {x : Fault}
    (hx : x.Hits d m req session f.world (script.attempt i)) (hrec : x.Recovers d w m req) :
    ∃ f', attempt d m req session script i f = .next f' ∧ Ready m req session w f'.world := by
  cases hlate : x.late with
  | true =>
    obtain ⟨hretried, hrep⟩ := (Fault.recovers_late hlate).mp hrec
    obtain ⟨server, conn, g, hep, hsends⟩ := h.sends d hs (hx.connects hlate)
    obtain ⟨f', hf', hnext⟩ := sendAndUpdate_of_again (m := m)
      ((exchange_late hlate hx hep hu hi conn).1 hretried) g
    refine ⟨f', hsends.flow.trans hnext, ?_⟩
    rw [hf']
    exact h.sent hs hrep hsends
  | false =>
    refine ⟨f, ?_, h⟩
    cases x with
    | selection e =>
      have hnone : session.isNone = true := by
        have hd : req.details = none := hrec
        rw [SessionOf, hd] at hs
        simpa using hs
      rw [attempt_of_chooseServer_error (chooseServer_of_hits hx), if_pos ⟨hnone, hi⟩]
    | checkout e =>
      obtain ⟨hpin, hsel, hconn⟩ := hx
      obtain ⟨server, -, hserver⟩ := f.world.chooseServer_usable (script.attempt i) h.server hsel
      have hcheckout : f.world.checkoutConnection server session (script.attempt i) = .error e := by
        simp only [World.checkoutConnection, hpin, hconn]
      rw [attempt_of_checkout_error hserver hcheckout, if_pos hi]
    | _ => cases hlate

/-- A fault that a call does not recover from: it returns the error, or goes on in vain. -/
theorem Ready.not_recovers {x : Fault}
    (hx : x.Hits d m req session f.world (script.attempt i)) (hrec : ¬ x.Recovers d w m req) :
    (attempt d m req session script i f).Meets
      (fun f' => ∃ r t, session = some r ∧ req.details = some t ∧ Dead m req r t f'.world)
      fun res _ => isReply res = false := by
  cases hlate : x.late with
  | true =>
    rw [Fault.recovers_late hlate, not_and] at hrec
    obtain ⟨server, conn, g, hep, hsends⟩ := h.sends d hs (hx.connects hlate)
    rw [hsends.flow]
    cases hretried : x.retried d with
    | true =>
      obtain ⟨f', hf', hnext⟩ := sendAndUpdate_of_again (m := m)
        ((exchange_late hlate hx hep hu hi conn).1 hretried) g
      rw [hnext]
      show ∃ r t, session = some r ∧ req.details = some t ∧ Dead m req r t f'.world
      rw [hf']
      exact h.sent_dead hs (hrec hretried) hsends
    | false =>
      obtain ⟨e, he⟩ := (exchange_late hlate hx hep hu hi conn).2 hretried
      obtain ⟨f', hexit⟩ := sendAndUpdate_of_fail (m := m) he g
      rw [hexit]
      rfl
  | false =>
    cases x with
    | selection e =>
      have hsome : ¬ (session.isNone = true ∧ i < maxRetries) := by
        rintro ⟨hnone, -⟩
        have hd : req.details ≠ none := hrec
        cases session with
        | none => exact hd (by simpa using hs.symm)
        | some r => cases hnone
      rw [attempt_of_chooseServer_error (chooseServer_of_hits hx), if_neg hsome]
      rfl
    | checkout e => exact absurd trivial hrec
    | _ => cases hlate

end

end Step

/-! ## The loop -/

section Loop

variable {d : Driver} {m : ClientID} {req : Request} {session : Option Ref} {script : Script}
  {w : World} {reply : Bytes} {op : Operation} {dflt : Except GoError Message}

theorem forLoop_recovers (hs : SessionOf req session) (hu : req.unacknowledged = false)
    (faults : List Fault) :
    ∀ (n i : Nat) (f : Frame), i + n = maxRetries + 1 → faults.length < n →
      Ready m req session w f.world →
      Suffers d m req session script reply op faults i f →
      (∀ x ∈ faults, x.Recovers d w m req) →
      ∃ f', forLoop (attempt d m req session script) dflt n i f = (.ok ⟨reply, some op⟩, f') ∧
        ∀ r t, session = some r → req.details = some t →
          (f'.world.session r).transactionState = (w.session r).stateAfter t req.command := by
  induction faults with
  | nil =>
    intro n i f _ hlen hready hsuffers _
    obtain ⟨n, rfl⟩ : ∃ k, n = k + 1 := ⟨n - 1, by simp at hlen; omega⟩
    obtain ⟨f', hexit, hstate⟩ := hready.answered d hs hu hsuffers
    exact ⟨f', forLoop_of_exit hexit, hstate⟩
  | cons x xs ih =>
    intro n i f hn hlen hready hsuffers hrec
    obtain ⟨n, rfl⟩ : ∃ k, n = k + 1 := ⟨n - 1, by simp at hlen; omega⟩
    simp only [List.length_cons, Nat.add_lt_add_iff_right] at hlen
    have hi : i < maxRetries := by omega
    obtain ⟨hx, hrest⟩ := hsuffers
    obtain ⟨f', hnext, hready'⟩ := hready.recovers hs hu hi hx (hrec x List.mem_cons_self)
    rw [forLoop_of_next hnext]
    refine ih n (i + 1) f' (by omega) hlen hready' (hrest f' hnext) ?_
    intro y hy
    exact hrec y (List.mem_cons_of_mem x hy)

theorem forLoop_not_recovers (hs : SessionOf req session) (hu : req.unacknowledged = false)
    (hdflt : isReply dflt = false) (faults : List Fault) :
    ∀ (n i : Nat) (f : Frame), i + n = maxRetries + 1 → faults.length < n →
      Ready m req session w f.world →
      Suffers d m req session script reply op faults i f →
      (¬ ∀ x ∈ faults, x.Recovers d w m req) →
      isReply (forLoop (attempt d m req session script) dflt n i f).1 = false := by
  induction faults with
  | nil =>
    intro n i f _ _ _ _ hno
    exact absurd (by simp) hno
  | cons x xs ih =>
    intro n i f hn hlen hready hsuffers hno
    obtain ⟨n, rfl⟩ : ∃ k, n = k + 1 := ⟨n - 1, by simp at hlen; omega⟩
    simp only [List.length_cons, Nat.add_lt_add_iff_right] at hlen
    have hi : i < maxRetries := by omega
    obtain ⟨hx, hrest⟩ := hsuffers
    by_cases hrec : x.Recovers d w m req
    · obtain ⟨f', hnext, hready'⟩ := hready.recovers hs hu hi hx hrec
      rw [forLoop_of_next hnext]
      refine ih n (i + 1) f' (by omega) hlen hready' (hrest f' hnext) ?_
      intro hall
      refine hno fun y hy => ?_
      rcases List.mem_cons.mp hy with rfl | hy
      · exact hrec
      · exact hall y hy
    · have hmeets := hready.not_recovers hs hu hi hx hrec
      cases hatt : attempt d m req session script i f with
      | exit res f' =>
        rw [hatt] at hmeets
        rw [forLoop_of_exit hatt]
        exact hmeets
      | next f' =>
        rw [hatt] at hmeets
        obtain ⟨r, t, rfl, ht, hdead⟩ := hmeets
        rw [forLoop_of_next hatt]
        exact forLoop_rule (I := fun _ f => Dead m req r t f.world)
          (Q := fun res _ => isReply res = false) (fun i f hf => hf.step d script ht i) n (i + 1) f'
          hdead fun _ _ => hdflt

/-- The transaction states that a call with a reply leaves. -/
def World.statesAfter (w : World) (req : Request) (session : Option Ref) (r : Ref) :
    TransactionState :=
  match req.details with
  | none => (w.session r).transactionState
  | some t =>
    if session = some r then
      if req.command.endsTransaction then .none else (w.session r).stateAfter t req.command
    else (w.session r).transactionState

theorem retryLoop_statesAfter (hs : SessionOf req session) (hw : PinInv w)
    (hreply : isReply (attempts d m req session script w).1 = true)
    (hstate : ∀ r t, session = some r → req.details = some t →
      ((attempts d m req session script w).2.world.session r).transactionState =
        (w.session r).stateAfter t req.command) (r : Ref) :
    ((retryLoop d m req session script w).world.session r).transactionState =
      w.statesAfter req session r := by
  have hsound : Frame.Sound w req session (attempts d m req session script w).2 :=
    attempts_sound hs hw
  have hother : session ≠ some r →
      ((retryLoop d m req session script w).world.session r).transactionState =
        (w.session r).transactionState := by
    intro hr
    rw [retryLoop_world, (hsound.runDeferred_others hw hr).1]
  unfold World.statesAfter
  cases ht : req.details with
  | none =>
    refine hother ?_
    rintro rfl
    rw [SessionOf, ht] at hs
    cases hs
  | some t =>
    by_cases hr : session = some r
    · subst hr
      cases hends : req.command.endsTransaction with
      | true =>
        simp only [if_true]
        exact retryLoop_reply_resets hs hw hends hreply
      | false =>
        simp only [if_true, Bool.false_eq_true, if_false]
        rw [retryLoop_world, ← hstate r t rfl ht]
        cases hsound.tidy with
        | closing cs own deferred unfinished healthy =>
          have hmanager := (runDeferred_closing (some r) cs
            (attempts d m req (some r) script w).2.world).1
          rw [deferred]
          simp only [World.session, hmanager]
        | finishing r' c hr' own ends deferred outcome =>
          rw [hends] at ends
          cases ends
    · simp only [hr, if_false]
      exact hother hr

end Loop

/-! ## The call that is answered at once -/

/-- What an iteration returns, if it does. -/
def Flow.returned {ρ : Type} : Flow Frame ρ → Option ρ
  | .next _ => none
  | .exit res _ => some res

/-- The first attempt of the call gets a reply. -/
def World.AnsweredAtOnce (w : World) (d : Driver) (m : ClientID) (req : Request)
    (script : Script) : Prop :=
  (w.clients m).closed = false ∧
    (Flow.returned (attempt d m req (w.enter req script.now).1 script 0
      ⟨(w.enter req script.now).2, [], []⟩)).any isReply = true

section Enter

variable {d : Driver} {m : ClientID} {req : Request} {session : Option Ref} {script : Script}
  {w : World}

theorem cachedServer_enter (w : World) (m : ClientID) (req : Request) (now : Int) :
    (w.enter req now).2.cachedServer m req = w.cachedServer m req := by
  unfold World.enter
  cases req.details with
  | none => rfl
  | some t => exact cachedServer_openSession w m req t now

theorem Fault.recovers_enter {x : Fault} (now : Int) :
    x.Recovers d (w.enter req now).2 m req ↔ x.Recovers d w m req := by
  have hrep : (w.enter req now).2.Repeatable m req ↔ w.Repeatable m req := by
    simp only [World.Repeatable, cachedServer_enter]
  cases x with
  | selection e => rfl
  | checkout e => rfl
  | write | read => simp only [Fault.Recovers, hrep]
  | undecodable wm => exact hrep

/-- A call that finds its session ended got it from the distributed cache, with nothing pinned. -/
theorem unpinned_enter (w : World) (req : Request) (now : Int) (r : Ref)
    (hr : (w.enter req now).1 = some r) (hended : ((w.enter req now).2.session r).state = .ended) :
    ((w.enter req now).2.session r).getPinnedServer = none := by
  have hnone : ∀ s : Session, s.pinnedServer = none → s.getPinnedServer = none := by
    intro s hs
    simp [Session.getPinnedServer, hs]
  unfold World.enter at hr hended ⊢
  cases ht : req.details with
  | none =>
    rw [ht] at hr
    cases hr
  | some t =>
    simp only [ht, Option.some.injEq] at hr hended ⊢
    subst hr
    rcases w.openSession_cases t now with ⟨r, -, hne, -, heq⟩ | ⟨s, -, hs, heq⟩
    · rw [heq] at hended
      simp only [SessionManager.setSession, World.session_mk, Function.update_self,
        Session.touch] at hended
      exact absurd hended hne
    · rw [heq]
      refine hnone _ ?_
      simp only [SessionManager.insertSession, World.session_mk, Function.update_self]
      rcases hs with ⟨-, hd⟩ | ⟨-, rfl⟩
      · obtain ⟨dc, -, hdc⟩ := Option.bind_eq_some_iff.mp hd
        obtain ⟨sd, -, rfl⟩ := Option.map_eq_some_iff.mp hdc
        rfl
      · rfl

/-- A first attempt that gets a reply: the world was ready for it, and it leaves the session in
the state that follows. -/
theorem ready_of_reply (hs : SessionOf req session)
    (hunpinned : ∀ r, session = some r → (w.session r).state = .ended →
      (w.session r).getPinnedServer = none) {res : Except GoError Message} {f : Frame}
    (hres : isReply res = true)
    (h : attempt d m req session script 0 ⟨w, [], []⟩ = .exit res f) :
    req.unacknowledged = false ∧ Ready m req session w w ∧
      ∀ r t, session = some r → req.details = some t →
        (f.world.session r).transactionState = (w.session r).stateAfter t req.command := by
  cases attempt_writing d m script hs 0 ⟨w, [], []⟩ with
  | quiet q hq _ hnext hexit =>
    rw [hexit res f h] at hres
    cases hres
  | sent server conn g hsends =>
    rw [hsends.flow] at h
    obtain ⟨reply, op, hreply⟩ := exchange_of_isReply hres h
    obtain ⟨hep, hu⟩ := exchange_reply hreply
    obtain ⟨f', hsame, hexit⟩ := sendAndUpdate_of_reply (m := m) hreply g
    rw [hexit] at h
    cases h
    refine ⟨hu, ⟨?_, ?_, rfl, hunpinned, fun _ _ _ _ => rfl⟩, ?_⟩
    · intro r t hr ht
      obtain ⟨fin, hmanage⟩ := hsends.managed r t hr ht
      obtain ⟨hstart, hend, -⟩ := Session.manage_eq_ok.mp hmanage
      exact ⟨hstart, hend⟩
    · have hchosen := hsends.chosen
      rw [World.chooseServer_eq] at hchosen
      cases hforced : w.forcedServer m req (session.map w.session) with
      | none => rfl
      | some o =>
        simp only [hforced] at hchosen
        cases hchosen
        exact hep
    · intro r t hr ht
      obtain ⟨fin, hmanage⟩ := hsends.managed r t hr ht
      rw [hsame.session]
      exact Session.manage_stateAfter hmanage

end Enter

/-! ## Exactly the faults that are not noticed -/

/-- **A call whose first attempts fail and whose next attempt is answered returns the reply, with
every session in the transaction state of the call that is answered at once, exactly when** it
recovers from each of the faults: no selection error for a message of a session, no write or read
error whose text the lower-cased match misses, and no fault after the transaction state management
when the message starts, commits or aborts a transaction. -/
theorem transparent_iff {d : Driver} {w : World} (hw : Reachable d w) (m : ClientID) (wm : Bytes)
    (op : Operation) (free script : Script) (hnow : script.now = free.now)
    (hfree : w.AnsweredAtOnce d m (.of d wm op) free) (faults : List Fault)
    (hk : faults.length ≤ maxRetries) {reply : Bytes} {answer : Operation}
    (hfaults : Suffers d m (.of d wm op) (w.enter (.of d wm op) script.now).1 script reply answer
      faults 0 ⟨(w.enter (.of d wm op) script.now).2, [], []⟩) :
    ((roundTrip d m (.of d wm op) script w).result = .ok ⟨reply, some answer⟩ ∧
      ∀ r, ((roundTrip d m (.of d wm op) script w).world.session r).transactionState =
        ((roundTrip d m (.of d wm op) free w).world.session r).transactionState) ↔
      ∀ x ∈ faults, x.Recovers d w m (.of d wm op) := by
  generalize Request.of d wm op = req at *
  obtain ⟨hopen, hreply⟩ := hfree
  rw [roundTrip_open hopen, roundTrip_open hopen, hnow]
  rw [hnow] at hfaults
  have hs := sessionOf_enter w req free.now
  have hpins := enter_pinInv hw.pinInv req free.now
  have hunpinned := unpinned_enter w req free.now
  have hrecovers : (∀ x ∈ faults, x.Recovers d w m req) ↔
      ∀ x ∈ faults, x.Recovers d (w.enter req free.now).2 m req := by
    simp only [Fault.recovers_enter]
  rw [hrecovers]
  generalize (w.enter req free.now).1 = session at *
  generalize (w.enter req free.now).2 = w₁ at *
  cases hfirst : attempt d m req session free 0 ⟨w₁, [], []⟩ with
  | next f =>
    rw [hfirst] at hreply
    cases hreply
  | exit res f =>
    rw [hfirst] at hreply
    obtain ⟨hu, hready, hstate⟩ := ready_of_reply hs hunpinned hreply hfirst
    have hlen : faults.length < maxRetries + 1 := by omega
    constructor
    · rintro ⟨hresult, -⟩
      by_contra hno
      have hdead : isReply (attempts d m req session script w₁).1 = false :=
        forLoop_not_recovers hs hu rfl faults _ _ _ (by omega) hlen hready hfaults hno
      rw [show (attempts d m req session script w₁).1 = _ from hresult] at hdead
      cases hdead
    · intro hrec
      obtain ⟨f', hattempts, hstate'⟩ : ∃ f',
          attempts d m req session script w₁ = (.ok ⟨reply, some answer⟩, f') ∧ _ :=
        forLoop_recovers hs hu faults _ _ _ (Nat.zero_add _) hlen hready hfaults hrec
      have hattempts' : attempts d m req session free w₁ = (res, f) := attempts_of_exit hfirst
      refine ⟨congrArg Prod.fst hattempts, ?_⟩
      intro r
      rw [retryLoop_statesAfter hs hpins (by rw [hattempts]; rfl) (by rw [hattempts]; exact hstate'),
        retryLoop_statesAfter hs hpins (by rw [hattempts']; exact hreply)
          (by rw [hattempts']; exact hstate)]

/-- A cluster that breaks the connection on the first attempt, while the message is written or
before the reply, and answers the next ones with an empty document. -/
def flakyScript (write : Option GoError) : Script :=
  { now := 0
    attempt := fun i =>
      if i = 0 then .answering ⟨0, true⟩ write (.error connectionReset)
      else .answering ⟨0, true⟩ none (.ok (Bson.opMsgBytes [])) }

theorem flakyScript_answers (write : Option GoError) (i : Nat) :
    ((flakyScript write).attempt (i + 1)).Answers plainDriver (Bson.opMsgBytes [])
      (Bson.opMsg []) := by
  refine ⟨⟨⟨⟨0, true⟩, rfl, rfl⟩, fun _ _ => ⟨_, rfl⟩⟩, rfl, rfl, ?_⟩
  decide +kernel

/-- An ordinary insert whose first write is cut off is not noticed. -/
theorem transparent_iff_lossyInsert :
    (roundTrip plainDriver 0 (lossyInsert.request plainDriver) (flakyScript (some connectionReset))
      newWorld).result = .ok ⟨Bson.opMsgBytes [], some (Bson.opMsg [])⟩ := by
  refine ((transparent_iff (reachable_newWorld plainDriver) 0 [] lossyInsert.op
    healthyScript (flakyScript (some connectionReset)) rfl ⟨rfl, by decide +kernel⟩
    [.write connectionReset] (by decide)
    ⟨⟨⟨⟨⟨0, true⟩, rfl, rfl⟩, fun _ _ => ⟨_, rfl⟩⟩, rfl⟩,
      fun _ _ => flakyScript_answers _ 0⟩).mpr ?_).1
  intro x hx
  cases List.mem_singleton.mp hx
  refine ⟨isRetryableError_connectionReset _, ?_⟩
  intro t ht
  have hnone : (Request.of plainDriver [] lossyInsert.op).details = none := by decide +kernel
  rw [hnone] at ht
  cases ht

/-- The commit of a transaction, on a cluster that breaks the connection before the first reply. -/
def retriedCommit : Call := { brokenCommit with script := flakyScript none }

/-- Answered at once, the commit returns the reply; retried after the broken connection, it is
refused by the session that the first attempt has committed. -/
theorem retriedCommit_noticed :
    isReply (({ brokenCommit with script := healthyScript } : Call).run plainDriver
        startedWorld).result = true ∧
      isRetryableError (wrapNetworkError plainDriver connectionReset) = true ∧
      (retriedCommit.run plainDriver startedWorld).result =
        .error (errorf "no transaction in progress to commit") := by
  decide +kernel

end MongoBouncer
