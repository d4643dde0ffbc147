import Mathlib.Logic.Relation
import MongoBouncer.FifoLines
import MongoBouncer.Mongo.Completion

/-!
# Interleaved calls

RoundTrip cut at the steps between which other goroutines can run: the session lookup, the choice
of the server, the checkout, each change of the transaction state, the write, the read, the cache
update and each deferred closure. The session manager, the caches and the connections are shared;
no lock is held from the write to the read.

A connection is a FIFO line. The server answers each acknowledged message that is written, once and
in order, with a reply to its request; a read takes the oldest reply on the line.

* `Thread.step`  : one step of a call, with what the cluster answers to it;
* `solo_roundTrip` : a call that is not interrupted is a RoundTrip;
* `System.step`  : one step of one of the calls;
* `System.Exclusive` : the step writes no message while a reply is outstanding on its connection.

Principal result: `replies_are_own`.
-/

namespace MongoBouncer

open GoStd Function

/-! ## The steps of a call -/

/-- Where a call stands; `i` counts the attempts. -/
inductive Pc where
  | opening
  | creating (t : TransactionDetails)
  | choosing (i : Nat)
  | checkingOut (i : Nat) (server : Server)
  | starting (i : Nat) (server : Server) (conn : Conn)
  | finishing (i : Nat) (server : Server) (conn : Conn) (r : Ref)
  | writing (i : Nat) (server : Server) (conn : Conn)
  | reading (i : Nat) (server : Server) (conn : Conn)
  | updating (i : Nat) (server : Server) (wm : Bytes) (op : Operation)
  | returning (res : Except GoError Message)
  | returned (res : Except GoError Message)
  deriving DecidableEq

/-- After an error of attempt `i`: the next attempt when the error is to be retried and there is
one, else the error is returned. -/
def Pc.afterError (i : Nat) (retry : Bool) (e : GoError) : Pc :=
  if i < maxRetries ∧ retry then .choosing (i + 1) else .returning (.error e)

/-- A RoundTrip that is under way. -/
structure Thread where
  client : ClientID
  req : Request
  session : Option Ref
  deferred : List Deferred
  pc : Pc

namespace Thread

def new (client : ClientID) (req : Request) : Thread :=
  { client, req, session := none, deferred := [], pc := .opening }

def goto (th : Thread) (pc : Pc) : Thread := { th with pc }

def step (d : Driver) (w : World) (th : Thread) (up : Attempt) : World × Thread :=
  match th.pc with
  | .opening =>
    if (w.clients th.client).closed then
      (w, th.goto (.returning (.error (errorf "connection closed"))))
    else
      match th.req.details with
      | none => (w, th.goto (.choosing 0))
      | some t =>
        match w.manager.getSession t.lsID up.now with
        | (some r, sm) => ({ w with manager := sm }, { th with session := some r, pc := .choosing 0 })
        | (none, sm) => ({ w with manager := sm }, th.goto (.creating t))
  | .creating t =>
    let s := Session.fresh t.lsID (lit "unknown") up.now
    let (r, sm) := w.manager.insertSession s.id s
    ({ w with manager := sm }, { th with session := some r, pc := .choosing 0 })
  | .choosing i =>
    if i ≤ maxRetries then
      match w.chooseServer th.client th.req th.session up with
      | .error e => (w, th.goto (.afterError i th.session.isNone e))
      | .ok none =>
        (w, th.goto (.returning
          (.error ⟨lit "no server available for database " ++ noServerDatabase th.req⟩)))
      | .ok (some server) => (w, th.goto (.checkingOut i server))
    else (w, th.goto (.returning (.error (errorf "max retries exceeded"))))
  | .checkingOut i server =>
    match w.checkoutConnection server th.session up with
    | .error e => (w, th.goto (.afterError i true e))
    | .ok (conn, w, _) => (w, th.goto (.starting i server conn))
  | .starting i server conn =>
    match th.session, th.req.details with
    | some r, some t =>
      match w.startTransaction r t server conn up.now with
      | .error e => (w, th.goto (.returning (.error e)))
      | .ok (w, _) => (w, th.goto (.finishing i server conn r))
    | _, _ =>
      (w, { th with
        deferred := .closeConnection conn th.session false :: th.deferred
        pc := .writing i server conn })
  | .finishing i server conn r =>
    match w.finishTransaction r th.req.command up.now with
    | .error e => (w, th.goto (.returning (.error e)))
    | .ok (w, fin) =>
      (w, { th with
        deferred := .closeConnection conn th.session fin ::
          if fin then .unpinTransaction r :: th.deferred else th.deferred
        pc := .writing i server conn })
  | .writing i server conn =>
    if server.errorProcessor then
      match up.writeWireMessage with
      | some e =>
        let e := wrapNetworkError d e
        (w, th.goto (.afterError i (isRetryableError e) e))
      | none =>
        if th.req.unacknowledged then (w, th.goto (.returning (.ok { wm := [], op := none })))
        else (w, th.goto (.reading i server conn))
    else
      (w, th.goto (.afterError i true (errorf "server ErrorProcessor type assertion failed")))
  | .reading i server _ =>
    match up.readWireMessage with
    | .error e =>
      let e := wrapNetworkError d e
      (w, th.goto (.afterError i (isRetryableError e) e))
    | .ok wm =>
      match decode d wm with
      | .error e => (w, th.goto (.afterError i true ⟨e.text⟩))
      | .ok op => (w, th.goto (.updating i server wm op))
  | .updating _ server wm op =>
    let w := w.updateCursors th.client th.req server (op.cursorID d) up.now
    (w.updateTransactions th.client th.req server up.now,
      th.goto (.returning (.ok { wm, op := some op })))
  | .returning res =>
    match th.deferred with
    | [] => (w, th.goto (.returned res))
    | x :: xs => ((x.run w).1, { th with deferred := xs })
  | .returned _ => (w, th)

end Thread

/-! ## A call that is not interrupted -/

/-- What the script answers to the step a call is at. -/
def Script.at (script : Script) : Pc → Attempt
  | .opening | .creating _ => { script.attempt 0 with now := script.now }
  | .choosing i | .checkingOut i _ | .starting i _ _ | .finishing i _ _ _ | .writing i _ _
  | .reading i _ _ | .updating i _ _ _ => script.attempt i
  | .returning _ | .returned _ => script.attempt 0

/-- The call takes any number of steps, with no other call in between. -/
def Solo (d : Driver) (script : Script) : World × Thread → World × Thread → Prop :=
  Relation.ReflTransGen fun a b => b = a.2.step d a.1 (script.at a.2.pc)

section Solo

variable {d : Driver} {script : Script} {a b c : World × Thread}

theorem Solo.refl (a : World × Thread) : Solo d script a a := Relation.ReflTransGen.refl

theorem Solo.step (c : World × Thread) (hc : a.2.step d a.1 (script.at a.2.pc) = c)
    (h : Solo d script c b) : Solo d script a b :=
  Relation.ReflTransGen.head hc.symm h

theorem Solo.trans (h : Solo d script a b) (h' : Solo d script b c) : Solo d script a c :=
  Relation.ReflTransGen.trans h h'

variable {m : ClientID} {req : Request} {session : Option Ref}

/-- The thread of a call in its retry loop. -/
def looping (m : ClientID) (req : Request) (session : Option Ref) (f : Frame) (pc : Pc) :
    World × Thread :=
  (f.world, { client := m, req, session, deferred := f.deferred, pc })

/-- Where a call stands after attempt `i`. -/
def Flow.pc (i : Nat) : Flow Frame (Except GoError Message) → Pc
  | .next _ => .choosing (i + 1)
  | .exit res _ => .returning res

/-- Where a call stands after its message was sent in attempt `i`. -/
def Exchange.pc (i : Nat) (server : Server) : Exchange → Pc
  | .again => .choosing (i + 1)
  | .fail e => .returning (.error e)
  | .unacknowledged => .returning (.ok { wm := [], op := none })
  | .reply wm op => .updating i server wm op

theorem Exchange.pc_ite (i : Nat) (server : Server) (retry : Bool) (e : GoError) :
    Exchange.pc i server (if i < maxRetries ∧ retry = true then .again else .fail e) =
      .afterError i retry e := by
  unfold Pc.afterError
  split <;> rfl

theorem solo_exchange {i : Nat} (server : Server) (conn : Conn) (f : Frame) :
    Solo d script (looping m req session f (.writing i server conn))
      (looping m req session f
        ((exchange d i server conn req (script.attempt i)).1.pc i server)) := by
  by_cases hep : server.errorProcessor = true
  · cases hw : (script.attempt i).writeWireMessage with
    | some e =>
      refine Solo.step _ ?_ (Solo.refl _)
      simp only [looping, Thread.step, Script.at, Thread.goto, exchange, roundTripOn, hep, hw,
        if_true, Exchange.pc_ite]
    | none =>
      by_cases hu : req.unacknowledged = true
      · refine Solo.step _ ?_ (Solo.refl _)
        simp only [looping, Thread.step, Script.at, Thread.goto, exchange, roundTripOn, hep, hw, hu,
          if_true, Exchange.pc]
      · refine Solo.step (looping m req session f (.reading i server conn)) ?_
          (Solo.step _ ?_ (Solo.refl _))
        · simp only [looping, Thread.step, Script.at, Thread.goto, hep, hw, hu, if_true,
            Bool.false_eq_true, if_false]
        · simp only [looping, Thread.step, Script.at, Thread.goto, exchange, roundTripOn, hep, hw,
            hu, if_true, Bool.false_eq_true, if_false]
          cases hr : (script.attempt i).readWireMessage with
          | error e => simp only [Exchange.pc_ite]
          | ok wm =>
            cases hdec : decode d wm with
            | error e =>
              simp only [hdec, ← Exchange.pc_ite i server, and_true]
            | ok op => simp only [hdec, Exchange.pc]
  · refine Solo.step _ ?_ (Solo.refl _)
    simp only [looping, Thread.step, Script.at, Thread.goto, exchange, hep, Bool.false_eq_true,
      if_false, ← Exchange.pc_ite i server, and_true]

theorem solo_send {i : Nat} (server : Server) (conn : Conn) (f : Frame) :
    Solo d script (looping m req session f (.writing i server conn))
      (looping m req session
        (Flow.frame (sendAndUpdate d m req i server conn (script.attempt i) f))
        (Flow.pc i (sendAndUpdate d m req i server conn (script.attempt i) f))) := by
  refine (solo_exchange server conn f).trans ?_
  rcases hx : exchange d i server conn req (script.attempt i) with ⟨x, ev⟩
  simp only [sendAndUpdate, hx]
  cases x with
  | reply wm op => exact Solo.step _ rfl (Solo.refl _)
  | _ => exact Solo.refl _

theorem solo_manage (hs : SessionOf req session) {i : Nat} {f : Frame} {server : Server}
    {conn : Conn} {w : World} {ev : List Event}
    (hserver : f.world.chooseServer m req session (script.attempt i) = .ok (some server))
    (hconn : f.world.checkoutConnection server session (script.attempt i) = .ok (conn, w, ev)) :
    Solo d script
      (looping m req session { f with world := w, events := f.events ++ ev }
        (.starting i server conn))
      (looping m req session (Flow.frame (attempt d m req session script i f))
        (Flow.pc i (attempt d m req session script i f))) := by
  cases session with
  | none =>
    rw [attempt_of_manageTransaction hserver hconn rfl]
    refine Solo.step _ ?_ (solo_send server conn _)
    rfl
  | some r =>
    obtain ⟨t, ht⟩ := Option.isSome_iff_exists.mp (hs.symm.trans rfl)
    cases hstart : w.startTransaction r t server conn (script.attempt i).now with
    | error e =>
      have hm := attempt_of_manageTransaction_error (d := d) hserver hconn
        (by simp only [manageTransaction, ht, hstart]; rfl)
      rw [hm]
      refine Solo.step _ ?_ (Solo.refl _)
      simp only [looping, Thread.step, Script.at, Thread.goto, ht, hstart, Flow.frame, Flow.pc]
    | ok p =>
      obtain ⟨w₁, ev₁⟩ := p
      refine Solo.step (looping m req (some r) { f with world := w₁ } (.finishing i server conn r))
        (by simp only [looping, Thread.step, Script.at, Thread.goto, ht, hstart]) ?_
      cases hfinish : w₁.finishTransaction r req.command (script.attempt i).now with
      | error e =>
        have hm := attempt_of_manageTransaction_error (d := d) hserver hconn
          (by simp only [manageTransaction, ht, hstart, hfinish]; rfl)
        rw [hm]
        refine Solo.step _ ?_ (Solo.refl _)
        simp only [looping, Thread.step, Script.at, Thread.goto, hfinish, Flow.frame, Flow.pc]
      | ok q =>
        obtain ⟨w₂, fin⟩ := q
        have hm := attempt_of_manageTransaction (d := d) hserver hconn
          (by simp only [manageTransaction, ht, hstart, hfinish]; rfl)
        rw [hm]
        refine Solo.step _ ?_ (solo_send server conn _)
        simp only [looping, Thread.step, Script.at, hfinish]

theorem looping_afterError (m : ClientID) (req : Request) (session : Option Ref) (f : Frame)
    (i : Nat) (retry : Bool) (e : GoError) {flow : Flow Frame (Except GoError Message)}
    (hflow : flow = if i < maxRetries ∧ retry = true then .next f else .exit (.error e) f) :
    looping m req session (Flow.frame flow) (Flow.pc i flow) =
      looping m req session f (.afterError i retry e) := by
  rw [hflow]
  unfold Pc.afterError
  split <;> rfl

/-- **The steps of an attempt, taken in one go, are the attempt.** -/
theorem solo_attempt (hs : SessionOf req session) {i : Nat} (hi : i ≤ maxRetries) (f : Frame) :
    Solo d script (looping m req session f (.choosing i))
      (looping m req session (Flow.frame (attempt d m req session script i f))
        (Flow.pc i (attempt d m req session script i f))) := by
  cases hserver : f.world.chooseServer m req session (script.attempt i) with
  | error e =>
    have hflow := attempt_of_chooseServer_error (d := d) hserver
    simp only [and_comm (a := session.isNone = true)] at hflow
    rw [looping_afterError m req session f i session.isNone e hflow]
    refine Solo.step _ ?_ (Solo.refl _)
    simp only [looping, Thread.step, Script.at, Thread.goto, if_pos hi, hserver]
  | ok o =>
    cases o with
    | none =>
      rw [attempt_of_nil_server hserver]
      refine Solo.step _ ?_ (Solo.refl _)
      simp only [looping, Thread.step, Script.at, Thread.goto, if_pos hi, hserver, Flow.frame,
        Flow.pc]
    | some server =>
      refine Solo.step (looping m req session f (.checkingOut i server))
        (by simp only [looping, Thread.step, Script.at, Thread.goto, if_pos hi, hserver]) ?_
      cases hconn : f.world.checkoutConnection server session (script.attempt i) with
      | error e =>
        have hflow := attempt_of_checkout_error (d := d) hserver hconn
        rw [looping_afterError m req session f i true e (by simpa using hflow)]
        refine Solo.step _ ?_ (Solo.refl _)
        simp only [looping, Thread.step, Script.at, Thread.goto, hconn]
      | ok p =>
        refine Solo.step _ ?_ (solo_manage hs hserver hconn)
        simp only [looping, Thread.step, Script.at, Thread.goto, hconn]

theorem solo_forLoop (hs : SessionOf req session) :
    ∀ (n i : Nat) (f : Frame), i + n = maxRetries + 1 →
      Solo d script (looping m req session f (.choosing i))
        (looping m req session
          (forLoop (attempt d m req session script) (.error (errorf "max retries exceeded")) n i f).2
          (.returning (forLoop (attempt d m req session script)
            (.error (errorf "max retries exceeded")) n i f).1)) := by
  intro n
  induction n with
  | zero =>
    intro i f hi
    have hover : ¬ i ≤ maxRetries := by omega
    refine Solo.step _ ?_ (Solo.refl _)
    simp only [looping, Thread.step, Thread.goto, if_neg hover, forLoop]
  | succ n ih =>
    intro i f hi
    have hattempt : Solo d script (looping m req session f (.choosing i)) _ :=
      solo_attempt hs (by omega) f
    cases h : attempt d m req session script i f with
    | next f' =>
      rw [forLoop_of_next h]
      rw [h] at hattempt
      exact hattempt.trans (ih (i + 1) f' (by omega))
    | exit res f' =>
      rw [forLoop_of_exit h]
      rw [h] at hattempt
      exact hattempt

theorem solo_deferred (res : Except GoError Message) (ds : List Deferred) :
    ∀ w : World, Solo d script
      (w, { client := m, req, session, deferred := ds, pc := .returning res })
      ((runDeferred ds w).1,
        { client := m, req, session, deferred := [], pc := .returned res }) := by
  induction ds with
  | nil =>
    intro w
    exact Solo.step _ rfl (Solo.refl _)
  | cons x ds ih =>
    intro w
    exact Solo.step _ rfl (ih (x.run w).1)

theorem solo_retryLoop (hs : SessionOf req session) (w : World) :
    Solo d script (w, { client := m, req, session, deferred := [], pc := .choosing 0 })
      ((retryLoop d m req session script w).world,
        { client := m, req, session, deferred := [],
          pc := .returned (retryLoop d m req session script w).result }) :=
  (solo_forLoop hs (maxRetries + 1) 0 ⟨w, [], []⟩ (Nat.zero_add _)).trans (solo_deferred _ _ _)

/-- **A call that is not interrupted is a RoundTrip**: it comes to return what RoundTrip returns,
in the world that RoundTrip leaves. -/
theorem solo_roundTrip (d : Driver) (script : Script) (m : ClientID) (req : Request) (w : World) :
    ∃ session, Solo d script (w, .new m req) ((roundTrip d m req script w).world,
      { client := m, req, session, deferred := [],
        pc := .returned (roundTrip d m req script w).result }) := by
  cases hc : (w.clients m).closed with
  | true =>
    rw [roundTrip_closed hc]
    refine ⟨none, Solo.step _ ?_ (solo_deferred _ [] w)⟩
    simp only [Thread.step, Thread.new, Thread.goto, hc, if_true]
  | false =>
    cases ht : req.details with
    | none =>
      rw [roundTrip_of_none hc ht]
      refine ⟨none, Solo.step _ ?_ (solo_retryLoop (sessionOf_none ht) w)⟩
      simp only [Thread.step, Thread.new, Thread.goto, hc, ht, Bool.false_eq_true, if_false]
    | some t =>
      rw [roundTrip_of_some hc ht]
      unfold World.openSession
      rcases hget : w.manager.getSession t.lsID script.now with ⟨o, sm⟩
      cases o with
      | some r =>
        refine ⟨some r, Solo.step _ ?_ (solo_retryLoop (sessionOf_some ht r) _)⟩
        simp only [Thread.step, Thread.new, Script.at, hc, ht, hget, Bool.false_eq_true, if_false]
      | none =>
        refine ⟨some sm.next, Solo.step ({ w with manager := sm }, (Thread.new m req).goto (.creating t))
          ?_ (Solo.step _ rfl (solo_retryLoop (sessionOf_some ht _) _))⟩
        simp only [Thread.step, Thread.new, Thread.goto, Script.at, hc, ht, hget,
          Bool.false_eq_true, if_false]

end Solo

/-! ## The system -/

/-- The requestID of a message. -/
def requestID (d : Driver) (wm : Bytes) : Option Int32 := (d.readHeader wm).map (·.1.requestID)

/-- The responseTo of a reply. -/
def responseTo (d : Driver) (wm : Bytes) : Option Int32 := (d.readHeader wm).map (·.1.responseTo)

/-- The reply is the one to the request. -/
def RepliesTo (d : Driver) (reply request : Bytes) : Prop :=
  responseTo d reply = requestID d request

instance (d : Driver) (reply request : Bytes) : Decidable (RepliesTo d reply request) :=
  inferInstanceAs (Decidable (_ = _))

/-- The calls with the world they share, and the replies on the way on each connection, oldest
first. -/
structure System where
  world : World
  threads : Nat → Thread
  wire : Conn → List Bytes

/-- A step of one of the calls: what the cluster answers, and the server's reply in case the step
writes the message. -/
structure Turn where
  call : Nat
  up : Attempt
  reply : Bytes

namespace System

/-- Calls that have not begun, in a world with no reply on the way. -/
def initial (w : World) (client : Nat → ClientID) (req : Nat → Request) : System :=
  { world := w, threads := fun k => .new (client k) (req k), wire := fun _ => [] }

/-- The call whose turn it is writes its message with success, and waits for the reply. -/
def sends (s : System) (turn : Turn) : Option Conn :=
  match (s.threads turn.call).pc with
  | .writing _ server conn =>
    if server.errorProcessor ∧ turn.up.writeWireMessage = none ∧
        (s.threads turn.call).req.unacknowledged = false then some conn
    else none
  | _ => none

/-- The replies on the way after the turn. A turn is not possible where the read would return
something else than the oldest reply, and where the server would not reply to the message. -/
def wireAfter (d : Driver) (s : System) (turn : Turn) : Option (Conn → List Bytes) :=
  match s.sends turn with
  | some conn =>
    if RepliesTo d turn.reply (s.threads turn.call).req.wm then
      some (update s.wire conn (s.wire conn ++ [turn.reply]))
    else none
  | none =>
    match (s.threads turn.call).pc, turn.up.readWireMessage with
    | .reading _ _ conn, .ok wm =>
      match s.wire conn with
      | [] => none
      | oldest :: rest =>
        if wm = oldest then some (update s.wire conn rest) else none
    | _, _ => some s.wire

def step (d : Driver) (s : System) (turn : Turn) : Option System :=
  (s.wireAfter d turn).map fun wire =>
    let (w, th) := (s.threads turn.call).step d s.world turn.up
    { world := w, threads := update s.threads turn.call th, wire }

def run (d : Driver) (s : System) (turns : List Turn) : Option System :=
  turns.foldlM (fun s turn => s.step d turn) s

/-- The turn writes no message while a reply is on the way on its connection. -/
def Exclusive (s : System) (turn : Turn) : Prop :=
  ∀ conn ∈ s.sends turn, s.wire conn = []

instance (s : System) (turn : Turn) : Decidable (s.Exclusive turn) :=
  inferInstanceAs (Decidable (∀ conn ∈ s.sends turn, s.wire conn = []))

end System

/-- The systems that calls lead to, turn after turn, in any order, as long as no message is written
while a reply is on the way on its connection. -/
inductive ExclusiveRun (d : Driver) (s₀ : System) : System → Prop where
  | start : ExclusiveRun d s₀ s₀
  | turn {s s' : System} (h : ExclusiveRun d s₀ s) (turn : Turn) (hturn : s.Exclusive turn)
      (hstep : s.step d turn = some s') : ExclusiveRun d s₀ s'

/-! ## What a step does to the replies -/

/-- The connection on which a call waits for its reply. -/
def Pc.waitsOn : Pc → Option Conn
  | .reading _ _ conn => some conn
  | _ => none

/-- The reply in what a call returns. -/
def replyOf : Except GoError Message → Option Bytes
  | .ok { wm, op := some _ } => some wm
  | _ => none

/-- The reply that a call has got and is to return. -/
def Pc.reply : Pc → Option Bytes
  | .updating _ _ wm _ => some wm
  | .returning res => replyOf res
  | .returned res => replyOf res
  | _ => none

/-- The call neither waits for a reply nor has one. -/
def Pc.Idle (pc : Pc) : Prop := pc.waitsOn = none ∧ pc.reply = none

theorem Pc.idle_afterError (i : Nat) (retry : Bool) (e : GoError) :
    (Pc.afterError i retry e).Idle := by
  unfold Pc.afterError
  split
  · exact ⟨rfl, rfl⟩
  · exact ⟨rfl, rfl⟩

/-- What one step of a call does to its reply: it sends the message and waits, or takes a reply, or
neither waits nor gets a reply. -/
inductive Stepped (th : Thread) (up : Attempt) (th' : Thread) : Prop where
  | sent (i : Nat) (server : Server) (conn : Conn) (hpc : th.pc = .writing i server conn)
      (hsends : server.errorProcessor = true ∧ up.writeWireMessage = none ∧
        th.req.unacknowledged = false)
      (h : th'.pc = .reading i server conn)
  | took (i : Nat) (server : Server) (conn : Conn) (wm : Bytes)
      (hpc : th.pc = .reading i server conn) (hread : up.readWireMessage = .ok wm)
      (hwait : th'.pc.waitsOn = none) (hreply : ∀ b, th'.pc.reply = some b → b = wm)
  | other
      (hwrite : ∀ i server conn, th.pc = .writing i server conn →
        ¬ (server.errorProcessor = true ∧ up.writeWireMessage = none ∧
          th.req.unacknowledged = false))
      (hread : ∀ i server conn wm, th.pc = .reading i server conn → up.readWireMessage ≠ .ok wm)
      (hwait : th'.pc.waitsOn = none)
      (hreply : ∀ b, th'.pc.reply = some b → th.pc.reply = some b)

theorem Thread.step_req (d : Driver) (w : World) (th : Thread) (up : Attempt) :
    (th.step d w up).2.req = th.req := by
  unfold Thread.step
  repeat' split
  all_goals rfl

/-- A step that neither writes nor reads: the call does not come to wait, and has no reply that it
did not have before. -/
theorem Thread.step_other (d : Driver) (w : World) (th : Thread) (up : Attempt)
    (hwrite : ∀ i server conn, th.pc ≠ .writing i server conn)
    (hread : ∀ i server conn, th.pc ≠ .reading i server conn) :
    (th.step d w up).2.pc.waitsOn = none ∧
      ((th.step d w up).2.pc.reply = none ∨ (th.step d w up).2.pc.reply = th.pc.reply) := by
  have hidle : ∀ {pc : Pc}, pc.Idle → pc.waitsOn = none ∧ (pc.reply = none ∨ pc.reply = th.pc.reply) :=
    fun h => ⟨h.1, Or.inl h.2⟩
  cases hpc : th.pc with
  | writing i server conn => exact absurd hpc (hwrite i server conn)
  | reading i server conn => exact absurd hpc (hread i server conn)
  | updating i server wm op =>
    simp only [Thread.step, hpc]
    exact ⟨rfl, Or.inr rfl⟩
  | returning res =>
    simp only [Thread.step, hpc]
    split
    · exact ⟨rfl, Or.inr rfl⟩
    · exact ⟨rfl, Or.inr rfl⟩
  | returned res =>
    simp only [Thread.step, hpc]
    exact ⟨rfl, Or.inr trivial⟩
  | _ =>
    rw [← hpc]
    refine hidle ?_
    simp only [Thread.step, hpc]
    repeat' split
    all_goals first
      | exact ⟨rfl, rfl⟩
      | exact Pc.idle_afterError _ _ _

theorem Thread.stepped (d : Driver) (w : World) (th : Thread) (up : Attempt) :
    Stepped th up (th.step d w up).2 := by
  cases hpc : th.pc with
  | writing i server conn =>
    by_cases hsends : server.errorProcessor = true ∧ up.writeWireMessage = none ∧
        th.req.unacknowledged = false
    · refine .sent i server conn hpc hsends ?_
      simp [Thread.step, hpc, hsends, Thread.goto]
    · have hidle : (th.step d w up).2.pc.Idle := by
        simp only [Thread.step, hpc]
        split
        · split
          · exact Pc.idle_afterError _ _ _
          · split
            · exact ⟨rfl, rfl⟩
            · rename_i hep _ hw hu
              exact absurd ⟨hep, hw, by simpa using hu⟩ hsends
        · exact Pc.idle_afterError _ _ _
      refine .other ?_ ?_ hidle.1 ?_
      · intro i' server' conn' h
        rw [hpc] at h
        cases h
        exact hsends
      · intro i' server' conn' wm h
        rw [hpc] at h
        cases h
      · intro b hb
        rw [hidle.2] at hb
        cases hb
  | reading i server conn =>
    cases hread : up.readWireMessage with
    | error e =>
      have hidle : (th.step d w up).2.pc.Idle := by
        simp only [Thread.step, hpc, hread]
        exact Pc.idle_afterError _ _ _
      refine .other ?_ (by simp [hread]) hidle.1 ?_
      · intro i' server' conn' h
        rw [hpc] at h
        cases h
      · intro b hb
        rw [hidle.2] at hb
        cases hb
    | ok wm =>
      refine .took i server conn wm hpc hread ?_ ?_
      · simp only [Thread.step, hpc, hread]
        split
        · exact (Pc.idle_afterError _ _ _).1
        · rfl
      · intro b hb
        simp only [Thread.step, hpc, hread] at hb
        split at hb
        · rw [Thread.goto, (Pc.idle_afterError _ _ _).2] at hb
          cases hb
        · exact (Option.some.inj hb).symm
  | _ =>
    obtain ⟨hwait, hreply⟩ := Thread.step_other d w th up (by simp [hpc]) (by simp [hpc])
    refine .other (by simp [hpc]) (by simp [hpc]) hwait ?_
    intro b hb
    rcases hreply with h | h
    · rw [h] at hb
      cases hb
    · rwa [h] at hb

/-! ## Runs in which every call gets its own reply -/

namespace System

/-- The connections as lines on which the calls wait. -/
def lines (s : System) : Lines Nat Conn Bytes :=
  { queue := s.wire, waiting := fun k => (s.threads k).pc.waitsOn }

theorem step_eq {d : Driver} {s s' : System} {turn : Turn} (h : s.step d turn = some s') :
    ∃ wire th w, s.wireAfter d turn = some wire ∧
      th = ((s.threads turn.call).step d s.world turn.up).2 ∧
      s' = { world := w, threads := update s.threads turn.call th, wire } := by
  obtain ⟨wire, hwire, rfl⟩ := Option.map_eq_some_iff.mp h
  exact ⟨wire, _, _, hwire, rfl, rfl⟩

/-- The invariant of the runs. -/
structure Sound (d : Driver) (req : Nat → Request) (s : System) : Prop where
  requests : ∀ k, (s.threads k).req = req k
  orderly : Lines.Orderly (fun k reply => RepliesTo d reply (req k).wm) s.lines
  own : ∀ k reply, (s.threads k).pc.reply = some reply → RepliesTo d reply (req k).wm

theorem sound_initial (d : Driver) (w : World) (client : Nat → ClientID) (req : Nat → Request) :
    Sound d req (initial w client req) := by
  refine ⟨fun _ => rfl, Lines.orderly_of_idle fun _ => rfl, ?_⟩
  intro k reply h
  cases h

theorem Sound.step {d : Driver} {req : Nat → Request} {s s' : System} (h : Sound d req s)
    {turn : Turn} (hturn : s.Exclusive turn) (hstep : s.step d turn = some s') :
    Sound d req s' := by
  obtain ⟨wire, th, w, hwire, hth, rfl⟩ := step_eq hstep
  have hreq : th.req = req turn.call := by
    rw [hth, Thread.step_req, h.requests]
  have hrequests : ∀ k, (update s.threads turn.call th k).req = req k := by
    intro k
    by_cases hk : k = turn.call
    · subst hk
      simpa using hreq
    · simpa [hk] using h.requests k
  have hlines : ∀ o, th.pc.waitsOn = o →
      (fun k => (update s.threads turn.call th k).pc.waitsOn) =
        update s.lines.waiting turn.call o := by
    rintro o rfl
    funext k
    by_cases hk : k = turn.call
    · subst hk
      simp
    · simp [hk, lines]
  -- the other calls keep their replies
  have hown : (∀ reply, th.pc.reply = some reply → RepliesTo d reply (req turn.call).wm) →
      ∀ k reply, (update s.threads turn.call th k).pc.reply = some reply →
        RepliesTo d reply (req k).wm := by
    intro hth k reply hk
    by_cases hkc : k = turn.call
    · subst hkc
      exact hth reply (by simpa using hk)
    · exact h.own k reply (by simpa [hkc] using hk)
  have hstepped := Thread.stepped d s.world (s.threads turn.call) turn.up
  rw [← hth] at hstepped
  cases hstepped with
  | sent i server conn hpc hsends hpc' =>
    have hs : s.sends turn = some conn := by simp [sends, hpc, hsends]
    simp only [wireAfter, hs] at hwire
    split at hwire
    · rename_i hreply
      cases hwire
      rw [h.requests] at hreply
      refine ⟨hrequests, ?_, hown ?_⟩
      · unfold lines
        rw [hlines (some conn) (by rw [hpc']; rfl)]
        exact h.orderly.step (.ask turn.call conn _ hreply (hturn conn hs))
      · intro reply hr
        rw [hpc'] at hr
        cases hr
    · cases hwire
  | took i server conn wm hpc hread hwait hreply =>
    have hs : s.sends turn = none := by simp [sends, hpc]
    have hwaiting : s.lines.waiting turn.call = some conn := by
      simp only [lines, hpc]
      rfl
    simp only [wireAfter, hs, hpc, hread] at hwire
    split at hwire
    · cases hwire
    · rename_i oldest rest hqueue
      split at hwire
      · rename_i hwm
        cases hwire
        subst hwm
        refine ⟨hrequests, ?_, hown ?_⟩
        · unfold lines
          rw [hlines none hwait]
          exact h.orderly.step (.take turn.call conn _ rest hwaiting hqueue)
        · intro reply hr
          obtain rfl := hreply reply hr
          exact h.orderly.takes_own hwaiting hqueue
      · cases hwire
  | other hwrite hread hwait hreply =>
    have hs : s.sends turn = none := by
      unfold sends
      split
      · rename_i i server conn hpc
        rw [if_neg (hwrite i server conn hpc)]
      · rfl
    have hwire' : wire = s.wire := by
      simp only [wireAfter, hs] at hwire
      exact (Option.some.inj hwire).symm
    subst hwire'
    refine ⟨hrequests, ?_, hown ?_⟩
    · unfold lines
      rw [hlines none hwait]
      exact h.orderly.step (.leave turn.call)
    · intro reply hr
      exact h.own turn.call reply (hreply reply hr)

end System

theorem ExclusiveRun.sound {d : Driver} {w : World} {client : Nat → ClientID}
    {req : Nat → Request} {s : System} (h : ExclusiveRun d (.initial w client req) s) :
    System.Sound d req s := by
  induction h with
  | start => exact System.sound_initial d w client req
  | turn _ turn hturn hstep ih => exact ih.step hturn hstep

/-- **In every run in which no message is written on a connection while a reply is on the way on
it, each call that returns a reply returns the one to its own request**, however the calls are
interleaved and whichever connections they share. -/
theorem replies_are_own {d : Driver} {w : World} {client : Nat → ClientID} {req : Nat → Request}
    {s : System} (hrun : ExclusiveRun d (.initial w client req) s) {k : Nat} {wm : Bytes}
    {op : Operation} (hk : (s.threads k).pc = .returned (.ok { wm, op := some op })) :
    responseTo d wm = requestID d (req k).wm := by
  refine hrun.sound.own k wm ?_
  rw [hk]
  rfl

/-- Turns that are checked one by one. -/
def System.runExclusive (d : Driver) (s : System) (turns : List Turn) : Option System :=
  turns.foldlM (fun s turn => if s.Exclusive turn then s.step d turn else none) s

theorem System.checked_rule {d : Driver} {P : System → Prop} {c : System → Turn → Prop}
    [∀ s turn, Decidable (c s turn)]
    (hstep : ∀ {s s' : System} (turn : Turn), P s → c s turn → s.step d turn = some s' → P s')
    {s s' : System} (turns : List Turn) (h₀ : P s)
    (h : turns.foldlM (fun s turn => if c s turn then s.step d turn else none) s = some s') :
    P s' := by
  induction turns generalizing s with
  | nil =>
    cases h
    exact h₀
  | cons turn turns ih =>
    simp only [List.foldlM_cons, Option.bind_eq_bind, Option.bind_eq_some_iff] at h
    obtain ⟨s₁, hs₁, hrest⟩ := h
    split at hs₁
    · rename_i hturn
      exact ih (hstep turn h₀ hturn hs₁) hrest
    · cases hs₁

theorem ExclusiveRun.of_turns {d : Driver} {s₀ s s' : System} (turns : List Turn)
    (h₀ : ExclusiveRun d s₀ s) (h : s.runExclusive d turns = some s') : ExclusiveRun d s₀ s' :=
  System.checked_rule (fun turn h hturn hstep => h.turn turn hturn hstep) turns h₀ h

/-! ## Two statements of one transaction -/

/-- The bytes of an `OP_MSG` with a request id and a responseTo. -/
def sharedMessage (requestID responseTo : Nat) (fields : List (String × Value)) : Bytes :=
  let body := Bson.writeNat 4 0 ++ 0 :: Bson.document fields
  Bson.writeNat 4 (body.length + 16) ++ Bson.writeNat 4 requestID ++ Bson.writeNat 4 responseTo ++
    Bson.writeNat 4 2013 ++ body

/-- Find number `k` in the transaction of session 7. -/
def sharedFind (k : Nat) : Request :=
  .of plainDriver (sharedMessage (k + 1) 0 (transactionFields [("find", .string (lit "orders"))]))
    (Bson.opMsg (transactionFields [("find", .string (lit "orders"))]))

/-- The reply to find number `k`. -/
def sharedReply (k : Nat) : Bytes := sharedMessage 9 (k + 1) []

/-- What a reply is decoded to. -/
def sharedAnswer : Operation :=
  .msg { reqID := 9, flags := 0, sections := [.single (Bson.document [])], checksum := 0 }

/-- The finds, after the transaction was started. -/
def sharedFinds : System := .initial startedWorld (fun _ => 0) sharedFind

/-- A turn of find `k`, which reads the reply to find `j` if it reads. -/
def sharedTurn (k j : Nat) : Turn :=
  { call := k, up := .answering ⟨0, true⟩ none (.ok (sharedReply j)), reply := sharedReply k }

/-- The first find is written, the second one gets as far as that, and then they read in turn. -/
def findTurns : List Turn :=
  List.replicate 6 (sharedTurn 0 0) ++ List.replicate 4 (sharedTurn 1 1) ++
    List.replicate 4 (sharedTurn 0 0) ++ List.replicate 6 (sharedTurn 1 1)

/-- The system after both finds have run to their ends. -/
def bothFound : System := (sharedFinds.runExclusive plainDriver findTurns).getD sharedFinds

theorem exclusiveRun_bothFound : ExclusiveRun plainDriver sharedFinds bothFound := by
  refine ExclusiveRun.of_turns findTurns .start ?_
  have hsome : (sharedFinds.runExclusive plainDriver findTurns).isSome = true := by decide +kernel
  obtain ⟨s, hs⟩ := Option.isSome_iff_exists.mp hsome
  rw [bothFound, hs]
  rfl

/-- Each find returns the reply to its request. -/
theorem replies_are_own_bothFound :
    responseTo plainDriver (sharedReply 0) = requestID plainDriver (sharedFind 0).wm ∧
      responseTo plainDriver (sharedReply 1) = requestID plainDriver (sharedFind 1).wm := by
  have hfirst : (bothFound.threads 0).pc =
      .returned (.ok { wm := sharedReply 0, op := some sharedAnswer }) := by decide +kernel
  have hsecond : (bothFound.threads 1).pc =
      .returned (.ok { wm := sharedReply 1, op := some sharedAnswer }) := by decide +kernel
  exact ⟨replies_are_own exclusiveRun_bothFound hfirst,
    replies_are_own exclusiveRun_bothFound hsecond⟩

/-- Both finds are written on the pinned connection before the second one reads: it returns the
reply to the first. -/
theorem secondFind_returns_first_reply :
    (startedWorld.session 0).pinnedConnection = some 1 ∧
      (sharedFinds.run plainDriver
          (List.replicate 6 (sharedTurn 0 0) ++ List.replicate 10 (sharedTurn 1 0))).map
        (fun s => (s.threads 1).pc) =
          some (.returned (.ok { wm := sharedReply 0, op := some sharedAnswer })) ∧
      responseTo plainDriver (sharedReply 0) ≠ requestID plainDriver (sharedFind 1).wm := by
  decide +kernel

end MongoBouncer
