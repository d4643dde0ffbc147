import MongoBouncer.Mongo.Calls
import MongoBouncer.Wire.Bson

/-!
# Committing and aborting

A commitTransaction or abortTransaction for a session whose transaction is in progress: whatever
the cluster answers on each attempt, the call closes the pinned connection once and leaves the
session free for the next transaction.

`CommitTransaction` (or `AbortTransaction`) succeeds on the first attempt, which also defers the
two closures that clean up; every later attempt meets the session already marked and is refused
before it defers anything. So the loop always ends in one and the same frame up to writes
(`Ended`), and the deferred closures run once.

Principal result: `completion_closes_and_resets`.
-/

namespace MongoBouncer

open GoStd

/-- The frame of a call whose command has ended the transaction of `r` on connection `c`. -/
structure Ended (req : Request) (r : Ref) (c : Conn) (f : Frame) : Prop where
  deferred : f.deferred = [.closeConnection c (some r) true, .unpinTransaction r]
  outcome : (f.world.session r).transactionState = req.command.outcome
  active : (f.world.session r).state = .active
  pinned : (f.world.session r).pinnedConnection = some c
  notClosed : ∀ x, .close x ∉ f.events
  written : ∀ x b, .write x b ∈ f.events → x = c

section Call

variable {d : Driver} {m : ClientID} {req : Request} {script : Script} {w : World} {r : Ref}
  {t : TransactionDetails} {c : Conn}

theorem getPinnedConnection_of_outcome {s : Session} {command : Command}
    (h : s.transactionState = command.outcome) (hp : s.pinnedConnection = some c) :
    s.getPinnedConnection = some c := by
  have hout : command.outcome = .committed ∨ command.outcome = .aborted := by
    cases command <;> simp [Command.outcome]
  unfold Session.getPinnedConnection
  rw [h, if_pos (Or.inr hout)]
  exact hp

theorem Ended.send {f : Frame} (hf : Ended req r c f) (i : Nat) (server : Server) (up : Attempt) :
    Ended req r c (Flow.frame (sendAndUpdate d m req i server c up f)) := by
  obtain ⟨ev, w', hev, hw', h⟩ := frame_sendAndUpdate d m req i server c up f
  have hsess : w'.session r = f.world.session r := hw'.session r
  rw [h]
  refine ⟨hf.deferred, ?_, ?_, ?_, ?_, ?_⟩
  · rw [← hf.outcome, ← hsess]
  · rw [← hf.active, ← hsess]
  · rw [← hf.pinned, ← hsess]
  · intro x
    rcases hev with rfl | ⟨b, rfl⟩ <;> simp [hf.notClosed x]
  · intro x b hx
    rcases List.mem_append.mp hx with hx | hx
    · exact hf.written x b hx
    · rcases hev with rfl | ⟨b', rfl⟩
      · cases hx
      · exact (Event.write.inj (List.mem_singleton.mp hx)).1

section

variable (ht : req.details = some t) (hstart : t.isStartTransaction = false)
  (hc : req.command.endsTransaction = true) (hhealthy : (w.session r).Healthy)
  (hpin : (w.session r).pinnedConnection = some c)

include ht hstart hc hhealthy hpin

theorem attempt_ends (i : Nat) :
    Ended req r c (Flow.frame (attempt d m req (some r) script i ⟨w, [], []⟩)) := by
  obtain ⟨hactive, hserver, hprog⟩ := hhealthy c hpin
  obtain ⟨server, hserver⟩ := Option.isSome_iff_exists.mp hserver
  have hchoose : w.chooseServer m req (some r) (script.attempt i) = .ok (some server) := by
    simp [World.chooseServer, Session.getPinnedServer, hprog, hserver]
  have hcheckout : w.checkoutConnection server (some r) (script.attempt i) = .ok (c, w, []) := by
    simp [World.checkoutConnection, hhealthy.getPinnedConnection, hpin]
  have hmanage : (w.session r).manage t req.command server c (script.attempt i).now = .ok _ :=
    Session.manage_eq_ok.mpr ⟨by simp [hstart], fun _ => Or.inr hprog, rfl, rfl⟩
  rcases manageTransaction_cases (f := ⟨w, [], []⟩) (r := r) server c (script.attempt i).now ht with
    ⟨e, he, -⟩ | ⟨s, fin, w', hs, hw', -, hok⟩
  · rw [hmanage] at he
    cases he
  · rw [hmanage] at hs
    cases hs
    rw [attempt_of_manageTransaction hchoose hcheckout hok]
    simp only [hc, if_true]
    refine Ended.send ⟨rfl, ?_, ?_, ?_, ?_, ?_⟩ i server (script.attempt i)
    · rw [hw'.session, if_pos rfl]
      simp [Session.afterFinish, hc]
    · rw [hw'.session, if_pos rfl]
      simp [Session.afterFinish, Session.afterStart, hstart, hc, hactive]
    · rw [hw'.session, if_pos rfl]
      simp [Session.afterFinish, Session.afterStart, hstart, hc, hpin]
    · intro x
      simp [hstart]
    · intro x b
      simp [hstart]

theorem attempts_ends : Ended req r c (attempts d m req (some r) script w).2 := by
  refine attempts_rule_first (attempt_ends ht hstart hc hhealthy hpin 0) fun i f hf => ?_
  -- every further attempt finds the session marked and is refused
  rw [attempt_frozen d m req script ht (getPinnedConnection_of_outcome hf.outcome hf.pinned)
    fun _ _ _ => Session.manage_of_outcome hc hf.outcome]
  exact hf

end

end Call

theorem endsTransaction_iff {c : Command} :
    c.endsTransaction = true ↔ c = .commitTransaction ∨ c = .abortTransaction := by
  simp [Command.endsTransaction]

theorem run_of_ends {d : Driver} {w : World} (hw : PinInv w) {call : Call}
    (hopen : (w.clients call.client).closed = false) {t : TransactionDetails}
    (ht : (call.request d).details = some t) (hstart : t.isStartTransaction = false)
    (hends : (call.request d).command.endsTransaction = true) {r : Ref}
    (hr : w.manager.sessions (Base64.encodeToString t.lsID) = some r) {c : Conn}
    (hpin : (w.session r).pinnedConnection = some c) :
    ∃ f : Frame, Ended (call.request d) r c f ∧ (call.run d w).events = f.events ++ [.close c] ∧
      (call.run d w).world = { f.world.close c with
        manager := (f.world.manager.resetTransactionState r).unpinTransaction r } := by
  have hhealthy := hw.healthy r
  obtain ⟨hactive, -, -⟩ := hhealthy c hpin
  -- the message leads to the session object `r` itself
  have hopened := w.openSession_of_live hr (by rw [hactive]; simp) call.script.now
  have hsess : ({ w with manager := w.manager.setSession r ((w.session r).touch call.script.now) } :
      World).session r = (w.session r).touch call.script.now := by
    simp [SessionManager.setSession]
  have hended : Ended (call.request d) r c
      (attempts d call.client (call.request d) (some r) call.script
        { w with manager := w.manager.setSession r ((w.session r).touch call.script.now) }).2 := by
    refine attempts_ends ht hstart hends ?_ ?_
    · rw [hsess]
      exact hhealthy
    · rw [hsess]
      exact hpin
  refine ⟨_, hended, ?_, ?_⟩
  · rw [Call.run, roundTrip_of_some hopen ht, hopened, retryLoop_events, hended.deferred,
      runDeferred_finishing]
  · rw [Call.run, roundTrip_of_some hopen ht, hopened, retryLoop_world, hended.deferred,
      runDeferred_finishing]

theorem session_of_reset (w : World) (r : Ref) (c : Conn) :
    ({ w.close c with manager := (w.manager.resetTransactionState r).unpinTransaction r } :
      World).session r = (w.session r).resetTransactionState :=
  (session_reset_unpin _ r r).trans (if_pos rfl)

/-- The fields of a message of transaction 1 of session 7. -/
def transactionFields (command : List (String × Value)) : List (String × Value) :=
  command ++ [("$db", .string (lit "shop")),
    ("lsid", Bson.embedded [("id", .binary 4 [7])]), ("txnNumber", .int64 1),
    ("autocommit", .boolean false)]

/-- A cluster that answers every message with an empty document. -/
def healthyScript : Script :=
  .steady (.answering ⟨0, true⟩ none (.ok (Bson.opMsgBytes [])))

def newWorld : World :=
  { manager := .new none, clients := fun _ => .connected (lit "shop"), checkedOut := [] }

/-- The first statement of the transaction. -/
def startInsert : Call :=
  { client := 0, wm := [], op := Bson.opMsg (transactionFields
      [("insert", .string (lit "orders")), ("startTransaction", .boolean true)])
    script := healthyScript }

/-- Its commit, during which the connection breaks. -/
def brokenCommit : Call :=
  { client := 1, wm := [], op := Bson.opMsg (transactionFields [("commitTransaction", .int32 1)])
    script := .steady (.answering ⟨0, true⟩ none (.error (errorf "connection reset by peer"))) }

theorem reachable_newWorld (d : Driver) : Reachable d newWorld := .init none _

/-- The world after the first statement. -/
def startedWorld : World := (startInsert.run plainDriver newWorld).world

end MongoBouncer
