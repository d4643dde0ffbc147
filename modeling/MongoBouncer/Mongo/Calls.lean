import MongoBouncer.Mongo.Frames

/-!
# Calls and reachable worlds

A `Call` is a RoundTrip of one message on one client with what the cluster answers. `Reachable`
is the set of worlds that calls lead to, one at a time, while other pods change the distributed
cache and clients are opened, closed or swept in between.

Principal results: `openSession_cases` (the session a call works on), `roundTrip_open` (a call on
an open client is a retry loop) and `Reachable.pinInv` (the pins are in order in every
reachable world).
-/

namespace MongoBouncer

open GoStd

/-! ## The session of a call -/

theorem SessionManager.id_distributedSession {sm : SessionManager} {k : GoString} {s : Session}
    (h : sm.distributedSession k = some s) : s.id = k := by
  obtain ⟨dc, -, hdc⟩ := Option.bind_eq_some_iff.mp h
  obtain ⟨sd, hsd, rfl⟩ := Option.map_eq_some_iff.mp hdc
  exact dc.keyed k sd hsd

namespace World

/-- The session of an lsid that a call would find: in the map, else in the distributed cache. -/
def storedSession (w : World) (lsID : Bytes) : Option Session :=
  match w.manager.sessions (Base64.encodeToString lsID) with
  | some r =>
    if (w.session r).state ≠ .ended then some (w.session r)
    else w.manager.distributedSession (Base64.encodeToString lsID)
  | none => w.manager.distributedSession (Base64.encodeToString lsID)

/-- The map has no live session for the lsid. -/
def Unmapped (w : World) (lsID : Bytes) : Prop :=
  ∀ r, w.manager.sessions (Base64.encodeToString lsID) = some r → (w.session r).state = .ended

theorem Unmapped.getSession {w : World} {lsID : Bytes} (h : w.Unmapped lsID) (now : Int) :
    w.manager.getSession lsID now = w.manager.fetchSession (Base64.encodeToString lsID) ∧
      w.storedSession lsID = w.manager.distributedSession (Base64.encodeToString lsID) := by
  cases hm : w.manager.sessions (Base64.encodeToString lsID) with
  | none => simp [SessionManager.getSession, storedSession, hm]
  | some r =>
    have he : (w.session r).state = .ended := h r hm
    have he' : (w.manager.objects r).state = .ended := he
    simp [SessionManager.getSession, storedSession, hm, he, he']

/-- Which session object the transaction fields lead to: the one in the map, or a new one with
what the distributed cache knows or with nothing. -/
theorem openSession_cases (w : World) (t : TransactionDetails) (now : Int) :
    (∃ r, w.manager.sessions (Base64.encodeToString t.lsID) = some r ∧
      (w.session r).state ≠ .ended ∧ w.storedSession t.lsID = some (w.session r) ∧
      w.openSession t now =
        (r, { w with manager := w.manager.setSession r ((w.session r).touch now) })) ∨
    ∃ s, w.Unmapped t.lsID ∧
      (w.storedSession t.lsID = some s ∧
          w.manager.distributedSession (Base64.encodeToString t.lsID) = some s ∨
        w.storedSession t.lsID = none ∧ s = Session.fresh t.lsID (lit "unknown") now) ∧
      w.openSession t now = (w.manager.next,
        { w with manager := (w.manager.insertSession (Base64.encodeToString t.lsID) s).2 }) := by
  by_cases hlive : w.Unmapped t.lsID
  · right
    obtain ⟨hget, hstored⟩ := hlive.getSession now
    unfold SessionManager.fetchSession at hget
    unfold openSession
    cases hd : w.manager.distributedSession (Base64.encodeToString t.lsID) with
    | some s =>
      rw [hd] at hget hstored
      exact ⟨s, hlive, Or.inl ⟨hstored, rfl⟩, by simp only [hget]⟩
    | none =>
      rw [hd] at hget hstored
      exact ⟨_, hlive, Or.inr ⟨hstored, rfl⟩, by simp only [hget]; rfl⟩
  · left
    unfold Unmapped at hlive
    push Not at hlive
    obtain ⟨r, hr, he⟩ := hlive
    have he' : (w.manager.objects r).state ≠ .ended := he
    refine ⟨r, hr, he, by simp [storedSession, hr, he], ?_⟩
    simp only [openSession, SessionManager.getSession, hr, if_pos he']
    rfl

theorem openSession_of_live (w : World) {t : TransactionDetails} {r : Ref}
    (hr : w.manager.sessions (Base64.encodeToString t.lsID) = some r)
    (hlive : (w.session r).state ≠ .ended) (now : Int) : w.openSession t now =
      (r, { w with manager := w.manager.setSession r ((w.session r).touch now) }) := by
  rcases w.openSession_cases t now with ⟨r', hr', -, -, h⟩ | ⟨s, hun, -, -⟩
  · rw [hr] at hr'
    cases hr'
    exact h
  · exact absurd (hun r hr) hlive

/-- The session object a call works on, up to its time stamps. -/
def sessionFor (w : World) (lsID : Bytes) : Session :=
  (w.storedSession lsID).getD (Session.fresh lsID (lit "unknown") 0)

/-- Opening a session leaves the other ones, the clients and the connections alone. -/
structure Opened (w w' : World) (r : Ref) : Prop where
  others : ∀ r', r' ≠ r → w'.session r' = w.session r'
  clients : w'.clients = w.clients
  checkedOut : w'.checkedOut = w.checkedOut
  distributed : w'.manager.distributedCache = w.manager.distributedCache
  pinned : ∀ c, (w'.session r).pinnedConnection = some c →
    (w.session r).pinnedConnection = some c ∧ ∃ now, w'.session r = (w.session r).touch now

theorem openSession_opened (w : World) (t : TransactionDetails) (now : Int) :
    w.Opened (w.openSession t now).2 (w.openSession t now).1 := by
  rcases w.openSession_cases t now with ⟨r, -, -, -, h⟩ | ⟨s, -, hs, h⟩
  · rw [h]
    refine ⟨?_, rfl, rfl, rfl, ?_⟩
    · intro r' hr'
      simp [SessionManager.setSession, hr', session]
    · intro c hc
      have hsess : (w.manager.setSession r ((w.session r).touch now)).objects r =
          (w.session r).touch now := by simp [SessionManager.setSession]
      simp only [session_mk, hsess] at hc ⊢
      exact ⟨hc, now, rfl⟩
  · rw [h]
    refine ⟨?_, rfl, rfl, rfl, ?_⟩
    · intro r' hr'
      simp [SessionManager.insertSession, hr', session]
    · intro c hc
      have hnone : s.pinnedConnection = none := by
        rcases hs with ⟨-, hd⟩ | ⟨-, rfl⟩
        · obtain ⟨dc, -, hdc⟩ := Option.bind_eq_some_iff.mp hd
          obtain ⟨sd, -, rfl⟩ := Option.map_eq_some_iff.mp hdc
          rfl
        · rfl
      simp [SessionManager.insertSession, hnone] at hc

theorem openSession_sessionFor (w : World) (t : TransactionDetails) (now : Int) :
    ∃ created touched, (w.openSession t now).2.session (w.openSession t now).1 =
      { w.sessionFor t.lsID with createdAt := created, lastActivity := touched } := by
  rcases w.openSession_cases t now with ⟨r, -, -, hst, h⟩ | ⟨s, -, hs, h⟩
  · rw [h]
    refine ⟨(w.session r).createdAt, now, ?_⟩
    simp [SessionManager.setSession, sessionFor, hst, Session.touch]
  · rw [h]
    refine ⟨s.createdAt, s.lastActivity, ?_⟩
    rcases hs with ⟨hst, -⟩ | ⟨hst, rfl⟩
    · simp [SessionManager.insertSession, sessionFor, hst]
    · simp [SessionManager.insertSession, sessionFor, hst, Session.fresh]

theorem Opened.pinInv {w w' : World} {r : Ref} (h : w.Opened w' r) (hw : PinInv w) : PinInv w' := by
  have hold : ∀ r' c, (w'.session r').pinnedConnection = some c →
      (w.session r').pinnedConnection = some c := by
    intro r' c hc
    by_cases hr : r' = r
    · subst hr
      exact (h.pinned c hc).1
    · rwa [h.others r' hr] at hc
  refine ⟨?_, ?_, ?_⟩
  · intro r' c hc
    by_cases hr : r' = r
    · subst hr
      obtain ⟨hp, now, hs⟩ := h.pinned c hc
      rw [hs]
      exact hw.healthy r' c hp
    · rw [h.others r' hr] at hc ⊢
      exact hw.healthy r' c hc
  · intro r' c hc
    rw [h.checkedOut]
    exact hw.checkedOut r' c (hold r' c hc)
  · intro r₁ r₂ c h₁ h₂
    exact hw.disjoint r₁ r₂ c (hold r₁ c h₁) (hold r₂ c h₂)

end World

/-! ## Calls -/

/-- A RoundTrip: the client, the message and what the cluster answers. -/
structure Call where
  client : ClientID
  wm : Bytes
  op : Operation
  script : Script

def Call.request (d : Driver) (c : Call) : Request := .of d c.wm c.op

/-- A decoded reply. -/
def isReply : Except GoError Message → Bool
  | .ok { op := some _, .. } => true
  | _ => false

def Call.run (d : Driver) (c : Call) (w : World) : CallResult :=
  roundTrip d c.client (c.request d) c.script w

/-- A connection that is not checked out. -/
def freshConn (out : List Conn) : Conn := out.foldr max 0 + 1

theorem freshConn_not_mem (out : List Conn) : freshConn out ∉ out := by
  have hle : ∀ c ∈ out, c ≤ out.foldr max 0 := by
    induction out with
    | nil => simp
    | cons a out ih =>
      intro c hc
      rcases List.mem_cons.mp hc with rfl | hc
      · exact Nat.le_max_left _ _
      · exact (ih c hc).trans (Nat.le_max_right _ _)
  intro h
  exact absurd (hle _ h) (Nat.not_succ_le_self _)

/-- An attempt in which selection and checkout succeed. -/
def Attempt.answering (server : Server) (write : Option GoError) (read : Except GoError Bytes) :
    Attempt :=
  { now := 0
    selectServer := .ok server
    connection := fun _ out => .ok ⟨freshConn out, freshConn_not_mem out⟩
    writeWireMessage := write
    readWireMessage := read }

/-- The error of a connection that breaks. -/
def connectionReset : GoError := errorf "connection reset"

theorem isRetryableError_connectionReset (d : Driver) :
    isRetryableError (wrapNetworkError d connectionReset) = true := by
  have hall : ("connection reset".toList.all fun c => lowerRune c == c) = true := by decide
  have hlower : ∀ c ∈ "connection reset".toList, lowerRune c = c := by
    intro c hc
    exact eq_of_beq (List.all_eq_true.mp hall c hc)
  have hcontains : contains (toLower (wrapNetworkError d connectionReset).text)
      (lit "connection reset") = true :=
    contains_toLower hlower (d.contains_networkErrorText _)
  unfold isRetryableError
  rw [List.any_eq_true]
  exact ⟨lit "connection reset", by simp [retryableErrors], hcontains⟩

/-- A cluster that answers every attempt alike. -/
def Script.steady (a : Attempt) : Script := { now := 0, attempt := fun _ => a }

section Loop

variable {d : Driver} {m : ClientID} {req : Request} {session : Option Ref} {script : Script}
  {w : World} {f₁ f₂ : Frame} {res : Except GoError Message}

theorem attempts_of_exit (h : attempt d m req session script 0 ⟨w, [], []⟩ = .exit res f₁) :
    attempts d m req session script w = (res, f₁) :=
  forLoop_of_exit h

end Loop

section Call

variable {d : Driver} {m : ClientID} {req : Request} {script : Script} {w : World}

theorem roundTrip_closed (h : (w.clients m).closed = true) : roundTrip d m req script w =
      { result := .error (errorf "connection closed"), world := w, events := [] } := by
  simp [roundTrip, h]

theorem roundTrip_of_none (h : (w.clients m).closed = false) (ht : req.details = none) :
    roundTrip d m req script w = retryLoop d m req none script w := by
  simp [roundTrip, h, ht]

theorem roundTrip_of_some (h : (w.clients m).closed = false) {t : TransactionDetails}
    (ht : req.details = some t) :
    roundTrip d m req script w = retryLoop d m req (some (w.openSession t script.now).1) script
        (w.openSession t script.now).2 := by
  simp [roundTrip, h, ht]

theorem sessionOf_none (ht : req.details = none) : SessionOf req none := by
  simp [SessionOf, ht]

theorem sessionOf_some {t : TransactionDetails} (ht : req.details = some t) (r : Ref) :
    SessionOf req (some r) := by
  simp [SessionOf, ht]

/-- The session of the message, if it has one, and the world once it is opened. -/
def World.enter (w : World) (req : Request) (now : Int) : Option Ref × World :=
  match req.details with
  | none => (none, w)
  | some t => (some (w.openSession t now).1, (w.openSession t now).2)

theorem roundTrip_open (h : (w.clients m).closed = false) : roundTrip d m req script w =
      retryLoop d m req (w.enter req script.now).1 script (w.enter req script.now).2 := by
  unfold World.enter
  cases ht : req.details with
  | none => exact roundTrip_of_none h ht
  | some t => exact roundTrip_of_some h ht

theorem sessionOf_enter (w : World) (req : Request) (now : Int) :
    SessionOf req (w.enter req now).1 := by
  unfold World.enter
  cases ht : req.details with
  | none => exact sessionOf_none ht
  | some t => exact sessionOf_some ht _

theorem enter_pinInv (hw : PinInv w) (req : Request) (now : Int) : PinInv (w.enter req now).2 := by
  unfold World.enter
  cases req.details with
  | none => exact hw
  | some t => exact (w.openSession_opened t now).pinInv hw

theorem roundTrip_pinInv (hw : PinInv w) : PinInv (roundTrip d m req script w).world := by
  cases hc : (w.clients m).closed with
  | true => rwa [roundTrip_closed hc]
  | false =>
    rw [roundTrip_open hc]
    exact retryLoop_pinInv (sessionOf_enter w req script.now) (enter_pinInv hw req script.now)

end Call

/-! ## Reachable worlds -/

/-- The worlds that calls lead to from a new session manager. Between calls other pods may change
the distributed cache, and clients may come, go, or lose cache entries. -/
inductive Reachable (d : Driver) : World → Prop where
  | init (dc : Option DistributedCache) (clients : ClientID → Mongo) :
      Reachable d { manager := .new dc, clients, checkedOut := [] }
  | call {w : World} (h : Reachable d w) (c : Call) : Reachable d (c.run d w).world
  | pods {w : World} (h : Reachable d w) (dc : DistributedCache)
      (hdc : w.manager.distributedCache.isSome) :
      Reachable d { w with manager := { w.manager with distributedCache := some dc } }
  | clients {w : World} (h : Reachable d w) (clients : ClientID → Mongo) :
      Reachable d { w with clients }

theorem Reachable.pinInv {d : Driver} {w : World} (h : Reachable d w) : PinInv w := by
  induction h with
  | init dc clients =>
    refine ⟨?_, ?_, ?_⟩
    · intro r c hc
      cases hc
    · intro r c hc
      cases hc
    · intro r r' c hc
      cases hc
  | call _ c ih => exact roundTrip_pinInv ih
  | pods _ _ _ ih | clients _ _ ih => exact ⟨ih.healthy, ih.checkedOut, ih.disjoint⟩

end MongoBouncer
