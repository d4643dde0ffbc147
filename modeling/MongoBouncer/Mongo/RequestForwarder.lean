import MongoBouncer.Mongo.SessionManager
import MongoBouncer.Runs

/-!
# Forwarding requests to other pods

`ForwardRequest` looks up which pod has the session of a request, and sends that pod the request on
a connection that all calls to the pod share. A call holds the mutex of the connection from its
write to its read, and returns what one `Read` gives, whether that is a whole reply or not. Before a
connection is used again, `isHealthy` tries to read a byte from it, and takes a read that fails for
a sign of health.

* `PodConnection`        : a connection with what has arrived on it and was not read;
* `ForwardPoint`         : where a call of `ForwardRequest` stands;
* `Forwarder.Turn`       : a step of a call, or of the other pods;
* `Forwarder.PromptTurn` : one where replies come in one piece, while their call waits.

The critical section of the forwarder's mutex is one step: nobody else reads or changes the map of
connections in it, and of what it does before it changes the map only the read of `isHealthy` can be
noticed by others.

Principal results: `Forwarder.written_to_own_pod`, `Forwarder.prompt_replies`,
`Forwarder.rest_of_reply` and `Forwarder.closed_connection_stays`.
-/

namespace MongoBouncer

open GoStd Function

/-! ## Connections to pods -/

/-- Where a pod listens. -/
structure PodAddress where
  podIP : GoString
  podPort : Int
  deriving DecidableEq, Repr

/-- `fmt.Sprintf("%s:%d", podIP, podPort)` -/
def PodAddress.key (a : PodAddress) : GoString := a.podIP ++ lit ":" ++ formatInt a.podPort

theorem PodAddress.key_injective : Function.Injective PodAddress.key := by
  intro a b h
  have hcolon : lit ":" = [0x3A] := rfl
  simp only [key, hcolon, List.append_assoc, List.singleton_append] at h
  obtain ⟨hip, hport⟩ := port_inj h
  cases a
  cases b
  simp_all

/-- A request, and the pod that has its session. -/
structure ForwardedRequest where
  request : Bytes
  pod : PodAddress
  deriving DecidableEq, Repr

/-- `PodConnection`: the bytes that have arrived and were not read, whether the other pod has closed
it, and the call that holds its mutex, with the request that it has written. -/
structure PodConnection where
  unread : Bytes
  closed : Bool
  holder : Option (Nat × ForwardedRequest)
  deriving DecidableEq, Repr

/-- A connection that was made: the pod it leads to, and its number. -/
structure PodLink where
  pod : PodAddress
  number : Nat
  deriving DecidableEq, Repr

/-- `isHealthy`: the byte that it reads is gone. -/
@[simp] def PodConnection.isHealthy (c : PodConnection) : Bool × PodConnection :=
  (c.unread.isEmpty, { c with unread := c.unread.drop 1 })

/-! ## The calls -/

/-- Where a call of `ForwardRequest` stands. -/
inductive ForwardPoint where
  | idle
  /-- It has returned `nil, nil`: the request is handled here. -/
  | here
  /-- `getPodConnection` looks the connection up. -/
  | lookup (q : ForwardedRequest)
  /-- `isHealthy`, outside of the forwarder's mutex. -/
  | check (q : ForwardedRequest) (c : PodLink)
  /-- `rf.mutex.Lock` -/
  | renew (q : ForwardedRequest)
  /-- It has its connection, and is about to lock it and to write. -/
  | send (q : ForwardedRequest) (c : PodLink)
  /-- It has written its request, and holds the connection until a read from it returns. -/
  | waiting
  | done (q : ForwardedRequest) (answer : Except GoError Bytes)
  deriving DecidableEq

/-- The connection that a call is about to use, with its request. -/
def ForwardPoint.conn : ForwardPoint → Option (ForwardedRequest × PodLink)
  | .check q c | .send q c => some (q, c)
  | _ => none

/-- The forwarder of a pod: where sessions are, the connections that it keeps, all connections that
it has made, and its calls. -/
structure Forwarder where
  locations : GoString → Option PodAddress
  connections : GoString → Option PodLink
  conns : PodLink → PodConnection
  next : Nat
  point : Nat → ForwardPoint

/-- The longest reply that is read. -/
def responseSize : Nat := 1024 * 1024

/-- What happened. `check` has the bytes that `isHealthy` has read. -/
inductive ForwardEvent where
  | locate (sessionID : GoString) (pod : Option PodAddress)
  | call (k : Nat) (sessionID : GoString) (request : Bytes)
  | lookup (k : Nat)
  | check (k : Nat) (c : PodLink) (swallowed : Bytes)
  | dial (k : Nat)
  | write (k : Nat) (c : PodLink)
  | read (k : Nat) (c : PodLink) (response : Bytes)
  | readError (k : Nat) (c : PodLink)
  | arrive (c : PodLink) (bytes : Bytes)
  | close (c : PodLink)
  deriving DecidableEq

/-- The bytes that arrived on connection `c`. -/
@[simp] def ForwardEvent.arrived (c : PodLink) : ForwardEvent → Bytes
  | .arrive c' bytes => if c' = c then bytes else []
  | _ => []

namespace Forwarder

/-- `NewRequestForwarder` -/
@[simp] def new : Forwarder where
  locations := fun _ => none
  connections := fun _ => none
  conns := fun _ => { unread := [], closed := false, holder := none }
  next := 0
  point := fun _ => .idle

@[simp] def move (s : Forwarder) (k : Nat) (p : ForwardPoint) : Forwarder :=
  { s with point := update s.point k p }

@[simp] def setConn (s : Forwarder) (c : PodLink) (conn : PodConnection) : Forwarder :=
  { s with conns := update s.conns c conn }

/-- `ForwardRequest` up to `forwardToPod`. No session counts as one of this pod. -/
@[simp] def forwardRequest (s : Forwarder) (sessionID : GoString) (request : Bytes) : ForwardPoint :=
  match s.locations sessionID with
  | none => .here
  | some pod => .lookup { request, pod }

/-- `createConnection`, and the entry in the map. Nothing has happened so far on a connection with
the number `next`. -/
@[simp] def create (s : Forwarder) (k : Nat) (q : ForwardedRequest) : Except GoError Unit → Forwarder
  | .error e =>
    s.move k (.done q (.error ⟨lit "failed to get connection to pod " ++ q.pod.key ++ lit ": " ++
      lit "failed to connect to " ++ q.pod.key ++ lit ": " ++ e.text⟩))
  | .ok () =>
    ({ s with
        connections := update s.connections q.pod.key (some ⟨q.pod, s.next⟩)
        next := s.next + 1 } : Forwarder).move k (.send q ⟨q.pod, s.next⟩)

/-- One step of a call, or of the other pods. -/
inductive Turn (s : Forwarder) : ForwardEvent → Forwarder → Prop where
  /-- A location is stored or removed, or it expires. -/
  | locate (sessionID : GoString) (pod : Option PodAddress) :
      Turn s (.locate sessionID pod)
        { s with locations := update s.locations sessionID pod }
  | call (k : Nat) (sessionID : GoString) (request : Bytes) (hidle : s.point k = .idle) :
      Turn s (.call k sessionID request) (s.move k (s.forwardRequest sessionID request))
  | lookup (k : Nat) (q : ForwardedRequest) (hpoint : s.point k = .lookup q) :
      Turn s (.lookup k)
        (s.move k (match s.connections q.pod.key with | some c => .check q c | none => .renew q))
  | check (k : Nat) (q : ForwardedRequest) (c : PodLink) (hpoint : s.point k = .check q c)
      (hfree : (s.conns c).holder = none) :
      Turn s (.check k c ((s.conns c).unread.take 1))
        ((s.setConn c (s.conns c).isHealthy.2).move k
          (if (s.conns c).isHealthy.1 then .send q c else .renew q))
  | recheck (k : Nat) (q : ForwardedRequest) (c : PodLink) (outcome : Except GoError Unit)
      (hpoint : s.point k = .renew q) (hc : s.connections q.pod.key = some c)
      (hfree : (s.conns c).holder = none) :
      Turn s (.check k c ((s.conns c).unread.take 1))
        (if (s.conns c).isHealthy.1 then (s.setConn c (s.conns c).isHealthy.2).move k (.send q c)
          else (s.setConn c (s.conns c).isHealthy.2).create k q outcome)
  | dial (k : Nat) (q : ForwardedRequest) (outcome : Except GoError Unit)
      (hpoint : s.point k = .renew q) (hnone : s.connections q.pod.key = none) :
      Turn s (.dial k) (s.create k q outcome)
  | write (k : Nat) (q : ForwardedRequest) (c : PodLink) (hpoint : s.point k = .send q c)
      (hfree : (s.conns c).holder = none) :
      Turn s (.write k c)
        ((s.setConn c { s.conns c with holder := some (k, q) }).move k .waiting)
  | writeError (k : Nat) (q : ForwardedRequest) (c : PodLink) (e : GoError)
      (hpoint : s.point k = .send q c) (hfree : (s.conns c).holder = none) :
      Turn s (.write k c)
        (s.move k (.done q (.error ⟨lit "failed to send request data: " ++ e.text⟩)))
  | read (k : Nat) (q : ForwardedRequest) (c : PodLink) (response rest : Bytes)
      (hheld : (s.conns c).holder = some (k, q)) (hunread : (s.conns c).unread = response ++ rest)
      (hne : response ≠ []) (hsize : response.length ≤ responseSize) :
      Turn s (.read k c response)
        ((s.setConn c { s.conns c with unread := rest, holder := none }).move k
          (.done q (.ok response)))
  | readError (k : Nat) (q : ForwardedRequest) (c : PodLink) (e : GoError)
      (hheld : (s.conns c).holder = some (k, q)) :
      Turn s (.readError k c)
        ((s.setConn c { s.conns c with holder := none }).move k
          (.done q (.error ⟨lit "failed to read response data: " ++ e.text⟩)))
  | arrive (c : PodLink) (bytes : Bytes) (hc : c.number < s.next)
      (hopen : (s.conns c).closed = false) :
      Turn s (.arrive c bytes)
        (s.setConn c { s.conns c with unread := (s.conns c).unread ++ bytes })
  | close (c : PodLink) (hc : c.number < s.next) :
      Turn s (.close c) (s.setConn c { s.conns c with closed := true })

/-- A step in which a reply comes in one piece, while the call that it is meant for waits, and is
read as it came. -/
def PromptTurn (reply : ForwardedRequest → Bytes) (s : Forwarder) (e : ForwardEvent)
    (s' : Forwarder) : Prop :=
  Turn s e s' ∧ match e with
    | .arrive c bytes =>
      (s.conns c).unread = [] ∧ ∃ k q, (s.conns c).holder = some (k, q) ∧ bytes = reply q
    | .read _ c response => response = (s.conns c).unread
    | .readError _ c => (s.conns c).unread = []
    | _ => True

def shopRequest : ForwardedRequest := ⟨[1], ⟨lit "10.0.0.7", 27017⟩⟩

def shopLink : PodLink := ⟨shopRequest.pod, 0⟩

def shopReply : ForwardedRequest → Bytes := fun _ => [7]

theorem exists_written : ∃ es s, Runs (PromptTurn shopReply) new es s ∧
    s.connections shopRequest.pod.key = some shopLink ∧ s.next = 1 ∧
    s.conns shopLink = ⟨[], false, some (0, shopRequest)⟩ := by
  have h₀ : Runs (PromptTurn shopReply) new [] new := .start
  have h := h₀.step ⟨.locate [] (some shopRequest.pod), trivial⟩
    |>.step ⟨.call 0 [] [1] rfl, trivial⟩
    |>.step ⟨.lookup 0 shopRequest rfl, trivial⟩
    |>.step ⟨.dial 0 shopRequest (.ok ()) rfl rfl, trivial⟩
    |>.step ⟨.write 0 shopRequest shopLink rfl rfl, trivial⟩
  exact ⟨_, _, h, by decide +kernel, rfl, rfl⟩

/-! ## Requests go to their own pod -/

variable {s s' : Forwarder} {es : List ForwardEvent} {e : ForwardEvent} {k : Nat} {c : PodLink}
  {q : ForwardedRequest}

/-- Connections are kept under the key of their pod, and are used for requests to it. -/
structure Paired (s : Forwarder) : Prop where
  kept : ∀ pod c, s.connections pod.key = some c → c.pod = pod
  chosen : ∀ k q c, (s.point k).conn = some (q, c) → c.pod = q.pod
  held : ∀ k q c, (s.conns c).holder = some (k, q) → c.pod = q.pod

section Paired

variable (h : s.Paired)

include h

theorem Paired.move {p : ForwardPoint}
    (hp : ∀ q c, p.conn = some (q, c) → c.pod = q.pod) : (s.move k p).Paired := by
  refine ⟨h.kept, ?_, h.held⟩
  intro k' q c hk'
  by_cases hk : k' = k
  · subst hk
    exact hp q c (by simpa using hk')
  · exact h.chosen k' q c (by simpa [hk] using hk')

theorem Paired.setConn {conn : PodConnection}
    (hheld : ∀ k q, conn.holder = some (k, q) → c.pod = q.pod) : (s.setConn c conn).Paired := by
  refine ⟨h.kept, h.chosen, ?_⟩
  intro k q c' hc'
  by_cases hc : c' = c
  · subst hc
    exact hheld k q (by simpa using hc')
  · exact h.held k q c' (by simpa [hc] using hc')

theorem Paired.create (outcome : Except GoError Unit) :
    (s.create k q outcome).Paired := by
  cases outcome with
  | error e => exact h.move nofun
  | ok =>
    obtain ⟨-, hchosen, hheld⟩ :=
      h.move (k := k) (p := .send q ⟨q.pod, s.next⟩) (by rintro _ _ ⟨⟩; rfl)
    refine ⟨?_, hchosen, hheld⟩
    intro pod c hc
    by_cases hpod : pod = q.pod
    · subst hpod
      obtain rfl : ⟨q.pod, s.next⟩ = c := by simpa using hc
      rfl
    · exact h.kept pod c (by simpa [PodAddress.key_injective.ne hpod] using hc)

theorem Paired.turn (hturn : Turn s e s') : s'.Paired := by
  have hchecked : ∀ c, (s.setConn c (s.conns c).isHealthy.2).Paired :=
    fun c => h.setConn fun k q => h.held k q c
  cases hturn with
  | locate => exact ⟨h.kept, h.chosen, h.held⟩
  | call k sessionID request =>
    refine h.move ?_
    unfold forwardRequest
    split <;> nofun
  | lookup k q =>
    refine h.move ?_
    split
    · rename_i c hc
      rintro _ _ ⟨⟩
      exact h.kept _ c hc
    · nofun
  | check k q c hpoint =>
    refine (hchecked c).move ?_
    split
    · rintro _ _ ⟨⟩
      exact h.chosen k q c (by rw [hpoint]; rfl)
    · nofun
  | recheck k q c outcome hpoint hc =>
    split
    · refine (hchecked c).move ?_
      rintro _ _ ⟨⟩
      exact h.kept _ c hc
    · exact (hchecked c).create outcome
  | dial k q outcome => exact h.create outcome
  | write k q c hpoint =>
    refine (h.setConn ?_).move fun _ _ hp => nomatch hp
    rintro _ _ ⟨⟩
    exact h.chosen k q c (by rw [hpoint]; rfl)
  | writeError => exact h.move fun _ _ hp => nomatch hp
  | read | readError =>
    refine (h.setConn ?_).move fun _ _ hp => nomatch hp
    nofun
  | arrive c | close c => exact h.setConn fun k q => h.held k q c

end Paired

/-- **A request is sent only to the pod that has its session**: keys of different pods differ. -/
theorem written_to_own_pod (h : Runs Turn new es s) (hheld : (s.conns c).holder = some (k, q)) :
    c.pod = q.pod :=
  have hpaired : s.Paired := h.invariant ⟨nofun, nofun, nofun⟩ fun _ _ _ hs hturn => hs.turn hturn
  hpaired.held k q c hheld

theorem written_to_own_pod_first : ∃ es s, Runs Turn new es s ∧
    (s.conns shopLink).holder = some (0, shopRequest) ∧ shopLink.pod = shopRequest.pod := by
  obtain ⟨es, s, h, -, -, hconn⟩ := exists_written
  have h' : Runs Turn new es s := h.mono fun _ _ _ _ ht => ht.1
  have hheld : (s.conns shopLink).holder = some (0, shopRequest) := by rw [hconn]
  exact ⟨es, s, h', hheld, written_to_own_pod h' hheld⟩

/-! ## Replies in one piece -/

/-- What is unread on a connection is the reply to the request of the call that holds it. -/
structure Prompt (reply : ForwardedRequest → Bytes) (s : Forwarder) : Prop where
  unread : ∀ c, (s.conns c).unread ≠ [] →
    ∃ k q, (s.conns c).holder = some (k, q) ∧ (s.conns c).unread = reply q
  answered : ∀ k q response, s.point k = .done q (.ok response) → response = reply q

variable {reply : ForwardedRequest → Bytes}

section Prompt

variable (h : s.Prompt reply)

include h

theorem Prompt.unread_of_free (hfree : (s.conns c).holder = none) :
    (s.conns c).unread = [] := by
  by_contra hne
  obtain ⟨k, q, hheld, -⟩ := h.unread c hne
  rw [hfree] at hheld
  cases hheld

theorem Prompt.move {p : ForwardPoint}
    (hp : ∀ q response, p = .done q (.ok response) → response = reply q) :
    (s.move k p).Prompt reply := by
  refine ⟨h.unread, ?_⟩
  intro k' q response hk'
  by_cases hk : k' = k
  · subst hk
    exact hp q response (by simpa using hk')
  · exact h.answered k' q response (by simpa [hk] using hk')

theorem Prompt.setConn {conn : PodConnection}
    (hunread : conn.unread ≠ [] → ∃ k q, conn.holder = some (k, q) ∧ conn.unread = reply q) :
    (s.setConn c conn).Prompt reply := by
  refine ⟨?_, h.answered⟩
  intro c' hc'
  by_cases hc : c' = c
  · subst hc
    simpa using hunread (by simpa using hc')
  · simpa [hc] using h.unread c' (by simpa [hc] using hc')

theorem Prompt.turn (hturn : PromptTurn reply s e s') : s'.Prompt reply := by
  obtain ⟨hturn, hprompt⟩ := hturn
  -- a health check waits until nobody holds the connection, and then finds nothing to read
  have hchecked : ∀ {c}, (s.conns c).holder = none → (s.conns c).isHealthy.1 = true ∧
      (s.setConn c (s.conns c).isHealthy.2).Prompt reply := by
    intro c hfree
    have hempty := h.unread_of_free hfree
    refine ⟨by simp [hempty], h.setConn fun hne => ?_⟩
    simp [hempty] at hne
  cases hturn with
  | locate => exact ⟨h.unread, h.answered⟩
  | call k sessionID request =>
    refine h.move ?_
    unfold forwardRequest
    split <;> nofun
  | lookup k q =>
    refine h.move ?_
    split <;> nofun
  | check k q c hpoint hfree =>
    rw [(hchecked hfree).1]
    exact (hchecked hfree).2.move nofun
  | recheck k q c outcome hpoint hc hfree =>
    rw [if_pos (hchecked hfree).1]
    exact (hchecked hfree).2.move nofun
  | dial k q outcome =>
    cases outcome with
    | error e => exact h.move nofun
    | ok =>
      obtain ⟨hunread, hanswered⟩ := h.move (k := k) (p := .send q ⟨q.pod, s.next⟩) nofun
      exact ⟨hunread, hanswered⟩
  | write k q c hpoint hfree =>
    refine (h.setConn ?_).move nofun
    exact fun hne => absurd (h.unread_of_free hfree) hne
  | writeError => exact h.move nofun
  | read k q c response rest hheld hunread hne =>
    have hrest : rest = [] := by
      have hall : response = response ++ rest := hprompt.trans hunread
      simpa using hall
    obtain ⟨k', q', hheld', hreply⟩ := h.unread c (by rw [hunread]; simp [hne])
    obtain ⟨rfl, rfl⟩ : k = k' ∧ q = q' := by simpa [hheld] using hheld'
    refine (h.setConn fun hmore => absurd hrest hmore).move ?_
    rintro _ _ ⟨⟩
    exact hprompt.trans hreply
  | readError =>
    refine (h.setConn ?_).move nofun
    exact fun hne => absurd hprompt hne
  | arrive c bytes =>
    obtain ⟨hempty, k, q, hheld, rfl⟩ := hprompt
    exact h.setConn fun _ => ⟨k, q, hheld, by simp [hempty]⟩
  | close c => exact h.setConn (h.unread c)

end Prompt

/-- **Replies that come in one piece go to their own calls**, however the calls are interleaved. -/
theorem prompt_replies (h : Runs (PromptTurn reply) new es s) {response : Bytes}
    (hdone : s.point k = .done q (.ok response)) : response = reply q :=
  have hprompt : s.Prompt reply :=
    h.invariant ⟨fun _ hne => absurd rfl hne, nofun⟩ fun _ _ _ hs hturn => hs.turn hturn
  hprompt.answered k q response hdone

theorem prompt_replies_first : ∃ es s response, Runs (PromptTurn shopReply) new es s ∧
    s.point 0 = .done shopRequest (.ok response) ∧ response = shopReply shopRequest := by
  obtain ⟨es, s, h, -, hnext, hconn⟩ := exists_written
  have h' := h.step ⟨.arrive shopLink [7] (by rw [hnext]; decide) (by rw [hconn]),
      by rw [hconn], 0, shopRequest, by rw [hconn], rfl⟩
    |>.step ⟨.read 0 shopRequest shopLink [7] [] (by simp [hconn]) (by simp [hconn]) (by simp)
      (by decide), by simp [hconn]⟩
  exact ⟨_, _, [7], h', by simp, prompt_replies h' (k := 0) (by simp)⟩

/-- **The rest of a reply goes to the next call.** A reply that comes in two pieces is returned as
two answers: the second call has not even written its request when all of it has arrived. -/
theorem rest_of_reply (sessionID : GoString) (pod : PodAddress) (request request' : Bytes)
    {a b : Bytes} (ha : a ≠ []) (hb : b ≠ []) (hasize : a.length ≤ responseSize)
    (hbsize : b.length ≤ responseSize) :
    ∃ es s, Runs Turn new (es ++ [.write 1 ⟨pod, 0⟩] ++ [.read 1 ⟨pod, 0⟩ b]) s ∧
      es.flatMap (·.arrived ⟨pod, 0⟩) = a ++ b ∧ s.point 0 = .done ⟨request, pod⟩ (.ok a) ∧
      s.point 1 = .done ⟨request', pod⟩ (.ok b) := by
  have h₀ : Runs Turn new [] new := .start
  have h := h₀.step (.locate sessionID (some pod))
    |>.step (.call 0 sessionID request rfl)
    |>.step (.lookup 0 ⟨request, pod⟩ (by simp))
    |>.step (.dial 0 ⟨request, pod⟩ (.ok ()) (by simp) rfl)
    |>.step (.write 0 ⟨request, pod⟩ ⟨pod, 0⟩ (by simp) rfl)
    |>.step (.arrive ⟨pod, 0⟩ a Nat.one_pos (by simp))
    |>.step (.read 0 ⟨request, pod⟩ ⟨pod, 0⟩ a [] (by simp) (by simp) ha hasize)
    |>.step (.call 1 sessionID request' rfl)
    |>.step (.lookup 1 ⟨request', pod⟩ (by simp))
    |>.step (.check 1 ⟨request', pod⟩ ⟨pod, 0⟩ (by simp) (by simp))
    -- the rest comes after the health check of the second call, and before its write
    |>.step (.arrive ⟨pod, 0⟩ b Nat.one_pos (by simp))
    |>.step (.write 1 ⟨request', pod⟩ ⟨pod, 0⟩ (by simp) (by simp))
    |>.step (.read 1 ⟨request', pod⟩ ⟨pod, 0⟩ b [] (by simp) (by simp) hb hbsize)
  exact ⟨_, _, h, by simp, rfl, rfl⟩

theorem rest_of_reply_sevens :
    ∃ es s, Runs Turn new (es ++ [.write 1 shopLink] ++ [.read 1 shopLink [8]]) s ∧
      es.flatMap (·.arrived shopLink) = [7] ++ [8] ∧ s.point 0 = .done shopRequest (.ok [7]) ∧
      s.point 1 = .done ⟨[2], shopRequest.pod⟩ (.ok [8]) :=
  rest_of_reply [] shopRequest.pod [1] [2] (by simp) (by simp) (by decide) (by decide)

/-! ## Connections that were closed -/

/-- The connection that is kept for a pod is closed at its other end, with nothing unread. -/
def Dead (s : Forwarder) (pod : PodAddress) (c : PodLink) : Prop :=
  s.connections pod.key = some c ∧ (s.conns c).closed = true ∧ (s.conns c).unread = []

section Dead

variable {pod : PodAddress} (h : s.Dead pod c)

include h

theorem Dead.setConn {c' : PodLink} {conn : PodConnection}
    (hconn : c' = c → conn.closed = true ∧ conn.unread = []) : (s.setConn c' conn).Dead pod c := by
  refine ⟨h.1, ?_⟩
  by_cases hc : c' = c
  · subst hc
    simpa using hconn rfl
  · simpa [Ne.symm hc] using h.2

theorem Dead.create (hq : q.pod ≠ pod) (outcome : Except GoError Unit) :
    (s.create k q outcome).Dead pod c := by
  cases outcome with
  | error e => exact h
  | ok =>
    have hkey : pod.key ≠ q.pod.key := fun heq => hq (PodAddress.key_injective heq).symm
    exact ⟨by simpa [hkey] using h.1, h.2⟩

theorem Dead.turn (hturn : Turn s e s') : s'.Dead pod c := by
  have hchecked : ∀ c', (s.setConn c' (s.conns c').isHealthy.2).Dead pod c := by
    refine fun c' => h.setConn ?_
    rintro rfl
    simp [h.2]
  cases hturn with
  | locate | call | lookup | writeError => exact h
  | check k q c' => exact hchecked c'
  | recheck k q c' outcome hpoint hc =>
    split
    · exact hchecked c'
    · rename_i hbroken
      refine (hchecked c').create ?_ outcome
      rintro rfl
      -- the check of the connection that is kept fails, which counts as health
      obtain rfl : c' = c := Option.some.inj (hc.symm.trans h.1)
      exact hbroken (by simp [h.2.2])
  | dial k q outcome hpoint hnone =>
    refine h.create ?_ outcome
    rintro rfl
    rw [h.1] at hnone
    cases hnone
  | write k q c' | readError k q c' =>
    refine h.setConn ?_
    rintro rfl
    exact h.2
  | read k q c' response rest hheld hunread =>
    refine h.setConn ?_
    rintro rfl
    rw [h.2.2] at hunread
    exact ⟨h.2.1, (List.append_eq_nil_iff.mp hunread.symm).2⟩
  | arrive c' bytes hc hopen =>
    refine h.setConn ?_
    rintro rfl
    rw [h.2.1] at hopen
    cases hopen
  | close c' =>
    refine h.setConn ?_
    rintro rfl
    exact ⟨rfl, h.2.2⟩

theorem Dead.not_read (hturn : Turn s e s') (k : Nat) (response : Bytes) :
    e ≠ .read k c response := by
  rintro rfl
  cases hturn with
  | read _ q _ _ rest hheld hunread hne =>
    rw [h.2.2] at hunread
    exact hne (List.append_eq_nil_iff.mp hunread.symm).1

end Dead

/-- **A pod that has closed its connection is not reached again.** A read from the connection fails,
which counts as health, so the connection is kept for good, and no call has an answer from it. -/
theorem closed_connection_stays {pod : PodAddress} (h : Runs Turn s es s') (hdead : s.Dead pod c) :
    s'.connections pod.key = some c ∧ ∀ k response, .read k c response ∉ es := by
  have hinv : s'.Dead pod c ∧ ∀ k response, .read k c response ∉ es := by
    refine h.invariant_log (P := fun es s' => s'.Dead pod c ∧ ∀ k response,
      .read k c response ∉ es) ⟨hdead, fun _ _ => List.not_mem_nil⟩ ?_
    rintro es s₁ e s₂ ⟨hs₁, hes⟩ hturn
    refine ⟨hs₁.turn hturn, fun k response => ?_⟩
    simpa [hes k response] using (hs₁.not_read hturn k response).symm
  exact ⟨hinv.1.1, hinv.2⟩

theorem closed_connection_stays_first : ∃ es s s', Runs Turn s es s' ∧
    s.Dead shopRequest.pod shopLink ∧ s'.connections shopRequest.pod.key = some shopLink ∧
    ∀ k response, .read k shopLink response ∉ es := by
  obtain ⟨es, s, h, hkept, -, hconn⟩ := exists_written
  have hdead : (s.setConn shopLink ⟨[], true, some (0, shopRequest)⟩).Dead shopRequest.pod
      shopLink := ⟨hkept, by simp, by simp⟩
  have h₀ : Runs Turn (s.setConn shopLink ⟨[], true, some (0, shopRequest)⟩) [] _ := .start
  have hrun := h₀.step (.readError 0 shopRequest shopLink ⟨lit "EOF"⟩ (by simp))
  exact ⟨_, _, _, hrun, hdead, closed_connection_stays hrun hdead⟩

end Forwarder

end MongoBouncer
