import MongoBouncer.Mongo.Interleave
import MongoBouncer.Mongo.IsMaster
import MongoBouncer.Proxy.Credentials
import MongoBouncer.Wire.Reencode

/-!
# Replies

What `connection.roundTrip` returns for an acknowledged message: the mocked reply to a handshake
command, the reply that a cluster sent, or what another pod sent. Of the last only the operation is
kept, so there are no bytes to write to the client.

* `Response.message`      : the message of a response, with its bytes;
* `Proxy.replyMessage`    : what `connection.roundTrip` returns;
* `Answers`               : a whole reply to the request;
* `Proxy.AnsweredByPod`   : the messages that another pod answers.

Principal result: `Proxy.reply_answers_iff`.
-/

namespace MongoBouncer

open GoStd Codec

/-! ## The ids of a message -/

section Decode

variable {d : Driver} {reqID : Int32} {wm : Bytes}

/-- What holds of every result of a continuation holds of every result of the whole. -/
theorem ok_of_bind {α β : Type} {r : Except DecodeError α} {f : α → Except DecodeError β}
    {P : β → Prop} (h : ∀ a b, f a = .ok b → P b) : ∀ b, (r >>= f) = .ok b → P b := by
  intro b hb
  cases r with
  | error e => cases hb
  | ok a => exact h a b hb

theorem reqID_of_decodeQuery : ∀ q, decodeQuery d reqID wm = .ok q → q.reqID = reqID := by
  repeat refine ok_of_bind fun _ => ?_
  -- with and without a selector of the fields
  simp only
  split
  · refine ok_of_bind fun _ => ?_
    rintro _ ⟨⟩
    rfl
  · rintro _ ⟨⟩
    rfl

theorem reqID_of_decodeMsg : ∀ m, decodeMsg d reqID wm = .ok m → m.reqID = reqID := by
  repeat refine ok_of_bind fun _ => ?_
  rintro _ ⟨⟩
  rfl

theorem reqID_of_decodeReply : ∀ r, decodeReply d reqID wm = .ok r → r.reqID = reqID := by
  repeat refine ok_of_bind fun _ => ?_
  rintro _ ⟨⟩
  rfl

theorem reqID_of_decodeGetMore : ∀ g, decodeGetMore d reqID wm = .ok g → g.reqID = reqID := by
  repeat refine ok_of_bind fun _ => ?_
  rintro _ ⟨⟩
  rfl

theorem reqID_of_decodeUpdate : ∀ u, decodeUpdate d reqID wm = .ok u → u.reqID = reqID := by
  repeat refine ok_of_bind fun _ => ?_
  rintro _ ⟨⟩
  rfl

theorem reqID_of_decodeInsert : ∀ i, decodeInsert d reqID wm = .ok i → i.reqID = reqID := by
  repeat refine ok_of_bind fun _ => ?_
  rintro _ ⟨⟩
  rfl

theorem reqID_of_decodeDelete : ∀ e, decodeDelete d reqID wm = .ok e → e.reqID = reqID := by
  repeat refine ok_of_bind fun _ => ?_
  rintro _ ⟨⟩
  rfl

theorem reqID_of_decodeKillCursors :
    ∀ k, decodeKillCursors d reqID wm = .ok k → k.reqID = reqID := by
  repeat refine ok_of_bind fun _ => ?_
  rintro _ ⟨⟩
  rfl

theorem requestID_of_map {α : Type} {r : Except DecodeError α} {f : α → Operation}
    (hr : ∀ a, r = .ok a → (f a).requestID = reqID) {op : Operation} (h : r.map f = .ok op) :
    op.requestID = reqID := by
  cases r with
  | error e => cases h
  | ok a =>
    cases h
    exact hr a rfl

theorem requestID_of_decode {op : Operation} (h : decode d wm = .ok op) :
    requestID d wm = some op.requestID := by
  obtain ⟨⟨header, body⟩, hheader, h⟩ := orError_bind_eq_ok h
  rw [requestID, hheader]
  refine congrArg some (Eq.symm ?_)
  simp only at h
  by_cases hlength : header.length.toInt > wm.length
  · rw [if_pos hlength] at h
    cases h
  rw [if_neg hlength] at h
  by_cases hquery : header.opCode = 2004
  · rw [if_pos hquery] at h
    exact requestID_of_map reqID_of_decodeQuery h
  rw [if_neg hquery] at h
  by_cases hmsg : header.opCode = 2013
  · rw [if_pos hmsg] at h
    exact requestID_of_map reqID_of_decodeMsg h
  rw [if_neg hmsg] at h
  by_cases hreply : header.opCode = 1
  · rw [if_pos hreply] at h
    exact requestID_of_map reqID_of_decodeReply h
  rw [if_neg hreply] at h
  by_cases hgetMore : header.opCode = 2005
  · rw [if_pos hgetMore] at h
    exact requestID_of_map reqID_of_decodeGetMore h
  rw [if_neg hgetMore] at h
  by_cases hupdate : header.opCode = 2001
  · rw [if_pos hupdate] at h
    exact requestID_of_map reqID_of_decodeUpdate h
  rw [if_neg hupdate] at h
  by_cases hinsert : header.opCode = 2002
  · rw [if_pos hinsert] at h
    exact requestID_of_map reqID_of_decodeInsert h
  rw [if_neg hinsert] at h
  by_cases hdelete : header.opCode = 2006
  · rw [if_pos hdelete] at h
    exact requestID_of_map reqID_of_decodeDelete h
  rw [if_neg hdelete] at h
  by_cases hkillCursors : header.opCode = 2007
  · rw [if_pos hkillCursors] at h
    exact requestID_of_map reqID_of_decodeKillCursors h
  rw [if_neg hkillCursors] at h
  cases h
  rfl

theorem ne_nil_of_decode (hheader : Consumes d.readHeader Header.bytes) {op : Operation}
    (h : decode d wm = .ok op) : wm ≠ [] := by
  rintro rfl
  obtain ⟨⟨header, body⟩, hread, -⟩ := orError_bind_eq_ok h
  have hlen := congrArg List.length (hheader _ _ _ hread)
  rw [List.length_append, length_headerBytes, List.length_nil] at hlen
  omega

end Decode

/-! ## The reply of a cluster -/

/-- A reply that some attempt read from its connection, with its operation. -/
def FromCluster (d : Driver) (script : Script) (msg : Message) : Prop :=
  ∃ i reply op, (script.attempt i).readWireMessage = .ok reply ∧ decode d reply = .ok op ∧
    msg = { wm := reply, op := some op }

section Cluster

variable {d : Driver} {m : ClientID} {req : Request} {session : Option Ref} {script : Script}
  (hack : req.unacknowledged = false)

include hack

/-- A reply of the exchange is what was read and decoded; an acknowledged message is not done
without one. -/
theorem exchange_answered (i : Nat) (server : Server) (conn : Conn) (up : Attempt) :
    (∀ reply op, (exchange d i server conn req up).1 = .reply reply op →
        up.readWireMessage = .ok reply ∧ decode d reply = .ok op) ∧
      (exchange d i server conn req up).1 ≠ .unacknowledged := by
  unfold exchange roundTripOn
  split
  · cases up.writeWireMessage with
    | some e =>
      simp only
      split <;> exact ⟨nofun, nofun⟩
    | none =>
      simp only [hack, Bool.false_eq_true, if_false]
      cases hread : up.readWireMessage with
      | error e =>
        simp only
        split <;> exact ⟨nofun, nofun⟩
      | ok wm =>
        simp only
        cases hdecode : decode d wm with
        | error e =>
          simp only
          split <;> exact ⟨nofun, nofun⟩
        | ok op =>
          refine ⟨?_, nofun⟩
          rintro reply op' ⟨⟩
          exact ⟨rfl, hdecode⟩
  · split <;> exact ⟨nofun, nofun⟩

theorem meets_sendAndUpdate (i : Nat) (server : Server) (conn : Conn) (f : Frame) :
    (sendAndUpdate d m req i server conn (script.attempt i) f).Meets (fun _ => True)
      fun res _ => ∀ msg, res = .ok msg → FromCluster d script msg := by
  obtain ⟨hreply, hun⟩ := exchange_answered (d := d) hack i server conn (script.attempt i)
  unfold sendAndUpdate
  cases hx : (exchange d i server conn req (script.attempt i)).1 with
  | again =>
    simp only [hx]
    trivial
  | fail e =>
    simp only [hx]
    exact fun msg h => nomatch h
  | unacknowledged => exact absurd hx hun
  | reply reply op =>
    obtain ⟨hread, hdecode⟩ := hreply reply op hx
    simp only [hx]
    rintro msg ⟨⟩
    exact ⟨i, reply, op, hread, hdecode, rfl⟩

theorem meets_attempt (hs : SessionOf req session) (i : Nat) (f : Frame) :
    (attempt d m req session script i f).Meets (fun _ => True)
      fun res _ => ∀ msg, res = .ok msg → FromCluster d script msg := by
  cases attempt_cases d m req script hs i f with
  | stopped h hstop =>
    rcases h with h | ⟨e, h⟩
    · rw [h]
      trivial
    · rw [h]
      exact fun msg h => nomatch h
  | refused r t server conn w ev e hr ht hserver hconn hmanage h =>
    rw [h]
    exact fun msg h => nomatch h
  | sentOutside server conn _ _ _ _ _ h | sentInside _ _ server conn _ _ _ _ _ _ _ _ _ _ _ _ h =>
    rw [h]
    exact meets_sendAndUpdate hack i server conn _

theorem fromCluster_retryLoop (hs : SessionOf req session) (w : World) (msg : Message)
    (h : (retryLoop d m req session script w).result = .ok msg) : FromCluster d script msg :=
  attempts_rule_exit (I := fun _ => True)
    (Q := fun res _ => ∀ msg, res = .ok msg → FromCluster d script msg) trivial
    (fun i f _ => meets_attempt hack hs i f) (fun _ _ _ h => nomatch h) msg h

theorem fromCluster_roundTrip {w : World} {msg : Message}
    (h : (roundTrip d m req script w).result = .ok msg) : FromCluster d script msg := by
  unfold roundTrip at h
  split at h
  · cases h
  · cases ht : req.details with
    | none =>
      rw [ht] at h
      exact fromCluster_retryLoop hack (sessionOf_none ht) _ msg h
    | some t =>
      rw [ht] at h
      exact fromCluster_retryLoop hack (sessionOf_some ht _) _ msg h

end Cluster

/-! ## The message of a response -/

section Message

variable (w : Appender) (marshal : BsonD → Document) (stamp : Stamp)

/-- The message that a response stands for. -/
def Response.message : Response → Except GoError Message
  | .isMaster responseTo topology => isMasterResponse w marshal stamp responseTo topology
  | .buildInfo responseTo => .ok (buildInfoResponse w marshal stamp responseTo)
  | .commandNotFound responseTo errmsg codeName =>
    .ok (errorResponse w marshal responseTo errmsg codeName)
  | .getParameter responseTo => .ok (getParameterResponse w marshal responseTo)
  | .emptyCursor responseTo => .ok (emptyCursorResponse w marshal responseTo)
  | .upstream msg => .ok msg
  -- `&mongo.Message{Op: responseOp}`
  | .fromPod op => .ok { wm := [], op := some op }

/-- The documents of the replies that `roundTrip` can mock. -/
def mockedDocuments : List BsonD :=
  ([.single, .sharded, .loadBalanced].filterMap fun kind => (isMasterDocument stamp kind).toOption) ++
    [buildInfoDocument stamp,
     errorDocument (lit "no such command: 'atlasVersion'") (lit "CommandNotFound"),
     getParameterDocument, emptyCursorDocument]

/-- `connection.roundTrip`, with the bytes of the mocked replies. -/
def Proxy.replyMessage (d : Driver) (p : Proxy) (c : Connection) (wm : Bytes) (op : Operation)
    (up : Upstream) : Except GoError Message :=
  (p.roundTrip d c wm op up).result.bind (·.message w marshal stamp)

end Message

/-- A whole reply to the message `wm`: bytes that `Decode` accepts as the operation, with the
requestID of the message. -/
structure Answers (d : Driver) (wm : Bytes) (msg : Message) : Prop where
  wm_ne_nil : msg.wm ≠ []
  decoded : ∃ op, msg.op = some op ∧ decode d msg.wm = .ok op
  repliesTo : RepliesTo d msg.wm wm

/-- Every reply that the cluster sends and that can be decoded is a reply to the message. -/
def Upstream.RepliesTo (d : Driver) (up : Upstream) (wm : Bytes) : Prop :=
  ∀ i reply op, (up.script.attempt i).readWireMessage = .ok reply → decode d reply = .ok op →
    MongoBouncer.RepliesTo d reply wm

namespace Proxy

section Mocked

variable {d : Driver} {w : Appender} {marshal : BsonD → Document} {stamp : Stamp} {op : Operation}

theorem isMasterDocument_mem {kind : TopologyKind} {doc : BsonD}
    (h : isMasterDocument stamp kind = .ok doc) : doc ∈ mockedDocuments stamp := by
  refine List.mem_append_left _ (List.mem_filterMap.mpr ⟨kind, ?_, by rw [h]; rfl⟩)
  cases kind with
  | other text => cases h
  | _ => simp

theorem message_of_isMasterResponse {responseTo : Int32} {topology : TopologyKind}
    {response : Response} {msg : Message} (h : isMasterResponse responseTo topology = .ok response)
    (hmsg : response.message w marshal stamp = .ok msg) :
    ∃ doc ∈ mockedDocuments stamp,
      msg = mockMessage w marshal responseTo resultFlagAwaitCapable doc := by
  have hresponse : response = .isMaster responseTo topology := by
    unfold isMasterResponse at h
    split at h
    · cases h
    · cases h
      rfl
  subst hresponse
  simp only [Response.message, MongoBouncer.isMasterResponse] at hmsg
  cases hdoc : isMasterDocument stamp topology with
  | error e =>
    rw [hdoc] at hmsg
    cases hmsg
  | ok doc =>
    rw [hdoc] at hmsg
    cases hmsg
    exact ⟨doc, isMasterDocument_mem hdoc, rfl⟩

theorem message_of_mockedResponse {topology : TopologyKind} {response : Response} {msg : Message}
    (h : mockedResponse d op topology = .ok response)
    (hmsg : response.message w marshal stamp = .ok msg) :
    ∃ flags, ∃ doc ∈ mockedDocuments stamp, msg = mockMessage w marshal op.requestID flags doc := by
  unfold mockedResponse at h
  simp only at h
  split at h
  · exact ⟨_, message_of_isMasterResponse h hmsg⟩
  split at h
  · cases h
    cases hmsg
    exact ⟨_, buildInfoDocument stamp, List.mem_append_right _ (.head _), rfl⟩
  split at h
  · cases h
    cases hmsg
    exact ⟨_, errorDocument _ _, List.mem_append_right _ (.tail _ (.head _)), rfl⟩
  split at h
  · cases h
    cases hmsg
    exact ⟨_, getParameterDocument, List.mem_append_right _ (.tail _ (.tail _ (.head _))), rfl⟩
  split at h
  · cases h
    cases hmsg
    exact ⟨_, emptyCursorDocument,
      List.mem_append_right _ (.tail _ (.tail _ (.tail _ (.head _)))), rfl⟩
  · exact ⟨_, message_of_isMasterResponse h hmsg⟩

theorem mockedResponse_of_handshake {p : Proxy} {c : Connection} {now : Int} {response : Response}
    (h : (p.handshake d c op now).result = .ok response) :
    ∃ topology, mockedResponse d op topology = .ok response := by
  unfold handshake at h
  split at h
  · split at h
    · cases h
    · exact ⟨_, h⟩
  · exact ⟨_, h⟩

end Mocked

/-! ## The messages that another pod answers -/

/-- The message belongs to a session. -/
def InSession (d : Driver) (op : Operation) : Prop :=
  ∃ t, op.transactionDetails d = some t ∧ t.lsID ≠ []

/-- Another pod answers the message: there is a route and a client for its database, it would go
through the pool, it belongs to a session, and the other pod's reply can be decoded. -/
structure PodAnswers (d : Driver) (p : Proxy) (c : Connection) (databaseName : GoString)
    (op : Operation) (up : Upstream) : Prop where
  served : ∃ ref, p.router.table.route databaseName = .ok ref ∧
    p.useCredentialPassthrough c databaseName (p.routes ref) = false ∧
    ((p.routes ref).mongoClient.isSome = true ∨ up.connect = .ok ())
  pooled : p.poolManager.isSome = true
  forwards : p.forwards = true
  inSession : InSession d op
  replied : ∃ reply op', up.forwardRequest = .ok (some reply) ∧ decode d reply = .ok op'

/-- The messages that another pod answers; handshake commands are not among them. -/
def AnsweredByPod (d : Driver) (p : Proxy) (c : Connection) (op : Operation) (up : Upstream) :
    Prop :=
  isHandshake d op = false ∧
    p.PodAnswers d (extractDatabaseName d c op).2 (extractDatabaseName d c op).1 op up

section Trip

variable {d : Driver} {p : Proxy} {c : Connection} {databaseName : GoString} {client : MongoClient}
  {wm : Bytes} {op : Operation} {up : Upstream} {response : Response}

theorem inSession_iff :
    InSession d op ↔ ((op.transactionDetails d).map (formatHex ·.lsID)).getD [] ≠ [] := by
  unfold InSession
  cases op.transactionDetails d with
  | none => simp
  | some t =>
    have hhex : formatHex t.lsID = [] ↔ t.lsID = [] := by
      cases t.lsID <;> simp [formatHex]
    simp [hhex]

/-- Another pod's reply is taken in a session only, if it can be decoded. -/
theorem forwardToPod_eq_ok_iff : p.forwardToPod d op up = some (.ok response) ↔
      p.forwards = true ∧ InSession d op ∧
        ∃ reply op', up.forwardRequest = .ok (some reply) ∧ decode d reply = .ok op' ∧
          response = .fromPod op' := by
  rw [inSession_iff]
  unfold forwardToPod
  by_cases hf : p.forwards = true ∧ ((op.transactionDetails d).map (formatHex ·.lsID)).getD [] ≠ []
  · cases up.forwardRequest with
    | error e => simp
    | ok o =>
      cases o with
      | none => simp
      | some reply =>
        cases hdecode : decode d reply with
        | error e => simp [hdecode]
        | ok op' => simp [hdecode, hf.1, hf.2, eq_comm]
  · rw [if_neg (by simpa using hf)]
    simp only [reduceCtorEq, false_iff]
    rintro ⟨h1, h2, -⟩
    exact hf ⟨h1, h2⟩

theorem fromCluster_call (hack : op.unacknowledged = false)
    (h : (p.call d client wm op up).1 = .ok response) :
    ∃ msg, response = .upstream msg ∧ FromCluster d up.script msg := by
  unfold call at h
  simp only at h
  cases hr : (MongoBouncer.roundTrip d client.id (.of d wm op) up.script p.world).result with
  | error e =>
    rw [hr] at h
    cases h
  | ok msg =>
    rw [hr] at h
    cases h
    exact ⟨msg, rfl, fromCluster_roundTrip hack hr⟩

theorem fromCluster_pooledCall {m : Manager} (hack : op.unacknowledged = false)
    (h : (p.pooledCall d m c databaseName client wm op up).1 = .ok response) :
    ∃ msg, response = .upstream msg ∧ FromCluster d up.script msg := by
  unfold pooledCall at h
  simp only at h
  split at h
  · cases h
  · split at h
    · cases h
    · exact fromCluster_call hack h

theorem trip_eq_ok (hack : op.unacknowledged = false)
    (h : (p.trip d c databaseName client wm op up).1 = .ok response) :
    (∃ msg, response = .upstream msg ∧ FromCluster d up.script msg) ∨
      p.poolManager.isSome = true ∧ c.isUsingCredentialPassthrough = false ∧
        p.forwardToPod d op up = some (.ok response) := by
  unfold trip at h
  split at h
  · rename_i m hpool hpass
    unfold roundTripWithPool at h
    cases hpod : p.forwardToPod d op up with
    | some result =>
      rw [hpod] at h
      simp only at h
      exact Or.inr ⟨by rw [hpool]; rfl, hpass, by rw [h]⟩
    | none =>
      rw [hpod] at h
      simp only at h
      split at h
      · cases h
      · exact Or.inl (fromCluster_pooledCall hack h)
  · exact Or.inl (fromCluster_call hack h)

theorem trip_of_forwardToPod {result : Except GoError Response} (hpool : p.poolManager.isSome = true)
    (hpass : c.isUsingCredentialPassthrough = false) (hpod : p.forwardToPod d op up = some result) :
    (p.trip d c databaseName client wm op up).1 = result := by
  obtain ⟨m, hm⟩ := Option.isSome_iff_exists.mp hpool
  unfold trip roundTripWithPool
  simp only [hm, hpass, hpod]

theorem forwardToPod_congr {p' : Proxy} (h : p'.forwards = p.forwards) :
    p'.forwardToPod d op up = p.forwardToPod d op up := by
  unfold forwardToPod
  rw [h]

theorem Chooses.forwards {ref : RouteRef} {r : Except GoError MongoClient} {p' : Proxy}
    (h : p.Chooses c ref databaseName up r p') : p'.forwards = p.forwards := by
  cases h with
  | _ => rfl

theorem selectClient_ok_iff {ref : RouteRef} (hpass : c.isUsingCredentialPassthrough = false) :
    (∃ client, (p.selectClient c ref databaseName up).1 = .ok client) ↔
      (p.routes ref).mongoClient.isSome = true ∨ up.connect = .ok () := by
  unfold selectClient
  simp only [hpass, Bool.false_eq_true, if_false]
  cases hclient : (p.routes ref).mongoClient with
  | some client => simp
  | none =>
    simp only [createLazyMongoClient, hclient, connect]
    cases up.connect with
    | error e => simp
    | ok u => simp

theorem result_forward {ref : RouteRef} (hroute : p.router.table.route databaseName = .ok ref) :
    (p.forward d c databaseName wm op up).result =
      match (p.routed up.now databaseName).selectClient (p.prepared c databaseName ref) ref
        databaseName up with
      | (.error e, _) => .error e
      | (.ok client, p₂) =>
        (p₂.trip d (p.prepared c databaseName ref) databaseName client wm op up).1 := by
  have hget : p.getRoute up.now databaseName = (.ok ref, p.routed up.now databaseName) :=
    Prod.ext ((p.getRoute_ok up.now databaseName).trans hroute) rfl
  unfold forward
  rw [hget]
  simp only
  have hprepared : ({ c with
      intendedDatabase := databaseName
      isUsingCredentialPassthrough := (p.routed up.now databaseName).useCredentialPassthrough c
        databaseName ((p.routed up.now databaseName).routes ref) } : Connection) =
      p.prepared c databaseName ref := rfl
  rw [hprepared]
  cases (p.routed up.now databaseName).selectClient (p.prepared c databaseName ref) ref databaseName
      up with
  | mk r p₂ =>
    cases r with
    | error e => rfl
    | ok client => rfl

/-- An acknowledged message that is no handshake command gets the reply of the cluster, or another
pod answers it. -/
theorem forward_eq_ok (hack : op.unacknowledged = false)
    (h : (p.forward d c databaseName wm op up).result = .ok response) :
    (∃ msg, response = .upstream msg ∧ FromCluster d up.script msg) ∨
      p.PodAnswers d c databaseName op up := by
  cases hroute : p.router.table.route databaseName with
  | error e =>
    have hforwards := forwards_forward d p c databaseName wm op up
    generalize p.forward d c databaseName wm op up = out at h hforwards
    cases hforwards with
    | unrouted _ => cases h
    | unserved hroute' | served hroute' => cases hroute.symm.trans hroute'
  | ok ref =>
    have hchoose := chooses_selectClient (p.routed up.now databaseName)
      (p.prepared c databaseName ref) ref databaseName up
    rw [result_forward hroute] at h
    split at h
    · cases h
    · rename_i client p₂ hsel
      rw [hsel] at hchoose
      rcases trip_eq_ok hack h with hcluster | ⟨hpool, hpass, hpod⟩
      · exact Or.inl hcluster
      · right
        rw [hchoose.poolManager] at hpool
        rw [forwardToPod_congr hchoose.forwards, forwardToPod_eq_ok_iff] at hpod
        obtain ⟨hforwards, hsession, reply, op', hreply, hdecode, -⟩ := hpod
        have hclient := (selectClient_ok_iff hpass).mp ⟨client, congrArg Prod.fst hsel⟩
        exact ⟨⟨ref, hroute, hpass, hclient⟩, hpool, hforwards, hsession, reply, op', hreply,
          hdecode⟩

theorem forward_of_podAnswers (h : p.PodAnswers d c databaseName op up) (wm : Bytes) :
    ∃ op', (p.forward d c databaseName wm op up).result = .ok (.fromPod op') := by
  obtain ⟨ref, hroute, hpass, hclient⟩ := h.served
  obtain ⟨reply, op', hreply, hdecode⟩ := h.replied
  refine ⟨op', ?_⟩
  have hchoose := chooses_selectClient (p.routed up.now databaseName)
    (p.prepared c databaseName ref) ref databaseName up
  have hsome : ∃ client, ((p.routed up.now databaseName).selectClient
      (p.prepared c databaseName ref) ref databaseName up).1 = .ok client :=
    (selectClient_ok_iff hpass).mpr hclient
  rw [result_forward hroute]
  split
  · rename_i e p₂ hsel
    rw [hsel] at hsome
    obtain ⟨client, hclient⟩ := hsome
    cases hclient
  · rename_i client p₂ hsel
    rw [hsel] at hchoose
    refine trip_of_forwardToPod (hchoose.poolManager ▸ h.pooled) hpass ?_
    rw [forwardToPod_congr hchoose.forwards, forwardToPod_eq_ok_iff]
    exact ⟨h.forwards, h.inSession, reply, op', hreply, hdecode, rfl⟩

end Trip

/-! ## Whole replies -/

section Replies

variable {d : Driver} {w : Appender} {marshal : BsonD → Document} {stamp : Stamp} {wm : Bytes}
  {op : Operation}

theorem answers_mockMessage (hd : d.Layout) (hheader : Consumes d.readHeader Header.bytes)
    (hw : w.Layout) (hdecode : decode d wm = .ok op) (flags : Int32) {doc : BsonD}
    (hdoc : Marshalled (marshal doc)) :
    Answers d wm (mockMessage w marshal op.requestID flags doc) := by
  have hmock := decode_mockMessage hd hw op.requestID flags hdoc
  refine ⟨ne_nil_of_decode hheader hmock, ⟨_, rfl, hmock⟩, ?_⟩
  obtain ⟨header, rest, hread, hto⟩ : ∃ header rest,
      d.readHeader (mockMessage w marshal op.requestID flags doc).wm = some (header, rest) ∧
        header.responseTo = op.requestID := readHeader_mockMessage hd hw op.requestID flags
  show responseTo d _ = requestID d wm
  rw [requestID_of_decode hdecode, responseTo, hread]
  exact congrArg some hto

theorem answers_of_fromCluster (hheader : Consumes d.readHeader Header.bytes) {up : Upstream}
    (hup : up.RepliesTo d wm) {msg : Message} (h : FromCluster d up.script msg) :
    Answers d wm msg := by
  obtain ⟨i, reply, op', hread, hreply, rfl⟩ := h
  exact ⟨ne_nil_of_decode hheader hreply, ⟨op', rfl, hreply⟩, hup i reply op' hread hreply⟩

/-- **An acknowledged message gets a whole reply of its own, unless another pod answers it.** Mocked
replies and those of a cluster that answers what it is sent are whole; another pod's reply is
returned without its bytes. -/
theorem reply_answers_iff (hd : d.Layout) (hheader : Consumes d.readHeader Header.bytes)
    (hw : w.Layout) (hmarshal : ∀ doc ∈ mockedDocuments stamp, Marshalled (marshal doc))
    (hdecode : decode d wm = .ok op) (hack : op.unacknowledged = false) (p : Proxy) (c : Connection)
    {up : Upstream} (hup : up.RepliesTo d wm) :
    (∀ msg, p.replyMessage w marshal stamp d c wm op up = .ok msg → Answers d wm msg) ↔
      ¬ p.AnsweredByPod d c op up := by
  constructor
  · rintro hall ⟨hhs, hpod⟩
    obtain ⟨op', hresult⟩ := forward_of_podAnswers hpod wm
    have hmsg : p.replyMessage w marshal stamp d c wm op up = .ok { wm := [], op := some op' } := by
      rw [replyMessage, roundTrip_of_not_handshake hhs, hresult]
      rfl
    exact (hall _ hmsg).wm_ne_nil rfl
  · intro hpod msg hmsg
    unfold replyMessage at hmsg
    cases hresult : (p.roundTrip d c wm op up).result with
    | error e =>
      rw [hresult] at hmsg
      cases hmsg
    | ok response =>
      rw [hresult] at hmsg
      replace hmsg : response.message w marshal stamp = .ok msg := hmsg
      cases hhs : isHandshake d op with
      | true =>
        rw [roundTrip_of_handshake hhs] at hresult
        obtain ⟨topology, hmock⟩ := mockedResponse_of_handshake hresult
        obtain ⟨flags, doc, hmem, rfl⟩ := message_of_mockedResponse hmock hmsg
        exact answers_mockMessage hd hheader hw hdecode flags (hmarshal doc hmem)
      | false =>
        rw [roundTrip_of_not_handshake hhs] at hresult
        rcases forward_eq_ok hack hresult with ⟨msg', rfl, hcluster⟩ | hpod'
        · cases hmsg
          exact answers_of_fromCluster hheader hup hcluster
        · exact absurd ⟨hhs, hpod'⟩ hpod

end Replies

end Proxy

/-! ## Two finds -/

/-- A proxy with a pool and a forwarder, and one database. -/
def forwardingProxy : Proxy :=
  (Service.start (.new false false false true (some (.new (lit "session") 0)) none)
    [shopEntry]).proxy

/-- The surroundings of the builders. -/
def sampleStamp : Stamp := { ms := 1700000000000, objectID := List.replicate 12 7 }

def okReply (responseTo : Int32) : Bytes :=
  (mockMessage plainAppender Bson.marshal responseTo 8 [("ok", .one)]).wm

/-- A cluster that answers message 1. A pod gets the message with request id 0, and answers
that. -/
def twoPods : Upstream :=
  { calmUpstream with
    script := .steady (.answering ⟨0, true⟩ none (.ok (okReply 1)))
    forwardRequest := .ok (some (okReply 0)) }

/-- A query within a transaction. -/
def shopFindIn : List (String × Value) :=
  [("find", .string (lit "users")), ("$db", .string (lit "shop")),
   ("lsid", Bson.embedded [("id", .binary 4 [1, 2, 3, 4])]), ("txnNumber", .int64 5),
   ("autocommit", .boolean false), ("startTransaction", .boolean true)]

theorem twoPods_repliesTo (fields : List (String × Value))
    (h : RepliesTo plainDriver (okReply 1) (Bson.opMsgBytes fields)) :
    twoPods.RepliesTo plainDriver (Bson.opMsgBytes fields) := by
  intro i reply op hread _
  cases hread
  exact h

theorem marshalled_mockedDocuments :
    ∀ doc ∈ mockedDocuments sampleStamp, Marshalled (Bson.marshal doc) := by decide +kernel

/-- The query outside of a transaction is answered by the cluster. -/
theorem shopFind_answered :
    forwardingProxy.replyMessage plainAppender Bson.marshal sampleStamp plainDriver
        (.new (lit "10.0.0.7:5000")) shopFind
        (Bson.opMsg [("find", .string (lit "users")), ("$db", .string (lit "shop"))]) twoPods =
      .ok { wm := okReply 1, op := some (.reply (mockReply 8 (Bson.marshal [("ok", .one)]))) } ∧
    ∀ msg, forwardingProxy.replyMessage plainAppender Bson.marshal sampleStamp plainDriver
        (.new (lit "10.0.0.7:5000")) shopFind
        (Bson.opMsg [("find", .string (lit "users")), ("$db", .string (lit "shop"))]) twoPods =
          .ok msg → Answers plainDriver shopFind msg := by
  refine ⟨by decide +kernel, (Proxy.reply_answers_iff layout_plainDriver consumes_readHeader
    layout_plainAppender marshalled_mockedDocuments ?_ rfl forwardingProxy _ ?_).mpr ?_⟩
  · decide +kernel
  · exact twoPods_repliesTo _ (by decide +kernel)
  · rintro ⟨-, hpod⟩
    obtain ⟨t, ht, -⟩ := hpod.inSession
    have hnone : (Bson.opMsg [("find", .string (lit "users")),
        ("$db", .string (lit "shop"))]).transactionDetails plainDriver = none := by decide +kernel
    rw [hnone] at ht
    cases ht

/-- The query within a transaction is forwarded to the other pod, which answers what it is sent;
its client gets no bytes. -/
theorem shopFindIn_without_bytes :
    decode plainDriver (Bson.opMsgBytes shopFindIn) = .ok (Bson.opMsg shopFindIn) ∧
    (Bson.opMsg shopFindIn).unacknowledged = false ∧
    RepliesTo plainDriver (okReply 0) ((Bson.opMsg shopFindIn).encode plainAppender 1) ∧
    ∃ msg, forwardingProxy.replyMessage plainAppender Bson.marshal sampleStamp plainDriver
        (.new (lit "10.0.0.7:5000")) (Bson.opMsgBytes shopFindIn) (Bson.opMsg shopFindIn) twoPods =
          .ok msg ∧ msg.wm = [] ∧ ¬ Answers plainDriver (Bson.opMsgBytes shopFindIn) msg := by
  have hrun : decode plainDriver (Bson.opMsgBytes shopFindIn) = .ok (Bson.opMsg shopFindIn) ∧
      RepliesTo plainDriver (okReply 0) ((Bson.opMsg shopFindIn).encode plainAppender 1) ∧
      forwardingProxy.replyMessage plainAppender Bson.marshal sampleStamp plainDriver
        (.new (lit "10.0.0.7:5000")) (Bson.opMsgBytes shopFindIn) (Bson.opMsg shopFindIn) twoPods =
          .ok { wm := [], op := some (.reply (mockReply 8 (Bson.marshal [("ok", .one)]))) } := by
    decide +kernel
  exact ⟨hrun.1, rfl, hrun.2.1, _, hrun.2.2, rfl, fun h => h.wm_ne_nil rfl⟩

end MongoBouncer
