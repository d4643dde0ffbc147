import MongoBouncer.Mongo.Transparency
import MongoBouncer.Wire.Encode
import MongoBouncer.Proxy.DatabaseName

/-!
# Cursors stay with their server

A reply that opens a cursor is entered in the client's cursor cache, under the cursor id and the
collection of the request. A getMore is looked up under its cursor id and its own collection field,
which names the part of `cursor.ns` after the database.

* `Call.answer`      : the server that answered a call, and its reply;
* `CursorCommand`    : the commands that open cursors, and the namespace that MongoDB gives them;
* `CursorRun`        : what may happen between the opening call and the getMore. The entry is not
  lost, and no other server answers with the same cursor.

Principal results: `cursor_keys_apart` (keys do not collide), `cursors_run` (what a call makes of
the cursor caches), `CursorRun.kept` (the entry stays with its server) and `getMore_affinity_iff`.
-/

namespace MongoBouncer

open GoStd Lruttl Function

/-! ## The cursor cache -/

namespace CursorCache

theorem buildKey_inj {id id' : Int64} {coll coll' : GoString}
    (h : buildKey id coll = buildKey id' coll') : id = id' ∧ coll = coll' := by
  have hdash : ∀ s : GoString, lit "-" ++ s = 0x2D :: s := fun s => rfl
  have hkeys : formatInt id.toInt ++ 0x2D :: coll = formatInt id'.toInt ++ 0x2D :: coll' := by
    simpa only [buildKey, List.append_assoc, hdash] using h
  obtain ⟨hid, hcoll⟩ := formatInt_dash_inj hkeys
  exact ⟨Int64.toInt_inj.mp hid, hcoll⟩

end CursorCache

theorem DistributedCache.cursorKey_inj {id id' : Int64} {coll coll' : GoString}
    (h : cursorKey id coll = cursorKey id' coll') : id = id' ∧ coll = coll' := by
  have hcut : ∀ (id : Int64) coll, cutByte 0x5F (formatInt id.toInt ++ 0x5F :: coll) =
      some (formatInt id.toInt, coll) := fun id coll =>
    cutByte_eq_some.mpr ⟨rfl, not_mem_formatInt (by decide) (by decide) _⟩
  have hkeys : formatInt id.toInt ++ 0x5F :: coll = formatInt id'.toInt ++ 0x5F :: coll' := by
    simp only [cursorKey, List.append_assoc] at h
    exact List.append_cancel_left h
  have hparts := hcut id coll
  rw [hkeys, hcut, Option.some.injEq, Prod.mk.injEq] at hparts
  have hid : formatInt id.toInt ++ [0x2D] = formatInt id'.toInt ++ [0x2D] := by rw [hparts.1]
  exact ⟨Int64.toInt_inj.mp (formatInt_dash_inj hid).1, hparts.2.symm⟩

/-- **Cursor keys do not collide.** A cursor id and a collection can be read off their key in the
cursor cache and in the distributed cache, so what is done for one cursor leaves the entries of the
others as they are, except that a new entry may push out an old one. -/
theorem cursor_keys_apart (id id' : Int64) (coll coll' : GoString) :
    (CursorCache.buildKey id coll = CursorCache.buildKey id' coll' ↔ (id, coll) = (id', coll')) ∧
    (DistributedCache.cursorKey id coll = DistributedCache.cursorKey id' coll' ↔
      (id, coll) = (id', coll')) ∧
    ((id, coll) ≠ (id', coll') → ∀ (c : CursorCache) (dc : DistributedCache),
      (∀ now server name info,
        LruTtl.peek (c.add now id coll server name) (CursorCache.buildKey id' coll') = some info →
          LruTtl.peek c (CursorCache.buildKey id' coll') = some info) ∧
      LruTtl.peek (c.remove id coll) (CursorCache.buildKey id' coll') =
        LruTtl.peek c (CursorCache.buildKey id' coll') ∧
      (∀ name, (dc.storeCursor id coll name).getCursor id' coll' = dc.getCursor id' coll') ∧
      (dc.removeCursor id coll).getCursor id' coll' = dc.getCursor id' coll') := by
  have hlocal : CursorCache.buildKey id coll = CursorCache.buildKey id' coll' ↔
      (id, coll) = (id', coll') := by
    rw [Prod.mk.injEq]
    refine ⟨CursorCache.buildKey_inj, ?_⟩
    rintro ⟨rfl, rfl⟩
    rfl
  have hshared : DistributedCache.cursorKey id coll = DistributedCache.cursorKey id' coll' ↔
      (id, coll) = (id', coll') := by
    rw [Prod.mk.injEq]
    refine ⟨DistributedCache.cursorKey_inj, ?_⟩
    rintro ⟨rfl, rfl⟩
    rfl
  refine ⟨hlocal, hshared, ?_⟩
  intro hne c dc
  have hkey : CursorCache.buildKey id' coll' ≠ CursorCache.buildKey id coll :=
    fun h => hne (hlocal.mp h.symm)
  have hkey' : DistributedCache.cursorKey id' coll' ≠ DistributedCache.cursorKey id coll :=
    fun h => hne (hshared.mp h.symm)
  refine ⟨?_, ?_, ?_, ?_⟩
  · intro now server name info hpeek
    exact (LruTtl.peek_of_peek_add hpeek).resolve_left hkey
  · rw [CursorCache.remove, LruTtl.peek_remove, if_neg hkey]
  · intro name
    exact update_of_ne hkey' _ _
  · exact update_of_ne hkey' _ _

namespace CursorCache

/-- The server that the local cache has for a cursor. -/
def server (c : CursorCache) (id : Int64) (coll : GoString) : Option Server :=
  (LruTtl.peek c (buildKey id coll)).map CursorInfo.server

/-- The cursor cache after a reply. -/
def recorded (c : CursorCache) (req : Request) (server : Server) (responseCursorID : Option Int64)
    (now : Int) (databaseName : GoString) : CursorCache :=
  match responseCursorID with
  | none => c
  | some id =>
    if id ≠ 0 then c.add now id req.collection server databaseName
    else if req.cursorID ≠ 0 then c.remove req.cursorID req.collection
    else c

/-- A sweep of `expireLoop`: the oldest record goes if it has expired. -/
def expire (c : CursorCache) (now : Int) : CursorCache :=
  ⟨(c.raw.removeOldestExpired now).2, by
    unfold Cache.removeOldestExpired
    split
    · exact c.wf.removeOldest
    · exact c.wf⟩

variable {id : Int64} {c : CursorCache} {s : Server} {now : Int} {coll : GoString}

theorem server_recorded_self (c : CursorCache) (req : Request) (s : Server)
    (hid : id ≠ 0) (now : Int) (databaseName : GoString) :
    (c.recorded req s (some id) now databaseName).server id req.collection = some s := by
  simp only [recorded, if_pos hid, server, add, LruTtl.peek_add_self, Option.map_some]

theorem server_of_recorded {req : Request} {s' : Server}
    {responseCursorID : Option Int64} {databaseName : GoString}
    (h : (c.recorded req s responseCursorID now databaseName).server id coll = some s') :
    c.server id coll = some s' ∨
      responseCursorID = some id ∧ id ≠ 0 ∧ req.collection = coll ∧ s' = s := by
  unfold recorded at h
  split at h
  · exact Or.inl h
  · rename_i id'
    split at h
    · rename_i hid'
      by_cases hkey : buildKey id coll = buildKey id' req.collection
      · obtain ⟨rfl, rfl⟩ := buildKey_inj hkey
        right
        simp only [server, add, LruTtl.peek_add_self, Option.map_some, Option.some.injEq] at h
        exact ⟨rfl, hid', rfl, h.symm⟩
      · left
        obtain ⟨info, hinfo, hs⟩ := Option.map_eq_some_iff.mp h
        rcases LruTtl.peek_of_peek_add hinfo with heq | hold
        · exact absurd heq hkey
        · exact Option.map_eq_some_iff.mpr ⟨info, hold, hs⟩
    · split at h
      · left
        simp only [server, remove, LruTtl.peek_remove] at h ⊢
        split at h
        · cases h
        · exact h
      · exact Or.inl h

theorem server_of_expire
    (h : (c.expire now).server id coll = some s) : c.server id coll = some s := by
  obtain ⟨info, hinfo, hs⟩ := Option.map_eq_some_iff.mp h
  refine Option.map_eq_some_iff.mpr ⟨info, ?_, hs⟩
  have hraw : (c.raw.removeOldestExpired now).2.peek (buildKey id coll) = some info := hinfo
  unfold Cache.removeOldestExpired at hraw
  split at hraw
  · exact Cache.peek_removeOldest_eq_some c.wf hraw
  · exact hraw

end CursorCache

/-! ## The server that answers a call -/

/-- What an attempt in world `w` returned, if it is a reply, and the server it chose. -/
def answerOf (m : ClientID) (req : Request) (session : Option Ref) (up : Attempt)
    (w : World) : Except GoError Message → Option (Server × Operation)
  | .ok { op := some op, .. } =>
    match w.chooseServer m req session up with
    | .ok (some server) => some (server, op)
    | _ => none
  | _ => none

section Answer

variable (d : Driver) (m : ClientID) (req : Request) (session : Option Ref) (script : Script)

/-- From attempt `i` on: the server of the attempt that returns a reply, and the reply. -/
def answerFrom : Nat → Nat → Frame → Option (Server × Operation)
  | 0, _, _ => none
  | n + 1, i, f =>
    match attempt d m req session script i f with
    | .next f' => answerFrom n (i + 1) f'
    | .exit res _ => answerOf m req session (script.attempt i) f.world res

end Answer

/-- The server that answered the call, and its reply. -/
def Call.answer (d : Driver) (c : Call) (w : World) : Option (Server × Operation) :=
  if (w.clients c.client).closed then none
  else
    let (session, w') := w.enter (c.request d) c.script.now
    answerFrom d c.client (c.request d) session c.script (maxRetries + 1) 0
      { world := w', deferred := [], events := [] }

section AnswerSpec

variable {d : Driver} {m : ClientID} {req : Request} {session : Option Ref} {script : Script}

theorem cursors_updateTransactions (w : World) (m m' : ClientID) (req : Request) (server : Server)
    (now : Int) :
    ((w.updateTransactions m req server now).clients m').cursors = (w.clients m').cursors := by
  have hset : ∀ transactions : TransactionCache,
      (update w.clients m { w.clients m with transactions } m').cursors =
        (w.clients m').cursors := by
    intro transactions
    by_cases hm : m' = m
    · rw [hm, update_self]
    · rw [update_of_ne hm]
  unfold World.updateTransactions
  split
  · rfl
  · split
    · exact hset _
    · split
      · exact hset _
      · rfl

theorem cursors_updateCursors (w : World) (m : ClientID) (req : Request) (server : Server)
    (id : Option Int64) (now : Int) :
    ∃ databaseName, ∀ m', ((w.updateCursors m req server id now).clients m').cursors =
      if m' = m then (w.clients m).cursors.recorded req server id now databaseName
      else (w.clients m').cursors := by
  have hupdate : ∀ (cursors : CursorCache) (m' : ClientID),
      (update w.clients m { w.clients m with cursors } m').cursors =
        if m' = m then cursors else (w.clients m').cursors := by
    intro cursors m'
    by_cases hm : m' = m
    · subst hm
      rw [update_self, if_pos rfl]
    · rw [update_of_ne hm, if_neg hm]
  have hself : ∀ m', (w.clients m').cursors =
      if m' = m then (w.clients m).cursors else (w.clients m').cursors := by
    intro m'
    split
    · rename_i hm
      rw [hm]
    · rfl
  unfold World.updateCursors CursorCache.recorded
  cases id with
  | none => exact ⟨[], hself⟩
  | some id =>
    by_cases hid : id ≠ 0
    · simp only [if_pos hid]
      exact ⟨_, fun m' => hupdate _ m'⟩
    · by_cases hreq : req.cursorID ≠ 0
      · simp only [if_neg hid, if_pos hreq]
        exact ⟨[], fun m' => hupdate _ m'⟩
      · simp only [if_neg hid, if_neg hreq]
        exact ⟨[], hself⟩

/-- What a call on client `m` has made of the cursor caches `clients`, by its answer: without one
they are as they were, else they have what the chosen server replied. -/
inductive Answered (d : Driver) (m : ClientID) (req : Request) (session : Option Ref)
    (clients clients' : ClientID → Mongo) : Option (Server × Operation) → Prop where
  | silent (h : clients' = clients) : Answered d m req session clients clients' none
  | replied (server : Server) (op : Operation) (now : Int) (databaseName : GoString)
      (v : World) (up : Attempt) (hv : v.clients = clients)
      (hchosen : v.chooseServer m req session up = .ok (some server))
      (h : ∀ m', (clients' m').cursors =
        if m' = m then (clients m).cursors.recorded req server (op.cursorID d) now databaseName
        else (clients m').cursors) :
      Answered d m req session clients clients' (some (server, op))

theorem attempt_answered (d : Driver) (m : ClientID) (script : Script)
    (hs : SessionOf req session) (i : Nat) (f : Frame) :
    (attempt d m req session script i f).Meets (fun f' => f'.world.clients = f.world.clients)
      (fun res f' => Answered d m req session f.world.clients f'.world.clients
        (answerOf m req session (script.attempt i) f.world res)) := by
  refine attempt_reply_rule hs (fun _ h => h) ?_ ?_
  · intro res f' h hres
    unfold answerOf
    split
    · cases hres
    · exact .silent h
  · intro server wm op w₁ f' hserver hw₁ hf' _ _
    obtain ⟨databaseName, hcursors⟩ := cursors_updateCursors w₁ m req server (op.cursorID d)
      (script.attempt i).now
    have hreply : answerOf m req session (script.attempt i) f.world (.ok ⟨wm, some op⟩) =
        some (server, op) := by
      simp only [answerOf, hserver]
    rw [hreply]
    refine .replied server op (script.attempt i).now databaseName f.world (script.attempt i) rfl
      hserver ?_
    intro m'
    rw [hf', cursors_updateTransactions, hcursors, hw₁]

theorem answerFrom_answered (hs : SessionOf req session) (dflt : Except GoError Message)
    (clients : ClientID → Mongo) :
    ∀ (n i : Nat) (f : Frame), f.world.clients = clients → Answered d m req session clients
        (forLoop (attempt d m req session script) dflt n i f).2.world.clients
        (answerFrom d m req session script n i f) := by
  intro n
  induction n with
  | zero =>
    intro i f hf
    exact .silent hf
  | succ n ih =>
    intro i f hf
    have hstep := attempt_answered d m script hs i f
    rw [hf] at hstep
    unfold answerFrom forLoop
    cases hatt : attempt d m req session script i f with
    | next f' =>
      rw [hatt] at hstep
      exact ih (i + 1) f' hstep
    | exit res f' =>
      rw [hatt] at hstep
      exact hstep

end AnswerSpec

theorem clients_enter (w : World) (req : Request) (now : Int) :
    (w.enter req now).2.clients = w.clients := by
  unfold World.enter
  cases req.details with
  | none => rfl
  | some t => exact (w.openSession_opened t now).clients

/-- **What a call makes of the cursor caches.** -/
theorem cursors_run (d : Driver) (c : Call) (w : World) :
    Answered d c.client (c.request d) (w.enter (c.request d) c.script.now).1 w.clients
      (c.run d w).world.clients (c.answer d w) := by
  unfold Call.run Call.answer
  cases hclosed : (w.clients c.client).closed with
  | true =>
    rw [roundTrip_closed hclosed]
    exact .silent rfl
  | false =>
    rw [roundTrip_open hclosed, retryLoop_world, (runDeferred_frame _ _).1]
    exact answerFrom_answered (sessionOf_enter w _ _) _ w.clients _ _ _ (clients_enter w _ _)

/-! ## Between the opening call and the getMore -/

/-- A sweep of the cursor cache of a client. -/
def World.expireCursors (w : World) (m : ClientID) (now : Int) : World :=
  let c := w.clients m
  { w with clients := update w.clients m { c with cursors := c.cursors.expire now } }

/-- The server that the cursor cache of a client has for a cursor. -/
def World.cursorServer (w : World) (m : ClientID) (id : Int64) (coll : GoString) : Option Server :=
  (w.clients m).cursors.server id coll

/-- The message asks for more of the cursor, outside of transactions. -/
def Request.PlainGetMore (req : Request) (id : Int64) (coll : GoString) : Prop :=
  req.cursorID = id ∧ req.collection = coll ∧ req.details = none

/-- What may happen while the cursor `id` of collection `coll`, which client `m` has got from server
`s`, is alive: calls of all clients, sweeps of the cursor caches, and whatever leaves these caches
alone. The entry of the cursor is not lost, that is, the cursor is not exhausted, evicted or
expired, and it is a cursor of `s` only: another server does not open one with the same id, and
does not answer a getMore for it inside a transaction. -/
inductive CursorRun (d : Driver) (m : ClientID) (id : Int64) (coll : GoString) (s : Server) :
    World → World → Prop where
  | refl (w : World) : CursorRun d m id coll s w w
  | call {w w' : World} (h : CursorRun d m id coll s w w') (c : Call)
      (hlive : (w'.cursorServer m id coll).isSome →
        ((c.run d w').world.cursorServer m id coll).isSome)
      (hown : ∀ s' op, c.client = m → c.answer d w' = some (s', op) → op.cursorID d = some id →
        (c.request d).collection = coll → ¬ (c.request d).PlainGetMore id coll → s' = s) :
      CursorRun d m id coll s w (c.run d w').world
  | expire {w w' : World} (h : CursorRun d m id coll s w w') (k : ClientID) (now : Int)
      (hlive : (w'.cursorServer m id coll).isSome →
        ((w'.expireCursors k now).cursorServer m id coll).isSome) :
      CursorRun d m id coll s w (w'.expireCursors k now)
  | other {w w' : World} (h : CursorRun d m id coll s w w') (w'' : World)
      (hsame : ∀ k, (w''.clients k).cursors = (w'.clients k).cursors) :
      CursorRun d m id coll s w w''

section Run

variable {d : Driver} {m : ClientID} {id : Int64} {coll : GoString} {s : Server} {w w' : World}

theorem cachedServer_of_cursorServer {req : Request} (hid : req.cursorID ≠ 0)
    (htxn : req.details.bind (fun t =>
      (w.clients m).transactions.peek (w.cacheOf m) t.lsID) = none)
    (h : w.cursorServer m req.cursorID req.collection = some s) :
    w.cachedServer m req = some (some s) := by
  obtain ⟨info, hinfo, hs⟩ := Option.map_eq_some_iff.mp h
  simp only [World.cachedServer, htxn, if_pos hid, CursorCache.peek, hinfo, hs]

theorem answer_of_plainGetMore {c : Call} {s' : Server} {op : Operation} (hid : id ≠ 0)
    (hreq : (c.request d).PlainGetMore id coll) (h : w.cursorServer c.client id coll = some s)
    (hanswer : c.answer d w = some (s', op)) : s' = s := by
  obtain ⟨rfl, rfl, hdetails⟩ := hreq
  have hrun := cursors_run d c w
  rw [hanswer] at hrun
  cases hrun with
  | replied _ _ now databaseName v up hv hchosen hcursors =>
    have hsession : (w.enter (c.request d) c.script.now).1 = none := by
      simp only [World.enter, hdetails]
    have hcached : v.cachedServer c.client (c.request d) = some (some s) := by
      apply cachedServer_of_cursorServer hid
      · rw [hdetails]
        rfl
      · rw [World.cursorServer, hv]
        exact h
    rw [hsession] at hchosen
    simp only [World.chooseServer, Option.bind_none, World.selectServer, hcached] at hchosen
    cases hchosen
    rfl

theorem cursorServer_call (hid : id ≠ 0) (c : Call) (h : w.cursorServer m id coll = some s)
    (hlive : ((c.run d w).world.cursorServer m id coll).isSome)
    (hown : ∀ s' op, c.client = m → c.answer d w = some (s', op) → op.cursorID d = some id →
      (c.request d).collection = coll → ¬ (c.request d).PlainGetMore id coll → s' = s) :
    (c.run d w).world.cursorServer m id coll = some s := by
  have hrun := cursors_run d c w
  obtain ⟨s', hs'⟩ := Option.isSome_iff_exists.mp hlive
  rw [hs']
  unfold World.cursorServer at hs' h
  cases hanswer : c.answer d w with
  | none =>
    rw [hanswer] at hrun
    cases hrun with
    | silent hsame =>
      rw [hsame, h] at hs'
      exact hs'.symm
  | some p =>
    obtain ⟨s₀, op⟩ := p
    rw [hanswer] at hrun
    cases hrun with
    | replied _ _ now databaseName v up hv hchosen hcursors =>
      rw [hcursors m] at hs'
      by_cases hm : m = c.client
      · subst hm
        rw [if_pos rfl] at hs'
        rcases CursorCache.server_of_recorded hs' with hold | ⟨hop, -, hcoll, rfl⟩
        · rw [← hold, h]
        · -- the reply is about this cursor, so it comes from the server of the cursor
          congr 1
          by_cases hplain : (c.request d).PlainGetMore id coll
          · exact answer_of_plainGetMore hid hplain h hanswer
          · exact hown s' op rfl hanswer hop hcoll hplain
      · rw [if_neg hm, h] at hs'
        exact hs'.symm

/-- **A cursor stays with its server.** -/
theorem CursorRun.kept (hid : id ≠ 0) (h : CursorRun d m id coll s w w')
    (hw : w.cursorServer m id coll = some s) : w'.cursorServer m id coll = some s := by
  induction h with
  | refl => exact hw
  | call h c hlive hown ih => exact cursorServer_call hid c ih (hlive (by rw [ih]; rfl)) hown
  | @expire w' h k now hlive ih =>
    obtain ⟨s', hs'⟩ := Option.isSome_iff_exists.mp (hlive (by rw [ih]; rfl))
    rw [hs', ← ih]
    unfold World.cursorServer World.expireCursors at *
    by_cases hk : m = k
    · subst hk
      simp only [update_self] at hs'
      exact (CursorCache.server_of_expire hs').symm
    · simp only [update_of_ne hk] at hs'
      exact hs'.symm
  | other h w'' hsame ih =>
    unfold World.cursorServer at *
    rw [hsame, ih]

end Run

/-! ## Messages about cursors -/

/-- The commands that open a cursor. `aggregateDatabase` is `aggregate: 1`. -/
inductive CursorCommand where
  | find (coll : GoString)
  | aggregate (coll : GoString)
  | aggregateDatabase
  | listCollections
  | listIndexes (coll : GoString)
  deriving DecidableEq, Repr

namespace CursorCommand

/-- The command as the proxy knows it. -/
def command : CursorCommand → Command
  | find _ => .find
  | aggregate _ | aggregateDatabase => .aggregate
  | listCollections => .listCollections
  | listIndexes _ => .listIndexes

/-- What the field of the command holds. -/
def Holds (v : Value) : CursorCommand → Prop
  | find coll | aggregate coll | listIndexes coll => v = .string coll
  | aggregateDatabase => v.stringValueOK = none
  | listCollections => True

/-- The document is of the command: it has its field, and no field of another command. -/
structure Of (c : CursorCommand) (d : Driver) (doc : Document) : Prop where
  field : ∃ v, d.lookup doc [c.command.name] = some v ∧ c.Holds v
  only : ∀ s ∈ collectionCommands ++ int32Commands, s ≠ c.command → d.lookup doc [s.name] = none

/-- The collection that the request names, under which its cursor is stored. -/
def collection : CursorCommand → GoString
  | find coll | aggregate coll | listIndexes coll => coll
  | aggregateDatabase | listCollections => []

/-- The part of `cursor.ns` after the database, as MongoDB sets it. -/
def Namespace (ns : GoString) : CursorCommand → Prop
  | find coll | aggregate coll => ns = coll
  | aggregateDatabase => ns = lit "$cmd.aggregate"
  | listCollections => ns = lit "$cmd.listCollections"
  | listIndexes _ => True

/-- The commands whose cursors are found again. -/
def Affine (ns : GoString) : CursorCommand → Prop
  | find _ | aggregate _ => True
  | listIndexes coll => ns = coll
  | aggregateDatabase | listCollections => False

theorem affine_iff {c : CursorCommand} {ns : GoString} (h : c.Namespace ns) :
    c.Affine ns ↔ c.collection = ns := by
  cases c with
  | find | aggregate => exact iff_of_true trivial (Eq.symm h)
  | listIndexes coll => exact eq_comm
  | aggregateDatabase | listCollections =>
    refine iff_of_false id ?_
    rw [show ns = _ from h]
    decide

end CursorCommand

theorem findSome?_of_unique {α β : Type} {f : α → Option β} {l : List α} {a : α} {b : β}
    (ha : a ∈ l) (hb : f a = some b) (h : ∀ x ∈ l, x ≠ a → f x = none) :
    l.findSome? f = some b := by
  cases hfind : l.findSome? f with
  | none =>
    rw [List.findSome?_eq_none_iff.mp hfind a ha] at hb
    cases hb
  | some b' =>
    obtain ⟨x, hx, hfx⟩ := List.exists_of_findSome?_eq_some hfind
    by_cases hxa : x = a
    · rw [← hfx, hxa, hb]
    · rw [h x hx hxa] at hfx
      cases hfx

theorem find?_of_unique {α : Type} {p : α → Bool} {l : List α} {a : α} (ha : a ∈ l)
    (hp : p a = true) (h : ∀ x ∈ l, x ≠ a → p x = false) : l.find? p = some a := by
  rw [List.find?_eq_findSome?_guard]
  apply findSome?_of_unique ha
  · simp [hp]
  · intro x hx hxa
    simp [h x hx hxa]

section Messages

variable {d : Driver} {doc : Document}

theorem CursorCommand.Of.command_and_collection {c : CursorCommand} (h : c.Of d doc) :
    commandAndCollection d doc = (c.command, c.collection) := by
  obtain ⟨v, hv, hholds⟩ := h.field
  have hother : ∀ s ∈ collectionCommands, s ≠ c.command → lookupString d doc [s.name] = none := by
    intro s hs hne
    rw [lookupString, h.only s (List.mem_append_left _ hs) hne]
    rfl
  -- a collection command whose field is a string is found in the first table
  have hnamed : c.command ∈ collectionCommands → v = .string c.collection →
      commandAndCollection d doc = (c.command, c.collection) := by
    intro hmem hstring
    have hfind : (collectionCommands.findSome? fun s =>
        (lookupString d doc [s.name]).map fun coll => (s, coll)) =
        some (c.command, c.collection) := by
      apply findSome?_of_unique hmem
      · rw [lookupString, hv, hstring]
        rfl
      · intro s hs hne
        rw [hother s hs hne]
        rfl
    simp only [commandAndCollection, hfind]
  -- the others are found in the second one, without a collection
  have hbare : c.command ∈ int32Commands → v.stringValueOK = none ∨ c.command ∉ collectionCommands →
      c.collection = [] → commandAndCollection d doc = (c.command, c.collection) := by
    intro hmem hstring hcoll
    have hnone : (collectionCommands.findSome? fun s =>
        (lookupString d doc [s.name]).map fun coll => (s, coll)) = none := by
      rw [List.findSome?_eq_none_iff]
      intro s hs
      by_cases hne : s = c.command
      · rcases hstring with hstring | hnot
        · rw [hne, lookupString, hv, Option.bind_some, hstring]
          rfl
        · exact absurd (hne ▸ hs) hnot
      · rw [hother s hs hne]
        rfl
    have hfind : (int32Commands.find? fun s => (d.lookup doc [s.name]).isSome) =
        some c.command := by
      apply find?_of_unique hmem
      · rw [hv]
        rfl
      · intro s hs hne
        rw [h.only s (List.mem_append_right _ hs) hne]
        rfl
    simp only [commandAndCollection, hnone, hfind, hcoll]
  cases c with
  | find coll => exact hnamed (show Command.find ∈ collectionCommands by decide) hholds
  | aggregate coll => exact hnamed (show Command.aggregate ∈ collectionCommands by decide) hholds
  | listIndexes coll =>
    exact hnamed (show Command.listIndexes ∈ collectionCommands by decide) hholds
  | aggregateDatabase => exact hbare (by decide) (Or.inl hholds) rfl
  | listCollections => exact hbare (by decide) (Or.inr (by decide)) rfl

/-- The message asks for more of a cursor. -/
structure OpMsg.GetsMore (m : OpMsg) (d : Driver) (id : Int64) (coll : GoString) : Prop where
  document : ∃ doc, m.SoleDocument doc ∧ d.lookup doc [lit "getMore"] = some (.int64 id) ∧
    d.lookup doc [lit "collection"] = some (.string coll) ∧
    ∀ s ∈ collectionCommands ++ int32Commands, d.lookup doc [s.name] = none

/-- The reply has `cursor.id` and `cursor.ns`. -/
structure OpMsg.OpensCursor (m : OpMsg) (d : Driver) (id : Int64) (db coll : GoString) : Prop where
  document : ∃ doc, m.SoleDocument doc ∧ d.lookup doc [lit "getMore"] = none ∧
    d.lookup doc [lit "cursor", lit "id"] = some (.int64 id) ∧
    d.lookup doc [lit "cursor", lit "ns"] = some (.string (db ++ 0x2E :: coll))

theorem OpMsg.SoleDocument.cursorID {m : OpMsg} (h : m.SoleDocument doc) :
    (Operation.msg m).cursorID d = (OpMsgSection.single doc).cursorID d :=
  h.findSome _ fun _ _ => rfl

theorem OpMsg.OpensCursor.cursorID {m : OpMsg} {id : Int64} {db coll : GoString}
    (h : m.OpensCursor d id db coll) : (Operation.msg m).cursorID d = some id := by
  obtain ⟨doc, hsole, hmore, hcursor, -⟩ := h.document
  rw [hsole.cursorID]
  simp only [OpMsgSection.cursorID, hmore, hcursor, Option.bind_none, Option.bind_some,
    Value.int64OK]

theorem OpMsg.GetsMore.request {m : OpMsg} {id : Int64} {coll : GoString}
    (h : m.GetsMore d id coll) (wm : Bytes) :
    (Request.of d wm (.msg m)).cursorID = id ∧ (Request.of d wm (.msg m)).collection = coll := by
  obtain ⟨doc, hsole, hmore, hcoll, honly⟩ := h.document
  have hnone : (collectionCommands.findSome? fun s =>
      (lookupString d doc [s.name]).map fun coll => (s, coll)) = none := by
    rw [List.findSome?_eq_none_iff]
    intro s hs
    rw [lookupString, honly s (List.mem_append_left _ hs)]
    rfl
  have hnone' : (int32Commands.find? fun s => (d.lookup doc [s.name]).isSome) = none := by
    rw [List.find?_eq_none]
    intro s hs
    rw [honly s (List.mem_append_right _ hs)]
    decide
  have hfound : (int64Commands.find? fun s => (d.lookup doc [s.name]).isSome) = some .getMore := by
    have hname : d.lookup doc [Command.getMore.name] = some (.int64 id) := hmore
    simp [int64Commands, hname]
  have hfield : lookupString d doc [lit "collection"] = some coll := by
    rw [lookupString, hcoll]
    rfl
  constructor
  · simp only [Request.of, hsole.cursorID, OpMsgSection.cursorID, hmore, Option.bind_some,
      Value.int64OK, Option.getD_some]
  · simp only [Request.of, hsole.commandAndCollection, commandAndCollection, hnone, hnone', hfound,
      hfield, Option.getD_some]

end Messages

/-! ## Affinity -/

/-- The server that the transaction cache has for the transaction of the message, if any. -/
def World.cachedTransaction (w : World) (m : ClientID) (req : Request) : Option (Option Server) :=
  req.details.bind fun t => (w.clients m).transactions.peek (w.cacheOf m) t.lsID

section Affinity

variable {d : Driver} {m : ClientID} {w : World}

theorem cursorServer_of_answer {c : Call} {s : Server} {op : Operation} {id : Int64}
    (hanswer : c.answer d w = some (s, op)) (hop : op.cursorID d = some id) (hid : id ≠ 0) :
    (c.run d w).world.cursorServer c.client id (c.request d).collection = some s := by
  have hrun := cursors_run d c w
  rw [hanswer] at hrun
  cases hrun with
  | replied _ _ now databaseName v up hv hchosen hcursors =>
    rw [World.cursorServer, hcursors, if_pos rfl, hop]
    exact CursorCache.server_recorded_self _ _ s hid now databaseName

theorem cachedServer_newWorld (m : ClientID) (req : Request) :
    newWorld.cachedServer m req = none := by
  unfold World.cachedServer
  cases req.details with
  | none =>
    by_cases hid : req.cursorID ≠ 0
    · simp only [Option.bind_none, if_pos hid]
      rfl
    · simp only [Option.bind_none, if_neg hid]
  | some t =>
    by_cases hid : req.cursorID ≠ 0
    · simp only [Option.bind_some, if_pos hid]
      rfl
    · simp only [Option.bind_some, if_neg hid]
      rfl

/-- In a new world every message of an opening command is answered by the server that the cluster
selects. -/
theorem answer_newWorld (c : Call) {server : Server} (hep : server.errorProcessor = true)
    {reply : Bytes} {op : Operation} (hdecode : decode d reply = .ok op)
    (hscript : c.script = .steady (.answering server none (.ok reply)))
    (hack : (c.request d).unacknowledged = false)
    (hends : (c.request d).command.endsTransaction = false) :
    c.answer d newWorld = some (server, op) := by
  have hs := sessionOf_enter newWorld (c.request d) c.script.now
  have hforced : (newWorld.enter (c.request d) c.script.now).2.forcedServer c.client (c.request d)
      ((newWorld.enter (c.request d) c.script.now).1.map
        (newWorld.enter (c.request d) c.script.now).2.session) = none := by
    have hcached : (newWorld.enter (c.request d) c.script.now).2.cachedServer c.client
        (c.request d) = none := by
      rw [cachedServer_enter]
      exact cachedServer_newWorld c.client (c.request d)
    unfold World.forcedServer
    rw [hcached]
    unfold World.enter
    cases (c.request d).details with
    | none => rfl
    | some t => rfl
  have hallows : ∀ r t, (newWorld.enter (c.request d) c.script.now).1 = some r →
      (c.request d).details = some t →
      ((newWorld.enter (c.request d) c.script.now).2.session r).Allows t (c.request d).command := by
    intro r t hr ht
    refine ⟨?_, by simp [hends]⟩
    intro _
    simp only [World.enter, ht] at hr ⊢
    cases hr
    exact ⟨rfl, rfl⟩
  show answerFrom d c.client (c.request d) (newWorld.enter (c.request d) c.script.now).1 c.script
    (maxRetries + 1) 0 ⟨(newWorld.enter (c.request d) c.script.now).2, [], []⟩ = some (server, op)
  generalize (newWorld.enter (c.request d) c.script.now).2 = w at hforced hallows
  generalize (newWorld.enter (c.request d) c.script.now).1 = session at hs hforced hallows
  have hchosen : w.chooseServer c.client (c.request d) session (c.script.attempt 0) =
      .ok (some server) := by
    rw [World.chooseServer_eq, hforced, hscript]
    rfl
  have hanswers : (c.script.attempt 0).Answers d reply op := by
    rw [hscript]
    exact ⟨⟨⟨server, rfl, hep⟩, fun _ _ => ⟨_, rfl⟩⟩, rfl, rfl, hdecode⟩
  obtain ⟨conn, g, hsends⟩ := attempt_sends (f := ⟨w, [], []⟩) d hs hchosen
    (World.checkoutConnection_ok hanswers.reaches.connects w server session) hallows
  obtain ⟨f', -, hexit⟩ := sendAndUpdate_of_reply (m := c.client)
    (exchange_answers (i := 0) hanswers hep hack conn) g
  unfold answerFrom
  rw [hsends.flow, hexit]
  simp only [answerOf, hchosen]

/-- A new world, but for the cursor caches. -/
def World.withCursors (w v : World) : World :=
  { w with clients := fun k => { w.clients k with cursors := (v.clients k).cursors } }

theorem cachedTransaction_withCursors (v : World) (m : ClientID) (req : Request) :
    (newWorld.withCursors v).cachedTransaction m req = none := by
  unfold World.cachedTransaction
  cases req.details with
  | none => rfl
  | some t => rfl

/-- An attempt in which the selection of a server fails. -/
def Attempt.failing (e : GoError) : Attempt :=
  { Attempt.answering ⟨0, true⟩ none (.error e) with selectServer := .error e }

theorem selectServer_withCursors {v : World} {req : Request} (up : Attempt)
    (h : v.cursorServer m req.cursorID req.collection = none) :
    (newWorld.withCursors v).selectServer m req up = up.selectServer.map some := by
  have hpeek : LruTtl.peek (v.clients m).cursors (CursorCache.buildKey req.cursorID req.collection) =
      none := Option.map_eq_none_iff.mp h
  have hcached : (newWorld.withCursors v).cachedServer m req = none := by
    have htxn := cachedTransaction_withCursors v m req
    unfold World.cachedTransaction at htxn
    simp only [World.cachedServer, htxn, CursorCache.peek]
    split
    · simp only [World.withCursors, hpeek]
      rfl
    · rfl
  simp only [World.selectServer, hcached]

theorem cursorServer_newWorld {c : Call} {s : Server} {op : Operation} {id : Int64}
    {coll : GoString} (hanswer : c.answer d newWorld = some (s, op))
    (hne : (c.request d).collection ≠ coll) :
    (c.run d newWorld).world.cursorServer c.client id coll = none := by
  have hrun := cursors_run d c newWorld
  rw [hanswer] at hrun
  cases hrun with
  | replied _ _ now databaseName v up hv hchosen hcursors =>
    rw [World.cursorServer, hcursors, if_pos rfl]
    by_contra hsome
    obtain ⟨s', hs'⟩ := Option.ne_none_iff_exists'.mp hsome
    rcases CursorCache.server_of_recorded hs' with hold | ⟨-, -, hcoll, -⟩
    · cases hold
    · exact hne hcoll

/-- **A getMore is sent to the server of its cursor, exactly for the commands that name the
collection of the cursor.** Between the opening call and the getMore the cursor is not exhausted,
evicted or expired, and the getMore is not part of a transaction on another server. -/
theorem getMore_affinity_iff {command : CursorCommand} {opening reply more : OpMsg}
    {doc : Document} {replyWm : Bytes} {id : Int64} {db ns : GoString}
    (hsole : opening.SoleDocument doc) (hdoc : command.Of d doc)
    (hack : (Operation.msg opening).unacknowledged = false)
    (hdecode : decode d replyWm = .ok (.msg reply)) (hreply : reply.OpensCursor d id db ns)
    (hid : id ≠ 0) (hns : command.Namespace ns) (hmore : more.GetsMore d id ns)
    (wm moreWm : Bytes) :
    (∀ m script w s, (Call.mk m wm (.msg opening) script).answer d w = some (s, .msg reply) →
      ∀ w', CursorRun d m id ns s ((Call.mk m wm (.msg opening) script).run d w).world w' →
      (∀ s', w'.cachedTransaction m (.of d moreWm (.msg more)) = some s' → s' = some s) →
      ∀ up, w'.selectServer m (.of d moreWm (.msg more)) up = .ok (some s)) ↔
    command.Affine ns := by
  obtain ⟨hcursor, hcoll⟩ := hmore.request moreWm
  have hrequest : ∀ m script, ((Call.mk m wm (.msg opening) script).request d).collection =
      command.collection := by
    intro m script
    simp only [Call.request, Request.of, hsole.commandAndCollection, hdoc.command_and_collection]
  rw [CursorCommand.affine_iff hns]
  constructor
  · -- after the opening call, the transaction caches are emptied and the cluster is asked
    intro h
    by_contra hne
    let c : Call := Call.mk 0 wm (.msg opening) (.steady (.answering ⟨0, true⟩ none (.ok replyWm)))
    have hends : (c.request d).command.endsTransaction = false := by
      have hcommand : (c.request d).command = command.command := by
        simp only [c, Call.request, Request.of, hsole.commandAndCollection,
          hdoc.command_and_collection]
      rw [hcommand]
      cases command <;> rfl
    have hanswer : c.answer d newWorld = some (⟨0, true⟩, .msg reply) :=
      answer_newWorld c rfl hdecode rfl hack hends
    have hmiss : (c.run d newWorld).world.cursorServer 0 id ns = none :=
      cursorServer_newWorld hanswer (by rwa [hrequest])
    have hselect := h 0 c.script newWorld ⟨0, true⟩ hanswer
      (newWorld.withCursors (c.run d newWorld).world) (.other (.refl _) _ fun _ => rfl)
      (by
        intro s' hs'
        rw [cachedTransaction_withCursors] at hs'
        cases hs')
      (.failing (errorf "server selection error"))
    rw [selectServer_withCursors _ (by rwa [hcursor, hcoll])] at hselect
    cases hselect
  · intro hcommand m script w s hanswer w' hrun htxn up
    have hstored := cursorServer_of_answer hanswer hreply.cursorID hid
    rw [hrequest, hcommand] at hstored
    have hkept := hrun.kept hid hstored
    have hcached : w'.cachedServer m (.of d moreWm (.msg more)) = some (some s) := by
      cases htransaction : w'.cachedTransaction m (.of d moreWm (.msg more)) with
      | none =>
        apply cachedServer_of_cursorServer
        · rwa [hcursor]
        · exact htransaction
        · rwa [hcursor, hcoll]
      | some s' =>
        rw [htxn s' htransaction] at htransaction
        unfold World.cachedTransaction at htransaction
        simp only [World.cachedServer, htransaction]
    simp only [World.selectServer, hcached]

end Affinity

namespace Sample

/-- A reply that opens cursor 7 on the namespace. -/
def cursorReply (ns : String) : OpMsg :=
  let doc := Bson.document
    [("cursor", Bson.embedded [("id", .int64 7), ("ns", .string (lit ns))]), ("ok", .int32 1)]
  { OpMsg.ofDocument doc with reqID := 0 }

/-- A call of client 0 that is answered by server 0 with cursor 7 on the namespace. -/
def openingCall (fields : List (String × Value)) (ns : String) : Call :=
  { client := 0, wm := [], op := .msg (.ofDocument (Bson.document fields))
    script := .steady (.answering ⟨0, true⟩ none (.ok ((cursorReply ns).encode plainAppender 0))) }

/-- `{find: "orders", $db: "shop"}`. -/
def findOrders : List (String × Value) :=
  [("find", .string (lit "orders")), ("$db", .string (lit "shop"))]

/-- `{aggregate: 1, cursor: {}, $db: "shop"}`. -/
def aggregateShop : List (String × Value) :=
  [("aggregate", .int32 1), ("cursor", Bson.embedded []), ("$db", .string (lit "shop"))]

/-- A getMore for cursor 7. -/
def getMore (coll : String) : OpMsg :=
  .ofDocument (Bson.document [("getMore", .int64 7), ("collection", .string (lit coll)),
    ("$db", .string (lit "shop"))])

end Sample

open Sample

theorem getMore_affinity_iff_findOrders :
    ((openingCall findOrders "shop.orders").run plainDriver newWorld).world.selectServer 0
      (.of plainDriver [] (.msg (getMore "orders"))) (.failing connectionReset) =
      .ok (some ⟨0, true⟩) := by
  have hdoc : (CursorCommand.find (lit "orders")).Of plainDriver (Bson.document findOrders) :=
    ⟨⟨.string (lit "orders"), by decide +kernel, rfl⟩, by decide +kernel⟩
  have hdecode : decode plainDriver ((cursorReply "shop.orders").encode plainAppender 0) =
      .ok (.msg (cursorReply "shop.orders")) := by
    decide +kernel
  have hreply : (cursorReply "shop.orders").OpensCursor plainDriver 7 (lit "shop") (lit "orders") :=
    ⟨_, ⟨List.mem_singleton.mpr rfl, by simp [cursorReply, OpMsg.ofDocument]⟩, by decide +kernel,
      by decide +kernel, by decide +kernel⟩
  have hmore : (getMore "orders").GetsMore plainDriver 7 (lit "orders") :=
    ⟨_, OpMsg.soleDocument_ofDocument _, by decide +kernel, by decide +kernel, by decide +kernel⟩
  have hplain : (Request.of plainDriver [] (.msg (getMore "orders"))).details = none := by
    decide +kernel
  refine (getMore_affinity_iff (OpMsg.soleDocument_ofDocument _) hdoc (by decide +kernel) hdecode
    hreply (by decide) rfl hmore [] []).mpr trivial 0 _ newWorld ⟨0, true⟩ ?_ _ (.refl _) ?_ _
  · decide +kernel
  · intro s' hs'
    rw [World.cachedTransaction, hplain] at hs'
    cases hs'

/-- The cursor of `aggregate: 1` is stored without a collection, so its getMore goes to whatever
server the cluster selects. -/
theorem aggregateShop_getMore_elsewhere :
    (openingCall aggregateShop "shop.$cmd.aggregate").answer plainDriver newWorld =
        some (⟨0, true⟩, .msg (cursorReply "shop.$cmd.aggregate")) ∧
      ((openingCall aggregateShop "shop.$cmd.aggregate").run plainDriver newWorld).world.selectServer
        0 (.of plainDriver [] (.msg (getMore "$cmd.aggregate")))
        (.answering ⟨1, true⟩ none (.error connectionReset)) = .ok (some ⟨1, true⟩) := by
  refine ⟨?_, ?_⟩
  · decide +kernel
  · decide +kernel

end MongoBouncer
