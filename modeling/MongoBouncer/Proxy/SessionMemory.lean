import MongoBouncer.Mongo.Pinning
import MongoBouncer.Proxy.Framing

/-!
# Session ids in the buffer of a connection

`readWireMessage` returns a part of the connection's buffer, which its next message overwrites if it
fits. The readers of the driver return parts of that message, so the lsid of a session that RoundTrip
makes is a part of the buffer, and the session outlives the message.

* `LsidSlice`           : `session.LsID` as a part of an array;
* `SharedMemory`        : the arrays of all connections, and the session manager whose sessions have
  their lsids in them;
* `SharedMemory.Step`   : a connection reads a message, or takes the one it has read through
  RoundTrip;
* `LsidSlice.Spared`    : what was written over an lsid left its bytes as they were.

Principal result: `identity_kept_iff`.
-/

namespace MongoBouncer

open GoStd Function

/-! ## The memory -/

/-- The `LsID` of a session that RoundTrip made: a part, from `start` on, of the array that a
connection used as its buffer when it had replaced it `generation` times. The last two fields are
not in the code: what the part held when the session was made, and what was written into the array
since. -/
structure LsidSlice where
  conn : Nat
  generation : Nat
  start : Nat
  lsID : Bytes
  later : List Bytes
  deriving DecidableEq

namespace LsidSlice

def wrote (v : LsidSlice) (conn generation : Nat) (bytes : Bytes) : LsidSlice :=
  if v.conn = conn ∧ v.generation = generation then { v with later := v.later ++ [bytes] } else v

/-- The last byte that was written over byte `i` of the lsid. -/
def lastByte (v : LsidSlice) (i : Nat) : Option UInt8 :=
  (v.later.filterMap (·[v.start + i]?)).getLast?

/-- Over every byte of the lsid, the last message that reaches it has written the same byte. -/
def Spared (v : LsidSlice) : Prop :=
  ∀ i b, i < v.lsID.length → v.lastByte i = some b → v.lsID[i]? = some b

end LsidSlice

/-- The arrays that the connections have used as buffers, the messages they are about to take through
RoundTrip, the sessions, and which of them have their lsids in an array. -/
structure SharedMemory where
  world : World
  streams : Nat → Incoming
  messages : Nat → Option Bytes
  generation : Nat → Nat
  arrays : Nat → Nat → Bytes
  slices : Ref → Option LsidSlice

namespace SharedMemory

def start (dc : Option DistributedCache) (clients : ClientID → Mongo) (streams : Nat → Incoming) :
    SharedMemory where
  world := { manager := .new dc, clients, checkedOut := [] }
  streams
  messages := fun _ => none
  generation := fun _ => 0
  arrays := fun _ _ => []
  slices := fun _ => none

variable (s : SharedMemory)

/-- A connection with its stream and its buffer. -/
def reader (k : Nat) : WireReader := ⟨s.streams k, s.arrays k (s.generation k)⟩

/-- What a slice holds now. -/
def contents (v : LsidSlice) : Bytes :=
  ((s.arrays v.conn v.generation).drop v.start).take v.lsID.length

/-- The sessions as RoundTrip sees them now. -/
def current : World :=
  { s.world with manager := { s.world.manager with
      objects := fun r =>
        match s.slices r with
        | some v => { s.world.session r with lsID := s.contents v }
        | none => s.world.session r } }

/-- `readWireMessage` on a connection. A message that does not fit goes into a new, longer array. -/
def read (k : Nat) : SharedMemory :=
  let result := (s.reader k).readWireMessage
  let message := match result.1 with
    | .message wm => some wm
    | _ => none
  let g :=
    if result.2.buffer.length = (s.reader k).buffer.length then s.generation k
    else s.generation k + 1
  { s with
    streams := update s.streams k result.2.conn
    messages := update s.messages k message
    generation := update s.generation k g
    arrays := update s.arrays k (update (s.arrays k) g result.2.buffer)
    slices := fun r => (s.slices r).map (·.wrote k g (s.reader k).written) }

/-- RoundTrip makes a session for the lsid. -/
def Makes (m : ClientID) (req : Request) (t : TransactionDetails) : Prop :=
  (s.world.clients m).closed = false ∧ req.details = some t ∧
    s.current.storedSession t.lsID = none

instance (m : ClientID) (req : Request) (t : TransactionDetails) : Decidable (s.Makes m req t) :=
  inferInstanceAs (Decidable (_ ∧ _ ∧ _))

/-- RoundTrip on client `m` for the message that connection `k` has read, whose lsid stands from
`start` on. -/
def trip (d : Driver) (k : Nat) (m : ClientID) (req : Request) (start : Nat) (script : Script) :
    SharedMemory :=
  { s with
    world := (roundTrip d m req script s.current).world
    messages := update s.messages k none
    slices := match req.details with
      | some t =>
        if s.Makes m req t then
          update s.slices s.world.manager.next
            (some { conn := k, generation := s.generation k, start, lsID := t.lsID, later := [] })
        else s.slices
      | none => s.slices }

/-- Connection `k` reads a message, or takes the one it has read through RoundTrip; the lsid is a part
of the message. -/
inductive Step (d : Driver) : SharedMemory → Nat → SharedMemory → Prop where
  | read {s : SharedMemory} (k : Nat) : Step d s k (s.read k)
  | trip {s : SharedMemory} {k : Nat} {wm : Bytes} {op : Operation} (start : Nat)
      (hmessage : s.messages k = some wm) (hdecode : decode d wm = .ok op)
      (hpart : ∀ t, op.transactionDetails d = some t →
        (wm.drop start).take t.lsID.length = t.lsID) (m : ClientID) (script : Script) :
      Step d s k (s.trip d k m (.of d wm op) start script)

/-- Every session in the map that RoundTrip made has its lsid, in base64, as its id and key. -/
def KeepsIdentity : Prop :=
  ∀ key r v, s.current.manager.sessions key = some r → s.slices r = some v →
    (s.current.session r).id = key ∧
      Base64.encodeToString (s.current.session r).lsID = (s.current.session r).id

end SharedMemory

/-! ## What a call does to the sessions -/

/-- A call keeps the ids of the sessions there are, and gives the one that it makes the id of its
lsid. -/
theorem roundTrip_ids (d : Driver) (m : ClientID) (req : Request) (script : Script) (w : World) :
    w.manager.next ≤ (roundTrip d m req script w).world.manager.next ∧
      (∀ r < w.manager.next, ((roundTrip d m req script w).world.session r).id = (w.session r).id) ∧
      ∀ t, (w.clients m).closed = false → req.details = some t → w.storedSession t.lsID = none →
        w.manager.next < (roundTrip d m req script w).world.manager.next ∧
          ((roundTrip d m req script w).world.session w.manager.next).id =
            Base64.encodeToString t.lsID := by
  cases hc : (w.clients m).closed with
  | true =>
    rw [roundTrip_closed hc]
    exact ⟨Nat.le_refl _, fun _ _ => rfl, fun _ h => nomatch h⟩
  | false =>
    have hkept : (w.enter req script.now).2.Kept req (w.enter req script.now).1
        (retryLoop d m req (w.enter req script.now).1 script (w.enter req script.now).2).world :=
      retryLoop_kept (sessionOf_enter w req script.now)
    rw [roundTrip_open hc, hkept.next]
    simp only [hkept.ids]
    unfold World.enter
    cases ht : req.details with
    | none => exact ⟨Nat.le_refl _, fun _ _ => rfl, fun _ _ h => nomatch h⟩
    | some t =>
      simp only
      have hopened := w.openSession_opened t script.now
      rcases w.openSession_cases t script.now with ⟨r, -, -, hstored, heq⟩ | ⟨s, -, hs, heq⟩
      · rw [heq] at hopened ⊢
        refine ⟨Nat.le_refl _, ?_, ?_⟩
        · intro r' _
          by_cases hr : r' = r
          · subst hr
            simp [SessionManager.setSession, Session.touch]
          · rw [hopened.others r' hr]
        · rintro t - ⟨⟩ hnone
          rw [hstored] at hnone
          cases hnone
      · rw [heq] at hopened ⊢
        refine ⟨Nat.le_succ _, fun r hr => by rw [hopened.others r (Nat.ne_of_lt hr)], ?_⟩
        rintro t - ⟨⟩ hnone
        refine ⟨Nat.lt_succ_self _, ?_⟩
        rcases hs with ⟨hstored, -⟩ | ⟨-, rfl⟩
        · rw [hstored] at hnone
          cases hnone
        · simp [SessionManager.insertSession, Session.fresh]

/-! ## The invariant -/

namespace LsidSlice

variable {v : LsidSlice} {k g : Nat} {bytes : Bytes}

theorem wrote_of_ne (h : ¬ (v.conn = k ∧ v.generation = g)) : v.wrote k g bytes = v := if_neg h

theorem lastByte_wrote (h : v.conn = k ∧ v.generation = g) (i : Nat) :
    (v.wrote k g bytes).lastByte i = bytes[v.start + i]?.or (v.lastByte i) := by
  rw [wrote, if_pos h, lastByte, lastByte, List.filterMap_append, List.getLast?_append]
  cases hb : bytes[v.start + i]? <;> simp [hb]

end LsidSlice

namespace SharedMemory

variable {d : Driver} {s s' : SharedMemory} {k : Nat}

/-- A slice holds the lsid, under what was written over it since; its session has the id of the
lsid. -/
structure Holds (s : SharedMemory) (r : Ref) (v : LsidSlice) : Prop where
  made : r < s.world.manager.next
  id : (s.world.session r).id = Base64.encodeToString v.lsID
  generation : v.generation ≤ s.generation v.conn
  bytes : ∀ i < v.lsID.length, (s.arrays v.conn v.generation)[v.start + i]? =
    (v.lastByte i).or v.lsID[i]?

structure Inv (s : SharedMemory) : Prop where
  sessions : SessionInv s.world
  buffers : ∀ k wm, s.messages k = some wm → wm <+: s.arrays k (s.generation k)
  holds : ∀ r v, s.slices r = some v → s.Holds r v

theorem inv_start (dc : Option DistributedCache) (clients : ClientID → Mongo)
    (streams : Nat → Incoming) : (start dc clients streams).Inv :=
  ⟨sessionInv_new dc clients [], nofun, nofun⟩

theorem session_current (s : SharedMemory) (r : Ref) :
    ∃ lsID, s.current.session r = { s.world.session r with lsID } := by
  cases h : s.slices r with
  | none => exact ⟨(s.world.session r).lsID, by simp [current, World.session, h]⟩
  | some v => exact ⟨s.contents v, by simp [current, World.session, h]⟩

theorem sessionInv_current (h : SessionInv s.world) : SessionInv s.current := by
  refine ⟨⟨?_, ?_, ?_⟩, ?_⟩
  · intro r
    obtain ⟨lsID, heq⟩ := s.session_current r
    rw [heq]
    exact h.pins.healthy r
  · intro r c
    obtain ⟨lsID, heq⟩ := s.session_current r
    rw [heq]
    exact h.pins.checkedOut r c
  · intro r r' c
    obtain ⟨lsID, heq⟩ := s.session_current r
    obtain ⟨lsID', heq'⟩ := s.session_current r'
    rw [heq, heq']
    exact h.pins.disjoint r r' c
  · intro key r hr
    obtain ⟨lsID, heq⟩ := s.session_current r
    rw [heq]
    exact h.mapped key r hr

theorem Inv.buffers_read (h : s.Inv) (k : Nat) {j : Nat} {wm : Bytes}
    (hwm : (s.read k).messages j = some wm) :
    wm <+: (s.read k).arrays j ((s.read k).generation j) := by
  by_cases hj : j = k
  · subst hj
    simp only [SharedMemory.read, update_self] at hwm ⊢
    cases hresult : (s.reader j).readWireMessage.1 with
    | message wm' =>
      rw [hresult] at hwm
      cases hwm
      exact WireReader.NextMessage.isPrefix (Prod.ext hresult rfl)
    | error | panicked =>
      rw [hresult] at hwm
      cases hwm
  · simp only [SharedMemory.read, update_of_ne hj] at hwm ⊢
    exact h.buffers j wm hwm

theorem Inv.read (h : s.Inv) (k : Nat) : (s.read k).Inv := by
  refine ⟨h.sessions, fun j wm => h.buffers_read k, ?_⟩
  intro r v' hv'
  obtain ⟨v, hv, rfl⟩ := Option.map_eq_some_iff.mp hv'
  have hv := h.holds r v hv
  generalize hg : (if (s.reader k).readWireMessage.2.buffer.length = (s.reader k).buffer.length
    then s.generation k else s.generation k + 1) = g
  have hle : s.generation k ≤ g := by
    rw [← hg]
    split <;> omega
  have hgeneration : v.generation ≤ (s.read k).generation v.conn := by
    simp only [SharedMemory.read, hg]
    by_cases hk : v.conn = k
    · rw [hk, update_self]
      exact (hk ▸ hv.generation).trans hle
    · rw [update_of_ne hk]
      exact hv.generation
  by_cases hsame : v.conn = k ∧ v.generation = g
  · -- the slice is in the array that was written to, so the message fitted
    have hold : v.generation ≤ s.generation k := hsame.1 ▸ hv.generation
    have hfits : (s.reader k).readWireMessage.2.buffer.length = (s.reader k).buffer.length := by
      by_contra hgrown
      rw [if_neg hgrown] at hg
      omega
    have hkept : g = s.generation k := by rw [← hg, if_pos hfits]
    refine ⟨hv.made, ?_, ?_, ?_⟩
    · rw [LsidSlice.wrote, if_pos hsame]
      exact hv.id
    · rw [LsidSlice.wrote, if_pos hsame]
      exact hgeneration
    · intro i hi
      rw [LsidSlice.lastByte_wrote hsame, Option.or_assoc]
      rw [LsidSlice.wrote, if_pos hsame] at hi ⊢
      rw [← hv.bytes i hi]
      simp only [SharedMemory.read, hg]
      rw [hsame.1, update_self, hsame.2, update_self,
        WireReader.buffer_of_fits hfits, WireReader.getElem?_overwrite, hkept]
      rfl
  · rw [LsidSlice.wrote_of_ne hsame]
    refine ⟨hv.made, hv.id, hgeneration, ?_⟩
    intro i hi
    rw [← hv.bytes i hi]
    simp only [SharedMemory.read, hg]
    by_cases hk : v.conn = k
    · subst hk
      rw [update_self, update_of_ne fun heq => hsame ⟨rfl, heq⟩]
    · rw [update_of_ne hk]

theorem slices_trip {m : ClientID} {req : Request} {start : Nat} {script : Script} {r : Ref}
    {v : LsidSlice} (hv : (s.trip d k m req start script).slices r = some v) :
    s.slices r = some v ∨ r = s.world.manager.next ∧ ∃ t, s.Makes m req t ∧
      v = { conn := k, generation := s.generation k, start, lsID := t.lsID, later := [] } := by
  unfold SharedMemory.trip at hv
  cases ht : req.details with
  | none =>
    rw [ht] at hv
    exact Or.inl hv
  | some t =>
    simp only [ht] at hv
    by_cases hmakes : s.Makes m req t
    · rw [if_pos hmakes] at hv
      by_cases hr : r = s.world.manager.next
      · rw [hr, update_self] at hv
        exact Or.inr ⟨hr, t, hmakes, (Option.some.inj hv).symm⟩
      · rw [update_of_ne hr] at hv
        exact Or.inl hv
    · rw [if_neg hmakes] at hv
      exact Or.inl hv

theorem Inv.trip (h : s.Inv) {m : ClientID} {req : Request} {start : Nat} {script : Script}
    (hpart : ∀ t, req.details = some t → ∀ i < t.lsID.length,
      (s.arrays k (s.generation k))[start + i]? = t.lsID[i]?) :
    (s.trip d k m req start script).Inv := by
  obtain ⟨hnext, hids, hmade⟩ := roundTrip_ids d m req script s.current
  refine ⟨sessionInv_roundTrip (sessionInv_current h.sessions), ?_, ?_⟩
  · intro j wm hwm
    have hwm' : update s.messages k none j = some wm := hwm
    by_cases hj : j = k
    · rw [hj, update_self] at hwm'
      cases hwm'
    · rw [update_of_ne hj] at hwm'
      exact h.buffers j wm hwm'
  · intro r v hv
    rcases slices_trip hv with hold | ⟨rfl, t, ⟨hclosed, ht, hstored⟩, rfl⟩
    · have hv := h.holds r v hold
      refine ⟨hv.made.trans_le hnext, ?_, hv.generation, hv.bytes⟩
      obtain ⟨lsID, heq⟩ := s.session_current r
      exact (hids r hv.made).trans (heq ▸ hv.id)
    · obtain ⟨hlt, hid⟩ := hmade t hclosed ht hstored
      exact ⟨hlt, hid, Nat.le_refl _, hpart t ht⟩

theorem Inv.step (h : s.Inv) (hstep : Step d s k s') : s'.Inv := by
  cases hstep with
  | read => exact h.read k
  | @trip wm op start hmessage _ hpart m script =>
    refine h.trip ?_
    intro t ht i hi
    obtain ⟨rest, hrest⟩ := h.buffers k wm hmessage
    have hbyte : wm[start + i]? = t.lsID[i]? := by
      rw [← hpart t ht, List.getElem?_take, if_pos hi, List.getElem?_drop]
    rw [← hrest, List.getElem?_append_left, hbyte]
    by_contra hout
    rw [List.getElem?_eq_none (Nat.le_of_not_lt hout), List.getElem?_eq_getElem hi] at hbyte
    cases hbyte

theorem inv_of_runs {dc : Option DistributedCache} {clients : ClientID → Mongo}
    {streams : Nat → Incoming} {conns : List Nat}
    (h : Runs (Step d) (start dc clients streams) conns s) : s.Inv :=
  h.invariant (inv_start dc clients streams) fun _ _ _ hs hstep => hs.step hstep

/-- A slice holds its lsid exactly if that was spared. -/
theorem Holds.contents_iff {r : Ref} {v : LsidSlice} (h : s.Holds r v) :
    s.contents v = v.lsID ↔ v.Spared := by
  have hbyte : ∀ i < v.lsID.length, (s.contents v)[i]? = (v.lastByte i).or v.lsID[i]? := by
    intro i hi
    rw [contents, List.getElem?_take, if_pos hi, List.getElem?_drop, h.bytes i hi]
  constructor
  · intro heq i b hi hb
    have hsame := hbyte i hi
    rw [heq, hb] at hsame
    exact hsame
  · intro hspared
    apply List.ext_getElem?
    intro i
    by_cases hi : i < v.lsID.length
    · rw [hbyte i hi]
      cases hlast : v.lastByte i with
      | none => rfl
      | some b => exact (hspared i b hi hlast).symm
    · rw [contents, List.getElem?_take, if_neg hi, List.getElem?_eq_none (Nat.le_of_not_lt hi)]

end SharedMemory

/-- **When sessions keep their identity.** After any messages on any connections, every session in
the map that RoundTrip made has its lsid as its id and key if, and only if, whatever was written since
into the arrays where these lsids stand has left their bytes as they were. -/
theorem identity_kept_iff {d : Driver} {dc : Option DistributedCache} {clients : ClientID → Mongo}
    {streams : Nat → Incoming} {conns : List Nat} {s : SharedMemory}
    (h : Runs (SharedMemory.Step d) (.start dc clients streams) conns s) :
    s.KeepsIdentity ↔ ∀ key r v, s.world.manager.sessions key = some r → s.slices r = some v →
      v.Spared := by
  have hinv := SharedMemory.inv_of_runs h
  have hsession : ∀ r v, s.slices r = some v → ((s.current.session r).id =
      Base64.encodeToString v.lsID ∧ (s.current.session r).lsID = s.contents v) := by
    intro r v hv
    have hid := (hinv.holds r v hv).id
    exact ⟨by simpa [SharedMemory.current, World.session, hv] using hid,
      by simp [SharedMemory.current, World.session, hv]⟩
  constructor
  · intro hkeeps key r v hkey hv
    obtain ⟨-, hsame⟩ := hkeeps key r v hkey hv
    rw [(hsession r v hv).1, (hsession r v hv).2] at hsame
    exact (hinv.holds r v hv).contents_iff.mp (Base64.encodeToString_injective hsame)
  · intro hspared key r v hkey hv
    refine ⟨((SharedMemory.sessionInv_current hinv.sessions).mapped key r hkey).1, ?_⟩
    rw [(hsession r v hv).1, (hsession r v hv).2,
      (hinv.holds r v hv).contents_iff.mpr (hspared key r v hkey hv)]

/-! ## Two sessions on one connection -/

/-- The fields of an insert in a transaction of a session. -/
def insertOf (lsID : Bytes) : List (String × Value) :=
  [("insert", .string (lit "orders")), ("lsid", Bson.embedded [("id", .binary 4 lsID)]),
    ("txnNumber", .int64 1), ("autocommit", .boolean false)]

namespace SharedMemory

/-- Connection 0 sends an insert of session 7 and one of another session, or of the same. -/
def twoInserts (second : Bytes) : SharedMemory :=
  .start none (fun _ => .connected (lit "shop")) fun _ =>
    ⟨Bson.opMsgBytes (insertOf [7]) ++ Bson.opMsgBytes (insertOf second), .eof⟩

/-- The first one has been answered. -/
def firstInserted (second : Bytes) : SharedMemory :=
  ((twoInserts second).read 0).trip plainDriver 0 0
    (.of plainDriver (Bson.opMsgBytes (insertOf [7])) (Bson.opMsg (insertOf [7]))) 63 healthyScript

theorem runs_firstInserted (second : Bytes)
    (hread : ((twoInserts second).read 0).messages 0 = some (Bson.opMsgBytes (insertOf [7]))) :
    Runs (Step plainDriver) (twoInserts second) [0, 0] (firstInserted second) := by
  have hdetails : (Bson.opMsg (insertOf [7])).transactionDetails plainDriver =
      some ⟨[7], 1, false, false⟩ := by decide +kernel
  refine .step (.step .start (.read 0)) (.trip 63 hread (by decide +kernel) ?_ 0 healthyScript)
  intro t ht
  cases hdetails.symm.trans ht
  decide +kernel

/-- A second insert of the same session writes the same lsid into the array. -/
theorem identity_kept_iff_sameSession :
    ((firstInserted [7]).read 0).slices 0 =
        some ⟨0, 1, 63, [7], [Bson.opMsgBytes (insertOf [7])]⟩ ∧
      ((firstInserted [7]).read 0).KeepsIdentity := by
  have hslice : ((firstInserted [7]).read 0).slices 0 =
      some ⟨0, 1, 63, [7], [Bson.opMsgBytes (insertOf [7])]⟩ := by decide +kernel
  have hrun := (runs_firstInserted [7] (by decide +kernel)).step (.read 0)
  refine ⟨hslice, (identity_kept_iff hrun).mpr ?_⟩
  intro key r v _ hv i b hi hb
  obtain ⟨v', hv', -⟩ := Option.map_eq_some_iff.mp hv
  rcases slices_trip hv' with hold | ⟨rfl, -⟩
  · cases hold
  · cases hslice.symm.trans hv
    obtain rfl : i = 0 := Nat.lt_one_iff.mp hi
    exact hb

/-- The second insert overwrites the lsid of the first session as soon as it is read. -/
theorem second_insert_changes_lsid :
    Runs (Step plainDriver) (twoInserts [9]) [0, 0, 0] ((firstInserted [9]).read 0) ∧
      ((firstInserted [9]).read 0).current.manager.sessions (Base64.encodeToString [7]) = some 0 ∧
      (((firstInserted [9]).read 0).slices 0).isSome = true ∧
      (((firstInserted [9]).read 0).current.session 0).id = Base64.encodeToString [7] ∧
      (((firstInserted [9]).read 0).current.session 0).lsID = [9] ∧
      ¬ ((firstInserted [9]).read 0).KeepsIdentity := by
  have heval : ((firstInserted [9]).read 0).current.manager.sessions (Base64.encodeToString [7]) =
        some 0 ∧
      (((firstInserted [9]).read 0).slices 0).isSome = true ∧
      (((firstInserted [9]).read 0).current.session 0).id = Base64.encodeToString [7] ∧
      (((firstInserted [9]).read 0).current.session 0).lsID = [9] := by decide +kernel
  refine ⟨(runs_firstInserted [9] (by decide +kernel)).step (.read 0), heval.1, heval.2.1, heval.2.2.1,
    heval.2.2.2, ?_⟩
  obtain ⟨hkey, hslice, hid, hlsID⟩ := heval
  intro hkeeps
  obtain ⟨v, hv⟩ := Option.isSome_iff_exists.mp hslice
  have hsame := (hkeeps _ 0 v hkey hv).2
  rw [hid, hlsID] at hsame
  cases Base64.encodeToString_injective hsame

end SharedMemory

end MongoBouncer
