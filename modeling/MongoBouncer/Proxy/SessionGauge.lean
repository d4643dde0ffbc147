import MongoBouncer.Proxy.Authentication
import MongoBouncer.Runs
import Mathlib.Data.List.ReduceOption

/-!
# The gauge of the sessions

A connection adds one to the gauge `sessions_active` when it first learns the name of a database,
and takes one off when it ends. The first is done under the name as the first message has it, the
second under the name that the connection remembers then.

* `SessionChange`   : a call of `Gauge` for the sessions of a database;
* `registerSession` : `extractDatabaseName` with the call it makes;
* `disconnection`   : the call at the end of `handleConnection`;
* `Proxy.serve`     : `handleMessage` with the calls, and the connection also where it ends;
* `Counted.Turn`    : a message of the connection, or its end;
* `OneName`         : the messages of a client name one database.

Principal results: `sessions_balanced_of_settles`, a client whose messages name one database leaves
the gauge as it was; `sessions_balanced_of_one_database`.
-/

namespace MongoBouncer

open GoStd

/-! ## The gauge -/

def parseDatabaseTag : List GoString → GoString
  | [] => lit "default"
  | tag :: tags => if hasPrefix tag (lit "database:") then tag.drop 9 else parseDatabaseTag tags

/-- A call of `Gauge` with `sessions_active`, which adds to the gauge of a database. -/
structure SessionChange where
  label : GoString
  delta : Int
  deriving DecidableEq, Repr

/-- `Gauge("sessions_active", delta, tags, 1)`. -/
def gaugeSessions (delta : Int) (tags : List GoString) : SessionChange :=
  { label := parseDatabaseTag tags, delta }

/-- The call with the tag that the connection makes of a name. -/
def sessionsActive (delta : Int) (database : GoString) : SessionChange :=
  gaugeSessions delta [lit "database:" ++ database]

@[simp] theorem sessionsActive_eq (delta : Int) (database : GoString) :
    sessionsActive delta database = ⟨database, delta⟩ := by
  have hdrop : (lit "database:" ++ database).drop 9 = database := List.drop_left' (by decide)
  simp [sessionsActive, gaugeSessions, parseDatabaseTag, hasPrefix_append, hdrop]

/-- What the calls add up to for a database. -/
def total (label : GoString) (changes : List SessionChange) : Int :=
  ((changes.filter (·.label = label)).map (·.delta)).sum

@[simp] theorem total_nil (label : GoString) : total label [] = 0 := rfl

@[simp] theorem total_cons (label : GoString) (change : SessionChange)
    (changes : List SessionChange) :
    total label (change :: changes) =
      (if change.label = label then change.delta else 0) + total label changes := by
  by_cases h : change.label = label <;> simp [total, h]

/-- A session that is added and taken off under one label, if it is counted at all, adds up to
nothing. -/
theorem total_eq_zero (counted : Option GoString) (label : GoString) :
    total label (counted.toList.map (sessionsActive 1) ++
      counted.toList.map (sessionsActive (-1))) = 0 := by
  cases counted with
  | none => rfl
  | some a => by_cases ha : a = label <;> simp [ha]

/-! ## The calls of a connection -/

/-- The call in `extractDatabaseName`, where the connection learns its first name. -/
def registration (metrics : Bool) (c : Connection) (databaseName : GoString) :
    List SessionChange :=
  if c.databaseUsed = [] ∧ metrics = true ∧ databaseName ≠ lit "default" then
    [sessionsActive 1 databaseName]
  else []

/-- `extractDatabaseName` with the call it makes. -/
def registerSession (d : Driver) (metrics : Bool) (c : Connection) (op : Operation) :
    List SessionChange × Connection :=
  let c' := (extractDatabaseName d c op).2
  (registration metrics c c'.databaseUsed, c')

/-- The call at the end of `handleConnection`. -/
def disconnection (metrics pooled : Bool) (c : Connection) : List SessionChange :=
  if pooled = true ∧ metrics = true ∧ c.intendedDatabase ≠ [] ∧
      c.intendedDatabase ≠ lit "default" then
    [sessionsActive (-1) c.intendedDatabase]
  else []

/-- What handling a message does: the calls, and the connection with whether it stays open. -/
structure Served where
  changes : List SessionChange
  conn : Connection
  isOpen : Bool
  deriving DecidableEq, Repr

/-- The rest of `handleMessage` after the round trip. An error is counted under the name of the
message, unless it was a crash; so is a reply that was written. -/
def Outcome.served (d : Driver) (o : Outcome) (op : Operation) (written crashes : Bool) : Served :=
  let (again, c) := registerSession d o.proxy.metrics o.conn op
  match o.result with
  | .error _ =>
    if o.proxy.metrics && !crashes then { changes := again, conn := c, isOpen := false }
    else { changes := [], conn := o.conn, isOpen := false }
  | .ok response =>
    if op.unacknowledged then { changes := [], conn := o.conn, isOpen := true }
    else if !response.hasOp || !written then { changes := [], conn := o.conn, isOpen := false }
    else if o.proxy.metrics then { changes := again, conn := c, isOpen := true }
    else { changes := [], conn := o.conn, isOpen := true }

/-- `handleMessage` with the calls it makes. -/
def Proxy.serve (d : Driver) (p : Proxy) (c : Connection) (wm : Bytes) (up : Upstream)
    (crashes : Bool) : Served :=
  match decode d wm with
  | .error _ => { changes := [], conn := c, isOpen := false }
  | .ok op =>
    let (first, c) := registerSession d p.metrics c op
    -- the round trip asks for the name as well
    let (second, _) := registerSession d p.metrics c op
    let r := (p.roundTrip d c wm op up).served d op up.written crashes
    { r with changes := first ++ second ++ r.changes }

/-- The name that a message makes its connection remember. -/
def heard (d : Driver) (c : Connection) (wm : Bytes) : Option GoString :=
  match decode d wm with
  | .error _ => none
  | .ok op => some (extractDatabaseName d c op).2.databaseUsed

/-! ## The life of a connection -/

/-- A connection with the messages it has got and the calls it has made. -/
structure Counted where
  conn : Connection
  isOpen : Bool
  sent : List Bytes
  changes : List SessionChange
  deriving DecidableEq, Repr

/-- The beginning of `handleConnection`. -/
def Counted.new (clientID : GoString) : Counted :=
  { conn := .new clientID, isOpen := true, sent := [], changes := [] }

/-- The end of `handleConnection`. -/
def Counted.close (metrics pooled : Bool) (s : Counted) : Counted :=
  { s with isOpen := false, changes := s.changes ++ disconnection metrics pooled s.conn }

/-- A message, after which the connection may end. -/
def Counted.message (d : Driver) (p : Proxy) (s : Counted) (wm : Bytes) (up : Upstream)
    (crashes : Bool) : Counted :=
  let r := p.serve d s.conn wm up crashes
  let s' := { conn := r.conn, isOpen := true, sent := s.sent ++ [wm],
              changes := s.changes ++ r.changes }
  if r.isOpen then s' else s'.close p.metrics p.poolManager.isSome

/-- What happens to an open connection, with the name that is learnt. The messages of other
connections are handled in between, so the proxy is any one with these metrics and this pool. -/
inductive Counted.Turn (d : Driver) (metrics pooled : Bool) :
    Counted → Option GoString → Counted → Prop where
  | message {s : Counted} (p : Proxy) (wm : Bytes) (up : Upstream) (crashes : Bool)
      (hopen : s.isOpen = true) (hmetrics : p.metrics = metrics)
      (hpooled : p.poolManager.isSome = pooled) :
      Counted.Turn d metrics pooled s (heard d s.conn wm) (s.message d p wm up crashes)
  | hangUp {s : Counted} (hopen : s.isOpen = true) :
      Counted.Turn d metrics pooled s none (s.close metrics pooled)

/-- The database under which a connection with these names is counted. -/
def openedLabel (metrics : Bool) (names : List GoString) : Option GoString :=
  if metrics then names.head?.filter (· ≠ lit "default") else none

/-- The database under which a connection is taken off. -/
def closedLabel (metrics pooled : Bool) (c : Connection) : Option GoString :=
  if metrics && pooled && decide (c.intendedDatabase ≠ []) then
    (some c.intendedDatabase).filter (· ≠ lit "default")
  else none

theorem disconnection_eq (metrics pooled : Bool) (c : Connection) : disconnection metrics pooled c =
      (closedLabel metrics pooled c).toList.map (sessionsActive (-1)) := by
  unfold disconnection closedLabel
  by_cases hnil : c.intendedDatabase = []
  · simp [hnil]
  · by_cases hdefault : c.intendedDatabase = lit "default" <;>
      cases metrics <;> cases pooled <;> simp [hnil, hdefault, Option.filter]

/-! ## What a message does -/

section Serve

variable {d : Driver} {p : Proxy} {c c' : Connection} {wm : Bytes} {op : Operation}
  {up : Upstream} {now : Int} {crashes : Bool}

theorem registration_of_used {metrics : Bool} {name : GoString} (h : c.databaseUsed ≠ []) :
    registration metrics c name = [] := by
  simp [registration, h]

theorem serve_of_error {e : DecodeError} (h : decode d wm = .error e) :
    p.serve d c wm up crashes = { changes := [], conn := c, isOpen := false } := by
  simp [Proxy.serve, h]

theorem served_remembers {o : Outcome} {written routed : Bool}
    (h : o.conn.Remembers (extractDatabaseName d c op).2.databaseUsed routed) :
    (o.served d op written crashes).changes = [] ∧ (o.served d op written crashes).conn.Remembers
        (extractDatabaseName d c op).2.databaseUsed routed := by
  have hcalls : (registerSession d o.proxy.metrics o.conn op).1 = [] := registration_of_used h.used
  have hagain := remembers_again h
  unfold Outcome.served
  simp only [hcalls]
  cases o.result with
  | error e =>
    simp only
    split
    · exact ⟨rfl, hagain⟩
    · exact ⟨rfl, h⟩
  | ok response =>
    simp only
    split
    · exact ⟨rfl, h⟩
    · split
      · exact ⟨rfl, h⟩
      · split
        · exact ⟨rfl, hagain⟩
        · exact ⟨rfl, h⟩

/-- The call of a message is the one of the first time that its name is asked for, and after it the
connection remembers the name. -/
theorem serve_of_decode (h : decode d wm = .ok op) : (p.serve d c wm up crashes).changes =
        registration p.metrics c (extractDatabaseName d c op).2.databaseUsed ∧
      (p.serve d c wm up crashes).conn.Remembers (extractDatabaseName d c op).2.databaseUsed
        (!Proxy.isHandshake d op) := by
  have hsecond : (registerSession d p.metrics (extractDatabaseName d c op).2 op).1 = [] :=
    registration_of_used (databaseUsed_ne_nil d c op)
  obtain ⟨hcalls, hconn⟩ := @served_remembers d c op crashes _ up.written _
    (remembers_roundTrip d p c wm op up)
  have hserve : p.serve d c wm up crashes =
      { (p.roundTrip d (extractDatabaseName d c op).2 wm op up).served d op up.written crashes with
        changes := registration p.metrics c (extractDatabaseName d c op).2.databaseUsed } := by
    simp only [registerSession] at hsecond
    simp [Proxy.serve, h, registerSession, hsecond, hcalls]
  rw [hserve]
  exact ⟨rfl, hconn⟩

/-- The connection that is left open is the one of `handleMessage`. -/
theorem serve_handleMessage (d : Driver) (p : Proxy) (c : Connection) (wm : Bytes) (up : Upstream)
    (crashes : Bool) :
    (p.handleMessage d c wm up).conn =
      if (p.serve d c wm up crashes).isOpen then some (p.serve d c wm up crashes).conn
      else none := by
  cases hdecode : decode d wm with
  | error e => simp [Proxy.handleMessage, Proxy.serve, hdecode]
  | ok op =>
    cases hresult : (p.roundTrip d (extractDatabaseName d c op).2 wm op up).result with
    | error e =>
      cases crashes <;>
        cases hm : (p.roundTrip d (extractDatabaseName d c op).2 wm op up).proxy.metrics <;>
        simp [Proxy.handleMessage, Proxy.serve, Outcome.served, registerSession, hdecode, hresult,
          hm]
    | ok response =>
      by_cases hunack : op.unacknowledged = true
      · simp [Proxy.handleMessage, Proxy.serve, Outcome.served, registerSession, hdecode, hresult,
          hunack]
      · by_cases hlost : (!response.hasOp || !up.written) = true
        · simp [Proxy.handleMessage, Proxy.serve, Outcome.served, registerSession, hdecode, hresult,
            hunack, hlost]
        · cases hm : (p.roundTrip d (extractDatabaseName d c op).2 wm op up).proxy.metrics <;>
            simp [Proxy.handleMessage, Proxy.serve, Outcome.served, registerSession, hdecode,
              hresult, hunack, hlost, hm]

end Serve

/-! ## What a whole connection does -/

/-- The name under which a client with these messages is counted. -/
def firstName (d : Driver) (sent : List Bytes) : Option GoString :=
  sent.findSome? fun wm => (decode d wm).toOption.map fun op =>
    (namedDatabase d op).getD (lit "default")

/-- The messages name one database or none, and its name is as it is normalised, unless they are all
answered by the proxy itself. -/
structure OneName (d : Driver) (name : GoString) (sent : List Bytes) : Prop where
  same : ∀ wm ∈ sent, ∀ op, decode d wm = .ok op → ∀ name', namedDatabase d op = some name' →
    name' = name
  lower : ∀ wm ∈ sent, ∀ op, decode d wm = .ok op → Proxy.isHandshake d op = false →
    normalizeDatabaseName name = name

/-- Messages that leave the gauge as it was: without metrics all do, and without a pool, where no
session is taken off, those that are not counted. -/
def Settles (d : Driver) (metrics pooled : Bool) (sent : List Bytes) : Prop :=
  metrics = true → ∀ name, firstName d sent = some name →
    if pooled then OneName d name sent else name = lit "default"

theorem firstName_append (d : Driver) (sent sent' : List Bytes) :
    firstName d (sent ++ sent') = (firstName d sent).or (firstName d sent') :=
  List.findSome?_append ..

theorem OneName.mono {d : Driver} {name : GoString} {sent sent' : List Bytes}
    (h : OneName d name sent) (hsub : sent' ⊆ sent) : OneName d name sent' :=
  ⟨fun wm hwm => h.same wm (hsub hwm), fun wm hwm => h.lower wm (hsub hwm)⟩

/-- What the names of a connection so far say of it: it is counted under the first name, it
remembers the last, and it is taken off once it is closed. -/
structure Counted.Accounted (d : Driver) (metrics pooled : Bool) (names : List GoString)
    (s : Counted) : Prop where
  fresh : names = [] → s.conn.databaseUsed = [] ∧ s.conn.intendedDatabase = []
  first : names.head? = firstName d s.sent
  known : ∀ name, names.getLast? = some name → s.conn.Remembers name true
  steady : ∀ name, firstName d s.sent = some name → OneName d name s.sent →
    s.conn.intendedDatabase = name
  changes : s.changes = (openedLabel metrics names).toList.map (sessionsActive 1) ++
    if s.isOpen then [] else disconnection metrics pooled s.conn

section Runs

variable {d : Driver} {metrics pooled : Bool} {s s' : Counted} {names : List GoString}
  {events : List (Option GoString)} {clientID : GoString}

section

variable (h : s.Accounted d metrics pooled names)

include h

theorem Counted.Accounted.close (hopen : s.isOpen = true) :
    (s.close metrics pooled).Accounted d metrics pooled names := by
  refine ⟨h.fresh, h.first, h.known, h.steady, ?_⟩
  have hchanges := h.changes
  simp only [hopen, if_true, List.append_nil] at hchanges
  simp [Counted.close, hchanges]

theorem registration_openedLabel (name : GoString) :
    (openedLabel metrics names).toList.map (sessionsActive 1) ++ registration metrics s.conn name =
      (openedLabel metrics (names ++ [name])).toList.map (sessionsActive 1) := by
  cases names with
  | nil =>
    have hused := (h.fresh rfl).1
    by_cases hname : name = lit "default" <;>
      cases metrics <;> simp [registration, openedLabel, hused, hname, Option.filter]
  | cons first rest =>
    obtain ⟨last, hlast⟩ : ∃ last, (first :: rest).getLast? = some last :=
      ⟨_, List.getLast?_eq_some_getLast (List.cons_ne_nil _ _)⟩
    rw [registration_of_used (h.known last hlast).used]
    simp [openedLabel]

theorem Counted.Accounted.intended_ne_nil {name : GoString}
    (hfirst : firstName d s.sent = some name) : s.conn.intendedDatabase ≠ [] := by
  cases hlast : names.getLast? with
  | none =>
    rw [← h.first, List.getLast?_eq_none_iff.mp hlast] at hfirst
    cases hfirst
  | some last => exact (h.known last hlast).intended_ne_nil

/-- The name that is heard is the one the client is counted under, if there is but one. -/
theorem Counted.Accounted.heard_eq {wm : Bytes} {op : Operation} (hdecode : decode d wm = .ok op)
    {name : GoString} (hfirst : firstName d (s.sent ++ [wm]) = some name)
    (hone : OneName d name (s.sent ++ [wm])) :
    (extractDatabaseName d s.conn op).2.databaseUsed = name := by
  rw [databaseUsed_eq]
  cases hnamed : namedDatabase d op with
  | some name' => exact hone.same wm (by simp) op hdecode name' hnamed
  | none =>
    rw [firstName_append] at hfirst
    cases hbefore : firstName d s.sent with
    | none =>
      -- the first message, which names no database
      have hnil : names = [] := List.head?_eq_none_iff.mp (h.first.trans hbefore)
      rw [hbefore] at hfirst
      simpa [(h.fresh hnil).2, firstName, hdecode, hnamed, Except.toOption] using hfirst
    | some name' =>
      rw [hbefore] at hfirst
      cases hfirst
      rw [if_neg (h.intended_ne_nil hbefore)]
      exact h.steady name hbefore (hone.mono (List.subset_append_left _ _))

theorem Counted.Accounted.message (hopen : s.isOpen = true)
    (p : Proxy) (hmetrics : p.metrics = metrics) (hpooled : p.poolManager.isSome = pooled)
    (wm : Bytes) (up : Upstream) (crashes : Bool) :
    (s.message d p wm up crashes).Accounted d metrics pooled
      (names ++ (heard d s.conn wm).toList) := by
  have hchanges := h.changes
  simp only [hopen, if_true, List.append_nil] at hchanges
  suffices hkept : Counted.Accounted d metrics pooled (names ++ (heard d s.conn wm).toList)
      { conn := (p.serve d s.conn wm up crashes).conn
        isOpen := true
        sent := s.sent ++ [wm]
        changes := s.changes ++ (p.serve d s.conn wm up crashes).changes } by
    unfold Counted.message
    simp only
    split
    · exact hkept
    · rw [hmetrics, hpooled]
      exact hkept.close rfl
  cases hdecode : decode d wm with
  | error e =>
    have hsilent : firstName d [wm] = none := by simp [firstName, hdecode, Except.toOption]
    refine ⟨?_, ?_, ?_, ?_, ?_⟩
    · simpa [heard, hdecode, serve_of_error hdecode] using h.fresh
    · simpa [heard, hdecode, firstName_append, hsilent] using h.first
    · simpa [heard, hdecode, serve_of_error hdecode] using h.known
    · intro name hfirst hone
      rw [firstName_append, hsilent, Option.or_none] at hfirst
      rw [serve_of_error hdecode]
      exact h.steady name hfirst (hone.mono (List.subset_append_left _ _))
    · simpa [heard, hdecode, serve_of_error hdecode] using hchanges
  | ok op =>
    obtain ⟨hserved, hknown⟩ := @serve_of_decode d p s.conn wm op up crashes hdecode
    simp only [heard, hdecode, Option.toList_some]
    refine ⟨by simp, ?_, ?_, ?_, ?_⟩
    · rw [List.head?_append, h.first, firstName_append]
      cases hfirst : firstName d s.sent with
      | some name => rfl
      | none =>
        -- a connection that remembers nothing
        have hnil : names = [] := List.head?_eq_none_iff.mp (h.first.trans hfirst)
        simp [firstName, hdecode, Except.toOption, databaseUsed_eq, (h.fresh hnil).2]
    · intro name hname
      simp only [List.getLast?_append_cons, List.getLast?_singleton, Option.some.injEq] at hname
      rw [← hname]
      exact hknown.of_routed
    · intro name hfirst hone
      have hname := h.heard_eq hdecode hfirst hone
      rw [hname] at hknown
      rcases hknown.intended with heq | ⟨hrouted, heq⟩
      · exact heq
      · exact heq.trans (hone.lower wm (by simp) op hdecode (by simpa using hrouted))
    · simp only [if_true, List.append_nil]
      rw [hchanges, hserved, hmetrics]
      exact registration_openedLabel h _

theorem Counted.Accounted.turn {name : Option GoString}
    (hturn : Counted.Turn d metrics pooled s name s') :
    s'.Accounted d metrics pooled (names ++ name.toList) := by
  cases hturn with
  | message p wm up crashes hopen hmetrics hpooled =>
    exact h.message hopen p hmetrics hpooled wm up crashes
  | hangUp hopen => simpa using h.close hopen

end

theorem accounted_of_runs (h : Runs (Counted.Turn d metrics pooled) (.new clientID) events s) :
    s.Accounted d metrics pooled events.reduceOption := by
  refine h.invariant_log (P := fun events s => s.Accounted d metrics pooled events.reduceOption)
    ?_ ?_
  · exact ⟨fun _ => ⟨rfl, rfl⟩, rfl, fun name hname => by simp at hname,
      fun name hname => (by cases hname), by cases metrics <;> rfl⟩
  · intro events s name s' hs hturn
    have hnext := hs.turn hturn
    rw [List.reduceOption_append]
    cases name <;> exact hnext

/-- The changes of a closed connection add up to nothing if it is taken off under the name that it
was counted under. -/
theorem balanced_of_labels (h : Runs (Counted.Turn d metrics pooled) (.new clientID) events s)
    (hclosed : s.isOpen = false)
    (hlabels : openedLabel metrics events.reduceOption = closedLabel metrics pooled s.conn)
    (label : GoString) : total label s.changes = 0 := by
  have hchanges := (accounted_of_runs h).changes
  simp only [hclosed, Bool.false_eq_true, if_false, disconnection_eq] at hchanges
  rw [hchanges, hlabels]
  exact total_eq_zero _ label

/-- **A client whose messages name one database leaves the gauge of the sessions as it was**,
wherever its connection ends and however its messages are served. -/
theorem sessions_balanced_of_settles
    (h : Runs (Counted.Turn d metrics pooled) (.new clientID) events s) (hclosed : s.isOpen = false)
    (hsettles : Settles d metrics pooled s.sent) (label : GoString) : total label s.changes = 0 := by
  have haccount := accounted_of_runs h
  refine balanced_of_labels h hclosed ?_ label
  unfold openedLabel closedLabel
  cases metrics with
  | false => rfl
  | true =>
    rw [haccount.first]
    cases hfirst : firstName d s.sent with
    | none =>
      have hnil := List.head?_eq_none_iff.mp (haccount.first.trans hfirst)
      simp [(haccount.fresh hnil).2]
    | some name =>
      have hname := hsettles rfl name hfirst
      cases pooled with
      | false =>
        rw [show name = lit "default" from hname]
        rfl
      | true =>
        have hintended := haccount.steady name hfirst hname
        have hne := haccount.intended_ne_nil hfirst
        rw [hintended] at hne
        simp [hintended, hne]

/-- A connection whose messages all name one database, without capital letters, leaves the gauge as
it was. -/
theorem sessions_balanced_of_one_database {name : GoString}
    (h : Runs (Counted.Turn d metrics true) (.new clientID) events s) (hclosed : s.isOpen = false)
    (hlower : normalizeDatabaseName name = name)
    (hone : ∀ name' ∈ events.reduceOption, name' = name) (label : GoString) :
    total label s.changes = 0 := by
  have haccount := accounted_of_runs h
  refine balanced_of_labels h hclosed ?_ label
  cases hnames : events.reduceOption with
  | nil => simp [openedLabel, closedLabel, (haccount.fresh hnames).2]
  | cons first rest =>
    obtain ⟨last, hlast⟩ : ∃ last, events.reduceOption.getLast? = some last := by
      rw [hnames]
      exact ⟨_, List.getLast?_eq_some_getLast (List.cons_ne_nil _ _)⟩
    have hfirst : first = name := hone first (by rw [hnames]; exact List.mem_cons_self ..)
    have hintended : s.conn.intendedDatabase = name := by
      have hmem := hone last (List.mem_of_getLast? hlast)
      rcases (haccount.known last hlast).intended with heq | ⟨-, heq⟩
      · rw [heq, hmem]
      · rw [heq, hmem, hlower]
    have hne : name ≠ [] := by
      rw [← hone last (List.mem_of_getLast? hlast)]
      exact (haccount.known last hlast).named
    cases metrics <;> simp [openedLabel, closedLabel, hfirst, hintended, hne]

end Runs

/-! ## Two databases on one connection -/

/-- A proxy with metrics and a pool, and without routes. -/
def meteredProxy : Proxy := .new false false true false (some (.new (lit "session") 0)) none

/-- A command that the proxy answers itself. -/
def buildInfoOn (database : String) : Bytes :=
  Bson.opMsgBytes [("buildInfo", .int32 1), ("$db", .string (lit database))]

def Counted.ask (s : Counted) (database : String) : Counted :=
  s.message plainDriver meteredProxy (buildInfoOn database) calmUpstream false

def visitor : Counted := .new (lit "10.0.0.7:5000")

theorem Counted.turn_ask {s : Counted} (hopen : s.isOpen = true) (database : String) :
    Counted.Turn plainDriver true true s (heard plainDriver s.conn (buildInfoOn database))
      (s.ask database) :=
  .message meteredProxy (buildInfoOn database) calmUpstream false hopen rfl rfl

theorem Counted.runs_ask {first second : String} (h : (visitor.ask first).isOpen = true ∧
      ((visitor.ask first).ask second).isOpen = true) :
    Runs (Counted.Turn plainDriver true true) visitor
      [heard plainDriver visitor.conn (buildInfoOn first),
        heard plainDriver (visitor.ask first).conn (buildInfoOn second), none]
      (((visitor.ask first).ask second).close true true) :=
  ((Runs.start.step (Counted.turn_ask rfl first)).step (Counted.turn_ask h.1 second)).step
    (.hangUp h.2)

theorem sessions_balanced_of_settles_visitor :
    ((visitor.ask "shop").ask "shop").isOpen = true ∧
      ∀ label, total label (((visitor.ask "shop").ask "shop").close true true).changes = 0 := by
  have hopen : (visitor.ask "shop").isOpen = true ∧
      ((visitor.ask "shop").ask "shop").isOpen = true := by decide +kernel
  have hrun := Counted.runs_ask hopen
  have hnamed : (decode plainDriver (buildInfoOn "shop")).toOption.all
      (fun op => decide (namedDatabase plainDriver op = some (lit "shop"))) = true := by
    decide +kernel
  refine ⟨hopen.2, sessions_balanced_of_settles hrun rfl fun _ name hname => ?_⟩
  have hfirst : firstName plainDriver [buildInfoOn "shop", buildInfoOn "shop"] =
      some (lit "shop") := by decide +kernel
  cases hfirst.symm.trans hname
  refine ⟨?_, fun _ _ _ _ _ => by decide⟩
  intro wm hwm op hop name' hname'
  have hask : wm = buildInfoOn "shop" := by
    rcases List.mem_cons.mp hwm with h | h
    · exact h
    · exact List.mem_singleton.mp h
  rw [hask] at hop
  rw [hop] at hnamed
  exact Option.some.inj (hname'.symm.trans (of_decide_eq_true hnamed))

theorem sessions_balanced_of_one_database_visitor :
    total (lit "shop") (((visitor.ask "shop").ask "shop").close true true).changes = 0 := by
  have hopen : (visitor.ask "shop").isOpen = true ∧
      ((visitor.ask "shop").ask "shop").isOpen = true := by decide +kernel
  have hrun := Counted.runs_ask hopen
  have hlower : normalizeDatabaseName (lit "shop") = lit "shop" := by decide
  exact sessions_balanced_of_one_database hrun rfl hlower (by decide +kernel) (lit "shop")

/-- A client that asks under `admin` and then under `Shop` leaves a session of `admin` behind, and
takes one of `Shop` off that was never added. -/
theorem switched_database_unbalanced :
    ∃ events s, Runs (Counted.Turn plainDriver true true) visitor events s ∧ s.isOpen = false ∧
      events.reduceOption = [lit "admin", lit "Shop"] ∧
      total (lit "admin") s.changes = 1 ∧ total (lit "Shop") s.changes = -1 := by
  have hopen : (visitor.ask "admin").isOpen = true ∧
      ((visitor.ask "admin").ask "Shop").isOpen = true := by decide +kernel
  refine ⟨_, _, Counted.runs_ask hopen, rfl, ?_⟩
  decide +kernel

end MongoBouncer
