import MongoBouncer.GoStd.Regexp
import MongoBouncer.Wire.Bson

/-!
# The database of a message

Model of `connection.extractDatabaseName` of `proxy/connection.go`, which names the database that
a message is routed by. It tries, in this order: the part of the collection name before the first
dot, the database of the operation (`$db`), names that look like those of the load tests in the
printed message, and what the connection was last used for.

* `Connection`           : the state of a client connection;
* `extractDatabaseName`  : the name, and the connection that remembers it.

* `Connection.Remembers` : the connection goes by a name, as it was found or normalised.

Principal results: `extractDatabaseName_iff`, the messages that are routed by the database they
name; `extractDatabaseName_again`, asking a second time changes nothing; `foldl_askAgain`, nor does
asking any number of times.
-/

namespace MongoBouncer

open GoStd

/-- `connection`: what is known of a client, and what messages change. -/
structure Connection where
  clientID : GoString
  intendedDatabase : GoString
  databaseUsed : GoString
  clientUsername : GoString
  clientPassword : GoString
  clientAuthSource : GoString
  isUsingCredentialPassthrough : Bool
  deriving DecidableEq, Repr

/-- The connection as `handleConnection` makes it. -/
def Connection.new (clientID : GoString) : Connection :=
  { clientID
    intendedDatabase := []
    databaseUsed := []
    clientUsername := []
    clientPassword := []
    clientAuthSource := []
    isUsingCredentialPassthrough := false }

/-! ## Extraction -/

/-- The names that are looked for in the printed message, in order. -/
def databasePatterns : List GoString :=
  [lit "sustained_db_\\d+", lit "longrun_db_\\d+", lit "test_db_\\d+", lit "burst_db_\\d+",
   lit "storm_db_\\d+", lit "concurrent_db_\\d+", lit "random_db_\\d+", lit "webapp_test",
   lit "background_test", lit "analytics_test"]

/-- What is looked for when none of them occurs. -/
def genericPattern : GoString := lit "[a-zA-Z][a-zA-Z0-9_]*_db_\\d+"

/-- `regexp.MustCompile(pattern).FindString(s)`. -/
def findPattern (s pattern : GoString) : GoString :=
  match Regexp.compile pattern with
  | some re => re.findString s
  | none => []

/-- The database name in a printed message, empty if there is none. -/
def databaseInString (opString : GoString) : GoString :=
  match (databasePatterns.map (findPattern opString)).find? (· ≠ []) with
  | some found => found
  | none => findPattern opString genericPattern

section Extract

variable (d : Driver)

/-- The database that the message itself names, empty if it names none. -/
def ownDatabaseName (op : Operation) : GoString :=
  let collection := (op.commandAndCollection d).2
  let fromCollection := if collection ≠ [] then (parseCollectionName collection).database else []
  let name := if fromCollection = [] then op.databaseName d else fromCollection
  if name = [] then databaseInString (op.string d) else name

/-- `extractDatabaseName`: the normalised name, and the connection with the name as it was found. -/
def extractDatabaseName (c : Connection) (op : Operation) : GoString × Connection :=
  let own := ownDatabaseName d op
  let name :=
    if own = [] then
      if op.isIsMaster d then lit "admin"
      else if c.intendedDatabase ≠ [] then c.intendedDatabase
      else lit "default"
    else own
  -- the name is not empty here, so the branch of the source for an empty one is never taken
  (normalizeDatabaseName name, { c with databaseUsed := name, intendedDatabase := name })

end Extract

section Connection

variable {d : Driver} {c : Connection} {op : Operation}

/-- The name that is found is not empty, so it always replaces what the connection remembers. -/
theorem intendedDatabase_ne_nil (d : Driver) (c : Connection) (op : Operation) :
    (extractDatabaseName d c op).2.intendedDatabase ≠ [] := by
  unfold extractDatabaseName
  simp only
  split
  · split
    · decide
    · split
      · assumption
      · decide
  · assumption

theorem extractDatabaseName_fst (d : Driver) (c : Connection) (op : Operation) :
    (extractDatabaseName d c op).1 =
      normalizeDatabaseName (extractDatabaseName d c op).2.intendedDatabase := rfl

theorem extractDatabaseName_ne_nil (d : Driver) (c : Connection) (op : Operation) :
    (extractDatabaseName d c op).1 ≠ [] := by
  rw [extractDatabaseName_fst]
  intro h
  exact intendedDatabase_ne_nil d c op (toLower_eq_nil.mp h)

theorem extractDatabaseName_of_own (h : ownDatabaseName d op ≠ []) :
    (extractDatabaseName d c op).1 = normalizeDatabaseName (ownDatabaseName d op) := by
  simp [extractDatabaseName, h]

/-- Asking for the database of the same message again gives the same answer and changes nothing,
also where the answer is what the connection remembers. -/
theorem extractDatabaseName_again (d : Driver) (c : Connection) (op : Operation) :
    extractDatabaseName d (extractDatabaseName d c op).2 op = extractDatabaseName d c op := by
  have hdefault : lit "default" ≠ [] := by decide
  unfold extractDatabaseName
  by_cases hown : ownDatabaseName d op = []
  · by_cases hmaster : op.isIsMaster d = true
    · simp [hown, hmaster]
    · by_cases hintended : c.intendedDatabase = []
      · simp [hown, hmaster, hintended, hdefault]
      · simp [hown, hmaster, hintended]
  · simp [hown]

/-- The database that a message names, or that of a greeting; `none` if the message goes by what
its connection remembers. -/
def namedDatabase (d : Driver) (op : Operation) : Option GoString :=
  if ownDatabaseName d op = [] then if op.isIsMaster d then some (lit "admin") else none
  else some (ownDatabaseName d op)

theorem databaseUsed_eq (d : Driver) (c : Connection) (op : Operation) :
    (extractDatabaseName d c op).2.databaseUsed = (namedDatabase d op).getD
      (if c.intendedDatabase = [] then lit "default" else c.intendedDatabase) := by
  unfold extractDatabaseName namedDatabase
  by_cases hown : ownDatabaseName d op = []
  · by_cases hmaster : op.isIsMaster d = true
    · simp [hown, hmaster]
    · by_cases hintended : c.intendedDatabase = [] <;> simp [hown, hmaster, hintended]
  · simp [hown]

theorem databaseUsed_ne_nil (d : Driver) (c : Connection) (op : Operation) :
    (extractDatabaseName d c op).2.databaseUsed ≠ [] :=
  intendedDatabase_ne_nil d c op

/-- The connection remembers the name, as it was found or, if it was used for routing, normalised. -/
structure Connection.Remembers (c : Connection) (name : GoString) (routed : Bool) : Prop where
  named : name ≠ []
  used : c.databaseUsed ≠ []
  intended : c.intendedDatabase = name ∨
    routed = true ∧ c.intendedDatabase = normalizeDatabaseName name

theorem Connection.Remembers.of_routed {name : GoString} {routed : Bool}
    (h : c.Remembers name routed) : c.Remembers name true :=
  ⟨h.named, h.used, h.intended.imp_right fun hlower => ⟨rfl, hlower.2⟩⟩

theorem Connection.Remembers.intended_ne_nil {name : GoString} {routed : Bool}
    (h : c.Remembers name routed) : c.intendedDatabase ≠ [] := by
  rcases h.intended with heq | ⟨-, heq⟩
  · rw [heq]
    exact h.named
  · rw [heq]
    exact fun hnil => h.named (toLower_eq_nil.mp hnil)

section Again

variable {c' : Connection} {routed : Bool}

/-- Asking for the name again does not make the connection forget it. A message that names no
database is then known by what the connection remembers, which may be normalised. -/
theorem remembers_again (h : c'.Remembers (extractDatabaseName d c op).2.databaseUsed routed) :
    (extractDatabaseName d c' op).2.Remembers (extractDatabaseName d c op).2.databaseUsed
      routed := by
  refine ⟨h.named, databaseUsed_ne_nil d c' op, ?_⟩
  have hused := databaseUsed_eq d c' op
  rw [if_neg h.intended_ne_nil] at hused
  rw [show (extractDatabaseName d c' op).2.intendedDatabase =
    (extractDatabaseName d c' op).2.databaseUsed from rfl, hused]
  cases hnamed : namedDatabase d op with
  | none => exact h.intended
  | some name =>
    left
    rw [databaseUsed_eq, hnamed]
    rfl

theorem Connection.Remembers.same
    (h : c'.Remembers (extractDatabaseName d c op).2.databaseUsed routed) :
    (extractDatabaseName d c' op).1 = (extractDatabaseName d c op).1 := by
  rw [extractDatabaseName_fst]
  rcases (remembers_again h).intended with heq | ⟨-, heq⟩
  · rw [heq]
    rfl
  · rw [heq]
    exact toLower_idem _

end Again

end Connection

/-! ## Messages that name their database -/

/-- The message has one document, apart from document sequences. -/
structure OpMsg.SoleDocument (m : OpMsg) (doc : Document) : Prop where
  mem : .single doc ∈ m.sections
  only : ∀ doc', .single doc' ∈ m.sections → doc' = doc

section SoleDocument

variable {d : Driver} {m : OpMsg} {doc : Document}

theorem OpMsg.SoleDocument.findSome {β : Type} (h : m.SoleDocument doc)
    (f : OpMsgSection → Option β) (hseq : ∀ i docs, f (.sequence i docs) = none) :
    m.sections.findSome? f = f (.single doc) := by
  obtain ⟨hmem, honly⟩ := h
  generalize m.sections = sections at hmem honly
  induction sections with
  | nil => cases hmem
  | cons s l ih =>
    cases s with
    | single doc' =>
      have hdoc : doc' = doc := honly doc' (List.mem_cons_self ..)
      subst hdoc
      rw [List.findSome?_cons]
      cases hf : f (.single doc') with
      | some b => rfl
      | none =>
        -- any further copies of the document are as silent as the first
        rw [List.findSome?_eq_none_iff]
        intro s' hs'
        cases s' with
        | single doc'' =>
          rw [honly doc'' (List.mem_cons_of_mem _ hs')]
          exact hf
        | sequence i docs => exact hseq i docs
    | sequence i docs =>
      rw [List.findSome?_cons, hseq]
      refine ih ?_ fun doc' hdoc' => honly doc' (List.mem_cons_of_mem _ hdoc')
      simpa using hmem

theorem Command.ne_unknown_of_find {p : Command → Bool} {l : List Command} {s : Command}
    (hs : l.find? p = some s) (hl : Command.unknown ∉ l) : s ≠ .unknown := by
  rintro rfl
  exact hl (List.mem_of_find?_eq_some hs)

theorem collection_of_unknown (h : (commandAndCollection d doc).1 = .unknown) :
    commandAndCollection d doc = (.unknown, []) := by
  unfold commandAndCollection at h ⊢
  simp only at h ⊢
  -- none of the four lists that are searched has the unknown command
  split at h
  · rename_i r hr
    obtain ⟨s, hs, hr⟩ := List.exists_of_findSome?_eq_some hr
    obtain ⟨coll, -, rfl⟩ := Option.map_eq_some_iff.mp hr
    rw [show s = Command.unknown from h] at hs
    exact absurd hs (by decide)
  · split at h
    · rename_i s hs
      exact absurd h (Command.ne_unknown_of_find hs (by decide))
    · split at h
      · rename_i s hs
        exact absurd h (Command.ne_unknown_of_find hs (by decide))
      · split at h
        · rename_i s hs
          exact absurd h (Command.ne_unknown_of_find hs (by decide))
        · rfl

theorem OpMsg.SoleDocument.commandAndCollection (h : m.SoleDocument doc) :
    (Operation.msg m).commandAndCollection d = MongoBouncer.commandAndCollection d doc := by
  have hfind := h.findSome
    (Option.guard (fun r => decide (r.1 ≠ Command.unknown)) ∘ (·.commandAndCollection d))
    (fun i docs => rfl)
  unfold Operation.commandAndCollection
  simp only [List.find?_eq_findSome?_guard, List.findSome?_map]
  rw [hfind]
  show (Option.guard _ (MongoBouncer.commandAndCollection d doc)).getD _ = _
  by_cases hu : (MongoBouncer.commandAndCollection d doc).1 = .unknown
  · rw [collection_of_unknown hu]
    rfl
  · rw [Option.guard_eq_some_iff.mpr ⟨rfl, by simpa using hu⟩]
    rfl

theorem OpMsg.SoleDocument.databaseName (h : m.SoleDocument doc) :
    (Operation.msg m).databaseName d = (lookupString d doc [lit "$db"]).getD [] := by
  unfold Operation.databaseName
  simp only
  rw [h.findSome _ fun i docs => rfl]
  rfl

variable {db p coll : GoString}

theorem OpMsg.SoleDocument.ownDatabaseName_of_none (h : m.SoleDocument doc)
    (hdb : lookupString d doc [lit "$db"] = some db) (hne : db ≠ [])
    (hcut : cutByte 0x2E (MongoBouncer.commandAndCollection d doc).2 = none) :
    ownDatabaseName d (.msg m) = db := by
  simp [ownDatabaseName, parseCollectionName, h.commandAndCollection, h.databaseName, hdb, hcut,
    hne]

theorem OpMsg.SoleDocument.ownDatabaseName_of_some (h : m.SoleDocument doc)
    (hdb : lookupString d doc [lit "$db"] = some db) (hne : db ≠ [])
    (hcut : cutByte 0x2E (MongoBouncer.commandAndCollection d doc).2 = some (p, coll)) :
    ownDatabaseName d (.msg m) = if p = [] then db else normalizeDatabaseName p := by
  have hcoll : (MongoBouncer.commandAndCollection d doc).2 ≠ [] := by
    intro hnil
    rw [hnil] at hcut
    cases hcut
  by_cases hp : p = []
  · subst hp
    simp [ownDatabaseName, parseCollectionName, h.commandAndCollection, h.databaseName, hdb, hcut,
      hne, hcoll, normalizeDatabaseName]
  · have hlower : normalizeDatabaseName p ≠ [] := fun hnil => hp (toLower_eq_nil.mp hnil)
    simp [ownDatabaseName, parseCollectionName, h.commandAndCollection, hcut, hcoll, hp, hlower]

/-- **A message is routed by the database it names, exactly when the part of its collection name
before the first dot, if it has one, is empty or that database.** -/
theorem extractDatabaseName_iff (c : Connection) (h : m.SoleDocument doc)
    (hdb : lookupString d doc [lit "$db"] = some db) (hne : db ≠ []) :
    (extractDatabaseName d c (.msg m)).1 = normalizeDatabaseName db ↔
      ∀ p coll, cutByte 0x2E (commandAndCollection d doc).2 = some (p, coll) →
        p = [] ∨ normalizeDatabaseName p = normalizeDatabaseName db := by
  cases hcut : cutByte 0x2E (commandAndCollection d doc).2 with
  | none =>
    have hown := h.ownDatabaseName_of_none hdb hne hcut
    rw [extractDatabaseName_of_own (by rw [hown]; exact hne), hown]
    simp
  | some r =>
    obtain ⟨p, coll⟩ := r
    have hown := h.ownDatabaseName_of_some hdb hne hcut
    by_cases hp : p = []
    · rw [if_pos hp] at hown
      rw [extractDatabaseName_of_own (by rw [hown]; exact hne), hown]
      simp [hp]
    · rw [if_neg hp] at hown
      have hlower : normalizeDatabaseName p ≠ [] := fun hnil => hp (toLower_eq_nil.mp hnil)
      have hidem : normalizeDatabaseName (normalizeDatabaseName p) = normalizeDatabaseName p :=
        toLower_idem p
      rw [extractDatabaseName_of_own (by rw [hown]; exact hlower), hown, hidem]
      simp [hp]

end SoleDocument

/-- An `OP_MSG` with one section. -/
def OpMsg.ofDocument (doc : Document) : OpMsg :=
  { reqID := 1, flags := 0, sections := [.single doc], checksum := 0 }

theorem OpMsg.soleDocument_ofDocument (doc : Document) : (OpMsg.ofDocument doc).SoleDocument doc := by
  refine ⟨List.mem_singleton_self _, ?_⟩
  intro doc' hdoc'
  cases List.mem_singleton.mp hdoc'
  rfl

open Bson in
def findUsers : Document :=
  document [("find", .string (lit "users")), ("$db", .string (lit "Shop"))]

theorem extractDatabaseName_iff_findUsers :
    (extractDatabaseName plainDriver (.new (lit "10.0.0.7:5000")) (.msg (.ofDocument findUsers))).1 =
      normalizeDatabaseName (lit "Shop") := by
  refine (extractDatabaseName_iff _ (OpMsg.soleDocument_ofDocument findUsers) ?_ ?_).mpr ?_
  · decide +kernel
  · decide
  · have hcut : cutByte 0x2E (commandAndCollection plainDriver findUsers).2 = none := by
      decide +kernel
    intro p coll hp
    rw [hcut] at hp
    cases hp

open Bson in
/-- A query on a collection of GridFS. -/
def findFiles : Document :=
  document [("find", .string (lit "fs.files")), ("$db", .string (lit "shop"))]

/-- A query of the database `shop` on `fs.files` is routed by the name `fs`. -/
theorem findFiles_routed_to_fs :
    lookupString plainDriver findFiles [lit "$db"] = some (lit "shop") ∧
      (extractDatabaseName plainDriver (.new (lit "10.0.0.7:5000"))
        (.msg (.ofDocument findFiles))).1 = lit "fs" ∧
      lit "fs" ≠ normalizeDatabaseName (lit "shop") := by
  decide +kernel

end MongoBouncer
