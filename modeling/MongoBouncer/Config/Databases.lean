import MongoBouncer.GoStd.Map
import MongoBouncer.Proxy.RouteMap
import MongoBouncer.Proxy.Connection

/-!
# The databases of the configuration

Model of the `databases` table in `config/config.go` and `config/proxies.go`: the check for names
that conflict, the database that an entry of the table describes, and the routes that are made of
them at startup. The loops over the table and over the databases visit them in any order.

* `validateDatabaseNames` : the check, with `patternsConflict`;
* `getDatabases`          : the databases, by normalised name;
* `databaseEntry`         : the route of a database.

Principal results: `validateDatabaseNames_iff` (the tables that are accepted) and
`collected_getDatabasesFrom` (where the databases come from).
-/

namespace MongoBouncer

open GoStd

/-! ## Values -/

/-- What the TOML decoder makes of a value; `other` are floats and times. -/
inductive TomlValue where
  | string (s : GoString)
  | integer (n : Int)
  | boolean (b : Bool)
  | array (items : List TomlValue)
  | table (fields : List (GoString × TomlValue))
  | other

/-- `v[key].(string)` -/
def stringField (v : List (GoString × TomlValue)) (key : String) : Option GoString :=
  match v.lookup (lit key) with
  | some (.string s) => some s
  | _ => none

/-- `v[key].(int64)` -/
def int64Field (v : List (GoString × TomlValue)) (key : String) : Option Int :=
  match v.lookup (lit key) with
  | some (.integer n) => some n
  | _ => none

/-- The string, if there is one and it is not empty. -/
def nonEmpty (s : Option GoString) : Option GoString := s.filter (· ≠ [])

namespace Config

/-! ## The check of the names -/

def sanitizeURI (uri : GoString) : GoString :=
  if contains uri (lit "@") then
    match splitByte 0x40 uri with
    | [first, _] =>
      if contains first (lit "://") then
        let userInfo := ((split first (lit "://")).drop 1).headD []
        if contains userInfo (lit ":") then
          let sanitized := (splitByte 0x3A userInfo).headD [] ++ lit ":***"
          replaceFirst uri userInfo sanitized
        else uri
      else uri
    | _ => uri
  else uri

/-- The connection string that `validateDatabaseNames` builds from the fields of an entry. -/
def fieldsConnectionString (v : List (GoString × TomlValue)) : GoString :=
  let host := (stringField v "host").getD (lit "localhost")
  let port := (int64Field v "port").getD 27017
  let user := (stringField v "user").getD []
  let password := (stringField v "password").getD []
  let connectionString :=
    if user ≠ [] ∧ password ≠ [] then
      lit "mongodb://" ++ user ++ lit ":" ++ password ++ lit "@" ++ host ++ lit ":" ++
        formatInt port
    else lit "mongodb://" ++ host ++ lit ":" ++ formatInt port
  match nonEmpty (stringField v "dbname") with
  | some dbname => connectionString ++ lit "/" ++ dbname
  | none => connectionString

/-- The connection string that `validateDatabaseNames` names in its errors. -/
def connectionStringOf : TomlValue → GoString
  | .string s => s
  | .table v => (nonEmpty (stringField v "connection_string")).getD (fieldsConnectionString v)
  | _ => []

/-- The names that `patternsConflict` tries. -/
def testNames : List GoString :=
  [ "test", "prod", "staging", "dev",
    "test_db", "prod_db", "staging_db", "dev_db",
    "app_test", "app_prod", "app_staging", "app_dev",
    "test_app", "prod_app", "staging_app", "dev_app",
    "myapp_test", "myapp_prod", "myapp_staging", "myapp_dev" ].map lit

/-- How many of the names a pattern matches; one that does not compile matches none. -/
def testMatches (pattern : GoString) : Nat :=
  let regex := replaceByte 0x2A (lit ".*") pattern
  testNames.countP fun testName =>
    (matchString (lit "^" ++ regex ++ lit "$") testName).getD false

def patternsConflict (pattern1 pattern2 : GoString) : Bool :=
  let matches1 := testMatches pattern1
  let matches2 := testMatches pattern2
  decide (matches1 > 0) && decide (matches2 > 0) && decide (matches1 = matches2)

/-- The names that `validateDatabaseNames` has seen, with their connection strings. -/
structure SeenNames where
  exactMatches : GoMap GoString GoString
  wildcardPatterns : GoMap GoString GoString
  prefixPatterns : GoMap GoString GoString
  suffixPatterns : GoMap GoString GoString
  containsPatterns : GoMap GoString GoString

namespace SeenNames

def empty : SeenNames := ⟨.empty, .empty, .empty, .empty, .empty⟩

/-- The loop over the patterns of one kind. Which of several conflicts it reports depends on the
order in which it visits them. -/
def conflictWith (patterns : GoMap GoString GoString) (name connectionString : GoString) :
    Option GoError :=
  (patterns.entries.find? fun e => patternsConflict name e.1).map fun e =>
    ⟨lit "conflicting database patterns detected: '" ++ name ++ lit "' and '" ++ e.1 ++
      lit "' may match the same databases but point to different connections (" ++
      sanitizeURI connectionString ++ lit " vs " ++ sanitizeURI e.2 ++ lit ")"⟩

/-- Puts a pattern among those of its kind; one with the asterisk in the middle is among those with
an asterisk at either end. -/
def categorize (s : SeenNames) (name connectionString : GoString) : SeenNames :=
  if hasPrefix name (lit "*") && hasSuffix name (lit "*") then
    { s with containsPatterns := s.containsPatterns.set name connectionString }
  else if hasPrefix name (lit "*") then
    { s with suffixPatterns := s.suffixPatterns.set name connectionString }
  else if hasSuffix name (lit "*") then
    { s with prefixPatterns := s.prefixPatterns.set name connectionString }
  else { s with containsPatterns := s.containsPatterns.set name connectionString }

/-- The loop body, for a normalised name. -/
def check (s : SeenNames) (name connectionString : GoString) : Except GoError SeenNames :=
  if name = lit "*" then
    match s.wildcardPatterns.get (lit "*") with
    | some existing =>
      .error ⟨lit "conflicting wildcard routes detected: both routes point to different " ++
        lit "connections (" ++ sanitizeURI existing ++ lit " vs " ++
        sanitizeURI connectionString ++ lit "). Only one wildcard route (*) is allowed"⟩
    | none => .ok { s with wildcardPatterns := s.wildcardPatterns.set (lit "*") connectionString }
  else if contains name (lit "*") then
    match conflictWith s.prefixPatterns name connectionString with
    | some e => .error e
    | none =>
      match conflictWith s.suffixPatterns name connectionString with
      | some e => .error e
      | none =>
        match conflictWith s.containsPatterns name connectionString with
        | some e => .error e
        | none => .ok (s.categorize name connectionString)
  else
    match s.exactMatches.get name with
    | some existing =>
      .error ⟨lit "duplicate database configuration detected: database '" ++ name ++
        lit "' is configured multiple times with different connections (" ++
        sanitizeURI existing ++ lit " vs " ++ sanitizeURI connectionString ++ lit ")"⟩
    | none => .ok { s with exactMatches := s.exactMatches.set name connectionString }

def checkAll (s : SeenNames) : List (GoString × TomlValue) → Except GoError SeenNames
  | [] => .ok s
  | (dbName, dbConfig) :: rest =>
    match s.check (normalizeDatabaseName dbName) (connectionStringOf dbConfig) with
    | .error e => .error e
    | .ok s => s.checkAll rest

end SeenNames

/-- `validateDatabaseNames`, in the order in which it visits the entries. -/
def validateDatabaseNames (order : List (GoString × TomlValue)) : Except GoError Unit :=
  if order.length = 0 then
    .error (errorf
      "no databases configured - MongoBouncer cannot run without database configuration")
  else
    match SeenNames.empty.checkAll order with
    | .error e => .error e
    | .ok _ => .ok ()

/-- Two normalised names that the check does not let stand together: the wildcard twice, an exact
name twice, or patterns that match as many of the test names. -/
def Clashes (a b : GoString) : Prop :=
  (a = lit "*" ∧ b = lit "*") ∨ (IsPattern a ∧ IsPattern b ∧ patternsConflict b a = true) ∨
    (0x2A ∉ a ∧ a = b)

theorem clashes_wildcard {b : GoString} : Clashes (lit "*") b ↔ b = lit "*" := by
  have hpattern : ¬ IsPattern (lit "*") := fun h => h.2 rfl
  have hstar : 0x2A ∈ lit "*" := by decide
  simp [Clashes, hpattern, hstar]

theorem clashes_pattern {a b : GoString} (ha : IsPattern a) :
    Clashes a b ↔ IsPattern b ∧ patternsConflict b a = true := by
  simp [Clashes, ha, ha.1, ha.2]

theorem clashes_exact {a b : GoString} (ha : 0x2A ∉ a) : Clashes a b ↔ b = a := by
  have hstar : a ≠ lit "*" := by
    rintro rfl
    exact ha (by decide)
  have hpattern : ¬ IsPattern a := fun h => ha h.1
  simp only [Clashes, hstar, hpattern, ha, false_and, false_or, not_false_eq_true, true_and]
  exact eq_comm

namespace SeenNames

/-- The patterns that were seen. -/
def patterns (s : SeenNames) : List GoString :=
  s.prefixPatterns.keys ++ s.suffixPatterns.keys ++ s.containsPatterns.keys

/-- The name clashes with none that was seen. -/
structure Accepts (s : SeenNames) (name : GoString) : Prop where
  wildcard : name = lit "*" → lit "*" ∉ s.wildcardPatterns.keys
  pattern : IsPattern name → ∀ p ∈ s.patterns, patternsConflict name p = false
  exact : 0x2A ∉ name → name ∉ s.exactMatches.keys

theorem accepts_empty (name : GoString) : empty.Accepts name := by
  refine ⟨?_, ?_, ?_⟩
  · intro _ h
    cases h
  · intro _ p h
    cases h
  · intro _ h
    cases h

theorem conflictWith_eq_none {m : GoMap GoString GoString} {name c : GoString} :
    conflictWith m name c = none ↔ ∀ p ∈ m.keys, patternsConflict name p = false := by
  simp [conflictWith, GoMap.keys]

theorem mem_patterns_categorize {s : SeenNames} {name c p : GoString} :
    p ∈ (s.categorize name c).patterns ↔ p = name ∨ p ∈ s.patterns := by
  unfold categorize patterns
  split
  · simp only [List.mem_append, GoMap.mem_keys_set]
    tauto
  · split
    · simp only [List.mem_append, GoMap.mem_keys_set]
      tauto
    · split
      · simp only [List.mem_append, GoMap.mem_keys_set]
        tauto
      · simp only [List.mem_append, GoMap.mem_keys_set]
        tauto

variable {s s' : SeenNames} {name c : GoString}

@[simp] theorem wildcardPatterns_categorize :
    (s.categorize name c).wildcardPatterns = s.wildcardPatterns := by
  unfold categorize
  split_ifs <;> rfl

@[simp] theorem exactMatches_categorize : (s.categorize name c).exactMatches = s.exactMatches := by
  unfold categorize
  split_ifs <;> rfl

theorem check_wildcard : s.check (lit "*") c = .ok s' ↔ lit "*" ∉ s.wildcardPatterns.keys ∧
      { s with wildcardPatterns := s.wildcardPatterns.set (lit "*") c } = s' := by
  rw [← GoMap.get_eq_none, check, if_pos rfl]
  cases s.wildcardPatterns.get (lit "*") with
  | none => simp
  | some existing => simp

theorem check_pattern (hname : IsPattern name) :
    s.check name c = .ok s' ↔ (∀ p ∈ s.patterns, patternsConflict name p = false) ∧
      s.categorize name c = s' := by
  have hcontains : contains name (lit "*") = true := RouteTable.contains_asterisk.mpr hname.1
  have hpatterns : (∀ p ∈ s.patterns, patternsConflict name p = false) ↔
      conflictWith s.prefixPatterns name c = none ∧ conflictWith s.suffixPatterns name c = none ∧
        conflictWith s.containsPatterns name c = none := by
    simp only [conflictWith_eq_none, patterns, List.forall_mem_append, and_assoc]
  rw [hpatterns, check, if_neg hname.2, if_pos hcontains]
  cases conflictWith s.prefixPatterns name c with
  | some e => simp
  | none =>
    cases conflictWith s.suffixPatterns name c with
    | some e => simp
    | none =>
      cases conflictWith s.containsPatterns name c with
      | some e => simp
      | none => simp

theorem check_exact (hname : 0x2A ∉ name) : s.check name c = .ok s' ↔ name ∉ s.exactMatches.keys ∧
      { s with exactMatches := s.exactMatches.set name c } = s' := by
  have hwild : name ≠ lit "*" := by
    rintro rfl
    exact hname (by decide)
  have hcontains : ¬ contains name (lit "*") = true := by
    rw [RouteTable.contains_asterisk]
    exact hname
  rw [← GoMap.get_eq_none, check, if_neg hwild, if_neg hcontains]
  cases s.exactMatches.get name with
  | none => simp
  | some existing => simp

theorem kinds (name : GoString) : name = lit "*" ∨ IsPattern name ∨ 0x2A ∉ name := by
  unfold IsPattern
  tauto

theorem exists_check : (∃ s', s.check name c = .ok s') ↔ s.Accepts name := by
  have hstar : 0x2A ∈ lit "*" := by decide
  rcases kinds name with rfl | hname | hname
  · simp only [check_wildcard, exists_and_left, exists_eq', and_true]
    refine ⟨fun h => ⟨fun _ => h, fun hp => absurd rfl hp.2, fun hp => absurd hstar hp⟩, ?_⟩
    exact fun h => h.wildcard rfl
  · simp only [check_pattern hname, exists_and_left, exists_eq', and_true]
    refine ⟨fun h => ⟨fun hp => absurd hp hname.2, fun _ => h, fun hp => absurd hname.1 hp⟩, ?_⟩
    exact fun h => h.pattern hname
  · simp only [check_exact hname, exists_and_left, exists_eq', and_true]
    refine ⟨fun h => ⟨?_, fun hp => absurd hp.1 hname, fun _ => h⟩, fun h => h.exact hname⟩
    rintro rfl
    exact absurd hstar hname

theorem accepts_check (h : s.check name c = .ok s') (b : GoString) :
    s'.Accepts b ↔ s.Accepts b ∧ ¬ Clashes name b := by
  rcases kinds name with rfl | hname | hname
  · obtain ⟨-, rfl⟩ := check_wildcard.mp h
    rw [clashes_wildcard]
    constructor
    · intro hb
      refine ⟨⟨?_, hb.pattern, hb.exact⟩, ?_⟩
      · intro hwild hmem
        exact hb.wildcard hwild (GoMap.mem_keys_set.mpr (Or.inr hmem))
      · intro hwild
        exact hb.wildcard hwild (GoMap.mem_keys_set.mpr (Or.inl rfl))
    · rintro ⟨hb, hclash⟩
      exact ⟨fun hwild => absurd hwild hclash, hb.pattern, hb.exact⟩
  · obtain ⟨-, rfl⟩ := (check_pattern hname).mp h
    rw [clashes_pattern hname]
    constructor
    · intro hb
      refine ⟨⟨by simpa using hb.wildcard, ?_, by simpa using hb.exact⟩, ?_⟩
      · intro hpattern p hp
        exact hb.pattern hpattern p (mem_patterns_categorize.mpr (Or.inr hp))
      · rintro ⟨hpattern, hconflict⟩
        rw [hb.pattern hpattern name (mem_patterns_categorize.mpr (Or.inl rfl))] at hconflict
        cases hconflict
    · rintro ⟨hb, hclash⟩
      refine ⟨by simpa using hb.wildcard, ?_, by simpa using hb.exact⟩
      intro hpattern p hp
      rcases mem_patterns_categorize.mp hp with rfl | hp
      · exact Bool.eq_false_iff.mpr fun hconflict => hclash ⟨hpattern, hconflict⟩
      · exact hb.pattern hpattern p hp
  · obtain ⟨-, rfl⟩ := (check_exact hname).mp h
    rw [clashes_exact hname]
    constructor
    · intro hb
      refine ⟨⟨hb.wildcard, hb.pattern, ?_⟩, ?_⟩
      · intro hexact hmem
        exact hb.exact hexact (GoMap.mem_keys_set.mpr (Or.inr hmem))
      · intro hsame
        exact hb.exact (hsame ▸ hname) (GoMap.mem_keys_set.mpr (Or.inl hsame))
    · rintro ⟨hb, hclash⟩
      refine ⟨hb.wildcard, hb.pattern, ?_⟩
      intro hexact hmem
      exact (GoMap.mem_keys_set.mp hmem).elim hclash (hb.exact hexact)

/-- **The loop accepts the entries that clash with none that was seen, nor with each other.** -/
theorem exists_checkAll (order : List (GoString × TomlValue)) : (∃ s', s.checkAll order = .ok s') ↔
      (∀ e ∈ order, s.Accepts (normalizeDatabaseName e.1)) ∧ order.Pairwise fun e e' =>
          ¬ Clashes (normalizeDatabaseName e.1) (normalizeDatabaseName e'.1) := by
  induction order generalizing s with
  | nil => simp [checkAll]
  | cons e rest ih =>
    obtain ⟨dbName, dbConfig⟩ := e
    have haccepts : (∃ s', s.check (normalizeDatabaseName dbName) (connectionStringOf dbConfig) =
        .ok s') ↔ s.Accepts (normalizeDatabaseName dbName) := exists_check
    rw [List.pairwise_cons, List.forall_mem_cons, ← haccepts, checkAll]
    cases hcheck : s.check (normalizeDatabaseName dbName) (connectionStringOf dbConfig) with
    | error err => simp
    | ok s₁ =>
      simp only [ih, accepts_check hcheck]
      constructor
      · rintro ⟨hrest, hpairwise⟩
        exact ⟨⟨⟨s₁, rfl⟩, fun e he => (hrest e he).1⟩, fun e he => (hrest e he).2, hpairwise⟩
      · rintro ⟨⟨-, hrest⟩, hclash, hpairwise⟩
        exact ⟨fun e he => ⟨hrest e he, hclash e he⟩, hpairwise⟩

end SeenNames

/-- **The tables that are accepted**: those with an entry, and with no two names that clash. -/
theorem validateDatabaseNames_iff (order : List (GoString × TomlValue)) :
    validateDatabaseNames order = .ok () ↔ order ≠ [] ∧ order.Pairwise fun e e' =>
        ¬ Clashes (normalizeDatabaseName e.1) (normalizeDatabaseName e'.1) := by
  have hloop : (∃ s', SeenNames.empty.checkAll order = .ok s') ↔ order.Pairwise fun e e' =>
      ¬ Clashes (normalizeDatabaseName e.1) (normalizeDatabaseName e'.1) := by
    simp only [SeenNames.exists_checkAll, SeenNames.accepts_empty, implies_true, true_and]
  rw [← hloop, validateDatabaseNames]
  split
  · rename_i hempty
    simp [List.length_eq_zero_iff.mp hempty]
  · rename_i hempty
    have hne : order ≠ [] := fun h => hempty (List.length_eq_zero_iff.mpr h)
    cases SeenNames.empty.checkAll order with
    | error e => simp
    | ok s => simp [hne]

theorem patternsConflict_iff {a b : GoString} :
    patternsConflict a b = true ↔ 0 < testMatches a ∧ testMatches a = testMatches b := by
  simp only [patternsConflict, Bool.and_eq_true, decide_eq_true_eq]
  omega

theorem patternsConflict_comm (a b : GoString) : patternsConflict a b = patternsConflict b a := by
  rw [Bool.eq_iff_iff, patternsConflict_iff, patternsConflict_iff]
  omega

theorem Clashes.symm {a b : GoString} (h : Clashes a b) : Clashes b a := by
  rcases h with ⟨ha, hb⟩ | ⟨ha, hb, hconflict⟩ | ⟨ha, rfl⟩
  · exact Or.inl ⟨hb, ha⟩
  · rw [patternsConflict_comm] at hconflict
    exact Or.inr (Or.inl ⟨hb, ha, hconflict⟩)
  · exact Or.inr (Or.inr ⟨ha, rfl⟩)

variable {order : List (GoString × TomlValue)}

theorem not_clashes_of_valid
    (h : validateDatabaseNames order = .ok ()) {x y : GoString × TomlValue} (hx : x ∈ order)
    (hy : y ∈ order) (hne : x ≠ y) :
    ¬ Clashes (normalizeDatabaseName x.1) (normalizeDatabaseName y.1) := by
  have hpairwise := ((validateDatabaseNames_iff order).mp h).2
  have : Std.Symm fun e e' : GoString × TomlValue =>
      ¬ Clashes (normalizeDatabaseName e.1) (normalizeDatabaseName e'.1) :=
    ⟨fun _ _ hxy hclash => hxy hclash.symm⟩
  exact hpairwise.forall hx hy hne

/-! ## The databases -/

/-- `Database`: what the route of the database is made of. -/
structure Database where
  connectionString : GoString
  host : GoString
  port : Int
  dbName : GoString
  topology : Option TopologyKind
  deriving DecidableEq, Repr

/-- How the process ends early: `panic`, or `logger.Fatal`. -/
inductive Exit where
  | panicked (text : GoString)
  | fatal (text : GoString) (err : GoError)
  deriving DecidableEq, Repr

/-- `GetTopology`; no text in lower case is `loadBalanced`. -/
def getTopology (topology : GoString) : Except GoError TopologyKind :=
  let lowered := toLower topology
  if lowered = lit "single" then .ok .single
  else if lowered = lit "sharded" then .ok .sharded
  else if lowered = lit "loadBalanced" then .ok .loadBalanced
  else .error ⟨lit "invalid topology: " ++ topology⟩

/-- The connection string that `GetDatabases` builds from the fields of an entry. -/
def basicConnectionString (v : List (GoString × TomlValue)) : GoString :=
  let host := (nonEmpty (stringField v "host")).getD (lit "localhost")
  let port := ((int64Field v "port").filter (· > 0)).getD 27017
  match nonEmpty (stringField v "dbname") with
  | some dbname =>
    lit "mongodb://" ++ host ++ lit ":" ++ formatInt port ++ lit "/" ++ dbname
  | none => lit "mongodb://" ++ host ++ lit ":" ++ formatInt port

/-- The database of an entry with fields. -/
def database (v : List (GoString × TomlValue)) : Except Exit Database :=
  let db (topology : Option TopologyKind) : Database :=
    { connectionString :=
        (nonEmpty (stringField v "connection_string")).getD (basicConnectionString v)
      host := (stringField v "host").getD []
      port := (int64Field v "port").getD 0
      dbName := (stringField v "dbname").getD []
      topology }
  match stringField v "topology" with
  | none => .ok (db none)
  | some topology =>
    match getTopology topology with
    | .ok kind => .ok (db (some kind))
    | .error err => .error (.fatal (lit "Error verifying topology") err)

/-- The database of an entry, if it describes one. -/
def databaseOf (name : GoString) : TomlValue → Except Exit (Option Database)
  | .string v =>
    .error (.panicked (lit "invalid database configuration for '" ++ name ++
      lit "': simple string format is no longer supported. Please use structured format with " ++
      lit "'connection_string' field. Example: " ++ name ++ lit " = \x7b connection_string = \"" ++ v ++ lit "\" \x7d"))
  | .table v => (database v).map some
  | _ => .ok none

/-- The loop of `GetDatabases`. -/
def getDatabasesFrom (result : GoMap GoString Database) :
    List (GoString × TomlValue) → Except Exit (GoMap GoString Database)
  | [] => .ok result
  | (name, dbConfig) :: rest =>
    match databaseOf (normalizeDatabaseName name) dbConfig with
    | .error e => .error e
    | .ok none => getDatabasesFrom result rest
    | .ok (some db) => getDatabasesFrom (result.set (normalizeDatabaseName name) db) rest

/-- `GetDatabases`, in the order in which it visits the entries. -/
def getDatabases (order : List (GoString × TomlValue)) : Except Exit (GoMap GoString Database) :=
  getDatabasesFrom .empty order

/-- The entry `x` of the table describes the database `e`. -/
def Describes (x : GoString × TomlValue) (e : GoString × Database) : Prop :=
  normalizeDatabaseName x.1 = e.1 ∧ databaseOf e.1 x.2 = .ok (some e.2)

/-- The entry ends the process. -/
def Aborts (x : GoString × TomlValue) : Prop :=
  ∃ e, databaseOf (normalizeDatabaseName x.1) x.2 = .error e

/-- The databases come from the entries, and every entry that describes one leaves one under its
name. -/
structure Collected (order : List (GoString × TomlValue)) (before result : GoMap GoString Database) :
    Prop where
  origin : ∀ e ∈ result.entries, e ∈ before.entries ∨ ∃ x ∈ order, Describes x e
  kept : ∀ k ∈ before.keys, k ∈ result.keys
  named : ∀ x ∈ order, ∀ e, Describes x e → e.1 ∈ result.keys

theorem collected_getDatabasesFrom :
    ∀ {before result : GoMap GoString Database}, getDatabasesFrom before order = .ok result →
      Collected order before result := by
  induction order with
  | nil =>
    intro before result h
    cases h
    exact ⟨fun e he => Or.inl he, fun k hk => hk, fun x hx => by cases hx⟩
  | cons x rest ih =>
    obtain ⟨name, dbConfig⟩ := x
    intro before result h
    have htail : ∀ e, (∃ x ∈ rest, Describes x e) → ∃ x ∈ (name, dbConfig) :: rest, Describes x e :=
      fun e ⟨x, hx, he⟩ => ⟨x, List.mem_cons_of_mem _ hx, he⟩
    rw [getDatabasesFrom] at h
    split at h
    · cases h
    · rename_i hnone
      obtain ⟨horigin, hkept, hnamed⟩ := ih h
      refine ⟨fun e he => (horigin e he).imp_right (htail e), hkept, ?_⟩
      intro x hx e hdescribes
      rcases List.mem_cons.mp hx with rfl | hx
      · obtain ⟨hname, hdb⟩ := hdescribes
        rw [← hname, hnone] at hdb
        cases hdb
      · exact hnamed x hx e hdescribes
    · rename_i db hdb
      obtain ⟨horigin, hkept, hnamed⟩ := ih h
      refine ⟨?_, ?_, ?_⟩
      · intro e he
        rcases horigin e he with hset | hrest
        · rcases GoMap.mem_set.mp hset with rfl | ⟨-, hbefore⟩
          · exact Or.inr ⟨(name, dbConfig), List.mem_cons_self, rfl, hdb⟩
          · exact Or.inl hbefore
        · exact Or.inr (htail e hrest)
      · intro k hk
        exact hkept k (GoMap.mem_keys_set.mpr (Or.inr hk))
      · intro x hx e hdescribes
        rcases List.mem_cons.mp hx with rfl | hx
        · apply hkept
          exact GoMap.mem_keys_set.mpr (Or.inl hdescribes.1.symm)
        · exact hnamed x hx e hdescribes

theorem mem_getDatabasesFrom_append {x : GoString × TomlValue} {e : GoString × Database}
    (hx : Describes x e) :
    ∀ {before result : GoMap GoString Database},
      getDatabasesFrom before (order ++ [x]) = .ok result → e ∈ result.entries := by
  induction order with
  | nil =>
    obtain ⟨name, dbConfig⟩ := x
    obtain ⟨k, db⟩ := e
    obtain ⟨rfl, hdb⟩ := hx
    intro before result h
    simp only [List.nil_append, getDatabasesFrom, hdb] at h
    cases h
    exact GoMap.mem_set.mpr (Or.inl rfl)
  | cons y rest ih =>
    obtain ⟨name, dbConfig⟩ := y
    intro before result h
    rw [List.cons_append, getDatabasesFrom] at h
    split at h
    · cases h
    · exact ih h
    · exact ih h

theorem exists_getDatabasesFrom : ∀ {before : GoMap GoString Database},
      (∃ result, getDatabasesFrom before order = .ok result) ↔ ∀ x ∈ order, ¬ Aborts x := by
  induction order with
  | nil => simp [getDatabasesFrom]
  | cons x rest ih =>
    obtain ⟨name, dbConfig⟩ := x
    intro before
    rw [List.forall_mem_cons, getDatabasesFrom]
    cases hdb : databaseOf (normalizeDatabaseName name) dbConfig with
    | error e =>
      have hhead : Aborts (name, dbConfig) := ⟨e, hdb⟩
      constructor
      · rintro ⟨result, h⟩
        cases h
      · rintro ⟨hno, -⟩
        exact absurd hhead hno
    | ok o =>
      have hhead : ¬ Aborts (name, dbConfig) := by
        rintro ⟨e, he⟩
        have he' : databaseOf (normalizeDatabaseName name) dbConfig = .error e := he
        rw [hdb] at he'
        cases he'
      rw [and_iff_right hhead]
      cases o with
      | none => exact ih
      | some db => exact ih

/-- The connection string of the route that `Proxies` makes. -/
def Database.routeConnectionString (db : Database) : GoString :=
  if db.connectionString ≠ [] then db.connectionString
  else lit "mongodb://" ++ db.host ++ lit ":" ++ formatInt db.port ++ lit "/" ++ db.dbName

/-- The route that `Proxies` makes for a database; `connects` says for which databases it can make
a client. -/
def databaseEntry (connects : GoString → Bool) (e : GoString × Database) : DatabaseEntry :=
  { name := e.1
    connectionString := e.2.routeConnectionString
    topology := e.2.topology
    connects := connects e.1 }

end Config

end MongoBouncer
