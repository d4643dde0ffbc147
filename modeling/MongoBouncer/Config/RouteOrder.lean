import MongoBouncer.Config.Databases

/-!
# Routes and the order of the configuration

`GetDatabases` and `Proxies` range over Go maps, so the order in which the routes are added is
arbitrary, and differs from one start to the next. A name that several patterns match goes to the
one that was added first.

* `MayRoute`    : the connection strings that a name may be routed to;
* `Starts`      : the proxies that a table of databases may start;
* `Unambiguous` : patterns that match a name together have one connection string.

Principal results: `Starts.mayRoute` and `exists_starts` (a name is routed to where it may be
routed, and to each of these places in some order), and `routing_order_independent_iff`.
-/

namespace MongoBouncer

open GoStd Config Function

/-! ## Where a name may be routed to -/

section Outcomes

variable {T T' : GoString → GoString → Prop} {name : GoString}

def NoExactTarget (T : GoString → GoString → Prop) (name : GoString) : Prop :=
  0x2A ∉ name → ∀ c, ¬ T name c

/-- No pattern matches the name. -/
def NoPatternTarget (T : GoString → GoString → Prop) (name : GoString) : Prop :=
  ∀ p c, T p c → IsPattern p → Matches p name = false

/-- Where a normalised name may be routed to, if `T` are the normalised names of the configuration
with their connection strings: to the exact one, else to that of any pattern that matches it, else
to that of the wildcard. -/
inductive MayRoute (T : GoString → GoString → Prop) (name : GoString) :
    Option GoString → Prop where
  | exact {c : GoString} (hname : 0x2A ∉ name) (h : T name c) : MayRoute T name (some c)
  | pattern {p c : GoString} (hexact : NoExactTarget T name) (hp : T p c) (hpattern : IsPattern p)
      (hmatches : Matches p name = true) : MayRoute T name (some c)
  | wildcard {c : GoString} (hexact : NoExactTarget T name) (hpattern : NoPatternTarget T name)
      (h : T (lit "*") c) : MayRoute T name (some c)
  | missing (hexact : NoExactTarget T name) (hpattern : NoPatternTarget T name)
      (h : ∀ c, ¬ T (lit "*") c) : MayRoute T name none

theorem MayRoute.mono (hsub : ∀ p c, T p c → T' p c) (hnames : ∀ p c, T' p c → ∃ c', T p c')
    {o : Option GoString} (h : MayRoute T name o) : MayRoute T' name o := by
  have hexact' : NoExactTarget T name → NoExactTarget T' name := by
    intro hexact hname c hc
    obtain ⟨c', hc'⟩ := hnames name c hc
    exact hexact hname c' hc'
  have hpattern' : NoPatternTarget T name → NoPatternTarget T' name := by
    intro hpattern p c hp hstar
    obtain ⟨c', hp'⟩ := hnames p c hp
    exact hpattern p c' hp' hstar
  cases h with
  | exact hname h => exact .exact hname (hsub _ _ h)
  | pattern hexact hp hpattern hmatches =>
    exact .pattern (hexact' hexact) (hsub _ _ hp) hpattern hmatches
  | wildcard hexact hpattern h =>
    exact .wildcard (hexact' hexact) (hpattern' hpattern) (hsub _ _ h)
  | missing hexact hpattern h =>
    refine .missing (hexact' hexact) (hpattern' hpattern) ?_
    intro c hc
    obtain ⟨c', hc'⟩ := hnames _ c hc
    exact h c' hc'

/-- Patterns that match the name together have one connection string, unless it has an exact
target. -/
def UnambiguousAt (T : GoString → GoString → Prop) (name : GoString) : Prop :=
  NoExactTarget T name → ∀ p c p' c', T p c → T p' c' → IsPattern p → IsPattern p' →
    Matches p name = true → Matches p' name = true → c = c'

theorem MayRoute.unique (hsame : ∀ k c c', k = lit "*" ∨ 0x2A ∉ k → T k c → T k c' → c = c')
    (hpatterns : UnambiguousAt T name) {o o' : Option GoString} (h : MayRoute T name o)
    (h' : MayRoute T name o') : o = o' := by
  cases h with
  | exact hname h =>
    cases h' with
    | exact _ h' => rw [hsame name _ _ (Or.inr hname) h h']
    | pattern hexact | wildcard hexact | missing hexact => exact absurd h (hexact hname _)
  | pattern hexact hp hpattern hmatches =>
    cases h' with
    | exact hname h' => exact absurd h' (hexact hname _)
    | pattern _ hp' hpattern' hmatches' =>
      rw [hpatterns hexact _ _ _ _ hp hp' hpattern hpattern' hmatches hmatches']
    | wildcard _ hnone | missing _ hnone =>
      rw [hnone _ _ hp hpattern] at hmatches
      cases hmatches
  | wildcard hexact hnone h =>
    cases h' with
    | exact hname h' => exact absurd h' (hexact hname _)
    | pattern _ hp' hpattern' hmatches' =>
      rw [hnone _ _ hp' hpattern'] at hmatches'
      cases hmatches'
    | wildcard _ _ h' => rw [hsame _ _ _ (Or.inl rfl) h h']
    | missing _ _ h' => exact absurd h (h' _)
  | missing hexact hnone h =>
    cases h' with
    | exact hname h' => exact absurd h' (hexact hname _)
    | pattern _ hp' hpattern' hmatches' =>
      rw [hnone _ _ hp' hpattern'] at hmatches'
      cases hmatches'
    | wildcard _ _ h' => exact absurd h' (h _)
    | missing _ _ _ => rfl

theorem NoPatternTarget.unambiguousAt (h : NoPatternTarget T name) : UnambiguousAt T name := by
  intro _ p c p' c' hp _ hpattern _ hmatches
  rw [h p c hp hpattern] at hmatches
  cases hmatches

end Outcomes

/-! ## The routes of a list of databases -/

namespace RouteTable

variable {t : RouteTable} {pattern : GoString} {config : RouteRef}

theorem addRoute_pattern (h : IsPattern (normalizeDatabaseName pattern)) :
    t.addRoute pattern config = { t with
      patternRoutes := t.patternRoutes ++ [patternRoute (normalizeDatabaseName pattern) config] } := by
  simp [addRoute, h.2, contains_asterisk.mpr h.1]

theorem addRoute_exact (h : 0x2A ∉ normalizeDatabaseName pattern) :
    t.addRoute pattern config = { t with
      routes := update t.routes (normalizeDatabaseName pattern) (some config) } := by
  have hcontains : ¬ contains (normalizeDatabaseName pattern) (lit "*") = true := by
    rw [contains_asterisk]
    exact h
  have hwild : normalizeDatabaseName pattern ≠ lit "*" := by
    intro hwild
    rw [hwild] at h
    exact h (by decide)
  simp [addRoute, hwild, hcontains]

/-- The pattern routes of some names, in their order. -/
def patternRoutesOf (names : List GoString) : List PatternRoute :=
  (names.zipIdx.filter fun e => IsPattern e.1).map fun e => patternRoute e.1 e.2

theorem patternRoutesOf_append (names : List GoString) (name : GoString) :
    patternRoutesOf (names ++ [name]) = patternRoutesOf names ++
      if IsPattern name then [patternRoute name names.length] else [] := by
  unfold patternRoutesOf
  rw [List.zipIdx_append, List.filter_append, List.map_append]
  congr 1
  by_cases h : IsPattern name
  · simp [h]
  · simp [h]

theorem patternRoutesOf_cons (names : List GoString) {name : GoString} (h : IsPattern name) :
    ∃ rest, patternRoutesOf (name :: names) = patternRoute name 0 :: rest := by
  unfold patternRoutesOf
  rw [List.zipIdx_cons, List.filter_cons_of_pos (by simpa using h), List.map_cons]
  exact ⟨_, rfl⟩

theorem mem_patternRoutesOf {names : List GoString} {pr : PatternRoute} :
    pr ∈ patternRoutesOf names ↔
      ∃ name i, names[i]? = some name ∧ IsPattern name ∧ patternRoute name i = pr := by
  simp only [patternRoutesOf, List.mem_map, List.mem_filter, List.mem_zipIdx_iff_getElem?,
    decide_eq_true_eq, Prod.exists, and_assoc]

/-- The routes are those of the names, in their order; the route of a name is its position. -/
structure Lists (t : RouteTable) (names : List GoString) : Prop where
  exact : ∀ k (i : Nat), t.routes k = some i → 0x2A ∉ k ∧ names[i]? = some k
  exact_some : ∀ k ∈ names, 0x2A ∉ k → t.routes k ≠ none
  patterns : t.patternRoutes = patternRoutesOf names
  wildcard : ∀ i : Nat, t.wildcardRoute = some i → names[i]? = some (lit "*")
  wildcard_some : lit "*" ∈ names → t.wildcardRoute ≠ none

theorem lists_empty : empty.Lists [] := by
  refine ⟨?_, ?_, rfl, ?_, ?_⟩
  · intro k i h
    cases h
  · intro k h
    cases h
  · intro i h
    cases h
  · intro h
    cases h

section

variable {names : List GoString} {name : GoString}

theorem getElem?_append_of_some {k : GoString} {i : Nat} (h : names[i]? = some k) :
    (names ++ [name])[i]? = some k := by
  rw [List.getElem?_append_left (List.getElem?_eq_some_iff.mp h).1]
  exact h

theorem getElem?_append_length : (names ++ [name])[names.length]? = some name := by
  rw [List.getElem?_append_right (Nat.le_refl _), Nat.sub_self]
  rfl

section

variable (h : t.Lists names)

include h

theorem Lists.exact_append :
    ∀ k (i : Nat), t.routes k = some i → 0x2A ∉ k ∧ (names ++ [name])[i]? = some k := by
  intro k i hk
  obtain ⟨hstar, hi⟩ := h.exact k i hk
  exact ⟨hstar, getElem?_append_of_some hi⟩

theorem Lists.exact_some_append (hname : 0x2A ∈ name) :
    ∀ k ∈ names ++ [name], 0x2A ∉ k → t.routes k ≠ none := by
  intro k hk hstar
  rcases List.mem_append.mp hk with hk | hk
  · exact h.exact_some k hk hstar
  · rw [List.mem_singleton.mp hk] at hstar
    exact absurd hname hstar

theorem Lists.wildcard_some_append (hname : name ≠ lit "*") :
    lit "*" ∈ names ++ [name] → t.wildcardRoute ≠ none := by
  intro hwild
  rcases List.mem_append.mp hwild with hwild | hwild
  · exact h.wildcard_some hwild
  · exact absurd (List.mem_singleton.mp hwild).symm hname

theorem Lists.add_wildcard :
    { t with wildcardRoute := some names.length }.Lists (names ++ [lit "*"]) where
  exact := h.exact_append
  exact_some := h.exact_some_append (by decide)
  patterns := by
    have hpattern : ¬ IsPattern (lit "*") := fun hp => hp.2 rfl
    rw [patternRoutesOf_append, if_neg hpattern, List.append_nil]
    exact h.patterns
  wildcard := by
    intro i hi
    cases hi
    exact getElem?_append_length
  wildcard_some := fun _ hnone => by cases hnone

theorem Lists.add_pattern (hname : IsPattern name) :
    { t with patternRoutes := t.patternRoutes ++ [patternRoute name names.length] }.Lists
      (names ++ [name]) where
  exact := h.exact_append
  exact_some := h.exact_some_append hname.1
  patterns := by
    rw [patternRoutesOf_append, if_pos hname, h.patterns]
  wildcard := fun i hi => getElem?_append_of_some (h.wildcard i hi)
  wildcard_some := h.wildcard_some_append hname.2

theorem Lists.add_exact (hname : 0x2A ∉ name) :
    { t with routes := update t.routes name (some names.length) }.Lists
      (names ++ [name]) where
  exact := by
    intro k i hk
    have hk' : update t.routes name (some names.length) k = some i := hk
    by_cases hkn : k = name
    · rw [hkn, update_self] at hk'
      cases hk'
      exact ⟨hkn ▸ hname, hkn ▸ getElem?_append_length⟩
    · rw [update_of_ne hkn] at hk'
      exact h.exact_append k i hk'
  exact_some := by
    intro k hk hstar
    show update t.routes name (some names.length) k ≠ none
    by_cases hkn : k = name
    · rw [hkn, update_self]
      exact Option.some_ne_none _
    · rw [update_of_ne hkn]
      rcases List.mem_append.mp hk with hk | hk
      · exact h.exact_some k hk hstar
      · exact absurd (List.mem_singleton.mp hk) hkn
  patterns := by
    have hpattern : ¬ IsPattern name := fun hp => hname hp.1
    rw [patternRoutesOf_append, if_neg hpattern, List.append_nil]
    exact h.patterns
  wildcard := fun i hi => getElem?_append_of_some (h.wildcard i hi)
  wildcard_some := by
    apply h.wildcard_some_append
    rintro rfl
    exact hname (by decide)

theorem Lists.addRoute (hnormal : normalizeDatabaseName name = name) :
    (t.addRoute name names.length).Lists (names ++ [name]) := by
  rcases SeenNames.kinds name with rfl | hname | hname
  · exact h.add_wildcard
  · rw [addRoute_pattern (by rwa [hnormal]), hnormal]
    exact h.add_pattern hname
  · rw [addRoute_exact (by rwa [hnormal]), hnormal]
    exact h.add_exact hname

end

end

end RouteTable

namespace Proxy

/-- The connection string of the route of a database. -/
def connectionStringFor (p : Proxy) (now : Int) (databaseName : GoString) : Option GoString :=
  match (p.router.getRoute now databaseName).1 with
  | .ok ref => some (p.routes ref).connectionString
  | .error _ => none

theorem connectionStringFor_eq (p : Proxy) (now : Int) (databaseName : GoString) :
    p.connectionStringFor now databaseName =
      (p.router.table.lookup (normalizeDatabaseName databaseName)).map
        fun ref => (p.routes ref).connectionString := by
  rw [connectionStringFor, DatabaseRouter.getRoute_eq, RouteTable.route]
  cases p.router.table.lookup (normalizeDatabaseName databaseName) with
  | some ref => rfl
  | none => rfl

/-- The routes are those of the databases, in their order. -/
structure Routed (p : Proxy) (databases : List DatabaseEntry) : Prop where
  lists : p.router.table.Lists (databases.map (·.name))
  served : ∀ (i : Nat) e, databases[i]? = some e →
    (p.routes i).connectionString = e.connectionString

variable {p : Proxy} {databases : List DatabaseEntry}

theorem routed_nil (h : p.router = .new) : p.Routed [] := by
  refine ⟨?_, ?_⟩
  · rw [h]
    exact RouteTable.lists_empty
  · intro i e he
    cases he

theorem Routed.addDatabase (h : p.Routed databases) {e : DatabaseEntry}
    (hname : normalizeDatabaseName e.name = e.name) :
    (p.addDatabase databases.length e).Routed (databases ++ [e]) := by
  constructor
  · have hlists := h.lists.addRoute hname
    rw [List.length_map] at hlists
    rw [List.map_append]
    exact hlists
  · intro i e' hi
    by_cases hlen : i = databases.length
    · subst hlen
      rw [List.getElem?_append_right (Nat.le_refl _), Nat.sub_self] at hi
      cases hi
      show (update p.routes databases.length _ databases.length).connectionString = _
      rw [update_self]
    · have hlt : i < (databases ++ [e]).length := (List.getElem?_eq_some_iff.mp hi).1
      rw [List.length_append, List.length_singleton] at hlt
      have hold : i < databases.length := by omega
      rw [List.getElem?_append_left hold] at hi
      show (update p.routes databases.length _ i).connectionString = _
      rw [update_of_ne hlen]
      exact h.served i e' hi

/-- **The loop of `Proxies` makes the routes of the databases, in their order.** -/
theorem Routed.addDatabases {es : List DatabaseEntry} :
    ∀ {p : Proxy} {databases : List DatabaseEntry}, p.Routed databases →
      (∀ e ∈ es, normalizeDatabaseName e.name = e.name) →
      (p.addDatabases databases.length es).Routed (databases ++ es) := by
  induction es with
  | nil =>
    intro p databases h _
    rw [List.append_nil]
    exact h
  | cons e es ih =>
    intro p databases h hnames
    obtain ⟨hname, hrest⟩ := List.forall_mem_cons.mp hnames
    have hnext := ih (h.addDatabase hname) hrest
    rw [List.length_append, List.append_assoc] at hnext
    exact hnext

/-- The names of the databases, with their connection strings. -/
def TargetsOf (databases : List DatabaseEntry) (name c : GoString) : Prop :=
  ∃ e ∈ databases, e.name = name ∧ e.connectionString = c

theorem Routed.targetsOf (h : p.Routed databases) {name : GoString} {i : Nat}
    (hi : (databases.map (·.name))[i]? = some name) :
    TargetsOf databases name (p.routes i).connectionString := by
  rw [List.getElem?_map, Option.map_eq_some_iff] at hi
  obtain ⟨e, he, hname⟩ := hi
  exact ⟨e, List.mem_of_getElem? he, hname, (h.served i e he).symm⟩

theorem Routed.mayRoute (h : p.Routed databases) (now : Int) (databaseName : GoString) :
    MayRoute (TargetsOf databases) (normalizeDatabaseName databaseName)
      (p.connectionStringFor now databaseName) := by
  rw [connectionStringFor_eq]
  generalize normalizeDatabaseName databaseName = name
  unfold RouteTable.lookup
  cases hroutes : p.router.table.routes name with
  | some i =>
    obtain ⟨hstar, hi⟩ := h.lists.exact name i hroutes
    exact .exact hstar (h.targetsOf hi)
  | none =>
    have hexact : NoExactTarget (TargetsOf databases) name := by
      rintro hstar c ⟨e, he, rfl, -⟩
      exact h.lists.exact_some e.name (List.mem_map_of_mem he) hstar hroutes
    cases hfind : p.router.table.patternRoutes.find? (matchesPattern name) with
    | some pr =>
      have hmem := List.mem_of_find?_eq_some hfind
      have hmatches := List.find?_some hfind
      rw [h.lists.patterns] at hmem
      obtain ⟨k, i, hi, hpattern, rfl⟩ := RouteTable.mem_patternRoutesOf.mp hmem
      rw [RouteTable.matchesPattern_patternRoute] at hmatches
      simp only [RouteTable.route_patternRoute]
      exact .pattern hexact (h.targetsOf hi) hpattern hmatches
    | none =>
      have hpattern : NoPatternTarget (TargetsOf databases) name := by
        rintro k c ⟨e, he, rfl, -⟩ hk
        obtain ⟨i, hi⟩ := List.mem_iff_getElem?.mp he
        have hmem : RouteTable.patternRoute e.name i ∈ p.router.table.patternRoutes := by
          rw [h.lists.patterns, RouteTable.mem_patternRoutesOf]
          exact ⟨e.name, i, by rw [List.getElem?_map, hi]; rfl, hk, rfl⟩
        have hno := List.find?_eq_none.mp hfind _ hmem
        rw [RouteTable.matchesPattern_patternRoute] at hno
        exact Bool.eq_false_iff.mpr hno
      cases hwild : p.router.table.wildcardRoute with
      | some i => exact .wildcard hexact hpattern (h.targetsOf (h.lists.wildcard i hwild))
      | none =>
        refine .missing hexact hpattern ?_
        rintro c ⟨e, he, hname, -⟩
        apply h.lists.wildcard_some _ hwild
        rw [← hname]
        exact List.mem_map_of_mem he

theorem Routed.connectionStringFor_first {e : DatabaseEntry} (h : p.Routed (e :: databases))
    {databaseName : GoString} (hpattern : IsPattern e.name)
    (hmatches : Matches e.name (normalizeDatabaseName databaseName) = true)
    (hexact : NoExactTarget (TargetsOf (e :: databases)) (normalizeDatabaseName databaseName))
    (now : Int) : p.connectionStringFor now databaseName = some e.connectionString := by
  rw [connectionStringFor_eq]
  generalize normalizeDatabaseName databaseName = name at hmatches hexact
  have hroutes : p.router.table.routes name = none := by
    rw [Option.eq_none_iff_forall_ne_some]
    intro i hi
    obtain ⟨hstar, hi'⟩ := h.lists.exact name i hi
    exact hexact hstar _ (h.targetsOf hi')
  have hfirst : p.router.table.patternRoutes.find? (matchesPattern name) =
      some (RouteTable.patternRoute e.name 0) := by
    obtain ⟨rest, hrest⟩ := RouteTable.patternRoutesOf_cons (databases.map (·.name)) hpattern
    rw [h.lists.patterns, List.map_cons, hrest]
    apply List.find?_cons_of_pos
    exact hmatches
  rw [RouteTable.lookup, hroutes, hfirst]
  simp only [RouteTable.route_patternRoute, Option.map_some]
  rw [h.served 0 e rfl]

end Proxy

/-! ## The proxies that a configuration may start -/

namespace Config

/-- The proxies that may be started from a table of databases: for any order in which
`GetDatabases` visits the table and any in which `Proxies` visits the databases, whatever clients
can be made. -/
inductive Starts (d : GoMap GoString TomlValue) : Proxy → Prop where
  | intro {order : List (GoString × TomlValue)} {result : GoMap GoString Database}
      {order' : List (GoString × Database)} (p : Proxy) (connects : GoString → Bool)
      (horder : d.Visits order) (hresult : getDatabases order = .ok result)
      (horder' : result.Visits order') (hnew : p.router = .new) :
      Starts d (p.addDatabases 0 (order'.map (databaseEntry connects)))

/-- The normalised names of the table, with the connection strings of their routes. -/
def Target (d : GoMap GoString TomlValue) (name c : GoString) : Prop :=
  ∃ x ∈ d.entries, ∃ db, Describes x (name, db) ∧ db.routeConnectionString = c

variable {d : GoMap GoString TomlValue}

theorem Describes.normal {x : GoString × TomlValue} {e : GoString × Database}
    (h : Describes x e) : normalizeDatabaseName e.1 = e.1 := by
  rw [← h.1]
  exact toLower_idem x.1

theorem targetsOf_map {order : List (GoString × Database)} {connects : GoString → Bool}
    {name c : GoString} :
    Proxy.TargetsOf (order.map (databaseEntry connects)) name c ↔
      ∃ db, (name, db) ∈ order ∧ db.routeConnectionString = c := by
  constructor
  · rintro ⟨e, he, hname, hc⟩
    obtain ⟨⟨k, db⟩, hmem, rfl⟩ := List.mem_map.mp he
    cases hname
    exact ⟨db, hmem, hc⟩
  · rintro ⟨db, hmem, hc⟩
    exact ⟨databaseEntry connects (name, db), List.mem_map_of_mem hmem, rfl, hc⟩

section Order

variable {order : List (GoString × TomlValue)} {result : GoMap GoString Database}
  {order' : List (GoString × Database)}

section

variable (horder : d.Visits order) (hresult : getDatabases order = .ok result)

include horder hresult

theorem describes_of_mem
    {e : GoString × Database} (he : e ∈ result.entries) : ∃ x ∈ d.entries, Describes x e := by
  rcases (collected_getDatabasesFrom hresult).origin e he with hbefore | ⟨x, hx, hdescribes⟩
  · cases hbefore
  · exact ⟨x, horder.mem_iff.mp hx, hdescribes⟩

theorem mem_keys_of_describes
    {x : GoString × TomlValue} (hx : x ∈ d.entries) {e : GoString × Database}
    (hdescribes : Describes x e) : ∃ db, (e.1, db) ∈ result.entries := by
  have hkey := (collected_getDatabasesFrom hresult).named x (horder.mem_iff.mpr hx) e hdescribes
  obtain ⟨⟨k, db⟩, hmem, rfl⟩ := List.mem_map.mp hkey
  exact ⟨db, hmem⟩

theorem routed_addDatabases (horder' : result.Visits order') {p : Proxy} (hnew : p.router = .new)
    (connects : GoString → Bool) :
    (p.addDatabases 0 (order'.map (databaseEntry connects))).Routed
      (order'.map (databaseEntry connects)) := by
  refine (Proxy.routed_nil hnew).addDatabases ?_
  intro e he
  obtain ⟨e', he', rfl⟩ := List.mem_map.mp he
  obtain ⟨x, -, hdescribes⟩ := describes_of_mem horder hresult (horder'.mem_iff.mp he')
  exact hdescribes.normal

theorem targetsOf_sub (horder' : result.Visits order') (connects : GoString → Bool) :
    (∀ name c, Proxy.TargetsOf (order'.map (databaseEntry connects)) name c → Target d name c) ∧
      ∀ name c, Target d name c →
        ∃ c', Proxy.TargetsOf (order'.map (databaseEntry connects)) name c' := by
  constructor
  · intro name c h
    obtain ⟨db, hmem, hc⟩ := targetsOf_map.mp h
    obtain ⟨x, hx, hdescribes⟩ := describes_of_mem horder hresult (horder'.mem_iff.mp hmem)
    exact ⟨x, hx, db, hdescribes, hc⟩
  · rintro name c ⟨x, hx, db, hdescribes, -⟩
    obtain ⟨db', hmem⟩ := mem_keys_of_describes horder hresult hx hdescribes
    exact ⟨_, targetsOf_map.mpr ⟨db', horder'.mem_iff.mpr hmem, rfl⟩⟩

end

end Order

theorem Starts.mayRoute {p : Proxy} (h : Starts d p) (now : Int) (databaseName : GoString) :
    MayRoute (Target d) (normalizeDatabaseName databaseName)
      (p.connectionStringFor now databaseName) := by
  obtain ⟨p, connects, horder, hresult, horder', hnew⟩ := h
  obtain ⟨hsub, hnames⟩ := targetsOf_sub horder hresult horder' connects
  apply MayRoute.mono hsub hnames
  exact (routed_addDatabases horder hresult horder' hnew connects).mayRoute now databaseName

/-- No entry ends the process. -/
def Returns (d : GoMap GoString TomlValue) : Prop := ∀ x ∈ d.entries, ¬ Aborts x

theorem Returns.getDatabases (h : Returns d) {order : List (GoString × TomlValue)}
    (horder : d.Visits order) : ∃ result, Config.getDatabases order = .ok result := by
  apply exists_getDatabasesFrom.mpr
  intro x hx
  exact h x (horder.mem_iff.mp hx)

theorem Starts.returns {p : Proxy} (h : Starts d p) : Returns d := by
  obtain ⟨p, connects, horder, hresult, horder', hnew⟩ := h
  intro x hx
  exact exists_getDatabasesFrom.mp ⟨_, hresult⟩ x (horder.mem_iff.mpr hx)

theorem exists_visits_first (hreturns : Returns d) {x : GoString × TomlValue}
    {e : GoString × Database} (hx : x ∈ d.entries) (hdescribes : Describes x e) :
    ∃ order result order', d.Visits order ∧ getDatabases order = .ok result ∧
      result.Visits (e :: order') := by
  obtain ⟨rest, horder⟩ := GoMap.exists_visits_append hx
  obtain ⟨result, hresult⟩ := hreturns.getDatabases horder
  obtain ⟨order', horder'⟩ :=
    GoMap.exists_visits_cons (mem_getDatabasesFrom_append hdescribes hresult)
  exact ⟨_, result, order', horder, hresult, horder'⟩

def blankProxy : Proxy := Proxy.new false false false false none none

section Routing

variable {order : List (GoString × TomlValue)} {result : GoMap GoString Database}
  {order' : List (GoString × Database)}

theorem targetsOf_unique (horder' : result.Visits order') {connects : GoString → Bool}
    {name c c' : GoString} (h : Proxy.TargetsOf (order'.map (databaseEntry connects)) name c)
    (h' : Proxy.TargetsOf (order'.map (databaseEntry connects)) name c') : c = c' := by
  obtain ⟨db, hmem, rfl⟩ := targetsOf_map.mp h
  obtain ⟨db', hmem', rfl⟩ := targetsOf_map.mp h'
  rw [GoMap.eq_of_mem (horder'.mem_iff.mp hmem) (horder'.mem_iff.mp hmem')]

theorem connectionStringFor_eq_of_mayRoute (horder : d.Visits order)
    (hresult : getDatabases order = .ok result) (horder' : result.Visits order') {p : Proxy}
    (hnew : p.router = .new) {connects : GoString → Bool} {databaseName : GoString}
    {o : Option GoString}
    (hpatterns : UnambiguousAt (Proxy.TargetsOf (order'.map (databaseEntry connects)))
      (normalizeDatabaseName databaseName))
    (h : MayRoute (Proxy.TargetsOf (order'.map (databaseEntry connects)))
      (normalizeDatabaseName databaseName) o) (now : Int) :
    (p.addDatabases 0 (order'.map (databaseEntry connects))).connectionStringFor now databaseName =
      o := by
  have hrouted := routed_addDatabases horder hresult horder' hnew connects
  refine MayRoute.unique ?_ hpatterns (hrouted.mayRoute now databaseName) h
  intro k c c' _ hc hc'
  exact targetsOf_unique horder' hc hc'

end Routing

/-- **A name is routed to everywhere it may be routed**, each in some order. -/
theorem exists_starts (hreturns : Returns d) {databaseName : GoString} {o : Option GoString}
    (h : MayRoute (Target d) (normalizeDatabaseName databaseName) o) (now : Int) :
    ∃ p, Starts d p ∧ p.connectionStringFor now databaseName = o := by
  have hblank : blankProxy.router = .new := rfl
  cases h with
  | exact hname h =>
    obtain ⟨x, hx, db, hdescribes, rfl⟩ := h
    obtain ⟨order, result, order', horder, hresult, horder'⟩ :=
      exists_visits_first hreturns hx hdescribes
    have htarget : Proxy.TargetsOf (((normalizeDatabaseName databaseName, db) :: order').map
        (databaseEntry fun _ => true)) (normalizeDatabaseName databaseName)
        db.routeConnectionString := targetsOf_map.mpr ⟨db, List.mem_cons_self, rfl⟩
    refine ⟨_, .intro blankProxy (fun _ => true) horder hresult horder' hblank, ?_⟩
    refine connectionStringFor_eq_of_mayRoute horder hresult horder' hblank ?_
      (.exact hname htarget) now
    intro hexact
    exact absurd htarget (hexact hname _)
  | pattern hexact hp hpattern hmatches =>
    obtain ⟨x, hx, db, hdescribes, rfl⟩ := hp
    obtain ⟨order, result, order', horder, hresult, horder'⟩ :=
      exists_visits_first hreturns hx hdescribes
    have hrouted := routed_addDatabases horder hresult horder' hblank fun _ => true
    refine ⟨_, .intro blankProxy (fun _ => true) horder hresult horder' hblank, ?_⟩
    apply hrouted.connectionStringFor_first hpattern hmatches
    intro hname c hc
    exact hexact hname c ((targetsOf_sub horder hresult horder' fun _ => true).1 _ c hc)
  | wildcard hexact hpattern h =>
    obtain ⟨x, hx, db, hdescribes, rfl⟩ := h
    obtain ⟨order, result, order', horder, hresult, horder'⟩ :=
      exists_visits_first hreturns hx hdescribes
    have hsub := (targetsOf_sub horder hresult horder' fun _ => true).1
    have hnone : NoPatternTarget _ (normalizeDatabaseName databaseName) :=
      fun k c hk => hpattern k c (hsub k c hk)
    refine ⟨_, .intro blankProxy (fun _ => true) horder hresult horder' hblank, ?_⟩
    refine connectionStringFor_eq_of_mayRoute horder hresult horder' hblank
      hnone.unambiguousAt (.wildcard ?_ hnone ?_) now
    · intro hname c hc
      exact hexact hname c (hsub _ c hc)
    · exact targetsOf_map.mpr ⟨db, List.mem_cons_self, rfl⟩
  | missing hexact hpattern h =>
    obtain ⟨result, hresult⟩ := hreturns.getDatabases d.visits_self
    have hsub := (targetsOf_sub d.visits_self hresult result.visits_self fun _ => true).1
    have hnone : NoPatternTarget _ (normalizeDatabaseName databaseName) :=
      fun k c hk => hpattern k c (hsub k c hk)
    refine ⟨_, .intro blankProxy (fun _ => true) d.visits_self hresult result.visits_self hblank,
      ?_⟩
    refine connectionStringFor_eq_of_mayRoute d.visits_self hresult result.visits_self hblank
      hnone.unambiguousAt (.missing ?_ hnone ?_) now
    · intro hname c hc
      exact hexact hname c (hsub _ c hc)
    · intro c hc
      exact h c (hsub _ c hc)

/-- Exact names and the wildcard of an accepted table have one target. -/
theorem target_unique {order : List (GoString × TomlValue)} (horder : d.Visits order)
    (hvalid : validateDatabaseNames order = .ok ()) {k c c' : GoString}
    (hk : k = lit "*" ∨ 0x2A ∉ k) (h : Target d k c) (h' : Target d k c') : c = c' := by
  obtain ⟨x, hx, db, hdescribes, rfl⟩ := h
  obtain ⟨x', hx', db', hdescribes', rfl⟩ := h'
  by_cases hxx : x = x'
  · subst hxx
    have hdb : Except.ok (some db) = (Except.ok (some db') : Except Exit (Option Database)) :=
      hdescribes.2.symm.trans hdescribes'.2
    cases hdb
    rfl
  · have hclash := not_clashes_of_valid hvalid (horder.mem_iff.mpr hx) (horder.mem_iff.mpr hx') hxx
    rw [hdescribes.1, hdescribes'.1] at hclash
    exfalso
    apply hclash
    rcases hk with hk | hk
    · exact Or.inl ⟨hk, hk⟩
    · exact Or.inr (Or.inr ⟨hk, rfl⟩)

/-- Patterns that match a name together have one connection string, unless the name has an exact
entry. -/
def Unambiguous (d : GoMap GoString TomlValue) : Prop :=
  ∀ databaseName, UnambiguousAt (Target d) (normalizeDatabaseName databaseName)

/-- **Routing is independent of the order of the maps if, and only if, the configuration is
unambiguous.** The check accepts some that are not. A table with an entry that ends the process
starts no proxy. -/
theorem routing_order_independent_iff {order : List (GoString × TomlValue)}
    (horder : d.Visits order) (hvalid : validateDatabaseNames order = .ok ()) :
    (∀ p p', Starts d p → Starts d p' → ∀ now databaseName,
      p.connectionStringFor now databaseName = p'.connectionStringFor now databaseName) ↔
    (Returns d → Unambiguous d) := by
  constructor
  · intro hsame hreturns databaseName hexact k c k' c' hk hk' hpattern hpattern' hmatches hmatches'
    obtain ⟨p, hp, hroute⟩ :=
      exists_starts hreturns (.pattern hexact hk hpattern hmatches) 0
    obtain ⟨p', hp', hroute'⟩ :=
      exists_starts hreturns (.pattern hexact hk' hpattern' hmatches') 0
    have heq := hsame p p' hp hp' 0 databaseName
    rw [hroute, hroute'] at heq
    exact Option.some.inj heq
  · intro hunambiguous p p' hp hp' now databaseName
    refine MayRoute.unique ?_ (hunambiguous hp.returns databaseName)
      (hp.mayRoute now databaseName) (hp'.mayRoute now databaseName)
    intro k c c' hk hc hc'
    exact target_unique horder hvalid hk hc hc'

/-! ## The order of the check -/

theorem exists_error_iff (order : List (GoString × TomlValue)) :
    (∃ e, validateDatabaseNames order = .error e) ↔ ¬ validateDatabaseNames order = .ok () := by
  cases validateDatabaseNames order with
  | error e => simp
  | ok => simp

theorem validateDatabaseNames_perm {order order' : List (GoString × TomlValue)}
    (h : order.Perm order') :
    validateDatabaseNames order = .ok () ↔ validateDatabaseNames order' = .ok () := by
  rw [validateDatabaseNames_iff, validateDatabaseNames_iff]
  have hempty : order = [] ↔ order' = [] := by
    constructor
    · rintro rfl
      exact List.nil_perm.mp h
    · rintro rfl
      exact List.perm_nil.mp h
  -- the order decides which of two names meets the other among those seen; the test is symmetric
  have hpairwise := h.pairwise_iff (R := fun e e' : GoString × TomlValue =>
    ¬ Clashes (normalizeDatabaseName e.1) (normalizeDatabaseName e'.1))
    fun hxy hclash => hxy hclash.symm
  rw [hpairwise, Ne, hempty]

/-- **The verdict of the check is independent of the order of the map.** Which pair of names an
error reports is not. -/
theorem verdict_order_independent {order order' : List (GoString × TomlValue)}
    (horder : d.Visits order) (horder' : d.Visits order') :
    (∃ e, validateDatabaseNames order = .error e) ↔
      ∃ e, validateDatabaseNames order' = .error e := by
  have hperm : order.Perm order' := List.Perm.trans horder (List.Perm.symm horder')
  rw [exists_error_iff, exists_error_iff, validateDatabaseNames_perm hperm]

/-! ### Two tables -/

def entryOf (name connectionString : String) : GoString × TomlValue :=
  (lit name, .table [(lit "connection_string", .string (lit connectionString))])

/-- An exact name, a pattern and the wildcard. -/
def shopDatabases : GoMap GoString TomlValue where
  entries :=
    [entryOf "Shop" "mongodb://shop", entryOf "foo*" "mongodb://foo", entryOf "*" "mongodb://rest"]
  nodup := by decide

theorem routing_order_independent_shop :
    validateDatabaseNames shopDatabases.entries = .ok () ∧
    ∀ p p', Starts shopDatabases p → Starts shopDatabases p' → ∀ now databaseName,
      p.connectionStringFor now databaseName = p'.connectionStringFor now databaseName := by
  have hvalid : validateDatabaseNames shopDatabases.entries = .ok () := by decide +kernel
  refine ⟨hvalid, (routing_order_independent_iff shopDatabases.visits_self hvalid).mpr ?_⟩
  -- there is one pattern
  have hfoo : ∀ k c, Target shopDatabases k c → IsPattern k → c = lit "mongodb://foo" := by
    rintro k c ⟨x, hx, db, ⟨hname, hdb⟩, rfl⟩ hk
    simp only [shopDatabases, List.mem_cons, List.not_mem_nil, or_false] at hx
    rcases hx with rfl | rfl | rfl
    · have hshop : normalizeDatabaseName (lit "Shop") = lit "shop" := by decide +kernel
      have hk' : k = lit "shop" := hname.symm.trans hshop
      rw [hk'] at hk
      exact absurd hk (by decide)
    · cases hdb
      decide +kernel
    · have hstar : normalizeDatabaseName (lit "*") = lit "*" := by decide +kernel
      exact absurd (hname.symm.trans hstar) hk.2
  intro _ databaseName _ k c k' c' hk hk' hpattern hpattern' _ _
  rw [hfoo k c hk hpattern, hfoo k' c' hk' hpattern']

/-- Two patterns that match none of the test names, but have names in common. -/
def overlappingDatabases : GoMap GoString TomlValue where
  entries := [entryOf "foo*" "mongodb://foo", entryOf "*bar" "mongodb://bar"]
  nodup := by decide

def overlappingResult : List (GoString × Database) :=
  [(lit "foo*", ⟨lit "mongodb://foo", [], 0, [], none⟩),
    (lit "*bar", ⟨lit "mongodb://bar", [], 0, [], none⟩)]

theorem starts_overlapping {order : List (GoString × Database)}
    (horder : order.Perm overlappingResult) :
    Starts overlappingDatabases
      (blankProxy.addDatabases 0 (order.map (databaseEntry fun _ => true))) := by
  have hentries : (getDatabases overlappingDatabases.entries).map GoMap.entries =
      .ok overlappingResult := by decide +kernel
  cases hresult : getDatabases overlappingDatabases.entries with
  | error e =>
    rw [hresult] at hentries
    cases hentries
  | ok result =>
    rw [hresult] at hentries
    have hresult' : result.entries = overlappingResult := Except.ok.inj hentries
    refine .intro blankProxy (fun _ => true) overlappingDatabases.visits_self hresult ?_ rfl
    rw [GoMap.Visits, hresult']
    exact horder

/-- The check accepts a table whose routes depend on the order of the maps. -/
theorem overlapping_depends_on_order :
    validateDatabaseNames overlappingDatabases.entries = .ok () ∧
    ∃ p p', Starts overlappingDatabases p ∧ Starts overlappingDatabases p' ∧
      p.connectionStringFor 0 (lit "foobar") = some (lit "mongodb://foo") ∧
      p'.connectionStringFor 0 (lit "foobar") = some (lit "mongodb://bar") := by
  refine ⟨by decide +kernel, _, _, starts_overlapping (List.Perm.refl _),
    starts_overlapping (List.reverse_perm _), ?_, ?_⟩
  · decide +kernel
  · decide +kernel

/-- Three names, two of which differ in their letter case only. -/
def repeatedDatabases : GoMap GoString TomlValue where
  entries :=
    [entryOf "Shop" "mongodb://a", entryOf "orders" "mongodb://b", entryOf "shop" "mongodb://c"]
  nodup := by decide

theorem verdict_order_independent_repeated :
    (validateDatabaseNames repeatedDatabases.entries = .error
        ⟨lit "duplicate database configuration detected: database 'shop' is configured multiple times with different connections (mongodb://a vs mongodb://c)"⟩) ∧
    ∃ e, validateDatabaseNames repeatedDatabases.entries.reverse = .error e := by
  have herror : validateDatabaseNames repeatedDatabases.entries = .error
      ⟨lit "duplicate database configuration detected: database 'shop' is configured multiple times with different connections (mongodb://a vs mongodb://c)"⟩ := by
    decide +kernel
  refine ⟨herror, ?_⟩
  exact (verdict_order_independent repeatedDatabases.visits_self
    (List.reverse_perm _)).mp ⟨_, herror⟩

end Config

end MongoBouncer
