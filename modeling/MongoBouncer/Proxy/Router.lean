import MongoBouncer.GoStd.Regexp
import MongoBouncer.Mongo.RoundTrip

/-!
# The database router

Model of `proxy/router.go`: exact routes, pattern routes in the order they were added, the
wildcard route, and the cache of resolutions in front of them.

* `RouteTable.lookup` : the route of a database, without the cache;
* `DatabaseRouter`    : a table with a cache that agrees with it.

Principal result: `DatabaseRouter.getRoute_eq`, the cache changes no answer.
-/

namespace MongoBouncer

open GoStd Lruttl

/-! ## Routes -/

/-- `description.TopologyKind`, as far as the handshake distinguishes it. -/
inductive TopologyKind where
  | single
  | sharded
  | loadBalanced
  | other (text : GoString)
  deriving DecidableEq, Repr

/-- A `*mongo.Mongo`: the client, the connection string it was made from, and the credentials of
the proxy's client that were put into that string, if any. -/
structure MongoClient where
  id : ClientID
  connectionString : GoString
  credentials : Option (GoString × GoString)
  deriving DecidableEq, Repr

/-- `RouteConfig`; `topology` is that of its `DatabaseConfig`, which a route of the configuration
always has. -/
structure RouteConfig where
  databaseName : GoString
  mongoClient : Option MongoClient
  connectionString : GoString
  topology : Option TopologyKind
  credentialClients : Option (LruTtl GoString MongoClient)

def minute : Int := 60 * 1000000000

/-- `InitCredentialClientsCache`: the cache of the route, made if there is none. -/
def RouteConfig.initCredentialClientsCache (r : RouteConfig) : LruTtl GoString MongoClient :=
  r.credentialClients.getD (LruTtl.new 200 (30 * minute))

/-- A `*RouteConfig`. -/
abbrev RouteRef := Nat

inductive PatternType where
  | exactMatch
  | prefixMatch
  | suffixMatch
  | containsMatch
  | wildcardMatch
  deriving DecidableEq, Repr

structure PatternRoute where
  pattern : GoString
  patternType : PatternType
  route : RouteRef
  deriving DecidableEq, Repr

/-- The key of a pattern route in `GetAllRoutes`. -/
def PatternRoute.key (pr : PatternRoute) : GoString :=
  match pr.patternType with
  | .prefixMatch => pr.pattern ++ lit "*"
  | .suffixMatch => lit "*" ++ pr.pattern
  | .containsMatch => lit "*" ++ pr.pattern ++ lit "*"
  | _ => pr.pattern

/-- `matchesWildcard`; a pattern that does not compile matches nothing. -/
def matchesWildcard (dbName pattern : GoString) : Bool :=
  (matchString (lit "^" ++ replaceByte 0x2A (lit ".*") pattern ++ lit "$") dbName).getD false

def matchesPattern (dbName : GoString) (pr : PatternRoute) : Bool :=
  match pr.patternType with
  | .prefixMatch => hasPrefix dbName pr.pattern
  | .suffixMatch => hasSuffix dbName pr.pattern
  | .containsMatch => contains dbName pr.pattern
  | .wildcardMatch => matchesWildcard dbName pr.pattern
  | .exactMatch => false

/-- The routes of a router. -/
structure RouteTable where
  routes : GoString → Option RouteRef
  wildcardRoute : Option RouteRef
  patternRoutes : List PatternRoute

namespace RouteTable

def empty : RouteTable := { routes := fun _ => none, wildcardRoute := none, patternRoutes := [] }

/-- The pattern route of a normalised pattern that has an asterisk. -/
def patternRoute (pattern : GoString) (config : RouteRef) : PatternRoute :=
  if hasPrefix pattern (lit "*") && hasSuffix pattern (lit "*") then
    { pattern := trimByte 0x2A pattern, patternType := .containsMatch, route := config }
  else if hasPrefix pattern (lit "*") then
    { pattern := trimPrefix pattern (lit "*"), patternType := .suffixMatch, route := config }
  else if hasSuffix pattern (lit "*") then
    { pattern := trimSuffix pattern (lit "*"), patternType := .prefixMatch, route := config }
  else { pattern, patternType := .wildcardMatch, route := config }

def addRoute (t : RouteTable) (pattern : GoString) (config : RouteRef) : RouteTable :=
  let normalized := normalizeDatabaseName pattern
  if normalized = lit "*" then { t with wildcardRoute := some config }
  else if contains normalized (lit "*") then
    { t with patternRoutes := t.patternRoutes ++ [patternRoute normalized config] }
  else { t with routes := Function.update t.routes normalized (some config) }

/-- `RemoveRoute`, on the table. The pattern is not normalised here. -/
def removeRoute (t : RouteTable) (pattern : GoString) : RouteTable :=
  if pattern = lit "*" then { t with wildcardRoute := none }
  else
    { t with
      routes := Function.update t.routes pattern none
      patternRoutes := t.patternRoutes.filter (·.pattern ≠ pattern) }

/-- The route of a normalised database name: an exact one, else the first pattern route that
matches, else the wildcard route. -/
def lookup (t : RouteTable) (normalized : GoString) : Option RouteRef :=
  match t.routes normalized with
  | some route => some route
  | none =>
    match t.patternRoutes.find? (matchesPattern normalized) with
    | some pr => some pr.route
    | none => t.wildcardRoute

/-- The route of a database, or the error that there is none. -/
def route (t : RouteTable) (databaseName : GoString) : Except GoError RouteRef :=
  match t.lookup (normalizeDatabaseName databaseName) with
  | some route => .ok route
  | none => .error ⟨lit "no route found for database: " ++ databaseName⟩

theorem route_of_some {t : RouteTable} {databaseName : GoString} {r : RouteRef}
    (h : t.lookup (normalizeDatabaseName databaseName) = some r) :
    t.route databaseName = .ok r := by
  simp [route, h]

theorem route_of_none {t : RouteTable} {databaseName : GoString}
    (h : t.lookup (normalizeDatabaseName databaseName) = none) :
    t.route databaseName = .error ⟨lit "no route found for database: " ++ databaseName⟩ := by
  simp [route, h]

end RouteTable

/-! ## The router -/

/-- `DatabaseRouter`: a table, and a cache that holds only what the table answers. -/
structure DatabaseRouter where
  table : RouteTable
  routeCache : LruTtl GoString RouteRef
  coherent : ∀ k route, routeCache.peek k = some route → table.lookup k = some route

namespace DatabaseRouter

/-- `NewDatabaseRouter`. -/
def new : DatabaseRouter where
  table := .empty
  routeCache := LruTtl.new 1000 (5 * minute)
  coherent := by
    intro k route h
    cases h

def addRoute (r : DatabaseRouter) (pattern : GoString) (config : RouteRef) : DatabaseRouter where
  table := r.table.addRoute pattern config
  routeCache := r.routeCache.clear
  coherent := by
    intro k route h
    cases h

def updateRoute (r : DatabaseRouter) (pattern : GoString) (config : RouteRef) : DatabaseRouter :=
  r.addRoute pattern config

def removeRoute (r : DatabaseRouter) (pattern : GoString) : DatabaseRouter where
  table := r.table.removeRoute pattern
  routeCache := r.routeCache.clear
  coherent := by
    intro k route h
    cases h

/-- The router after a lookup of a key in the cache. -/
def touch (r : DatabaseRouter) (now : Int) (k : GoString) : DatabaseRouter where
  table := r.table
  routeCache := (r.routeCache.get now k).2
  coherent := by
    intro k' route h
    rw [LruTtl.peek_get] at h
    exact r.coherent k' route h

/-- The router after a resolution is cached. -/
def remember (r : DatabaseRouter) (now : Int) (k : GoString) (route : RouteRef)
    (h : r.table.lookup k = some route) : DatabaseRouter where
  table := r.table
  routeCache := r.routeCache.add now k route
  coherent := by
    intro k' route' h'
    by_cases hk : k' = k
    · subst hk
      rw [LruTtl.peek_add_self] at h'
      cases h'
      exact h
    · exact r.coherent k' route' ((LruTtl.peek_of_peek_add h').resolve_left hk)

/-- `GetRoute`: the cache first, then the table. -/
def getRoute (r : DatabaseRouter) (now : Int) (databaseName : GoString) :
    Except GoError RouteRef × DatabaseRouter :=
  let normalized := normalizeDatabaseName databaseName
  match (r.routeCache.get now normalized).1 with
  | some route => (.ok route, r.touch now normalized)
  | none =>
    match h : r.table.lookup normalized with
    | none =>
      (.error ⟨lit "no route found for database: " ++ databaseName⟩, r.touch now normalized)
    | some route => (.ok route, (r.touch now normalized).remember now normalized route h)

/-- **The cache changes no answer**: a router answers as its table does. -/
theorem getRoute_eq (r : DatabaseRouter) (now : Int) (databaseName : GoString) :
    (r.getRoute now databaseName).1 = r.table.route databaseName := by
  unfold getRoute
  simp only [LruTtl.get_fst]
  split
  · rename_i route hcache
    exact (RouteTable.route_of_some (r.coherent _ _ hcache)).symm
  · split
    · rename_i h
      exact (RouteTable.route_of_none h).symm
    · rename_i route h
      exact (RouteTable.route_of_some h).symm

@[simp] theorem table_getRoute (r : DatabaseRouter) (now : Int) (databaseName : GoString) :
    (r.getRoute now databaseName).2.table = r.table := by
  unfold getRoute
  simp only
  split
  · rfl
  · split <;> rfl

end DatabaseRouter

example : ((DatabaseRouter.new.addRoute (lit "Shop_*") 3).getRoute 0 (lit "SHOP_eu")).1 = .ok 3 := by
  decide +kernel

end MongoBouncer
