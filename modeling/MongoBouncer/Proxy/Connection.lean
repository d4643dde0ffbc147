import MongoBouncer.GoStd.Url
import MongoBouncer.Mongo.Calls
import MongoBouncer.Proxy.DatabaseName
import MongoBouncer.Proxy.Pool

/-!
# Client connections

Model of `proxy/connection.go`: the handshake with its credential check, the choice of the upstream
client, and the round trip through the pool or on the client itself. A message is handled in one
step; what the outside world does meanwhile is an `Upstream`.

* `Proxy`                 : what the connections share;
* `Proxy.handshake`       : the branch of `roundTrip` for handshake commands;
* `Proxy.forward`         : the branch for all other messages;
* `Service`, `Service.step` : the proxy with its open connections, one message at a time;
* `Service.Run`           : what happens from startup on, with a trace of the accepted handshakes
  and the messages handed to upstream clients.

Logging is left out, and metrics but for the calls of `extractDatabaseName` they make.
-/

namespace MongoBouncer

open GoStd Lruttl Function

/-! ## Connection strings -/

def extractHostAndPort (hostPort : GoString) : GoString × GoString :=
  if hasPrefix hostPort (lit "[") then
    match cutByte 0x5D hostPort with
    | none => ([], [])
    | some (bracketed, 0x3A :: port) => (bracketed.drop 1, port)
    | some (bracketed, _) => (bracketed.drop 1, lit "27017")
  else
    match cutLastByte 0x3A hostPort with
    | none => (hostPort, lit "27017")
    | some (host, port) => (host, port)

def extractHostFromRoute (connectionString : GoString) : GoString × GoString :=
  if !hasPrefix connectionString (lit "mongodb://") then ([], [])
  else
    let withoutScheme := trimPrefix connectionString (lit "mongodb://")
    let hostPortPart := ((cutByte 0x40 withoutScheme).map Prod.snd).getD withoutScheme
    extractHostAndPort (((cutByte 0x2F hostPortPart).map Prod.fst).getD hostPortPart)

/-- `extractCredentialsFromConnectionString`, `none` for an error. -/
def extractCredentialsFromConnectionString (connStr : GoString) :
    Option (GoString × GoString) :=
  (Url.parse connStr).map fun u =>
    match u.user with
    | some user => (user.username, user.password.getD [])
    | none => ([], [])

/-- The credentials as a caller that ignores the error sees them. -/
def urlCredentials (connStr : GoString) : GoString × GoString :=
  (extractCredentialsFromConnectionString connStr).getD ([], [])

/-- The query parameters of a connection string but `authSource`, in the order in which the map
of parameters is walked. -/
def otherParameters (order : List GoString → List GoString) (u : Url) : GoString :=
  ((order (u.query.map Prod.fst).dedup).filter (· ≠ lit "authSource")).flatMap fun key =>
    (u.query.filter (·.1 = key)).flatMap fun p => lit "&" ++ key ++ lit "=" ++ p.2

/-- The connection string that `createMongoClientWithCredentials` builds. -/
def credentialConnectionString (c : Connection) (host port : GoString) (u : Url)
    (order : List GoString → List GoString) : GoString :=
  if c.clientUsername ≠ [] ∧ c.clientPassword ≠ [] then
    lit "mongodb://" ++ c.clientUsername ++ lit ":" ++ c.clientPassword ++ lit "@" ++ host ++
      lit ":" ++ port ++ lit "/" ++ c.intendedDatabase ++ lit "?authSource=" ++
      (if c.clientAuthSource ≠ [] then c.clientAuthSource else lit "admin") ++
      otherParameters order u
  else
    lit "mongodb://" ++ host ++ lit ":" ++ port ++ lit "/" ++
      (if u.rawQuery ≠ [] then lit "?" ++ u.rawQuery else [])

/-- `extractDatabaseName` of `mongo/mongo.go`: what follows the last slash of the URI, up to a
question mark, unless it looks like a host with its port. -/
def uriDatabaseName (uri : GoString) : GoString :=
  let dbPart := (((splitByte 0x2F uri).getLast?.getD []).takeWhile (· ≠ 0x3F))
  if !uri.contains 0x2F then lit "default"
  else if dbPart.contains 0x3A && !dbPart.contains 0x2E then lit "default"
  else if dbPart ≠ [] then dbPart
  else lit "default"

/-- The name a new client goes by. -/
def clientDatabaseName (uri : GoString) : GoString :=
  if uriDatabaseName uri = lit "default" then lit "dynamic" else uriDatabaseName uri

/-! ## Credentials of the client -/

/-- `extractAppNameFromMessage`, which never fails; the empty string stands for no name. -/
def extractAppNameFromMessage (d : Driver) (op : Operation) : GoString :=
  let opStr := op.string d
  if contains opStr (lit "application") && contains opStr (lit "name") then
    match index opStr (lit "\"name\": \"") with
    | some start => ((cutByte 0x22 (opStr.drop (start + 9))).map Prod.fst).getD []
    | none => []
  else []

/-- What a client says of itself in its application name. -/
structure AppCredentials where
  database : GoString
  username : GoString
  password : GoString
  authSource : GoString
  deriving DecidableEq, Repr

def parseAppName (appName : GoString) : AppCredentials :=
  match splitByte 0x3A appName with
  | [database, username, password, authSource] =>
    { database := normalizeDatabaseName database
      username
      password
      authSource :=
        if authSource = lit "use_db" then normalizeDatabaseName database else authSource }
  | [database, username, password] =>
    { database := normalizeDatabaseName database, username, password, authSource := lit "admin" }
  | _ => { database := [], username := [], password := [], authSource := [] }

def parseAppNameCredentials (appName : GoString) : Except GoError AppCredentials :=
  let info := parseAppName appName
  if info.database ≠ [] ∧ info.username ≠ [] ∧ info.password ≠ [] then
    let creds : AppCredentials :=
      { database := trimSpace info.database
        username := trimSpace info.username
        password := trimSpace info.password
        authSource := trimSpace info.authSource }
    if creds.database = [] ∨ creds.username = [] ∨ creds.password = [] then
      .error (errorf "database, username and password cannot be empty")
    else .ok creds
  else
    .error ⟨lit "appName must be in format 'database:username:password:authSource' or 'database:username:password', got: " ++
      appName⟩

/-! ## The proxy -/

/-- What the connections of a proxy share. -/
structure Proxy where
  authEnabled : Bool
  regexCredentialPassthrough : Bool
  /-- `metrics` is not nil -/
  metrics : Bool
  /-- `requestForwarder` is not nil -/
  forwards : Bool
  router : DatabaseRouter
  routes : RouteRef → RouteConfig
  poolManager : Option Manager
  world : World
  nextClient : ClientID
  /-- the clients that are registered for cleanup -/
  mongoClients : GoString → Option MongoClient

/-- What the outside world does while a message is handled: the time, whether a client can be
made, what the cluster answers, what another pod answers, the order in which a map of parameters
is walked, and whether the reply can be written. -/
structure Upstream where
  now : Int
  connect : Except GoError Unit
  script : Script
  forwardRequest : Except GoError (Option Bytes)
  order : { f : List GoString → List GoString // ∀ l, (f l).Perm l }
  written : Bool

/-- What `roundTrip` returns: a mocked reply, the reply of the cluster, or the reply that another
pod sent, of which only the operation is kept. -/
inductive Response where
  | isMaster (responseTo : Int32) (topology : TopologyKind)
  | buildInfo (responseTo : Int32)
  | commandNotFound (responseTo : Int32) (errmsg codeName : GoString)
  | getParameter (responseTo : Int32)
  | emptyCursor (responseTo : Int32)
  | upstream (msg : Message)
  | fromPod (op : Operation)
  deriving DecidableEq, Repr

/-- The handling of a message: what it returns, the state it leaves, the credentials that were
accepted in it, and the client that the message was handed to. -/
structure Outcome where
  result : Except GoError Response
  conn : Connection
  proxy : Proxy
  accepted : Option AppCredentials
  sentTo : Option MongoClient

namespace Proxy

/-- A message that ends in an error before anything else happened. -/
def fail (p : Proxy) (c : Connection) (e : GoError) : Outcome :=
  { result := .error e, conn := c, proxy := p, accepted := none, sentTo := none }

/-- A change to a route. -/
def setRoute (p : Proxy) (ref : RouteRef) (route : RouteConfig) : Proxy :=
  { p with routes := update p.routes ref route }

/-- `GetRoute`, on the proxy. -/
def getRoute (p : Proxy) (now : Int) (database : GoString) : Except GoError RouteRef × Proxy :=
  ((p.router.getRoute now database).1, { p with router := (p.router.getRoute now database).2 })

def registerMongoClient (p : Proxy) (name : GoString) (client : MongoClient) : Proxy :=
  { p with mongoClients := update p.mongoClients name (some client) }

/-- `ConnectWithSessionManager`: a new client on the shared session manager. -/
def connect (p : Proxy) (up : Upstream) (connectionString : GoString)
    (credentials : Option (GoString × GoString)) : Except GoError (MongoClient × Proxy) :=
  match up.connect with
  | .error e => .error e
  | .ok () =>
    .ok ({ id := p.nextClient, connectionString, credentials },
      { p with
        nextClient := p.nextClient + 1
        world := { p.world with
          clients := update p.world.clients p.nextClient
            (Mongo.connectedLocally (clientDatabaseName connectionString)) } })

def isWildcardOrRegexMatch (targetDatabase : GoString) (route : RouteConfig) : Bool :=
  contains route.databaseName (lit "*") || decide (route.databaseName ≠ targetDatabase)

/-! ### The handshake -/

/-- The commands that are answered by the proxy itself. -/
def isHandshake (d : Driver) (op : Operation) : Bool :=
  let (command, collection) := op.commandAndCollection d
  op.isIsMaster d || decide (command = .buildInfo) || decide (command = .atlasVersion) ||
    decide (command = .getParameter) ||
    (decide (command = .aggregate) && decide (collection = lit "atlascli"))

/-- `validateCredentialsAgainstDatabase`, called with the database of the application name as the
target: the connection with the credentials that were accepted. The text of an error of `url.Parse`
is left out here and below. -/
def validateCredentials (p : Proxy) (c : Connection) (creds : AppCredentials) (now : Int) :
    Except GoError Connection × Proxy :=
  match p.getRoute now creds.database with
  | (.error e, p) =>
    (.error ⟨lit "database " ++ creds.database ++ lit " is not supported: " ++ e.text⟩, p)
  | (.ok ref, p) =>
    let route := p.routes ref
    let accepted :=
      { c with clientUsername := creds.username, clientPassword := creds.password }
    if p.regexCredentialPassthrough && isWildcardOrRegexMatch creds.database route then
      (.ok accepted, p)
    else
      match extractCredentialsFromConnectionString route.connectionString with
      | none => (.error (errorf "failed to extract route credentials: "), p)
      | some (routeUsername, routePassword) =>
        if creds.username ≠ routeUsername ∨ creds.password ≠ routePassword then
          (.error (errorf "authentication failed: invalid credentials"), p)
        else (.ok accepted, p)

/-- The credential check of the handshake: the topology to report, and the connection with the
credentials. -/
def authenticate (d : Driver) (p : Proxy) (c : Connection) (op : Operation) (now : Int) :
    Except GoError (AppCredentials × TopologyKind × Connection) × Proxy :=
  let appName := extractAppNameFromMessage d op
  if appName = [] then
    (.error (errorf "authentication required: appName parameter must be provided"), p)
  else
    match parseAppNameCredentials appName with
    | .error e => (.error e, p)
    | .ok creds =>
      match p.getRoute now creds.database with
      | (.error e, p) =>
        (.error ⟨lit "database " ++ creds.database ++ lit " is not supported: " ++ e.text⟩, p)
      | (.ok ref, p) =>
        let route := p.routes ref
        let topology := route.topology.getD .sharded
        if route.databaseName = creds.database then
          match p.validateCredentials c creds now with
          | (.error e, p) => (.error ⟨lit "authentication failed: " ++ e.text⟩, p)
          | (.ok c, p) => (.ok (creds, topology, c), p)
        else
          (.ok (creds, topology,
            { c with
              clientUsername := creds.username
              clientPassword := creds.password
              clientAuthSource := creds.authSource }), p)

/-- `IsMasterResponse`, which knows three kinds of topology. -/
def isMasterResponse (responseTo : Int32) (topology : TopologyKind) : Except GoError Response :=
  match topology with
  | .other text => .error ⟨lit "unsupported topology kind: " ++ text⟩
  | _ => .ok (.isMaster responseTo topology)

/-- The mocked reply to a handshake command. -/
def mockedResponse (d : Driver) (op : Operation) (topology : TopologyKind) :
    Except GoError Response :=
  let (command, collection) := op.commandAndCollection d
  if op.isIsMaster d then isMasterResponse op.requestID topology
  else if command = .buildInfo then .ok (.buildInfo op.requestID)
  else if command = .atlasVersion then
    .ok (.commandNotFound op.requestID (lit "no such command: 'atlasVersion'")
      (lit "CommandNotFound"))
  else if command = .getParameter then .ok (.getParameter op.requestID)
  else if command = .aggregate ∧ collection = lit "atlascli" then .ok (.emptyCursor op.requestID)
  else isMasterResponse op.requestID topology

/-- The handshake branch of `roundTrip`. Only a connection without a user name is checked. -/
def handshake (d : Driver) (p : Proxy) (c : Connection) (op : Operation) (now : Int) : Outcome :=
  if p.authEnabled && decide (c.clientUsername = []) then
    match p.authenticate d c op now with
    | (.error e, p) => p.fail c e
    | (.ok (creds, topology, c), p) =>
      { result := mockedResponse d op topology
        conn := c
        proxy := p
        accepted := some creds
        sentTo := none }
  else
    { result := mockedResponse d op .sharded
      conn := c
      proxy := p
      accepted := none
      sentTo := none }

/-! ### The upstream client -/

/-- The key of the credential clients of a route. -/
def credentialKey (c : Connection) : GoString := c.clientUsername ++ lit ":" ++ c.clientPassword

/-- The route with its cache of credential clients replaced. -/
def setCredentialClients (p : Proxy) (ref : RouteRef) (cache : LruTtl GoString MongoClient) :
    Proxy :=
  p.setRoute ref { p.routes ref with credentialClients := some cache }

def createMongoClientWithCredentials (p : Proxy) (c : Connection) (ref : RouteRef)
    (up : Upstream) : Except GoError MongoClient × Proxy :=
  let (hit, cache) := (p.routes ref).initCredentialClientsCache.get up.now (credentialKey c)
  let p := p.setCredentialClients ref cache
  match hit with
  | some client => (.ok client, p)
  | none =>
    let (host, port) := extractHostFromRoute (p.routes ref).connectionString
    if host = [] ∨ port = [] then
      (.error (errorf "failed to extract host/port from route connection string"), p)
    else
      match Url.parse (p.routes ref).connectionString with
      | none => (.error (errorf "failed to parse route connection string: "), p)
      | some u =>
        match p.connect up (credentialConnectionString c host port u up.order.1)
          (some (c.clientUsername, c.clientPassword)) with
        | .error e =>
          (.error ⟨lit "failed to create MongoDB client with client credentials: " ++ e.text⟩, p)
        | .ok (client, p) =>
          (.ok client, (p.setCredentialClients ref
            (cache.add up.now (credentialKey c) client)).registerMongoClient (credentialKey c)
              client)

def getOrCreateCredentialClient (p : Proxy) (c : Connection) (ref : RouteRef) (up : Upstream) :
    Except GoError MongoClient × Proxy :=
  let (hit, cache) := (p.routes ref).initCredentialClientsCache.get up.now (credentialKey c)
  let p := p.setCredentialClients ref cache
  match hit with
  | some client => (.ok client, p)
  | none =>
    match p.createMongoClientWithCredentials c ref up with
    | (.error e, p) =>
      (.error ⟨lit "failed to create MongoDB client with client credentials: " ++ e.text⟩, p)
    | (.ok client, p) => (.ok client, p)

def createLazyMongoClient (p : Proxy) (ref : RouteRef) (targetDatabase : GoString)
    (up : Upstream) : Except GoError MongoClient × Proxy :=
  match (p.routes ref).mongoClient with
  | some client => (.ok client, p)
  | none =>
    match p.connect up (p.routes ref).connectionString none with
    | .error e => (.error ⟨lit "failed to create lazy MongoDB client: " ++ e.text⟩, p)
    | .ok (client, p) =>
      (.ok client, (p.setRoute ref { p.routes ref with
        mongoClient := some client }).registerMongoClient targetDatabase client)

/-- `useCredentialPassthrough`: the client's credentials are used on a pattern or wildcard route,
and on an exact one whose client has other credentials. -/
def useCredentialPassthrough (p : Proxy) (c : Connection) (targetDatabase : GoString)
    (route : RouteConfig) : Bool :=
  p.regexCredentialPassthrough && decide (c.clientUsername ≠ []) &&
    (isWildcardOrRegexMatch targetDatabase route ||
      (route.mongoClient.isSome &&
        decide ((c.clientUsername, c.clientPassword) ≠ urlCredentials route.connectionString)))

/-- The client that `roundTrip` chooses on a route. -/
def selectClient (p : Proxy) (c : Connection) (ref : RouteRef) (targetDatabase : GoString)
    (up : Upstream) : Except GoError MongoClient × Proxy :=
  if c.isUsingCredentialPassthrough then p.getOrCreateCredentialClient c ref up
  else
    match (p.routes ref).mongoClient with
    | some client => (.ok client, p)
    | none =>
      match p.createLazyMongoClient ref targetDatabase up with
      | (.error e, p) => (.error ⟨lit "failed to create MongoDB client: " ++ e.text⟩, p)
      | (.ok client, p) => (.ok client, p)

/-! ### The round trip -/

/-- The list in `isConnectionError`. -/
def connectionErrorPatterns : List GoString :=
  [lit "connection refused", lit "connection reset", lit "connection timeout",
   lit "network is unreachable", lit "no such host", lit "context deadline exceeded",
   lit "server selection error", lit "topology closed", lit "connection pool closed",
   lit "connection not available"]

def isConnectionError (e : GoError) : Bool :=
  connectionErrorPatterns.any (contains (toLower e.text))

def isEndOfTransaction (d : Driver) (op : Operation) : Bool :=
  let command := (op.commandAndCollection d).1
  decide (command = .commitTransaction) || decide (command = .abortTransaction) ||
    decide (command = .endSessions) || (op.transactionDetails d).any (·.autocommit)

/-- `RoundTrip` on a client: the reply, and the proxy with the world it leaves. -/
def call (d : Driver) (p : Proxy) (client : MongoClient) (wm : Bytes) (op : Operation)
    (up : Upstream) : Except GoError Response × Proxy :=
  let r := roundTrip d client.id (.of d wm op) up.script p.world
  (r.result.map .upstream, { p with world := r.world })

/-- The reply of another pod: `none` if the message is to be handled here. -/
def forwardToPod (d : Driver) (p : Proxy) (op : Operation) (up : Upstream) :
    Option (Except GoError Response) :=
  let sessionID := ((op.transactionDetails d).map (formatHex ·.lsID)).getD []
  if p.forwards && decide (sessionID ≠ []) then
    match up.forwardRequest with
    | .ok (some response) =>
      match decode d response with
      | .error e => some (.error ⟨e.text⟩)
      | .ok op => some (.ok (.fromPod op))
    | _ => none
  else none

/-- The registration of the client under the database of the message. -/
def reregister (m : Manager) (c : Connection) (database : GoString) : Except GoError Manager :=
  let username := if c.clientUsername = [] then lit "default" else c.clientUsername
  match m.getClient c.clientID with
  | none => m.registerClient c.clientID username database m.defaultMode
  | some client =>
    if client.database ≠ database then
      (m.unregisterClient c.clientID).registerClient c.clientID username database m.defaultMode
    else .ok m

/-- The id of the transaction of a message. -/
def transactionID (d : Driver) (op : Operation) : GoString :=
  match op.transactionDetails d with
  | none => []
  | some t => formatHex t.lsID ++ lit "-" ++ formatInt t.txnNumber.toInt

/-- What a round trip gives: the result, the proxy it leaves, and the client it was made on. -/
abbrev TripResult := Except GoError Response × Proxy × Option MongoClient

/-- The round trip on a connection of the pool, and its return. -/
def pooledCall (d : Driver) (p : Proxy) (m : Manager) (c : Connection) (database : GoString)
    (client : MongoClient) (wm : Bytes) (op : Operation) (up : Upstream) : TripResult :=
  let isTransaction := (op.transactionDetails d).any (!·.autocommit)
  match m.getConnection c.clientID database client isTransaction (transactionID d op) with
  | .error e => (.error e, { p with poolManager := some m }, none)
  | .ok (conn, m) =>
    match m.clientOf conn with
    | none => (.error (errorf "invalid memory address or nil pointer dereference"),
        { p with poolManager := some m }, none)
    | some client =>
      let (result, p) := p.call d client wm op up
      (result, { p with
        poolManager := some (m.returnConnection c.clientID conn (isEndOfTransaction d op)) },
        some client)

def roundTripWithPool (d : Driver) (p : Proxy) (m : Manager) (c : Connection)
    (database : GoString) (client : MongoClient) (wm : Bytes) (op : Operation) (up : Upstream) :
    TripResult :=
  let database := if database = [] then lit "default" else database
  match p.forwardToPod d op up with
  | some result => (result, p, none)
  | none =>
    match reregister m c database with
    -- a client that was unregistered for its new database stays unregistered
    | .error e =>
      (.error e, { p with poolManager := some (if (m.getClient c.clientID).isSome then
        m.unregisterClient c.clientID else m) }, none)
    | .ok m => p.pooledCall d m c database client wm op up

/-- The reset of the route's client after an error of the connection. -/
def resetRoute (p : Proxy) (ref : RouteRef) (result : Except GoError Response) : Proxy :=
  match result with
  | .ok _ => p
  | .error e =>
    if isConnectionError e && (p.routes ref).mongoClient.isSome then
      p.setRoute ref { p.routes ref with mongoClient := none }
    else p

/-- The round trip on the chosen client: through the pool, unless there is none or credentials are
passed through. -/
def trip (d : Driver) (p : Proxy) (c : Connection) (databaseName : GoString) (client : MongoClient)
    (wm : Bytes) (op : Operation) (up : Upstream) : TripResult :=
  match p.poolManager, c.isUsingCredentialPassthrough with
  | some m, false => p.roundTripWithPool d m c databaseName client wm op up
  | _, _ => ((p.call d client wm op up).1, (p.call d client wm op up).2, some client)

/-- The branch of `roundTrip` for messages that are not handshake commands. -/
def forward (d : Driver) (p : Proxy) (c : Connection) (databaseName : GoString) (wm : Bytes)
    (op : Operation) (up : Upstream) : Outcome :=
  match p.getRoute up.now databaseName with
  | (.error e, p) =>
    if databaseName = lit "admin" then
      p.fail c
        ⟨lit "admin database is not configured but admin command was attempted: " ++ e.text⟩
    else
      p.fail c ⟨lit "database " ++ databaseName ++ lit " is not supported: " ++ e.text⟩
  | (.ok ref, p) =>
    let c := { c with
      intendedDatabase := databaseName
      isUsingCredentialPassthrough := p.useCredentialPassthrough c databaseName (p.routes ref) }
    match p.selectClient c ref databaseName up with
    | (.error e, p) => p.fail c e
    | (.ok client, p) =>
      let (result, p, sentTo) := p.trip d c databaseName client wm op up
      { result, conn := c, proxy := p.resetRoute ref result, accepted := none, sentTo }

def roundTrip (d : Driver) (p : Proxy) (c : Connection) (wm : Bytes) (op : Operation)
    (up : Upstream) : Outcome :=
  let (databaseName, c) := extractDatabaseName d c op
  if isHandshake d op then p.handshake d c op up.now
  else p.forward d c databaseName wm op up

end Proxy

/-! ## Messages -/

/-- The response has an operation, whose opcode is read before it is written to the client. -/
def Response.hasOp : Response → Bool
  | .upstream msg => msg.op.isSome
  | _ => true

/-- What handling a message leads to; the connection is `none` once it is closed. -/
structure Handled where
  proxy : Proxy
  conn : Option Connection
  accepted : Option AppCredentials
  sentTo : Option MongoClient

namespace Proxy

/-- The end of `handleConnection`. -/
def closeConnection (p : Proxy) (c : Connection) : Proxy :=
  { p with poolManager := p.poolManager.map (·.unregisterClient c.clientID) }

/-- The beginning of `handleConnection`. A registration that fails is only logged. -/
def openConnection (p : Proxy) (clientID : GoString) : Proxy :=
  { p with poolManager := p.poolManager.map fun m =>
      match m.registerClient clientID (lit "default") (lit "default") m.defaultMode with
      | .ok m => m
      | .error _ => m }

/-- `handleMessage`, and the end of the connection where it returns an error or crashes. -/
def handleMessage (d : Driver) (p : Proxy) (c : Connection) (wm : Bytes) (up : Upstream) :
    Handled :=
  match decode d wm with
  | .error _ =>
    { proxy := p.closeConnection c, conn := none, accepted := none, sentTo := none }
  | .ok op =>
    let o := p.roundTrip d (extractDatabaseName d c op).2 wm op up
    let handled (kept : Option Connection) : Handled :=
      { proxy := if kept.isSome then o.proxy else o.proxy.closeConnection c
        conn := kept
        accepted := o.accepted
        sentTo := o.sentTo }
    match o.result with
    | .error _ => handled none
    | .ok response =>
      if op.unacknowledged then handled (some o.conn)
      else if !response.hasOp || !up.written then handled none
      else if o.proxy.metrics then handled (some (extractDatabaseName d o.conn op).2)
      else handled (some o.conn)

end Proxy

/-! ## Startup -/

/-- A configured database: its name, its connection string, its topology, and whether a client
could be made at startup. -/
structure DatabaseEntry where
  name : GoString
  connectionString : GoString
  topology : Option TopologyKind
  connects : Bool
  deriving DecidableEq, Repr

/-- `GetAllRoutes`: the wildcard route, else the last pattern route with the key, else an exact
route. -/
def RouteTable.getAllRoutes (t : RouteTable) (key : GoString) : Option RouteRef :=
  match (if key = lit "*" then t.wildcardRoute else none) with
  | some ref => some ref
  | none =>
    match t.patternRoutes.reverse.find? (·.key = key) with
    | some pr => some pr.route
    | none => t.routes key

namespace Proxy

/-- A proxy without routes, on a session manager with or without a distributed cache. -/
def new (authEnabled regexCredentialPassthrough metrics forwards : Bool) (manager : Option Manager)
    (dc : Option DistributedCache) : Proxy where
  authEnabled
  regexCredentialPassthrough
  metrics
  forwards
  router := .new
  routes := fun _ =>
    { databaseName := [], mongoClient := none, connectionString := [], topology := none,
      credentialClients := none }
  poolManager := manager
  world := { manager := .new dc, clients := fun _ => .connected [], checkedOut := [] }
  nextClient := 0
  mongoClients := fun _ => none

/-- The loop body of `Proxies`: a client, which may fail to be made, and the route. -/
def addDatabase (p : Proxy) (ref : RouteRef) (e : DatabaseEntry) : Proxy :=
  let client : MongoClient :=
    { id := p.nextClient, connectionString := e.connectionString, credentials := none }
  let route : RouteConfig :=
    { databaseName := e.name
      mongoClient := if e.connects then some client else none
      connectionString := e.connectionString
      topology := e.topology
      credentialClients := none }
  { p with
    router := p.router.addRoute e.name ref
    routes := update p.routes ref route
    nextClient := p.nextClient + 1
    world := { p.world with
      clients := update p.world.clients p.nextClient
        (Mongo.connected (clientDatabaseName e.connectionString)) } }

/-- The loop of `Proxies` over the databases. -/
def addDatabases (p : Proxy) : RouteRef → List DatabaseEntry → Proxy
  | _, [] => p
  | ref, e :: es => (p.addDatabase ref e).addDatabases (ref + 1) es

def registerStartupMongoClients (p : Proxy) : Proxy :=
  { p with mongoClients := fun key =>
      (p.router.table.getAllRoutes key).bind fun ref => (p.routes ref).mongoClient }

end Proxy

/-! ## The service -/

/-- The proxy and its open connections, which are numbered as they come. -/
structure Service where
  proxy : Proxy
  conns : Nat → Option Connection
  next : Nat

/-- The proxy at startup. -/
def Service.start (p : Proxy) (databases : List DatabaseEntry) : Service :=
  { proxy := (p.addDatabases 0 databases).registerStartupMongoClients
    conns := fun _ => none
    next := 0 }

/-- What can happen: a client connects, sends a message or goes away; other pods change the
distributed cache; entries of the clients' caches expire. -/
inductive Service.Turn where
  | connect (clientID : GoString)
  | message (k : Nat) (wm : Bytes) (up : Upstream)
  | hangUp (k : Nat)
  | pods (dc : DistributedCache)
  | expire (clients : ClientID → Mongo)

/-- What is recorded of a run: on connection `k` credentials were accepted in a handshake, or a
message was handed to an upstream client. -/
inductive Service.Entry where
  | accepted (k : Nat) (creds : AppCredentials)
  | sent (k : Nat) (client : MongoClient)
  deriving DecidableEq, Repr

/-- The entries of a message. -/
def Handled.entries (h : Handled) (k : Nat) : List Service.Entry :=
  h.accepted.toList.map (.accepted k) ++ h.sentTo.toList.map (.sent k)

/-- One turn. -/
def Service.step (d : Driver) (s : Service) : Service.Turn → Service × List Service.Entry
  | .connect clientID =>
    ({ proxy := s.proxy.openConnection clientID
       conns := update s.conns s.next (some (.new clientID))
       next := s.next + 1 }, [])
  | .message k wm up =>
    match s.conns k with
    | none => (s, [])
    | some c =>
      let h := s.proxy.handleMessage d c wm up
      ({ s with proxy := h.proxy, conns := update s.conns k h.conn }, h.entries k)
  | .hangUp k =>
    match s.conns k with
    | none => (s, [])
    | some c =>
      ({ s with proxy := s.proxy.closeConnection c, conns := update s.conns k none }, [])
  | .pods dc =>
    if s.proxy.world.manager.distributedCache.isSome then
      ({ s with proxy := { s.proxy with world := { s.proxy.world with
        manager := { s.proxy.world.manager with distributedCache := some dc } } } }, [])
    else (s, [])
  | .expire clients =>
    ({ s with proxy := { s.proxy with world := { s.proxy.world with clients } } }, [])

/-- The runs from a state, with the trace so far. -/
inductive Service.Run (d : Driver) (s₀ : Service) : List Service.Entry → Service → Prop where
  | start : Service.Run d s₀ [] s₀
  | turn {trace : List Service.Entry} {s : Service} (h : Service.Run d s₀ trace s)
      (t : Service.Turn) : Service.Run d s₀ (trace ++ (s.step d t).2) (s.step d t).1

end MongoBouncer
