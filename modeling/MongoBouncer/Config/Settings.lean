import MongoBouncer.Config.Databases

/-!
# The settings of the configuration

Model of `parseRawConfig` of `config/config.go` for the sections `mongobouncer`,
`mongobouncer.metrics` and `mongobouncer.shared_cache`. Each key is looked up in the tree of the
TOML decoder with a type assertion; one that fails leaves the field as it was.

* `MongobouncerConfig`, `defaultConfig` : the configuration and its defaults;
* `parseRawConfig`                      : the parser;
* `Settings`                            : values for some of the keys, each of the type of its key;
* `Settings.Written`                    : the trees in which these values stand;
* `Settings.over`                       : the configuration that has them.

Principal result: `parseRawConfig_recovers_iff`, the settings that are read as they were written.
-/

namespace MongoBouncer

open GoStd

namespace Config

/-! ## Type assertions -/

/-- A `map[string]interface{}` of the decoder. -/
abbrev Table := List (GoString × TomlValue)

/-- `v[key].(bool)` -/
def boolField (v : Table) (key : String) : Option Bool :=
  match v.lookup (lit key) with
  | some (.boolean b) => some b
  | _ => none

/-- `v[key].(int)`. The decoder makes an `int64` of every integer, and no other value has the type
`int`, so this assertion fails on every tree. -/
def intField (_v : Table) (_key : String) : Option Int := none

/-- `v[key].([]interface{})` -/
def arrayField (v : Table) (key : String) : Option (List TomlValue) :=
  match v.lookup (lit key) with
  | some (.array items) => some items
  | _ => none

/-- `v[key].(map[string]interface{})` -/
def tableField (v : Table) (key : String) : Option Table :=
  match v.lookup (lit key) with
  | some (.table fields) => some fields
  | _ => none

/-! ## The configuration -/

structure MetricsConfig where
  enabled : Bool
  listenAddr : GoString
  listenPort : Int
  deriving DecidableEq, Repr

structure SharedCacheConfig where
  enabled : Bool
  listenAddr : GoString
  listenPort : Int
  cacheSizeBytes : GoString
  sessionExpiry : GoString
  transactionExpiry : GoString
  cursorExpiry : GoString
  debug : Bool
  labelSelector : GoString
  peerURLs : List GoString
  deriving DecidableEq, Repr

/-- `util.MongoDBClientConfig`, with durations in nanoseconds. -/
structure MongoDBClientConfig where
  maxPoolSize : Int
  minPoolSize : Int
  maxConnIdleTime : Int
  serverSelectionTimeout : Int
  connectTimeout : Int
  socketTimeout : Int
  heartbeatInterval : Int
  retryWrites : Option Bool
  topology : Option TopologyKind
  deriving DecidableEq, Repr

structure MongobouncerConfig where
  listenAddr : GoString
  listenPort : Int
  logLevel : GoString
  logFile : GoString
  poolMode : GoString
  maxClientConn : Int
  metrics : MetricsConfig
  authEnabled : Bool
  regexCredentialPassthrough : Bool
  sharedCache : SharedCacheConfig
  network : GoString
  unlink : Bool
  mongoDBConfig : MongoDBClientConfig
  ping : Bool
  deriving DecidableEq, Repr

structure TOMLConfig where
  mongobouncer : MongobouncerConfig
  databases : Table

/-- The defaults of `LoadConfig`. -/
def defaultConfig : TOMLConfig where
  mongobouncer :=
    { listenAddr := lit "0.0.0.0"
      listenPort := 27017
      logLevel := lit "info"
      logFile := []
      poolMode := lit "session"
      maxClientConn := 100
      metrics := { enabled := true, listenAddr := lit "0.0.0.0", listenPort := 9090 }
      authEnabled := true
      regexCredentialPassthrough := true
      sharedCache :=
        { enabled := false
          listenAddr := lit "0.0.0.0"
          listenPort := 8080
          cacheSizeBytes := lit "64Mi"
          sessionExpiry := lit "30m"
          transactionExpiry := lit "2m"
          cursorExpiry := lit "24h"
          debug := false
          labelSelector := []
          peerURLs := [] }
      network := lit "tcp4"
      unlink := false
      mongoDBConfig :=
        { maxPoolSize := 0
          minPoolSize := 0
          maxConnIdleTime := 0
          serverSelectionTimeout := 0
          connectTimeout := 0
          socketTimeout := 0
          heartbeatInterval := 0
          retryWrites := none
          topology := none }
      ping := false }
  databases := []

/-! ## The parser -/

/-- The `metrics` section. -/
def parseMetrics (metrics : Table) (c : MetricsConfig) : MetricsConfig where
  enabled := (boolField metrics "enabled").getD c.enabled
  listenAddr := (stringField metrics "listen_addr").getD c.listenAddr
  listenPort := (intField metrics "listen_port").getD c.listenPort

/-- A URL of the peers; what is not a string stays empty. -/
def peerURL : TomlValue → GoString
  | .string s => s
  | _ => []

/-- The `shared_cache` section. There is no assertion for `label_selector`. -/
def parseSharedCache (sharedCache : Table) (c : SharedCacheConfig) : SharedCacheConfig where
  enabled := (boolField sharedCache "enabled").getD c.enabled
  listenAddr := (stringField sharedCache "listen_addr").getD c.listenAddr
  listenPort := (intField sharedCache "listen_port").getD c.listenPort
  cacheSizeBytes := (stringField sharedCache "cache_size_bytes").getD c.cacheSizeBytes
  sessionExpiry := (stringField sharedCache "session_expiry").getD c.sessionExpiry
  transactionExpiry := (stringField sharedCache "transaction_expiry").getD c.transactionExpiry
  cursorExpiry := (stringField sharedCache "cursor_expiry").getD c.cursorExpiry
  debug := (boolField sharedCache "debug").getD c.debug
  labelSelector := c.labelSelector
  peerURLs := ((arrayField sharedCache "peer_urls").map (·.map peerURL)).getD c.peerURLs

section Parser

-- `time.ParseDuration`, in nanoseconds
variable (parseDuration : GoString → Option Int)

/-- A string that is a duration. -/
def durationField (v : Table) (key : String) : Option Int := (stringField v key).bind parseDuration

/-- The fields of the MongoDB client, which stand in the `mongobouncer` section. -/
def parseMongoDBConfig (mb : Table) (c : MongoDBClientConfig) :
    Except GoError MongoDBClientConfig :=
  let c : MongoDBClientConfig :=
    { maxPoolSize := (int64Field mb "max_pool_size").getD c.maxPoolSize
      minPoolSize := (int64Field mb "min_pool_size").getD c.minPoolSize
      maxConnIdleTime :=
        (durationField parseDuration mb "max_conn_idle_time").getD c.maxConnIdleTime
      serverSelectionTimeout :=
        (durationField parseDuration mb "server_selection_timeout").getD c.serverSelectionTimeout
      connectTimeout := (durationField parseDuration mb "connect_timeout").getD c.connectTimeout
      socketTimeout := (durationField parseDuration mb "socket_timeout").getD c.socketTimeout
      heartbeatInterval :=
        (durationField parseDuration mb "heartbeat_interval").getD c.heartbeatInterval
      retryWrites := (boolField mb "retry_writes").or c.retryWrites
      topology := c.topology }
  match stringField mb "topology" with
  | none => .ok c
  | some topology =>
    match getTopology topology with
    | .error e => .error e
    | .ok kind => .ok { c with topology := some kind }

/-- The `mongobouncer` section. -/
def parseMongobouncer (mb : Table) (c : MongobouncerConfig) : Except GoError MongobouncerConfig :=
  match parseMongoDBConfig parseDuration mb c.mongoDBConfig with
  | .error e => .error e
  | .ok mongoDBConfig => .ok
    { listenAddr := (stringField mb "listen_addr").getD c.listenAddr
      listenPort := (int64Field mb "listen_port").getD c.listenPort
      logLevel := (stringField mb "log_level").getD c.logLevel
      logFile := (stringField mb "logfile").getD c.logFile
      poolMode := (stringField mb "pool_mode").getD c.poolMode
      maxClientConn := (int64Field mb "max_client_conn").getD c.maxClientConn
      metrics :=
        match tableField mb "metrics" with
        | some metrics => parseMetrics metrics c.metrics
        | none => c.metrics
      authEnabled := (boolField mb "auth_enabled").getD c.authEnabled
      regexCredentialPassthrough :=
        (boolField mb "regex_credential_passthrough").getD c.regexCredentialPassthrough
      sharedCache :=
        match tableField mb "shared_cache" with
        | some sharedCache => parseSharedCache sharedCache c.sharedCache
        | none => c.sharedCache
      network := (stringField mb "network").getD c.network
      unlink := (boolField mb "unlink").getD c.unlink
      mongoDBConfig
      ping := (boolField mb "ping").getD c.ping }

/-- `parseRawConfig`. What it has already written to the configuration when it fails is not used. -/
def parseRawConfig (rawConfig : Table) (config : TOMLConfig) : Except GoError TOMLConfig :=
  let databases := (tableField rawConfig "databases").getD config.databases
  match tableField rawConfig "mongobouncer" with
  | none => .ok { config with databases }
  | some mb =>
    match parseMongobouncer parseDuration mb config.mongobouncer with
    | .error e => .error e
    | .ok mongobouncer => .ok { mongobouncer, databases }

end Parser

/-! ## Settings -/

/-- Values for keys of the `metrics` section. -/
structure MetricsSettings where
  enabled : Option Bool := none
  listenAddr : Option GoString := none
  listenPort : Option Int := none

/-- Values for keys of the `shared_cache` section. -/
structure SharedCacheSettings where
  enabled : Option Bool := none
  listenAddr : Option GoString := none
  listenPort : Option Int := none
  cacheSizeBytes : Option GoString := none
  sessionExpiry : Option GoString := none
  transactionExpiry : Option GoString := none
  cursorExpiry : Option GoString := none
  debug : Option Bool := none
  labelSelector : Option GoString := none
  peerURLs : Option (List GoString) := none

/-- The documented values of `topology`. -/
inductive TopologyName where
  | single
  | sharded
  | loadBalanced
  deriving DecidableEq, Repr

def TopologyName.text : TopologyName → GoString
  | .single => lit "single"
  | .sharded => lit "sharded"
  | .loadBalanced => lit "loadBalanced"

def TopologyName.kind : TopologyName → TopologyKind
  | .single => .single
  | .sharded => .sharded
  | .loadBalanced => .loadBalanced

structure DurationText (parseDuration : GoString → Option Int) where
  text : GoString
  value : Int
  parses : parseDuration text = some value

/-- Values for keys of the three sections. -/
structure Settings (parseDuration : GoString → Option Int) where
  listenAddr : Option GoString := none
  listenPort : Option Int := none
  logLevel : Option GoString := none
  logFile : Option GoString := none
  poolMode : Option GoString := none
  maxClientConn : Option Int := none
  metrics : MetricsSettings := {}
  authEnabled : Option Bool := none
  regexCredentialPassthrough : Option Bool := none
  sharedCache : SharedCacheSettings := {}
  network : Option GoString := none
  unlink : Option Bool := none
  ping : Option Bool := none
  maxPoolSize : Option Int := none
  minPoolSize : Option Int := none
  maxConnIdleTime : Option (DurationText parseDuration) := none
  serverSelectionTimeout : Option (DurationText parseDuration) := none
  connectTimeout : Option (DurationText parseDuration) := none
  socketTimeout : Option (DurationText parseDuration) := none
  heartbeatInterval : Option (DurationText parseDuration) := none
  retryWrites : Option Bool := none
  topology : Option TopologyName := none

/-- A key with what stands there, if it is given. -/
abbrev Line := String × Option TomlValue

def MetricsSettings.lines (s : MetricsSettings) : List Line :=
  [("enabled", s.enabled.map .boolean),
   ("listen_addr", s.listenAddr.map .string),
   ("listen_port", s.listenPort.map .integer)]

def SharedCacheSettings.lines (s : SharedCacheSettings) : List Line :=
  [("enabled", s.enabled.map .boolean),
   ("listen_addr", s.listenAddr.map .string),
   ("listen_port", s.listenPort.map .integer),
   ("cache_size_bytes", s.cacheSizeBytes.map .string),
   ("session_expiry", s.sessionExpiry.map .string),
   ("transaction_expiry", s.transactionExpiry.map .string),
   ("cursor_expiry", s.cursorExpiry.map .string),
   ("debug", s.debug.map .boolean),
   ("label_selector", s.labelSelector.map .string),
   ("peer_urls", s.peerURLs.map fun urls => .array (urls.map .string))]

/-- The table has these values at these keys, and may have others at other keys. -/
def Holds (v : Table) (lines : List Line) : Prop := ∀ line ∈ lines, v.lookup (lit line.1) = line.2

/-- A section, empty if it is absent. -/
def subsection (v : Table) (key : String) : Table := (tableField v key).getD []

section Settings

variable {parseDuration : GoString → Option Int}

/-- The lines of the `mongobouncer` section itself. -/
def Settings.lines (s : Settings parseDuration) : List Line :=
  [("listen_addr", s.listenAddr.map .string),
   ("listen_port", s.listenPort.map .integer),
   ("log_level", s.logLevel.map .string),
   ("logfile", s.logFile.map .string),
   ("pool_mode", s.poolMode.map .string),
   ("max_client_conn", s.maxClientConn.map .integer),
   ("auth_enabled", s.authEnabled.map .boolean),
   ("regex_credential_passthrough", s.regexCredentialPassthrough.map .boolean),
   ("network", s.network.map .string),
   ("unlink", s.unlink.map .boolean),
   ("ping", s.ping.map .boolean),
   ("max_pool_size", s.maxPoolSize.map .integer),
   ("min_pool_size", s.minPoolSize.map .integer),
   ("max_conn_idle_time", s.maxConnIdleTime.map (.string ·.text)),
   ("server_selection_timeout", s.serverSelectionTimeout.map (.string ·.text)),
   ("connect_timeout", s.connectTimeout.map (.string ·.text)),
   ("socket_timeout", s.socketTimeout.map (.string ·.text)),
   ("heartbeat_interval", s.heartbeatInterval.map (.string ·.text)),
   ("retry_writes", s.retryWrites.map .boolean),
   ("topology", s.topology.map (.string ·.text))]

/-- The trees of the decoder in which the settings stand. -/
structure Settings.Written (s : Settings parseDuration) (rawConfig : Table) : Prop where
  main : Holds (subsection rawConfig "mongobouncer") s.lines
  metrics : Holds (subsection (subsection rawConfig "mongobouncer") "metrics") s.metrics.lines
  sharedCache :
    Holds (subsection (subsection rawConfig "mongobouncer") "shared_cache") s.sharedCache.lines

/-- The values that are given, and for the rest those of `c`. -/
def MetricsSettings.over (s : MetricsSettings) (c : MetricsConfig) : MetricsConfig where
  enabled := s.enabled.getD c.enabled
  listenAddr := s.listenAddr.getD c.listenAddr
  listenPort := s.listenPort.getD c.listenPort

/-- The values that are given, and for the rest those of `c`. -/
def SharedCacheSettings.over (s : SharedCacheSettings) (c : SharedCacheConfig) :
    SharedCacheConfig where
  enabled := s.enabled.getD c.enabled
  listenAddr := s.listenAddr.getD c.listenAddr
  listenPort := s.listenPort.getD c.listenPort
  cacheSizeBytes := s.cacheSizeBytes.getD c.cacheSizeBytes
  sessionExpiry := s.sessionExpiry.getD c.sessionExpiry
  transactionExpiry := s.transactionExpiry.getD c.transactionExpiry
  cursorExpiry := s.cursorExpiry.getD c.cursorExpiry
  debug := s.debug.getD c.debug
  labelSelector := s.labelSelector.getD c.labelSelector
  peerURLs := s.peerURLs.getD c.peerURLs

/-- The same for the fields of the MongoDB client. -/
def Settings.overMongoDB (s : Settings parseDuration) (c : MongoDBClientConfig) :
    MongoDBClientConfig where
  maxPoolSize := s.maxPoolSize.getD c.maxPoolSize
  minPoolSize := s.minPoolSize.getD c.minPoolSize
  maxConnIdleTime := (s.maxConnIdleTime.map (·.value)).getD c.maxConnIdleTime
  serverSelectionTimeout := (s.serverSelectionTimeout.map (·.value)).getD c.serverSelectionTimeout
  connectTimeout := (s.connectTimeout.map (·.value)).getD c.connectTimeout
  socketTimeout := (s.socketTimeout.map (·.value)).getD c.socketTimeout
  heartbeatInterval := (s.heartbeatInterval.map (·.value)).getD c.heartbeatInterval
  retryWrites := s.retryWrites.or c.retryWrites
  topology := (s.topology.map (·.kind)).or c.topology

/-- The configuration with the values that are given, and for the rest those of `c`. -/
def Settings.over (s : Settings parseDuration) (c : MongobouncerConfig) : MongobouncerConfig where
  listenAddr := s.listenAddr.getD c.listenAddr
  listenPort := s.listenPort.getD c.listenPort
  logLevel := s.logLevel.getD c.logLevel
  logFile := s.logFile.getD c.logFile
  poolMode := s.poolMode.getD c.poolMode
  maxClientConn := s.maxClientConn.getD c.maxClientConn
  metrics := s.metrics.over c.metrics
  authEnabled := s.authEnabled.getD c.authEnabled
  regexCredentialPassthrough := s.regexCredentialPassthrough.getD c.regexCredentialPassthrough
  sharedCache := s.sharedCache.over c.sharedCache
  network := s.network.getD c.network
  unlink := s.unlink.getD c.unlink
  mongoDBConfig := s.overMongoDB c.mongoDBConfig
  ping := s.ping.getD c.ping

end Settings

/-! ## What is read of a line -/

section Lines

variable {v : Table} {key : String}

theorem stringField_of_line {o : Option GoString} (h : v.lookup (lit key) = o.map .string) :
    stringField v key = o := by
  cases o <;> simp [stringField, h]

theorem int64Field_of_line {o : Option Int} (h : v.lookup (lit key) = o.map .integer) :
    int64Field v key = o := by
  cases o <;> simp [int64Field, h]

theorem boolField_of_line {o : Option Bool} (h : v.lookup (lit key) = o.map .boolean) :
    boolField v key = o := by
  cases o <;> simp [boolField, h]

theorem arrayField_of_line {o : Option (List GoString)}
    (h : v.lookup (lit key) = o.map fun items => .array (items.map .string)) :
    (arrayField v key).map (·.map peerURL) = o := by
  have hurls : ∀ items : List GoString, (items.map TomlValue.string).map peerURL = items := by
    intro items
    rw [List.map_map]
    exact List.map_id items
  cases o <;> simp [arrayField, h, hurls]

theorem durationField_of_line {parseDuration : GoString → Option Int}
    {o : Option (DurationText parseDuration)} (h : v.lookup (lit key) = o.map (.string ·.text)) :
    durationField parseDuration v key = o.map (·.value) := by
  have hstring : stringField v key = o.map (·.text) := by
    apply stringField_of_line
    rw [h, Option.map_map]
    rfl
  cases o with
  | none => simp [durationField, hstring]
  | some d => simp [durationField, hstring, d.parses]

end Lines

/-! ## What is read of a section -/

section Sections

variable {parseDuration : GoString → Option Int} {v mb rawConfig : Table}

theorem holds_cons {line : Line} {lines : List Line} :
    Holds v (line :: lines) ↔ v.lookup (lit line.1) = line.2 ∧ Holds v lines :=
  List.forall_mem_cons

theorem holds_nil : Holds v [] := by
  intro line hline
  cases hline

theorem parseMetrics_eq {s : MetricsSettings} (h : Holds v s.lines) (c : MetricsConfig) :
    parseMetrics v c = { s.over c with listenPort := c.listenPort } := by
  simp only [MetricsSettings.lines, holds_cons] at h
  obtain ⟨henabled, haddr, -, -⟩ := h
  simp [parseMetrics, MetricsSettings.over, boolField_of_line henabled, stringField_of_line haddr,
    intField]

/-- The port and the label selector of the shared cache are the lines that are not read. -/
theorem parseSharedCache_eq {s : SharedCacheSettings} (h : Holds v s.lines)
    (c : SharedCacheConfig) :
    parseSharedCache v c =
      { s.over c with listenPort := c.listenPort, labelSelector := c.labelSelector } := by
  simp only [SharedCacheSettings.lines, holds_cons] at h
  obtain ⟨henabled, haddr, -, hsize, hsession, htransaction, hcursor, hdebug, -, hpeers, -⟩ := h
  simp [parseSharedCache, SharedCacheSettings.over, boolField_of_line henabled,
    stringField_of_line haddr, stringField_of_line hsize, stringField_of_line hsession,
    stringField_of_line htransaction, stringField_of_line hcursor, boolField_of_line hdebug,
    arrayField_of_line hpeers, intField]

theorem parseMetrics_subsection (mb : Table) (c : MetricsConfig) :
    (match tableField mb "metrics" with
      | some metrics => parseMetrics metrics c
      | none => c) = parseMetrics (subsection mb "metrics") c := by
  unfold subsection
  cases tableField mb "metrics" <;> rfl

theorem parseSharedCache_subsection (mb : Table) (c : SharedCacheConfig) :
    (match tableField mb "shared_cache" with
      | some sharedCache => parseSharedCache sharedCache c
      | none => c) = parseSharedCache (subsection mb "shared_cache") c := by
  unfold subsection
  cases tableField mb "shared_cache" <;> rfl

theorem parseRawConfig_subsection (rawConfig : Table) (config : TOMLConfig) :
    parseRawConfig parseDuration rawConfig config =
      match parseMongobouncer parseDuration (subsection rawConfig "mongobouncer")
        config.mongobouncer with
      | .error e => .error e
      | .ok mongobouncer => .ok
        { mongobouncer
          databases := (tableField rawConfig "databases").getD config.databases } := by
  unfold parseRawConfig subsection
  cases tableField rawConfig "mongobouncer" <;> rfl

theorem getTopology_text (t : TopologyName) : getTopology t.text =
      if t = .loadBalanced then .error ⟨lit "invalid topology: loadBalanced"⟩ else .ok t.kind := by
  cases t <;> decide +kernel

theorem parseMongoDBConfig_eq {s : Settings parseDuration} (h : Holds mb s.lines)
    (c : MongoDBClientConfig) :
    parseMongoDBConfig parseDuration mb c =
      if s.topology = some .loadBalanced then .error ⟨lit "invalid topology: loadBalanced"⟩
      else .ok (s.overMongoDB c) := by
  simp only [Settings.lines, holds_cons] at h
  obtain ⟨-, -, -, -, -, -, -, -, -, -, -, hmax, hmin, hidle, hselection, hconnect, hsocket,
    hheartbeat, hretry, htopology, -⟩ := h
  have htext : stringField mb "topology" = s.topology.map (·.text) := by
    apply stringField_of_line
    rw [htopology, Option.map_map]
    rfl
  unfold parseMongoDBConfig
  simp only [int64Field_of_line hmax, int64Field_of_line hmin, durationField_of_line hidle,
    durationField_of_line hselection, durationField_of_line hconnect,
    durationField_of_line hsocket, durationField_of_line hheartbeat, boolField_of_line hretry,
    htext]
  cases ht : s.topology with
  | none => simp [Settings.overMongoDB, ht]
  | some t =>
    simp only [Option.map_some, getTopology_text]
    by_cases hlb : t = .loadBalanced
    · simp [hlb]
    · simp [hlb, Settings.overMongoDB, ht]

/-- What is read of settings: all but the two ports and the label selector. -/
def Settings.read (s : Settings parseDuration) (c : MongobouncerConfig) : MongobouncerConfig :=
  { s.over c with
    metrics := { s.metrics.over c.metrics with listenPort := c.metrics.listenPort }
    sharedCache :=
      { s.sharedCache.over c.sharedCache with
        listenPort := c.sharedCache.listenPort
        labelSelector := c.sharedCache.labelSelector } }

theorem parseMongobouncer_eq {s : Settings parseDuration} (hmain : Holds mb s.lines)
    (hmetrics : Holds (subsection mb "metrics") s.metrics.lines)
    (hcache : Holds (subsection mb "shared_cache") s.sharedCache.lines) (c : MongobouncerConfig) :
    parseMongobouncer parseDuration mb c =
      if s.topology = some .loadBalanced then .error ⟨lit "invalid topology: loadBalanced"⟩
      else .ok (s.read c) := by
  unfold parseMongobouncer
  rw [parseMongoDBConfig_eq hmain, parseMetrics_subsection, parseSharedCache_subsection,
    parseMetrics_eq hmetrics, parseSharedCache_eq hcache]
  simp only [Settings.lines, holds_cons] at hmain
  obtain ⟨haddr, hport, hlevel, hfile, hmode, hclients, hauth, hregex, hnetwork, hunlink, hping,
    -⟩ := hmain
  by_cases htopology : s.topology = some .loadBalanced
  · simp only [if_pos htopology]
  · simp only [if_neg htopology, stringField_of_line haddr, int64Field_of_line hport,
      stringField_of_line hlevel, stringField_of_line hfile, stringField_of_line hmode,
      int64Field_of_line hclients, boolField_of_line hauth, boolField_of_line hregex,
      stringField_of_line hnetwork, boolField_of_line hunlink, boolField_of_line hping]
    rfl

theorem getD_eq_iff {α : Type} (o : Option α) (a : α) : a = o.getD a ↔ ∀ b ∈ o, b = a := by
  cases o with
  | none => simp
  | some b => simp [eq_comm]

/-- What is read is what was written, if the lines that are not read say what is there already. -/
theorem Settings.read_eq_over_iff (s : Settings parseDuration) (c : MongobouncerConfig) :
    s.read c = s.over c ↔ (∀ port ∈ s.metrics.listenPort, port = c.metrics.listenPort) ∧
      (∀ port ∈ s.sharedCache.listenPort, port = c.sharedCache.listenPort) ∧
      ∀ selector ∈ s.sharedCache.labelSelector, selector = c.sharedCache.labelSelector := by
  simp only [Settings.read, Settings.over, MetricsSettings.over, SharedCacheSettings.over,
    MongobouncerConfig.mk.injEq, MetricsConfig.mk.injEq, SharedCacheConfig.mk.injEq, true_and,
    and_true, getD_eq_iff]

/-- **The settings are read as they were written, exactly when the port of the metrics and that of
the shared cache, if they are given, are the defaults, the label selector is empty or not given, and
the topology is not `loadBalanced`.** -/
theorem parseRawConfig_recovers_iff {s : Settings parseDuration} (h : s.Written rawConfig) :
    (∃ config, parseRawConfig parseDuration rawConfig defaultConfig = .ok config ∧
        config.mongobouncer = s.over defaultConfig.mongobouncer) ↔
      (∀ port ∈ s.metrics.listenPort, port = 9090) ∧
      (∀ port ∈ s.sharedCache.listenPort, port = 8080) ∧
      (∀ selector ∈ s.sharedCache.labelSelector, selector = []) ∧
      s.topology ≠ some .loadBalanced := by
  rw [parseRawConfig_subsection, parseMongobouncer_eq h.main h.metrics h.sharedCache]
  by_cases htopology : s.topology = some .loadBalanced
  · simp [htopology]
  · have hread := s.read_eq_over_iff defaultConfig.mongobouncer
    rw [if_neg htopology]
    simp only [Except.ok.injEq, ne_eq, htopology, not_false_eq_true, and_true]
    constructor
    · rintro ⟨config, rfl, hover⟩
      exact hread.mp hover
    · intro hlines
      exact ⟨_, rfl, hread.mpr hlines⟩

end Sections

/-! ## Lines that are not read -/

/-- A file with these lines in the `mongobouncer` section. -/
def fileWith (mb : Table) : Table := [(lit "mongobouncer", .table mb)]

/-- Every duration is half a minute. -/
def halfMinute : GoString → Option Int := fun _ => some 30000000000

def plainSettings : Settings halfMinute :=
  { listenPort := some 27018
    metrics := { enabled := some false, listenPort := some 9090 }
    sharedCache := { peerURLs := some [lit "http://localhost:8081"] }
    socketTimeout := some ⟨lit "30s", 30000000000, rfl⟩
    topology := some .sharded }

def plainFile : Table :=
  fileWith [(lit "listen_port", .integer 27018), (lit "socket_timeout", .string (lit "30s")),
    (lit "topology", .string (lit "sharded")),
    (lit "metrics", .table [(lit "enabled", .boolean false), (lit "listen_port", .integer 9090)]),
    (lit "shared_cache",
      .table [(lit "peer_urls", .array [.string (lit "http://localhost:8081")])])]

def metricsPort : Settings halfMinute := { metrics := { listenPort := some 9191 } }

def metricsPortFile : Table :=
  fileWith [(lit "metrics", .table [(lit "listen_port", .integer 9191)])]

/-- The port and the label selector of the shared cache. -/
def cachePeers : Settings halfMinute :=
  { sharedCache := { listenPort := some 8081, labelSelector := some (lit "app=mongobouncer") } }

def cachePeersFile : Table :=
  fileWith [(lit "shared_cache", .table [(lit "listen_port", .integer 8081),
    (lit "label_selector", .string (lit "app=mongobouncer"))])]

/-- The third of the topologies. -/
def loadBalanced : Settings halfMinute := { topology := some .loadBalanced }

def loadBalancedFile : Table := fileWith [(lit "topology", .string (lit "loadBalanced"))]

theorem written_samples : plainSettings.Written plainFile ∧ metricsPort.Written metricsPortFile ∧
      cachePeers.Written cachePeersFile ∧ loadBalanced.Written loadBalancedFile := by
  refine ⟨⟨?_, ?_, ?_⟩, ⟨?_, ?_, ?_⟩, ⟨?_, ?_, ?_⟩, ?_, ?_, ?_⟩ <;>
    simp only [Settings.lines, MetricsSettings.lines, SharedCacheSettings.lines, holds_cons] <;>
    repeat' apply And.intro
  all_goals first | rfl | exact holds_nil

theorem parseRawConfig_recovers_iff_plain :
    ∃ config, parseRawConfig halfMinute plainFile defaultConfig = .ok config ∧
      config.mongobouncer = plainSettings.over defaultConfig.mongobouncer := by
  refine (parseRawConfig_recovers_iff written_samples.1).mpr ⟨?_, ?_, ?_, ?_⟩
  · simp [plainSettings]
  · simp [plainSettings]
  · simp [plainSettings]
  · decide

/-- The two ports and the label selector leave the defaults as they are, and the third of the
topologies is refused. -/
theorem settings_not_recovered :
    (metricsPort.Written metricsPortFile ∧ cachePeers.Written cachePeersFile ∧
      loadBalanced.Written loadBalancedFile) ∧
      parseRawConfig halfMinute metricsPortFile defaultConfig = .ok defaultConfig ∧
      parseRawConfig halfMinute cachePeersFile defaultConfig = .ok defaultConfig ∧
      parseRawConfig halfMinute loadBalancedFile defaultConfig =
        .error ⟨lit "invalid topology: loadBalanced"⟩ ∧
      (metricsPort.over defaultConfig.mongobouncer).metrics.listenPort = 9191 ∧
      defaultConfig.mongobouncer.metrics.listenPort = 9090 := by
  obtain ⟨-, hmetrics, hcache, hbalanced⟩ := written_samples
  refine ⟨⟨hmetrics, hcache, hbalanced⟩, rfl, rfl, ?_, rfl, rfl⟩
  rw [parseRawConfig_subsection,
    parseMongobouncer_eq hbalanced.main hbalanced.metrics hbalanced.sharedCache]
  rfl

end Config

end MongoBouncer
