import MongoBouncer.Proxy.Router
import MongoBouncer.Wire.Encode

/-!
# The mocked replies

Model of `mongo/ismaster.go`: the replies that the proxy gives to handshake commands without asking
a cluster. Each is an `OP_REPLY` with one document. `bson.Marshal`, which is not part of the
repository, is a parameter; it fails on none of the documents.

* `BsonValue`, `BsonD`    : the documents before they are marshalled;
* `Stamp`                 : what the builders take from their surroundings;
* `mockMessage`           : what the builders share;
* `Bson.marshal`          : a marshaller.

Principal result: `decode_mockMessage`, a mocked reply is decoded to its own operation.
-/

namespace MongoBouncer

open GoStd Codec

/-! ## Documents -/

/-- A value of a `bson.D`, of the types that the replies have; a `float64` is given by its bits. -/
inductive BsonValue where
  | double (bits : UInt64)
  | string (s : GoString)
  | boolean (b : Bool)
  | int (i : Int)
  | int64 (i : Int64)
  | objectID (id : Bytes)
  | array (values : List BsonValue)
  | document (fields : List (String × BsonValue))

abbrev BsonD := List (String × BsonValue)

def BsonValue.zero : BsonValue := .double 0

def BsonValue.one : BsonValue := .double 0x3FF0000000000000

/-- What the builders take from their surroundings: the time in milliseconds and a new object
id. -/
structure Stamp where
  ms : Int64
  objectID : Bytes

/-- `isMasterDocument`, before it is marshalled. -/
def isMasterDocument (stamp : Stamp) : TopologyKind → Except GoError BsonD
  | .single => .ok
    [("ismaster", .boolean true),
     ("maxBsonObjectSize", .int 16777216),
     ("maxMessageSizeBytes", .int 48000000),
     ("maxWriteBatchSize", .int 100000),
     ("localTime", .document [("$date", .int64 stamp.ms)]),
     ("logicalSessionTimeoutMinutes", .int 30),
     ("maxWireVersion", .int 25),
     ("minWireVersion", .int 0),
     ("readOnly", .boolean false),
     ("ok", .one)]
  | .sharded => .ok
    [("ismaster", .boolean true),
     ("msg", .string (lit "isdbgrid")),
     ("maxBsonObjectSize", .int 16777216),
     ("maxMessageSizeBytes", .int 48000000),
     ("maxWriteBatchSize", .int 100000),
     ("localTime", .document [("$date", .int64 stamp.ms)]),
     ("logicalSessionTimeoutMinutes", .int 30),
     ("minWireVersion", .int 0),
     ("maxWireVersion", .int 25),
     ("saslSupportedMechs", .array []),
     ("ok", .one)]
  | .loadBalanced => .ok
    [("ismaster", .boolean true),
     ("msg", .string (lit "isdbgrid")),
     ("serviceId", .objectID stamp.objectID),
     ("maxBsonObjectSize", .int 16777216),
     ("maxMessageSizeBytes", .int 48000000),
     ("maxWriteBatchSize", .int 100000),
     ("localTime", .document [("$date", .int64 stamp.ms)]),
     ("logicalSessionTimeoutMinutes", .int 30),
     ("minWireVersion", .int 0),
     ("maxWireVersion", .int 25),
     ("ok", .one)]
  | .other text => .error ⟨lit "unsupported topology kind: " ++ text⟩

def buildInfoDocument (stamp : Stamp) : BsonD :=
  [("ismaster", .boolean true),
   ("msg", .string (lit "isdbgrid")),
   ("maxBsonObjectSize", .int 16777216),
   ("maxMessageSizeBytes", .int 48000000),
   ("maxWriteBatchSize", .int 100000),
   ("localTime", .document [("$date", .int64 stamp.ms)]),
   ("logicalSessionTimeoutMinutes", .int 30),
   ("minWireVersion", .int 0),
   ("maxWireVersion", .int 25),
   ("ok", .one)]

/-- The document of `ErrorResponse`, whatever the error is called. -/
def errorDocument (errmsg codeName : GoString) : BsonD :=
  [("ok", .zero),
   ("errmsg", .string errmsg),
   ("code", .int 59),
   ("codeName", .string codeName)]

def getParameterDocument : BsonD :=
  [("featureCompatibilityVersion", .document [("version", .string (lit "6.0"))]),
   ("ok", .one)]

def emptyCursorDocument : BsonD :=
  [("cursor", .document
     [("firstBatch", .array []),
      ("id", .int64 0),
      ("ns", .string (lit "admin.atlascli"))]),
   ("ok", .one)]

/-! ## Replies -/

def resultFlagAwaitCapable : Int32 := 8

def mockReply (flags : Int32) (doc : Document) : OpReply :=
  { reqID := 0, flags, cursorID := 0, startingFrom := 0, numReturned := 1, documents := [doc] }

section Builders

variable (w : Appender) (marshal : BsonD → Document) (stamp : Stamp) (responseTo : Int32)

/-- What the builders share: the marshalled document in an `OP_REPLY`, with its bytes. -/
def mockMessage (flags : Int32) (doc : BsonD) : Message :=
  { wm := (mockReply flags (marshal doc)).encode w responseTo
    op := some (.reply (mockReply flags (marshal doc))) }

def isMasterResponse (topologyKind : TopologyKind) : Except GoError Message :=
  (isMasterDocument stamp topologyKind).map (mockMessage w marshal responseTo resultFlagAwaitCapable)

def buildInfoResponse : Message :=
  mockMessage w marshal responseTo resultFlagAwaitCapable (buildInfoDocument stamp)

/-- `ErrorResponse`, the only one without a flag. -/
def errorResponse (errmsg codeName : GoString) : Message :=
  mockMessage w marshal responseTo 0 (errorDocument errmsg codeName)

def getParameterResponse : Message :=
  mockMessage w marshal responseTo resultFlagAwaitCapable getParameterDocument

def emptyCursorResponse : Message :=
  mockMessage w marshal responseTo resultFlagAwaitCapable emptyCursorDocument

end Builders

/-- The bytes are a document that fits into a message. -/
structure Marshalled (doc : Document) : Prop where
  isDocument : IsDocument doc
  fits : doc.length + 36 < 2 ^ 31

instance (doc : Document) : Decidable (Marshalled doc) :=
  decidable_of_iff (IsDocument doc ∧ doc.length + 36 < 2 ^ 31)
    ⟨fun h => ⟨h.1, h.2⟩, fun h => ⟨h.isDocument, h.fits⟩⟩

section Decode

variable {d : Driver} {w : Appender} (hd : d.Layout) (hw : w.Layout) {marshal : BsonD → Document}
  {doc : BsonD}

include hw in
theorem wm_mockMessage (responseTo flags : Int32) :
    (mockMessage w marshal responseTo flags doc).wm =
      message 0 responseTo 1 (Operation.reply (mockReply flags (marshal doc))).body :=
  encode_eq hw (.reply (mockReply flags (marshal doc))) responseTo (by simp)

include hd hw in
/-- **A mocked reply is decoded to its own operation.** -/
theorem decode_mockMessage (responseTo flags : Int32) (hdoc : Marshalled (marshal doc)) :
    decode d (mockMessage w marshal responseTo flags doc).wm =
      .ok (.reply (mockReply flags (marshal doc))) := by
  have hbody : (Operation.reply (mockReply flags (marshal doc))).body.length + 16 < 2 ^ 31 := by
    have hfits := hdoc.fits
    simp only [Operation.body, mockReply, List.length_append, length_i32, length_i64,
      List.flatten_cons, List.flatten_nil, List.length_nil]
    omega
  have hwf : (Operation.reply (mockReply flags (marshal doc))).WellFormed := by
    intro doc' hmem
    rw [List.mem_singleton.mp hmem]
    exact hdoc.isDocument
  rw [wm_mockMessage hw]
  have hmessage := decode_message hd (.reply (mockReply flags (marshal doc))) (by simp) 0 responseTo
    hbody
  exact hmessage.trans (decodeLike_body hd _ (by simp) hwf (by omega) 0)

include hd hw in
theorem readHeader_mockMessage (responseTo flags : Int32) :
    ∃ header rest, d.readHeader (mockMessage w marshal responseTo flags doc).wm =
      some (header, rest) ∧ header.responseTo = responseTo := by
  rw [wm_mockMessage hw]
  exact ⟨_, _, hd.header _ _ trivial, rfl⟩

end Decode

/-! ## A marshaller -/

namespace Bson

/-- The bytes of a document around those of its elements. -/
def enclosed (elements : Bytes) : Document := writeNat 4 (elements.length + 5) ++ elements ++ [0]

mutual

/-- The type and the bytes of a value. An `int` that fits is written as an `int32`. -/
def marshalValue : BsonValue → UInt8 × Bytes
  | .double bits => (0x01, writeNat 8 bits.toNat)
  | .string s => writeValue (.string s)
  | .boolean b => writeValue (.boolean b)
  | .int i =>
    if (Int32.ofInt i).toInt = i then writeValue (.int32 (Int32.ofInt i))
    else writeValue (.int64 (Int64.ofInt i))
  | .int64 i => writeValue (.int64 i)
  | .objectID id => (0x07, id)
  | .array values => (0x04, enclosed (marshalValues 0 values))
  | .document fields => (0x03, enclosed (marshalFields fields))

/-- The elements of an array, whose keys are their places. -/
def marshalValues : Nat → List BsonValue → Bytes
  | _, [] => []
  | n, value :: values =>
    (marshalValue value).1 :: (decimal n ++ 0 :: (marshalValue value).2) ++
      marshalValues (n + 1) values

/-- The elements of a document. -/
def marshalFields : List (String × BsonValue) → Bytes
  | [] => []
  | field :: fields => marshalField field ++ marshalFields fields

/-- An element of a document. -/
def marshalField : String × BsonValue → Bytes
  | (key, value) => (marshalValue value).1 :: (lit key ++ 0 :: (marshalValue value).2)

end

/-- `bson.Marshal`, as BSON documents are laid out. -/
def marshal (doc : BsonD) : Document := enclosed (marshalFields doc)

example : marshal [("ping", .int 1), ("$db", .string (lit "shop"))] =
    document [("ping", .int32 1), ("$db", .string (lit "shop"))] := by decide +kernel

end Bson

end MongoBouncer
