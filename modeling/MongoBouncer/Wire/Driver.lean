import MongoBouncer.GoStd.Strings

/-!
# The wire-level part of the MongoDB driver

The proxy reads messages with packages `bsoncore` and `wiremessage` of the MongoDB driver, whose
code is not part of the repository. A `Driver` is a choice of those functions: the model is
parametric in it. Every reader returns the value read and the bytes after it, or `none` where the
Go function returns `ok = false`. Of the driver's errors the text is modelled, which the proxy
searches for patterns.

`Driver.Progress` states what the loops over a message rely on: a reader that succeeds does not
return more bytes than it was given, and reading a section type consumes one.
-/

namespace MongoBouncer

open GoStd

/-- A byte slice. -/
abbrev Bytes := List UInt8

/-- `bsoncore.Document`: the raw bytes of a document. -/
abbrev Document := Bytes

/-- `bsoncore.Value`, as far as the proxy distinguishes types. -/
inductive Value where
  | string (s : GoString)
  | int32 (i : Int32)
  | int64 (i : Int64)
  | boolean (b : Bool)
  | binary (subtype : UInt8) (data : Bytes)
  | other (type : UInt8) (data : Bytes)
  deriving DecidableEq, Repr

namespace Value

def stringValueOK : Value → Option GoString
  | .string s => some s
  | _ => none

def int32OK : Value → Option Int32
  | .int32 i => some i
  | _ => none

def int64OK : Value → Option Int64
  | .int64 i => some i
  | _ => none

def booleanOK : Value → Option Bool
  | .boolean b => some b
  | _ => none

/-- `BinaryOK`: the data of a binary value. -/
def binaryOK : Value → Option Bytes
  | .binary _ data => some data
  | _ => none

end Value

/-- What `wiremessage.ReadHeader` reads. -/
structure Header where
  length : Int32
  requestID : Int32
  responseTo : Int32
  opCode : Int32
  deriving DecidableEq, Repr

/-- The functions of the driver that the proxy calls to read messages and errors. -/
structure Driver where
  /-- `Document.Lookup`, `none` for the zero `Value`. -/
  lookup : Document → List GoString → Option Value
  /-- `Document.String`. -/
  documentString : Document → GoString
  /-- `QueryFlag.String`. -/
  queryFlagString : Int32 → GoString
  /-- `bsoncore.ReadDocument`. -/
  readDocument : Bytes → Option (Document × Bytes)
  readHeader : Bytes → Option (Header × Bytes)
  readQueryFlags : Bytes → Option (Int32 × Bytes)
  readQueryFullCollectionName : Bytes → Option (GoString × Bytes)
  readQueryNumberToSkip : Bytes → Option (Int32 × Bytes)
  readQueryNumberToReturn : Bytes → Option (Int32 × Bytes)
  readQueryQuery : Bytes → Option (Document × Bytes)
  readQueryReturnFieldsSelector : Bytes → Option (Document × Bytes)
  readMsgFlags : Bytes → Option (UInt32 × Bytes)
  readMsgChecksum : Bytes → Option (UInt32 × Bytes)
  readMsgSectionType : Bytes → Option (UInt8 × Bytes)
  readMsgSectionSingleDocument : Bytes → Option (Document × Bytes)
  readMsgSectionDocumentSequence : Bytes → Option ((GoString × List Document) × Bytes)
  readReplyFlags : Bytes → Option (Int32 × Bytes)
  readReplyCursorID : Bytes → Option (Int64 × Bytes)
  readReplyStartingFrom : Bytes → Option (Int32 × Bytes)
  readReplyNumberReturned : Bytes → Option (Int32 × Bytes)
  readReplyDocuments : Bytes → Option (List Document × Bytes)
  readKillCursorsZero : Bytes → Option (Int32 × Bytes)
  readKillCursorsNumberIDs : Bytes → Option (Int32 × Bytes)
  readKillCursorsCursorIDs : Bytes → Int32 → Option (List Int64 × Bytes)
  /-- `driver.Error.Error` of a network error whose `Message` is the text. -/
  networkErrorText : GoString → GoString
  /-- The text of a `driver.Error` shows its `Message`. -/
  contains_networkErrorText : ∀ text, contains (networkErrorText text) text = true

/-- The readers of the sections of an `OP_MSG` only ever advance. -/
structure Driver.Progress (d : Driver) : Prop where
  sectionType : ∀ wm t rest, d.readMsgSectionType wm = some (t, rest) → rest.length < wm.length
  checksum : ∀ wm c rest, wm ≠ [] → d.readMsgChecksum wm = some (c, rest) →
    rest.length < wm.length
  single : ∀ wm doc rest, d.readMsgSectionSingleDocument wm = some (doc, rest) →
    rest.length ≤ wm.length
  sequence : ∀ wm s rest, d.readMsgSectionDocumentSequence wm = some (s, rest) →
    rest.length ≤ wm.length

/-! ## The readers the repository writes itself -/

/-- `readi32`: a little-endian 32-bit integer. -/
def readi32 : Bytes → Option (Int32 × Bytes)
  | a :: b :: c :: d :: rest =>
    some (Int32.ofNat (a.toNat + b.toNat * 2 ^ 8 + c.toNat * 2 ^ 16 + d.toNat * 2 ^ 24), rest)
  | _ => none

/-- `readCString`: the bytes up to the next NUL. -/
def readCString (src : Bytes) : Option (GoString × Bytes) := cutByte 0 src

end MongoBouncer
