import MongoBouncer.Wire.Operation

/-!
# A driver that reads BSON

A concrete `Driver`: the readers of `bsoncore` and `wiremessage` written from the layout of BSON
documents and of the wire protocol. The theorems of this development hold for every driver; this
one is the instance on which concrete messages are evaluated.

* `Bson.lookup`     : the value of a key path in the bytes of a document;
* `Bson.document`, `Bson.opMsg` : the bytes of a document with given fields, and of a message;
* `plainDriver`     : the driver.
-/

namespace MongoBouncer

open GoStd

namespace Bson

/-! ## Reading -/

/-- An unsigned little-endian number of `n` bytes. -/
def readNat : Nat → Bytes → Option (Nat × Bytes)
  | 0, src => some (0, src)
  | _ + 1, [] => none
  | n + 1, b :: src => (readNat n src).map fun p => (b.toNat + 256 * p.1, p.2)

/-- A little-endian `int64`. -/
def readi64 (src : Bytes) : Option (Int64 × Bytes) :=
  (readNat 8 src).map fun p => (Int64.ofNat p.1, p.2)

/-- A little-endian `uint32`. -/
def readu32 (src : Bytes) : Option (UInt32 × Bytes) :=
  (readNat 4 src).map fun p => (UInt32.ofNat p.1, p.2)

/-- The first `n` bytes. -/
def splitAt (n : Nat) (src : Bytes) : Option (Bytes × Bytes) :=
  if n ≤ src.length then some (src.take n, src.drop n) else none

/-- A document: its length counts its own four bytes. -/
def readDocument (src : Bytes) : Option (Document × Bytes) := do
  let (length, _) ← readNat 4 src
  if length < 5 then none else splitAt length src

/-- The value of an element of the given type. -/
def readValue (type : UInt8) (src : Bytes) : Option (Value × Bytes) :=
  if type = 0x02 then do
    let (length, src) ← readNat 4 src
    let (s, src) ← splitAt length src
    some (.string s.dropLast, src)
  else if type = 0x03 ∨ type = 0x04 then do
    let (doc, src) ← readDocument src
    some (.other type doc, src)
  else if type = 0x05 then do
    let (length, src) ← readNat 4 src
    match src with
    | subtype :: src =>
      let (data, src) ← splitAt length src
      some (.binary subtype data, src)
    | [] => none
  else if type = 0x08 then
    match src with
    | b :: src => some (.boolean (b != 0), src)
    | [] => none
  else if type = 0x10 then (readi32 src).map fun p => (.int32 p.1, p.2)
  else if type = 0x12 then (readi64 src).map fun p => (.int64 p.1, p.2)
  else if type = 0x0A then some (.other type [], src)
  else if type = 0x01 ∨ type = 0x09 ∨ type = 0x11 then
    (splitAt 8 src).map fun p => (.other type p.1, p.2)
  else if type = 0x07 then (splitAt 12 src).map fun p => (.other type p.1, p.2)
  else none

/-- The value of the first element with the key. `fuel` bounds the elements. -/
def findElement (key : GoString) : Nat → Bytes → Option Value
  | 0, _ => none
  | fuel + 1, src =>
    match src with
    | [] => none
    | type :: src => do
      if type = 0 then none
      else
        let (name, src) ← readCString src
        let (value, src) ← readValue type src
        if name = key then some value else findElement key fuel src

/-- `Document.Lookup`: a path of keys through embedded documents. -/
def lookup (doc : Document) : List GoString → Option Value
  | [] => none
  | [key] => findElement key doc.length (doc.drop 4)
  | key :: keys =>
    match findElement key doc.length (doc.drop 4) with
    | some (.other _ sub) => lookup sub keys
    | _ => none

/-- Documents one after the other, and nothing else. -/
def readDocuments : Nat → Bytes → Option (List Document × Bytes)
  | _, [] => some ([], [])
  | 0, _ :: _ => none
  | fuel + 1, src => do
    let (doc, src) ← readDocument src
    let (docs, src) ← readDocuments fuel src
    some (doc :: docs, src)

/-- A document sequence: its length, its identifier and its documents. -/
def readSequence (src : Bytes) : Option ((GoString × List Document) × Bytes) := do
  let (length, rest) ← readNat 4 src
  if length < 4 then none
  else
    let (body, rest) ← splitAt (length - 4) rest
    let (identifier, body) ← readCString body
    let (docs, _) ← readDocuments body.length body
    some ((identifier, docs), rest)

def readCursorIDs : Nat → Bytes → Option (List Int64 × Bytes)
  | 0, src => some ([], src)
  | n + 1, src => do
    let (id, src) ← readi64 src
    let (ids, src) ← readCursorIDs n src
    some (id :: ids, src)

/-- The header of a message. -/
def readHeader (src : Bytes) : Option (Header × Bytes) := do
  let (length, src) ← readi32 src
  let (requestID, src) ← readi32 src
  let (responseTo, src) ← readi32 src
  let (opCode, src) ← readi32 src
  some ({ length, requestID, responseTo, opCode }, src)

/-! ## Writing -/

/-- A number in `n` little-endian bytes. -/
def writeNat : Nat → Nat → Bytes
  | 0, _ => []
  | n + 1, k => UInt8.ofNat k :: writeNat n (k / 256)

/-- The type and the bytes of a value. -/
def writeValue : Value → UInt8 × Bytes
  | .string s => (0x02, writeNat 4 (s.length + 1) ++ s ++ [0])
  | .int32 i => (0x10, writeNat 4 i.toUInt32.toNat)
  | .int64 i => (0x12, writeNat 8 i.toUInt64.toNat)
  | .boolean b => (0x08, [if b then 1 else 0])
  | .binary subtype data => (0x05, writeNat 4 data.length ++ subtype :: data)
  | .other type data => (type, data)

/-- The document with the fields. -/
def document (fields : List (String × Value)) : Document :=
  let body := fields.flatMap fun p =>
    (writeValue p.2).1 :: (lit p.1 ++ 0 :: (writeValue p.2).2)
  writeNat 4 (body.length + 5) ++ body ++ [0]

def embedded (fields : List (String × Value)) : Value := .other 0x03 (document fields)

def message (requestID opCode : Nat) (body : Bytes) : Bytes :=
  writeNat 4 (body.length + 16) ++ writeNat 4 requestID ++ writeNat 4 0 ++ writeNat 4 opCode ++
    body

end Bson

open Bson in
/-- The driver that reads BSON and the wire protocol as they are laid out. -/
def plainDriver : Driver where
  lookup := Bson.lookup
  documentString := id
  queryFlagString := fun flags => formatInt flags.toInt
  readDocument := readDocument
  readHeader := readHeader
  readQueryFlags := readi32
  readQueryFullCollectionName := readCString
  readQueryNumberToSkip := readi32
  readQueryNumberToReturn := readi32
  readQueryQuery := readDocument
  readQueryReturnFieldsSelector := readDocument
  readMsgFlags := readu32
  readMsgChecksum := readu32
  readMsgSectionType := fun src =>
    match src with
    | t :: src => some (t, src)
    | [] => none
  readMsgSectionSingleDocument := readDocument
  readMsgSectionDocumentSequence := readSequence
  readReplyFlags := readi32
  readReplyCursorID := readi64
  readReplyStartingFrom := readi32
  readReplyNumberReturned := readi32
  readReplyDocuments := fun src => readDocuments src.length src
  readKillCursorsZero := readi32
  readKillCursorsNumberIDs := readi32
  readKillCursorsCursorIDs := fun src n => readCursorIDs n.toInt.toNat src
  networkErrorText := fun text => lit " " ++ text
  contains_networkErrorText := by
    intro text
    rw [contains_iff]
    exact ⟨lit " ", [], by simp⟩

namespace Bson

/-- An `OP_MSG` with one section. -/
def opMsg (fields : List (String × Value)) : Operation :=
  .msg { reqID := 1, flags := 0, sections := [.single (document fields)], checksum := 0 }

/-- The bytes of an `OP_MSG` with one section. -/
def opMsgBytes (fields : List (String × Value)) : Bytes :=
  message 1 2013 (writeNat 4 0 ++ 0 :: document fields)

example : decode plainDriver (opMsgBytes [("ping", .int32 1), ("$db", .string (lit "shop"))]) =
    .ok (opMsg [("ping", .int32 1), ("$db", .string (lit "shop"))]) := by decide +kernel

end Bson

end MongoBouncer
