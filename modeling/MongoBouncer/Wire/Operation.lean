import MongoBouncer.Wire.Driver

/-!
# Commands, operations and `Decode`

Model of `mongo/command.go` and of the reading half of `mongo/operations.go`: the operations of
the wire protocol, what the proxy asks of them (`CommandAndCollection`, `TransactionDetails`,
`CursorID`, `DatabaseName`, `IsIsMaster`, `Unacknowledged`, `String`) and `Decode`.

Principal result: `decodeSections_of_le` (the loop of `decodeMsg` ends: more fuel than bytes changes
nothing).
-/

namespace MongoBouncer

open GoStd

/-! ## Commands -/

inductive Command where
  | unknown | abortTransaction | aggregate | commitTransaction | count | createIndexes | delete
  | distinct | drop | dropDatabase | dropIndexes | endSessions | find | findAndModify | getMore
  | insert | isMaster | ismaster | listCollections | listIndexes | listDatabases | mapReduce
  | update | buildInfo | atlasVersion | getParameter
  deriving DecidableEq, Repr

namespace Command

/-- The name of a command: the value of its string constant. -/
def name : Command → GoString
  | unknown => lit "unknown"
  | abortTransaction => lit "abortTransaction"
  | aggregate => lit "aggregate"
  | commitTransaction => lit "commitTransaction"
  | count => lit "count"
  | createIndexes => lit "createIndexes"
  | delete => lit "delete"
  | distinct => lit "distinct"
  | drop => lit "drop"
  | dropDatabase => lit "dropDatabase"
  | dropIndexes => lit "dropIndexes"
  | endSessions => lit "endSessions"
  | find => lit "find"
  | findAndModify => lit "findAndModify"
  | getMore => lit "getMore"
  | insert => lit "insert"
  | isMaster => lit "isMaster"
  | ismaster => lit "ismaster"
  | listCollections => lit "listCollections"
  | listIndexes => lit "listIndexes"
  | listDatabases => lit "listDatabases"
  | mapReduce => lit "mapReduce"
  | update => lit "update"
  | buildInfo => lit "buildInfo"
  | atlasVersion => lit "atlasVersion"
  | getParameter => lit "getParameter"

def isWrite : Command → Bool
  | commitTransaction | createIndexes | delete | drop | dropIndexes | dropDatabase
  | findAndModify | insert | update => true
  | _ => false

end Command

def collectionCommands : List Command :=
  [.aggregate, .count, .createIndexes, .delete, .distinct, .drop, .dropIndexes, .find,
   .findAndModify, .insert, .listIndexes, .mapReduce, .update]

def int32Commands : List Command :=
  [.abortTransaction, .aggregate, .commitTransaction, .dropDatabase, .isMaster, .ismaster,
   .listCollections, .listDatabases, .buildInfo, .atlasVersion, .getParameter]

def int64Commands : List Command := [.getMore]

def arrayCommands : List Command := [.endSessions]

section Documents

variable (d : Driver)

/-- `msg.Lookup(key).StringValueOK()`. -/
def lookupString (msg : Document) (keys : List GoString) : Option GoString :=
  (d.lookup msg keys).bind Value.stringValueOK

/-- `CommandAndCollection`: the tables are searched one after the other. -/
def commandAndCollection (msg : Document) : Command × GoString :=
  let byCollection := collectionCommands.findSome? fun s =>
    (lookupString d msg [s.name]).map fun coll => (s, coll)
  let present (s : Command) : Bool := (d.lookup msg [s.name]).isSome
  match byCollection with
  | some r => r
  | none =>
    match int32Commands.find? present with
    | some s => (s, [])
    | none =>
      match int64Commands.find? present with
      | some s => (s, (lookupString d msg [lit "collection"]).getD [])
      | none =>
        match arrayCommands.find? present with
        | some s => (s, [])
        | none => (.unknown, [])

def isIsMasterValueTruthy (val : Option Value) : Bool :=
  match val.bind Value.int32OK with
  | some intValue => decide (intValue > 0)
  | none => (val.bind Value.booleanOK).getD false

def isIsMasterDoc (doc : Document) : Bool :=
  isIsMasterValueTruthy (d.lookup doc [Command.isMaster.name]) ||
    isIsMasterValueTruthy (d.lookup doc [Command.ismaster.name]) ||
    isIsMasterValueTruthy (d.lookup doc [Command.buildInfo.name])

end Documents

/-! ## `util.ParseCollectionName` -/

def normalizeDatabaseName (dbName : GoString) : GoString := toLower dbName

/-- `util.CollectionInfo`. -/
structure CollectionInfo where
  database : GoString
  collection : GoString
  fullName : GoString
  deriving DecidableEq, Repr

/-- `util.ParseCollectionName`: cut at the first dot. -/
def parseCollectionName (fullCollectionName : GoString) : CollectionInfo :=
  match cutByte 0x2E fullCollectionName with
  | some (db, coll) =>
    { database := normalizeDatabaseName db, collection := coll, fullName := fullCollectionName }
  | none => { database := [], collection := fullCollectionName, fullName := fullCollectionName }

/-! ## Operations -/

structure TransactionDetails where
  lsID : Bytes
  txnNumber : Int64
  isStartTransaction : Bool
  autocommit : Bool
  deriving DecidableEq, Repr

/-- `opMsgSectionSingle` and `opMsgSectionSequence`. -/
inductive OpMsgSection where
  | single (msg : Document)
  | sequence (identifier : GoString) (msgs : List Document)
  deriving DecidableEq, Repr

structure OpUnknown where
  opCode : Int32
  reqID : Int32
  wm : Bytes
  deriving DecidableEq, Repr

structure OpQuery where
  reqID : Int32
  flags : Int32
  fullCollectionName : GoString
  numberToSkip : Int32
  numberToReturn : Int32
  query : Document
  returnFieldsSelector : Document
  deriving DecidableEq, Repr

structure OpMsg where
  reqID : Int32
  flags : UInt32
  sections : List OpMsgSection
  checksum : UInt32
  deriving DecidableEq, Repr

structure OpReply where
  reqID : Int32
  flags : Int32
  cursorID : Int64
  startingFrom : Int32
  numReturned : Int32
  documents : List Document
  deriving DecidableEq, Repr

structure OpGetMore where
  reqID : Int32
  fullCollectionName : GoString
  numberToReturn : Int32
  cursorID : Int64
  deriving DecidableEq, Repr

structure OpUpdate where
  reqID : Int32
  fullCollectionName : GoString
  flags : Int32
  selector : Document
  update : Document
  deriving DecidableEq, Repr

structure OpInsert where
  reqID : Int32
  flags : Int32
  fullCollectionName : GoString
  documents : List Document
  deriving DecidableEq, Repr

structure OpDelete where
  reqID : Int32
  fullCollectionName : GoString
  flags : Int32
  selector : Document
  deriving DecidableEq, Repr

structure OpKillCursors where
  reqID : Int32
  cursorIDs : List Int64
  deriving DecidableEq, Repr

/-- The implementations of the interface `Operation`. -/
inductive Operation where
  | unknown (o : OpUnknown)
  | query (q : OpQuery)
  | msg (m : OpMsg)
  | reply (r : OpReply)
  | getMore (g : OpGetMore)
  | update (u : OpUpdate)
  | insert (i : OpInsert)
  | delete (e : OpDelete)
  | killCursors (k : OpKillCursors)
  deriving DecidableEq, Repr

def checksumPresent : UInt32 := 1

def moreToCome : UInt32 := 2

namespace OpMsgSection

variable (d : Driver)

def cursorID : OpMsgSection → Option Int64
  | single msg =>
    match (d.lookup msg [lit "getMore"]).bind Value.int64OK with
    | some getMore => some getMore
    | none => (d.lookup msg [lit "cursor", lit "id"]).bind Value.int64OK
  | sequence _ _ => none

def isIsMaster : OpMsgSection → Bool
  | single msg =>
    match lookupString d msg [lit "$db"] with
    | some db => if db = lit "admin" then isIsMasterDoc d msg else false
    | none => false
  | sequence _ _ => false

def commandAndCollection : OpMsgSection → Command × GoString
  | single msg => MongoBouncer.commandAndCollection d msg
  | sequence _ _ => (.unknown, [])

/-- The body of the loop of `opMsg.TransactionDetails`. -/
def transactionDetails : OpMsgSection → Option TransactionDetails
  | single msg => do
    let lsID ← (d.lookup msg [lit "lsid", lit "id"]).bind Value.binaryOK
    let txnNumber ← (d.lookup msg [lit "txnNumber"]).bind Value.int64OK
    let autocommit ← (d.lookup msg [lit "autocommit"]).bind Value.booleanOK
    let startTransaction := (d.lookup msg [lit "startTransaction"]).bind Value.booleanOK
    some { lsID, txnNumber, isStartTransaction := startTransaction.getD false, autocommit }
  | sequence _ _ => none

/-- The body of the loop of `opMsg.DatabaseName`. -/
def databaseName : OpMsgSection → Option GoString
  | single msg => lookupString d msg [lit "$db"]
  | sequence _ _ => none

def string : OpMsgSection → GoString
  | single msg => lit "\x7b SectionSingle msg: " ++ d.documentString msg ++ lit " \x7d"
  | sequence identifier msgs =>
    lit "\x7b SectionSingle identifier: " ++ identifier ++ lit ", msgs: [" ++
      (lit ", ").intercalate (msgs.map d.documentString) ++ lit "] \x7d"

end OpMsgSection

namespace Operation

variable (d : Driver)

def requestID : Operation → Int32
  | unknown o => o.reqID
  | query q => q.reqID
  | msg m => m.reqID
  | reply r => r.reqID
  | getMore g => g.reqID
  | update u => u.reqID
  | insert i => i.reqID
  | delete e => e.reqID
  | killCursors k => k.reqID

def isIsMaster : Operation → Bool
  | query q => if q.fullCollectionName = lit "admin.$cmd" then isIsMasterDoc d q.query else false
  | msg m => m.sections.any (·.isIsMaster d)
  | _ => false

/-- `CursorID`, `none` for `ok = false`. -/
def cursorID : Operation → Option Int64
  | query q => (d.lookup q.query [lit "getMore"]).bind Value.int64OK
  | msg m => m.sections.findSome? (·.cursorID d)
  | reply r => some r.cursorID
  | getMore g => some g.cursorID
  | _ => none

def unacknowledged : Operation → Bool
  | msg m => m.flags &&& moreToCome == moreToCome
  | _ => false

def commandAndCollection : Operation → Command × GoString
  | unknown _ => (.unknown, [])
  | query q => (.find, q.fullCollectionName)
  | msg m =>
    ((m.sections.map (·.commandAndCollection d)).find? (·.1 ≠ .unknown)).getD (.unknown, [])
  | reply _ => (.find, [])
  | getMore g => (.getMore, g.fullCollectionName)
  | update u => (.update, u.fullCollectionName)
  | insert i => (.insert, i.fullCollectionName)
  | delete e => (.delete, e.fullCollectionName)
  | killCursors _ => (.unknown, [])

def transactionDetails : Operation → Option TransactionDetails
  | msg m => m.sections.findSome? (·.transactionDetails d)
  | _ => none

def databaseName : Operation → GoString
  | unknown _ => []
  | query q => (parseCollectionName q.fullCollectionName).database
  | msg m => (m.sections.findSome? (·.databaseName d)).getD []
  | reply _ => []
  | getMore g => (parseCollectionName g.fullCollectionName).database
  | update u => (parseCollectionName u.fullCollectionName).database
  | insert i => (parseCollectionName i.fullCollectionName).database
  | delete e => (parseCollectionName e.fullCollectionName).database
  | killCursors _ => []

def showInt32 (i : Int32) : GoString := formatInt i.toInt

def showInt64 (i : Int64) : GoString := formatInt i.toInt

/-- `strings.Join` of the printed documents. -/
def showDocuments (docs : List Document) : GoString :=
  (lit ", ").intercalate (docs.map d.documentString)

def string : Operation → GoString
  | unknown o =>
    lit "\x7b OpUnknown opCode: " ++ showInt32 o.opCode ++ lit ", wm: " ++ o.wm ++ lit " \x7d"
  | query q =>
    lit "\x7b OpQuery flags: " ++ d.queryFlagString q.flags ++ lit ", fullCollectionName: " ++
      q.fullCollectionName ++ lit ", numberToSkip: " ++ showInt32 q.numberToSkip ++
      lit ", numberToReturn: " ++ showInt32 q.numberToReturn ++ lit ", query: " ++
      d.documentString q.query ++ lit ", returnFieldsSelector: " ++
      d.documentString q.returnFieldsSelector ++ lit " \x7d"
  | msg m =>
    lit "\x7b OpMsg flags: " ++ decimal m.flags.toNat ++ lit ", sections: [" ++
      (lit ", ").intercalate (m.sections.map (·.string d)) ++ lit "], checksum: " ++
      decimal m.checksum.toNat ++ lit " \x7d"
  | reply r =>
    lit "\x7b OpReply flags: " ++ showInt32 r.flags ++ lit ", cursorID: " ++
      showInt64 r.cursorID ++ lit ", startingFrom: " ++ showInt32 r.startingFrom ++
      lit ", numReturned: " ++ showInt32 r.numReturned ++ lit ", documents: [" ++
      showDocuments d r.documents ++ lit "] \x7d"
  | getMore g =>
    lit "\x7b OpGetMore fullCollectionName: " ++ g.fullCollectionName ++
      lit ", numberToReturn: " ++ showInt32 g.numberToReturn ++ lit ", cursorID: " ++
      showInt64 g.cursorID ++ lit " \x7d"
  -- the source prints an update under the name `OpQuery`
  | update u =>
    lit "\x7b OpQuery fullCollectionName: " ++ u.fullCollectionName ++ lit ", flags: " ++
      showInt32 u.flags ++ lit ", selector: " ++ d.documentString u.selector ++
      lit ", update: " ++ d.documentString u.update ++ lit " \x7d"
  | insert i =>
    lit "\x7b OpInsert flags: " ++ showInt32 i.flags ++ lit ", fullCollectionName: " ++
      i.fullCollectionName ++ lit ", documents: " ++ showDocuments d i.documents ++ lit " \x7d"
  | delete e =>
    lit "\x7b OpDelete fullCollectionName: " ++ e.fullCollectionName ++ lit ", flags: " ++
      showInt32 e.flags ++ lit ", selector: " ++ d.documentString e.selector ++ lit " \x7d"
  | killCursors k =>
    lit "\x7b OpKillCursors cursorIDs: [" ++ (lit " ").intercalate (k.cursorIDs.map showInt64) ++
      lit "] \x7d"

end Operation

/-! ## `Decode` -/

/-- The errors of `Decode`. -/
structure DecodeError where
  text : GoString
  deriving DecidableEq, Repr

section Decode

variable (d : Driver)

/-- The value a reader returned, or the error its caller reports. -/
def orError {α : Type} (r : Option α) (text : String) : Except DecodeError α :=
  match r with
  | some a => .ok a
  | none => .error ⟨lit text⟩

def decodeQuery (reqID : Int32) (wm : Bytes) : Except DecodeError OpQuery := do
  let (flags, wm) ← orError (d.readQueryFlags wm) "malformed query message: missing OP_QUERY flags"
  let (fullCollectionName, wm) ← orError (d.readQueryFullCollectionName wm)
    "malformed query message: full collection name"
  let (numberToSkip, wm) ← orError (d.readQueryNumberToSkip wm)
    "malformed query message: number to skip"
  let (numberToReturn, wm) ← orError (d.readQueryNumberToReturn wm)
    "malformed query message: number to return"
  let (query, wm) ← orError (d.readQueryQuery wm) "malformed query message: query document"
  let returnFieldsSelector ←
    if wm.length > 0 then do
      let (sel, _) ← orError (d.readQueryReturnFieldsSelector wm)
        "malformed query message: return fields selector"
      pure sel
    else pure []
  pure { reqID, flags, fullCollectionName, numberToSkip, numberToReturn, query,
         returnFieldsSelector }

/-- The loop of `decodeMsg`: the sections and the checksum. `fuel` bounds the iterations. -/
def decodeSections (hasChecksum : Bool) :
    Nat → Bytes → List OpMsgSection → UInt32 → Except DecodeError (List OpMsgSection × UInt32)
  | _, [], sections, checksum => .ok (sections, checksum)
  | 0, _ :: _, _, _ =>
    .error ⟨lit "malformed wire message: insufficient bytes to read section type"⟩
  | fuel + 1, wm@(_ :: _), sections, checksum =>
    if hasChecksum && wm.length == 4 then do
      let (checksum, wm) ← orError (d.readMsgChecksum wm)
        "malformed wire message: insufficient bytes to read checksum"
      decodeSections hasChecksum fuel wm sections checksum
    else do
      let (stype, wm) ← orError (d.readMsgSectionType wm)
        "malformed wire message: insufficient bytes to read section type"
      if stype = 0 then do
        let (doc, wm) ← orError (d.readMsgSectionSingleDocument wm)
          "malformed wire message: insufficient bytes to read single document"
        decodeSections hasChecksum fuel wm (sections ++ [.single doc]) checksum
      else if stype = 1 then do
        let ((identifier, msgs), wm) ← orError (d.readMsgSectionDocumentSequence wm)
          "malformed wire message: insufficient bytes to read document sequence"
        decodeSections hasChecksum fuel wm (sections ++ [.sequence identifier msgs]) checksum
      else
        .error ⟨lit "malformed wire message: unknown section type " ++ decimal stype.toNat⟩

def decodeMsg (reqID : Int32) (wm : Bytes) : Except DecodeError OpMsg := do
  let (flags, wm) ← orError (d.readMsgFlags wm) "malformed wire message: missing OP_MSG flags"
  let (sections, checksum) ←
    decodeSections d (flags &&& checksumPresent == checksumPresent) wm.length wm [] 0
  pure { reqID, flags, sections, checksum }

def decodeReply (reqID : Int32) (wm : Bytes) : Except DecodeError OpReply := do
  let (flags, wm) ← orError (d.readReplyFlags wm) "malformed reply message: missing OP_REPLY flags"
  let (cursorID, wm) ← orError (d.readReplyCursorID wm) "malformed reply message: cursor id"
  let (startingFrom, wm) ← orError (d.readReplyStartingFrom wm)
    "malformed reply message: starting from"
  let (numReturned, wm) ← orError (d.readReplyNumberReturned wm)
    "malformed reply message: number returned"
  let (documents, _) ← orError (d.readReplyDocuments wm)
    "malformed reply message: could not read documents from reply"
  pure { reqID, flags, cursorID, startingFrom, numReturned, documents }

def decodeGetMore (reqID : Int32) (wm : Bytes) : Except DecodeError OpGetMore := do
  let (_, wm) ← orError (d.readKillCursorsZero wm) "malformed get_more message: missing zero"
  let (fullCollectionName, wm) ← orError (d.readQueryFullCollectionName wm)
    "malformed get_more message: missing full collection name"
  let (numberToReturn, wm) ← orError (d.readQueryNumberToReturn wm)
    "malformed get_more message: missing number to return"
  let (cursorID, _) ← orError (d.readReplyCursorID wm)
    "malformed get_more message: missing cursorID"
  pure { reqID, fullCollectionName, numberToReturn, cursorID }

/-- `decodeUpdate`. It does not read the leading zero of the protocol. -/
def decodeUpdate (reqID : Int32) (wm : Bytes) : Except DecodeError OpUpdate := do
  let (fullCollectionName, wm) ← orError (readCString wm)
    "malformed update message: full collection name"
  let (flags, wm) ← orError (readi32 wm) "malformed update message: missing OP_UPDATE flags"
  let (selector, wm) ← orError (d.readDocument wm) "malformed update message: selector document"
  let (update, _) ← orError (d.readDocument wm) "malformed update message: update document"
  pure { reqID, fullCollectionName, flags, selector, update }

def decodeInsert (reqID : Int32) (wm : Bytes) : Except DecodeError OpInsert := do
  let (flags, wm) ← orError (readi32 wm) "malformed insert message: missing OP_INSERT flags"
  let (fullCollectionName, wm) ← orError (readCString wm)
    "malformed insert message: full collection name"
  let (documents, _) ← orError (d.readReplyDocuments wm)
    "malformed insert message: could not read documents"
  pure { reqID, flags, fullCollectionName, documents }

def decodeDelete (reqID : Int32) (wm : Bytes) : Except DecodeError OpDelete := do
  let (_, wm) ← orError (readi32 wm) "malformed delete message: missing zero"
  let (fullCollectionName, wm) ← orError (readCString wm)
    "malformed delete message: full collection name"
  let (flags, wm) ← orError (readi32 wm) "malformed delete message: missing OP_DELETE flags"
  let (selector, _) ← orError (d.readDocument wm) "malformed delete message: selector document"
  pure { reqID, fullCollectionName, flags, selector }

def decodeKillCursors (reqID : Int32) (wm : Bytes) : Except DecodeError OpKillCursors := do
  let (_, wm) ← orError (d.readKillCursorsZero wm) "malformed kill_cursors message: missing zero"
  let (numIDs, wm) ← orError (d.readKillCursorsNumberIDs wm)
    "malformed kill_cursors message: missing number of cursor IDs"
  let (cursorIDs, _) ← orError (d.readKillCursorsCursorIDs wm numIDs)
    "malformed kill_cursors message: missing cursor IDs"
  pure { reqID, cursorIDs }

def decode (wm : Bytes) : Except DecodeError Operation := do
  let (header, wmBody) ← orError (d.readHeader wm)
    "malformed wire message: insufficient bytes"
  if header.length.toInt > wm.length then
    .error ⟨lit "malformed wire message: insufficient bytes"⟩
  else if header.opCode = 2004 then
    (decodeQuery d header.requestID wmBody).map .query
  else if header.opCode = 2013 then
    (decodeMsg d header.requestID wmBody).map .msg
  else if header.opCode = 1 then
    (decodeReply d header.requestID wmBody).map .reply
  else if header.opCode = 2005 then
    (decodeGetMore d header.requestID wmBody).map .getMore
  else if header.opCode = 2001 then
    (decodeUpdate d header.requestID wmBody).map .update
  else if header.opCode = 2002 then
    (decodeInsert d header.requestID wmBody).map .insert
  else if header.opCode = 2006 then
    (decodeDelete d header.requestID wmBody).map .delete
  else if header.opCode = 2007 then
    (decodeKillCursors d header.requestID wmBody).map .killCursors
  else
    .ok (.unknown { opCode := header.opCode, reqID := header.requestID, wm })

/-- The loop of `decodeMsg` terminates by itself: once there is as much fuel as there are bytes,
more of it changes nothing. -/
theorem decodeSections_of_le (hd : d.Progress) (hasChecksum : Bool) :
    ∀ (fuel : Nat) (wm : Bytes) (sections : List OpMsgSection) (checksum : UInt32),
      wm.length ≤ fuel →
      decodeSections d hasChecksum fuel wm sections checksum =
        decodeSections d hasChecksum wm.length wm sections checksum := by
  suffices H : ∀ (fuel fuel' : Nat) (wm : Bytes) (sections : List OpMsgSection)
      (checksum : UInt32), wm.length ≤ fuel → wm.length ≤ fuel' →
      decodeSections d hasChecksum fuel wm sections checksum =
        decodeSections d hasChecksum fuel' wm sections checksum by
    intro fuel wm sections checksum h
    exact H fuel wm.length wm sections checksum h (Nat.le_refl _)
  intro fuel
  induction fuel with
  | zero =>
    intro fuel' wm sections checksum h h'
    have hnil : wm = [] := List.length_eq_zero_iff.mp (Nat.le_zero.mp h)
    subst hnil
    cases fuel' <;> rfl
  | succ fuel ih =>
    intro fuel' wm sections checksum h h'
    cases wm with
    | nil => cases fuel' <;> rfl
    | cons b wm =>
      obtain ⟨f', rfl⟩ : ∃ f', fuel' = f' + 1 := ⟨fuel' - 1, by simp at h'; omega⟩
      simp only [decodeSections]
      split
      · cases hr : d.readMsgChecksum (b :: wm) with
        | none => rfl
        | some r =>
          have hlt := hd.checksum _ r.1 r.2 (by simp) hr
          exact ih f' r.2 _ _ (by omega) (by omega)
      · cases hr : d.readMsgSectionType (b :: wm) with
        | none => rfl
        | some r =>
          have hlt := hd.sectionType _ r.1 r.2 hr
          simp only [orError, bind, Except.bind]
          split
          · cases hs : d.readMsgSectionSingleDocument r.2 with
            | none => rfl
            | some q =>
              have hle := hd.single _ q.1 q.2 hs
              exact ih f' q.2 _ _ (by omega) (by omega)
          · split
            · cases hs : d.readMsgSectionDocumentSequence r.2 with
              | none => rfl
              | some q =>
                have hle := hd.sequence _ q.1 q.2 hs
                exact ih f' q.2 _ _ (by omega) (by omega)
            · rfl

end Decode

end MongoBouncer
