import MongoBouncer.Wire.Layout

/-!
# `Encode`, and `Decode` after it

Model of the writing half of `mongo/operations.go`: the `Encode` method of every operation. It
hands a buffer through the driver's append functions and the repository's own `appendi32` and
`appendCString`.

* `encode_eq`             : an encoded operation is a header and the operation's body;
* `decodeSections_append` : the loop of `decodeMsg` takes the sections off one by one. A section
  has at least six bytes, so the four bytes of a checksum are never taken for one;
* `decode_encode_msg_reply` : decoding an encoded `OP_MSG` or `OP_REPLY` returns it;
* `decode_encode_legacy_iff` : of the legacy requests, all but `OP_DELETE` are returned.
-/

namespace MongoBouncer

open GoStd Codec

/-! ## `Encode` -/

def Operation.opCode : Operation → Int32
  | .unknown o => o.opCode
  | .query _ => 2004
  | .msg _ => 2013
  | .reply _ => 1
  | .getMore _ => 2005
  | .update _ => 2001
  | .insert _ => 2002
  | .delete _ => 2006
  | .killCursors _ => 2007

section Encode

variable (w : Appender)

/-- What the encoders share: the header is started with request id 0, the body is appended and the
length is filled in. -/
def encodeWith (opCode responseTo : Int32) (appendBody : Bytes → Bytes) : Bytes :=
  let (idx, buffer) := w.appendHeaderStart [] 0 responseTo opCode
  let buffer := appendBody buffer
  w.updateLength buffer idx (Int32.ofNat (buffer.drop idx.toInt.toNat).length)

def OpQuery.encode (q : OpQuery) (responseTo : Int32) : Bytes :=
  encodeWith w 2004 responseTo fun buffer =>
    let buffer := w.appendQueryFlags buffer q.flags
    let buffer := w.appendQueryFullCollectionName buffer q.fullCollectionName
    let buffer := w.appendQueryNumberToSkip buffer q.numberToSkip
    let buffer := w.appendQueryNumberToReturn buffer q.numberToReturn
    let buffer := buffer ++ q.query
    if q.returnFieldsSelector.length ≠ 0 then buffer ++ q.returnFieldsSelector else buffer

/-- `append` of the two kinds of sections. The length of a sequence is an `int32`. -/
def OpMsgSection.append (buffer : Bytes) : OpMsgSection → Bytes
  | .single msg => w.appendMsgSectionType buffer 0 ++ msg
  | .sequence identifier msgs =>
    let buffer := w.appendMsgSectionType buffer 1
    let length := msgs.foldl (fun length msg => length + Int32.ofNat msg.length)
      (Int32.ofNat (identifier.length + 5))
    let buffer := appendi32 buffer length
    let buffer := appendCString buffer identifier
    msgs.foldl (fun buffer msg => buffer ++ msg) buffer

def OpMsg.encode (m : OpMsg) (responseTo : Int32) : Bytes :=
  encodeWith w 2013 responseTo fun buffer =>
    let buffer := w.appendMsgFlags buffer m.flags
    let buffer := m.sections.foldl (fun buffer s => s.append w buffer) buffer
    if m.flags &&& checksumPresent == checksumPresent then appendi32 buffer m.checksum.toInt32
    else buffer

def OpReply.encode (r : OpReply) (responseTo : Int32) : Bytes :=
  encodeWith w 1 responseTo fun buffer =>
    let buffer := w.appendReplyFlags buffer r.flags
    let buffer := w.appendReplyCursorID buffer r.cursorID
    let buffer := w.appendReplyStartingFrom buffer r.startingFrom
    let buffer := w.appendReplyNumberReturned buffer r.numReturned
    r.documents.foldl (fun buffer doc => buffer ++ doc) buffer

def OpGetMore.encode (g : OpGetMore) (responseTo : Int32) : Bytes :=
  encodeWith w 2005 responseTo fun buffer =>
    let buffer := w.appendGetMoreZero buffer
    let buffer := w.appendGetMoreFullCollectionName buffer g.fullCollectionName
    let buffer := w.appendGetMoreNumberToReturn buffer g.numberToReturn
    w.appendGetMoreCursorID buffer g.cursorID

def OpUpdate.encode (u : OpUpdate) (responseTo : Int32) : Bytes :=
  encodeWith w 2001 responseTo fun buffer =>
    let buffer := appendCString buffer u.fullCollectionName
    let buffer := appendi32 buffer u.flags
    let buffer := buffer ++ u.selector
    buffer ++ u.update

def OpInsert.encode (i : OpInsert) (responseTo : Int32) : Bytes :=
  encodeWith w 2002 responseTo fun buffer =>
    let buffer := appendi32 buffer i.flags
    let buffer := appendCString buffer i.fullCollectionName
    i.documents.foldl (fun buffer doc => buffer ++ doc) buffer

/-- `opDelete.Encode`. The zero that `decodeDelete` reads first is not written. -/
def OpDelete.encode (e : OpDelete) (responseTo : Int32) : Bytes :=
  encodeWith w 2006 responseTo fun buffer =>
    let buffer := appendCString buffer e.fullCollectionName
    let buffer := appendi32 buffer e.flags
    buffer ++ e.selector

def OpKillCursors.encode (k : OpKillCursors) (responseTo : Int32) : Bytes :=
  encodeWith w 2007 responseTo fun buffer =>
    let buffer := w.appendKillCursorsZero buffer
    let buffer := w.appendKillCursorsNumberIDs buffer (Int32.ofNat k.cursorIDs.length)
    w.appendKillCursorsCursorIDs buffer k.cursorIDs

def Operation.encode : Operation → Int32 → Bytes
  | .unknown o, _ => o.wm
  | .query q, responseTo => q.encode w responseTo
  | .msg m, responseTo => m.encode w responseTo
  | .reply r, responseTo => r.encode w responseTo
  | .getMore g, responseTo => g.encode w responseTo
  | .update u, responseTo => u.encode w responseTo
  | .insert i, responseTo => i.encode w responseTo
  | .delete e, responseTo => e.encode w responseTo
  | .killCursors k, responseTo => k.encode w responseTo

end Encode

/-! ## What is encoded -/

/-- The bytes of a section: its type, and for a sequence its length. -/
def OpMsgSection.bytes : OpMsgSection → Bytes
  | .single msg => 0 :: msg
  | .sequence identifier msgs =>
    1 :: (i32 (Int32.ofNat (identifier.length + 5 + msgs.flatten.length)) ++ cString identifier ++
      msgs.flatten)

/-- The checksum, if the flags say that there is one. -/
def OpMsg.checksumBytes (m : OpMsg) : Bytes :=
  if m.flags &&& checksumPresent == checksumPresent then u32 m.checksum else []

/-- What `Encode` writes after the header. -/
def Operation.body : Operation → Bytes
  | .unknown _ => []
  | .query q =>
    i32 q.flags ++ cString q.fullCollectionName ++ i32 q.numberToSkip ++ i32 q.numberToReturn ++
      q.query ++ q.returnFieldsSelector
  | .msg m => u32 m.flags ++ m.sections.flatMap OpMsgSection.bytes ++ m.checksumBytes
  | .reply r =>
    i32 r.flags ++ i64 r.cursorID ++ i32 r.startingFrom ++ i32 r.numReturned ++ r.documents.flatten
  | .getMore g => i32 0 ++ cString g.fullCollectionName ++ i32 g.numberToReturn ++ i64 g.cursorID
  | .update u => cString u.fullCollectionName ++ i32 u.flags ++ u.selector ++ u.update
  | .insert i => i32 i.flags ++ cString i.fullCollectionName ++ i.documents.flatten
  | .delete e => cString e.fullCollectionName ++ i32 e.flags ++ e.selector
  | .killCursors k =>
    i32 0 ++ i32 (Int32.ofNat k.cursorIDs.length) ++ k.cursorIDs.flatMap i64

section EncodeEq

variable {w : Appender} (hw : w.Layout)

include hw in
theorem encodeWith_eq (opCode responseTo : Int32) {appendBody : Bytes → Bytes} {body : Bytes}
    (h : ∀ buffer, appendBody buffer = buffer ++ body) :
    encodeWith w opCode responseTo appendBody = message 0 responseTo opCode body := by
  have hzero : (Int32.ofNat ([] : Bytes).length).toInt = 0 := rfl
  have hlength := hw.updateLength [] (i32 0 ++ i32 responseTo ++ i32 opCode ++ body)
    (Int32.ofNat ([] : Bytes).length) (Int32.ofNat (body.length + 16)) 0 hzero
  have hsize : (Header.bytes { length := 0, requestID := 0, responseTo, opCode } ++ body).length =
      body.length + 16 := by
    rw [List.length_append, length_headerBytes]
    omega
  simp only [encodeWith, hw.headerStart, List.nil_append, h, hzero, Int.toNat_zero,
    List.drop_zero, hsize]
  simp only [List.nil_append, List.append_assoc] at hlength
  simpa only [message, Header.bytes, List.append_assoc] using hlength

theorem foldl_append_eq {α : Type} (f : Bytes → α → Bytes) (e : α → Bytes)
    (h : ∀ buffer a, f buffer a = buffer ++ e a) (as : List α) (buffer : Bytes) :
    as.foldl f buffer = buffer ++ as.flatMap e := by
  induction as generalizing buffer with
  | nil => simp only [List.foldl_nil, List.flatMap_nil, List.append_nil]
  | cons a as ih =>
    rw [List.foldl_cons, ih, h, List.flatMap_cons, List.append_assoc]

theorem foldl_append_documents (docs : List Document) (buffer : Bytes) :
    docs.foldl (fun buffer doc => buffer ++ doc) buffer = buffer ++ docs.flatten := by
  have h := foldl_append_eq (fun buffer doc => buffer ++ doc) id (fun _ _ => rfl) docs buffer
  rwa [List.flatMap_id] at h

theorem foldl_length_documents (docs : List Document) (n : Nat) :
    docs.foldl (fun length msg => length + Int32.ofNat msg.length) (Int32.ofNat n) =
      Int32.ofNat (n + docs.flatten.length) := by
  induction docs generalizing n with
  | nil => rfl
  | cons doc docs ih =>
    rw [List.foldl_cons, ← Int32.ofNat_add, ih, List.flatten_cons, List.length_append,
      Nat.add_assoc]

include hw in
theorem append_section (s : OpMsgSection) (buffer : Bytes) :
    s.append w buffer = buffer ++ s.bytes := by
  cases s with
  | single msg => simp only [OpMsgSection.append, OpMsgSection.bytes, hw.msgSectionType _ _,
      List.append_assoc, List.cons_append, List.nil_append]
  | sequence identifier msgs =>
    simp only [OpMsgSection.append, OpMsgSection.bytes, hw.msgSectionType _ _,
      foldl_append_documents, foldl_length_documents, appendi32_eq, appendCString_eq,
      List.append_assoc, List.cons_append, List.nil_append]

theorem i32_toInt32 (n : UInt32) : i32 n.toInt32 = u32 n := rfl

include hw in
/-- **An encoded operation is a header and the operation's body.** -/
theorem encode_eq (op : Operation) (responseTo : Int32) (hop : ∀ o, op ≠ .unknown o) :
    op.encode w responseTo = message 0 responseTo op.opCode op.body := by
  cases op with
  | unknown o => exact absurd rfl (hop o)
  | query q =>
    rw [Operation.encode, OpQuery.encode]
    apply encodeWith_eq hw
    intro buffer
    simp only [hw.queryFlags _ _, hw.queryFullCollectionName _ _, hw.queryNumberToSkip _ _,
      hw.queryNumberToReturn _ _, Operation.body, List.append_assoc]
    split
    · rfl
    · rename_i hnil
      rw [List.length_eq_zero_iff.mp (not_not.mp hnil), List.append_nil]
  | msg m =>
    rw [Operation.encode, OpMsg.encode]
    apply encodeWith_eq hw
    intro buffer
    simp only [hw.msgFlags _ _, foldl_append_eq _ _ (fun b s => append_section hw s b),
      appendi32_eq, i32_toInt32, Operation.body, OpMsg.checksumBytes, List.append_assoc]
    split
    · rfl
    · rw [List.append_nil]
  | reply r =>
    rw [Operation.encode, OpReply.encode]
    apply encodeWith_eq hw
    intro buffer
    simp only [hw.replyFlags _ _, hw.replyCursorID _ _, hw.replyStartingFrom _ _,
      hw.replyNumberReturned _ _, foldl_append_documents, Operation.body, List.append_assoc]
  | getMore g =>
    rw [Operation.encode, OpGetMore.encode]
    apply encodeWith_eq hw
    intro buffer
    simp only [hw.getMoreZero, hw.getMoreFullCollectionName _ _, hw.getMoreNumberToReturn _ _,
      hw.getMoreCursorID _ _, Operation.body, List.append_assoc]
  | update u =>
    rw [Operation.encode, OpUpdate.encode]
    apply encodeWith_eq hw
    intro buffer
    simp only [appendCString_eq, appendi32_eq, Operation.body, List.append_assoc]
  | insert i =>
    rw [Operation.encode, OpInsert.encode]
    apply encodeWith_eq hw
    intro buffer
    simp only [appendCString_eq, appendi32_eq, foldl_append_documents, Operation.body,
      List.append_assoc]
  | delete e =>
    rw [Operation.encode, OpDelete.encode]
    apply encodeWith_eq hw
    intro buffer
    simp only [appendCString_eq, appendi32_eq, Operation.body, List.append_assoc]
  | killCursors k =>
    rw [Operation.encode, OpKillCursors.encode]
    apply encodeWith_eq hw
    intro buffer
    simp only [hw.killCursorsZero, hw.killCursorsNumberIDs _ _, hw.killCursorsCursorIDs _ _,
      Operation.body, List.append_assoc]

end EncodeEq

/-! ## `Decode` of a message -/

/-- The same operation with another request id. -/
def Operation.withRequestID (reqID : Int32) : Operation → Operation
  | .unknown o => .unknown { o with reqID }
  | .query q => .query { q with reqID }
  | .msg m => .msg { m with reqID }
  | .reply r => .reply { r with reqID }
  | .getMore g => .getMore { g with reqID }
  | .update u => .update { u with reqID }
  | .insert i => .insert { i with reqID }
  | .delete e => .delete { e with reqID }
  | .killCursors k => .killCursors { k with reqID }

/-- A section whose documents are documents and whose identifier has no NUL. -/
def OpMsgSection.WellFormed : OpMsgSection → Prop
  | .single msg => IsDocument msg
  | .sequence identifier msgs => 0 ∉ identifier ∧ AreDocuments msgs

/-- An operation that can be written down: names have no NUL, documents start with their length,
and there is a checksum only where the flags announce one. -/
def Operation.WellFormed : Operation → Prop
  | .unknown _ => True
  | .query q =>
    0 ∉ q.fullCollectionName ∧ IsDocument q.query ∧
      (q.returnFieldsSelector = [] ∨ IsDocument q.returnFieldsSelector)
  | .msg m =>
    (∀ s ∈ m.sections, s.WellFormed) ∧
      (m.flags &&& checksumPresent ≠ checksumPresent → m.checksum = 0)
  | .reply r => AreDocuments r.documents
  | .getMore g => 0 ∉ g.fullCollectionName
  | .update u => 0 ∉ u.fullCollectionName ∧ IsDocument u.selector ∧ IsDocument u.update
  | .insert i => 0 ∉ i.fullCollectionName ∧ AreDocuments i.documents
  | .delete e => 0 ∉ e.fullCollectionName ∧ IsDocument e.selector
  | .killCursors _ => True

instance : DecidablePred OpMsgSection.WellFormed
  | .single msg => inferInstanceAs (Decidable (IsDocument msg))
  | .sequence identifier msgs => inferInstanceAs (Decidable (0 ∉ identifier ∧ AreDocuments msgs))

section Decode

variable {d : Driver}

/-- The case of the switch of `Decode` for operations of the same kind. -/
def Operation.decodeLike (d : Driver) (reqID : Int32) (wmBody : Bytes) :
    Operation → Except DecodeError Operation
  | .unknown o => .ok (.unknown { o with reqID })
  | .query _ => (decodeQuery d reqID wmBody).map .query
  | .msg _ => (decodeMsg d reqID wmBody).map .msg
  | .reply _ => (decodeReply d reqID wmBody).map .reply
  | .getMore _ => (decodeGetMore d reqID wmBody).map .getMore
  | .update _ => (decodeUpdate d reqID wmBody).map .update
  | .insert _ => (decodeInsert d reqID wmBody).map .insert
  | .delete _ => (decodeDelete d reqID wmBody).map .delete
  | .killCursors _ => (decodeKillCursors d reqID wmBody).map .killCursors

@[simp] theorem orError_some {α : Type} (a : α) (text : String) :
    orError (some a) text = .ok a := rfl

variable (hd : d.Layout)

include hd in
theorem decode_message (op : Operation) (hop : ∀ o, op ≠ .unknown o) (requestID responseTo : Int32)
    {body : Bytes} (hlen : body.length + 16 < 2 ^ 31) :
    decode d (message requestID responseTo op.opCode body) = op.decodeLike d requestID body := by
  have hheader := hd.header
    { length := Int32.ofNat (body.length + 16), requestID, responseTo, opCode := op.opCode }
    body trivial
  have hsize : ¬ (Int32.ofNat (body.length + 16)).toInt >
      (message requestID responseTo op.opCode body).length := by
    rw [Int32.toInt_ofNat_of_lt hlen, length_message]
    omega
  unfold decode
  rw [show d.readHeader (message requestID responseTo op.opCode body) = _ from hheader]
  simp only [orError_some, bind, Except.bind, if_neg hsize]
  cases op with
  | unknown o => exact absurd rfl (hop o)
  | _ => rfl

include hd in
theorem decodeQuery_body (q : OpQuery) (reqID : Int32) (h : (Operation.query q).WellFormed) :
    decodeQuery d reqID (Operation.query q).body = .ok { q with reqID } := by
  obtain ⟨hname, hquery, hselector⟩ := h
  have hread := hd.queryQuery q.query q.returnFieldsSelector hquery
  simp only [id_eq] at hread
  simp only [decodeQuery, Operation.body, List.append_assoc, hd.queryFlags _ _ trivial,
    hd.queryFullCollectionName _ _ hname, hd.queryNumberToSkip _ _ trivial,
    hd.queryNumberToReturn _ _ trivial, hread, orError_some, bind, Except.bind, pure, Except.pure]
  rcases hselector with hnil | hdoc
  · rw [hnil]
    rfl
  · have hpos : q.returnFieldsSelector.length > 0 := by
      have := hdoc.five_le
      omega
    have hsel := hd.queryReturnFieldsSelector q.returnFieldsSelector [] hdoc
    simp only [id_eq, List.append_nil] at hsel
    simp only [if_pos hpos, hsel, orError_some]

include hd in
theorem decodeReply_body (r : OpReply) (reqID : Int32) (h : AreDocuments r.documents) :
    decodeReply d reqID (Operation.reply r).body = .ok { r with reqID } := by
  have hdocs := hd.replyDocuments _ _ (hd.documents h)
  simp only [decodeReply, Operation.body, List.append_assoc, hd.replyFlags _ _ trivial,
    hd.replyCursorID _ _ trivial, hd.replyStartingFrom _ _ trivial,
    hd.replyNumberReturned _ _ trivial, hdocs, orError_some, bind, Except.bind, pure, Except.pure]

include hd in
theorem decodeGetMore_body (g : OpGetMore) (reqID : Int32) (h : 0 ∉ g.fullCollectionName) :
    decodeGetMore d reqID (Operation.getMore g).body = .ok { g with reqID } := by
  have hid := hd.replyCursorID g.cursorID [] trivial
  rw [List.append_nil] at hid
  simp only [decodeGetMore, Operation.body, List.append_assoc, hd.killCursorsZero _ _ trivial,
    hd.queryFullCollectionName _ _ h, hd.queryNumberToReturn _ _ trivial, hid, orError_some, bind,
    Except.bind, pure, Except.pure]

include hd in
theorem readDocument_last {doc : Document} (h : IsDocument doc) :
    d.readDocument doc = some (doc, []) := by
  have hread := hd.document doc [] h
  rwa [id_eq, List.append_nil] at hread

include hd in
theorem decodeUpdate_body (u : OpUpdate) (reqID : Int32) (h : (Operation.update u).WellFormed) :
    decodeUpdate d reqID (Operation.update u).body = .ok { u with reqID } := by
  obtain ⟨hname, hselector, hupdate⟩ := h
  have hsel := hd.document u.selector u.update hselector
  rw [id_eq] at hsel
  simp only [decodeUpdate, Operation.body, List.append_assoc, reads_readCString _ _ hname,
    reads_readi32 _ _ trivial, hsel, readDocument_last hd hupdate, orError_some, bind, Except.bind,
    pure, Except.pure]

include hd in
theorem decodeInsert_body (i : OpInsert) (reqID : Int32) (h : (Operation.insert i).WellFormed) :
    decodeInsert d reqID (Operation.insert i).body = .ok { i with reqID } := by
  have hdocs := hd.replyDocuments _ _ (hd.documents h.2)
  simp only [decodeInsert, Operation.body, List.append_assoc, reads_readi32 _ _ trivial,
    reads_readCString _ _ h.1, hdocs, orError_some, bind, Except.bind, pure, Except.pure]

theorem length_cursorIDs_le (ids : List Int64) : ids.length ≤ (ids.flatMap i64).length := by
  induction ids with
  | nil => exact Nat.le_refl 0
  | cons id ids ih =>
    simp only [List.flatMap_cons, List.length_cons, List.length_append, length_i64]
    omega

include hd in
theorem decodeKillCursors_body (k : OpKillCursors) (reqID : Int32)
    (h : k.cursorIDs.length < 2 ^ 31) :
    decodeKillCursors d reqID (Operation.killCursors k).body = .ok { k with reqID } := by
  have hids := hd.killCursorsCursorIDs _ k.cursorIDs [] (Int32.toInt_ofNat_of_lt h)
  rw [List.append_nil] at hids
  simp only [decodeKillCursors, Operation.body, List.append_assoc, hd.killCursorsZero _ _ trivial,
    hd.killCursorsNumberIDs _ _ trivial, hids, orError_some, bind, Except.bind, pure, Except.pure]

/-! ## The sections of an `OP_MSG` -/

theorem six_le_length_bytes {s : OpMsgSection} (h : s.WellFormed) : 6 ≤ s.bytes.length := by
  cases s with
  | single msg =>
    have hfive := h.five_le
    simp only [OpMsgSection.bytes, List.length_cons]
    omega
  | sequence identifier msgs =>
    simp only [OpMsgSection.bytes, cString, List.length_cons, List.length_append, length_i32]
    omega

include hd in
theorem decodeSections_section (hasChecksum : Bool) (fuel : Nat) (s : OpMsgSection) (rest : Bytes)
    (sections : List OpMsgSection) (checksum : UInt32) (hs : s.WellFormed)
    (hlen : s.bytes.length < 2 ^ 31) :
    decodeSections d hasChecksum (fuel + 1) (s.bytes ++ rest) sections checksum =
      decodeSections d hasChecksum fuel rest (sections ++ [s]) checksum := by
  have hsix := six_le_length_bytes hs
  -- with six bytes or more it is not the checksum that comes next
  have hnot : ¬ ((hasChecksum && (s.bytes ++ rest).length == 4) = true) := by
    rw [List.length_append, Bool.and_eq_true, beq_iff_eq]
    omega
  cases s with
  | single msg =>
    have htype := hd.msgSectionType 0 (msg ++ rest) trivial
    have hmsg := hd.msgSectionSingleDocument msg rest hs
    simp only [List.cons_append, List.nil_append, id_eq] at htype hmsg
    simp only [OpMsgSection.bytes, List.cons_append] at hnot ⊢
    simp only [decodeSections, if_neg hnot, htype, hmsg, orError_some, bind, Except.bind, if_true]
  | sequence identifier msgs =>
    obtain ⟨hid, hdocs⟩ := hs
    have htotal : (Int32.ofNat (identifier.length + 5 + msgs.flatten.length)).toInt =
        (i32 (Int32.ofNat (identifier.length + 5 + msgs.flatten.length)) ++ cString identifier ++
          msgs.flatten).length := by
      simp only [OpMsgSection.bytes, cString, List.length_cons, List.length_append, length_i32,
        List.length_nil] at hlen ⊢
      rw [Int32.toInt_ofNat_of_lt (by omega)]
      omega
    have hseq := hd.msgSectionDocumentSequence _ identifier msgs.flatten msgs rest hid
      (hd.documents hdocs) htotal
    have htype := hd.msgSectionType 1 (i32 (Int32.ofNat (identifier.length + 5 +
      msgs.flatten.length)) ++ cString identifier ++ msgs.flatten ++ rest) trivial
    simp only [List.cons_append, List.nil_append] at htype
    simp only [OpMsgSection.bytes, List.cons_append] at hnot ⊢
    have hone : ¬ (1 : UInt8) = 0 := by decide
    simp only [decodeSections, if_neg hnot, htype, hseq, orError_some, bind, Except.bind,
      if_neg hone, if_true]

include hd in
/-- **The loop of `decodeMsg` takes the sections off one by one.** -/
theorem decodeSections_append (hasChecksum : Bool) (fuel : Nat) (rest : Bytes) (checksum : UInt32) :
    ∀ (todo done : List OpMsgSection), (∀ s ∈ todo, s.WellFormed) →
      (∀ s ∈ todo, s.bytes.length < 2 ^ 31) →
      decodeSections d hasChecksum (todo.length + fuel) (todo.flatMap OpMsgSection.bytes ++ rest)
        done checksum = decodeSections d hasChecksum fuel rest (done ++ todo) checksum := by
  intro todo
  induction todo with
  | nil =>
    intro done _ _
    rw [List.append_nil, List.length_nil, Nat.zero_add]
    rfl
  | cons s todo ih =>
    intro done hwf hlen
    have hfuel : (s :: todo).length + fuel = todo.length + fuel + 1 := by
      rw [List.length_cons]
      omega
    rw [hfuel, List.flatMap_cons, List.append_assoc,
      decodeSections_section hd _ _ _ _ _ _ (hwf s List.mem_cons_self) (hlen s List.mem_cons_self),
      ih (done ++ [s]) (fun t ht => hwf t (List.mem_cons_of_mem s ht))
        (fun t ht => hlen t (List.mem_cons_of_mem s ht)), List.append_assoc]
    rfl

theorem length_bytes_le {sections : List OpMsgSection} {s : OpMsgSection} (h : s ∈ sections) :
    s.bytes.length ≤ (sections.flatMap OpMsgSection.bytes).length := by
  obtain ⟨before, after, rfl⟩ := List.append_of_mem h
  simp only [List.flatMap_append, List.flatMap_cons, List.length_append]
  omega

theorem length_le_length_flatMap {sections : List OpMsgSection} (h : ∀ s ∈ sections, s.WellFormed) :
    sections.length ≤ (sections.flatMap OpMsgSection.bytes).length := by
  induction sections with
  | nil => exact Nat.le_refl 0
  | cons s sections ih =>
    have hsix := six_le_length_bytes (h s List.mem_cons_self)
    have hrest := ih fun t ht => h t (List.mem_cons_of_mem s ht)
    simp only [List.flatMap_cons, List.length_cons, List.length_append]
    omega

include hd in
theorem decodeSections_checksum (fuel : Nat) (sections : List OpMsgSection) (checksum : UInt32) :
    decodeSections d true (fuel + 1) (u32 checksum) sections 0 = .ok (sections, checksum) := by
  have hread := hd.msgChecksum checksum [] trivial
  have hfour := length_u32 checksum
  obtain ⟨b, bs, hbytes⟩ : ∃ b bs, u32 checksum = b :: bs := ⟨_, _, rfl⟩
  rw [List.append_nil, hbytes] at hread
  rw [hbytes] at hfour ⊢
  have hcond : (true && (b :: bs).length == 4) = true := by
    rw [hfour]
    rfl
  simp only [decodeSections, if_pos hcond, hread, orError_some, bind, Except.bind]

include hd in
theorem decodeMsg_body (m : OpMsg) (reqID : Int32) (h : (Operation.msg m).WellFormed)
    (hlen : (Operation.msg m).body.length < 2 ^ 31) :
    decodeMsg d reqID (Operation.msg m).body = .ok { m with reqID } := by
  obtain ⟨hwf, hzero⟩ := h
  have hbody : (Operation.msg m).body =
      u32 m.flags ++ (m.sections.flatMap OpMsgSection.bytes ++ m.checksumBytes) := by
    simp only [Operation.body, List.append_assoc]
  rw [hbody] at hlen ⊢
  simp only [List.length_append, length_u32] at hlen
  have hshort : ∀ s ∈ m.sections, s.bytes.length < 2 ^ 31 := by
    intro s hs
    have := length_bytes_le hs
    omega
  -- there is a turn of the loop for each section, and some are left
  obtain ⟨fuel, hfuel⟩ : ∃ fuel, (m.sections.flatMap OpMsgSection.bytes ++ m.checksumBytes).length =
      m.sections.length + (fuel + m.checksumBytes.length) := by
    have := length_le_length_flatMap hwf
    rw [List.length_append]
    exact ⟨(m.sections.flatMap OpMsgSection.bytes).length - m.sections.length, by omega⟩
  have hloop := decodeSections_append hd (m.flags &&& checksumPresent == checksumPresent)
    (fuel + m.checksumBytes.length) m.checksumBytes 0 m.sections [] hwf hshort
  simp only [decodeMsg, hd.msgFlags _ _ trivial, orError_some, bind, Except.bind, hfuel, hloop,
    List.nil_append, pure, Except.pure]
  by_cases hflag : m.flags &&& checksumPresent = checksumPresent
  · have hbeq : (m.flags &&& checksumPresent == checksumPresent) = true := beq_iff_eq.mpr hflag
    have hsum : m.checksumBytes = u32 m.checksum := if_pos hbeq
    rw [hbeq, hsum, length_u32, decodeSections_checksum hd (fuel + 3)]
  · have hbeq : ¬ (m.flags &&& checksumPresent == checksumPresent) = true := by
      rwa [beq_iff_eq]
    have hnone : m.checksumBytes = [] := if_neg hbeq
    have hdone : ∀ f, decodeSections d (m.flags &&& checksumPresent == checksumPresent) f []
        m.sections 0 = .ok (m.sections, 0) := by
      intro f
      cases f <;> rfl
    rw [hnone, hdone, ← hzero hflag]

include hd in
/-- Every decoder but that of `OP_DELETE` undoes the encoder of its kind. -/
theorem decodeLike_body (op : Operation) (hop : ∀ e, op ≠ .delete e) (hwf : op.WellFormed)
    (hlen : op.body.length < 2 ^ 31) (reqID : Int32) :
    op.decodeLike d reqID op.body = .ok (op.withRequestID reqID) := by
  cases op with
  | unknown o => rfl
  | query q =>
    rw [Operation.decodeLike, decodeQuery_body hd q reqID hwf]
    rfl
  | msg m =>
    rw [Operation.decodeLike, decodeMsg_body hd m reqID hwf hlen]
    rfl
  | reply r =>
    rw [Operation.decodeLike, decodeReply_body hd r reqID hwf]
    rfl
  | getMore g =>
    rw [Operation.decodeLike, decodeGetMore_body hd g reqID hwf]
    rfl
  | update u =>
    rw [Operation.decodeLike, decodeUpdate_body hd u reqID hwf]
    rfl
  | insert i =>
    rw [Operation.decodeLike, decodeInsert_body hd i reqID hwf]
    rfl
  | delete e => exact absurd rfl (hop e)
  | killCursors k =>
    have hids : k.cursorIDs.length < 2 ^ 31 := by
      have hle := length_cursorIDs_le k.cursorIDs
      simp only [Operation.body, List.length_append, length_i32] at hlen
      omega
    rw [Operation.decodeLike, decodeKillCursors_body hd k reqID hids]
    rfl

theorem orError_bind_eq_ok {α β : Type} {r : Option α} {text : String}
    {f : α → Except DecodeError β} {b : β} (h : (orError r text >>= f) = .ok b) :
    ∃ a, r = some a ∧ f a = .ok b := by
  cases r with
  | none => cases h
  | some a => exact ⟨a, rfl, h⟩

theorem length_of_readi32 {src rest : Bytes} {i : Int32} (h : readi32 src = some (i, rest)) :
    src.length = rest.length + 4 := by
  unfold readi32 at h
  split at h
  · rw [Option.some.injEq, Prod.mk.injEq] at h
    rw [← h.2]
    rfl
  · cases h

theorem length_of_readCString {src rest : Bytes} {s : GoString}
    (h : readCString src = some (s, rest)) : src.length = s.length + rest.length + 1 := by
  rw [(cutByte_eq_some.mp h).1, List.length_append, List.length_cons]
  omega

include hd in
/-- Whatever `decodeDelete` returns, its bytes and four more before them were in the message. -/
theorem length_of_decodeDelete {reqID : Int32} {wm : Bytes} {e : OpDelete}
    (h : decodeDelete d reqID wm = .ok e) :
    e.fullCollectionName.length + e.selector.length + 9 ≤ wm.length := by
  obtain ⟨zero, hzero, h⟩ := orError_bind_eq_ok h
  obtain ⟨name, hname, h⟩ := orError_bind_eq_ok h
  obtain ⟨flags, hflags, h⟩ := orError_bind_eq_ok h
  obtain ⟨selector, hselector, h⟩ := orError_bind_eq_ok h
  cases h
  have h1 := length_of_readi32 hzero
  have h2 := length_of_readCString hname
  have h3 := length_of_readi32 hflags
  have h4 := congrArg List.length (hd.document_splits _ _ _ hselector)
  rw [List.length_append] at h4
  show name.1.length + selector.1.length + 9 ≤ wm.length
  omega

include hd in
/-- `OP_DELETE` is written without the zero that is read: what comes back is never what was
written, since it would have to be four bytes longer. -/
theorem decodeDelete_body_ne (e : OpDelete) (reqID : Int32) :
    decodeDelete d reqID (Operation.delete e).body ≠ .ok { e with reqID } := by
  intro h
  have hlen := length_of_decodeDelete hd h
  simp only [Operation.body, cString, List.length_append, List.length_cons, List.length_nil,
    length_i32] at hlen
  omega

theorem map_eq_ok_iff {α β : Type} {r : Except DecodeError α} {f : α → β} {a : α}
    (hf : Function.Injective f) : r.map f = .ok (f a) ↔ r = .ok a := by
  cases r with
  | error err => exact iff_of_false nofun nofun
  | ok b =>
    show (Except.ok (f b) : Except DecodeError β) = .ok (f a) ↔ _
    rw [Except.ok.injEq, Except.ok.injEq, hf.eq_iff]

/-! ## `Decode` after `Encode` -/

/-- The requests of the protocol before `OP_MSG`. -/
def Operation.isLegacy : Operation → Bool
  | .query _ | .getMore _ | .update _ | .insert _ | .delete _ | .killCursors _ => true
  | .unknown _ | .msg _ | .reply _ => false

theorem Operation.ne_unknown_of_isLegacy {op : Operation} (h : op.isLegacy = true) (o : OpUnknown) :
    op ≠ .unknown o := by
  rintro rfl
  cases h

variable {w : Appender} (hw : w.Layout)

include hd hw in
theorem decode_encode (op : Operation) (hop : ∀ o, op ≠ .unknown o) (responseTo : Int32)
    (hlen : (op.encode w responseTo).length < 2 ^ 31) :
    op.body.length < 2 ^ 31 ∧ decode d (op.encode w responseTo) = op.decodeLike d 0 op.body := by
  rw [encode_eq hw op responseTo hop] at hlen ⊢
  rw [length_message] at hlen
  exact ⟨by omega, decode_message hd op hop 0 responseTo hlen⟩

include hd hw in
/-- **`Decode` undoes `Encode` for the two formats the proxy emits.** An `OP_MSG` and an `OP_REPLY`
come back as they were, with request id 0. -/
theorem decode_encode_msg_reply (responseTo : Int32) :
    (∀ m : OpMsg, (Operation.msg m).WellFormed → (m.encode w responseTo).length < 2 ^ 31 →
      decode d (m.encode w responseTo) = .ok (.msg { m with reqID := 0 })) ∧
    (∀ r : OpReply, (Operation.reply r).WellFormed → (r.encode w responseTo).length < 2 ^ 31 →
      decode d (r.encode w responseTo) = .ok (.reply { r with reqID := 0 })) := by
  constructor
  · intro m hwf hlen
    obtain ⟨hbody, hdecode⟩ := decode_encode hd hw (.msg m) (by simp) responseTo hlen
    exact hdecode.trans (decodeLike_body hd (.msg m) (by simp) hwf hbody 0)
  · intro r hwf hlen
    obtain ⟨hbody, hdecode⟩ := decode_encode hd hw (.reply r) (by simp) responseTo hlen
    exact hdecode.trans (decodeLike_body hd (.reply r) (by simp) hwf hbody 0)

include hd hw in
/-- **`Decode` undoes `Encode` for the legacy requests, except for `OP_DELETE`,** which it never
returns as it was. -/
theorem decode_encode_legacy_iff (op : Operation) (hop : op.isLegacy = true) (hwf : op.WellFormed)
    (responseTo : Int32) (hlen : (op.encode w responseTo).length < 2 ^ 31) :
    decode d (op.encode w responseTo) = .ok (op.withRequestID 0) ↔ ∀ e, op ≠ .delete e := by
  obtain ⟨hbody, hdecode⟩ :=
    decode_encode hd hw op (Operation.ne_unknown_of_isLegacy hop) responseTo hlen
  rw [hdecode]
  constructor
  · rintro h e rfl
    exact decodeDelete_body_ne hd e 0 ((map_eq_ok_iff fun _ _ => Operation.delete.inj).mp h)
  · intro h
    exact decodeLike_body hd op h hwf hbody 0

end Decode

/-! ## Messages -/

namespace Sample

/-- `{update: "users", $db: "shop"}` with its updates in a sequence, and a checksum. -/
def updateMsg : OpMsg where
  reqID := 4
  flags := checksumPresent
  sections :=
    [.single (Bson.document [("update", .string (lit "users")), ("$db", .string (lit "shop"))]),
     .sequence (lit "updates") [Bson.document [("q", .boolean true)], Bson.document []]]
  checksum := 0xCAFE0001

/-- A reply of two documents. -/
def twoReplies : OpReply where
  reqID := 4
  flags := 8
  cursorID := -1
  startingFrom := 0
  numReturned := 2
  documents := [Bson.document [("ok", .int32 1)], Bson.document []]

def findQuery : OpQuery where
  reqID := 4
  flags := 0
  fullCollectionName := lit "shop.users"
  numberToSkip := 0
  numberToReturn := -1
  query := Bson.document [("name", .string (lit "ann"))]
  returnFieldsSelector := Bson.document [("name", .int32 1)]

def deleteUsers : OpDelete where
  reqID := 4
  fullCollectionName := lit "shop.users"
  flags := 0
  selector := Bson.document []

end Sample

open Sample

theorem decode_encode_msg_reply_samples :
    decode plainDriver (updateMsg.encode plainAppender 7) = .ok (.msg { updateMsg with reqID := 0 }) ∧
    decode plainDriver (twoReplies.encode plainAppender 7) =
      .ok (.reply { twoReplies with reqID := 0 }) := by
  have h := decode_encode_msg_reply layout_plainDriver layout_plainAppender 7
  refine ⟨h.1 updateMsg ⟨?_, ?_⟩ ?_, h.2 twoReplies ?_ ?_⟩
  · decide +kernel
  · decide +kernel
  · decide +kernel
  · show AreDocuments twoReplies.documents
    decide +kernel
  · decide +kernel

theorem decode_encode_legacy_iff_findQuery :
    decode plainDriver ((Operation.query findQuery).encode plainAppender 7) =
        .ok (.query { findQuery with reqID := 0 }) ↔
      ∀ e, Operation.query findQuery ≠ .delete e := by
  refine decode_encode_legacy_iff layout_plainDriver layout_plainAppender (.query findQuery) rfl
    ⟨?_, ?_, Or.inr ?_⟩ 7 ?_
  · decide +kernel
  · decide +kernel
  · decide +kernel
  · decide +kernel

/-- The four bytes `shop` are taken for the zero: the deletion comes back for the collection
`.users`, of no database. -/
theorem deleteUsers_decoded_without_database :
    (Operation.delete deleteUsers).WellFormed ∧
    ((Operation.delete deleteUsers).encode plainAppender 7).length < 2 ^ 31 ∧
    decode plainDriver ((Operation.delete deleteUsers).encode plainAppender 7) =
      .ok (.delete { deleteUsers with reqID := 0, fullCollectionName := lit ".users" }) := by
  refine ⟨⟨?_, ?_⟩, ?_, ?_⟩
  · decide +kernel
  · decide +kernel
  · decide +kernel
  · decide +kernel

end MongoBouncer
