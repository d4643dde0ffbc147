import MongoBouncer.Wire.Encode

/-!
# `Decode` against the wire protocol

The layout of the legacy requests as the reference of the MongoDB wire protocol gives it. It is
written down here independently of `Encode`: `OP_GET_MORE`, `OP_UPDATE` and `OP_DELETE` start with
an `int32` zero, `OP_KILL_CURSORS` with a zero and the number of cursor ids.

* `wireBody_eq_body`         : where the protocol agrees with what `Encode` writes;
* `decodeUpdate_wireBody_ne` : `decodeUpdate` takes the leading zero for the collection name;
* `decode_wireMessage_iff`   : `Decode` reads the protocol for all of these requests except
  `OP_UPDATE`, which it never reads right.
-/

namespace MongoBouncer

open GoStd Codec

/-- The body of a legacy request in the wire protocol. -/
def Operation.wireBody : Operation → Bytes
  | .query q =>
    i32 q.flags ++ cString q.fullCollectionName ++ i32 q.numberToSkip ++ i32 q.numberToReturn ++
      q.query ++ q.returnFieldsSelector
  | .getMore g => i32 0 ++ cString g.fullCollectionName ++ i32 g.numberToReturn ++ i64 g.cursorID
  | .update u => i32 0 ++ cString u.fullCollectionName ++ i32 u.flags ++ u.selector ++ u.update
  | .insert i => i32 i.flags ++ cString i.fullCollectionName ++ i.documents.flatten
  | .delete e => i32 0 ++ cString e.fullCollectionName ++ i32 e.flags ++ e.selector
  | .killCursors k =>
    i32 0 ++ i32 (Int32.ofNat k.cursorIDs.length) ++ k.cursorIDs.flatMap i64
  | .unknown _ | .msg _ | .reply _ => []

/-- A legacy request as the protocol lays it out, with its header. -/
def Operation.wireMessage (op : Operation) (responseTo : Int32) : Bytes :=
  message op.requestID responseTo op.opCode op.wireBody

/-- The collection a legacy request names. -/
def Operation.fullCollectionName : Operation → Option GoString
  | .query q => some q.fullCollectionName
  | .getMore g => some g.fullCollectionName
  | .update u => some u.fullCollectionName
  | .insert i => some i.fullCollectionName
  | .delete e => some e.fullCollectionName
  | .unknown _ | .msg _ | .reply _ | .killCursors _ => none

/-- `Encode` follows the protocol except for `OP_UPDATE` and `OP_DELETE`. -/
theorem wireBody_eq_body {op : Operation} (hop : op.isLegacy = true) (hu : ∀ u, op ≠ .update u)
    (he : ∀ e, op ≠ .delete e) : op.wireBody = op.body := by
  cases op with
  | update u => exact absurd rfl (hu u)
  | delete e => exact absurd rfl (he e)
  | unknown _ | msg _ | reply _ => cases hop
  | query _ | getMore _ | insert _ | killCursors _ => rfl

theorem withRequestID_self (op : Operation) : op.withRequestID op.requestID = op := by
  cases op <;> rfl

/-- The database of a legacy request is the part of its collection before the first dot, in lower
case. -/
theorem databaseName_of_fullCollectionName (d : Driver) {op : Operation} {db coll : GoString}
    (h : op.fullCollectionName = some (db ++ 0x2E :: coll)) (hdot : 0x2E ∉ db) :
    op.databaseName d = toLower db := by
  have hparse : (parseCollectionName (db ++ 0x2E :: coll)).database = toLower db := by
    unfold parseCollectionName
    rw [cutByte_eq_some.mpr ⟨rfl, hdot⟩]
    rfl
  cases op with
  | unknown _ | msg _ | reply _ | killCursors _ => cases h
  | query _ | getMore _ | update _ | insert _ | delete _ =>
    rw [Operation.fullCollectionName, Option.some.injEq] at h
    rw [Operation.databaseName, h, hparse]

section Decode

variable {d : Driver} (hd : d.Layout)

include hd in
theorem decodeDelete_wireBody (e : OpDelete) (reqID : Int32) (h : (Operation.delete e).WellFormed) :
    decodeDelete d reqID (Operation.delete e).wireBody = .ok { e with reqID } := by
  simp only [decodeDelete, Operation.wireBody, List.append_assoc, reads_readi32 _ _ trivial,
    reads_readCString _ _ h.1, readDocument_last hd h.2, orError_some, bind, Except.bind, pure,
    Except.pure]

theorem IsDocument.not_zero {doc : Document} (h : IsDocument doc) : ¬ i32 0 <+: doc := by
  rintro ⟨rest, hzero⟩
  obtain ⟨n, hn, tail, htail⟩ := h.starts
  have hread : some (n, tail) = some ((0 : Int32), rest) := by
    rw [← reads_readi32 n tail trivial, htail, ← hzero, reads_readi32 0 rest trivial]
  rw [Option.some.injEq, Prod.mk.injEq] at hread
  have hlen : (0 : Int) = doc.length := by
    rw [← hn, hread.1]
    rfl
  have := h.five_le
  omega

include hd in
/-- `decodeUpdate` takes the leading zero for an empty collection name. Were that the name, the
flags would be the zero after it and the selector would start with the flags. -/
theorem decodeUpdate_wireBody_ne (u : OpUpdate) (reqID : Int32)
    (h : (Operation.update u).WellFormed) :
    decodeUpdate d reqID (Operation.update u).wireBody ≠ .ok { u with reqID } := by
  intro hu
  unfold decodeUpdate at hu
  obtain ⟨name, hname, hu⟩ := orError_bind_eq_ok hu
  obtain ⟨flags, hflags, hu⟩ := orError_bind_eq_ok hu
  obtain ⟨selector, hselector, hu⟩ := orError_bind_eq_ok hu
  obtain ⟨_, -, hu⟩ := orError_bind_eq_ok hu
  have hfields := Except.ok.inj hu
  rw [OpUpdate.mk.injEq] at hfields
  obtain ⟨-, hnameEq, hflagsEq, hselectorEq, -⟩ := hfields
  -- the first of the four zeros ends the name
  have hcut : name = ([], 0 :: 0 :: 0 :: (cString u.fullCollectionName ++
      (i32 u.flags ++ (u.selector ++ u.update)))) := by
    have hbody : (Operation.update u).wireBody = 0 :: 0 :: 0 :: 0 :: (cString u.fullCollectionName ++
        (i32 u.flags ++ (u.selector ++ u.update))) := by
      simp only [Operation.wireBody, List.append_assoc]
      rfl
    rw [hbody] at hname
    exact (Option.some.inj hname).symm
  have hempty : u.fullCollectionName = [] := by
    rw [← hnameEq, hcut]
  -- the other three and the NUL of the name are the flags
  have hflags' : flags = (0, i32 u.flags ++ (u.selector ++ u.update)) := by
    rw [hcut, hempty] at hflags
    exact (Option.some.inj hflags).symm
  have hzero : u.flags = 0 := by
    rw [← hflagsEq, hflags']
  have hdoc : i32 0 ++ (u.selector ++ u.update) = u.selector ++ selector.2 := by
    rw [hflags', hzero] at hselector
    have hsplit := hd.document_splits _ _ _ hselector
    rwa [hselectorEq] at hsplit
  obtain ⟨-, hsel, -⟩ := h
  apply hsel.not_zero
  apply List.prefix_of_prefix_length_le ⟨_, hdoc⟩ ⟨_, rfl⟩
  have := hsel.five_le
  rw [length_i32]
  omega

include hd in
/-- **`Decode` reads the wire protocol, except for `OP_UPDATE`.** Of every other legacy request it
returns exactly the fields of the message, and the database is the part of the collection name
before the first dot, in lower case. -/
theorem decode_wireMessage_iff (op : Operation) (hop : op.isLegacy = true) (hwf : op.WellFormed)
    (responseTo : Int32) (hlen : (op.wireMessage responseTo).length < 2 ^ 31) :
    (∃ op', decode d (op.wireMessage responseTo) = .ok op' ∧ op' = op ∧
      ∀ db coll, op.fullCollectionName = some (db ++ 0x2E :: coll) → 0x2E ∉ db →
        op'.databaseName d = toLower db) ↔
    ∀ u, op ≠ .update u := by
  have hbody : op.wireBody.length + 16 < 2 ^ 31 := by
    rwa [Operation.wireMessage, length_message] at hlen
  have hdecode : decode d (op.wireMessage responseTo) =
      op.decodeLike d op.requestID op.wireBody :=
    decode_message hd op (Operation.ne_unknown_of_isLegacy hop) _ responseTo hbody
  rw [hdecode]
  constructor
  · rintro ⟨op', h, rfl, -⟩ u rfl
    apply decodeUpdate_wireBody_ne hd u u.reqID hwf
    exact (map_eq_ok_iff fun _ _ => Operation.update.inj).mp h
  · intro hu
    refine ⟨op, ?_, rfl, fun db coll hname hdot =>
      databaseName_of_fullCollectionName d hname hdot⟩
    by_cases he : ∃ e, op = .delete e
    · obtain ⟨e, rfl⟩ := he
      rw [Operation.decodeLike, decodeDelete_wireBody hd e _ hwf]
      rfl
    · have hne : ∀ e, op ≠ .delete e := fun e h => he ⟨e, h⟩
      rw [wireBody_eq_body hop hu hne] at hbody ⊢
      rw [decodeLike_body hd op hne hwf (by omega), withRequestID_self]

end Decode

namespace Sample

/-- A deletion on a collection of a database in capitals. -/
def deleteOrders : OpDelete where
  reqID := 9
  fullCollectionName := lit "Shop.orders"
  flags := 1
  selector := Bson.document [("paid", .boolean false)]

def updateUsers : OpUpdate where
  reqID := 9
  fullCollectionName := lit "shop.users"
  flags := 0
  selector := Bson.document [("name", .string (lit "ann"))]
  update := Bson.document [("age", .int32 42)]

end Sample

open Sample

theorem decode_wireMessage_iff_deleteOrders :
    (∃ op', decode plainDriver ((Operation.delete deleteOrders).wireMessage 0) = .ok op' ∧
      op' = .delete deleteOrders ∧
      ∀ db coll, (Operation.delete deleteOrders).fullCollectionName = some (db ++ 0x2E :: coll) →
        0x2E ∉ db → op'.databaseName plainDriver = toLower db) ↔
    ∀ u, Operation.delete deleteOrders ≠ .update u := by
  refine decode_wireMessage_iff layout_plainDriver (.delete deleteOrders) rfl ⟨?_, ?_⟩ 0 ?_
  · decide +kernel
  · decide +kernel
  · decide +kernel

/-- An update on `shop.users` is refused: after an empty name, three zeros and an `s` are the flags
and the selector is looked for at `hop.`. -/
theorem updateUsers_refused :
    (Operation.update updateUsers).WellFormed ∧
    ((Operation.update updateUsers).wireMessage 0).length < 2 ^ 31 ∧
    decode plainDriver ((Operation.update updateUsers).wireMessage 0) =
      .error ⟨lit "malformed update message: selector document"⟩ := by
  refine ⟨⟨?_, ?_, ?_⟩, ?_, ?_⟩
  · decide +kernel
  · decide +kernel
  · decide +kernel
  · decide +kernel
  · decide +kernel

end MongoBouncer
