import MongoBouncer.Codec
import MongoBouncer.Wire.Bson

/-!
# The layout of wire messages

The formats of numbers, strings, documents and headers, what the driver's readers and append
functions are assumed to do with them, and the functions the repository writes itself.

* `i32`, `i64`, `u32`, `cString`, `message` : the bytes of a number, a string, a whole message;
* `IsDocument`       : at least five bytes, the first four of which are the length;
* `Driver.Layout`    : the readers undo these formats. Reading several documents is reading one
  document again and again, and what `ReadDocument` returns is the front of its input;
* `Appender`, `Appender.Layout` : the functions that build messages, and that they write the same
  formats at the end of the buffer.

`plainDriver` and `plainAppender` are instances.
-/

namespace MongoBouncer

open GoStd Codec

/-! ## Formats -/

def i32 (i : Int32) : Bytes := Bson.writeNat 4 i.toUInt32.toNat

def i64 (i : Int64) : Bytes := Bson.writeNat 8 i.toUInt64.toNat

def u32 (i : UInt32) : Bytes := Bson.writeNat 4 i.toNat

def cString (s : GoString) : Bytes := s ++ [0]

def Header.bytes (h : Header) : Bytes :=
  i32 h.length ++ i32 h.requestID ++ i32 h.responseTo ++ i32 h.opCode

/-- A whole message: a header with the length of all of it, and a body. -/
def message (requestID responseTo opCode : Int32) (body : Bytes) : Bytes :=
  Header.bytes { length := Int32.ofNat (body.length + 16), requestID, responseTo, opCode } ++ body

/-- A document starts with its own length, which counts these four bytes and a final NUL. -/
structure IsDocument (doc : Document) : Prop where
  five_le : 5 ≤ doc.length
  starts : ∃ n : Int32, n.toInt = doc.length ∧ i32 n <+: doc

/-- The documents of a list. -/
def AreDocuments (docs : List Document) : Prop := ∀ doc ∈ docs, IsDocument doc

theorem toInt_eq_iff {i : Int32} {k : Nat} : i.toInt = k ↔ i = Int32.ofNat k ∧ k < 2 ^ 31 := by
  constructor
  · intro h
    have hlt := i.toInt_lt
    refine ⟨?_, by omega⟩
    rw [← Int32.ofInt_toInt i, h, Int32.ofInt_eq_ofNat]
  · rintro ⟨rfl, hlt⟩
    exact Int32.toInt_ofNat_of_lt hlt

theorem isDocument_iff {doc : Document} : IsDocument doc ↔
    5 ≤ doc.length ∧ doc.length < 2 ^ 31 ∧ i32 (Int32.ofNat doc.length) <+: doc := by
  constructor
  · rintro ⟨hfive, n, hn, hstart⟩
    obtain ⟨rfl, hlt⟩ := toInt_eq_iff.mp hn
    exact ⟨hfive, hlt, hstart⟩
  · rintro ⟨hfive, hlt, hstart⟩
    exact ⟨hfive, Int32.ofNat doc.length, Int32.toInt_ofNat_of_lt hlt, hstart⟩

instance (doc : Document) : Decidable (IsDocument doc) := decidable_of_iff _ isDocument_iff.symm

instance (docs : List Document) : Decidable (AreDocuments docs) :=
  inferInstanceAs (Decidable (∀ doc ∈ docs, IsDocument doc))

theorem length_writeNat (n k : Nat) : (Bson.writeNat n k).length = n := by
  induction n generalizing k with
  | zero => rfl
  | succ n ih => simp only [Bson.writeNat, List.length_cons, ih]

@[simp] theorem length_i32 (i : Int32) : (i32 i).length = 4 := length_writeNat 4 _

@[simp] theorem length_i64 (i : Int64) : (i64 i).length = 8 := length_writeNat 8 _

@[simp] theorem length_u32 (i : UInt32) : (u32 i).length = 4 := length_writeNat 4 _

@[simp] theorem length_headerBytes (h : Header) : h.bytes.length = 16 := by
  simp only [Header.bytes, List.length_append, length_i32]

@[simp] theorem length_message (requestID responseTo opCode : Int32) (body : Bytes) :
    (message requestID responseTo opCode body).length = body.length + 16 := by
  simp only [message, List.length_append, length_headerBytes]
  omega

/-! ## What is assumed of the readers -/

/-- The reader undoes the format on all values. -/
abbrev ReadsEvery {α : Type} (r : Reader UInt8 α) (e : α → Bytes) : Prop :=
  Reads r e fun _ => True

/-- The driver's readers: little-endian numbers, strings up to a NUL, documents by their length. -/
structure Driver.Layout (d : Driver) : Prop where
  header : ReadsEvery d.readHeader Header.bytes
  document : Reads d.readDocument id IsDocument
  document_splits : Splits d.readDocument
  queryFlags : ReadsEvery d.readQueryFlags i32
  queryFullCollectionName : Reads d.readQueryFullCollectionName cString (0 ∉ ·)
  queryNumberToSkip : ReadsEvery d.readQueryNumberToSkip i32
  queryNumberToReturn : ReadsEvery d.readQueryNumberToReturn i32
  queryQuery : Reads d.readQueryQuery id IsDocument
  queryReturnFieldsSelector : Reads d.readQueryReturnFieldsSelector id IsDocument
  msgFlags : ReadsEvery d.readMsgFlags u32
  msgChecksum : ReadsEvery d.readMsgChecksum u32
  msgSectionType : ReadsEvery d.readMsgSectionType fun t => [t]
  msgSectionSingleDocument : Reads d.readMsgSectionSingleDocument id IsDocument
  /-- The length covers itself, the identifier and the documents. -/
  msgSectionDocumentSequence : ∀ (n : Int32) identifier body msgs rest,
    0 ∉ identifier → ReadsAll d.readDocument body msgs →
    n.toInt = (i32 n ++ cString identifier ++ body).length →
    d.readMsgSectionDocumentSequence (i32 n ++ cString identifier ++ body ++ rest) =
      some ((identifier, msgs), rest)
  replyFlags : ReadsEvery d.readReplyFlags i32
  replyCursorID : ReadsEvery d.readReplyCursorID i64
  replyStartingFrom : ReadsEvery d.readReplyStartingFrom i32
  replyNumberReturned : ReadsEvery d.readReplyNumberReturned i32
  replyDocuments : ∀ src docs, ReadsAll d.readDocument src docs →
    d.readReplyDocuments src = some (docs, [])
  killCursorsZero : ReadsEvery d.readKillCursorsZero i32
  killCursorsNumberIDs : ReadsEvery d.readKillCursorsNumberIDs i32
  killCursorsCursorIDs : ∀ (n : Int32) ids rest, n.toInt = ids.length →
    d.readKillCursorsCursorIDs (ids.flatMap i64 ++ rest) n = some (ids, rest)

theorem Driver.Layout.documents {d : Driver} (hd : d.Layout) {docs : List Document}
    (h : AreDocuments docs) : ReadsAll d.readDocument docs.flatten docs := by
  have hall := hd.document.all h
  rwa [List.flatMap_id] at hall

/-! ## The readers and append functions of the repository -/

theorem ofNat_toNat_int32 (i : Int32) : Int32.ofNat i.toUInt32.toNat = i := by
  rw [← UInt32.toInt32_ofNat', UInt32.ofNat_toNat, Int32.toInt32_toUInt32]

theorem ofNat_toNat_int64 (i : Int64) : Int64.ofNat i.toUInt64.toNat = i := by
  rw [← UInt64.toInt64_ofNat', UInt64.ofNat_toNat, Int64.toInt64_toUInt64]

theorem reads_readi32 : ReadsEvery readi32 i32 := by
  intro i rest _
  have hlt : i.toUInt32.toNat < 2 ^ 32 := i.toUInt32.toNat_lt
  have hvalue : Int32.ofNat i.toUInt32.toNat = i := ofNat_toNat_int32 i
  simp only [i32, Bson.writeNat, List.cons_append, List.nil_append, readi32, UInt8.toNat_ofNat']
  generalize i.toUInt32.toNat = k at hlt hvalue
  have hsum : k % 2 ^ 8 + k / 256 % 2 ^ 8 * 2 ^ 8 + k / 256 / 256 % 2 ^ 8 * 2 ^ 16 +
      k / 256 / 256 / 256 % 2 ^ 8 * 2 ^ 24 = k := by
    omega
  rw [hsum, hvalue]

theorem reads_readCString : Reads readCString cString (0 ∉ ·) := by
  intro s rest h
  apply cutByte_eq_some.mpr
  exact ⟨by simp only [cString, List.append_assoc, List.cons_append, List.nil_append], h⟩

def appendi32 (dst : Bytes) (i : Int32) : Bytes :=
  let n := i.toUInt32.toNat
  dst ++ [UInt8.ofNat n, UInt8.ofNat (n >>> 8), UInt8.ofNat (n >>> 16), UInt8.ofNat (n >>> 24)]

def appendCString (b : Bytes) (str : GoString) : Bytes := b ++ str ++ [0]

theorem appendi32_eq (dst : Bytes) (i : Int32) : appendi32 dst i = dst ++ i32 i := by
  simp only [appendi32, i32, Bson.writeNat, Nat.shiftRight_eq_div_pow, Nat.div_div_eq_div_mul]

theorem appendCString_eq (b : Bytes) (str : GoString) :
    appendCString b str = b ++ cString str := List.append_assoc b str [0]

/-! ## What is assumed of the append functions -/

/-- The functions of the driver that the proxy calls to build messages. -/
structure Appender where
  /-- `AppendHeaderStart` also returns where the length has to be written. -/
  appendHeaderStart : Bytes → Int32 → Int32 → Int32 → Int32 × Bytes
  /-- `bsoncore.UpdateLength`. -/
  updateLength : Bytes → Int32 → Int32 → Bytes
  appendQueryFlags : Bytes → Int32 → Bytes
  appendQueryFullCollectionName : Bytes → GoString → Bytes
  appendQueryNumberToSkip : Bytes → Int32 → Bytes
  appendQueryNumberToReturn : Bytes → Int32 → Bytes
  appendMsgFlags : Bytes → UInt32 → Bytes
  appendMsgSectionType : Bytes → UInt8 → Bytes
  appendReplyFlags : Bytes → Int32 → Bytes
  appendReplyCursorID : Bytes → Int64 → Bytes
  appendReplyStartingFrom : Bytes → Int32 → Bytes
  appendReplyNumberReturned : Bytes → Int32 → Bytes
  appendGetMoreZero : Bytes → Bytes
  appendGetMoreFullCollectionName : Bytes → GoString → Bytes
  appendGetMoreNumberToReturn : Bytes → Int32 → Bytes
  appendGetMoreCursorID : Bytes → Int64 → Bytes
  appendKillCursorsZero : Bytes → Bytes
  appendKillCursorsNumberIDs : Bytes → Int32 → Bytes
  appendKillCursorsCursorIDs : Bytes → List Int64 → Bytes

/-- The function adds the format of its argument to the end of the buffer. -/
def Appends {α : Type} (f : Bytes → α → Bytes) (e : α → Bytes) : Prop :=
  ∀ dst a, f dst a = dst ++ e a

/-- The driver's append functions write the formats its readers read. -/
structure Appender.Layout (w : Appender) : Prop where
  headerStart : ∀ dst requestID responseTo opCode, w.appendHeaderStart dst requestID responseTo
    opCode = (Int32.ofNat dst.length,
      dst ++ Header.bytes { length := 0, requestID, responseTo, opCode })
  updateLength : ∀ (before after : Bytes) (i n old : Int32), i.toInt = before.length →
    w.updateLength (before ++ i32 old ++ after) i n = before ++ i32 n ++ after
  queryFlags : Appends w.appendQueryFlags i32
  queryFullCollectionName : Appends w.appendQueryFullCollectionName cString
  queryNumberToSkip : Appends w.appendQueryNumberToSkip i32
  queryNumberToReturn : Appends w.appendQueryNumberToReturn i32
  msgFlags : Appends w.appendMsgFlags u32
  msgSectionType : Appends w.appendMsgSectionType fun t => [t]
  replyFlags : Appends w.appendReplyFlags i32
  replyCursorID : Appends w.appendReplyCursorID i64
  replyStartingFrom : Appends w.appendReplyStartingFrom i32
  replyNumberReturned : Appends w.appendReplyNumberReturned i32
  getMoreZero : ∀ dst, w.appendGetMoreZero dst = dst ++ i32 0
  getMoreFullCollectionName : Appends w.appendGetMoreFullCollectionName cString
  getMoreNumberToReturn : Appends w.appendGetMoreNumberToReturn i32
  getMoreCursorID : Appends w.appendGetMoreCursorID i64
  killCursorsZero : ∀ dst, w.appendKillCursorsZero dst = dst ++ i32 0
  killCursorsNumberIDs : Appends w.appendKillCursorsNumberIDs i32
  killCursorsCursorIDs : Appends w.appendKillCursorsCursorIDs fun ids => ids.flatMap i64

/-! ## The instances -/

theorem reads_readNat (n : Nat) : Reads (Bson.readNat n) (Bson.writeNat n) (· < 256 ^ n) := by
  induction n with
  | zero =>
    intro k rest hk
    have hzero : k = 0 := by
      rw [Nat.pow_zero] at hk
      omega
    subst hzero
    rfl
  | succ n ih =>
    intro k rest hk
    have hdiv : k / 256 < 256 ^ n := by
      rw [Nat.pow_succ] at hk
      exact Nat.div_lt_of_lt_mul (Nat.mul_comm (256 ^ n) 256 ▸ hk)
    have htail := ih (k / 256) rest hdiv
    have hsum : k % 256 + 256 * (k / 256) = k := Nat.mod_add_div k 256
    simp only [Bson.writeNat, List.cons_append, Bson.readNat, htail, Option.map_some,
      UInt8.toNat_ofNat', Nat.reducePow, hsum]

theorem reads_readi64 : ReadsEvery Bson.readi64 i64 := by
  refine (reads_readNat 8).map Int64.ofNat (fun i => i.toUInt64.toNat) ?_ ofNat_toNat_int64
  intro i
  exact i.toUInt64.toNat_lt

theorem reads_readu32 : ReadsEvery Bson.readu32 u32 := by
  refine (reads_readNat 4).map UInt32.ofNat UInt32.toNat ?_ fun i => UInt32.ofNat_toNat
  intro i
  exact i.toNat_lt

theorem toNat_of_toInt_eq {i : Int32} {k : Nat} (h : i.toInt = k) : i.toUInt32.toNat = k := by
  obtain ⟨hi, hlt⟩ := toInt_eq_iff.mp h
  rw [hi]
  show k % 2 ^ 32 = k
  omega

theorem splitAt_append (a rest : Bytes) : Bson.splitAt a.length (a ++ rest) = some (a, rest) := by
  unfold Bson.splitAt
  rw [if_pos (by simp), List.take_left, List.drop_left]

theorem reads_readDocument : Reads Bson.readDocument id IsDocument := by
  intro doc rest h
  obtain ⟨n, hn, tail, htail⟩ := h.starts
  have hlength : n.toUInt32.toNat = doc.length := toNat_of_toInt_eq hn
  have hread : Bson.readNat 4 (doc ++ rest) = some (doc.length, tail ++ rest) := by
    have hfront := reads_readNat 4 n.toUInt32.toNat (tail ++ rest) n.toUInt32.toNat_lt
    rw [← List.append_assoc] at hfront
    rw [← htail, ← hlength.trans (congrArg List.length htail).symm]
    exact hfront
  have hfive : ¬ doc.length < 5 := by
    have := h.five_le
    omega
  simp only [id_eq, Bson.readDocument, hread, Option.bind_eq_bind, Option.bind_some, if_neg hfive,
    splitAt_append]

theorem splitAt_eq_some {n : Nat} {src a rest : Bytes} (h : Bson.splitAt n src = some (a, rest)) :
    src = a ++ rest ∧ a.length = n := by
  unfold Bson.splitAt at h
  split at h
  · rename_i hle
    rw [Option.some.injEq, Prod.mk.injEq] at h
    rw [← h.1, ← h.2]
    exact ⟨(List.take_append_drop n src).symm, List.length_take_of_le hle⟩
  · cases h

theorem readDocument_eq_some {src doc rest : Bytes} (h : Bson.readDocument src = some (doc, rest)) :
    src = doc ++ rest ∧ 5 ≤ doc.length := by
  simp only [Bson.readDocument, Option.bind_eq_bind, Option.bind_eq_some_iff] at h
  obtain ⟨s, -, hs⟩ := h
  split at hs
  · cases hs
  · obtain ⟨heq, hlen⟩ := splitAt_eq_some hs
    exact ⟨heq, by omega⟩

theorem readDocuments_of_readsAll {src : Bytes} {docs : List Document}
    (h : ReadsAll Bson.readDocument src docs) :
    ∀ fuel, src.length ≤ fuel → Bson.readDocuments fuel src = some (docs, []) := by
  induction h with
  | nil =>
    intro fuel _
    cases fuel <;> rfl
  | @cons src rest doc docs head tail ih =>
    intro fuel hfuel
    obtain ⟨heq, hfive⟩ := readDocument_eq_some head
    have hlen : src.length = doc.length + rest.length := by
      rw [heq, List.length_append]
    -- a document takes at least five bytes, so the fuel is enough for the rest
    obtain ⟨f, rfl⟩ : ∃ f, fuel = f + 1 := ⟨fuel - 1, by omega⟩
    have hrest := ih f (by omega)
    cases hsrc : src with
    | nil =>
      rw [hsrc, List.length_nil] at hlen
      omega
    | cons b bs =>
      rw [hsrc] at head
      simp only [Bson.readDocuments, head, Option.bind_eq_bind, Option.bind_some, hrest]

theorem readSequence_of_readsAll (n : Int32) (identifier : GoString) (body : Bytes)
    (msgs : List Document) (rest : Bytes) (hid : 0 ∉ identifier)
    (hbody : ReadsAll Bson.readDocument body msgs)
    (hn : n.toInt = (i32 n ++ cString identifier ++ body).length) :
    Bson.readSequence (i32 n ++ cString identifier ++ body ++ rest) =
      some ((identifier, msgs), rest) := by
  have hvalue : n.toUInt32.toNat = 4 + (cString identifier ++ body).length := by
    rw [toNat_of_toInt_eq hn, List.append_assoc, List.length_append, length_i32]
  have hread : Bson.readNat 4 (i32 n ++ cString identifier ++ body ++ rest) =
      some (n.toUInt32.toNat, cString identifier ++ body ++ rest) := by
    have hfront := reads_readNat 4 n.toUInt32.toNat (cString identifier ++ body ++ rest)
      n.toUInt32.toNat_lt
    simpa only [i32, List.append_assoc] using hfront
  have hfour : ¬ 4 + (cString identifier ++ body).length < 4 := by omega
  have hcut : readCString (cString identifier ++ body) = some (identifier, body) :=
    reads_readCString identifier body hid
  have hdocs := readDocuments_of_readsAll hbody body.length (Nat.le_refl _)
  simp only [Bson.readSequence, hread, hvalue, Option.bind_eq_bind, Option.bind_some,
    if_neg hfour, Nat.add_sub_cancel_left, splitAt_append, hcut, hdocs]

theorem readCursorIDs_i64 (ids : List Int64) (rest : Bytes) :
    Bson.readCursorIDs ids.length (ids.flatMap i64 ++ rest) = some (ids, rest) := by
  induction ids with
  | nil => rfl
  | cons id ids ih =>
    have hid := reads_readi64 id (ids.flatMap i64 ++ rest) trivial
    simp only [List.flatMap_cons, List.append_assoc, List.length_cons, Bson.readCursorIDs, hid, ih,
      Option.bind_eq_bind, Option.bind_some]

theorem reads_readHeader : ReadsEvery Bson.readHeader Header.bytes := by
  intro h rest _
  simp only [Header.bytes, List.append_assoc, Bson.readHeader, reads_readi32 _ _ trivial,
    Option.bind_eq_bind, Option.bind_some]

theorem layout_plainDriver : plainDriver.Layout where
  header := reads_readHeader
  document := reads_readDocument
  document_splits := fun _ _ _ h => (readDocument_eq_some h).1
  queryFlags := reads_readi32
  queryFullCollectionName := reads_readCString
  queryNumberToSkip := reads_readi32
  queryNumberToReturn := reads_readi32
  queryQuery := reads_readDocument
  queryReturnFieldsSelector := reads_readDocument
  msgFlags := reads_readu32
  msgChecksum := reads_readu32
  msgSectionType := fun _ _ _ => rfl
  msgSectionSingleDocument := reads_readDocument
  msgSectionDocumentSequence := readSequence_of_readsAll
  replyFlags := reads_readi32
  replyCursorID := reads_readi64
  replyStartingFrom := reads_readi32
  replyNumberReturned := reads_readi32
  replyDocuments := fun src _ h => readDocuments_of_readsAll h src.length (Nat.le_refl _)
  killCursorsZero := reads_readi32
  killCursorsNumberIDs := reads_readi32
  killCursorsCursorIDs := by
    intro n ids rest hn
    show Bson.readCursorIDs n.toInt.toNat (ids.flatMap i64 ++ rest) = some (ids, rest)
    rw [hn, Int.toNat_natCast]
    exact readCursorIDs_i64 ids rest

/-- The append functions that write the layout. -/
def plainAppender : Appender where
  appendHeaderStart := fun dst requestID responseTo opCode =>
    (Int32.ofNat dst.length, dst ++ Header.bytes { length := 0, requestID, responseTo, opCode })
  updateLength := fun dst i n =>
    dst.take i.toInt.toNat ++ i32 n ++ dst.drop (i.toInt.toNat + 4)
  appendQueryFlags := fun dst i => dst ++ i32 i
  appendQueryFullCollectionName := fun dst s => dst ++ cString s
  appendQueryNumberToSkip := fun dst i => dst ++ i32 i
  appendQueryNumberToReturn := fun dst i => dst ++ i32 i
  appendMsgFlags := fun dst i => dst ++ u32 i
  appendMsgSectionType := fun dst t => dst ++ [t]
  appendReplyFlags := fun dst i => dst ++ i32 i
  appendReplyCursorID := fun dst i => dst ++ i64 i
  appendReplyStartingFrom := fun dst i => dst ++ i32 i
  appendReplyNumberReturned := fun dst i => dst ++ i32 i
  appendGetMoreZero := fun dst => dst ++ i32 0
  appendGetMoreFullCollectionName := fun dst s => dst ++ cString s
  appendGetMoreNumberToReturn := fun dst i => dst ++ i32 i
  appendGetMoreCursorID := fun dst i => dst ++ i64 i
  appendKillCursorsZero := fun dst => dst ++ i32 0
  appendKillCursorsNumberIDs := fun dst i => dst ++ i32 i
  appendKillCursorsCursorIDs := fun dst ids => dst ++ ids.flatMap i64

theorem layout_plainAppender : plainAppender.Layout where
  headerStart := fun _ _ _ _ => rfl
  updateLength := by
    intro before after i n old hi
    show (before ++ i32 old ++ after).take i.toInt.toNat ++ i32 n ++
      (before ++ i32 old ++ after).drop (i.toInt.toNat + 4) = before ++ i32 n ++ after
    have hdrop : (before ++ i32 old).length = before.length + 4 := by
      rw [List.length_append, length_i32]
    rw [hi, Int.toNat_natCast, ← hdrop, List.drop_left, List.append_assoc before (i32 old),
      List.take_left]
  queryFlags := fun _ _ => rfl
  queryFullCollectionName := fun _ _ => rfl
  queryNumberToSkip := fun _ _ => rfl
  queryNumberToReturn := fun _ _ => rfl
  msgFlags := fun _ _ => rfl
  msgSectionType := fun _ _ => rfl
  replyFlags := fun _ _ => rfl
  replyCursorID := fun _ _ => rfl
  replyStartingFrom := fun _ _ => rfl
  replyNumberReturned := fun _ _ => rfl
  getMoreZero := fun _ => rfl
  getMoreFullCollectionName := fun _ _ => rfl
  getMoreNumberToReturn := fun _ _ => rfl
  getMoreCursorID := fun _ _ => rfl
  killCursorsZero := fun _ => rfl
  killCursorsNumberIDs := fun _ _ => rfl
  killCursorsCursorIDs := fun _ _ => rfl

end MongoBouncer
