import MongoBouncer.Wire.Encode

/-!
# Encoding what was decoded

A request that is forwarded to another pod is decoded and encoded again. Here the messages of kind
`OP_MSG` that `Decode` accepts are compared with what `Encode` makes of them. The loop of `decodeMsg`
takes sections off until nothing is left, or until four bytes are left and the flags announce a
checksum; it does not mind if the announced checksum is missing, and `Encode` then adds one.

* `Driver.Exact`: the readers of `OP_MSG` take nothing but their formats;
* `SameButIds`  : two messages that differ in nothing but the two ids of the header.

Principal results: `decodeSections_eq` (where the bytes of a message went) and `reencode_iff`.
-/

namespace MongoBouncer

open GoStd Codec

/-- The readers of the header and of the parts of an `OP_MSG` take nothing but their formats. -/
structure Driver.Exact (d : Driver) : Prop where
  header : Consumes d.readHeader Header.bytes
  msgFlags : Consumes d.readMsgFlags u32
  msgChecksum : Consumes d.readMsgChecksum u32
  msgSectionType : Consumes d.readMsgSectionType fun t => [t]
  msgSectionSingleDocument : Consumes d.readMsgSectionSingleDocument id
  /-- The length covers itself, the identifier and the documents. -/
  msgSectionDocumentSequence : Consumes d.readMsgSectionDocumentSequence fun s =>
    i32 (Int32.ofNat (s.1.length + 5 + s.2.flatten.length)) ++ cString s.1 ++ s.2.flatten

section Decode

variable {d : Driver} (hd : d.Exact)

theorem decodeSections_nil (hasChecksum : Bool) (fuel : Nat) (sections : List OpMsgSection)
    (checksum : UInt32) :
    decodeSections d hasChecksum fuel [] sections checksum = .ok (sections, checksum) := by
  cases fuel <;> rfl

include hd in
theorem Driver.Exact.checksum_of_four {wm rest : Bytes} {c : UInt32} (hfour : wm.length = 4)
    (hread : d.readMsgChecksum wm = some (c, rest)) : wm = u32 c ∧ rest = [] := by
  have hbytes := hd.msgChecksum _ _ _ hread
  have hlen := congrArg List.length hbytes
  rw [hfour, List.length_append, length_u32] at hlen
  have hnil : rest = [] := List.length_eq_zero_iff.mp (by omega)
  subst hnil
  exact ⟨hbytes.trans (List.append_nil _), rfl⟩

include hd in
/-- **Where the bytes of the sections went**: into the sections, and into the checksum if the flags
announce one and four bytes are left. -/
theorem decodeSections_eq {hasChecksum : Bool} {fuel : Nat} {wm : Bytes}
    {sections sections' : List OpMsgSection} {checksum checksum' : UInt32}
    (h : decodeSections d hasChecksum fuel wm sections checksum = .ok (sections', checksum')) :
    ∃ new tail, sections' = sections ++ new ∧ wm = new.flatMap OpMsgSection.bytes ++ tail ∧
      (tail = [] ∨ hasChecksum = true ∧ tail = u32 checksum') := by
  induction fuel generalizing wm sections checksum with
  | zero =>
    cases wm with
    | nil =>
      cases h
      exact ⟨[], [], (List.append_nil _).symm, rfl, Or.inl rfl⟩
    | cons b wm => cases h
  | succ fuel ih =>
    cases wm with
    | nil =>
      cases h
      exact ⟨[], [], (List.append_nil _).symm, rfl, Or.inl rfl⟩
    | cons b wm =>
      simp only [decodeSections] at h
      split at h
      · rename_i hlast
        simp only [Bool.and_eq_true, beq_iff_eq] at hlast
        obtain ⟨⟨c, rest⟩, hread, hrest⟩ := orError_bind_eq_ok h
        obtain ⟨hbytes, rfl⟩ := hd.checksum_of_four hlast.2 hread
        simp only [decodeSections_nil] at hrest
        cases hrest
        exact ⟨[], u32 checksum', (List.append_nil _).symm, hbytes, Or.inr ⟨hlast.1, rfl⟩⟩
      · obtain ⟨⟨stype, rest⟩, hread, hrest⟩ := orError_bind_eq_ok h
        have htype := hd.msgSectionType _ _ _ hread
        simp only at hrest
        split at hrest
        · rename_i hzero
          obtain ⟨⟨doc, rest'⟩, hdoc, hnext⟩ := orError_bind_eq_ok hrest
          have hbytes := hd.msgSectionSingleDocument _ _ _ hdoc
          simp only at hnext
          obtain ⟨new, tail, hsections, hwm, htail⟩ := ih hnext
          refine ⟨.single doc :: new, tail, ?_, ?_, htail⟩
          · rw [hsections, List.append_assoc, List.singleton_append]
          · rw [htype, hbytes, hwm, hzero]
            simp [OpMsgSection.bytes]
        · split at hrest
          · rename_i hone
            obtain ⟨⟨⟨identifier, msgs⟩, rest'⟩, hseq, hnext⟩ := orError_bind_eq_ok hrest
            have hbytes := hd.msgSectionDocumentSequence _ _ _ hseq
            simp only at hnext
            obtain ⟨new, tail, hsections, hwm, htail⟩ := ih hnext
            refine ⟨.sequence identifier msgs :: new, tail, ?_, ?_, htail⟩
            · rw [hsections, List.append_assoc, List.singleton_append]
            · rw [htype, hbytes, hwm, hone]
              simp [OpMsgSection.bytes]
          · cases hrest

include hd in
theorem decodeMsg_eq {reqID : Int32} {wm : Bytes} {m : OpMsg} (h : decodeMsg d reqID wm = .ok m) :
    ∃ tail, wm = u32 m.flags ++ m.sections.flatMap OpMsgSection.bytes ++ tail ∧
      (tail = [] ∨
        (m.flags &&& checksumPresent == checksumPresent) = true ∧ tail = u32 m.checksum) := by
  obtain ⟨⟨flags, rest⟩, hflags, hrest⟩ := orError_bind_eq_ok h
  simp only at hrest
  cases hsections : decodeSections d (flags &&& checksumPresent == checksumPresent) rest.length rest
      [] 0 with
  | error e =>
    rw [hsections] at hrest
    cases hrest
  | ok parts =>
  rw [hsections] at hrest
  cases hrest
  obtain ⟨new, tail, rfl, hwm, htail⟩ := decodeSections_eq hd hsections
  refine ⟨tail, ?_, htail⟩
  rw [hd.msgFlags _ _ _ hflags, hwm, List.append_assoc]

end Decode

/-! ## The message that is made of it -/

/-- The messages differ in nothing but the request id and the id that is answered. -/
structure SameButIds (wm wm' : Bytes) : Prop where
  length : wm'.length = wm.length
  lengthField : wm'.take 4 = wm.take 4
  opCode : (wm'.drop 12).take 4 = (wm.drop 12).take 4
  body : wm'.drop 16 = wm.drop 16

theorem drop_headerBytes (header : Header) (body : Bytes) : (header.bytes ++ body).drop 16 = body :=
  List.drop_left' (length_headerBytes header)

theorem sameButIds_of_header {header header' : Header} (hlength : header'.length = header.length)
    (hopCode : header'.opCode = header.opCode) (body : Bytes) :
    SameButIds (header.bytes ++ body) (header'.bytes ++ body) where
  length := by rw [List.length_append, List.length_append, length_headerBytes, length_headerBytes]
  lengthField := by
    simp only [Header.bytes, hlength, List.append_assoc]
    rw [List.take_left' (length_i32 _), List.take_left' (length_i32 _)]
  opCode := by
    have hdrop : ∀ h : Header, ((h.bytes ++ body).drop 12).take 4 = i32 h.opCode := by
      intro h
      have hfront : (i32 h.length ++ i32 h.requestID ++ i32 h.responseTo).length = 12 := by simp
      rw [Header.bytes, List.append_assoc, List.drop_left' hfront, List.take_left' (length_i32 _)]
    rw [hdrop, hdrop, hopCode]
  body := by rw [drop_headerBytes, drop_headerBytes]

/-- The flags announce a checksum. -/
def OpMsg.Announced (m : OpMsg) : Prop := (m.flags &&& checksumPresent == checksumPresent) = true

instance (m : OpMsg) : Decidable m.Announced := inferInstanceAs (Decidable (_ = true))

theorem decode_msg {d : Driver} {wm body : Bytes} {header : Header} {op : Operation}
    (hheader : d.readHeader wm = some (header, body)) (hopCode : header.opCode = 2013)
    (hlength : header.length.toInt = wm.length) (h : decode d wm = .ok op) :
    ∃ m, op = .msg m ∧ decodeMsg d header.requestID body = .ok m := by
  unfold decode at h
  rw [hheader] at h
  simp only [orError_some, bind, Except.bind, hlength, hopCode] at h
  rw [if_neg (by omega), if_neg (by decide), if_pos trivial] at h
  cases hm : decodeMsg d header.requestID body with
  | error e =>
    rw [hm] at h
    cases h
  | ok m =>
    rw [hm] at h
    cases h
    exact ⟨m, rfl, rfl⟩

/-- **What becomes of an accepted `OP_MSG`.** A message whose header gives its length and the opcode
of `OP_MSG` and that `Decode` accepts is encoded to the same message, up to the ids of the header, if,
and only if, it has something behind its sections whenever its flags announce a checksum. -/
theorem reencode_iff {d : Driver} {w : Appender} (hd : d.Exact) (hw : w.Layout) {wm body : Bytes}
    {header : Header} {op : Operation} (hheader : d.readHeader wm = some (header, body))
    (hopCode : header.opCode = 2013) (hlength : header.length.toInt = wm.length)
    (hdecode : decode d wm = .ok op) (responseTo : Int32) :
    ∃ m, op = .msg m ∧
      (SameButIds wm (op.encode w responseTo) ↔
        (m.Announced → 20 + (m.sections.flatMap OpMsgSection.bytes).length < wm.length)) := by
  obtain ⟨m, rfl, hm⟩ := decode_msg hheader hopCode hlength hdecode
  refine ⟨m, rfl, ?_⟩
  obtain ⟨tail, hbody, htail⟩ := decodeMsg_eq hd hm
  have hwm : wm = header.bytes ++ body := hd.header _ _ _ hheader
  have hlen : wm.length = 20 + (m.sections.flatMap OpMsgSection.bytes).length + tail.length := by
    rw [hwm, hbody]
    simp only [List.length_append, length_headerBytes, length_u32]
    omega
  rw [encode_eq hw (.msg m) responseTo (by simp)]
  constructor
  · intro hsame hannounced
    -- four bytes are written for the checksum
    have hsum : m.checksumBytes = u32 m.checksum := if_pos hannounced
    have := hsame.length
    simp only [length_message, Operation.body, hsum, List.length_append, length_u32] at this
    omega
  · intro hmore
    have htail : tail = m.checksumBytes := by
      unfold OpMsg.checksumBytes
      rcases htail with hnone | ⟨hannounced, hsum⟩
      · rw [hnone] at hlen
        rw [if_neg, hnone]
        intro hannounced
        have := hmore hannounced
        simp only [List.length_nil] at hlen
        omega
      · rw [if_pos hannounced, hsum]
    have hsame : body = (Operation.msg m).body := by
      rw [hbody, htail]
      rfl
    rw [hwm, hsame]
    apply sameButIds_of_header
    · have hfull : header.length.toInt = ((Operation.msg m).body.length + 16 : Nat) := by
        rw [hlength, hwm, hsame, List.length_append, length_headerBytes, Nat.add_comm]
      exact (toInt_eq_iff.mp hfull).1.symm
    · rw [hopCode]
      rfl

/-! ## The plain driver -/

theorem ofNat_eq_of_mod {n : Nat} {b : UInt8} (h : n % 256 = b.toNat) : UInt8.ofNat n = b := by
  apply UInt8.toNat_inj.mp
  exact h

theorem consumes_readNat (n : Nat) :
    ∀ src k rest, Bson.readNat n src = some (k, rest) → src = Bson.writeNat n k ++ rest ∧ k < 256 ^ n := by
  induction n with
  | zero =>
    intro src k rest h
    rw [Bson.readNat, Option.some.injEq, Prod.mk.injEq] at h
    exact ⟨h.2, by omega⟩
  | succ n ih =>
    intro src k rest h
    cases src with
    | nil => cases h
    | cons b src =>
      simp only [Bson.readNat, Option.map_eq_some_iff, Prod.mk.injEq] at h
      obtain ⟨⟨k', rest'⟩, hread, rfl, rfl⟩ := h
      obtain ⟨hsrc, hlt⟩ := ih _ _ _ hread
      have hb : b.toNat < 256 := b.toNat_lt
      constructor
      · have hdiv : (b.toNat + 256 * k') / 256 = k' := by omega
        have hbyte : UInt8.ofNat (b.toNat + 256 * k') = b := ofNat_eq_of_mod (by omega)
        rw [Bson.writeNat, hdiv, hbyte, List.cons_append, ← hsrc]
      · omega

theorem consumes_readu32 : Consumes Bson.readu32 u32 := by
  intro src i rest h
  simp only [Bson.readu32, Option.map_eq_some_iff, Prod.mk.injEq] at h
  obtain ⟨⟨k, rest'⟩, hread, rfl, rfl⟩ := h
  obtain ⟨hsrc, hlt⟩ := consumes_readNat 4 _ _ _ hread
  have hvalue : (UInt32.ofNat k).toNat = k := by
    exact Nat.mod_eq_of_lt hlt
  rw [hsrc, u32, hvalue]

theorem i32_ofNat {k : Nat} (h : k < 256 ^ 4) : i32 (Int32.ofNat k) = Bson.writeNat 4 k := by
  have hvalue : (Int32.ofNat k).toUInt32.toNat = k := by
    exact Nat.mod_eq_of_lt h
  rw [i32, hvalue]

theorem consumes_readi32 : Consumes readi32 i32 := by
  intro src i rest h
  unfold readi32 at h
  split at h
  · rename_i a b c e rest'
    obtain ⟨rfl, rfl⟩ := h
    have ha := a.toNat_lt
    have hb := b.toNat_lt
    have hc := c.toNat_lt
    have he := e.toNat_lt
    generalize hk : a.toNat + b.toNat * 2 ^ 8 + c.toNat * 2 ^ 16 + e.toNat * 2 ^ 24 = k
    rw [i32_ofNat (by omega)]
    simp only [Bson.writeNat, List.cons_append, List.nil_append]
    rw [ofNat_eq_of_mod (b := a) (by omega), ofNat_eq_of_mod (b := b) (by omega),
      ofNat_eq_of_mod (b := c) (by omega), ofNat_eq_of_mod (b := e) (by omega)]
  · cases h

theorem consumes_readHeader : Consumes Bson.readHeader Header.bytes := by
  intro src header rest h
  simp only [Bson.readHeader, Option.bind_eq_bind, Option.bind_eq_some_iff, Option.some.injEq,
    Prod.mk.injEq] at h
  obtain ⟨length, h1, requestID, h2, responseTo, h3, opCode, h4, rfl, rfl⟩ := h
  rw [consumes_readi32 _ _ _ h1, consumes_readi32 _ _ _ h2, consumes_readi32 _ _ _ h3,
    consumes_readi32 _ _ _ h4]
  simp only [Header.bytes, List.append_assoc]

theorem consumes_readDocuments {fuel : Nat} {src : Bytes} {docs : List Document} {rest : Bytes}
    (h : Bson.readDocuments fuel src = some (docs, rest)) : src = docs.flatten := by
  induction fuel generalizing src docs rest with
  | zero =>
    cases src with
    | nil =>
      cases h
      rfl
    | cons b src => cases h
  | succ fuel ih =>
    cases src with
    | nil =>
      cases h
      rfl
    | cons b src =>
      simp only [Bson.readDocuments, Option.bind_eq_bind, Option.bind_eq_some_iff,
        Option.some.injEq, Prod.mk.injEq] at h
      obtain ⟨doc, hdoc, docs', hdocs, rfl, -⟩ := h
      rw [(readDocument_eq_some hdoc).1, ih hdocs, List.flatten_cons]

theorem consumes_readSequence : Consumes Bson.readSequence fun s =>
    i32 (Int32.ofNat (s.1.length + 5 + s.2.flatten.length)) ++ cString s.1 ++ s.2.flatten := by
  intro src s rest h
  simp only [Bson.readSequence, Option.bind_eq_bind, Option.bind_eq_some_iff] at h
  obtain ⟨length, hlength, h⟩ := h
  obtain ⟨hsrc, hlt⟩ := consumes_readNat 4 _ _ _ hlength
  split at h
  · cases h
  · simp only [Option.bind_eq_some_iff, Option.some.injEq, Prod.mk.injEq] at h
    obtain ⟨body, hsplit, identifier, hname, docs, hdocs, rfl, rfl⟩ := h
    obtain ⟨hrest, hbody⟩ := splitAt_eq_some hsplit
    have hcut := (cutByte_eq_some.mp hname).1
    have hflat := consumes_readDocuments hdocs
    have hsize : length.1 = identifier.1.length + 5 + docs.1.flatten.length := by
      rw [hcut, hflat, List.length_append, List.length_cons] at hbody
      omega
    simp only
    rw [← hsize, i32_ofNat hlt, hsrc, hrest, hcut, hflat]
    simp [cString]

/-- The plain driver reads nothing but the layout. -/
theorem exact_plainDriver : plainDriver.Exact where
  header := consumes_readHeader
  msgFlags := consumes_readu32
  msgChecksum := consumes_readu32
  msgSectionType := by
    intro src t rest h
    cases src with
    | nil => cases h
    | cons b src =>
      cases h
      rfl
  msgSectionSingleDocument := fun _ _ _ h => (readDocument_eq_some h).1
  msgSectionDocumentSequence := consumes_readSequence

theorem Driver.Exact.progress {d : Driver} (hd : d.Exact) : d.Progress where
  sectionType := by
    intro wm t rest h
    simp [hd.msgSectionType wm t rest h]
  checksum := by
    intro wm c rest _ h
    have hfour : (u32 c).length = 4 := rfl
    simp only [hd.msgChecksum wm c rest h, List.length_append]
    omega
  single := by
    intro wm doc rest h
    simp [hd.msgSectionSingleDocument wm doc rest h]
  sequence := by
    intro wm s rest h
    simp only [hd.msgSectionDocumentSequence wm s rest h, List.length_append]
    omega

theorem decodeSections_of_le_plainDriver : decodeSections plainDriver true 9 [0, 5, 0, 0, 0, 0] [] 0 =
    decodeSections plainDriver true 6 [0, 5, 0, 0, 0, 0] [] 0 :=
  decodeSections_of_le plainDriver exact_plainDriver.progress true 9 _ [] 0 (by decide)

namespace Sample

/-- An `OP_MSG` with an empty document whose flags announce a checksum. -/
def announcedMsg (checksum : UInt32) : OpMsg where
  reqID := 9
  flags := checksumPresent
  sections := [.single (Bson.document [])]
  checksum

def announcedMessage (tail : Bytes) : Bytes :=
  message 9 0 2013 (u32 checksumPresent ++ [0] ++ Bson.document [] ++ tail)

def announcedHeader (tail : Bytes) : Header where
  length := Int32.ofNat (26 + tail.length)
  requestID := 9
  responseTo := 0
  opCode := 2013

end Sample

open Sample

/-- A message with the checksum its flags announce comes back as it was. -/
theorem reencode_with_checksum :
    decode plainDriver (announcedMessage (u32 0xCAFE)) = .ok (.msg (announcedMsg 0xCAFE)) ∧
      SameButIds (announcedMessage (u32 0xCAFE))
        ((Operation.msg (announcedMsg 0xCAFE)).encode plainAppender 7) := by
  have hdecode : decode plainDriver (announcedMessage (u32 0xCAFE)) =
      .ok (.msg (announcedMsg 0xCAFE)) := by decide +kernel
  have hheader : plainDriver.readHeader (announcedMessage (u32 0xCAFE)) =
      some (announcedHeader (u32 0xCAFE), (announcedMessage (u32 0xCAFE)).drop 16) := by
    decide +kernel
  obtain ⟨m, hm, hiff⟩ := reencode_iff exact_plainDriver layout_plainAppender hheader rfl
    (by decide +kernel) hdecode 7
  cases hm
  exact ⟨hdecode, hiff.mpr fun _ => by decide +kernel⟩

/-- **A checksum out of nothing.** A message whose flags announce a checksum and that ends after its
sections is accepted, and is encoded with four bytes more. -/
theorem reencode_without_checksum :
    plainDriver.readHeader (announcedMessage []) =
        some (announcedHeader [], (announcedMessage []).drop 16) ∧
      (announcedHeader []).opCode = 2013 ∧
      (announcedHeader []).length.toInt = (announcedMessage []).length ∧
      decode plainDriver (announcedMessage []) = .ok (.msg (announcedMsg 0)) ∧
      ((Operation.msg (announcedMsg 0)).encode plainAppender 0).length =
        (announcedMessage []).length + 4 := by
  decide +kernel

end MongoBouncer
