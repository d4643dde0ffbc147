import Mathlib.Data.Bool.AllAny
import MongoBouncer.Proxy.Connection
import MongoBouncer.Wire.ExtendedJson

/-!
# Where the application name is looked for

The handshake's application name is the field `client.application.name` of the command document. The
proxy does not look it up: it prints the whole message and takes what stands between the first
`"name": "` and the next quote. That is the name of whatever comes first, the driver or the operating
system as well as the application, and it is cut at the first quote that the printing escaped.

* `Piece`, `Operation.pieces` : a printed operation as texts and documents;
* `Driver.Printing.found`     : what the search finds, piece by piece;
* `Operation.IsCommand`       : the command documents of an operation.

Principal results: `quotedAfterName_pieces` and `extractAppName_iff`.
-/

namespace MongoBouncer

open GoStd

/-! ## The pieces of a printed operation -/

/-- A part of a printed operation. -/
inductive Piece where
  | raw (text : GoString)
  | document (doc : Document)
  deriving DecidableEq, Repr

def Piece.text (d : Driver) : Piece → GoString
  | .raw text => text
  | .document doc => d.documentString doc

def piecesText (d : Driver) (ps : List Piece) : GoString := ps.flatMap (Piece.text d)

/-- The parts of a section. -/
def OpMsgSection.pieces : OpMsgSection → List Piece
  | single msg => [.raw (lit "\x7b SectionSingle msg: "), .document msg, .raw (lit " \x7d")]
  | sequence identifier msgs =>
    .raw (lit "\x7b SectionSingle identifier: " ++ identifier ++ lit ", msgs: [") ::
      ([.raw (lit ", ")].intercalate (msgs.map fun msg => [.document msg]) ++ [.raw (lit "] \x7d")])

namespace Operation

/-- The parts of an operation; those of operations that carry no command are not told apart. -/
def pieces (d : Driver) : Operation → List Piece
  | query q =>
    [.raw (lit "\x7b OpQuery flags: " ++ d.queryFlagString q.flags ++ lit ", fullCollectionName: " ++
        q.fullCollectionName ++ lit ", numberToSkip: " ++ showInt32 q.numberToSkip ++
        lit ", numberToReturn: " ++ showInt32 q.numberToReturn ++ lit ", query: "),
      .document q.query, .raw (lit ", returnFieldsSelector: "), .document q.returnFieldsSelector,
      .raw (lit " \x7d")]
  | msg m =>
    .raw (lit "\x7b OpMsg flags: " ++ decimal m.flags.toNat ++ lit ", sections: [") ::
      ([.raw (lit ", ")].intercalate (m.sections.map OpMsgSection.pieces) ++
        [.raw (lit "], checksum: " ++ decimal m.checksum.toNat ++ lit " \x7d")])
  | op => [.raw (op.string d)]

/-- The document is a command document of the operation. -/
def IsCommand (doc : Document) : Operation → Prop
  | query q => doc = q.query
  | msg m => .single doc ∈ m.sections
  | _ => False

end Operation

section Text

variable (d : Driver)

theorem piecesText_append (ps qs : List Piece) :
    piecesText d (ps ++ qs) = piecesText d ps ++ piecesText d qs :=
  List.flatMap_append

theorem piecesText_intercalate (sep : List Piece) (l : List (List Piece)) :
    piecesText d (sep.intercalate l) = (piecesText d sep).intercalate (l.map (piecesText d)) := by
  induction l with
  | nil => rfl
  | cons ps l ih =>
    cases l with
    | nil => simp [List.intercalate_singleton]
    | cons qs l =>
      rw [List.intercalate_cons_cons, piecesText_append, piecesText_append, ih]
      simp only [List.map_cons, List.intercalate_cons_cons]

theorem piecesText_cons_raw (text : GoString) (ps : List Piece) :
    piecesText d (.raw text :: ps) = text ++ piecesText d ps := rfl

theorem piecesText_singleton (p : Piece) : piecesText d [p] = p.text d := by
  simp [piecesText]

theorem piecesText_section (s : OpMsgSection) : piecesText d s.pieces = s.string d := by
  cases s with
  | single msg => simp [OpMsgSection.pieces, OpMsgSection.string, piecesText, Piece.text]
  | sequence identifier msgs =>
    have hdocs : (msgs.map fun msg => [Piece.document msg]).map (piecesText d) =
        msgs.map d.documentString := by
      rw [List.map_map]
      refine List.map_congr_left ?_
      intro msg _
      exact piecesText_singleton d (.document msg)
    rw [OpMsgSection.pieces, piecesText_cons_raw, piecesText_append, piecesText_intercalate, hdocs]
    simp [OpMsgSection.string, piecesText_singleton, Piece.text]

theorem piecesText_operation (op : Operation) : piecesText d (op.pieces d) = op.string d := by
  cases op with
  | query q => simp [Operation.pieces, Operation.string, piecesText, Piece.text]
  | msg m =>
    have hsections : (m.sections.map OpMsgSection.pieces).map (piecesText d) =
        m.sections.map (·.string d) := by
      rw [List.map_map]
      refine List.map_congr_left ?_
      intro s _
      exact piecesText_section d s
    rw [Operation.pieces, piecesText_cons_raw, piecesText_append, piecesText_intercalate, hsections]
    simp [Operation.string, piecesText_singleton, Piece.text]
  | _ => exact piecesText_singleton d _

theorem infix_piecesText {p : Piece} {ps : List Piece} (h : p ∈ ps) :
    p.text d <:+: piecesText d ps := by
  obtain ⟨before, rest, rfl⟩ := List.append_of_mem h
  exact ⟨piecesText d before, piecesText d rest, by simp [piecesText]⟩

theorem mem_intercalate_of_mem {α : Type} {sep : List α} {ls : List (List α)} {l : List α} {x : α}
    (hl : l ∈ ls) (hx : x ∈ l) : x ∈ sep.intercalate ls := by
  induction ls with
  | nil => cases hl
  | cons a ls ih =>
    cases ls with
    | nil =>
      rw [List.mem_singleton.mp hl] at hx
      rwa [List.intercalate_singleton]
    | cons b ls =>
      rw [List.intercalate_cons_cons]
      rcases List.mem_cons.mp hl with rfl | hl
      · exact List.mem_append_left _ (List.mem_append_left _ hx)
      · exact List.mem_append_right _ (ih hl)

theorem mem_of_mem_intercalate {α : Type} {sep : List α} {ls : List (List α)} {x : α}
    (h : x ∈ sep.intercalate ls) : x ∈ sep ∨ ∃ l ∈ ls, x ∈ l := by
  induction ls with
  | nil => cases h
  | cons a ls ih =>
    cases ls with
    | nil =>
      rw [List.intercalate_singleton] at h
      exact Or.inr ⟨a, List.mem_singleton_self a, h⟩
    | cons b ls =>
      rw [List.intercalate_cons_cons, List.mem_append, List.mem_append] at h
      rcases h with (h | h) | h
      · exact Or.inr ⟨a, List.mem_cons_self, h⟩
      · exact Or.inl h
      · rcases ih h with h | ⟨l, hl, hx⟩
        · exact Or.inl h
        · exact Or.inr ⟨l, List.mem_cons_of_mem _ hl, hx⟩

theorem mem_pieces_of_isCommand {op : Operation} {doc : Document} (h : op.IsCommand doc) :
    .document doc ∈ op.pieces d := by
  cases op with
  | query q =>
    cases h
    simp [Operation.pieces]
  | msg m =>
    have hpart : Piece.document doc ∈ (OpMsgSection.single doc).pieces := by
      simp [OpMsgSection.pieces]
    have hmem : .document doc ∈ [Piece.raw (lit ", ")].intercalate
        (m.sections.map OpMsgSection.pieces) :=
      mem_intercalate_of_mem (List.mem_map_of_mem h) hpart
    exact List.mem_cons_of_mem _ (List.mem_append_left _ hmem)
  | _ => cases h

end Text

/-! ## No text of an operation ends in the beginning of the key -/

theorem finished_of_no_quote {text : GoString} (h : 0x22 ∉ text) : Finished text :=
  (clean_of_no_quote h).finished

theorem finished_of_mem_section {s : OpMsgSection} {text : GoString} (h : .raw text ∈ s.pieces) :
    Finished text := by
  cases s with
  | single msg =>
    simp only [OpMsgSection.pieces, List.mem_cons, Piece.raw.injEq, reduceCtorEq, false_or,
      List.not_mem_nil, or_false] at h
    rcases h with rfl | rfl
    · exact finished_of_no_quote (by decide)
    · exact finished_of_no_quote (by decide)
  | sequence identifier msgs =>
    rw [OpMsgSection.pieces, List.mem_cons, List.mem_append] at h
    rcases h with h | h | h
    · cases h
      have hopen : lit ", msgs: [" = lit ", msgs: " ++ [0x5B] := by decide
      rw [hopen, ← List.append_assoc]
      exact finished_append (by decide) List.not_mem_nil
    · rcases mem_of_mem_intercalate h with h | ⟨l, hl, h⟩
      · cases List.mem_singleton.mp h
        exact finished_of_no_quote (by decide)
      · obtain ⟨msg, -, rfl⟩ := List.mem_map.mp hl
        cases List.mem_singleton.mp h
    · cases List.mem_singleton.mp h
      exact finished_of_no_quote (by decide)

theorem quote_not_mem_decimal (n : Nat) : 0x22 ∉ decimal n := by
  intro h
  exact absurd (digit_of_mem_decimal h).1 (by decide)

theorem finished_of_mem_pieces (d : Driver) {op : Operation} {doc : Document}
    (hop : op.IsCommand doc) {text : GoString} (h : .raw text ∈ op.pieces d) : Finished text := by
  cases op with
  | query q =>
    simp only [Operation.pieces, List.mem_cons, Piece.raw.injEq, reduceCtorEq, false_or,
      List.not_mem_nil, or_false] at h
    rcases h with rfl | rfl | rfl
    · -- the comma before the last field is not in the key
      have hlast : lit ", query: " = 0x2C :: lit " query: " := by decide
      rw [hlast]
      exact finished_append (by decide) (by decide)
    · exact finished_of_no_quote (by decide)
    · exact finished_of_no_quote (by decide)
  | msg m =>
    rw [Operation.pieces, List.mem_cons, List.mem_append] at h
    rcases h with h | h | h
    · cases h
      refine finished_of_no_quote ?_
      simp only [List.mem_append, not_or]
      exact ⟨⟨by decide, quote_not_mem_decimal _⟩, by decide⟩
    · rcases mem_of_mem_intercalate h with h | ⟨l, hl, h⟩
      · cases List.mem_singleton.mp h
        exact finished_of_no_quote (by decide)
      · obtain ⟨s, -, rfl⟩ := List.mem_map.mp hl
        exact finished_of_mem_section h
    · cases List.mem_singleton.mp h
      refine finished_of_no_quote ?_
      simp only [List.mem_append, not_or]
      exact ⟨⟨by decide, quote_not_mem_decimal _⟩, by decide⟩
  | _ => cases hop

/-! ## What the search finds -/

/-- What is between the first `"name": "` and the next quote, by the parts of a printed operation: a
text that holds the key itself is read on from there; of a document, the first string whose key ends
in `"name` is read, as it is printed, up to its first quote. -/
def Driver.Printing.found {d : Driver} (pr : d.Printing) : List Piece → Option GoString
  | [] => none
  | .raw text :: ps =>
    match after text nameKey with
    | some rest => (cutByte 0x22 (rest ++ piecesText d ps)).map Prod.fst
    | none => pr.found ps
  | .document doc :: ps =>
    (((pr.fields doc).bind (Fields.firstName pr.escaping)).map pr.escaping.quoted).or (pr.found ps)

section Found

variable {d : Driver} (pr : d.Printing) {ps : List Piece}

/-- **The search finds the first name of the parts.** -/
theorem quotedAfterName_pieces (h : ∀ text, .raw text ∈ ps → Finished text) :
    quotedAfterName (piecesText d ps) = pr.found ps := by
  induction ps with
  | nil => rfl
  | cons p ps ih =>
    have hrest := ih fun text hmem => h text (List.mem_cons_of_mem _ hmem)
    cases p with
    | raw text =>
      have hfinished := h text List.mem_cons_self
      rw [piecesText_cons_raw, quotedAfterName, after_append_of_finished hfinished,
        Driver.Printing.found]
      cases after text nameKey with
      | some w => rfl
      | none => exact hrest
    | document doc =>
      have htext : piecesText d (.document doc :: ps) = d.documentString doc ++ piecesText d ps := rfl
      rw [htext, pr.documentString, Driver.Printing.found]
      cases pr.fields doc with
      | none => exact hrest
      | some fields =>
        rw [Option.map_some, Option.getD_some, quotedAfterName_document, hrest]
        rfl

theorem exists_cutByte {c : UInt8} {s : GoString} (h : c ∈ s) :
    ((cutByte c s).map Prod.fst).isSome := by
  induction s with
  | nil => cases h
  | cons b s ih =>
    by_cases hb : b = c
    · simp [cutByte, hb]
    · have hmem : c ∈ s := (List.mem_cons.mp h).resolve_left (Ne.symm hb)
      have hs := ih hmem
      simp only [cutByte, if_neg hb, Option.isSome_map] at hs ⊢
      exact hs

theorem isSome_found {doc : Document} {fields : Fields} (hdoc : .document doc ∈ ps)
    (hfields : pr.fields doc = some fields) (hname : (fields.firstName pr.escaping).isSome)
    (hquote : 0x22 ∈ fields.text pr.escaping) : (pr.found ps).isSome := by
  induction ps with
  | nil => cases hdoc
  | cons p ps ih =>
    cases p with
    | raw text =>
      have hmem : .document doc ∈ ps := by simpa using hdoc
      rw [Driver.Printing.found]
      cases after text nameKey with
      | none => exact ih hmem
      | some w =>
        refine exists_cutByte (List.mem_append_right _ ?_)
        refine (infix_piecesText d hmem).subset ?_
        show 0x22 ∈ d.documentString doc
        rw [pr.documentString, hfields]
        exact (infix_document pr.escaping fields).subset hquote
    | document doc' =>
      rw [Driver.Printing.found, Option.isSome_or]
      rcases List.mem_cons.mp hdoc with heq | hmem
      · cases heq
        simp [hfields, hname]
      · simp [ih hmem]

end Found

def appNamePath : List GoString := [lit "client", lit "application", lit "name"]

theorem exists_of_lookup_appName {fields : Fields} {v : Json}
    (h : fields.lookup appNamePath = some v) :
    ∃ client application, fields.find (lit "client") = some (.document client) ∧
      client.find (lit "application") = some (.document application) ∧
      application.find (lit "name") = some v := by
  unfold appNamePath Fields.lookup at h
  split at h
  · rename_i client hclient
    unfold Fields.lookup at h
    split at h
    · rename_i application happlication
      exact ⟨client, application, hclient, happlication, h⟩
    · cases h
  · cases h

theorem extractAppName_eq {d : Driver} {op : Operation}
    (happlication : contains (op.string d) (lit "application") = true)
    (hname : contains (op.string d) (lit "name") = true) :
    extractAppNameFromMessage d op = (quotedAfterName (op.string d)).getD [] := by
  have hlength : (lit "\"name\": \"").length = 9 := by decide
  unfold extractAppNameFromMessage quotedAfterName after cut nameKey
  simp only [happlication, hname, Bool.and_self, if_true]
  cases index (op.string d) (lit "\"name\": \"") with
  | none => rfl
  | some start => simp [hlength]

/-- **What is taken for the application name.** On a message whose command document has the string
`s` as its `client.application.name`, the proxy takes `s` for the name if, and only if, that is what
its search finds first. -/
theorem extractAppName_iff {d : Driver} (pr : d.Printing) {op : Operation} {doc : Document}
    {fields : Fields} {s : GoString} (hop : op.IsCommand doc) (hfields : pr.fields doc = some fields)
    (hlookup : fields.lookup appNamePath = some (.string s)) :
    extractAppNameFromMessage d op = s ↔ pr.found (op.pieces d) = some s := by
  obtain ⟨client, application, hclient, happlication, hname⟩ := exists_of_lookup_appName hlookup
  have hmem := mem_pieces_of_isCommand d hop
  -- the two words are keys of the command document
  have hclientText : client.text pr.escaping <:+: fields.text pr.escaping :=
    (infix_document _ client).trans (infix_of_find hclient).2
  have hdocument : fields.text pr.escaping <:+: op.string d := by
    have hpart := infix_piecesText d hmem
    rw [piecesText_operation, Piece.text, pr.documentString, hfields] at hpart
    exact (infix_document _ fields).trans hpart
  have hword : contains (op.string d) (lit "application") = true := by
    have hkey := (infix_of_find (e := pr.escaping) happlication).1
    rw [pr.escaping.letters _ (List.all_iff_forall_prop.mp (by decide))] at hkey
    exact contains_iff.mpr ((hkey.trans hclientText).trans hdocument)
  have happlicationText : application.text pr.escaping <:+: client.text pr.escaping :=
    (infix_document _ application).trans (infix_of_find happlication).2
  have hword' : contains (op.string d) (lit "name") = true := by
    have hkey := (infix_of_find (e := pr.escaping) hname).1
    rw [pr.escaping.letters _ (List.all_iff_forall_prop.mp (by decide))] at hkey
    exact contains_iff.mpr (((hkey.trans happlicationText).trans hclientText).trans hdocument)
  -- and something is found
  have hfirst : (fields.firstName pr.escaping).isSome := by
    refine firstName_of_find hclient (Or.inl ?_)
    refine firstName_of_find happlication (Or.inl ?_)
    exact firstName_of_find hname (Or.inr ⟨endsInName_name _, rfl⟩)
  have hquote : 0x22 ∈ fields.text pr.escaping := by
    have hvalue := (infix_of_find (e := pr.escaping) hname).2
    refine ((hvalue.trans happlicationText).trans hclientText).subset ?_
    exact List.mem_cons_self
  obtain ⟨found, hfound⟩ := Option.isSome_iff_exists.mp (isSome_found pr hmem hfields hfirst hquote)
  have hsearch : quotedAfterName (op.string d) = pr.found (op.pieces d) := by
    rw [← piecesText_operation]
    exact quotedAfterName_pieces pr fun text h => finished_of_mem_pieces d hop h
  rw [extractAppName_eq hword hword', hsearch, hfound, Option.getD_some, Option.some.injEq]

/-! ### Two handshakes -/

/-- The document of a handshake whose client says the fields of itself. -/
def helloDocument (client : List (String × Value)) : Document :=
  Bson.document [("isMaster", .int32 1), ("$db", .string (lit "admin")),
    ("client", Bson.embedded client)]

def helloMessage (client : List (String × Value)) : Operation :=
  .msg { reqID := 7, flags := 0, sections := [.single (helloDocument client)], checksum := 0 }

/-- A client that names its application first. -/
def applicationFirst : List (String × Value) :=
  [("application", Bson.embedded [("name", .string (lit "shop:ann:secret"))]),
    ("driver", Bson.embedded [("name", .string (lit "nodejs"))])]

/-- The same client, with its driver first. -/
def driverFirst : List (String × Value) :=
  [("driver", Bson.embedded [("name", .string (lit "nodejs"))]),
    ("application", Bson.embedded [("name", .string (lit "shop:ann:secret"))])]

theorem extractAppName_applicationFirst :
    jsonPrinting.found ((helloMessage applicationFirst).pieces jsonDriver) =
        some (lit "shop:ann:secret") ∧
      extractAppNameFromMessage jsonDriver (helloMessage applicationFirst) =
        lit "shop:ann:secret" := by
  have hfound : jsonPrinting.found ((helloMessage applicationFirst).pieces jsonDriver) =
        some (lit "shop:ann:secret") ∧
      ((jsonPrinting.fields (helloDocument applicationFirst)).bind fun fields =>
        (fields.lookup appNamePath).bind Json.stringValue) = some (lit "shop:ann:secret") := by
    decide +kernel
  obtain ⟨fields, hfields, hvalue⟩ := Option.bind_eq_some_iff.mp hfound.2
  obtain ⟨v, hlookup, hstring⟩ := Option.bind_eq_some_iff.mp hvalue
  obtain rfl := string_of_stringValue hstring
  exact ⟨hfound.1,
    (extractAppName_iff jsonPrinting (List.mem_singleton_self _) hfields hlookup).mpr hfound.1⟩

/-- A handshake whose driver comes before the application is taken for one of the driver's name. -/
theorem driver_taken_for_application :
    Proxy.isHandshake jsonDriver (helloMessage driverFirst) = true ∧
    lookupString jsonDriver (helloDocument driverFirst) appNamePath = some (lit "shop:ann:secret") ∧
    extractAppNameFromMessage jsonDriver (helloMessage driverFirst) = lit "nodejs" := by
  decide +kernel

end MongoBouncer
