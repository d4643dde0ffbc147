import Mathlib.Data.Bool.AllAny
import MongoBouncer.GoStd.RegexpWords
import MongoBouncer.Proxy.DatabaseName

/-!
# Routing and user data

A message that does not name its database is routed by a name that is found in its printed text,
and the text has the contents of the message: its queries, its documents, or its raw bytes.

* `namespaceDatabase` : the database that the namespace fields of a message name;
* `SameButPayload`    : two messages that differ in their contents only;
* `Operation.head`    : the printed text before the contents.

Principal result: `routing_ignores_payload_iff`.
-/

namespace MongoBouncer

open GoStd

section

variable (d : Driver)

/-- The database that the namespace fields name: the part of the collection name before the first
dot, or the database of the operation. -/
def namespaceDatabase (op : Operation) : GoString :=
  let collection := (op.commandAndCollection d).2
  let fromCollection := if collection ≠ [] then (parseCollectionName collection).database else []
  if fromCollection = [] then op.databaseName d else fromCollection

/-- Two operations with the same opcode and the same namespace fields that differ in their payload
only. -/
inductive SameButPayload : Operation → Operation → Prop where
  | unknown (o : OpUnknown) (wm : Bytes) : SameButPayload (.unknown o) (.unknown { o with wm })
  | query (q : OpQuery) (query returnFieldsSelector : Document) :
      SameButPayload (.query q) (.query { q with query, returnFieldsSelector })
  | msg (m : OpMsg) (sections : List OpMsgSection) (checksum : UInt32)
      (hdb : (Operation.msg { m with sections, checksum }).databaseName d =
        (Operation.msg m).databaseName d)
      (hcommand : (Operation.msg { m with sections, checksum }).commandAndCollection d =
        (Operation.msg m).commandAndCollection d) :
      SameButPayload (.msg m) (.msg { m with sections, checksum })
  | reply (r : OpReply) (documents : List Document) :
      SameButPayload (.reply r) (.reply { r with documents })
  | getMore (g : OpGetMore) : SameButPayload (.getMore g) (.getMore g)
  | update (u : OpUpdate) (selector update : Document) :
      SameButPayload (.update u) (.update { u with selector, update })
  | insert (i : OpInsert) (documents : List Document) :
      SameButPayload (.insert i) (.insert { i with documents })
  | delete (e : OpDelete) (selector : Document) :
      SameButPayload (.delete e) (.delete { e with selector })
  | killCursors (k : OpKillCursors) : SameButPayload (.killCursors k) (.killCursors k)

/-- The printed text before the payload and a blank, if the operation has a payload. -/
def Operation.head : Operation → Option GoString
  | .unknown o => some (lit "\x7b OpUnknown opCode: " ++ showInt32 o.opCode ++ lit ", wm:")
  | .query q =>
    some (lit "\x7b OpQuery flags: " ++ d.queryFlagString q.flags ++ lit ", fullCollectionName: " ++
      q.fullCollectionName ++ lit ", numberToSkip: " ++ showInt32 q.numberToSkip ++
      lit ", numberToReturn: " ++ showInt32 q.numberToReturn ++ lit ", query:")
  | .msg m => some (lit "\x7b OpMsg flags: " ++ decimal m.flags.toNat ++ lit ", sections:")
  | .reply r =>
    some (lit "\x7b OpReply flags: " ++ showInt32 r.flags ++ lit ", cursorID: " ++
      showInt64 r.cursorID ++ lit ", startingFrom: " ++ showInt32 r.startingFrom ++
      lit ", numReturned: " ++ showInt32 r.numReturned ++ lit ", documents:")
  | .getMore _ => none
  | .update u =>
    some (lit "\x7b OpQuery fullCollectionName: " ++ u.fullCollectionName ++ lit ", flags: " ++
      showInt32 u.flags ++ lit ", selector:")
  | .insert i =>
    some (lit "\x7b OpInsert flags: " ++ showInt32 i.flags ++ lit ", fullCollectionName: " ++
      i.fullCollectionName ++ lit ", documents:")
  | .delete e =>
    some (lit "\x7b OpDelete fullCollectionName: " ++ e.fullCollectionName ++ lit ", flags: " ++
      showInt32 e.flags ++ lit ", selector:")
  | .killCursors _ => none

/-- The printed text of the payload and what follows it. -/
def Operation.payload : Operation → GoString
  | .unknown o => o.wm ++ lit " \x7d"
  | .query q =>
    d.documentString q.query ++ lit ", returnFieldsSelector: " ++
      d.documentString q.returnFieldsSelector ++ lit " \x7d"
  | .msg m =>
    lit "[" ++ (lit ", ").intercalate (m.sections.map (·.string d)) ++ lit "], checksum: " ++
      decimal m.checksum.toNat ++ lit " \x7d"
  | .reply r => lit "[" ++ showDocuments d r.documents ++ lit "] \x7d"
  | .update u =>
    d.documentString u.selector ++ lit ", update: " ++ d.documentString u.update ++ lit " \x7d"
  | .insert i => showDocuments d i.documents ++ lit " \x7d"
  | .delete e => d.documentString e.selector ++ lit " \x7d"
  | .getMore _ => []
  | .killCursors _ => []

end

section

variable {d : Driver} {op op' : Operation}

theorem ownDatabaseName_eq (d : Driver) (op : Operation) : ownDatabaseName d op =
      if namespaceDatabase d op = [] then databaseInString (op.string d)
      else namespaceDatabase d op :=
  rfl

theorem SameButPayload.namespaceDatabase (h : SameButPayload d op op') :
    namespaceDatabase d op' = MongoBouncer.namespaceDatabase d op := by
  cases h with
  | msg m sections checksum hdb hcommand =>
    unfold MongoBouncer.namespaceDatabase
    rw [hdb, hcommand]
  | _ => rfl

theorem SameButPayload.head (h : SameButPayload d op op') : op'.head d = op.head d := by
  cases h with
  | _ => rfl

variable {head s name : GoString}

theorem Operation.string_of_head (h : op.head d = some head) :
    op.string d = head ++ 0x20 :: op.payload d := by
  cases op with
  | getMore g => cases h
  | killCursors k => cases h
  | unknown o =>
    have hblank : lit ", wm: " = lit ", wm:" ++ [0x20] := by decide
    cases h
    simp [string, payload, hblank]
  | query q =>
    have hblank : lit ", query: " = lit ", query:" ++ [0x20] := by decide
    cases h
    simp [string, payload, hblank]
  | msg m =>
    have hblank : lit ", sections: [" = lit ", sections:" ++ 0x20 :: lit "[" := by decide
    cases h
    simp [string, payload, hblank]
  | reply r =>
    have hblank : lit ", documents: [" = lit ", documents:" ++ 0x20 :: lit "[" := by decide
    cases h
    simp [string, payload, hblank]
  | update | delete =>
    have hblank : lit ", selector: " = lit ", selector:" ++ [0x20] := by decide
    cases h
    simp [string, payload, hblank]
  | insert i =>
    have hblank : lit ", documents: " = lit ", documents:" ++ [0x20] := by decide
    cases h
    simp [string, payload, hblank]

/-! ## The first name that is looked for -/

/-- The first of the names that are looked for. -/
def sustainedPattern : GoString := lit "sustained_db_\\d+"

/-- The expression of that name. -/
def sustained : Regexp := (Regexp.compile sustainedPattern).getD .empty

theorem sustained_spec :
    Regexp.compile sustainedPattern = some sustained ∧ sustained.Inside ' ' = true ∧
      sustained.Inside '"' = true ∧ sustained.nullable = false ∧ sustained.needs '_' = true := by
  decide +kernel

theorem findPattern_sustained (s : GoString) :
    findPattern s sustainedPattern = (sustained.find s).getD [] := by
  rw [findPattern, sustained_spec.1]
  rfl

theorem databaseInString_of_sustained {m : GoString} (h : sustained.find s = some m) :
    databaseInString s = m := by
  have hm : m ≠ [] := Regexp.ne_nil_of_find sustained_spec.2.1 sustained_spec.2.2.2.1 h
  have hfind : findPattern s sustainedPattern = m := by
    rw [findPattern_sustained, h]
    rfl
  have hfirst : databasePatterns = sustainedPattern :: databasePatterns.tail := rfl
  rw [databaseInString, hfirst, List.map_cons, List.find?_cons_of_pos (by simpa [hfind] using hm)]
  exact hfind

theorem find_sustained_eq_none (h : 0x5F ∉ s) : sustained.find s = none := by
  refine Regexp.find_eq_none_of_needs sustained_spec.2.1 sustained_spec.2.2.2.1
    sustained_spec.2.2.2.2 (by decide) ?_
  intro hsub
  exact h (hsub (by decide))

theorem find_sustained_blank (u v : GoString) :
    sustained.find (u ++ 0x20 :: v) = (sustained.find u).or (sustained.find v) :=
  Regexp.find_append sustained_spec.2.1 sustained_spec.2.2.2.1 u v

theorem find_sustained_quote (u v : GoString) :
    sustained.find (u ++ 0x22 :: v) = (sustained.find u).or (sustained.find v) :=
  Regexp.find_append sustained_spec.2.2.1 sustained_spec.2.2.2.1 u v

theorem databaseInString_quoted {u : GoString} (hhead : sustained.find head = none)
    (hu : 0x5F ∉ u) (hname : sustained.find name = some name) (v : GoString) :
    databaseInString (head ++ 0x20 :: (u ++ 0x22 :: (name ++ 0x22 :: v))) = name := by
  apply databaseInString_of_sustained
  rw [find_sustained_blank, hhead, find_sustained_quote, find_sustained_eq_none hu,
    find_sustained_quote, hname]
  rfl

/-! ## Steering -/

/-- Some document is printed with a given name, in quotes and with no underscore before it. -/
def Driver.PrintsNames (d : Driver) : Prop :=
  ∀ name : GoString, (∀ b ∈ name, Regexp.isWord (Char.ofNat b.toNat) = true) →
    ∃ doc u v, d.documentString doc = u ++ 0x22 :: (name ++ 0x22 :: v) ∧ 0x5F ∉ u

theorem intercalate_cons {α : Type} (sep x : List α) (xs : List (List α)) :
    ∃ rest, sep.intercalate (x :: xs) = x ++ rest := by
  cases xs with
  | nil => exact ⟨[], by simp⟩
  | cons y ys => exact ⟨sep ++ sep.intercalate (y :: ys), by simp [List.intercalate]⟩

/-- A payload that starts with a printed document, apart from text without underscores. -/
def StartsWith (d : Driver) (op : Operation) (printed : GoString) : Prop :=
  ∃ before rest, op.payload d = before ++ (printed ++ rest) ∧ 0x5F ∉ before

/-- Documents can be put in front of the payload, and raw bytes as they are. -/
theorem exists_startsWith (hhead : op.head d = some head) (doc : Document) (raw : Bytes) :
    ∃ op', SameButPayload d op op' ∧
      (StartsWith d op' (d.documentString doc) ∨ StartsWith d op' raw) := by
  have hbracket : (0x5F : UInt8) ∉ lit "[" := by decide
  cases op with
  | getMore g => cases hhead
  | killCursors k => cases hhead
  | unknown o =>
    refine ⟨_, .unknown o raw, Or.inr ⟨[], lit " \x7d", rfl, List.not_mem_nil⟩⟩
  | query q =>
    refine ⟨_, .query q doc doc, Or.inl ⟨[], lit ", returnFieldsSelector: " ++
      d.documentString doc ++ lit " \x7d", ?_, List.not_mem_nil⟩⟩
    simp [Operation.payload]
  | msg m =>
    obtain ⟨rest, hrest⟩ := intercalate_cons (lit ", ")
      (OpMsgSection.string d (.sequence (lit "documents") [doc])) (m.sections.map (·.string d))
    refine ⟨_, .msg m (.sequence (lit "documents") [doc] :: m.sections) m.checksum rfl rfl,
      Or.inl ⟨lit "[\x7b SectionSingle identifier: documents, msgs: [", lit "] \x7d" ++ rest ++
        lit "], checksum: " ++ decimal m.checksum.toNat ++ lit " \x7d", ?_, by decide⟩⟩
    have hopen : lit "[\x7b SectionSingle identifier: documents, msgs: [" =
        lit "[" ++ lit "\x7b SectionSingle identifier: " ++ lit "documents" ++ lit ", msgs: [" := by
      decide
    rw [Operation.payload, List.map_cons, hrest, hopen]
    simp [OpMsgSection.string]
  | reply r =>
    refine ⟨_, .reply r [doc], Or.inl ⟨lit "[", lit "] \x7d", ?_, hbracket⟩⟩
    simp [Operation.payload, Operation.showDocuments]
  | update u =>
    refine ⟨_, .update u doc doc, Or.inl ⟨[], lit ", update: " ++ d.documentString doc ++
      lit " \x7d", ?_, List.not_mem_nil⟩⟩
    simp [Operation.payload]
  | insert i =>
    refine ⟨_, .insert i [doc], Or.inl ⟨[], lit " \x7d", ?_, List.not_mem_nil⟩⟩
    simp [Operation.payload, Operation.showDocuments]
  | delete e =>
    exact ⟨_, .delete e doc, Or.inl ⟨[], lit " \x7d", rfl, List.not_mem_nil⟩⟩

/-- A message whose head has no name of the first kind can be given any such name. -/
theorem exists_steered (hd : d.PrintsNames) (hhead : op.head d = some head)
    (hnone : sustained.find head = none)
    (hword : ∀ b ∈ name, Regexp.isWord (Char.ofNat b.toNat) = true)
    (hname : sustained.find name = some name) :
    ∃ op', SameButPayload d op op' ∧ databaseInString (op'.string d) = name := by
  obtain ⟨doc, u, v, hdoc, hu⟩ := hd name hword
  obtain ⟨op', hsame, hstarts⟩ := exists_startsWith hhead doc (0x22 :: (name ++ [0x22]))
  have hstring := Operation.string_of_head (hsame.head.trans hhead)
  refine ⟨op', hsame, ?_⟩
  rcases hstarts with ⟨before, rest, hpayload, hbefore⟩ | ⟨before, rest, hpayload, hbefore⟩
  · have htext : op'.string d =
        head ++ 0x20 :: ((before ++ u) ++ 0x22 :: (name ++ 0x22 :: (v ++ rest))) := by
      rw [hstring, hpayload, hdoc]
      simp
    have hbefore' : 0x5F ∉ before ++ u := by
      rw [List.mem_append]
      exact not_or.mpr ⟨hbefore, hu⟩
    rw [htext]
    exact databaseInString_quoted hnone hbefore' hname _
  · have htext : op'.string d = head ++ 0x20 :: (before ++ 0x22 :: (name ++ 0x22 :: rest)) := by
      rw [hstring, hpayload]
      simp
    rw [htext]
    exact databaseInString_quoted hnone hbefore hname _

theorem extractDatabaseName_of_text (c : Connection)
    (hnone : namespaceDatabase d op = []) (htext : databaseInString (op.string d) = name)
    (hne : name ≠ []) : (extractDatabaseName d c op).1 = normalizeDatabaseName name := by
  have hown : ownDatabaseName d op = name := by rw [ownDatabaseName_eq, if_pos hnone, htext]
  rw [extractDatabaseName_of_own (by rw [hown]; exact hne), hown]

theorem extractDatabaseName_of_namespace (c : Connection) (h : namespaceDatabase d op ≠ []) :
    (extractDatabaseName d c op).1 = normalizeDatabaseName (namespaceDatabase d op) := by
  have hown : ownDatabaseName d op = namespaceDatabase d op := by rw [ownDatabaseName_eq, if_neg h]
  rw [extractDatabaseName_of_own (by rw [hown]; exact h), hown]

theorem databaseInString_of_head {m : GoString} (hhead : op.head d = some head)
    (hm : sustained.find head = some m) : databaseInString (op.string d) = m := by
  apply databaseInString_of_sustained
  rw [Operation.string_of_head hhead, find_sustained_blank, hm]
  rfl

theorem find_sustained_of_findPattern :
    findPattern s sustainedPattern = [] ↔ sustained.find s = none := by
  rw [findPattern_sustained]
  cases h : sustained.find s with
  | none => simp
  | some m =>
    simpa using Regexp.ne_nil_of_find sustained_spec.2.1 sustained_spec.2.2.2.1 h

theorem SameButPayload.eq_of_no_head (h : SameButPayload d op op') (hhead : op.head d = none) :
    op' = op := by
  cases h with
  | getMore g => rfl
  | killCursors k => rfl
  | _ => cases hhead

/-- **Routing does not depend on the payload if, and only if,** the namespace fields name a
database, or the operation has no payload, or the text before the payload has a name of the first
kind that is looked for. -/
theorem routing_ignores_payload_iff (hd : d.PrintsNames) (c : Connection) (op : Operation) :
    (∀ op', SameButPayload d op op' →
      (extractDatabaseName d c op').1 = (extractDatabaseName d c op).1) ↔
    namespaceDatabase d op ≠ [] ∨
      ∀ head, op.head d = some head → findPattern head (lit "sustained_db_\\d+") ≠ [] := by
  by_cases hns : namespaceDatabase d op = []
  · constructor
    · intro h
      refine Or.inr fun head hhead hnone => ?_
      -- two payloads with different names
      have hnone' := find_sustained_of_findPattern.mp hnone
      have hnames : sustained.find (lit "sustained_db_1") = some (lit "sustained_db_1") ∧
          sustained.find (lit "sustained_db_2") = some (lit "sustained_db_2") ∧
          normalizeDatabaseName (lit "sustained_db_1") ≠
            normalizeDatabaseName (lit "sustained_db_2") := by
        decide +kernel
      obtain ⟨op₁, hsame₁, htext₁⟩ :=
        exists_steered hd hhead hnone' (List.all_iff_forall_prop.mp (by decide)) hnames.1
      obtain ⟨op₂, hsame₂, htext₂⟩ :=
        exists_steered hd hhead hnone' (List.all_iff_forall_prop.mp (by decide)) hnames.2.1
      have hname₁ := extractDatabaseName_of_text c (hsame₁.namespaceDatabase.trans hns) htext₁
        (by decide)
      have hname₂ := extractDatabaseName_of_text c (hsame₂.namespaceDatabase.trans hns) htext₂
        (by decide)
      apply hnames.2.2
      rw [← hname₁, ← hname₂, h op₁ hsame₁, h op₂ hsame₂]
    · intro h op' hsame
      have h' := h.resolve_left (not_not.mpr hns)
      cases hhead : op.head d with
      | none => rw [hsame.eq_of_no_head hhead]
      | some head =>
        have hfound := h' head hhead
        obtain ⟨m, hm⟩ := Option.ne_none_iff_exists'.mp
          (mt find_sustained_of_findPattern.mpr hfound)
        have hne : m ≠ [] := Regexp.ne_nil_of_find sustained_spec.2.1 sustained_spec.2.2.2.1 hm
        rw [extractDatabaseName_of_text c hns (databaseInString_of_head hhead hm) hne,
          extractDatabaseName_of_text c (hsame.namespaceDatabase.trans hns)
            (databaseInString_of_head (hsame.head.trans hhead) hm) hne]
  · refine iff_of_true ?_ (Or.inl hns)
    intro op' hsame
    have hns' : namespaceDatabase d op' ≠ [] := by
      rw [hsame.namespaceDatabase]
      exact hns
    rw [extractDatabaseName_of_namespace c hns, extractDatabaseName_of_namespace c hns',
      hsame.namespaceDatabase]

end

/-! ### Two messages -/

theorem plainDriver_printsNames : plainDriver.PrintsNames := by
  intro name _
  exact ⟨0x22 :: (name ++ [0x22]), [], [], rfl, List.not_mem_nil⟩

theorem routing_ignores_payload_findUsers :
    namespaceDatabase plainDriver (.msg (.ofDocument findUsers)) = lit "Shop" ∧
    ∀ op', SameButPayload plainDriver (.msg (.ofDocument findUsers)) op' →
      (extractDatabaseName plainDriver (.new (lit "10.0.0.7:5000")) op').1 =
        (extractDatabaseName plainDriver (.new (lit "10.0.0.7:5000"))
          (.msg (.ofDocument findUsers))).1 := by
  have hns : namespaceDatabase plainDriver (.msg (.ofDocument findUsers)) = lit "Shop" := by
    decide +kernel
  refine ⟨hns, (routing_ignores_payload_iff plainDriver_printsNames _ _).mpr (Or.inl ?_)⟩
  rw [hns]
  decide

/-- A message of an unknown opcode with some bytes. -/
def rawMessage (text : String) : Operation := .unknown ⟨2012, 7, lit text⟩

/-- Messages of an unknown opcode are routed by what their bytes spell. -/
theorem rawMessage_steers :
    SameButPayload plainDriver (rawMessage "\"test_db_1\"") (rawMessage "\"test_db_2\"") ∧
    (extractDatabaseName plainDriver (.new (lit "10.0.0.7:5000"))
      (rawMessage "\"test_db_1\"")).1 = lit "test_db_1" ∧
    (extractDatabaseName plainDriver (.new (lit "10.0.0.7:5000"))
      (rawMessage "\"test_db_2\"")).1 = lit "test_db_2" := by
  refine ⟨.unknown _ _, ?_⟩
  decide +kernel

end MongoBouncer
