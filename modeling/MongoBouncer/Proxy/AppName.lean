import MongoBouncer.Proxy.Credentials

/-!
# The grammar of the application name

A client that has no other place for its credentials puts them in its application name, as
`database:username:password` or `database:username:password:authSource`. The parser splits the name,
folds the case of the database, tests for emptiness, trims and tests again. Here it is compared with
the grammar it stands for.

* `ColonFields`    : a string as fields with a colon between them;
* `HasText`        : a field that is not all white space;
* `AppNameGrammar` : an application name and the credentials that it spells.

Principal results: `parse_ok_iff`, that the parser accepts the grammar and nothing else, and
`parseAppNameCredentials_spec`, which adds what follows for user names and credential keys.
-/

namespace MongoBouncer

open GoStd

/-! ## ColonFields -/

/-- The string is the fields with a colon between every two of them. -/
structure ColonFields (s : GoString) (fields : List GoString) : Prop where
  nonempty : fields ≠ []
  plain : ∀ field ∈ fields, 0x3A ∉ field
  joined : s = [0x3A].intercalate fields

variable {s appName : GoString}

theorem splitByte_eq_iff {fields : List GoString} :
    splitByte 0x3A s = fields ↔ ColonFields s fields := by
  constructor
  · rintro rfl
    refine ⟨?_, fun field hmem => not_mem_of_mem_splitByte hmem, ?_⟩
    · exact List.splitOnP_ne_nil _ s
    · exact (List.intercalate_splitOn 0x3A).symm
  · rintro ⟨hne, hplain, rfl⟩
    exact List.splitOn_intercalate 0x3A hplain hne

/-- A character of the string is no white space. -/
def HasText (s : GoString) : Prop := ∃ c ∈ runes s, isSpace c = false

theorem hasText_iff : HasText s ↔ trimSpace s ≠ [] := trimSpace_ne_nil.symm

theorem HasText.ne_nil (h : HasText s) : s ≠ [] := by
  obtain ⟨c, hc, -⟩ := h
  intro hs
  rw [runes_eq_nil.mpr hs] at hc
  cases hc

theorem hasText_toLower : HasText (toLower s) ↔ HasText s := by
  rw [hasText_iff, hasText_iff, trimSpace_toLower, ne_eq, toLower_eq_nil]

/-! ## The grammar -/

/-- The authentication source that the fields after the password stand for. -/
def spelledAuthSource (database : GoString) : List GoString → GoString
  | [] => lit "admin"
  | field :: _ => if field = lit "use_db" then database else trimSpace field

/-- The application name spells the credentials: three fields with text, and at most one more. -/
def AppNameGrammar (appName : GoString) (creds : AppCredentials) : Prop :=
  ∃ database username password rest,
    ColonFields appName (database :: username :: password :: rest) ∧ rest.length ≤ 1 ∧
    HasText database ∧ HasText username ∧ HasText password ∧
    creds.database = toLower (trimSpace database) ∧
    creds.username = trimSpace username ∧
    creds.password = trimSpace password ∧
    creds.authSource = spelledAuthSource creds.database rest

/-- The two tests for emptiness, before and after trimming, are one test for text. -/
theorem parse_ok_iff_text {creds : AppCredentials} : parseAppNameCredentials appName = .ok creds ↔
      HasText (parseAppName appName).database ∧ HasText (parseAppName appName).username ∧
      HasText (parseAppName appName).password ∧
      creds = ⟨trimSpace (parseAppName appName).database, trimSpace (parseAppName appName).username,
        trimSpace (parseAppName appName).password, trimSpace (parseAppName appName).authSource⟩ := by
  generalize hinfo : parseAppName appName = info
  unfold parseAppNameCredentials
  rw [hinfo]
  simp only
  constructor
  · intro h
    split at h
    · split at h
      · cases h
      · rename_i hne
        cases h
        push Not at hne
        exact ⟨hasText_iff.mpr hne.1, hasText_iff.mpr hne.2.1, hasText_iff.mpr hne.2.2, rfl⟩
    · cases h
  · rintro ⟨hd, hu, hw, rfl⟩
    rw [if_pos ⟨hd.ne_nil, hu.ne_nil, hw.ne_nil⟩, if_neg]
    push Not
    exact ⟨hasText_iff.mp hd, hasText_iff.mp hu, hasText_iff.mp hw⟩

theorem parseAppName_of_fields {database username password : GoString}
    {rest : List GoString} (h : ColonFields appName (database :: username :: password :: rest))
    (hrest : rest.length ≤ 1) :
    (parseAppName appName).database = toLower database ∧
      (parseAppName appName).username = username ∧ (parseAppName appName).password = password ∧
      trimSpace (parseAppName appName).authSource =
        spelledAuthSource (toLower (trimSpace database)) rest := by
  have hsplit := splitByte_eq_iff.mpr h
  unfold parseAppName
  rw [hsplit]
  cases rest with
  | nil =>
    refine ⟨rfl, rfl, rfl, ?_⟩
    show trimSpace (lit "admin") = lit "admin"
    decide +kernel
  | cons field rest =>
    obtain rfl : rest = [] := List.length_eq_zero_iff.mp (by simpa using hrest)
    refine ⟨rfl, rfl, rfl, ?_⟩
    simp only [spelledAuthSource]
    split
    · exact trimSpace_toLower database
    · rfl

theorem exists_fields_of_hasText (h : HasText (parseAppName appName).database) :
    ∃ database username password rest,
      ColonFields appName (database :: username :: password :: rest) ∧ rest.length ≤ 1 := by
  unfold parseAppName at h
  split at h
  · rename_i database username password authSource hsplit
    exact ⟨database, username, password, [authSource], splitByte_eq_iff.mp hsplit, by simp⟩
  · rename_i database username password hsplit
    exact ⟨database, username, password, [], splitByte_eq_iff.mp hsplit, by simp⟩
  · exact absurd rfl h.ne_nil

/-- **The parser accepts its grammar and nothing else.** -/
theorem parse_ok_iff {creds : AppCredentials} :
    parseAppNameCredentials appName = .ok creds ↔ AppNameGrammar appName creds := by
  rw [parse_ok_iff_text]
  constructor
  · rintro ⟨hd, hu, hw, rfl⟩
    obtain ⟨database, username, password, rest, hfields, hrest⟩ := exists_fields_of_hasText hd
    obtain ⟨ed, eu, ew, ea⟩ := parseAppName_of_fields hfields hrest
    have hdatabase : trimSpace (parseAppName appName).database = toLower (trimSpace database) := by
      rw [ed, trimSpace_toLower]
    rw [ed, hasText_toLower] at hd
    rw [eu] at hu
    rw [ew] at hw
    refine ⟨database, username, password, rest, hfields, hrest, hd, hu, hw, hdatabase, ?_, ?_, ?_⟩
    · exact congrArg trimSpace eu
    · exact congrArg trimSpace ew
    · rw [ea]
      exact congrArg (spelledAuthSource · rest) hdatabase.symm
  · rintro ⟨database, username, password, rest, hfields, hrest, hd, hu, hw, cd, cu, cw, ca⟩
    obtain ⟨ed, eu, ew, ea⟩ := parseAppName_of_fields hfields hrest
    rw [ed, eu, ew, ea, hasText_toLower, trimSpace_toLower]
    refine ⟨hd, hu, hw, ?_⟩
    rw [cd] at ca
    cases creds
    simp only at cd cu cw ca
    rw [cd, cu, cw, ca]

/-- **The credentials of an application name.** The parser succeeds exactly on the names of the
grammar, with the credentials they spell; so a user name has no colon, and two connections whose
accepted names give different user names or passwords have different credential keys. -/
theorem parseAppNameCredentials_spec :
    (∀ appName creds,
      parseAppNameCredentials appName = .ok creds ↔ AppNameGrammar appName creds) ∧
    (∀ appName creds, parseAppNameCredentials appName = .ok creds → 0x3A ∉ creds.username) ∧
    ∀ appName appName' creds creds' (c c' : Connection),
      parseAppNameCredentials appName = .ok creds → parseAppNameCredentials appName' = .ok creds' →
      c.clientUsername = creds.username → c.clientPassword = creds.password →
      c'.clientUsername = creds'.username → c'.clientPassword = creds'.password →
      (creds.username, creds.password) ≠ (creds'.username, creds'.password) →
      Proxy.credentialKey c ≠ Proxy.credentialKey c' := by
  refine ⟨fun _ _ => parse_ok_iff, ?_, ?_⟩
  · intro appName creds h
    exact (wellFormed_of_parse h).username_colon
  · intro appName appName' creds creds' c c' h h' hu hw hu' hw' hne hkey
    unfold Proxy.credentialKey at hkey
    rw [hu, hw, hu', hw'] at hkey
    obtain ⟨husers, hpasswords⟩ := credentialKey_inj (wellFormed_of_parse h).username_colon
      (wellFormed_of_parse h').username_colon hkey
    exact hne (by rw [husers, hpasswords])

example : (match parseAppNameCredentials (lit "Shop: ann :pw:use_db") with
    | .ok creds => some (creds.database, creds.username, creds.password, creds.authSource)
    | .error _ => none) = some (lit "shop", lit "ann", lit "pw", lit "shop") := by
  decide +kernel

end MongoBouncer
