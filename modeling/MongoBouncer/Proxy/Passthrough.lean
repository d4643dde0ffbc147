import Mathlib.Data.Bool.AllAny
import MongoBouncer.Proxy.AppName

/-!
# The connection string of a credential client

For a client that brings its own credentials a connection string is put together from them and from
the host and port of the route. The host and port are cut out of the route's connection string by
hand, and nothing is escaped. Here the result is read as a MongoDB URI and compared with the hosts of
the route and the credentials of the client.

* `readUri`           : user, password and hosts of a URI with user information;
* `RouteUri`          : the connection strings of routes;
* `passthroughString` : the connection string that is put together.

Principal result: `passthrough_iff`.
-/

namespace MongoBouncer

open GoStd

/-! ## Reading a URI -/

/-- A host as it is written, and its port. -/
abbrev Address := GoString × GoString

/-- The port of a host without one. -/
def defaultPort : GoString := lit "27017"

/-- What a connection string with user information says. -/
structure MongoUri where
  user : GoString
  password : Option GoString
  hosts : List Address
  deriving DecidableEq, Repr

/-- A host, which is in brackets if it has colons, and its port. -/
def readAddress (s : GoString) : Option Address :=
  if hasPrefix s (lit "[") then
    match cutByte 0x5D s with
    | some (host, []) => some (host ++ [0x5D], defaultPort)
    | some (host, 0x3A :: port) => some (host ++ [0x5D], port)
    | _ => none
  else
    match cutByte 0x3A s with
    | some (host, port) => some (host, port)
    | none => some (s, defaultPort)

/-- Hosts, with commas between them. -/
def readAddresses (s : GoString) : Option (List Address) := (splitByte 0x2C s).mapM readAddress

/-- The user information ends at the first `@` and is percent-decoded; the hosts end at the first
slash after it. -/
def readUri (s : GoString) : Option MongoUri :=
  if hasPrefix s (lit "mongodb://") then do
    let (info, rest) ← cutByte 0x40 (trimPrefix s (lit "mongodb://"))
    let hosts ← readAddresses (rest.takeWhile (· ≠ 0x2F))
    match cutByte 0x3A info with
    | none => do
      let user ← unescape .userPassword info
      some { user, password := none, hosts }
    | some (user, password) => do
      let user ← unescape .userPassword user
      let password ← unescape .userPassword password
      some { user, password := some password, hosts }
  else none

/-! ## The connection strings of routes -/

/-- A name or an IPv4 address. -/
def IsName (s : GoString) : Prop := s ≠ [] ∧ ∀ b ∈ s, b ∉ lit ":/?#[]@,"

/-- An IPv6 address in brackets. -/
def IsBracketed (s : GoString) : Prop :=
  ∃ t, s = 0x5B :: t ++ [0x5D] ∧ t ≠ [] ∧ ∀ b ∈ t, b ∉ lit "/?#[]@,"

/-- A host of a route. -/
structure RouteHost where
  host : GoString
  port : Option GoString
  host_valid : IsName host ∨ IsBracketed host
  port_valid : ∀ p ∈ port, p ≠ [] ∧ ∀ b ∈ p, isDigitByte b = true

namespace RouteHost

def text (h : RouteHost) : GoString := h.host ++ (h.port.map (0x3A :: ·)).getD []

def address (h : RouteHost) : Address := (h.host, h.port.getD defaultPort)

end RouteHost

/-- A connection string `mongodb://[user:pass@]host[:port]{,host[:port]}[/db][?options]`. -/
structure RouteUri where
  userInfo : Option (GoString × GoString)
  hosts : List RouteHost
  db : Option GoString
  options : Option GoString
  userInfo_valid : ∀ u ∈ userInfo, (∀ b ∈ u.1, b ∉ lit ":/?#@") ∧ ∀ b ∈ u.2, b ∉ lit "/?#@"
  hosts_valid : hosts ≠ []
  db_valid : ∀ d ∈ db, 0x3F ∉ d

namespace RouteUri

def infoText (r : RouteUri) : GoString :=
  (r.userInfo.map fun u => u.1 ++ 0x3A :: u.2 ++ [0x40]).getD []

def hostsText (r : RouteUri) : GoString := [0x2C].intercalate (r.hosts.map RouteHost.text)

def rest (r : RouteUri) : GoString :=
  (r.db.map (0x2F :: ·)).getD [] ++ (r.options.map (0x3F :: ·)).getD []

def text (r : RouteUri) : GoString := lit "mongodb://" ++ (r.infoText ++ (r.hostsText ++ r.rest))

/-- The hosts and ports that it names. -/
def addresses (r : RouteUri) : List Address := r.hosts.map RouteHost.address

end RouteUri

/-! ## Reading what is written -/

theorem hasPrefix_bracket {s : GoString} : hasPrefix s (lit "[") = true ↔ ∃ t, s = 0x5B :: t := by
  unfold hasPrefix
  rw [List.isPrefixOf_iff_prefix]
  constructor
  · rintro ⟨t, rfl⟩
    exact ⟨t, rfl⟩
  · rintro ⟨t, rfl⟩
    exact ⟨t, rfl⟩

theorem IsName.not_bracket {s : GoString} (h : IsName s) (t : GoString) :
    hasPrefix (s ++ t) (lit "[") = false := by
  rw [← Bool.not_eq_true, hasPrefix_bracket]
  obtain ⟨b, s', rfl⟩ := List.exists_cons_of_ne_nil h.1
  rintro ⟨t', ht'⟩
  have hb : b = 0x5B := (List.cons.inj ht').1
  exact h.2 b List.mem_cons_self (hb ▸ by decide)

/-- **A host of a route is read as it is meant.** -/
theorem readAddress_text (h : RouteHost) : readAddress h.text = some h.address := by
  unfold readAddress RouteHost.text RouteHost.address
  rcases h.host_valid with hname | ⟨t, ht, -, hbytes⟩
  · have hcolon : 0x3A ∉ h.host := fun hmem => hname.2 _ hmem (by decide)
    rw [hname.not_bracket, if_neg (by decide)]
    cases h.port with
    | none =>
      rw [Option.map_none, Option.getD_none, List.append_nil, cutByte_eq_none.mpr hcolon]
      rfl
    | some p =>
      rw [Option.map_some, Option.getD_some, cutByte_append hcolon]
      rfl
  · have hclose : 0x5D ∉ 0x5B :: t := by
      rw [List.mem_cons, not_or]
      exact ⟨by decide, fun hmem => hbytes _ hmem (by decide)⟩
    have hcut : ∀ tail, cutByte 0x5D (h.host ++ tail) = some (0x5B :: t, tail) := by
      intro tail
      rw [ht, List.append_assoc, List.singleton_append]
      exact cutByte_append hclose tail
    have hbracket : ∀ tail, hasPrefix (h.host ++ tail) (lit "[") = true := by
      intro tail
      rw [hasPrefix_bracket, ht]
      exact ⟨t ++ [0x5D] ++ tail, by simp⟩
    rw [hbracket, if_pos rfl, hcut]
    cases h.port with
    | none => simp [ht]
    | some p => simp [ht]

theorem not_mem_text {h : RouteHost} {c : UInt8} (hc : c ∈ lit "/?#@,") : c ∉ h.text := by
  have hends : ∀ c ∈ lit "/?#@,", c ∈ lit ":/?#[]@," ∧ c ∈ lit "/?#[]@," ∧ c ≠ 0x3A ∧ c ≠ 0x5B ∧
      c ≠ 0x5D ∧ isDigitByte c = false := List.all_iff_forall_prop.mp (by decide)
  obtain ⟨hinName, hinBrackets, hcolon, hopen, hclose, hdigit⟩ := hends c hc
  unfold RouteHost.text
  rw [List.mem_append, not_or]
  constructor
  · rcases h.host_valid with hname | ⟨t, ht, -, hbytes⟩
    · exact fun hmem => hname.2 c hmem hinName
    · rw [ht]
      simp only [List.cons_append, List.mem_cons, List.mem_append, List.not_mem_nil, or_false,
        not_or]
      exact ⟨hopen, fun hmem => hbytes c hmem hinBrackets, hclose⟩
  · cases hport : h.port with
    | none => simp
    | some p =>
      rw [Option.map_some, Option.getD_some, List.mem_cons, not_or]
      refine ⟨hcolon, fun hmem => ?_⟩
      rw [(h.port_valid p hport).2 c hmem] at hdigit
      cases hdigit

/-- **The hosts of a route are read as they are meant.** -/
theorem readAddresses_hostsText (r : RouteUri) : readAddresses r.hostsText = some r.addresses := by
  have hsplit : splitByte 0x2C r.hostsText = r.hosts.map RouteHost.text := by
    refine List.splitOn_intercalate 0x2C ?_ ?_
    · intro t ht
      obtain ⟨h, -, rfl⟩ := List.mem_map.mp ht
      exact not_mem_text (by decide)
    · simpa using r.hosts_valid
  rw [readAddresses, hsplit]
  unfold RouteUri.addresses
  generalize r.hosts = hosts
  induction hosts with
  | nil => rfl
  | cons h hosts ih =>
    rw [List.map_cons, List.mapM_cons, readAddress_text, ih]
    rfl

theorem not_mem_hostsText (r : RouteUri) {c : UInt8} (hc : c ∈ lit "/?#@") : c ∉ r.hostsText := by
  have hends : ∀ c ∈ lit "/?#@", c ∈ lit "/?#@," ∧ c ≠ 0x2C :=
    List.all_iff_forall_prop.mp (by decide)
  obtain ⟨hin, hcomma⟩ := hends c hc
  unfold RouteUri.hostsText
  generalize r.hosts = hosts
  induction hosts with
  | nil => simp [List.intercalate]
  | cons h hosts ih =>
    cases hosts with
    | nil =>
      rw [List.map_cons, List.map_nil, List.intercalate_singleton]
      exact not_mem_text hin
    | cons h' hosts =>
      rw [List.map_cons, List.map_cons, List.intercalate_cons_cons, ← List.map_cons,
        List.mem_append, List.mem_append, List.mem_singleton]
      rintro ((hmem | hmem) | hmem)
      · exact not_mem_text hin hmem
      · exact hcomma hmem
      · exact ih hmem

/-- What a port or a host that is read cannot be, in a route. -/
def Usable (a : Address) : Prop := a.1 ≠ [] ∧ a.2 ≠ [] ∧ 0x3A ∉ a.2

theorem usable_address (h : RouteHost) : Usable h.address := by
  refine ⟨?_, ?_, ?_⟩
  · rcases h.host_valid with hname | ⟨t, ht, -, -⟩
    · exact hname.1
    · show h.host ≠ []
      rw [ht]
      exact List.cons_ne_nil _ _
  · show h.port.getD defaultPort ≠ []
    cases hport : h.port with
    | none => decide
    | some p => exact (h.port_valid p hport).1
  · show 0x3A ∉ h.port.getD defaultPort
    cases hport : h.port with
    | none => decide
    | some p =>
      intro hmem
      exact absurd ((h.port_valid p hport).2 _ hmem) (by decide)

theorem not_usable_of_colon {q : GoString} {a : Address} (h : readAddress (q ++ [0x3A]) = some a) :
    a.2 = [] ∨ 0x3A ∈ a.2 := by
  have hlast : ∀ x y : GoString, q ++ [0x3A] = x ++ y → y ≠ [] → 0x3A ∈ y := by
    intro x y hxy hy
    have hget := congrArg List.getLast? hxy
    rw [List.getLast?_concat, List.getLast?_append_of_ne_nil x hy] at hget
    exact List.mem_of_getLast? hget.symm
  unfold readAddress at h
  split at h
  · split at h
    · rename_i host hcut
      obtain ⟨hq, -⟩ := cutByte_eq_some.mp hcut
      have := hlast host [0x5D] hq (by simp)
      exact absurd this (by decide)
    · rename_i host port hcut
      obtain ⟨hq, -⟩ := cutByte_eq_some.mp hcut
      cases h
      by_cases hport : port = []
      · exact Or.inl hport
      · refine Or.inr (hlast (host ++ [0x5D, 0x3A]) port ?_ hport)
        rw [hq, List.append_assoc]
        rfl
    · cases h
  · split at h
    · rename_i host port hcut
      obtain ⟨hq, -⟩ := cutByte_eq_some.mp hcut
      cases h
      by_cases hport : port = []
      · exact Or.inl hport
      · refine Or.inr (hlast (host ++ [0x3A]) port ?_ hport)
        rw [hq, List.append_assoc]
        rfl
    · rename_i hcut
      exact absurd (cutByte_eq_none.mp hcut) (by simp)

theorem readAddress_append_default {s : GoString} (h : 0x3A ∉ s) :
    readAddress (s ++ 0x3A :: defaultPort) = readAddress s := by
  unfold readAddress
  have hbracket : hasPrefix (s ++ 0x3A :: defaultPort) (lit "[") = hasPrefix s (lit "[") := by
    cases s with
    | nil => rfl
    | cons b s => rfl
  rw [hbracket]
  split
  · by_cases hclose : 0x5D ∈ s
    · obtain ⟨x, y, rfl, hx⟩ := List.eq_append_cons_of_mem hclose
      rw [List.append_assoc, List.cons_append, cutByte_append hx, cutByte_append hx]
      cases y with
      | nil => rfl
      | cons b y =>
        have hb : b ≠ 0x3A := fun hb => h (by simp [hb])
        simp [hb]
    · have hnone : 0x5D ∉ s ++ 0x3A :: defaultPort := by
        rw [List.mem_append, not_or]
        exact ⟨hclose, by decide⟩
      rw [cutByte_eq_none.mpr hclose, cutByte_eq_none.mpr hnone]
  · rw [cutByte_append h, cutByte_eq_none.mpr h]

theorem mapM_concat {l : List GoString} {a : GoString} : (l ++ [a]).mapM readAddress =
      (l.mapM readAddress).bind fun as => (readAddress a).map fun b => as ++ [b] := by
  rw [List.mapM_append]
  cases l.mapM readAddress with
  | none => rfl
  | some as =>
    cases ha : readAddress a with
    | none | some => simp [List.mapM_cons, ha]

theorem readAddresses_append_default {s : GoString} (h : 0x3A ∉ s) :
    readAddresses (s ++ 0x3A :: defaultPort) = readAddresses s := by
  obtain ⟨parts, last, hs, hst, hlast⟩ :=
    splitByte_append (by decide : 0x2C ∉ 0x3A :: defaultPort) s
  rw [readAddresses, readAddresses, hs, hst, mapM_concat, mapM_concat,
    readAddress_append_default fun hmem => h (hlast _ hmem)]

theorem readAddresses_eq_cons {s : GoString} {as : List Address} (h : readAddresses s = some as) :
    ∃ part a as', part <+: s ∧ readAddress part = some a ∧ as = a :: as' := by
  obtain ⟨part, parts, hs, hpart⟩ := splitByte_eq_cons 0x2C s
  rw [readAddresses, hs, List.mapM_cons] at h
  cases ha : readAddress part with
  | none =>
    rw [ha] at h
    cases h
  | some a =>
    rw [ha] at h
    cases hrest : parts.mapM readAddress with
    | none =>
      simp only [hrest, Option.pure_def, Option.bind_eq_bind, Option.bind_some, Option.bind_none] at h
      cases h
    | some as' =>
      simp only [hrest, Option.pure_def, Option.bind_eq_bind, Option.bind_some] at h
      cases h
      exact ⟨part, a, as', hpart, ha, rfl⟩

theorem ne_nil_of_usable {host port : GoString} {as : List Address}
    (h : readAddresses (host ++ 0x3A :: port) = some as) (hasUsable : ∀ a ∈ as, Usable a) :
    host ≠ [] ∧ port ≠ [] := by
  constructor
  · rintro rfl
    obtain ⟨part, a, as', ⟨tail, htail⟩, ha, rfl⟩ := readAddresses_eq_cons h
    have hempty : a.1 = [] := by
      cases part with
      | nil =>
        cases ha
        rfl
      | cons b part =>
        obtain rfl : b = 0x3A := (List.cons.inj htail).1
        cases ha
        rfl
    exact (hasUsable a List.mem_cons_self).1 hempty
  · rintro rfl
    obtain ⟨parts, last, -, hst, -⟩ := splitByte_append (by decide : (0x2C : UInt8) ∉ [0x3A]) host
    rw [readAddresses, hst, mapM_concat] at h
    cases hinit : parts.mapM readAddress with
    | none =>
      rw [hinit] at h
      cases h
    | some init =>
      cases ha : readAddress (last ++ [0x3A]) with
      | none =>
        rw [hinit, ha] at h
        cases h
      | some a =>
        rw [hinit, ha] at h
        cases h
        obtain ⟨-, hport, hcolon⟩ := hasUsable a (by simp)
        rcases not_usable_of_colon ha with hnil | hmem
        · exact hport hnil
        · exact hcolon hmem

theorem readAddress_not_bracket {s : GoString} {a : Address} (hs : hasPrefix s (lit "[") = false)
    (h : readAddress s = some a) : hasPrefix a.1 (lit "[") = false := by
  unfold readAddress at h
  rw [hs, if_neg (by decide)] at h
  rw [← Bool.not_eq_true, hasPrefix_bracket] at hs ⊢
  split at h
  · rename_i host port hcut
    cases h
    obtain ⟨rfl, -⟩ := cutByte_eq_some.mp hcut
    rintro ⟨t, ht⟩
    exact hs ⟨t ++ 0x3A :: port, by rw [show host = 0x5B :: t from ht]; rfl⟩
  · cases h
    exact hs

theorem readAddresses_not_bracket {s : GoString} {as : List Address}
    (hs : hasPrefix s (lit "[") = false) (h : readAddresses s = some as) :
    ∃ a as', as = a :: as' ∧ hasPrefix a.1 (lit "[") = false := by
  obtain ⟨part, a, as', ⟨z, hz⟩, ha, rfl⟩ := readAddresses_eq_cons h
  refine ⟨a, as', rfl, readAddress_not_bracket ?_ ha⟩
  rw [← Bool.not_eq_true, hasPrefix_bracket] at hs ⊢
  rintro ⟨t, rfl⟩
  exact hs ⟨t ++ z, hz.symm⟩

/-! ## Where the host and the port are cut out -/

/-- A host and a port, as they are put together. -/
def joined (a : Address) : GoString := a.1 ++ 0x3A :: a.2

theorem readAddresses_joined {s : GoString} (h : hasPrefix s (lit "[") = false) :
    readAddresses (joined (extractHostAndPort s)) = readAddresses s := by
  unfold extractHostAndPort
  rw [h, if_neg (by decide)]
  cases hcut : cutLastByte 0x3A s with
  | none => exact readAddresses_append_default (cutLastByte_eq_none.mp hcut)
  | some a =>
    obtain ⟨host, port⟩ := a
    rw [(cutLastByte_eq_some.mp hcut).1]
    rfl

theorem not_mem_extract {s : GoString} {c : UInt8} (hc : c ∉ s) (hport : c ∉ defaultPort) :
    c ∉ (extractHostAndPort s).1 ∧ c ∉ (extractHostAndPort s).2 := by
  unfold extractHostAndPort
  split
  · split
    · exact ⟨by simp, by simp⟩
    · rename_i bracketed port hcut
      rw [(cutByte_eq_some.mp hcut).1] at hc
      simp only [List.mem_append, List.mem_cons, not_or] at hc
      exact ⟨fun hmem => hc.1 (List.mem_of_mem_drop hmem), hc.2.2.2⟩
    · rename_i bracketed tail _ hcut
      rw [(cutByte_eq_some.mp hcut).1] at hc
      simp only [List.mem_append, List.mem_cons, not_or] at hc
      exact ⟨fun hmem => hc.1 (List.mem_of_mem_drop hmem), hport⟩
  · split
    · exact ⟨hc, hport⟩
    · rename_i host port hcut
      rw [(cutLastByte_eq_some.mp hcut).1] at hc
      simp only [List.mem_append, List.mem_cons, not_or] at hc
      exact ⟨hc.1, hc.2.2⟩

theorem extract_bracket {s x y : GoString} (h : hasPrefix s (lit "[") = true)
    (hcut : cutByte 0x5D s = some (x, y)) : (extractHostAndPort s).1 = x.drop 1 := by
  unfold extractHostAndPort
  rw [h, if_pos rfl, hcut]
  split
  · rename_i hnone
    cases hnone
  · rename_i hsome
    cases hsome
    rfl
  · rename_i hsome
    cases hsome
    rfl

namespace RouteUri

variable (r : RouteUri)

/-- The first host is in brackets. -/
def StartsWithBracket : Prop := hasPrefix r.hostsText (lit "[") = true

/-- The first `@` of the connection string, if there is one, ends the user information, and the
hosts end with a slash or with the string. -/
structure Regular : Prop where
  info : r.userInfo.isSome = true ∨ 0x40 ∉ r.rest
  rest : r.db.isSome = true ∨ r.options = none

/-- The hosts that are read where the route's host and port are looked for are the route's. -/
def Found : Prop := readAddresses (joined (extractHostFromRoute r.text)) = some r.addresses

variable {r}

theorem Regular.cut_infoText (h : r.Regular) :
    ((cutByte 0x40 (r.infoText ++ (r.hostsText ++ r.rest))).map Prod.snd).getD
      (r.infoText ++ (r.hostsText ++ r.rest)) = r.hostsText ++ r.rest := by
  cases hinfo : r.userInfo with
  | none =>
    have hnil : r.infoText = [] := by rw [infoText, hinfo]; rfl
    have hrest : 0x40 ∉ r.rest := by
      rcases h.info with hsome | hrest
      · rw [hinfo] at hsome
        cases hsome
      · exact hrest
    have hno : 0x40 ∉ r.hostsText ++ r.rest := by
      rw [List.mem_append, not_or]
      exact ⟨not_mem_hostsText r (by decide), hrest⟩
    rw [hnil, List.nil_append, cutByte_eq_none.mpr hno]
    rfl
  | some u =>
    obtain ⟨hu, hp⟩ := r.userInfo_valid u hinfo
    have htext : r.infoText = u.1 ++ 0x3A :: u.2 ++ [0x40] := by rw [infoText, hinfo]; rfl
    have hno : 0x40 ∉ u.1 ++ 0x3A :: u.2 := by
      rw [List.mem_append, List.mem_cons, not_or, not_or]
      exact ⟨fun hm => hu _ hm (by decide), by decide, fun hm => hp _ hm (by decide)⟩
    rw [htext, List.append_assoc, List.singleton_append, cutByte_append hno]
    rfl

theorem Regular.takeWhile_hostsText (h : r.Regular) :
    (r.hostsText ++ r.rest).takeWhile (· ≠ 0x2F) = r.hostsText := by
  have hhosts : 0x2F ∉ r.hostsText := not_mem_hostsText r (by decide)
  unfold RouteUri.rest
  cases hdb : r.db with
  | some d => exact takeWhile_ne_append hhosts _
  | none =>
    have hoptions : r.options = none := by
      rcases h.rest with hsome | hnone
      · rw [hdb] at hsome
        cases hsome
      · exact hnone
    rw [hoptions]
    simp only [Option.map_none, Option.getD_none, List.append_nil]
    rw [List.takeWhile_eq_self_iff]
    intro b hb
    rw [decide_eq_true_eq]
    rintro rfl
    exact hhosts hb

theorem Regular.extract (h : r.Regular) :
    extractHostFromRoute r.text = extractHostAndPort r.hostsText := by
  unfold extractHostFromRoute
  simp only [RouteUri.text, hasPrefix_append, trimPrefix_append, Bool.not_true, Bool.false_eq_true,
    if_false]
  rw [h.cut_infoText, getD_cutByte, h.takeWhile_hostsText]

theorem exists_hostsText_eq (r : RouteUri) :
    ∃ h₀ hs tail, r.hosts = h₀ :: hs ∧ r.hostsText = h₀.text ++ tail := by
  obtain ⟨h₀, hs, hhosts⟩ := List.exists_cons_of_ne_nil r.hosts_valid
  unfold hostsText
  rw [hhosts, List.map_cons]
  cases hs with
  | nil => exact ⟨h₀, [], [], rfl, by simp⟩
  | cons h₁ hs =>
    exact ⟨h₀, h₁ :: hs, _, rfl, rfl⟩

/-- The brackets of the first host are lost. -/
theorem joined_not_bracket {h₀ : RouteHost} {tail : GoString} (htext : r.hostsText = h₀.text ++ tail)
    (hbracket : r.StartsWithBracket) :
    hasPrefix h₀.address.1 (lit "[") = true ∧
      hasPrefix (joined (extractHostAndPort r.hostsText)) (lit "[") = false := by
  unfold StartsWithBracket at hbracket
  rcases h₀.host_valid with hname | ⟨t, ht, hne, hbytes⟩
  · rw [htext, RouteHost.text, List.append_assoc, hname.not_bracket] at hbracket
    cases hbracket
  · constructor
    · rw [hasPrefix_bracket]
      exact ⟨t ++ [0x5D], ht.trans (List.cons_append ..)⟩
    · have hclose : 0x5D ∉ 0x5B :: t := by
        rw [List.mem_cons, not_or]
        exact ⟨by decide, fun hmem => hbytes _ hmem (by decide)⟩
      obtain ⟨y, hcut⟩ : ∃ y, cutByte 0x5D r.hostsText = some (0x5B :: t, y) := by
        rw [htext, RouteHost.text, ht, List.append_assoc, List.append_assoc, List.singleton_append]
        exact ⟨_, cutByte_append hclose _⟩
      rw [joined, extract_bracket hbracket hcut, List.drop_one, List.tail_cons,
        ← Bool.not_eq_true, hasPrefix_bracket]
      rintro ⟨t', ht'⟩
      obtain ⟨b, t'', rfl⟩ := List.exists_cons_of_ne_nil hne
      have hb : b = 0x5B := (List.cons.inj ht').1
      exact hbytes b List.mem_cons_self (hb ▸ by decide)

/-- **The route's hosts are found, unless the first is in brackets**, if they are where they are
looked for. -/
theorem Regular.found_iff (h : r.Regular) : r.Found ↔ ¬ r.StartsWithBracket := by
  unfold Found
  rw [h.extract]
  by_cases hbracket : r.StartsWithBracket
  · refine iff_of_false ?_ (not_not.mpr hbracket)
    intro hread
    obtain ⟨h₀, hs, tail, hhosts, htext⟩ := exists_hostsText_eq r
    obtain ⟨hyes, hno⟩ := joined_not_bracket htext hbracket
    -- what is read first has no brackets, the route's first host has
    obtain ⟨a, as', has, hfirst⟩ := readAddresses_not_bracket hno hread
    rw [addresses, hhosts, List.map_cons] at has
    rw [← (List.cons.inj has).1, hyes] at hfirst
    cases hfirst
  · refine iff_of_true ?_ hbracket
    rw [readAddresses_joined (Bool.not_eq_true _ ▸ hbracket)]
    exact readAddresses_hostsText r

end RouteUri

/-! ## The connection string -/

/-- What `createMongoClientWithCredentials` puts together, unless it gives up before. -/
def passthroughString (c : Connection) (connectionString : GoString)
    (order : List GoString → List GoString) : Option GoString :=
  let (host, port) := extractHostFromRoute connectionString
  if host = [] ∨ port = [] then none
  else (Url.parse connectionString).map fun u => credentialConnectionString c host port u order

theorem Proxy.passthroughString_of_made {p : Proxy} {c : Connection} {ref : RouteRef} {up : Upstream}
    {client : MongoClient}
    (miss : (p.routes ref).initCredentialClientsCache.peek (Proxy.credentialKey c) = none)
    (h : (p.createMongoClientWithCredentials c ref up).1 = .ok client) :
    passthroughString c (p.routes ref).connectionString up.order.1 =
      some client.connectionString := by
  unfold Proxy.createMongoClientWithCredentials at h
  rw [Lruttl.LruTtl.get_of_miss up.now miss] at h
  have hsame : ∀ cache, ((p.setCredentialClients ref cache).routes ref).connectionString =
      (p.routes ref).connectionString := by
    intro cache
    simp [Proxy.setCredentialClients, Proxy.setRoute]
  simp only [hsame] at h
  simp only [passthroughString]
  split at h
  · cases h
  · rename_i hne
    split at h
    · cases h
    · rename_i u hu
      rw [if_neg hne, hu]
      split at h
      · cases h
      · rename_i made p' hconnect
        cases h
        unfold Proxy.connect at hconnect
        split at hconnect
        · cases hconnect
        · cases hconnect
          rfl

/-- Neither the end of the user information nor an escape. -/
def Unescaped (s : GoString) : Prop := 0x40 ∉ s ∧ 0x25 ∉ s

/-- **What is read of a connection string that is put together.** -/
theorem readUri_iff {user password hosts rest : GoString} {as : List Address} (huser : 0x3A ∉ user)
    (hhosts : 0x2F ∉ hosts) :
    readUri (lit "mongodb://" ++ (user ++ 0x3A :: password ++ 0x40 :: (hosts ++ 0x2F :: rest))) =
        some ⟨user, some password, as⟩ ↔
      Unescaped user ∧ Unescaped password ∧ readAddresses hosts = some as := by
  unfold readUri
  rw [hasPrefix_append, trimPrefix_append, if_pos rfl]
  by_cases hat : 0x40 ∈ user
  · -- the user information ends in the user name, so that no password is left
    refine iff_of_false ?_ fun h => h.1.1 hat
    obtain ⟨a, b, rfl, ha⟩ := List.eq_append_cons_of_mem hat
    have hcolon : 0x3A ∉ a := fun hmem => huser (List.mem_append_left _ hmem)
    simp only [List.append_assoc, List.cons_append, cutByte_append ha, Option.bind_eq_bind,
      Option.bind_some, cutByte_eq_none.mpr hcolon, Option.bind_eq_some_iff]
    rintro ⟨as', -, user', -, huri⟩
    cases huri
  by_cases hat' : 0x40 ∈ password
  · -- the user information ends in the password, which is then too short
    refine iff_of_false ?_ fun h => h.2.1.1 hat'
    obtain ⟨a, b, rfl, ha⟩ := List.eq_append_cons_of_mem hat'
    have hinfo : 0x40 ∉ user ++ 0x3A :: a := by
      rw [List.mem_append, List.mem_cons, not_or, not_or]
      exact ⟨hat, by decide, ha⟩
    have htext : user ++ 0x3A :: (a ++ 0x40 :: b) ++ 0x40 :: (hosts ++ 0x2F :: rest) =
        user ++ 0x3A :: a ++ 0x40 :: (b ++ 0x40 :: (hosts ++ 0x2F :: rest)) := by simp
    rw [htext, cutByte_append hinfo]
    simp only [Option.bind_eq_bind, Option.bind_some, cutByte_append huser, Option.bind_eq_some_iff,
      Option.some.injEq, MongoUri.mk.injEq]
    rintro ⟨as', -, user', -, password', hpassword, -, rfl, -⟩
    have hle := (length_of_unescape hpassword).1
    rw [List.length_append, List.length_cons] at hle
    omega
  · have hinfo : 0x40 ∉ user ++ 0x3A :: password := by
      rw [List.mem_append, List.mem_cons, not_or, not_or]
      exact ⟨hat, by decide, hat'⟩
    rw [cutByte_append hinfo]
    simp only [Option.bind_eq_bind, Option.bind_some, takeWhile_ne_append hhosts, cutByte_append huser,
      Option.bind_eq_some_iff, Option.some.injEq, MongoUri.mk.injEq]
    constructor
    · rintro ⟨as', has, user', huser', password', hpassword, rfl, rfl, rfl⟩
      exact ⟨⟨hat, unescape_eq_self_iff.mp huser'⟩, ⟨hat', unescape_eq_self_iff.mp hpassword⟩, has⟩
    · rintro ⟨hu, hp, has⟩
      exact ⟨as, has, user, unescape_of_unescaped hu.2, password, unescape_of_unescaped hp.2, rfl,
        rfl, rfl⟩

theorem slash_not_mem_joined (s : GoString) : 0x2F ∉ joined (extractHostFromRoute s) := by
  suffices h : 0x2F ∉ (extractHostFromRoute s).1 ∧ 0x2F ∉ (extractHostFromRoute s).2 by
    rw [joined, List.mem_append, List.mem_cons, not_or, not_or]
    exact ⟨h.1, by decide, h.2⟩
  unfold extractHostFromRoute
  split
  · exact ⟨by simp, by simp⟩
  · simp only [getD_cutByte]
    refine not_mem_extract ?_ (by decide)
    intro hmem
    have hne := List.mem_takeWhile_imp hmem
    simp at hne

theorem credentialConnectionString_eq {c : Connection} (huser : c.clientUsername ≠ [])
    (hpassword : c.clientPassword ≠ []) (a : Address) (u : Url)
    (order : List GoString → List GoString) :
    ∃ rest, credentialConnectionString c a.1 a.2 u order = lit "mongodb://" ++
      (c.clientUsername ++ 0x3A :: c.clientPassword ++ 0x40 :: (joined a ++ 0x2F :: rest)) := by
  unfold credentialConnectionString joined
  rw [if_pos ⟨huser, hpassword⟩]
  exact ⟨c.intendedDatabase ++ lit "?authSource=" ++
    (if c.clientAuthSource ≠ [] then c.clientAuthSource else lit "admin") ++
    otherParameters order u, by simp [List.append_assoc]; rfl⟩

/-- **Where a credential client connects to, and as whom.** For a connection string of a route and
credentials that an application name may carry: a client that is made is made with the
`passthroughString`; this string is put together and names the route's hosts, the user and the
password if, and only if, the route's string is a URL for Go, the route's hosts are found and neither
`@` nor `%` is in the user name or the password; and the hosts of a regular route are found unless
the first is in brackets. -/
theorem passthrough_iff (r : RouteUri) {appName : GoString} {creds : AppCredentials}
    (hcreds : parseAppNameCredentials appName = .ok creds) {c : Connection}
    (huser : c.clientUsername = creds.username) (hpassword : c.clientPassword = creds.password) :
    (∀ (p : Proxy) (ref : RouteRef) (up : Upstream) (client : MongoClient),
      (p.routes ref).connectionString = r.text →
      (p.routes ref).initCredentialClientsCache.peek (Proxy.credentialKey c) = none →
      (p.createMongoClientWithCredentials c ref up).1 = .ok client →
      passthroughString c r.text up.order.1 = some client.connectionString) ∧
    (∀ order : List GoString → List GoString,
      (∃ s, passthroughString c r.text order = some s ∧
        readUri s = some ⟨creds.username, some creds.password, r.addresses⟩) ↔
      (Url.parse r.text).isSome = true ∧ r.Found ∧
        Unescaped creds.username ∧ Unescaped creds.password) ∧
    (r.Regular → (r.Found ↔ ¬ r.StartsWithBracket)) := by
  refine ⟨?_, ?_, fun h => h.found_iff⟩
  · intro p ref up client htext miss hmade
    rw [← htext]
    exact Proxy.passthroughString_of_made miss hmade
  · intro order
    obtain ⟨hune, hpne, hcolon, -⟩ := wellFormed_of_parse hcreds
    rw [← huser] at hune hcolon
    rw [← hpassword] at hpne
    rw [← huser, ← hpassword]
    -- what is read of the string, if it is put together
    have hread : ∀ u, readUri (credentialConnectionString c (extractHostFromRoute r.text).1
        (extractHostFromRoute r.text).2 u order) =
          some ⟨c.clientUsername, some c.clientPassword, r.addresses⟩ ↔
        Unescaped c.clientUsername ∧ Unescaped c.clientPassword ∧ r.Found := by
      intro u
      obtain ⟨rest, hrest⟩ :=
        credentialConnectionString_eq hune hpne (extractHostFromRoute r.text) u order
      rw [hrest]
      exact readUri_iff hcolon (slash_not_mem_joined r.text)
    simp only [passthroughString]
    constructor
    · rintro ⟨s, hs, huri⟩
      split at hs
      · cases hs
      · obtain ⟨u, hu, rfl⟩ := Option.map_eq_some_iff.mp hs
        obtain ⟨hunescaped, hpunescaped, hfound⟩ := (hread u).mp huri
        exact ⟨by rw [hu]; rfl, hfound, hunescaped, hpunescaped⟩
    · rintro ⟨hparse, hfound, hunescaped, hpunescaped⟩
      obtain ⟨u, hu⟩ := Option.isSome_iff_exists.mp hparse
      have hne := ne_nil_of_usable hfound (by
        intro a ha
        obtain ⟨h, -, rfl⟩ := List.mem_map.mp ha
        exact usable_address h)
      refine ⟨_, ?_, (hread u).mpr ⟨hunescaped, hpunescaped, hfound⟩⟩
      rw [if_neg (not_or.mpr hne), hu, Option.map_some]

namespace Sample

/-- `mongodb://db1:27017/shop` -/
def shopRoute : RouteUri where
  userInfo := none
  hosts :=
    [{ host := lit "db1"
       port := some (lit "27017")
       host_valid := Or.inl ⟨by decide, List.all_iff_forall_prop.mp (by decide)⟩
       port_valid := by
        rintro p ⟨⟩
        exact ⟨by decide, List.all_iff_forall_prop.mp (by decide)⟩ }]
  db := some (lit "shop")
  options := none
  userInfo_valid := by decide
  hosts_valid := by simp
  db_valid := by decide

/-- A connection with credentials for the database `shop`. -/
def shopConnection (user password : String) : Connection :=
  { Connection.new (lit "10.0.0.7:51000") with
    intendedDatabase := lit "shop"
    clientUsername := lit user
    clientPassword := lit password
    clientAuthSource := lit "admin" }

def shopCredentials (user password : String) : AppCredentials where
  database := lit "shop"
  username := lit user
  password := lit password
  authSource := lit "admin"

end Sample

open Sample

/-- A client with an ordinary password goes to the route's host. -/
theorem passthrough_secret :
    ∃ s, passthroughString (shopConnection "ann" "secret") shopRoute.text id = some s ∧
      readUri s = some ⟨lit "ann", some (lit "secret"), [(lit "db1", lit "27017")]⟩ := by
  have hparse : parseAppNameCredentials (lit "shop:ann:secret") =
      .ok (shopCredentials "ann" "secret") := by decide +kernel
  have hiff := passthrough_iff shopRoute hparse (c := shopConnection "ann" "secret") rfl rfl
  have hregular : shopRoute.Regular := ⟨Or.inr (by decide), Or.inl rfl⟩
  have heval : (Url.parse shopRoute.text).isSome = true ∧
      hasPrefix shopRoute.hostsText (lit "[") = false ∧
      (0x40 ∉ lit "ann" ∧ 0x25 ∉ lit "ann") ∧ 0x40 ∉ lit "secret" ∧ 0x25 ∉ lit "secret" := by
    decide +kernel
  obtain ⟨hurl, hopen, huser, hpassword⟩ := heval
  have hfound : shopRoute.Found := (hiff.2.2 hregular).mpr (Bool.not_eq_true _ ▸ hopen)
  exact (hiff.2.1 id).mpr ⟨hurl, hfound, huser, hpassword⟩

/-- **A password that names another host.** The client is accepted, and is sent to `evil`. -/
theorem passthrough_evil :
    parseAppNameCredentials (lit "shop:ann:x@evil/") = .ok (shopCredentials "ann" "x@evil/") ∧
      shopRoute.addresses = [(lit "db1", lit "27017")] ∧
      passthroughString (shopConnection "ann" "x@evil/") shopRoute.text id =
        some (lit "mongodb://ann:x@evil/@db1:27017/shop?authSource=admin") ∧
      readUri (lit "mongodb://ann:x@evil/@db1:27017/shop?authSource=admin") =
        some ⟨lit "ann", some (lit "x"), [(lit "evil", lit "27017")]⟩ := by
  decide +kernel

end MongoBouncer
