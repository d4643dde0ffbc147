import MongoBouncer.Proxy.ClientReset
import MongoBouncer.Proxy.RouteMap

/-!
# The clients at shutdown

`CloseAllMongoClients` closes the clients that are registered. At startup every client has the key of
its route in `GetAllRoutes`, unless a later database has the same key. After that a client is held by
the request that made it until this comes to `RegisterMongoClient`, and it loses its key to another one
that is registered under it.

* `ClientSystem.Books`    : what a step does to the clients that are made, registered and closed;
* `ClientSystem.Ledger`   : registered and held clients are open, and no client is both;
* `ClientSystem.TidyStep` : a step that takes the last key of no client;
* `KeysDiffer`            : no key of a startup client is taken by a later database.

Principal result: `ClientSystem.all_registered_iff`.
-/

namespace MongoBouncer

open GoStd Lruttl Function

/-- The key under which a request is about to register its client. -/
def ClientPoint.key : ClientPoint → Option GoString
  | registering q _ => some q.target
  | registeringAs q _ => some (Proxy.credentialKey q.conn)
  | _ => none

namespace ClientSystem

/-- The client was made and is not closed. -/
def IsOpen (s : ClientSystem) (c : MongoClient) : Prop := s.created c ∧ ¬ s.closed c

/-- The client is a value of `mongoClients`. -/
def Registered (s : ClientSystem) (c : MongoClient) : Prop :=
  ∃ name, s.proxy.mongoClients name = some c

/-- A request has made the client and has not registered it yet. -/
def Held (s : ClientSystem) (c : MongoClient) : Prop := ∃ k, (s.point k).pending = some c

/-- The registration under the name takes the last key of a client. -/
def Overwrites (s : ClientSystem) (name : GoString) : Prop :=
  ∃ c, s.proxy.mongoClients name = some c ∧
    ∀ name', name' ≠ name → s.proxy.mongoClients name' ≠ some c

/-! ## What a step does -/

/-- The clients that are made, registered and closed stay, and so do those that requests hold. -/
structure SameBooks (s s' : ClientSystem) : Prop where
  created : s'.created = s.created
  closed : s'.closed = s.closed
  mongoClients : s'.proxy.mongoClients = s.proxy.mongoClients
  nextClient : s'.proxy.nextClient = s.proxy.nextClient
  pending : ∀ k, (s'.point k).pending = (s.point k).pending

/-- What a step does to the clients that are made, registered and closed. -/
inductive Books (s : ClientSystem) : ClientEvent → ClientSystem → Prop where
  | same {e : ClientEvent} {s' : ClientSystem} (h : SameBooks s s') : Books s e s'
  | made {k : Nat} {up : Upstream} {client : MongoClient} {p : Proxy} {point : ClientPoint}
      (hpoint : (s.point k).pending = none) (hpending : point.pending = some client)
      (hid : client.id = s.proxy.nextClient)
      (hclients : p.mongoClients = s.proxy.mongoClients)
      (hnext : p.nextClient = s.proxy.nextClient + 1) :
      Books s (.go k up) ((s.make client p).move k point)
  | registered {k : Nat} {up : Upstream} {name : GoString} {client : MongoClient}
      {s' : ClientSystem} (hkey : (s.point k).key = some name)
      (hpoint : (s.point k).pending = some client) (hpending : (s'.point k).pending = none)
      (hrest : SameBooks ((s.register name client).move k (s'.point k)) s') :
      Books s (.go k up) s'
  | closed :
      Books s .closeAll { s with
        proxy := { s.proxy with mongoClients := fun _ => none }
        closed := fun c => s.closed c ∨ ∃ name, s.proxy.mongoClients name = some c }

theorem pending_update {s : ClientSystem} {k : Nat} {point : ClientPoint}
    (h : point.pending = (s.point k).pending) (j : Nat) :
    (update s.point k point j).pending = (s.point j).pending := by
  rw [update_apply]
  split
  · subst j
    exact h
  · rfl

theorem books_of_acts {s s' : ClientSystem} {e : ClientEvent} (h : s.Acts e s') : s.Books e s' := by
  cases h with
  | kept hp => exact .same ⟨rfl, rfl, hp.mongoClients, hp.nextClient, fun _ => rfl⟩
  | moved hp hfrom hholds hpending hpicked =>
    exact .same ⟨rfl, rfl, hp.mongoClients, hp.nextClient, pending_update hpending⟩
  | picked hp hfrom hpending hread =>
    exact .same ⟨rfl, rfl, hp.mongoClients, hp.nextClient, pending_update hpending.symm⟩
  | locked hpoint | found hpoint | missed hpoint | gaveUp hpoint | installed hpoint
  | cleared hpoint =>
    exact .same ⟨rfl, rfl, rfl, rfl, pending_update (s := s) (by rw [hpoint]; rfl)⟩
  | made hpoint hid hroutes hclients hnext =>
    rcases hpoint with ⟨hpoint, rfl⟩ | ⟨hpoint, rfl⟩
    · exact .made (by rw [hpoint]; rfl) rfl hid hclients hnext
    · exact .made (by rw [hpoint]; rfl) rfl hid hclients hnext
  | @registered k up q client hpoint | @registeredAs k up q client hpoint =>
    refine .registered (k := k) (by rw [hpoint]; rfl) (by rw [hpoint]; rfl)
      (by rw [point_pick]; rfl) ⟨rfl, rfl, rfl, rfl, ?_⟩
    intro j
    rw [point_pick]
    rfl
  | closed => exact .closed

/-! ## The ledger -/

/-- Registered and held clients are open, and no client is both. -/
structure Ledger (s : ClientSystem) : Prop where
  numbered : ∀ c, s.created c → c.id < s.proxy.nextClient
  closed : ∀ c, s.closed c → s.created c
  once : ∀ j k c, (s.point j).pending = some c → (s.point k).pending = some c → j = k
  isOpen : ∀ c, s.Registered c ∨ s.Held c → s.IsOpen c
  held : ∀ c, s.Held c → ¬ s.Registered c

/-- Every open client is registered or held. -/
def Complete (s : ClientSystem) : Prop := ∀ c, s.IsOpen c → s.Registered c ∨ s.Held c

namespace SameBooks

variable {s s' : ClientSystem} (h : SameBooks s s') (c : MongoClient)

include h

theorem isOpen_iff : s'.IsOpen c ↔ s.IsOpen c := by
  unfold IsOpen
  rw [h.created, h.closed]

theorem registered_iff : s'.Registered c ↔ s.Registered c := by
  unfold Registered
  rw [h.mongoClients]

theorem held_iff : s'.Held c ↔ s.Held c := by
  unfold Held
  simp only [h.pending]

theorem complete (hs : s.Complete) : s'.Complete := by
  intro c
  rw [h.isOpen_iff, h.registered_iff, h.held_iff]
  exact hs c

end SameBooks

namespace Ledger

variable {s s' : ClientSystem}

theorem same (hs : s.Ledger) (h : SameBooks s s') : s'.Ledger := by
  refine ⟨?_, ?_, ?_, ?_, ?_⟩
  · rw [h.created, h.nextClient]
    exact hs.numbered
  · rw [h.created, h.closed]
    exact hs.closed
  · simp only [h.pending]
    exact hs.once
  · intro c
    rw [h.isOpen_iff, h.registered_iff, h.held_iff]
    exact hs.isOpen c
  · intro c
    rw [h.registered_iff, h.held_iff]
    exact hs.held c

variable {k : Nat} {client : MongoClient} {p : Proxy} {point : ClientPoint} {name : GoString}

theorem held_move {c : MongoClient} : (s.move k point).Held c ↔
    point.pending = some c ∨ ∃ j, j ≠ k ∧ (s.point j).pending = some c :=
  exists_update_iff s.point (p := fun _ point => point.pending = some c)

theorem once_move (hs : ∀ j k c, (s.point j).pending = some c → (s.point k).pending = some c → j = k)
    (hnew : ∀ c, point.pending = some c → ¬ s.Held c) (i j : Nat) (c : MongoClient)
    (hi : ((s.move k point).point i).pending = some c)
    (hj : ((s.move k point).point j).pending = some c) : i = j := by
  by_cases hik : i = k
  · subst hik
    by_contra hij
    rw [point_move] at hi
    rw [point_move_of_ne s point (Ne.symm hij)] at hj
    exact hnew c hi ⟨j, hj⟩
  · rw [point_move_of_ne s point hik] at hi
    by_cases hjk : j = k
    · subst hjk
      rw [point_move] at hj
      exact absurd ⟨i, hi⟩ (hnew c hj)
    · rw [point_move_of_ne s point hjk] at hj
      exact hs i j c hi hj

section Made

variable (hpoint : (s.point k).pending = none) (hpending : point.pending = some client)
  (hclients : p.mongoClients = s.proxy.mongoClients)

include hclients in
theorem registered_made (c : MongoClient) :
    ((s.make client p).move k point).Registered c ↔ s.Registered c := by
  show (∃ name, p.mongoClients name = some c) ↔ _
  rw [hclients]
  rfl

include hpoint hpending in
theorem held_made (c : MongoClient) :
    ((s.make client p).move k point).Held c ↔ c = client ∨ s.Held c := by
  rw [held_move, hpending, Option.some.injEq, eq_comm]
  refine or_congr_right ⟨fun ⟨j, _, hj⟩ => ⟨j, hj⟩, ?_⟩
  rintro ⟨j, hj⟩
  refine ⟨j, ?_, hj⟩
  rintro rfl
  rw [hpoint] at hj
  cases hj

include hpoint hpending hclients

/-- A client that is made gets a number that none had, and is held. -/
theorem made (hs : s.Ledger) (hid : client.id = s.proxy.nextClient)
    (hnext : p.nextClient = s.proxy.nextClient + 1) :
    ((s.make client p).move k point).Ledger := by
  have hnew : ¬ s.created client := by
    intro hc
    have hlt := hs.numbered client hc
    rw [hid] at hlt
    exact Nat.lt_irrefl _ hlt
  have hnone : ¬ s.Registered client ∧ ¬ s.Held client :=
    not_or.mp fun h => hnew (hs.isOpen client h).1
  refine ⟨?_, fun c hc => Or.inl (hs.closed c hc), once_move hs.once ?_, ?_, ?_⟩
  · rintro c (hc | rfl)
    · show c.id < p.nextClient
      rw [hnext]
      exact Nat.lt_succ_of_lt (hs.numbered c hc)
    · show c.id < p.nextClient
      rw [hnext, hid]
      exact Nat.lt_succ_self _
  · intro c hc
    rw [hpending] at hc
    cases hc
    exact hnone.2
  · intro c
    rw [registered_made hclients, held_made hpoint hpending]
    rintro (hname | rfl | hold)
    · exact ⟨Or.inl (hs.isOpen c (Or.inl hname)).1, (hs.isOpen c (Or.inl hname)).2⟩
    · exact ⟨Or.inr rfl, fun h => hnew (hs.closed c h)⟩
    · exact ⟨Or.inl (hs.isOpen c (Or.inr hold)).1, (hs.isOpen c (Or.inr hold)).2⟩
  · intro c
    rw [registered_made hclients, held_made hpoint hpending]
    rintro (rfl | hold)
    · exact hnone.1
    · exact hs.held c hold

theorem complete_made (hs : s.Complete) : ((s.make client p).move k point).Complete := by
  intro c
  rw [registered_made hclients, held_made hpoint hpending]
  rintro ⟨hcreated | hc, hclosed⟩
  · exact (hs c ⟨hcreated, hclosed⟩).imp_right Or.inr
  · exact Or.inr (Or.inl hc)

end Made

theorem registered_register (c : MongoClient) :
    ((s.register name client).move k point).Registered c ↔
      c = client ∨ ∃ name', name' ≠ name ∧ s.proxy.mongoClients name' = some c := by
  have hupdate := exists_update_iff s.proxy.mongoClients (a := name)
    (b := some client) (p := fun _ v => v = some c)
  rwa [Option.some.injEq, eq_comm (a := client)] at hupdate

section Registered

variable (hs : s.Ledger) (hpoint : (s.point k).pending = some client)
  (hpending : point.pending = none)

include hs hpoint hpending

theorem held_register (c : MongoClient) :
    ((s.register name client).move k point).Held c ↔ s.Held c ∧ c ≠ client := by
  rw [held_move, hpending]
  simp only [reduceCtorEq, false_or]
  constructor
  · rintro ⟨j, hjk, hj⟩
    refine ⟨⟨j, hj⟩, ?_⟩
    rintro rfl
    exact hjk (hs.once j k c hj hpoint)
  · rintro ⟨⟨j, hj⟩, hc⟩
    refine ⟨j, ?_, hj⟩
    rintro rfl
    rw [hpoint] at hj
    cases hj
    exact hc rfl

theorem registered : ((s.register name client).move k point).Ledger := by
  refine ⟨hs.numbered, hs.closed, once_move hs.once (by simp [hpending]), ?_, ?_⟩
  · intro c
    rw [registered_register, held_register hs hpoint hpending]
    rintro ((rfl | ⟨name', -, hname'⟩) | ⟨hheld, -⟩)
    · exact hs.isOpen c (Or.inr ⟨k, hpoint⟩)
    · exact hs.isOpen c (Or.inl ⟨name', hname'⟩)
    · exact hs.isOpen c (Or.inr hheld)
  · intro c
    rw [registered_register, held_register hs hpoint hpending]
    rintro ⟨hheld, hne⟩ (hc | ⟨name', -, hname'⟩)
    · exact hne hc
    · exact hs.held c hheld ⟨name', hname'⟩

theorem complete_registered (hcomplete : s.Complete) (htidy : ¬ s.Overwrites name) :
    ((s.register name client).move k point).Complete := by
  intro c hopen
  rw [registered_register, held_register hs hpoint hpending]
  rcases hcomplete c hopen with ⟨name', hname'⟩ | hheld
  · by_cases hkeeps : ∃ name', name' ≠ name ∧ s.proxy.mongoClients name' = some c
    · exact Or.inl (Or.inr hkeeps)
    · -- the key of the registration was its only one
      have hname : name' = name := by
        by_contra hne
        exact hkeeps ⟨name', hne, hname'⟩
      subst hname
      exact absurd ⟨c, hname', fun n hn hc => hkeeps ⟨n, hn, hc⟩⟩ htidy
  · by_cases hc : c = client
    · exact Or.inl (Or.inl hc)
    · exact Or.inr ⟨hheld, hc⟩

end Registered

theorem not_registered_closeAll (h : s.Does .closeAll s') (c : MongoClient) : ¬ s'.Registered c := by
  cases h
  rintro ⟨name, hname⟩
  cases hname

theorem closeAll (hs : s.Ledger) (h : s.Does .closeAll s') : s'.Ledger := by
  have hnone := not_registered_closeAll h
  cases h
  refine ⟨hs.numbered, ?_, hs.once, ?_, fun c _ => hnone c⟩
  · rintro c (hc | hname)
    · exact hs.closed c hc
    · exact (hs.isOpen c (Or.inl hname)).1
  · rintro c (hname | hheld)
    · exact absurd hname (hnone c)
    · have hopen := hs.isOpen c (Or.inr hheld)
      refine ⟨hopen.1, ?_⟩
      rintro (hc | hname)
      · exact hopen.2 hc
      · exact hs.held c hheld hname

theorem complete_closeAll (hs : s.Complete) (h : s.Does .closeAll s') : s'.Complete := by
  cases h
  rintro c ⟨hcreated, hopen⟩
  rcases hs c ⟨hcreated, fun hc => hopen (Or.inl hc)⟩ with hname | hheld
  · exact absurd (Or.inr hname) hopen
  · exact Or.inr hheld

theorem step {e : ClientEvent} (hs : s.Ledger) (h : s.Books e s') : s'.Ledger := by
  cases h with
  | same h => exact hs.same h
  | made hpoint hpending hid hclients hnext => exact made hpoint hpending hclients hs hid hnext
  | registered hkey hpoint hpending hrest => exact (hs.registered hpoint hpending).same hrest
  | closed => exact hs.closeAll rfl

end Ledger

/-- A step that does not take the last key of a client. -/
def TidyStep (s : ClientSystem) (e : ClientEvent) (s' : ClientSystem) : Prop :=
  s.Does e s' ∧ ∀ k up name, e = .go k up → (s.point k).key = some name → ¬ s.Overwrites name

theorem complete_step {s s' : ClientSystem} {e : ClientEvent} (hs : s.Ledger)
    (hcomplete : s.Complete) (h : s.TidyStep e s') : s'.Complete := by
  obtain ⟨hdoes, htidy⟩ := h
  cases books_of_acts (acts_of_step hdoes) with
  | same h => exact h.complete hcomplete
  | made hpoint hpending hid hclients hnext =>
    exact Ledger.complete_made hpoint hpending hclients hcomplete
  | @registered k up name client _ hkey hpoint hpending hrest =>
    exact hrest.complete
      (hs.complete_registered hpoint hpending hcomplete (htidy k up name rfl hkey))
  | closed => exact Ledger.complete_closeAll hcomplete rfl

end ClientSystem

/-! ## Startup -/

/-- The key of a database in `GetAllRoutes`. -/
def routeKey (name : GoString) : GoString :=
  if IsPattern (normalizeDatabaseName name) then
    (RouteTable.patternRoute (normalizeDatabaseName name) 0).key
  else normalizeDatabaseName name

/-- No later database has the key of one whose client could be made. -/
def KeysDiffer (databases : List DatabaseEntry) : Prop :=
  databases.Pairwise fun e e' => e.connects = true → routeKey e.name ≠ routeKey e'.name

instance (databases : List DatabaseEntry) : Decidable (KeysDiffer databases) :=
  List.instDecidablePairwise databases

/-- Exact routes and pattern routes have different keys. -/
structure RouteTable.Keyed (t : RouteTable) : Prop where
  exact : ∀ k ref, t.routes k = some ref → 0x2A ∉ k
  patterns : ∀ pr ∈ t.patternRoutes, IsPattern pr.key

theorem isPattern_key {p : GoString} (hp : IsPattern p) (c : RouteRef) :
    IsPattern (RouteTable.patternRoute p c).key := by
  rcases PatternRoute.key_cases p c with ⟨-, -, hkey⟩ | hkey
  · rw [hkey]
    refine ⟨List.mem_append_right _ List.mem_cons_self, ?_⟩
    intro h
    have hlength := congrArg List.length h
    rw [List.length_append, List.length_append] at hlength
    have hone : (lit "*").length = 1 := rfl
    omega
  · rw [hkey]
    exact hp

namespace RouteTable

variable {t : RouteTable} (name : GoString) (ref : RouteRef)

theorem addRoute_cases :
    (normalizeDatabaseName name = lit "*" ∧ routeKey name = lit "*" ∧
      t.addRoute name ref = { t with wildcardRoute := some ref }) ∨
    (IsPattern (normalizeDatabaseName name) ∧
      routeKey name = (patternRoute (normalizeDatabaseName name) ref).key ∧
      t.addRoute name ref = { t with
        patternRoutes := t.patternRoutes ++ [patternRoute (normalizeDatabaseName name) ref] }) ∨
    (0x2A ∉ normalizeDatabaseName name ∧ routeKey name = normalizeDatabaseName name ∧
      t.addRoute name ref = { t with
        routes := update t.routes (normalizeDatabaseName name) (some ref) }) := by
  unfold addRoute routeKey
  by_cases hwild : normalizeDatabaseName name = lit "*"
  · exact Or.inl ⟨hwild, by rw [if_neg fun h => h.2 hwild, hwild], if_pos hwild⟩
  · by_cases hstar : 0x2A ∈ normalizeDatabaseName name
    · refine Or.inr (Or.inl ⟨⟨hstar, hwild⟩, ?_, ?_⟩)
      · obtain ⟨hpattern, htype⟩ := patternRoute_congr (normalizeDatabaseName name) 0 ref
        rw [if_pos ⟨hstar, hwild⟩, PatternRoute.key, PatternRoute.key, hpattern, htype]
      · simp only [if_neg hwild, if_pos (contains_asterisk.mpr hstar)]
    · refine Or.inr (Or.inr ⟨hstar, if_neg fun h => hstar h.1, ?_⟩)
      simp only [if_neg hwild, if_neg (mt contains_asterisk.mp hstar)]

theorem Keyed.addRoute (ht : t.Keyed) : (t.addRoute name ref).Keyed := by
  rcases addRoute_cases (t := t) name ref with ⟨-, -, h⟩ | ⟨hp, -, h⟩ | ⟨hstar, -, h⟩
  · rw [h]
    exact ⟨ht.exact, ht.patterns⟩
  · rw [h]
    refine ⟨ht.exact, ?_⟩
    intro pr hpr
    rcases List.mem_append.mp hpr with hold | hnew
    · exact ht.patterns pr hold
    · rw [List.mem_singleton.mp hnew]
      exact isPattern_key hp ref
  · rw [h]
    refine ⟨?_, ht.patterns⟩
    intro k r hk
    by_cases hkey : k = normalizeDatabaseName name
    · rw [hkey]
      exact hstar
    · exact ht.exact k r ((update_of_ne hkey _ _).symm.trans hk)

theorem Keyed.getAllRoutes_addRoute (ht : t.Keyed) (key : GoString) :
    (t.addRoute name ref).getAllRoutes key =
      if key = routeKey name then some ref else t.getAllRoutes key := by
  rcases addRoute_cases (t := t) name ref with ⟨-, hkey, h⟩ | ⟨hp, hkey, h⟩ | ⟨hstar, hkey, h⟩
  · rw [h, hkey]
    by_cases hk : key = lit "*" <;> simp [getAllRoutes, hk]
  · rw [h, hkey]
    have hpattern := isPattern_key hp ref
    by_cases hk : key = (patternRoute (normalizeDatabaseName name) ref).key
    · have hwild : key ≠ lit "*" := hk ▸ hpattern.2
      simp [getAllRoutes, ← hk, hwild]
    · simp [getAllRoutes, hk, Ne.symm hk]
  · rw [h, hkey]
    by_cases hk : key = normalizeDatabaseName name
    · have hnone : t.patternRoutes.reverse.find? (·.key = key) = none := by
        rw [List.find?_eq_none]
        intro pr hpr
        have hpr := ht.patterns pr (List.mem_reverse.mp hpr)
        intro heq
        rw [of_decide_eq_true heq, hk] at hpr
        exact hstar hpr.1
      have hwild : key ≠ lit "*" := by
        rintro rfl
        exact hstar (hk ▸ List.mem_cons_self)
      rw [if_pos hk]
      simp only [getAllRoutes, if_neg hwild, hnone]
      rw [hk]
      exact update_self _ _ _
    · rw [if_neg hk]
      simp only [getAllRoutes, update_of_ne hk]

end RouteTable

namespace Proxy

theorem addDatabases_concat (p : Proxy) (ref : RouteRef) (es : List DatabaseEntry)
    (e : DatabaseEntry) : p.addDatabases ref (es ++ [e]) =
      (p.addDatabases ref es).addDatabase (ref + es.length) e := by
  induction es generalizing p ref with
  | nil => rfl
  | cons d es ih =>
    show (p.addDatabase ref d).addDatabases (ref + 1) (es ++ [e]) = _
    rw [ih, List.length_cons, Nat.add_assoc, Nat.add_comm 1]
    rfl

/-- What the table and the routes say of the databases that were added: a key shows the last database
that has it. -/
structure Listed (p : Proxy) (es : List DatabaseEntry) : Prop where
  next : p.nextClient = es.length
  keyed : p.router.table.Keyed
  shown : ∀ key ref, p.router.table.getAllRoutes key = some ref ↔
    ∃ e, es[ref]? = some e ∧ routeKey e.name = key ∧
      ∀ ref' e', ref < ref' → es[ref']? = some e' → routeKey e'.name ≠ key
  ids : ∀ ref c, (p.routes ref).mongoClient = some c → c.id = ref
  clients : ∀ ref, (p.routes ref).mongoClient.isSome = true ↔
    ∃ e, es[ref]? = some e ∧ e.connects = true

theorem Listed.concat {p : Proxy} {es : List DatabaseEntry} (h : p.Listed es) (e : DatabaseEntry) :
    (p.addDatabase es.length e).Listed (es ++ [e]) := by
  have hget : ∀ {ref d}, (es ++ [e])[ref]? = some d ↔
      es[ref]? = some d ∨ ref = es.length ∧ d = e := by
    intro ref d
    rcases Nat.lt_trichotomy ref es.length with hlt | heq | hgt
    · rw [List.getElem?_append_left hlt]
      exact ⟨Or.inl, fun hor => hor.resolve_right fun hr => absurd hr.1 (Nat.ne_of_lt hlt)⟩
    · subst heq
      simp [eq_comm]
    · have hnone : (es ++ [e])[ref]? = none ∧ es[ref]? = none := by
        constructor <;> simp <;> omega
      simp [hnone, Nat.ne_of_gt hgt]
  have hlt : ∀ {ref d}, es[ref]? = some d → ref < es.length := fun hd =>
    (List.getElem?_eq_some_iff.mp hd).1
  refine ⟨?_, h.keyed.addRoute e.name es.length, ?_, ?_, ?_⟩
  · show p.nextClient + 1 = _
    rw [h.next, List.length_append]
    rfl
  · intro key ref
    show (p.router.table.addRoute e.name es.length).getAllRoutes key = some ref ↔ _
    rw [h.keyed.getAllRoutes_addRoute]
    split
    · rename_i hkey
      subst hkey
      rw [Option.some.injEq]
      constructor
      · rintro rfl
        refine ⟨e, hget.mpr (Or.inr ⟨rfl, rfl⟩), rfl, ?_⟩
        intro ref' e' hafter he'
        rcases hget.mp he' with hold | ⟨rfl, -⟩
        · exact absurd (hlt hold) (Nat.not_lt_of_lt hafter)
        · exact absurd hafter (Nat.lt_irrefl _)
      · rintro ⟨d, hd, -, hlast⟩
        rcases hget.mp hd with hold | ⟨rfl, -⟩
        · exact absurd rfl (hlast es.length e (hlt hold) (hget.mpr (Or.inr ⟨rfl, rfl⟩)))
        · rfl
    · rename_i hkey
      rw [h.shown]
      constructor
      · rintro ⟨d, hd, hname, hlast⟩
        refine ⟨d, hget.mpr (Or.inl hd), hname, ?_⟩
        intro ref' e' hafter he'
        rcases hget.mp he' with hold | ⟨-, rfl⟩
        · exact hlast ref' e' hafter hold
        · exact Ne.symm hkey
      · rintro ⟨d, hd, hname, hlast⟩
        rcases hget.mp hd with hold | ⟨-, rfl⟩
        · exact ⟨d, hold, hname, fun ref' e' hafter he' =>
            hlast ref' e' hafter (hget.mpr (Or.inl he'))⟩
        · exact absurd hname.symm hkey
  · intro ref c hc
    by_cases href : ref = es.length
    · subst href
      simp only [addDatabase, update_self, Option.ite_none_right_eq_some,
        Option.some.injEq] at hc
      rw [← hc.2]
      exact h.next
    · simp only [addDatabase, update_of_ne href] at hc
      exact h.ids ref c hc
  · intro ref
    simp only [hget]
    by_cases href : ref = es.length
    · subst href
      cases hconnects : e.connects <;> simp [addDatabase, hconnects]
    · simp only [addDatabase, update_of_ne href, h.clients, href, false_and, or_false]

variable (auth passthrough metrics forwards : Bool) (manager : Option Manager)
  (dc : Option DistributedCache)

theorem listed_addDatabases (databases : List DatabaseEntry) :
    ((new auth passthrough metrics forwards manager dc).addDatabases 0 databases).Listed
      databases := by
  induction databases using List.reverseRecOn with
  | nil =>
    refine ⟨rfl, ⟨?_, ?_⟩, ?_, ?_, ?_⟩
    · intro k ref h
      cases h
    · intro pr h
      cases h
    · intro key ref
      simp [addDatabases, new, DatabaseRouter.new, RouteTable.getAllRoutes, RouteTable.empty]
    · intro ref c h
      cases h
    · intro ref
      simp [addDatabases, new]
  | append_singleton es e ih =>
    rw [addDatabases_concat, Nat.zero_add]
    exact ih.concat e

end Proxy

namespace ClientSystem

/-! ## Runs -/

section Runs

variable {auth passthrough metrics forwards : Bool} {manager : Option Manager}
  {dc : Option DistributedCache} {databases : List DatabaseEntry}

/-- At startup a registered client is that of a route. -/
theorem ledger_startup :
    (startup auth passthrough metrics forwards manager dc databases).Ledger := by
  refine ⟨?_, ?_, ?_, ?_, ?_⟩
  · rintro c ⟨ref, href⟩
    refine id_addDatabases ?_ databases 0 ref c href
    intro ref' c' hc'
    cases hc'
  · intro c hc
    cases hc
  · intro j k c hj
    cases hj
  · rintro c (⟨name, hname⟩ | ⟨k, hk⟩)
    · obtain ⟨ref, -, href⟩ := Option.bind_eq_some_iff.mp hname
      exact ⟨⟨ref, href⟩, id⟩
    · cases hk
  · rintro c ⟨k, hk⟩
    cases hk

/-- **The clients at startup** are all registered exactly if their keys are not taken. -/
theorem registered_startup_iff :
    (∀ c, (startup auth passthrough metrics forwards manager dc databases).IsOpen c →
      (startup auth passthrough metrics forwards manager dc databases).Registered c) ↔
      KeysDiffer databases := by
  have h := Proxy.listed_addDatabases auth passthrough metrics forwards manager dc databases
  have hclient : ∀ ref e, databases[ref]? = some e → e.connects = true →
      ∃ c, (startup auth passthrough metrics forwards manager dc databases).IsOpen c ∧
        c.id = ref := by
    intro ref e he hconnects
    obtain ⟨c, hc⟩ := Option.isSome_iff_exists.mp ((h.clients ref).mpr ⟨e, he, hconnects⟩)
    exact ⟨c, ⟨⟨ref, hc⟩, id⟩, h.ids ref c hc⟩
  unfold KeysDiffer
  rw [List.pairwise_iff_getElem]
  constructor
  · intro hall i j hi hj hij hconnects heq
    obtain ⟨c, hopen, hid⟩ := hclient i _ (List.getElem?_eq_getElem hi) hconnects
    obtain ⟨key, hkey⟩ := hall c hopen
    obtain ⟨ref, hshown, hc⟩ := Option.bind_eq_some_iff.mp hkey
    obtain rfl : ref = i := (h.ids ref c hc).symm.trans hid
    obtain ⟨e, he, hname, hlast⟩ := (h.shown key ref).mp hshown
    rw [List.getElem?_eq_getElem hi] at he
    cases he
    exact hlast j _ hij (List.getElem?_eq_getElem hj) (heq.symm.trans hname)
  · rintro hkeys c ⟨⟨ref, hc⟩, -⟩
    obtain ⟨e, he, hconnects⟩ := (h.clients ref).mp (Option.isSome_iff_exists.mpr ⟨c, hc⟩)
    obtain ⟨hi, rfl⟩ := List.getElem?_eq_some_iff.mp he
    refine ⟨routeKey databases[ref].name, Option.bind_eq_some_iff.mpr ⟨ref, ?_, hc⟩⟩
    refine (h.shown _ ref).mpr ⟨databases[ref], he, rfl, ?_⟩
    intro ref' e' hafter he'
    obtain ⟨hj, rfl⟩ := List.getElem?_eq_some_iff.mp he'
    exact Ne.symm (hkeys ref ref' hi hj hafter hconnects)

variable {s : ClientSystem} {c : MongoClient}

theorem complete_of_runs {es : List ClientEvent} (hkeys : KeysDiffer databases)
    (h : Runs TidyStep (startup auth passthrough metrics forwards manager dc databases) es s) :
    s.Ledger ∧ s.Complete := by
  refine h.invariant (P := fun s => s.Ledger ∧ s.Complete)
    ⟨ledger_startup, fun c hc => Or.inl (registered_startup_iff.mpr hkeys c hc)⟩ ?_
  rintro s₁ e s₂ ⟨hs, hcomplete⟩ he
  exact ⟨hs.step (books_of_acts (acts_of_step he.1)), complete_step hs hcomplete he⟩

/-- Closing all clients leaves none open exactly if all open ones are registered. -/
theorem closeAll_closes_iff (s : ClientSystem) :
    (∀ s', s.Does .closeAll s' → ∀ c, ¬ s'.IsOpen c) ↔ ∀ c, s.IsOpen c → s.Registered c := by
  constructor
  · intro hall c hopen
    by_contra hname
    refine hall _ rfl c ⟨hopen.1, ?_⟩
    rintro (hclosed | hregistered)
    · exact hopen.2 hclosed
    · exact hname hregistered
  · intro hall s' hs' c hopen
    cases hs'
    obtain ⟨hcreated, hclosed⟩ := hopen
    exact hclosed (Or.inr (hall c ⟨hcreated, fun h => hclosed (Or.inl h)⟩))

/-- **When no client escapes the shutdown.** At startup every client is registered exactly if no later
database has the key of one whose client could be made. If so, in every run whose registrations each
take a key that is free, or whose client has another one, every open client is registered, and
`CloseAllMongoClients` closes every one, exactly if no request holds a client that it has yet to
register. -/
theorem all_registered_iff (auth passthrough metrics forwards : Bool) (manager : Option Manager)
    (dc : Option DistributedCache) (databases : List DatabaseEntry) :
    ((∀ c, (startup auth passthrough metrics forwards manager dc databases).IsOpen c →
        (startup auth passthrough metrics forwards manager dc databases).Registered c) ↔
      KeysDiffer databases) ∧
    (KeysDiffer databases → ∀ es s,
      Runs TidyStep (startup auth passthrough metrics forwards manager dc databases) es s →
        ((∀ c, s.IsOpen c → s.Registered c) ↔ ∀ c, ¬ s.Held c) ∧
        ((∀ s', s.Does .closeAll s' → ∀ c, ¬ s'.IsOpen c) ↔ ∀ c, ¬ s.Held c)) := by
  refine ⟨registered_startup_iff, ?_⟩
  intro hkeys es s hrun
  obtain ⟨hs, hcomplete⟩ := complete_of_runs hkeys hrun
  have hiff : (∀ c, s.IsOpen c → s.Registered c) ↔ ∀ c, ¬ s.Held c := by
    constructor
    · intro hall c hc
      exact hs.held c hc (hall c (hs.isOpen c (Or.inr hc)))
    · intro hnone c hc
      exact (hcomplete c hc).resolve_right (hnone c)
  exact ⟨hiff, s.closeAll_closes_iff.trans hiff⟩

end Runs

/-! ## A client that is replaced under its key -/

/-- The connection of request 0 breaks, and it resets its route. Request 1 makes a new client. -/
def replaced : List ClientEvent :=
  picksClient 0 ++ [fails 0, .go 0 calmUpstream, .go 0 calmUpstream] ++
    [.begin 1 (.new (lit "10.0.0.9:5000")) (lit "shop") 0] ++ List.replicate 7 (.go 1 calmUpstream)

/-- The shop, alone. -/
def shopStartup : ClientSystem :=
  startup false false false false (some (.new (lit "session") 0)) none [shopEntry]

/-- The new client takes the key of the one before, which is still open when all are closed. -/
theorem replaced_client_escapes :
    ∃ s s', Runs Does shopStartup replaced s ∧ s.IsOpen shopClient ∧
      ¬ s.Registered shopClient ∧ s.Does .closeAll s' ∧ s'.IsOpen shopClient := by
  have hplay : (play shopStartup replaced).map
      (fun s => (s.proxy.mongoClients, s.created, s.closed)) =
        some (update shopStartup.proxy.mongoClients (lit "shop") (some newShopClient),
          fun c => shopStartup.created c ∨ c = newShopClient, fun _ => False) := rfl
  obtain ⟨s, hs, heq⟩ := Option.map_eq_some_iff.mp hplay
  obtain ⟨hclients, hcreated, hclosed⟩ :
      s.proxy.mongoClients = _ ∧ s.created = _ ∧ s.closed = _ := by
    simpa only [Prod.mk.injEq] using heq
  have hopen : s.IsOpen shopClient := by
    unfold IsOpen
    rw [hcreated, hclosed]
    exact ⟨Or.inl ⟨0, by decide +kernel⟩, id⟩
  have hnone : ¬ s.Registered shopClient := by
    rintro ⟨name, hname⟩
    rw [hclients, update_apply] at hname
    split at hname
    · cases hname
    · -- the shop is the only key at startup
      rename_i hne
      obtain ⟨ref, href, -⟩ := Option.bind_eq_some_iff.mp hname
      have hlisted := Proxy.listed_addDatabases false false false false
        (some (.new (lit "session") 0)) none [shopEntry]
      obtain ⟨e, he, hkey, -⟩ := (hlisted.shown name ref).mp href
      obtain rfl : e = shopEntry := List.mem_singleton.mp (List.mem_of_getElem? he)
      exact hne (hkey.symm.trans (by decide))
  refine ⟨s, _, runs_of_play hs, hopen, hnone, rfl, hopen.1, ?_⟩
  rintro (hclosed' | hname)
  · exact hopen.2 hclosed'
  · exact hnone hname

end ClientSystem

end MongoBouncer
