import MongoBouncer.Proxy.Router

/-!
# The router against a map of patterns

The reference is a map from normalised patterns to configs. The router keeps patterns in three
places, after case folding and with their asterisk stripped, and its mutators find an entry in
three different ways:

* `AddRoute` and `UpdateRoute` of a pattern append to the pattern routes, so the config that a
  pattern had before stays in front of the new one;
* `RemoveRoute` does not normalise its pattern, and compares it with the stripped texts: it misses
  `test_*`, and `test_` takes `test_*` away.

* `RouteMap.Resolves` : what the reference answers;
* `Represents`        : the table holds the entries of the map, and no others;
* `RouteOp.Faithful`  : the calls for which the router does what the reference does.

Principal results: `Represents.resolves`, `Represents.step_iff` and `router_is_map`.
-/

namespace MongoBouncer

open GoStd Function

/-! ## The reference -/

/-- Configs by normalised pattern. -/
abbrev RouteMap := GoString → Option RouteRef

/-- The pattern has an asterisk, and is not the wildcard. -/
def IsPattern (p : GoString) : Prop := 0x2A ∈ p ∧ p ≠ lit "*"

instance (p : GoString) : Decidable (IsPattern p) := inferInstanceAs (Decidable (_ ∧ _))

/-- The pattern matches the normalised database name, as a pattern route of it does. -/
def Matches (p name : GoString) : Bool := matchesPattern name (RouteTable.patternRoute p 0)

namespace RouteMap

/-- The name has no exact entry. -/
def NoExact (m : RouteMap) (name : GoString) : Prop := 0x2A ∈ name ∨ m name = none

/-- What the reference answers: the exact entry of the name, else the config of a pattern that
matches it, else that of the wildcard. -/
inductive Resolves (m : RouteMap) (name : GoString) : Option RouteRef → Prop where
  | exact {c : RouteRef} (hname : 0x2A ∉ name) (h : m name = some c) : Resolves m name (some c)
  | pattern {p : GoString} {c : RouteRef} (hexact : m.NoExact name) (hp : m p = some c)
      (hpattern : IsPattern p) (hmatches : Matches p name) : Resolves m name (some c)
  | wildcard (hexact : m.NoExact name)
      (hnone : ∀ p c, m p = some c → IsPattern p → Matches p name = false) :
      Resolves m name (m (lit "*"))

variable {m : RouteMap} {name : GoString}

theorem Resolves.entry {o : Option RouteRef} (h : m.Resolves name o) : ∃ p, m p = o := by
  cases h with
  | exact _ h => exact ⟨name, h⟩
  | @pattern p _ _ hp => exact ⟨p, hp⟩
  | wildcard => exact ⟨lit "*", rfl⟩

theorem Resolves.no_match (h : m.Resolves name none) {p : GoString} {c : RouteRef}
    (hp : m p = some c) (hpattern : IsPattern p) : Matches p name = false := by
  generalize ho : none = o at h
  cases h with
  | exact | pattern => cases ho
  | wildcard _ hnone => exact hnone p c hp hpattern

end RouteMap

/-- A call of the router. Lookups may come between the changes. -/
inductive RouteOp where
  | addRoute (pattern : GoString) (config : RouteRef)
  | updateRoute (pattern : GoString) (config : RouteRef)
  | removeRoute (pattern : GoString)
  | getRoute (now : Int) (databaseName : GoString)

namespace RouteOp

def run (r : DatabaseRouter) : RouteOp → DatabaseRouter
  | addRoute pattern config => r.addRoute pattern config
  | updateRoute pattern config => r.updateRoute pattern config
  | removeRoute pattern => r.removeRoute pattern
  | getRoute now databaseName => (r.getRoute now databaseName).2

def apply (m : RouteMap) : RouteOp → RouteMap
  | addRoute pattern config => update m (normalizeDatabaseName pattern) (some config)
  | updateRoute pattern config => update m (normalizeDatabaseName pattern) (some config)
  | removeRoute pattern => update m (normalizeDatabaseName pattern) none
  | getRoute _ _ => m

/-- The pattern has at most one asterisk. -/
def OneStar : RouteOp → Prop
  | addRoute pattern _ | updateRoute pattern _ | removeRoute pattern =>
    (normalizeDatabaseName pattern).count 0x2A ≤ 1
  | getRoute _ _ => True

/-- A pattern is added that is new, or keeps its config. -/
def AddsNew (m : RouteMap) (pattern : GoString) (config : RouteRef) : Prop :=
  IsPattern (normalizeDatabaseName pattern) →
    m (normalizeDatabaseName pattern) = none ∨ m (normalizeDatabaseName pattern) = some config

/-- What is removed is the wildcard; or it is no exact name in another case, and of the patterns
that are present its own one, and no other, has it as its stripped text. -/
def RemovesOwn (m : RouteMap) (pattern : GoString) : Prop :=
  pattern = lit "*" ∨
    (normalizeDatabaseName pattern = pattern ∨ IsPattern (normalizeDatabaseName pattern) ∨
      m (normalizeDatabaseName pattern) = none) ∧
    ∀ q c, m q = some c → IsPattern q →
      ((RouteTable.patternRoute q c).pattern = pattern ↔ q = normalizeDatabaseName pattern)

/-- The call does to the router what it does to the reference. -/
def Faithful (m : RouteMap) : RouteOp → Prop
  | addRoute pattern config => AddsNew m pattern config
  | updateRoute pattern config => AddsNew m pattern config
  | removeRoute pattern => RemovesOwn m pattern
  | getRoute _ _ => True

end RouteOp

/-! ## Pattern routes -/

namespace RouteTable

theorem contains_asterisk {p : GoString} : contains p (lit "*") = true ↔ 0x2A ∈ p := by
  rw [contains_iff]
  exact List.singleton_infix_iff 0x2A p

@[simp] theorem route_patternRoute (p : GoString) (c : RouteRef) :
    (patternRoute p c).route = c := by
  unfold patternRoute
  split
  · rfl
  · split
    · rfl
    · split
      · rfl
      · rfl

theorem patternRoute_congr (p : GoString) (c c' : RouteRef) :
    (patternRoute p c).pattern = (patternRoute p c').pattern ∧
      (patternRoute p c).patternType = (patternRoute p c').patternType := by
  unfold patternRoute
  split
  · exact ⟨rfl, rfl⟩
  · split
    · exact ⟨rfl, rfl⟩
    · split
      · exact ⟨rfl, rfl⟩
      · exact ⟨rfl, rfl⟩

theorem matchesPattern_patternRoute (name p : GoString) (c : RouteRef) :
    matchesPattern name (patternRoute p c) = Matches p name := by
  obtain ⟨hpattern, htype⟩ := patternRoute_congr p c 0
  unfold Matches matchesPattern
  rw [hpattern, htype]

end RouteTable

theorem PatternRoute.key_cases (p : GoString) (c : RouteRef) :
    hasPrefix p (lit "*") = true ∧ hasSuffix p (lit "*") = true ∧
        (RouteTable.patternRoute p c).key = lit "*" ++ trimByte 0x2A p ++ lit "*" ∨
      (RouteTable.patternRoute p c).key = p := by
  unfold RouteTable.patternRoute
  split
  · rename_i h
    obtain ⟨hfirst, hlast⟩ := Bool.and_eq_true_iff.mp h
    exact Or.inl ⟨hfirst, hlast, rfl⟩
  · right
    split
    · rename_i h
      obtain ⟨t, rfl⟩ := List.isPrefixOf_iff_prefix.mp h
      show lit "*" ++ trimPrefix (lit "*" ++ t) (lit "*") = _
      rw [trimPrefix, if_pos h, List.drop_left' rfl]
    · split
      · rename_i h
        obtain ⟨t, rfl⟩ := List.isSuffixOf_iff_suffix.mp h
        show trimSuffix (t ++ lit "*") (lit "*") ++ lit "*" = _
        rw [trimSuffix, if_pos h, List.length_append, Nat.add_sub_cancel, List.take_left' rfl]
      · rfl

/-- A one-star pattern can be read off its pattern route. -/
theorem PatternRoute.key_patternRoute {p : GoString} (hp : IsPattern p) (hone : p.count 0x2A ≤ 1)
    (c : RouteRef) : (RouteTable.patternRoute p c).key = p := by
  refine (PatternRoute.key_cases p c).resolve_left ?_
  -- an asterisk at either end is one too many, unless there is nothing else
  rintro ⟨hfirst, hlast, -⟩
  obtain ⟨t, rfl⟩ := List.isPrefixOf_iff_prefix.mp hfirst
  obtain ⟨t', ht'⟩ := List.isSuffixOf_iff_suffix.mp hlast
  cases t' with
  | nil => exact hp.2 ht'.symm
  | cons a t' =>
    obtain ⟨-, rfl⟩ := List.cons.inj ht'
    have hstar : (lit "*").count 0x2A = 1 := rfl
    have happend : t'.append (lit "*") = t' ++ lit "*" := rfl
    rw [happend, List.count_append, List.count_append] at hone
    omega

theorem RouteTable.patternRoute_inj {p q : GoString} {c c' : RouteRef} (hp : IsPattern p)
    (hone : p.count 0x2A ≤ 1) (hq : IsPattern q) (hone' : q.count 0x2A ≤ 1)
    (h : patternRoute p c = patternRoute q c') : p = q ∧ c = c' := by
  constructor
  · rw [← PatternRoute.key_patternRoute hp hone c, h, PatternRoute.key_patternRoute hq hone' c']
  · rw [← route_patternRoute p c, h, route_patternRoute]

/-! ## Tables that hold the entries of a map -/

/-- The patterns of the map are normalised and have at most one asterisk. -/
def RouteMap.Normal (m : RouteMap) : Prop :=
  ∀ p c, m p = some c → normalizeDatabaseName p = p ∧ p.count 0x2A ≤ 1

theorem RouteOp.normal_apply {m : RouteMap} (h : m.Normal) {op : RouteOp} (hone : op.OneStar) :
    RouteMap.Normal (op.apply m) := by
  have hupdate : ∀ (pattern : GoString) (o : Option RouteRef),
      (normalizeDatabaseName pattern).count 0x2A ≤ 1 →
      RouteMap.Normal (update m (normalizeDatabaseName pattern) o) := by
    intro pattern o hcount p c hp
    by_cases hk : p = normalizeDatabaseName pattern
    · rw [hk]
      exact ⟨toLower_idem pattern, hcount⟩
    · rw [update_of_ne hk] at hp
      exact h p c hp
  cases op with
  | addRoute pattern | updateRoute pattern | removeRoute pattern => exact hupdate pattern _ hone
  | getRoute now databaseName => exact h

/-- The table holds the entries of the map, and no others. -/
structure Represents (t : RouteTable) (m : RouteMap) : Prop where
  routes : ∀ k, t.routes k = if 0x2A ∈ k then none else m k
  wildcard : t.wildcardRoute = m (lit "*")
  patterns : ∀ pr, pr ∈ t.patternRoutes ↔
    ∃ p c, m p = some c ∧ IsPattern p ∧ pr = RouteTable.patternRoute p c

theorem represents_empty : Represents .empty fun _ => none :=
  ⟨fun k => by simp [RouteTable.empty], rfl, fun pr => by simp [RouteTable.empty]⟩

namespace Represents

variable {t : RouteTable} {m : RouteMap}

/-- **A table that holds the entries of the map answers as the reference does.** -/
theorem resolves (h : Represents t m) (name : GoString) : m.Resolves name (t.lookup name) := by
  unfold RouteTable.lookup
  cases hr : t.routes name with
  | some c =>
    rw [h.routes] at hr
    split at hr
    · cases hr
    · rename_i hname
      exact .exact hname hr
  | none =>
    have hexact : m.NoExact name := by
      rw [h.routes] at hr
      split at hr
      · rename_i hname
        exact Or.inl hname
      · exact Or.inr hr
    cases hfind : t.patternRoutes.find? (matchesPattern name) with
    | some pr =>
      obtain ⟨p, c, hp, hpattern, rfl⟩ := (h.patterns pr).mp (List.mem_of_find?_eq_some hfind)
      have hmatches := List.find?_some hfind
      rw [RouteTable.matchesPattern_patternRoute] at hmatches
      simp only [RouteTable.route_patternRoute]
      exact .pattern hexact hp hpattern hmatches
    | none =>
      simp only [h.wildcard]
      refine .wildcard hexact ?_
      intro p c hp hpattern
      have hmem := (h.patterns _).mpr ⟨p, c, hp, hpattern, rfl⟩
      have hno := List.find?_eq_none.mp hfind _ hmem
      rw [RouteTable.matchesPattern_patternRoute] at hno
      simpa using hno

theorem exact_update {n : GoString} (hn : 0x2A ∈ n) (o : Option RouteRef) (k : GoString) :
    (if 0x2A ∈ k then none else update m n o k) = if 0x2A ∈ k then none else m k := by
  split
  · rfl
  · rename_i hk
    have hne : k ≠ n := by
      rintro rfl
      exact hk hn
    rw [update_of_ne hne]

theorem patterns_update {n : GoString} (hn : ¬ IsPattern n) (o : Option RouteRef)
    (pr : PatternRoute) :
    (∃ p c, update m n o p = some c ∧ IsPattern p ∧ pr = RouteTable.patternRoute p c) ↔
      ∃ p c, m p = some c ∧ IsPattern p ∧ pr = RouteTable.patternRoute p c := by
  refine exists_congr fun p => exists_congr fun c => and_congr_left ?_
  rintro ⟨hpattern, -⟩
  have hne : p ≠ n := by
    rintro rfl
    exact hn hpattern
  rw [update_of_ne hne]

section

variable (h : Represents t m)

include h

theorem setWildcard (o : Option RouteRef) :
    Represents { t with wildcardRoute := o } (update m (lit "*") o) := by
  refine ⟨?_, by simp, ?_⟩
  · intro k
    rw [exact_update (n := lit "*") List.mem_cons_self]
    exact h.routes k
  · intro pr
    rw [patterns_update fun hpattern => hpattern.2 rfl]
    exact h.patterns pr

theorem setExact {n : GoString} (hn : 0x2A ∉ n) (o : Option RouteRef) :
    Represents { t with routes := update t.routes n o } (update m n o) := by
  refine ⟨?_, ?_, ?_⟩
  · intro k
    by_cases hk : k = n
    · subst hk
      simp [hn]
    · simp only [update_of_ne hk]
      exact h.routes k
  · have hne : lit "*" ≠ n := by
      rintro rfl
      exact hn List.mem_cons_self
    simp only [update_of_ne hne]
    exact h.wildcard
  · intro pr
    rw [patterns_update fun hpattern => hn hpattern.1]
    exact h.patterns pr

theorem append_iff (hm : m.Normal) {n : GoString} (hn : IsPattern n)
    (hone : n.count 0x2A ≤ 1) (c : RouteRef) :
    Represents { t with patternRoutes := t.patternRoutes ++ [RouteTable.patternRoute n c] }
        (update m n (some c)) ↔ m n = none ∨ m n = some c := by
  constructor
  · intro h'
    cases hc : m n with
    | none => exact Or.inl rfl
    | some c₀ =>
      -- the entry that the pattern had is still there
      have hold := (h.patterns _).mpr ⟨n, c₀, hc, hn, rfl⟩
      obtain ⟨q, c', hq, hq', heq⟩ := (h'.patterns _).mp (List.mem_append_left _ hold)
      have hqone : q.count 0x2A ≤ 1 := by
        by_cases hqn : q = n
        · rw [hqn]
          exact hone
        · rw [update_of_ne hqn] at hq
          exact (hm q c' hq).2
      obtain ⟨rfl, rfl⟩ := RouteTable.patternRoute_inj hn hone hq' hqone heq
      right
      rw [update_self] at hq
      exact hq.symm
  · intro hnew
    refine ⟨?_, ?_, ?_⟩
    · intro k
      rw [exact_update hn.1]
      exact h.routes k
    · simp only [update_of_ne hn.2.symm]
      exact h.wildcard
    · intro pr
      simp only [List.mem_append, List.mem_singleton, h.patterns]
      constructor
      · rintro (⟨p, c', hp, hpattern, rfl⟩ | rfl)
        · by_cases hpn : p = n
          · subst hpn
            have hc : c' = c := by
              rw [hp] at hnew
              simpa using hnew
            exact ⟨p, c', by rw [hc, update_self], hpattern, rfl⟩
          · exact ⟨p, c', by rwa [update_of_ne hpn], hpattern, rfl⟩
        · exact ⟨n, c, update_self .., hn, rfl⟩
      · rintro ⟨p, c', hp, hpattern, rfl⟩
        by_cases hpn : p = n
        · subst hpn
          rw [update_self] at hp
          exact Or.inr (by rw [Option.some.inj hp])
        · exact Or.inl ⟨p, c', by rwa [update_of_ne hpn] at hp, hpattern, rfl⟩

theorem addRoute_iff (hm : m.Normal) {pattern : GoString}
    (hone : (normalizeDatabaseName pattern).count 0x2A ≤ 1) (config : RouteRef) :
    Represents (t.addRoute pattern config)
        (update m (normalizeDatabaseName pattern) (some config)) ↔
      RouteOp.AddsNew m pattern config := by
  unfold RouteTable.addRoute RouteOp.AddsNew
  generalize normalizeDatabaseName pattern = n at hone ⊢
  simp only [RouteTable.contains_asterisk]
  split
  · rename_i hn
    rw [hn]
    exact iff_of_true (h.setWildcard _) fun hpattern => absurd rfl hpattern.2
  · split
    · rename_i hne hstar
      rw [h.append_iff hm ⟨hstar, hne⟩ hone]
      exact ⟨fun hnew _ => hnew, fun hnew => hnew ⟨hstar, hne⟩⟩
    · rename_i hstar
      exact iff_of_true (h.setExact hstar _) fun hpattern => absurd hpattern.1 hstar

theorem filter_iff (hm : m.Normal) {pattern n : GoString} :
    (∀ pr, pr ∈ t.patternRoutes.filter (·.pattern ≠ pattern) ↔
      ∃ p c, update m n none p = some c ∧ IsPattern p ∧ pr = RouteTable.patternRoute p c) ↔
    ∀ q c, m q = some c → IsPattern q →
      ((RouteTable.patternRoute q c).pattern = pattern ↔ q = n) := by
  have hrest : ∀ {p c}, update m n none p = some c ↔ m p = some c ∧ p ≠ n := by
    intro p c
    by_cases hp : p = n
    · simp [hp]
    · simp [hp]
  simp only [List.mem_filter, h.patterns, hrest, decide_eq_true_eq]
  constructor
  · intro hleft q c hq hpattern
    have hentry := hleft (RouteTable.patternRoute q c)
    constructor
    · intro htext
      by_contra hqn
      obtain ⟨-, hne⟩ := hentry.mpr ⟨q, c, ⟨hq, hqn⟩, hpattern, rfl⟩
      exact hne htext
    · rintro rfl
      by_contra htext
      obtain ⟨q', c', ⟨hq', hne⟩, hpattern', heq⟩ := hentry.mp ⟨⟨q, c, hq, hpattern, rfl⟩, htext⟩
      exact hne (RouteTable.patternRoute_inj hpattern (hm q c hq).2 hpattern' (hm q' c' hq').2
        heq).1.symm
  · intro hown pr
    constructor
    · rintro ⟨⟨p, c, hp, hpattern, rfl⟩, htext⟩
      exact ⟨p, c, ⟨hp, fun hpn => htext ((hown p c hp hpattern).mpr hpn)⟩, hpattern, rfl⟩
    · rintro ⟨p, c, ⟨hp, hpn⟩, hpattern, rfl⟩
      exact ⟨⟨p, c, hp, hpattern, rfl⟩, fun htext => hpn ((hown p c hp hpattern).mp htext)⟩

theorem removeRoute_iff (hm : m.Normal) (pattern : GoString) : Represents (t.removeRoute pattern)
        (update m (normalizeDatabaseName pattern) none) ↔
      RouteOp.RemovesOwn m pattern := by
  unfold RouteTable.removeRoute RouteOp.RemovesOwn
  by_cases hstar : pattern = lit "*"
  · have hn : normalizeDatabaseName pattern = lit "*" := by
      rw [hstar]
      decide +kernel
    rw [if_pos hstar, hn]
    exact iff_of_true (h.setWildcard none) (Or.inl hstar)
  · rw [if_neg hstar, or_iff_right hstar, ← h.filter_iff hm]
    have hkeys : ∀ c, m pattern = some c → normalizeDatabaseName pattern = pattern :=
      fun c hc => (hm pattern c hc).1
    generalize normalizeDatabaseName pattern = n at hkeys ⊢
    constructor
    · intro h'
      refine ⟨?_, h'.patterns⟩
      by_contra hno
      simp only [not_or] at hno
      obtain ⟨hne, hpattern, hsome⟩ := hno
      by_cases hwild : n = lit "*"
      · have hw := h'.wildcard
        simp only [hwild, update_self] at hw
        rw [hwild, ← h.wildcard, hw] at hsome
        exact hsome rfl
      · have hn : 0x2A ∉ n := fun hmem => hpattern ⟨hmem, hwild⟩
        have hroute := h'.routes n
        simp only [update_of_ne hne, update_self, h.routes, if_neg hn] at hroute
        exact hsome hroute
    · rintro ⟨hwhen, hpatterns⟩
      by_cases hne : n = pattern
      · subst hne
        refine ⟨?_, ?_, hpatterns⟩
        · intro k
          simp only [update_apply, h.routes]
          split_ifs <;> rfl
        · rw [update_of_ne (Ne.symm hstar)]
          exact h.wildcard
      · -- there is no entry of this spelling
        have hnone : m pattern = none := by
          cases hc : m pattern with
          | none => rfl
          | some c => exact absurd (hkeys c hc) hne
        have hroutes : update t.routes pattern none = t.routes := by
          rw [update_eq_self_iff, h.routes, hnone, ite_self]
        rcases hwhen with heq | hn | hgone
        · exact absurd heq hne
        · refine ⟨?_, ?_, hpatterns⟩
          · intro k
            rw [exact_update hn.1, ← h.routes, hroutes]
          · rw [update_of_ne hn.2.symm]
            exact h.wildcard
        · have hmap : update m n none = m := update_eq_self_iff.mpr hgone.symm
          rw [hmap] at hpatterns ⊢
          exact ⟨by rw [hroutes]; exact h.routes, h.wildcard, hpatterns⟩

end

/-- **One call.** From a table that holds the entries of the map, a call leads to one that does so
again exactly when it is faithful. -/
theorem step_iff {r : DatabaseRouter} (h : Represents r.table m) (hm : m.Normal) {op : RouteOp}
    (hone : op.OneStar) :
    Represents (op.run r).table (op.apply m) ↔ op.Faithful m := by
  cases op with
  | addRoute _ config | updateRoute _ config => exact h.addRoute_iff hm hone config
  | removeRoute pattern => exact h.removeRoute_iff hm pattern
  | getRoute now databaseName =>
    refine iff_of_true ?_ trivial
    simp only [RouteOp.run, DatabaseRouter.table_getRoute]
    exact h

end Represents

/-! ## Histories -/

def RouteOp.runAll (ops : List RouteOp) : DatabaseRouter := ops.foldl RouteOp.run .new

def RouteOp.applyAll (ops : List RouteOp) : RouteMap := ops.foldl RouteOp.apply fun _ => none

/-- Every call, from a map on, is faithful and has at most one asterisk in its pattern. -/
def RouteOp.AllFaithful (m : RouteMap) : List RouteOp → Prop
  | [] => True
  | op :: ops => op.OneStar ∧ op.Faithful m ∧ AllFaithful (op.apply m) ops

theorem Represents.run {r : DatabaseRouter} {m : RouteMap} (h : Represents r.table m)
    (hm : m.Normal) {ops : List RouteOp} (hops : RouteOp.AllFaithful m ops) :
    RouteMap.Normal (ops.foldl RouteOp.apply m) ∧
      Represents (ops.foldl RouteOp.run r).table (ops.foldl RouteOp.apply m) := by
  induction ops generalizing r m with
  | nil => exact ⟨hm, h⟩
  | cons op ops ih =>
    obtain ⟨hone, hop, hrest⟩ := hops
    exact ih ((h.step_iff hm hone).mpr hop) (RouteOp.normal_apply hm hone) hrest

/-- **The router is a map of patterns, as long as its calls are faithful.** After such a history
every lookup answers as the reference does. A further call leaves a table that holds exactly the
entries of the reference if and only if it is faithful too. -/
theorem router_is_map {ops : List RouteOp} (h : RouteOp.AllFaithful (fun _ => none) ops) :
    (∀ now databaseName, (RouteOp.applyAll ops).Resolves (normalizeDatabaseName databaseName)
      ((RouteOp.runAll ops).getRoute now databaseName).1.toOption) ∧
    ∀ op : RouteOp, op.OneStar →
      (Represents (RouteOp.runAll (ops ++ [op])).table (RouteOp.applyAll (ops ++ [op])) ↔
        op.Faithful (RouteOp.applyAll ops)) := by
  have hempty : RouteMap.Normal fun _ => none := nofun
  have hrun : (RouteOp.applyAll ops).Normal ∧
      Represents (RouteOp.runAll ops).table (RouteOp.applyAll ops) :=
    Represents.run (r := .new) represents_empty hempty h
  obtain ⟨hm, hrep⟩ := hrun
  refine ⟨?_, ?_⟩
  · intro now databaseName
    have hresolves := hrep.resolves (normalizeDatabaseName databaseName)
    rw [DatabaseRouter.getRoute_eq]
    cases hl : (RouteOp.runAll ops).table.lookup (normalizeDatabaseName databaseName) with
    | some c =>
      rw [RouteTable.route_of_some hl]
      rwa [hl] at hresolves
    | none =>
      rw [RouteTable.route_of_none hl]
      rwa [hl] at hresolves
  · intro op hone
    simp only [RouteOp.applyAll, RouteOp.runAll, List.foldl_append, List.foldl_cons,
      List.foldl_nil]
    exact hrep.step_iff hm hone

/-- A pattern is added, and an exact name is added, updated and removed. -/
def shopHistory : List RouteOp :=
  [.addRoute (lit "test_*") 1, .addRoute (lit "Shop") 2, .updateRoute (lit "shop") 3,
    .removeRoute (lit "shop")]

theorem faithful_shopHistory : RouteOp.AllFaithful (fun _ => none) shopHistory := by
  have htest : normalizeDatabaseName (lit "test_*") = lit "test_*" := by decide +kernel
  have hShop : normalizeDatabaseName (lit "Shop") = lit "shop" := by decide +kernel
  have hshop : normalizeDatabaseName (lit "shop") = lit "shop" := by decide +kernel
  have hexact : ¬ IsPattern (lit "shop") := by decide
  simp only [shopHistory, RouteOp.AllFaithful, RouteOp.OneStar, RouteOp.Faithful, RouteOp.apply,
    RouteOp.AddsNew, RouteOp.RemovesOwn, htest, hShop, hshop, hexact, false_implies]
  refine ⟨by decide, by simp, by decide, trivial, by decide, trivial, by decide,
    Or.inr ⟨Or.inl trivial, ?_⟩, trivial⟩
  intro q c hq hpattern
  have hne : q ≠ lit "shop" := by
    rintro rfl
    exact hexact hpattern
  obtain rfl : q = lit "test_*" := by
    by_contra htest
    simp [hne, htest] at hq
  rw [(RouteTable.patternRoute_congr _ c 0).1]
  exact iff_of_false (by decide) hne

/-- The pattern is still there, and the exact name is not. -/
theorem router_is_map_shopHistory :
    (RouteOp.applyAll shopHistory).Resolves (lit "test_a") (some 1) ∧
      (RouteOp.applyAll shopHistory).Resolves (lit "shop") none := by
  obtain ⟨hmap, -⟩ := router_is_map faithful_shopHistory
  refine ⟨?_, ?_⟩
  · have hget : ((RouteOp.runAll shopHistory).getRoute 0 (lit "test_a")).1.toOption = some 1 := by
      decide +kernel
    exact hget ▸ hmap 0 (lit "test_a")
  · have hget : ((RouteOp.runAll shopHistory).getRoute 0 (lit "shop")).1.toOption = none := by
      decide +kernel
    exact hget ▸ hmap 0 (lit "shop")

/-! ## Histories that go wrong -/

def updatedPattern : List RouteOp := [.addRoute (lit "test_*") 1, .updateRoute (lit "test_*") 2]

def removedPattern : List RouteOp := [.addRoute (lit "test_*") 1, .removeRoute (lit "test_*")]

/-- A prefix pattern, and the removal of the name that is its stripped text. -/
def removedName : List RouteOp := [.addRoute (lit "test_*") 1, .removeRoute (lit "test_")]

/-- An exact name that is not in lower case, and its removal. -/
def removedShop : List RouteOp := [.addRoute (lit "Shop") 1, .removeRoute (lit "Shop")]

/-- The update of a prefix pattern is not seen; a prefix pattern is not removed; a name takes the
pattern away whose stripped text it is; an exact name that is not in lower case is not removed. -/
theorem router_is_not_map :
    (((RouteOp.runAll updatedPattern).getRoute 0 (lit "test_a")).1 = .ok 1 ∧
      ¬ (RouteOp.applyAll updatedPattern).Resolves (lit "test_a") (some 1)) ∧
    (((RouteOp.runAll removedPattern).getRoute 0 (lit "test_a")).1 = .ok 1 ∧
      ¬ (RouteOp.applyAll removedPattern).Resolves (lit "test_a") (some 1)) ∧
    (((RouteOp.runAll removedName).getRoute 0 (lit "test_a")).1.toOption = none ∧
      ¬ (RouteOp.applyAll removedName).Resolves (lit "test_a") none) ∧
    (((RouteOp.runAll removedShop).getRoute 0 (lit "Shop")).1 = .ok 1 ∧
      ¬ (RouteOp.applyAll removedShop).Resolves (lit "shop") (some 1)) := by
  -- the reference has no entry with config 1 once it was replaced or deleted
  have hreplaced : ∀ (n : GoString) (o : Option RouteRef), o ≠ some 1 →
      ∀ name, ¬ RouteMap.Resolves
        (update (update (fun _ => none) n (some 1)) n o) name (some 1) := by
    intro n o ho name h
    obtain ⟨p, hp⟩ := h.entry
    by_cases hpn : p = n
    · rw [hpn, update_self] at hp
      exact ho hp
    · simp [hpn] at hp
  refine ⟨⟨by decide +kernel, ?_⟩, ⟨by decide +kernel, ?_⟩, ⟨by decide +kernel, ?_⟩,
    ⟨by decide +kernel, ?_⟩⟩
  · exact hreplaced _ (some 2) (by decide) _
  · exact hreplaced _ none (by decide) _
  · intro h
    have hp : RouteOp.applyAll removedName (lit "test_*") = some 1 := by decide +kernel
    exact absurd (h.no_match hp (by decide)) (by decide +kernel)
  · exact hreplaced _ none (by decide) _

end MongoBouncer
