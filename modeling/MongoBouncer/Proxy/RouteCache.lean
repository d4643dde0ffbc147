import MongoBouncer.RwLock
import MongoBouncer.Proxy.Router

/-!
# The route cache under concurrent calls

`GetRoute` asks the cache before it takes the router's mutex, fills the cache while it holds the
mutex for reading, and `AddRoute`, `UpdateRoute` and `RemoveRoute` clear the cache before they
change the table, while they hold the mutex for writing. The calls of `proxy/router.go` are taken
apart at these places here and interleaved, with each other and with the sweeps of the cache.

* `RoutePoint`   : where a call stands, and its next step;
* `RouterSystem` : calls on one router, `RouterRun` its runs.

Principal results: `RouterRun.inv` (in every state the cache agrees with the table) and
`RouterRun.answers` (an answer is that of a table that was there during the call).
-/

namespace MongoBouncer

open GoStd Lruttl RwLock

/-! ## The steps of a call -/

/-- The calls that change the table. -/
inductive RouteChange where
  | addRoute (pattern : GoString) (config : RouteRef)
  | updateRoute (pattern : GoString) (config : RouteRef)
  | removeRoute (pattern : GoString)
  deriving DecidableEq, Repr

def RouteChange.apply (t : RouteTable) : RouteChange → RouteTable
  | .addRoute pattern config => t.addRoute pattern config
  | .updateRoute pattern config => t.addRoute pattern config
  | .removeRoute pattern => t.removeRoute pattern

inductive RouteCall where
  | getRoute (databaseName : GoString)
  | change (c : RouteChange)
  deriving DecidableEq, Repr

inductive RoutePoint where
  /-- It has not begun. -/
  | idle (call : RouteCall)
  /-- `routeCache.Get` -/
  | lookup (databaseName : GoString)
  /-- `mutex.RLock` -/
  | rLock (databaseName : GoString)
  /-- The search of the table. -/
  | resolve (databaseName : GoString)
  /-- `routeCache.Add` -/
  | cacheRoute (databaseName : GoString) (route : RouteRef)
  /-- `mutex.RUnlock` -/
  | rUnlock (databaseName : GoString) (answer : Except GoError RouteRef)
  /-- `GetRoute` has returned. -/
  | answered (databaseName : GoString) (answer : Except GoError RouteRef)
  /-- `mutex.Lock` -/
  | lock (c : RouteChange)
  /-- `routeCache.Clear` -/
  | clear (c : RouteChange)
  /-- The change of the table. -/
  | change (c : RouteChange)
  /-- `mutex.Unlock` -/
  | unlock (c : RouteChange)
  /-- The change has returned. -/
  | changed (c : RouteChange)
  deriving DecidableEq

/-- What the calls on a router share. -/
structure RouterMemory where
  table : RouteTable
  routeCache : LruTtl GoString RouteRef

def DatabaseRouter.memory (r : DatabaseRouter) : RouterMemory :=
  { table := r.table, routeCache := r.routeCache }

namespace RoutePoint

/-- The mode in which the call asks for the mutex in its next step. -/
def wants : RoutePoint → Option Mode
  | .rLock _ => some .read
  | .lock _ => some .write
  | _ => none

/-- The mode in which the call holds the mutex. -/
def holds : RoutePoint → Option Mode
  | .resolve _ | .cacheRoute _ _ | .rUnlock _ _ => some .read
  | .clear _ | .change _ | .unlock _ => some .write
  | _ => none

def step (now : Int) : RouterMemory × RoutePoint → RouterMemory × RoutePoint
  | (m, .idle (.getRoute databaseName)) => (m, .lookup databaseName)
  | (m, .lookup databaseName) =>
    let cached := m.routeCache.get now (normalizeDatabaseName databaseName)
    match cached.1 with
    | some route => ({ m with routeCache := cached.2 }, .answered databaseName (.ok route))
    | none => ({ m with routeCache := cached.2 }, .rLock databaseName)
  | (m, .rLock databaseName) => (m, .resolve databaseName)
  | (m, .resolve databaseName) =>
    match m.table.lookup (normalizeDatabaseName databaseName) with
    | some route => (m, .cacheRoute databaseName route)
    | none =>
      (m, .rUnlock databaseName
        (.error ⟨lit "no route found for database: " ++ databaseName⟩))
  | (m, .cacheRoute databaseName route) =>
    ({ m with
        routeCache := m.routeCache.add now (normalizeDatabaseName databaseName) route },
      .rUnlock databaseName (.ok route))
  | (m, .rUnlock databaseName answer) => (m, .answered databaseName answer)
  | (m, .idle (.change c)) => (m, .lock c)
  | (m, .lock c) => (m, .clear c)
  | (m, .clear c) => ({ m with routeCache := m.routeCache.clear }, .change c)
  | (m, .change c) => ({ m with table := c.apply m.table }, .unlock c)
  | (m, .unlock c) => (m, .changed c)
  | (m, .answered databaseName answer) => (m, .answered databaseName answer)
  | (m, .changed c) => (m, .changed c)

variable {now : Int} {m : RouterMemory} {databaseName : GoString} {route : RouteRef}

/-! ### What a step can do -/

/-- What a step from `p` does to the memory. -/
inductive Effect (m : RouterMemory) (p : RoutePoint) : RouterMemory → Prop where
  | same {m' : RouterMemory} (htable : m'.table = m.table)
      (hcache : ∀ k, m'.routeCache.peek k = m.routeCache.peek k) : Effect m p m'
  | add (databaseName : GoString) (route : RouteRef) (now : Int)
      (hp : p = .cacheRoute databaseName route) :
      Effect m p
        { m with routeCache := m.routeCache.add now (normalizeDatabaseName databaseName) route }
  | clear (c : RouteChange) (hp : p = .clear c) :
      Effect m p { m with routeCache := m.routeCache.clear }
  | change (c : RouteChange) (hp : p = .change c) : Effect m p { m with table := c.apply m.table }

theorem effect_step (now : Int) (m : RouterMemory) (p : RoutePoint) :
    Effect m p (step now (m, p)).1 := by
  have hsame : Effect m p m := .same rfl fun _ => rfl
  cases p with
  | idle call => cases call <;> exact hsame
  | lookup databaseName =>
    simp only [step]
    split
    · exact .same rfl fun k => LruTtl.peek_get ..
    · exact .same rfl fun k => LruTtl.peek_get ..
  | resolve databaseName =>
    simp only [step]
    split
    · exact hsame
    · exact hsame
  | cacheRoute databaseName route => exact .add databaseName route now rfl
  | clear c => exact .clear c rfl
  | change c => exact .change c rfl
  | _ => exact hsame

theorem holds_step {p : RoutePoint} {mode : Mode}
    (h : (step now (m, p)).2.holds = some mode) : p.holds = some mode ∨ p.wants = some mode := by
  cases p with
  | idle call => cases call <;> cases h
  | lookup databaseName =>
    simp only [step] at h
    split at h <;> cases h
  | resolve databaseName =>
    simp only [step] at h
    split at h
    · exact Or.inl h
    · exact Or.inl h
  | rLock | lock => exact Or.inr h
  | rUnlock | unlock => cases h
  | _ => exact Or.inl h

theorem lookup_of_step_eq_cacheRoute {p : RoutePoint}
    (h : (step now (m, p)).2 = .cacheRoute databaseName route) :
    (step now (m, p)).1 = m ∧ m.table.lookup (normalizeDatabaseName databaseName) = some route := by
  cases p with
  | idle call => cases call <;> cases h
  | lookup name =>
    simp only [step] at h
    split at h <;> cases h
  | resolve name =>
    simp only [step] at h ⊢
    split at h
    · rename_i hfound
      cases h
      rw [hfound]
      exact ⟨rfl, rfl⟩
    · cases h
  | _ => cases h

theorem peek_of_step_eq_change {p : RoutePoint} {c : RouteChange}
    (h : (step now (m, p)).2 = .change c) (k : GoString) :
    (step now (m, p)).1.routeCache.peek k = none := by
  cases p with
  | idle call => cases call <;> cases h
  | lookup | resolve =>
    simp only [step] at h
    split at h <;> cases h
  | clear c' => rfl
  | _ => cases h

/-- The answer that a `GetRoute` has found. -/
def answer : RoutePoint → Option (GoString × Except GoError RouteRef)
  | .cacheRoute databaseName route => some (databaseName, .ok route)
  | .rUnlock databaseName answer => some (databaseName, answer)
  | .answered databaseName answer => some (databaseName, answer)
  | _ => none

end RoutePoint

/-- Every cached route is the one that the table has. -/
def RouterMemory.Coherent (m : RouterMemory) : Prop :=
  ∀ k route, m.routeCache.peek k = some route → m.table.lookup k = some route

namespace RoutePoint

variable {now : Int} {m : RouterMemory} {databaseName : GoString}

/-- **An answer is found in a step**, and is that of the table at that moment. -/
theorem answer_step (hm : m.Coherent) {p : RoutePoint} {a : Except GoError RouteRef}
    (h : (step now (m, p)).2.answer = some (databaseName, a)) :
    p.answer = some (databaseName, a) ∨
      (∀ call, p ≠ .idle call) ∧ m.table.route databaseName = a := by
  cases p with
  | idle call => cases call <;> cases h
  | lookup name =>
    right
    refine ⟨nofun, ?_⟩
    simp only [step] at h
    split at h
    · rename_i route hcached
      cases h
      exact RouteTable.route_of_some (hm _ _ (by simpa using hcached))
    · cases h
  | resolve name =>
    right
    refine ⟨nofun, ?_⟩
    simp only [step] at h
    split at h
    · rename_i route hfound
      cases h
      exact RouteTable.route_of_some hfound
    · rename_i hnone
      cases h
      exact RouteTable.route_of_none hnone
  | cacheRoute | rUnlock | answered => exact Or.inl h
  | _ => cases h

end RoutePoint

/-! ## Calls that run at the same time -/

/-- Calls on one router. -/
structure RouterSystem (T : Type) where
  memory : RouterMemory
  calls : T → RoutePoint

/-- What can happen at a time: a step of one of the calls, or one of a sweep of the cache, which
`expireLoop` repeats. -/
inductive RouterTurn (T : Type) where
  | call (t : T) (now : Int)
  | sweep (now : Int)

namespace RouterSystem

variable {T : Type}

def initial (r : DatabaseRouter) (calls : T → RouteCall) : RouterSystem T :=
  { memory := r.memory, calls := fun t => .idle (calls t) }

/-- Who holds the mutex and who asks for it. -/
def locks (s : RouterSystem T) : Table T Unit :=
  { holds := fun t _ m => (s.calls t).holds = some m
    wants := fun t _ m => (s.calls t).wants = some m }

/-- The turn can be taken: the mutex is free if the call asks for it. -/
def Enabled (s : RouterSystem T) : RouterTurn T → Prop
  | .call t _ => ∀ m, s.locks.wants t () m → s.locks.Free () m
  | .sweep _ => True

def step [DecidableEq T] (s : RouterSystem T) : RouterTurn T → RouterSystem T
  | .call t now =>
    let (m, p) := RoutePoint.step now (s.memory, s.calls t)
    { memory := m, calls := Function.update s.calls t p }
  | .sweep now =>
    { s with
      memory := { s.memory with
        routeCache := (s.memory.routeCache.removeOldestExpired now).2 } }

end RouterSystem

/-- The runs: the systems that the calls have passed through, the last one first. -/
inductive RouterRun {T : Type} [DecidableEq T] (s₀ : RouterSystem T) :
    List (RouterSystem T) → Prop where
  | start : RouterRun s₀ [s₀]
  | turn {s : RouterSystem T} {past : List (RouterSystem T)} (h : RouterRun s₀ (s :: past))
      (turn : RouterTurn T) (henabled : s.Enabled turn) :
      RouterRun s₀ (s.step turn :: s :: past)

/-! ## Coherence -/

section Coherence

variable {T : Type} {s : RouterSystem T}

/-- What holds throughout: the mutex is exclusive, the cache agrees with the table, a call that is
about to cache a route has it from the table as it is, and the cache is empty when the table is
about to change. -/
structure RouterSystem.Inv (s : RouterSystem T) : Prop where
  exclusive : s.locks.Exclusive
  coherent : s.memory.Coherent
  found : ∀ t databaseName route, s.calls t = .cacheRoute databaseName route →
    s.memory.table.lookup (normalizeDatabaseName databaseName) = some route
  cleared : ∀ t c, s.calls t = .change c → ∀ k, s.memory.routeCache.peek k = none

theorem RouterSystem.inv_initial (r : DatabaseRouter) (calls : T → RouteCall) :
    (RouterSystem.initial r calls).Inv where
  exclusive := by
    intro t u l m m' ht
    cases ht
  coherent := r.coherent
  found := by
    intro t databaseName route h
    cases h
  cleared := by
    intro t c h
    cases h

theorem RouterSystem.Inv.sweep (h : s.Inv) [DecidableEq T] (now : Int) :
    (s.step (.sweep now)).Inv where
  exclusive := h.exclusive
  coherent := fun k route hk =>
    h.coherent k route (LruTtl.peek_of_peek_removeOldestExpired hk)
  found := h.found
  cleared := by
    intro t c ht k
    rw [Option.eq_none_iff_forall_ne_some]
    intro route hk
    have hbefore := LruTtl.peek_of_peek_removeOldestExpired hk
    rw [h.cleared t c ht k] at hbefore
    cases hbefore

variable {t u : T} {m : RouterMemory}

theorem RouterSystem.Inv.not_both (h : s.Inv) (ht : (s.calls t).holds = some .read)
    (hu : (s.calls u).holds = some .write) : False := by
  have htu : t = u := h.exclusive t u () .read .write ht hu (Or.inr rfl)
  rw [htu, hu] at ht
  cases ht

section

variable (h : s.Inv) (heffect : RoutePoint.Effect s.memory (s.calls t) m)

include h heffect

theorem RouterSystem.Inv.coherent_effect : m.Coherent := by
  intro k route hk
  cases heffect with
  | same htable hcache =>
    rw [htable]
    exact h.coherent k route (hcache k ▸ hk)
  | add databaseName found now hp =>
    show s.memory.table.lookup k = some route
    by_cases hkey : k = normalizeDatabaseName databaseName
    · subst hkey
      rw [LruTtl.peek_add_self] at hk
      cases hk
      exact h.found t databaseName route hp
    · exact h.coherent k route ((LruTtl.peek_of_peek_add hk).resolve_left hkey)
  | clear c hp => cases hk
  | change c hp =>
    have hnone := h.cleared t c hp k
    rw [hnone] at hk
    cases hk

/-- Nobody changes the table between the search of a `GetRoute` and its insert. -/
theorem RouterSystem.Inv.found_effect {databaseName : GoString}
    {route : RouteRef} (hu : s.calls u = .cacheRoute databaseName route) :
    m.table.lookup (normalizeDatabaseName databaseName) = some route := by
  have hfound := h.found u databaseName route hu
  have hread : (s.calls u).holds = some .read := by
    rw [hu]
    rfl
  cases heffect with
  | same htable _ =>
    rw [htable]
    exact hfound
  | add | clear => exact hfound
  | change c hp =>
    have hwrite : (s.calls t).holds = some .write := by
      rw [hp]
      rfl
    exact (h.not_both hread hwrite).elim

/-- Nobody fills the cache between the two steps of a change. -/
theorem RouterSystem.Inv.cleared_effect {c : RouteChange}
    (hu : s.calls u = .change c) (k : GoString) : m.routeCache.peek k = none := by
  have hcleared := h.cleared u c hu k
  have hwrite : (s.calls u).holds = some .write := by
    rw [hu]
    rfl
  cases heffect with
  | same _ hcache =>
    rw [hcache]
    exact hcleared
  | add _ _ _ hp =>
    have hread : (s.calls t).holds = some .read := by
      rw [hp]
      rfl
    exact (h.not_both hread hwrite).elim
  | clear _ _ => rfl
  | change _ _ => exact hcleared

end

variable [DecidableEq T]

theorem RouterSystem.calls_step_self (t : T) (now : Int) :
    (s.step (.call t now)).calls t = (RoutePoint.step now (s.memory, s.calls t)).2 :=
  Function.update_self ..

theorem RouterSystem.calls_step_of_ne (hu : u ≠ t) (now : Int) :
    (s.step (.call t now)).calls u = s.calls u :=
  Function.update_of_ne hu ..

theorem RouterSystem.Inv.call (h : s.Inv) {now : Int} (henabled : s.Enabled (.call t now)) :
    (s.step (.call t now)).Inv := by
  have heffect := RoutePoint.effect_step now s.memory (s.calls t)
  refine ⟨?_, h.coherent_effect heffect, ?_, ?_⟩
  · refine h.exclusive.step t ?_ ?_
    · intro u l m hu hholds
      have hholds' : ((s.step (.call t now)).calls u).holds = some m := hholds
      rwa [calls_step_of_ne hu] at hholds'
    · intro l m hholds
      have hholds' : ((s.step (.call t now)).calls t).holds = some m := hholds
      rw [calls_step_self] at hholds'
      rcases RoutePoint.holds_step hholds' with hold | hwants
      · exact Or.inl hold
      · exact Or.inr (henabled m hwants)
  · intro u databaseName route hu
    by_cases hut : u = t
    · subst hut
      rw [calls_step_self] at hu
      obtain ⟨hm, hlookup⟩ := RoutePoint.lookup_of_step_eq_cacheRoute hu
      show (RoutePoint.step now (s.memory, s.calls u)).1.table.lookup _ = _
      rw [hm]
      exact hlookup
    · rw [calls_step_of_ne hut] at hu
      exact h.found_effect heffect hu
  · intro u c hu k
    by_cases hut : u = t
    · subst hut
      rw [calls_step_self] at hu
      exact RoutePoint.peek_of_step_eq_change hu k
    · rw [calls_step_of_ne hut] at hu
      exact h.cleared_effect heffect hu k

variable {r : DatabaseRouter} {calls : T → RouteCall} {states : List (RouterSystem T)}

/-- **In every state of a run the cache agrees with the table.** -/
theorem RouterRun.inv (h : RouterRun (.initial r calls) states) : ∀ s ∈ states, s.Inv := by
  induction h with
  | start =>
    intro s hs
    rw [List.mem_singleton.mp hs]
    exact RouterSystem.inv_initial r calls
  | turn _ turn henabled ih =>
    intro s hs
    rcases List.mem_cons.mp hs with rfl | hs
    · have hbefore := ih _ List.mem_cons_self
      cases turn with
      | call t now => exact hbefore.call henabled
      | sweep now => exact hbefore.sweep now
    · exact ih s hs

/-! ## Answers -/

/-- **An answer is that of a table that was there during the call**: after the last state in which
the call had not begun. -/
theorem RouterRun.answers (h : RouterRun (.initial r calls) states) :
    ∀ {s : RouterSystem T} {past later earlier : List (RouterSystem T)} {s₁ : RouterSystem T}
      {call : RouteCall} {databaseName : GoString} {a : Except GoError RouteRef},
      states = s :: past → states = later ++ s₁ :: earlier → s₁.calls t = .idle call →
      (s.calls t).answer = some (databaseName, a) →
      ∃ s' ∈ later, s'.memory.table.route databaseName = a := by
  induction h with
  | start =>
    intro s past later earlier s₁ call databaseName a hs _ _ ha
    cases hs
    cases ha
  | @turn s past h turn henabled ih =>
    intro s' past' later earlier s₁ call databaseName a hs hsplit hidle ha
    obtain ⟨rfl, -⟩ := List.cons.inj hs
    cases later with
    | nil =>
      -- the call has not begun
      obtain ⟨rfl, -⟩ := List.cons.inj hsplit
      rw [hidle] at ha
      cases ha
    | cons s₂ later =>
      have hrest : s :: past = later ++ s₁ :: earlier := (List.cons.inj hsplit).2
      have hkept : (s.calls t).answer = some (databaseName, a) →
          ∃ s' ∈ s₂ :: later, s'.memory.table.route databaseName = a := by
        intro hbefore
        obtain ⟨s', hs', hroute⟩ := ih rfl hrest hidle hbefore
        exact ⟨s', List.mem_cons_of_mem _ hs', hroute⟩
      cases turn with
      | sweep now => exact hkept ha
      | call u now =>
        by_cases htu : t = u
        · subst htu
          rw [RouterSystem.calls_step_self] at ha
          rcases RoutePoint.answer_step (h.inv s List.mem_cons_self).coherent ha with
            hbefore | ⟨hbegun, hroute⟩
          · exact hkept hbefore
          · -- the answer is found in this step, and the call has begun
            refine ⟨s, List.mem_cons_of_mem _ ?_, hroute⟩
            cases later with
            | nil =>
              have hs₁ : s = s₁ := (List.cons.inj hrest).1
              rw [← hs₁] at hidle
              exact absurd hidle (hbegun call)
            | cons s₃ later =>
              have hs₃ : s = s₃ := (List.cons.inj hrest).1
              rw [hs₃]
              exact List.mem_cons_self
        · rw [RouterSystem.calls_step_of_ne htu] at ha
          exact hkept ha

/-- **The route cache is coherent.** In every state, whether or not a writer holds the mutex, each
cached route is the one that the table gives without the cache. The answer of a `GetRoute` that
had not begun in some state is that of the table of a later state, so it never comes from a table
that was replaced before the call began. -/
theorem route_cache_coherent (h : RouterRun (.initial r calls) states) :
    (∀ s ∈ states, ∀ k route, s.memory.routeCache.peek k = some route →
      s.memory.table.lookup k = some route) ∧
    ∀ (t : T) (databaseName : GoString) (a : Except GoError RouteRef) (s : RouterSystem T)
      (past : List (RouterSystem T)), states = s :: past →
      s.calls t = .answered databaseName a →
      ∀ (later earlier : List (RouterSystem T)) (s₁ : RouterSystem T) (call : RouteCall),
        states = later ++ s₁ :: earlier → s₁.calls t = .idle call →
        ∃ s' ∈ later, s'.memory.table.route databaseName = a := by
  constructor
  · intro s hs
    exact (h.inv s hs).coherent
  · intro t databaseName a s past hs ha later earlier s₁ call hsplit hidle
    apply h.answers hs hsplit hidle
    rw [ha]
    rfl

end Coherence

/-! ### A route that is replaced -/

/-- One call replaces the route of a database that another one looks up. -/
def replacingCalls : Bool → RouteCall
  | true => .change (.updateRoute (lit "Shop") 2)
  | false => .getRoute (lit "shop")

/-- The system after these calls have taken turns, the last one first. -/
def replacing : List Bool → RouterSystem Bool
  | [] => .initial (DatabaseRouter.new.addRoute (lit "shop") 1) replacingCalls
  | t :: turns => (replacing turns).step (.call t 0)

/-- The lookup finds nothing in the cache; then the route is replaced, and the lookup goes on. -/
def replacingTurns : List Bool :=
  [false, false, false, false, true, true, true, true, true, false, false]

instance {T : Type} [Fintype T] (s : RouterSystem T) (t : T) (now : Int) :
    Decidable (s.Enabled (.call t now)) :=
  decidable_of_iff (∀ m ∈ (s.calls t).wants, ∀ u, ∀ m' ∈ (s.calls u).holds, ¬ m.Excludes m')
    ⟨fun h m hm u m' hm' => h m hm u m' hm', fun h m hm u m' hm' => h m hm u m' hm'⟩

/-- Every turn of the list can be taken. -/
def ReplacingEnabled : List Bool → Prop
  | [] => True
  | t :: turns => (replacing turns).Enabled (.call t 0) ∧ ReplacingEnabled turns

instance : (turns : List Bool) → Decidable (ReplacingEnabled turns)
  | [] => inferInstanceAs (Decidable True)
  | _ :: turns =>
    have := instDecidableReplacingEnabled turns
    inferInstanceAs (Decidable (_ ∧ _))

theorem routerRun_replacing : (turns : List Bool) → ReplacingEnabled turns →
    RouterRun (.initial (DatabaseRouter.new.addRoute (lit "shop") 1) replacingCalls)
      (turns.tails.map replacing)
  | [], _ => .start
  | [t], h => .turn .start (.call t 0) h.1
  | t :: u :: turns, h => .turn (routerRun_replacing (u :: turns) h.2) (.call t 0) h.1

theorem routerRun_replacingTurns :
    RouterRun (.initial (DatabaseRouter.new.addRoute (lit "shop") 1) replacingCalls)
      (replacingTurns.tails.map replacing) := by
  apply routerRun_replacing
  decide +kernel

/-- The replaced route is neither answered nor cached, though the lookup began before the change. -/
theorem route_cache_coherent_replacing :
    (replacing replacingTurns).calls false = .answered (lit "shop") (.ok 2) ∧
    (replacing replacingTurns).memory.routeCache.peek (lit "shop") = some 2 ∧
    (replacing replacingTurns).memory.table.lookup (lit "shop") = some 2 ∧
    ∃ s' ∈ (replacingTurns.tails.map replacing).dropLast,
      s'.memory.table.route (lit "shop") = .ok 2 := by
  have hcoherent := route_cache_coherent routerRun_replacingTurns
  have hanswer : (replacing replacingTurns).calls false = .answered (lit "shop") (.ok 2) := by
    decide +kernel
  have hpeek : (replacing replacingTurns).memory.routeCache.peek (lit "shop") = some 2 := by
    decide +kernel
  have hlookup : (replacing replacingTurns).memory.table.lookup (lit "shop") = some 2 :=
    hcoherent.1 _ List.mem_cons_self _ _ hpeek
  refine ⟨hanswer, hpeek, hlookup, ?_⟩
  exact hcoherent.2 false _ _ _ _ rfl hanswer _ [] (replacing []) (replacingCalls false) rfl rfl

end MongoBouncer
