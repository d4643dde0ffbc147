import MongoBouncer.Proxy.ClientThreads
import MongoBouncer.Proxy.PoolClient

/-!
# The reset of a route's client

After an error of the connection a request sets the client of its route to nil, whatever client
that is by then. Between the choice of its client and the reset lies a whole round trip, in which
another request can have reset the route and a third one have installed a new client.

* `ClientSystem.Tracks`   : what holds of the clients of the routes in every run;
* `ClientSystem.CalmStep` : a step that installs a client only while no other request on the route
  has chosen its own.

Principal result: `ClientSystem.reset_only_own`.
-/

namespace MongoBouncer

open GoStd Function

namespace ClientSystem

/-- The client of a route. -/
abbrev routeOf (s : ClientSystem) (ref : RouteRef) : Option MongoClient :=
  (s.proxy.routes ref).mongoClient

/-- A request that has chosen `own` as the client of its route. The clients are numbered as they are
made, so a client that is installed later has a greater number. -/
structure PickInv (s : ClientSystem) (k : Nat) (q : ClientRequest) (own : Option MongoClient) :
    Prop where
  seen : s.seen k ≤ s.installs q.ref
  since : s.since k ≤ s.proxy.nextClient
  known : ∀ c, own = some c → c.id < s.since k
  unchanged : s.seen k = s.installs q.ref → s.routeOf q.ref = none ∨ s.routeOf q.ref = own
  later : s.seen k < s.installs q.ref → ∀ c cl, own = some c → s.routeOf q.ref = some cl →
    s.since k ≤ cl.id
  coming : ∀ c j q' client, own = some c → s.point j = .storing q' client → q'.ref = q.ref →
    s.since k ≤ client.id

/-- The clients of the routes, those that are being made and those that were chosen. -/
structure Tracks (s : ClientSystem) : Prop where
  exclusive : ∀ k ref, (s.point k).holds = some ref → s.lock ref = some k
  connecting : ∀ k q, s.point k = .connecting q → s.routeOf q.ref = none
  storing : ∀ k q client, s.point k = .storing q client → s.routeOf q.ref = none ∧
    client.id < s.proxy.nextClient
  registering : ∀ k q client, s.point k = .registering q client → s.routeOf q.ref = some client
  known : ∀ ref c, s.routeOf ref = some c → c.id < s.proxy.nextClient
  picked : ∀ k q own, (s.point k).picked = some (q, .ofRoute own) → PickInv s k q own

/-- What a point says about the route of its request. -/
def PointOK (s : ClientSystem) : ClientPoint → Prop
  | .connecting q => s.routeOf q.ref = none
  | .storing q client => s.routeOf q.ref = none ∧ client.id < s.proxy.nextClient
  | .registering q client => s.routeOf q.ref = some client
  | _ => True

/-- What `Tracks` says of one request. -/
structure Tracked (s : ClientSystem) (k : Nat) (point : ClientPoint) : Prop where
  exclusive : ∀ ref, point.holds = some ref → s.lock ref = some k
  route : s.PointOK point
  picked : ∀ q own, point.picked = some (q, .ofRoute own) → PickInv s k q own

section Step

variable {s s' : ClientSystem} {k : Nat} {q : ClientRequest} {point : ClientPoint}

theorem Tracks.tracked (h : s.Tracks) (k : Nat) : Tracked s k (s.point k) := by
  refine ⟨h.exclusive k, ?_, h.picked k⟩
  cases hp : s.point k with
  | connecting q => exact h.connecting k q hp
  | storing q client => exact h.storing k q client hp
  | registering q client => exact h.registering k q client hp
  | _ => trivial

theorem tracks_of_tracked (hknown : ∀ ref c, s.routeOf ref = some c → c.id < s.proxy.nextClient)
    (h : ∀ k, Tracked s k (s.point k)) : s.Tracks := by
  refine ⟨fun k => (h k).exclusive, ?_, ?_, ?_, hknown, fun k => (h k).picked⟩
  · intro k q hk
    have hroute := (h k).route
    rwa [hk] at hroute
  · intro k q client hk
    have hroute := (h k).route
    rwa [hk] at hroute
  · intro k q client hk
    have hroute := (h k).route
    rwa [hk] at hroute

theorem pointOK_of_free (h : point.holds = none) : s.PointOK point := by
  cases point with
  | connecting | storing | registering => cases h
  | _ => trivial

theorem Tracked.stays (h : Tracked s k point) (hnext : s.proxy.nextClient ≤ s'.proxy.nextClient)
    (hheld : ∀ ref, point.holds = some ref → s'.lock ref = some k ∧ s'.routeOf ref = s.routeOf ref)
    (hpicked : ∀ q own, PickInv s k q own → PickInv s' k q own) : Tracked s' k point := by
  refine ⟨fun ref href => (hheld ref href).1, ?_, fun q own hq => hpicked q own (h.picked q own hq)⟩
  have hroute := h.route
  cases point with
  | connecting q | registering q => exact (hheld q.ref rfl).2.trans hroute
  | storing q => exact ⟨(hheld q.ref rfl).2.trans hroute.1, hroute.2.trans_le hnext⟩
  | _ => trivial

theorem PickInv.frame {own : Option MongoClient} (h : PickInv s k q own)
    (hroute : s'.routeOf q.ref = none ∨ s'.routeOf q.ref = s.routeOf q.ref)
    (hnext : s.proxy.nextClient ≤ s'.proxy.nextClient)
    (hinstalls : s'.installs q.ref = s.installs q.ref) (hseen : s'.seen k = s.seen k)
    (hsince : s'.since k = s.since k)
    (hcoming : ∀ c j q' client, own = some c → s'.point j = .storing q' client → q'.ref = q.ref →
      s.since k ≤ client.id) : PickInv s' k q own := by
  refine ⟨?_, ?_, ?_, ?_, ?_, ?_⟩
  · rw [hseen, hinstalls]
    exact h.seen
  · rw [hsince]
    exact h.since.trans hnext
  · rw [hsince]
    exact h.known
  · rw [hseen, hinstalls]
    rcases hroute with hnone | hsame
    · exact fun _ => Or.inl hnone
    · rw [hsame]
      exact h.unchanged
  · rw [hseen, hinstalls, hsince]
    rcases hroute with hnone | hsame
    · intro _ c cl _ hcl
      rw [hnone] at hcl
      cases hcl
    · rw [hsame]
      exact h.later
  · rw [hsince]
    exact hcoming

theorem Tracks.of_move (h : s.Tracks) (hself : s'.point k = point)
    (hothers : ∀ j, j ≠ k → s'.point j = s.point j)
    (hnext : s.proxy.nextClient ≤ s'.proxy.nextClient)
    (hknown : ∀ ref c, s'.routeOf ref = some c → c.id < s'.proxy.nextClient)
    (hheld : ∀ j ref, j ≠ k → (s.point j).holds = some ref →
      s'.lock ref = some j ∧ s'.routeOf ref = s.routeOf ref)
    (hpicked : ∀ j q own, j ≠ k → PickInv s j q own → PickInv s' j q own)
    (hown : Tracked s' k point) : s'.Tracks := by
  refine tracks_of_tracked hknown fun j => ?_
  by_cases hj : j = k
  · rw [hj, hself]
    exact hown
  · rw [hothers j hj]
    exact (h.tracked j).stays hnext (fun ref => hheld j ref hj) fun q own => hpicked j q own hj

theorem storing_of_move (hself : s'.point k = point)
    (hothers : ∀ j, j ≠ k → s'.point j = s.point j) (hstoring : ∀ q c, point ≠ .storing q c)
    {j : Nat} {client : MongoClient} (hj : s'.point j = .storing q client) :
    s.point j = .storing q client := by
  by_cases hjk : j = k
  · rw [hjk, hself] at hj
    exact absurd hj (hstoring q client)
  · rwa [hothers j hjk] at hj

section

variable (h : s.Tracks)

include h

theorem Tracks.frame (hself : s'.point k = point) (hroutes : ∀ ref, s'.routeOf ref = s.routeOf ref)
    (hnext : s'.proxy.nextClient = s.proxy.nextClient) (hinstalls : s'.installs = s.installs)
    (hothers : ∀ j, j ≠ k → s'.point j = s.point j ∧ s'.seen j = s.seen j ∧ s'.since j = s.since j)
    (hlock : ∀ j ref, j ≠ k → (s.point j).holds = some ref → s'.lock ref = some j)
    (hstoring : ∀ q c, point ≠ .storing q c) (hown : Tracked s' k point) : s'.Tracks := by
  have hpoints := fun j hj => (hothers j hj).1
  refine h.of_move hself hpoints hnext.ge ?_
    (fun j ref hj href => ⟨hlock j ref hj href, hroutes ref⟩) ?_ hown
  · intro ref c hc
    rw [hroutes] at hc
    rw [hnext]
    exact h.known ref c hc
  · intro j q own hj hpick
    obtain ⟨-, hseen, hsince⟩ := hothers j hj
    refine hpick.frame (Or.inr (hroutes _)) hnext.ge (by rw [hinstalls]) hseen hsince ?_
    intro c j' q' client hc hj' href
    exact hpick.coming c j' q' client hc (storing_of_move hself hpoints hstoring hj') href

theorem Tracks.pick {own : Option MongoClient} (hroutes : ∀ ref, s'.routeOf ref = s.routeOf ref)
    (hnext : s'.proxy.nextClient = s.proxy.nextClient)
    (hstoring : ∀ j q c, s'.point j = .storing q c → s.point j = .storing q c)
    (hread : own = s.routeOf q.ref) (hseen : s'.seen k = s'.installs q.ref)
    (hsince : s'.since k = s'.proxy.nextClient) : PickInv s' k q own := by
  refine ⟨hseen.le, hsince.le, ?_, ?_, ?_, ?_⟩
  · intro c hc
    rw [hsince, hnext]
    exact h.known q.ref c (hread.symm.trans hc)
  · intro _
    right
    rw [hroutes, hread]
  · intro hlt
    omega
  · -- while another request is about to install a client, the route has none
    intro c j q' client hc hj href
    have hnone := (h.storing j q' client (hstoring j q' client hj)).1
    rw [href, ← hread, hc] at hnone
    cases hnone

theorem Tracks.same (hroutes : ∀ ref, s'.routeOf ref = s.routeOf ref)
    (hnext : s'.proxy.nextClient = s.proxy.nextClient) (hinstalls : s'.installs = s.installs)
    (hpoint : s'.point = s.point) (hseen : s'.seen = s.seen) (hsince : s'.since = s.since)
    (hlock : s'.lock = s.lock) : s'.Tracks := by
  refine tracks_of_tracked ?_ fun k => ?_
  · intro ref c hc
    rw [hroutes] at hc
    rw [hnext]
    exact h.known ref c hc
  · rw [hpoint]
    refine (h.tracked k).stays hnext.ge ?_ ?_
    · intro ref href
      rw [hlock]
      exact ⟨h.exclusive k ref href, hroutes ref⟩
    · intro q own hpick
      refine hpick.frame (Or.inr (hroutes _)) hnext.ge (by rw [hinstalls]) (by rw [hseen])
        (by rw [hsince]) ?_
      rw [hpoint]
      exact hpick.coming

theorem Tracks.unlock_others {ref₀ : RouteRef}
    (hk : (s.point k).holds = some ref₀) (j : Nat) (ref : RouteRef) (hj : j ≠ k)
    (hholds : (s.point j).holds = some ref) : update s.lock ref₀ none ref = some j := by
  have hlock := h.exclusive j ref hholds
  have hne : ref ≠ ref₀ := by
    intro heq
    rw [heq, h.exclusive k ref₀ hk] at hlock
    exact hj (Option.some.inj hlock).symm
  rw [update_of_ne hne, hlock]

theorem Tracks.made {client : MongoClient} {p : Proxy}
    (hpoint : s.point k = .connecting q ∧ point = .storing q client ∨
      s.point k = .connectingAs q ∧ point = .caching q client)
    (hid : client.id = s.proxy.nextClient) (hroutes : p.routes = s.proxy.routes)
    (hnext : p.nextClient = s.proxy.nextClient + 1) : ((s.make client p).move k point).Tracks := by
  have hroute : ∀ ref, ((s.make client p).move k point).routeOf ref = s.routeOf ref := by
    intro ref
    show (p.routes ref).mongoClient = _
    rw [hroutes]
  have hothers : ∀ j, j ≠ k → ((s.make client p).move k point).point j = s.point j :=
    fun j hj => point_move_of_ne _ point hj
  have hcount : ((s.make client p).move k point).proxy.nextClient = s.proxy.nextClient + 1 := hnext
  have hle := (Nat.le_succ s.proxy.nextClient).trans hcount.ge
  refine h.of_move (point_move _ _ _) hothers hle ?_
    (fun j ref _ href => ⟨h.exclusive j ref href, hroute ref⟩) ?_ ?_
  · intro ref c hc
    rw [hroute] at hc
    exact (h.known ref c hc).trans_le hle
  · intro j q' own _ hold
    refine hold.frame (Or.inr (hroute _)) hle rfl rfl rfl ?_
    intro c j' q₂ client' hc hj' href
    by_cases hj'k : j' = k
    · rw [hj'k, point_move] at hj'
      rcases hpoint with ⟨-, rfl⟩ | ⟨-, rfl⟩
      · cases hj'
        rw [hid]
        exact hold.since
      · cases hj'
    · rw [hothers j' hj'k] at hj'
      exact hold.coming c j' q₂ client' hc hj' href
  · rcases hpoint with ⟨hold, rfl⟩ | ⟨-, rfl⟩
    · refine ⟨?_, ⟨?_, ?_⟩, nofun⟩
      · intro ref href
        exact h.exclusive k ref (by rw [hold]; exact href)
      · rw [hroute]
        exact h.connecting k q hold
      · rw [hcount, hid]
        exact Nat.lt_succ_self _
    · exact ⟨nofun, trivial, nofun⟩

theorem Tracks.installed {client : MongoClient} (hpoint : s.point k = .storing q client) :
    ((s.install q.ref client).move k (.registering q client)).Tracks := by
  generalize hs' : (s.install q.ref client).move k (.registering q client) = s'
  have hself : s'.point k = .registering q client := by rw [← hs', point_move]
  have hothers : ∀ j, j ≠ k → s'.point j = s.point j := by
    intro j hj
    rw [← hs']
    exact update_of_ne hj _ _
  have hown : s'.routeOf q.ref = some client := by
    rw [← hs']
    simp [routeOf, move, install, Proxy.setRoute]
  have hroutes : ∀ ref, ref ≠ q.ref → s'.routeOf ref = s.routeOf ref := by
    intro ref href
    rw [← hs']
    simp [routeOf, move, install, Proxy.setRoute, href]
  have hlock : s'.lock = s.lock := by rw [← hs']; rfl
  have hnext : s'.proxy.nextClient = s.proxy.nextClient := by rw [← hs']; rfl
  have hseen : s'.seen = s.seen := by rw [← hs']; rfl
  have hsince : s'.since = s.since := by rw [← hs']; rfl
  have hcount : s'.installs q.ref = s.installs q.ref + 1 := by
    rw [← hs']
    exact update_self _ _ _
  obtain ⟨hnone, hlt⟩ := h.storing k q client hpoint
  have hmine := h.exclusive k q.ref (by rw [hpoint]; rfl)
  refine h.of_move hself hothers hnext.ge ?_ ?_ ?_ ⟨?_, hown, fun _ _ hq => by cases hq⟩
  · intro ref c hc
    rw [hnext]
    by_cases href : ref = q.ref
    · rw [href, hown] at hc
      cases hc
      exact hlt
    · rw [hroutes ref href] at hc
      exact h.known ref c hc
  · -- nobody else is in the critical section of the route
    intro j ref hj hholds
    have hlocked := h.exclusive j ref hholds
    refine ⟨by rw [hlock, hlocked], hroutes ref ?_⟩
    intro heq
    rw [heq, hmine] at hlocked
    exact hj (Option.some.inj hlocked).symm
  · intro j q' own hj hold
    have hcoming : ∀ c j' q₂ client', own = some c → s'.point j' = .storing q₂ client' →
        q₂.ref = q'.ref → s.since j ≤ client'.id := by
      intro c j' q₂ client' hc hj' href
      exact hold.coming c j' q₂ client' hc (storing_of_move hself hothers (by simp) hj') href
    by_cases href : q'.ref = q.ref
    · have hle := hold.seen
      rw [href] at hle
      refine ⟨?_, ?_, ?_, ?_, ?_, ?_⟩
      · rw [hseen, href, hcount]
        omega
      · rw [hsince, hnext]
        exact hold.since
      · rw [hsince]
        exact hold.known
      · rw [hseen, href, hcount]
        intro heq
        omega
      · intro _ c cl hc hcl
        rw [href, hown] at hcl
        cases hcl
        rw [hsince]
        exact hold.coming c k q client hc hpoint href.symm
      · rw [hsince]
        exact hcoming
    · refine hold.frame (Or.inr (hroutes _ href)) hnext.ge ?_ (by rw [hseen]) (by rw [hsince])
        hcoming
      rw [← hs']
      exact update_of_ne href _ _
  · intro ref href
    rw [hlock]
    exact h.exclusive k ref (by rw [hpoint]; exact href)

theorem Tracks.cleared (hfree : s.lock q.ref = none) : ((s.clear q.ref).move k .idle).Tracks := by
  generalize hs' : (s.clear q.ref).move k .idle = s'
  have hself : s'.point k = .idle := by rw [← hs', point_move]
  have hothers : ∀ j, j ≠ k → s'.point j = s.point j := by
    intro j hj
    rw [← hs']
    exact update_of_ne hj _ _
  have hroutes : ∀ ref, ref ≠ q.ref → s'.routeOf ref = s.routeOf ref := by
    intro ref href
    rw [← hs']
    simp [routeOf, move, clear, Proxy.setRoute, href]
  have hroute : ∀ ref, s'.routeOf ref = none ∨ s'.routeOf ref = s.routeOf ref := by
    intro ref
    by_cases href : ref = q.ref
    · left
      rw [← hs']
      simp [routeOf, move, clear, Proxy.setRoute, href]
    · exact Or.inr (hroutes ref href)
  have hlock : s'.lock = s.lock := by rw [← hs']; rfl
  have hnext : s'.proxy.nextClient = s.proxy.nextClient := by rw [← hs']; rfl
  refine h.of_move hself hothers hnext.ge ?_ ?_ ?_
    ⟨fun _ href => (by cases href), trivial, fun _ _ hq => by cases hq⟩
  · intro ref c hc
    rw [hnext]
    rcases hroute ref with hnone | hsame
    · rw [hnone] at hc
      cases hc
    · rw [hsame] at hc
      exact h.known ref c hc
  · -- whoever is in the critical section of a route holds its lock
    intro j ref _ hholds
    have hlocked := h.exclusive j ref hholds
    refine ⟨by rw [hlock, hlocked], hroutes ref ?_⟩
    intro heq
    rw [heq, hfree] at hlocked
    cases hlocked
  · intro j q' own _ hold
    refine hold.frame (hroute _) hnext.ge (by rw [← hs']; rfl) (by rw [← hs']; rfl)
      (by rw [← hs']; rfl) ?_
    intro c j' q₂ client hc hj' href
    exact hold.coming c j' q₂ client hc (storing_of_move hself hothers (by simp) hj') href

theorem Tracks.picks {s₁ : ClientSystem}
    {chosen : Chosen} (hroutes : ∀ ref, s₁.routeOf ref = s.routeOf ref)
    (hnext : s₁.proxy.nextClient = s.proxy.nextClient) (hinstalls : s₁.installs = s.installs)
    (hpoint : s₁.point = s.point) (hseen : s₁.seen = s.seen) (hsince : s₁.since = s.since)
    (hlock : ∀ j ref, j ≠ k → (s.point j).holds = some ref → s₁.lock ref = some j)
    (hread : ∀ own, chosen = .ofRoute own → own = s.routeOf q.ref) :
    (s₁.pick k q chosen).Tracks := by
  have hself : (s₁.pick k q chosen).point k = .tripping q chosen := point_pick _ _ _ _
  have hothers : ∀ j, j ≠ k → (s₁.pick k q chosen).point j = s.point j := by
    intro j hj
    rw [← hpoint]
    exact update_of_ne hj _ _
  refine h.frame hself hroutes hnext hinstalls ?_ hlock nofun ⟨nofun, trivial, ?_⟩
  · intro j hj
    refine ⟨hothers j hj, ?_, ?_⟩
    · rw [← hseen]
      exact update_of_ne hj _ _
    · rw [← hsince]
      exact update_of_ne hj _ _
  · intro q' own hq'
    cases hq'
    exact h.pick hroutes hnext (fun _ _ _ hj => storing_of_move hself hothers nofun hj)
      (hread own rfl) (update_self _ _ _) (update_self _ _ _)

theorem Tracks.step {e : ClientEvent} (hacts : s.Acts e s') : s'.Tracks := by
  have hothers : ∀ {k : Nat} {point : ClientPoint} (j : Nat), j ≠ k →
      update s.point k point j = s.point j ∧ s.seen j = s.seen j ∧ s.since j = s.since j :=
    fun j hj => ⟨update_of_ne hj _ _, rfl, rfl⟩
  cases hacts with
  | kept hp => exact h.same hp.routes hp.nextClient rfl rfl rfl rfl rfl
  | @moved _ k p point hp hfrom hholds hpending hpicked =>
    have hstoring : ∀ q c, point ≠ .storing q c := by
      rintro q c rfl
      cases hholds
    refine h.frame (point_move _ _ _) hp.routes hp.nextClient rfl hothers
      (fun j ref _ => h.exclusive j ref) hstoring ⟨?_, pointOK_of_free hholds, ?_⟩
    · intro ref href
      rw [hholds] at href
      cases href
    · intro q own hq
      have hold : (s.point k).picked = some (q, .ofRoute own) := by
        rcases hpicked with hsame | hnone
        · rw [← hsame, hq]
        · rw [hnone] at hq
          cases hq
      have hpick := h.picked k q own hold
      refine hpick.frame (Or.inr (hp.routes _)) hp.nextClient.ge rfl rfl rfl ?_
      intro c j q' client hc hj href
      exact hpick.coming c j q' client hc
        (storing_of_move (point_move _ _ _) (fun j hj => (hothers j hj).1) hstoring hj) href
  | picked hp hfrom hpending hread =>
    exact h.picks hp.routes hp.nextClient rfl rfl rfl rfl (fun j ref _ => h.exclusive j ref) hread
  | @locked k up q hpoint hfree =>
    refine h.frame (point_move _ _ _) (fun _ => rfl) rfl rfl hothers ?_ nofun ⟨?_, trivial, nofun⟩
    · intro j ref _ hj
      have hlock := h.exclusive j ref hj
      have hne : ref ≠ q.ref := by
        intro heq
        rw [heq, hfree] at hlock
        cases hlock
      exact (update_of_ne hne _ _).trans hlock
    · intro ref href
      cases href
      exact update_self _ _ _
  | @found k up q client hpoint hclient =>
    refine h.picks (fun _ => rfl) rfl rfl rfl rfl rfl (h.unlock_others (by rw [hpoint]; rfl)) ?_
    intro own hown
    cases hown
    exact hclient.symm
  | @missed k up q hpoint hnone =>
    refine h.frame (point_move _ _ _) (fun _ => rfl) rfl rfl hothers
      (fun j ref _ => h.exclusive j ref) nofun ⟨?_, hnone, nofun⟩
    intro ref href
    exact h.exclusive k ref (by rw [hpoint]; exact href)
  | @gaveUp k up q hpoint =>
    exact h.frame (point_move _ _ _) (fun _ => rfl) rfl rfl hothers
      (h.unlock_others (by rw [hpoint]; rfl)) nofun ⟨nofun, trivial, nofun⟩
  | made hpoint hid hroutes hclients hnext => exact h.made hpoint hid hroutes hnext
  | installed hpoint => exact h.installed hpoint
  | @registered k up q client hpoint =>
    refine h.picks (fun _ => rfl) rfl rfl rfl rfl rfl (h.unlock_others (by rw [hpoint]; rfl)) ?_
    intro own hown
    cases hown
    exact (h.registering k q client hpoint).symm
  | @registeredAs k up q client hpoint =>
    refine h.picks (fun _ => rfl) rfl rfl rfl rfl rfl (fun j ref _ => h.exclusive j ref) ?_
    intro own hown
    cases hown
  | cleared hpoint hfree => exact h.cleared hfree
  | closed => exact h.same (fun _ => rfl) rfl rfl rfl rfl rfl rfl

end

/-- A request that has chosen its client has done so before or does it now, and only the
installation of a client counts. -/
theorem seen_step {e : ClientEvent} (hacts : s.Acts e s')
    {chosen : Chosen} (hk : (s'.point k).picked = some (q, chosen)) :
    s'.seen k = s'.installs q.ref ∨ (s.point k).picked = some (q, chosen) ∧ s'.seen k = s.seen k ∧
        (s'.installs q.ref = s.installs q.ref ∨
          ∃ j up q' client, e = .go j up ∧ s.point j = .storing q' client ∧ q.ref = q'.ref) := by
  -- where one request moves, the others stay
  have hmoved : ∀ {s₁ : ClientSystem} {j : Nat} {point : ClientPoint}, s₁.point = s.point →
      (point.picked = (s.point j).picked ∨ point.picked = none) →
      ((s₁.move j point).point k).picked = some (q, chosen) →
      (s.point k).picked = some (q, chosen) := by
    intro s₁ j point hpoint hpicked hmem
    by_cases hkj : k = j
    · subst hkj
      rw [point_move] at hmem
      rcases hpicked with hsame | hnone
      · rw [← hsame, hmem]
      · rw [hnone] at hmem
        cases hmem
    · rwa [point_move_of_ne s₁ point hkj, hpoint] at hmem
  have hpicks : ∀ {s₁ : ClientSystem} {j : Nat} {q' : ClientRequest} {chosen' : Chosen} {P : Prop},
      s₁.point = s.point → s₁.seen = s.seen → s₁.installs = s.installs →
      ((s₁.pick j q' chosen').point k).picked = some (q, chosen) →
      (s₁.pick j q' chosen').seen k = s₁.installs q.ref ∨
        (s.point k).picked = some (q, chosen) ∧ (s₁.pick j q' chosen').seen k = s.seen k ∧
          (s₁.installs q.ref = s.installs q.ref ∨ P) := by
    intro s₁ j q' chosen' P hpoint hseen hinstalls hmem
    by_cases hkj : k = j
    · subst hkj
      rw [point_pick] at hmem
      cases hmem
      exact Or.inl (update_self _ _ _)
    · right
      rw [point_pick_of_ne s₁ q' chosen' hkj, hpoint] at hmem
      exact ⟨hmem, (update_of_ne hkj _ _).trans (congrFun hseen k),
        Or.inl (congrFun hinstalls q.ref)⟩
  cases hacts with
  | kept | closed => exact Or.inr ⟨hk, rfl, Or.inl rfl⟩
  | moved hp hfrom hholds hpending hpicked => exact Or.inr ⟨hmoved rfl hpicked hk, rfl, Or.inl rfl⟩
  | picked | found | registered | registeredAs => exact hpicks rfl rfl rfl hk
  | locked | missed | gaveUp | cleared => exact Or.inr ⟨hmoved rfl (Or.inr rfl) hk, rfl, Or.inl rfl⟩
  | made hpoint hid hroutes hclients hnext =>
    refine Or.inr ⟨hmoved rfl (Or.inr ?_) hk, rfl, Or.inl rfl⟩
    rcases hpoint with ⟨-, rfl⟩ | ⟨-, rfl⟩ <;> rfl
  | @installed j up q' client hpoint =>
    refine Or.inr ⟨hmoved rfl (Or.inr rfl) hk, rfl, ?_⟩
    by_cases href : q.ref = q'.ref
    · exact Or.inr ⟨j, up, q', client, rfl, hpoint, href⟩
    · exact Or.inl (update_of_ne href _ _)

end Step

/-! ## Runs -/

section Runs

variable {auth passthrough metrics forwards : Bool} {manager : Option Manager}
  {dc : Option DistributedCache} {databases : List DatabaseEntry}

theorem tracks_startup :
    (startup auth passthrough metrics forwards manager dc databases).Tracks := by
  refine tracks_of_tracked (id_addDatabases ?_ databases 0) fun k => ⟨nofun, trivial, nofun⟩
  intro ref c hc
  cases hc

theorem tracks_of_runs {es : List ClientEvent} {s : ClientSystem}
    (h : Runs Does (startup auth passthrough metrics forwards manager dc databases) es s) :
    s.Tracks :=
  h.invariant tracks_startup fun _ _ _ hs he => hs.step (acts_of_step he)

/-- A step that installs a client only while no other request on the route has chosen its own. -/
def CalmStep (s : ClientSystem) (e : ClientEvent) (s' : ClientSystem) : Prop :=
  s.Does e s' ∧ ∀ j up q client, e = .go j up → s.point j = .storing q client →
    ∀ k q' own, (s.point k).picked = some (q', .ofRoute own) → q'.ref ≠ q.ref

theorem seen_of_calm {es : List ClientEvent} {s : ClientSystem}
    (h : Runs CalmStep (startup auth passthrough metrics forwards manager dc databases) es s) :
    ∀ k q own, (s.point k).picked = some (q, .ofRoute own) → s.seen k = s.installs q.ref := by
  refine h.invariant (P := fun s => ∀ k q own, (s.point k).picked = some (q, .ofRoute own) →
    s.seen k = s.installs q.ref) ?_ ?_
  · intro k q own hk
    cases hk
  · rintro s e s' hs ⟨hdoes, hcalm⟩ k q own hk
    rcases seen_step (acts_of_step hdoes) hk with hnew | ⟨hold, hseen, hsame | hinstall⟩
    · exact hnew
    · rw [hseen, hsame]
      exact hs k q own hold
    · obtain ⟨j, up, q', client, he, hj, href⟩ := hinstall
      exact absurd href (hcalm j up q' client he hj k q own hold)

/-- The reset that a request is about to make takes no other client off its route than the one it
chose. -/
def ResetsOwn (s : ClientSystem) (q : ClientRequest) (own : Option MongoClient) : Prop :=
  ∀ client, s.routeOf q.ref = some client → own = some client

/-- **A reset takes no other client off the route than the one its request chose, exactly if the
route has none, or none was installed since the choice.** So it does in every run in which a client
is installed only while no other request on the route has chosen its own. -/
theorem reset_only_own (auth passthrough metrics forwards : Bool) (manager : Option Manager)
    (dc : Option DistributedCache) (databases : List DatabaseEntry) :
    (∀ es s, Runs Does (startup auth passthrough metrics forwards manager dc databases) es s →
      ∀ k q own, s.point k = .resetting q (.ofRoute own) →
        (s.ResetsOwn q own ↔ s.routeOf q.ref = none ∨ s.installs q.ref = s.seen k)) ∧
    (∀ es s, Runs CalmStep (startup auth passthrough metrics forwards manager dc databases) es s →
      ∀ k q own, s.point k = .resetting q (.ofRoute own) → s.ResetsOwn q own) := by
  have hiff : ∀ es s, Runs Does (startup auth passthrough metrics forwards manager dc databases)
      es s → ∀ k q own, s.point k = .resetting q (.ofRoute own) →
        (s.ResetsOwn q own ↔ s.routeOf q.ref = none ∨ s.installs q.ref = s.seen k) := by
    intro es s hrun k q own hk
    have hpick := (tracks_of_runs hrun).picked k q own (by rw [hk]; rfl)
    unfold ResetsOwn
    constructor
    · intro hown
      cases hroute : s.routeOf q.ref with
      | none => exact Or.inl rfl
      | some client =>
        right
        by_contra hne
        have hlt : s.seen k < s.installs q.ref := by
          have hle := hpick.seen
          omega
        -- a client that came later has a greater number than the chosen one
        have hchosen := hown client hroute
        have hge := hpick.later hlt client client hchosen hroute
        exact absurd (hpick.known client hchosen) (Nat.not_lt.mpr hge)
    · rintro (hnone | hsame) client hroute
      · rw [hnone] at hroute
        cases hroute
      · rcases hpick.unchanged hsame.symm with hnone | hown
        · rw [hnone] at hroute
          cases hroute
        · rw [← hown, hroute]
  refine ⟨hiff, ?_⟩
  intro es s hrun k q own hk
  have hplain : Runs Does (startup auth passthrough metrics forwards manager dc databases) es s :=
    hrun.mono fun _ _ _ _ h => h.1
  refine (hiff es s hplain k q own hk).mpr (Or.inr ?_)
  exact (seen_of_calm hrun k q own (by rw [hk]; rfl)).symm

end Runs

/-! ## A new client that an old error removes -/

/-- A request for the shop comes to its route, reads that it has a client, and takes it. -/
def picksClient (k : Nat) : List ClientEvent :=
  [.begin k (.new (lit "10.0.0.7:5000")) (lit "shop") 0, .go k calmUpstream, .go k calmUpstream]

/-- Its round trip ends with a connection that was reset. -/
def fails (k : Nat) : ClientEvent :=
  .answer k (.error (errorf "connection reset by peer")) openProxy.world openProxy.poolManager

/-- Requests 0 and 1 take the client of the route. The connection of request 1 breaks, and it resets
the route. Request 2 installs a new client. Then the connection of request 0 breaks. -/
def lateError : List ClientEvent :=
  picksClient 0 ++ picksClient 1 ++ [fails 1, .go 1 calmUpstream, .go 1 calmUpstream] ++
    [.begin 2 (.new (lit "10.0.0.9:5000")) (lit "shop") 0] ++
    List.replicate 7 (.go 2 calmUpstream) ++ [fails 0, .go 0 calmUpstream]

/-- Request 0 resets the route, which takes the new client off it. -/
theorem lateError_removes_new_client :
    (play (startup false false false false (some (.new (lit "session") 0)) none [shopEntry])
      lateError).map (fun s => ((s.point 0).picked.map Prod.snd, s.routeOf 0,
        (s.go 0 calmUpstream).map (·.routeOf 0))) =
      some (some (.ofRoute (some shopClient)), some newShopClient, some none) := by
  decide +kernel

end ClientSystem

end MongoBouncer
