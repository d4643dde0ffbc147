import Mathlib.Data.Set.Card
import MongoBouncer.Proxy.Credentials
import MongoBouncer.Proxy.PoolThreads

/-!
# The limit of client connections

`RegisterClient` refuses a client when `maxClientConn` clients are registered. A connection that
changes its database is unregistered and registered again in two steps, between which another one
can take its place. A connection that was refused when it was opened stays open, and a message whose
credentials are passed through is forwarded without a look at the manager.

* `PoolSystem.Slot`    : the connection is registered, or was so when the message arrived for which
  it changes its database;
* `PoolSystem.Sparing` : the steps that register a new connection only if a slot is free;
* `PoolSystem.Limited` : those that moreover pass credentials through for registered connections only;
* `PoolSystem.served`  : the open connections that had an operation forwarded.

Principal results: `PoolSystem.registered_never_refused`, `PoolSystem.served_le`.
-/

namespace MongoBouncer

open GoStd Function

theorem Manager.encard_registered (m : Manager) :
    {k | (m.getClient k).isSome = true}.encard = m.activeClients.entries.length := by
  have hset : {k | (m.getClient k).isSome = true} = (m.activeClients.keys.toFinset : Set GoString) := by
    ext k
    rw [Set.mem_ofPred_eq, Finset.mem_coe, List.mem_toFinset, ← AList.mem_keys]
    exact AList.lookup_isSome
  rw [hset, Set.encard_coe_eq_coe_finsetCard, List.toFinset_card_of_nodup m.activeClients.keys_nodup]
  simp [AList.keys, List.keys]

theorem Manager.registerClient_error {m : Manager} {clientID username database : GoString}
    {poolMode : PoolMode} {e : GoError}
    (h : m.registerClient clientID username database poolMode = .error e) :
    m.getClient clientID = none ∧ m.maxClientConn ≤ m.activeClients.entries.length := by
  unfold registerClient at h
  split at h
  · cases h
  · rename_i hc
    split at h
    · rename_i hlimit
      exact ⟨hc, hlimit.2⟩
    · cases h

namespace PoolSystem

/-! ## Slots -/

/-- The connection is registered, or it is changing its database and was registered when the message
arrived. -/
def Slot (s : PoolSystem) (k : GoString) : Prop :=
  (s.manager.getClient k).isSome = true ∨ ∃ r, s.place k = .registering r true

/-- The connections with a slot. -/
def slots (s : PoolSystem) : Set GoString := {k | s.Slot k}

/-- What a step of connection `k` does to the slots, and to what was forwarded. -/
structure SlotMove (s s' : PoolSystem) (k : GoString) (e : Event) : Prop where
  others : ∀ k', k' ≠ k → (s'.Slot k' ↔ s.Slot k') ∧ s'.forwarded k' = s.forwarded k'
  gains : s'.Slot k → s.Slot k ∨ e = .registered k false
  keeps : s.Slot k → s'.Slot k ∨ e = .refused k true ∨ e = .closed k
  forwards : s'.forwarded k = true → e ≠ .closed k ∧
    (s.forwarded k = true ∨ e = .passedThrough k ∨ s'.Slot k)

section Slot

variable {d : Driver} {s s' : PoolSystem} {k : GoString} {e : Event} {m : Manager} {p : Place}
  {given : List (GoString × ConnRef)}

theorem slot_goto : (s.goto k p).Slot k ↔
    (s.manager.getClient k).isSome = true ∨ ∃ r, p = .registering r true := by
  unfold Slot
  rw [place_goto]
  rfl

theorem slot_call : (s.call m k p).Slot k ↔
    (m.getClient k).isSome = true ∨ ∃ r, p = .registering r true := by
  unfold Slot
  rw [place_call]
  rfl

theorem Moves.elsewhere_same (h : Moves d s k e s') {k' : GoString} (hk : k' ≠ k) :
    s'.place k' = s.place k' ∧ s'.forwarded k' = s.forwarded k' := by
  have hplace : ∀ p, update s.place k p k' = s.place k' :=
    fun p => update_of_ne hk p s.place
  have hforwarded : ∀ b, update s.forwarded k b k' = s.forwarded k' :=
    fun b => update_of_ne hk b s.forwarded
  cases h with
  | passedThrough hp => exact ⟨rfl, hforwarded _⟩
  | got | closed => exact ⟨hplace _, hforwarded _⟩
  | _ => exact ⟨hplace _, rfl⟩

theorem isSome_returnConnection {client : ClientConnection} {conn : ConnRef} {isEnd : Bool}
    (haff : m.Affine given) (hc : m.getClient k = some client) :
    ((m.returnConnection k conn isEnd).getClient k).isSome = true := by
  rcases Manager.returnConnection_cases hc (haff.clients k client hc).fits with
    hsame | ⟨-, hback⟩ | ⟨-, -, -, hend⟩
  · rw [hsame, hc]
    rfl
  · rw [hback, Manager.getClient_putBackOwn, hc]
    rfl
  · rw [hend, Manager.getClient_setClient, if_pos rfl]
    rfl

theorem slotMove_of_does (h : s.Sound d given) (hd : Does d s e s') : ∃ k, SlotMove s s' k e := by
  obtain ⟨given', hs', -⟩ := h.step hd
  obtain ⟨k, hmove⟩ := does_cases hd
  have hplace := h.places k
  have hplace' := hs'.places k
  have hothers : ∀ k', k' ≠ k → (s'.Slot k' ↔ s.Slot k') ∧ s'.forwarded k' = s.forwarded k' := by
    intro k' hk
    obtain ⟨hsame, hforwarded⟩ := hmove.elsewhere_same hk
    obtain ⟨conn, hacts⟩ := acts_of_moves h hmove
    refine ⟨?_, hforwarded⟩
    unfold Slot
    rw [hacts.others k' hk, hsame]
  -- a step that makes no call, and leads to a place where nothing is reserved
  have hgoto : ∀ p, s' = s.goto k p → (∀ r, p ≠ .registering r true) →
      (∀ r, s.place k = .registering r true → e = .refused k true) → e ≠ .closed k →
      SlotMove s s' k e := by
    rintro p rfl hfree hkeeps he
    refine ⟨hothers, ?_, ?_, ?_⟩
    · intro hslot
      rcases slot_goto.mp hslot with hc | ⟨r, hr⟩
      · exact Or.inl (Or.inl hc)
      · exact absurd hr (hfree r)
    · rintro (hc | ⟨r, hr⟩)
      · exact Or.inl (slot_goto.mpr (Or.inl hc))
      · exact Or.inr (Or.inl (hkeeps r hr))
    · intro hf
      exact ⟨he, Or.inl hf⟩
  refine ⟨k, ?_⟩
  cases hmove with
  | accepted hp | turnedAway hp | requested hp | hungUp hp | elsewhere hp | here hp
  | unserved hp => exact hgoto _ rfl (fun _ => nofun) (by simp [hp]) nofun
  | enrolled hp hm =>
    rw [hp] at hplace
    obtain ⟨client, hc, -⟩ := Manager.getClient_registerClient hplace hm
    exact ⟨hothers, fun _ => Or.inr rfl, fun _ => Or.inl (slot_call.mpr (Or.inl (by simp [hc]))),
      fun hf => ⟨nofun, Or.inl hf⟩⟩
  | passedThrough hp => exact ⟨hothers, Or.inl, Or.inl, fun _ => ⟨nofun, Or.inr (Or.inl rfl)⟩⟩
  | unknown hp hc =>
    rename_i r known
    -- the client was not registered when the message arrived either
    rw [hp] at hplace
    have hknown : known = false := by
      rw [show known = _ from hplace, hc]
      rfl
    exact hgoto _ rfl (by simp [hknown]) (by simp [hp]) nofun
  | left hp =>
    rw [hp] at hplace
    obtain ⟨rfl, hsome⟩ := hplace
    exact ⟨hothers, fun _ => Or.inl (Or.inl hsome),
      fun _ => Or.inl (slot_call.mpr (Or.inr ⟨_, rfl⟩)), fun hf => ⟨nofun, Or.inl hf⟩⟩
  | registered hp hm =>
    rename_i r known m
    rw [hp] at hplace
    obtain ⟨client, hc, -⟩ := Manager.getClient_registerClient hplace hm
    refine ⟨hothers, ?_, fun _ => Or.inl (slot_call.mpr (Or.inl (by simp [hc]))),
      fun hf => ⟨nofun, Or.inl hf⟩⟩
    intro _
    cases known with
    | true => exact Or.inl (Or.inr ⟨r, hp⟩)
    | false => exact Or.inr rfl
  | refused hp he =>
    refine hgoto _ rfl (fun _ => nofun) ?_ nofun
    intro r hr
    rw [hp] at hr
    cases hr
    rfl
  | got hp hm =>
    rename_i r conn m
    rw [hp] at hplace
    obtain ⟨client, hc, -⟩ := hplace
    have hslot : ((s.call m k (.flying r conn)).mark k true).Slot k := by
      rw [show ((s.call m k (.flying r conn)).mark k true).place k = .flying r conn from
        place_call s m k _] at hplace'
      obtain ⟨-, client', hc', -⟩ := hplace'
      exact Or.inl (by rw [hc']; rfl)
    exact ⟨hothers, fun _ => Or.inl (Or.inl (by simp [hc])), fun _ => Or.inl hslot,
      fun _ => ⟨nofun, Or.inr (Or.inr hslot)⟩⟩
  | returned hp kept =>
    rw [hp] at hplace
    obtain ⟨-, client, hc, -⟩ := hplace
    exact ⟨hothers, fun _ => Or.inl (Or.inl (by simp [hc])),
      fun _ => Or.inl (slot_call.mpr (Or.inl (isSome_returnConnection h.affine hc))),
      fun hf => ⟨nofun, Or.inl hf⟩⟩
  | closed hp =>
    refine ⟨hothers, ?_, fun _ => Or.inr (Or.inr rfl), ?_⟩
    · intro hslot
      rcases hslot with hc | ⟨r, hr⟩
      · rw [show ((s.call (s.manager.unregisterClient k) k .closed).mark k false).manager =
          s.manager.unregisterClient k from rfl, Manager.getClient_unregisterClient] at hc
        cases hc
      · rw [show ((s.call (s.manager.unregisterClient k) k .closed).mark k false).place k = .closed
          from place_call s (s.manager.unregisterClient k) k _] at hr
        cases hr
    · intro hf
      have hfalse : update s.forwarded k false k = true := hf
      rw [update_self] at hfalse
      cases hfalse

/-- A registered connection that registers again has left its slot. -/
theorem lt_slots_of_refused {r : PoolRequest} (hp : s.place k = .registering r true) {err : GoError}
    (he : s.manager.registerClient k r.username r.database s.manager.defaultMode = .error err) :
    s.manager.maxClientConn.toNat < s.slots.encard := by
  obtain ⟨hnone, hlimit⟩ := Manager.registerClient_error he
  have hsub : insert k {k | (s.manager.getClient k).isSome = true} ⊆ s.slots := by
    rintro k' (rfl | hk')
    · exact Or.inr ⟨r, hp⟩
    · exact Or.inl hk'
  have hcard := Set.encard_le_encard hsub
  rw [Set.encard_insert_of_notMem (by simp [hnone]), Manager.encard_registered] at hcard
  refine lt_of_lt_of_le ?_ hcard
  norm_cast
  omega

end Slot

/-! ## Runs that spare the slots -/

/-- A connection that was not registered is registered only if fewer than `M` slots are taken. -/
def Spares (M : Nat) (s : PoolSystem) : Event → Prop
  | .registered _ false => s.slots.encard < M
  | _ => True

/-- The steps that spare the slots of the connections that change their database. -/
def Sparing (d : Driver) (M : Nat) (s : PoolSystem) (e : Event) (s' : PoolSystem) : Prop :=
  Does d s e s' ∧ s.Spares M e

/-- The connection of a message whose credentials are passed through is registered. -/
def Checks (s : PoolSystem) : Event → Prop
  | .passedThrough k => (s.manager.getClient k).isSome = true
  | _ => True

/-- The steps that spare the slots, and check the connections that pass credentials through. -/
def Limited (d : Driver) (M : Nat) (s : PoolSystem) (e : Event) (s' : PoolSystem) : Prop :=
  Sparing d M s e s' ∧ s.Checks e

/-- The open connections that had an operation forwarded upstream. -/
def served (s : PoolSystem) : Set GoString := {k | s.place k ≠ .closed ∧ s.forwarded k = true}

section Runs

variable {d : Driver} {s : PoolSystem} {es : List Event} {mode : GoString} {M : Nat}

theorem runs_does (h : Runs (Sparing d M) (start mode M) es s) :
    Runs (Does d) (start mode M) es s :=
  h.mono fun _ _ _ _ he => he.1

theorem runs_sparing (h : Runs (Limited d M) (start mode M) es s) :
    Runs (Sparing d M) (start mode M) es s :=
  h.mono fun _ _ _ _ he => he.1

theorem maxClientConn_of_runs (h : Runs (Does d) (start mode M) es s) :
    s.manager.maxClientConn = M :=
  congrArg Prod.snd (settings_of_runs h)

section

variable (h : Runs (Sparing d M) (start mode M) es s)

include h

theorem slots_le : s.slots.encard ≤ M := by
  induction h with
  | start =>
    have hempty : (start mode M).slots = ∅ := by
      apply Set.eq_empty_of_forall_notMem
      rintro k (hc | ⟨r, hr⟩)
      · cases hc
      · cases hr
    simp [hempty]
  | @step es s s' e h he ih =>
    obtain ⟨given, hs⟩ := sound_of_runs (runs_does h)
    obtain ⟨k, hslot⟩ := slotMove_of_does hs he.1
    by_cases hnew : e = .registered k false
    · have hsub : s'.slots ⊆ insert k s.slots := by
        intro k' hk'
        by_cases hk : k' = k
        · exact Or.inl hk
        · exact Or.inr ((hslot.others k' hk).1.mp hk')
      have hspare : s.slots.encard < M := by
        have hspares := he.2
        rw [hnew] at hspares
        exact hspares
      calc s'.slots.encard ≤ (insert k s.slots).encard := Set.encard_le_encard hsub
        _ ≤ s.slots.encard + 1 := Set.encard_insert_le _ _
        _ ≤ M := Order.add_one_le_of_lt hspare
    · have hsub : s'.slots ⊆ s.slots := by
        intro k' hk'
        by_cases hk : k' = k
        · subst hk
          exact (hslot.gains hk').resolve_right hnew
        · exact (hslot.others k' hk).1.mp hk'
      exact (Set.encard_le_encard hsub).trans ih

theorem registerClient_of_slot {k : GoString}
    {r : PoolRequest} (hp : s.place k = .registering r true) :
    ∃ m, s.manager.registerClient k r.username r.database s.manager.defaultMode = .ok m := by
  cases hreg : s.manager.registerClient k r.username r.database s.manager.defaultMode with
  | ok m => exact ⟨m, rfl⟩
  | error err =>
    have hlt := lt_slots_of_refused hp hreg
    rw [maxClientConn_of_runs (runs_does h)] at hlt
    exact absurd (slots_le h) (not_le.mpr hlt)

theorem refused_notMem (k : GoString) : .refused k true ∉ es := by
  induction h with
  | start => exact List.not_mem_nil
  | @step es s s' e h he ih =>
    intro hmem
    rcases List.mem_append.mp hmem with hold | hnew
    · exact ih hold
    · rw [List.mem_singleton] at hnew
      subst hnew
      obtain ⟨k', hmove⟩ := does_cases he.1
      cases hmove with
      | refused hp herr =>
        obtain ⟨m, hm⟩ := registerClient_of_slot h hp
        rw [herr] at hm
        cases hm

end

theorem slot_of_forwarded (h : Runs (Limited d M) (start mode M) es s) {k : GoString}
    (hf : s.forwarded k = true) : s.Slot k := by
  induction h with
  | start => cases hf
  | @step es s s' e h he ih =>
    obtain ⟨given, hs⟩ := sound_of_runs (runs_does (runs_sparing h))
    obtain ⟨k', hslot⟩ := slotMove_of_does hs he.1.1
    by_cases hk : k = k'
    · subst hk
      obtain ⟨hopen, hwas⟩ := hslot.forwards hf
      have hrefused : e ≠ .refused k true := by
        rintro rfl
        exact refused_notMem ((runs_sparing h).step he.1) k (by simp)
      have hkeep : s.Slot k → s'.Slot k := by
        intro hold
        rcases hslot.keeps hold with hnew | hr | hc
        · exact hnew
        · exact absurd hr hrefused
        · exact absurd hc hopen
      rcases hwas with hbefore | hpass | hnow
      · exact hkeep (ih hbefore)
      · have hchecks := he.2
        rw [hpass] at hchecks
        exact hkeep (Or.inl hchecks)
      · exact hnow
    · obtain ⟨hsame, hforwarded⟩ := hslot.others k hk
      rw [hforwarded] at hf
      exact hsame.mpr (ih hf)

/-- **A registered connection is never refused**, and a connection that changes its database can
register again, in every run that spares the slots of such connections. -/
theorem registered_never_refused (h : Runs (Sparing d M) (start mode M) es s) (k : GoString) :
    .refused k true ∉ es ∧
      ∀ r, s.place k = .registering r true →
        ∃ m, s.manager.registerClient k r.username r.database s.manager.defaultMode = .ok m :=
  ⟨refused_notMem h k, fun _ hp => registerClient_of_slot h hp⟩

/-- **At most `maxClientConn` open connections had an operation forwarded**, in every run that
spares the slots and passes credentials through for registered connections only. -/
theorem served_le (h : Runs (Limited d M) (start mode M) es s) : s.served.encard ≤ M := by
  have hsub : s.served ⊆ s.slots := by
    rintro k ⟨-, hf⟩
    exact slot_of_forwarded h hf
  exact (Set.encard_le_encard hsub).trans (slots_le (runs_sparing h))

end Runs

/-! ## Two connections and one slot -/

def bob : GoString := lit "10.0.0.8:5000"

/-- What the inputs lead to when there is one slot. -/
def withOneSlot (inputs : List (GoString × Input)) : Option (List Event × PoolSystem) :=
  play plainDriver (start (lit "session") 1) inputs

/-- A client with the only slot. -/
def annIn : PoolSystem :=
  (((withOneSlot [(ann, .accept), (ann, .go)]).map Prod.snd).getD (start (lit "session") 1))

theorem runs_annIn : Runs (Limited plainDriver 1) (start (lit "session") 1)
    [.accepted ann, .registered ann false] annIn := by
  have hfree : ((start (lit "session") 1).goto ann .opening).slots = ∅ := by
    apply Set.eq_empty_of_forall_notMem
    rintro k (hc | ⟨r, hr⟩)
    · cases hc
    · by_cases hk : k = ann
      · rw [hk, place_goto] at hr
        cases hr
      · rw [show ((start (lit "session") 1).goto ann .opening).place k = .closed from
          update_of_ne hk _ _] at hr
        cases hr
  have haccept : Limited plainDriver 1 (start (lit "session") 1) (.accepted ann)
      ((start (lit "session") 1).goto ann .opening) := ⟨⟨⟨ann, .accept, rfl⟩, trivial⟩, trivial⟩
  refine (Runs.start.step haccept).step ⟨⟨⟨ann, .go, by rfl⟩, ?_⟩, trivial⟩
  show ((start (lit "session") 1).goto ann .opening).slots.encard < _
  rw [hfree, Set.encard_empty]
  norm_num

theorem registered_never_refused_ann : ∃ es s,
    Runs (Sparing plainDriver 1) (start (lit "session") 1) es s ∧ .refused ann true ∉ es ∧
      s.place ann = .registering (annSends queryUsers) true ∧
      ∃ m, s.manager.registerClient ann (lit "ann") (lit "shop") s.manager.defaultMode = .ok m := by
  have hplay : (play plainDriver annIn [(ann, .request (annSends queryUsers)), (ann, .go),
        (ann, .go)]).map (fun x => (x.1, x.2.place ann)) =
      some ([.requested ann (annSends queryUsers), .looked ann, .left ann],
        .registering (annSends queryUsers) true) := by decide +kernel
  obtain ⟨⟨es, s⟩, hx, hes⟩ := Option.map_eq_some_iff.mp hplay
  simp only [Prod.mk.injEq] at hes
  obtain ⟨rfl, hplace⟩ := hes
  have hrun : Runs (Sparing plainDriver 1) annIn _ s := (runs_of_play hx).mono (by
    intro s e s' he hdoes
    refine ⟨hdoes, ?_⟩
    simp only [List.mem_cons, List.not_mem_nil, or_false] at he
    rcases he with rfl | rfl | rfl
    · trivial
    · trivial
    · trivial)
  have hall := (runs_sparing runs_annIn).append hrun
  obtain ⟨hnever, hback⟩ := registered_never_refused hall ann
  exact ⟨_, s, hall, hnever, hplace, hback _ hplace⟩

/-- With one slot, a client that is registered when its message arrives is refused: another one
connects while it changes its database. -/
theorem raced_refused : ∃ es s, Runs (Does plainDriver) (start (lit "session") 1) es s ∧
    .refused ann true ∈ es := by
  have hplay : (withOneSlot [(ann, .accept), (ann, .go), (ann, .request (annSends queryUsers)),
      (ann, .go), (ann, .go), (bob, .accept), (bob, .go), (ann, .go)]).map
        (fun x => decide (.refused ann true ∈ x.1)) = some true := by decide +kernel
  obtain ⟨⟨es, s⟩, hx, hmem⟩ := Option.map_eq_some_iff.mp hplay
  exact ⟨es, s, runs_of_play hx, of_decide_eq_true hmem⟩

theorem served_le_ann : ∃ es s, Runs (Limited plainDriver 1) (start (lit "session") 1) es s ∧
    ann ∈ s.served ∧ s.served.encard ≤ 1 := by
  have hregistered : (annIn.manager.getClient ann).isSome = true := by decide +kernel
  have hstep : Limited plainDriver 1 annIn (.passedThrough ann) (annIn.mark ann true) :=
    ⟨⟨⟨ann, .passThrough, rfl⟩, trivial⟩, hregistered⟩
  have hrun := runs_annIn.step hstep
  exact ⟨_, _, hrun, ⟨by decide +kernel, by decide +kernel⟩, served_le hrun⟩

/-- With one slot, two open connections had their operations forwarded: the second one was refused
when it connected, but its credentials are passed through. -/
theorem crowded_served : ∃ es s, Runs (Does plainDriver) (start (lit "session") 1) es s ∧
    ¬ s.served.encard ≤ 1 := by
  have hplay : (withOneSlot [(ann, .accept), (ann, .go), (ann, .passThrough), (bob, .accept),
      (bob, .go), (bob, .passThrough)]).map (fun x => (x.2.place ann, x.2.forwarded ann,
        x.2.place bob, x.2.forwarded bob)) = some (.idle, true, .idle, true) := by decide +kernel
  obtain ⟨⟨es, s⟩, hx, hs⟩ := Option.map_eq_some_iff.mp hplay
  simp only [Prod.mk.injEq] at hs
  obtain ⟨hplaceAnn, hann, hplaceBob, hbob⟩ := hs
  refine ⟨es, s, runs_of_play hx, ?_⟩
  have hsub : {ann, bob} ⊆ s.served := by
    rintro k (rfl | rfl)
    · exact ⟨by rw [hplaceAnn]; exact nofun, hann⟩
    · exact ⟨by rw [hplaceBob]; exact nofun, hbob⟩
  have hcard := Set.encard_le_encard hsub
  rw [Set.encard_pair (by decide)] at hcard
  intro hle
  exact absurd (hcard.trans hle) (by norm_num)

end PoolSystem

end MongoBouncer
