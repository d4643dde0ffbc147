import MongoBouncer.GoStd.Map
import MongoBouncer.GoStd.Strings

/-!
# The topology monitor

The monitor looks at the description of the cluster every five seconds, and logs a change. Two
descriptions are compared by their kinds, and by the kinds of their servers under their addresses.

* `topologyDescriptionEqual` : the comparison;
* `kindOf`                   : the kind of the server at an address, the last one in the list;
* `Hides`                    : a change that the comparison does not see;
* `topologyMonitor`          : the loop, with what it logs.

Principal results: `topologyDescriptionEqual_exact_iff` and `topologyMonitor_complete_iff`.
-/

namespace MongoBouncer

open GoStd

/-- `description.Server`: its address and its kind, of which zero is unknown. -/
structure ServerDescription where
  addr : GoString
  kind : UInt32
  deriving DecidableEq, Repr

/-- `description.Topology`: its kind and its servers. -/
structure TopologyDescription where
  kind : UInt32
  servers : List ServerDescription
  deriving DecidableEq, Repr

section

-- `Address.String` of the driver
variable (addrString : GoString → GoString)

/-- The map that `topologyDescriptionEqual` makes of the servers. -/
def serverKinds (servers : List ServerDescription) : GoMap GoString UInt32 :=
  servers.foldl (fun m s => m.set (addrString s.addr) s.kind) .empty

/-- `topologyDescriptionEqual`. An address that is not in the second map has kind zero there. -/
def topologyDescriptionEqual (d1 d2 : TopologyDescription) : Bool :=
  if d1.kind ≠ d2.kind then false
  else
    let s1 := serverKinds addrString d1.servers
    let s2 := serverKinds addrString d2.servers
    if s1.entries.length ≠ s2.entries.length then false
    else s1.entries.all fun e => (s2.get e.1).getD 0 = e.2

/-- The kind of the server at an address, the last one in the list. -/
def kindOf (servers : List ServerDescription) (address : GoString) : Option UInt32 :=
  (servers.reverse.find? (addrString ·.addr = address)).map ServerDescription.kind

/-- The descriptions say the same of the cluster. -/
def SameTopology (d1 d2 : TopologyDescription) : Prop :=
  d1.kind = d2.kind ∧ ∀ address, kindOf addrString d1.servers address =
    kindOf addrString d2.servers address

def addressCount (servers : List ServerDescription) : Nat :=
  (serverKinds addrString servers).entries.length

/-- A change that is not seen: the descriptions have one kind and equally many addresses, and agree
on the addresses that they share; but there are addresses in the first that are not in the second,
and their servers are all of unknown kind. -/
structure Hides (d1 d2 : TopologyDescription) : Prop where
  kind : d1.kind = d2.kind
  count : addressCount addrString d1.servers = addressCount addrString d2.servers
  shared : ∀ address k k', kindOf addrString d1.servers address = some k →
    kindOf addrString d2.servers address = some k' → k = k'
  unknown : ∀ address k, kindOf addrString d1.servers address = some k →
    kindOf addrString d2.servers address = none → k = 0
  gone : ∃ address, kindOf addrString d1.servers address ≠ none ∧
    kindOf addrString d2.servers address = none

variable {addrString}

theorem serverKinds_append (servers : List ServerDescription) (s : ServerDescription) :
    serverKinds addrString (servers ++ [s]) =
      (serverKinds addrString servers).set (addrString s.addr) s.kind := by
  simp [serverKinds]

theorem get_serverKinds (servers : List ServerDescription) (address : GoString) :
    (serverKinds addrString servers).get address = kindOf addrString servers address := by
  induction servers using List.reverseRecOn with
  | nil => rfl
  | append_singleton servers s ih =>
    rw [serverKinds_append, GoMap.get_set, kindOf, List.reverse_append]
    by_cases h : addrString s.addr = address
    · simp [h]
    · have h' : ¬ address = addrString s.addr := fun heq => h heq.symm
      rw [if_neg h', ih]
      simp [h, kindOf]

variable {d1 d2 : TopologyDescription}

theorem topologyDescriptionEqual_iff : topologyDescriptionEqual addrString d1 d2 = true ↔
      d1.kind = d2.kind ∧ addressCount addrString d1.servers = addressCount addrString d2.servers ∧
      ∀ address k, kindOf addrString d1.servers address = some k →
        (kindOf addrString d2.servers address).getD 0 = k := by
  unfold topologyDescriptionEqual
  by_cases hkind : d1.kind = d2.kind
  · by_cases hcount : addressCount addrString d1.servers = addressCount addrString d2.servers
    · have hcount' := hcount
      unfold addressCount at hcount'
      simp only [hkind, hcount, hcount', ne_eq, not_true_eq_false, if_false, true_and,
        List.all_eq_true, decide_eq_true_eq, Prod.forall, get_serverKinds]
      simp only [← GoMap.get_eq_some, get_serverKinds]
    · have hcount' := hcount
      unfold addressCount at hcount'
      simp [hkind, hcount, hcount']
  · simp [hkind]

theorem mem_keys_serverKinds {servers : List ServerDescription} {address : GoString} :
    address ∈ (serverKinds addrString servers).keys ↔ kindOf addrString servers address ≠ none := by
  rw [← get_serverKinds, Ne, GoMap.get_eq_none, not_not]

theorem addressCount_le {servers servers' : List ServerDescription}
    (h : ∀ address, kindOf addrString servers address ≠ none →
      kindOf addrString servers' address ≠ none) :
    addressCount addrString servers ≤ addressCount addrString servers' := by
  have hsub : (serverKinds addrString servers).keys ⊆ (serverKinds addrString servers').keys := by
    intro address hmem
    exact mem_keys_serverKinds.mpr (h address (mem_keys_serverKinds.mp hmem))
  have hlen := (List.Nodup.subperm (serverKinds addrString servers).nodup hsub).length_le
  simpa [GoMap.keys, addressCount] using hlen

theorem topologyDescriptionEqual_of_same (h : SameTopology addrString d1 d2) :
    topologyDescriptionEqual addrString d1 d2 = true := by
  obtain ⟨hkind, hsame⟩ := h
  have hcount : addressCount addrString d1.servers = addressCount addrString d2.servers := by
    apply Nat.le_antisymm
    · exact addressCount_le fun address hne => by rwa [← hsame]
    · exact addressCount_le fun address hne => by rwa [hsame]
  rw [topologyDescriptionEqual_iff]
  refine ⟨hkind, hcount, ?_⟩
  intro address k hk
  rw [← hsame, hk]
  rfl

/-- Descriptions that are taken to be equal say the same, if no address is gone. -/
theorem same_of_topologyDescriptionEqual (h : topologyDescriptionEqual addrString d1 d2 = true)
    (hgone : ∀ address, kindOf addrString d1.servers address ≠ none →
      kindOf addrString d2.servers address ≠ none) : SameTopology addrString d1 d2 := by
  obtain ⟨hkind, hcount, hkinds⟩ := topologyDescriptionEqual_iff.mp h
  have hback : (serverKinds addrString d2.servers).keys ⊆
      (serverKinds addrString d1.servers).keys := by
    refine GoMap.keys_subset_of_length ?_ hcount
    intro address hmem
    exact mem_keys_serverKinds.mpr (hgone address (mem_keys_serverKinds.mp hmem))
  refine ⟨hkind, ?_⟩
  intro address
  cases h1 : kindOf addrString d1.servers address with
  | none =>
    by_contra hne
    have hmem : address ∈ (serverKinds addrString d2.servers).keys :=
      mem_keys_serverKinds.mpr (Ne.symm hne)
    exact mem_keys_serverKinds.mp (hback hmem) h1
  | some k =>
    obtain ⟨k', hk'⟩ := Option.ne_none_iff_exists'.mp
      (hgone address (by rw [h1]; exact Option.some_ne_none k))
    have heq := hkinds address k h1
    rw [hk'] at heq ⊢
    exact congrArg some heq.symm

/-- **What the comparison takes to be equal and is not.** -/
theorem hides_iff : Hides addrString d1 d2 ↔
      topologyDescriptionEqual addrString d1 d2 = true ∧ ¬ SameTopology addrString d1 d2 := by
  constructor
  · intro h
    refine ⟨topologyDescriptionEqual_iff.mpr ⟨h.kind, h.count, ?_⟩, ?_⟩
    · intro address k hk
      cases h2 : kindOf addrString d2.servers address with
      | none => exact (h.unknown address k hk h2).symm
      | some k' => exact (h.shared address k k' hk h2).symm
    · intro hsame
      obtain ⟨address, hne, hnone⟩ := h.gone
      exact hne (by rw [hsame.2 address, hnone])
  · rintro ⟨hequal, hdiffer⟩
    obtain ⟨hkind, hcount, hkinds⟩ := topologyDescriptionEqual_iff.mp hequal
    refine ⟨hkind, hcount, ?_, ?_, ?_⟩
    · intro address k k' hk hk'
      have heq := hkinds address k hk
      rw [hk'] at heq
      exact heq.symm
    · intro address k hk hnone
      have heq := hkinds address k hk
      rw [hnone] at heq
      exact heq.symm
    · by_contra hgone
      apply hdiffer
      refine same_of_topologyDescriptionEqual hequal ?_
      intro address hne hnone
      exact hgone ⟨address, hne, hnone⟩

theorem topologyDescriptionEqual_exact (h : ¬ Hides addrString d1 d2) :
    topologyDescriptionEqual addrString d1 d2 = true ↔ SameTopology addrString d1 d2 := by
  constructor
  · intro hequal
    by_contra hdiffer
    exact h (hides_iff.mpr ⟨hequal, hdiffer⟩)
  · exact topologyDescriptionEqual_of_same

/-- **The comparison is exact if, and only if, it does not hide a change.** -/
theorem topologyDescriptionEqual_exact_iff (addrString : GoString → GoString)
    (d1 d2 : TopologyDescription) :
    (topologyDescriptionEqual addrString d1 d2 = true ↔ SameTopology addrString d1 d2) ↔
      ¬ Hides addrString d1 d2 := by
  constructor
  · intro hexact hhides
    obtain ⟨hequal, hdiffer⟩ := hides_iff.mp hhides
    exact hdiffer (hexact.mp hequal)
  · exact topologyDescriptionEqual_exact

/-! ## The loop -/

variable (addrString) in
/-- `topologyMonitor`, for the descriptions that it sees one after the other: what it logs. -/
def topologyMonitor (last : TopologyDescription) :
    List TopologyDescription → List (TopologyDescription × TopologyDescription)
  | [] => []
  | desc :: rest =>
    if topologyDescriptionEqual addrString last desc then topologyMonitor desc rest
    else (last, desc) :: topologyMonitor desc rest

theorem topologyMonitor_eq (last : TopologyDescription) (seen : List TopologyDescription) :
    topologyMonitor addrString last seen =
      ((last :: seen).zip seen).filter fun p => !topologyDescriptionEqual addrString p.1 p.2 := by
  induction seen generalizing last with
  | nil => rfl
  | cons desc rest ih =>
    rw [topologyMonitor, List.zip_cons_cons, List.filter_cons, ih]
    cases topologyDescriptionEqual addrString last desc with
    | true => rfl
    | false => rfl

open Classical in
/-- **The monitor logs exactly the changes if, and only if, none of them is hidden.** -/
theorem topologyMonitor_complete_iff (last : TopologyDescription)
    (seen : List TopologyDescription) :
    topologyMonitor addrString last seen =
        ((last :: seen).zip seen).filter (fun p => ¬ SameTopology addrString p.1 p.2) ↔
      ∀ p ∈ (last :: seen).zip seen, ¬ Hides addrString p.1 p.2 := by
  rw [topologyMonitor_eq]
  constructor
  · rintro hlog p hp hhides
    obtain ⟨hequal, hdiffer⟩ := hides_iff.mp hhides
    have hmem : p ∈ ((last :: seen).zip seen).filter
        fun p => ¬ SameTopology addrString p.1 p.2 := by
      rw [List.mem_filter]
      exact ⟨hp, decide_eq_true hdiffer⟩
    rw [← hlog, List.mem_filter, hequal] at hmem
    cases hmem.2
  · intro h
    apply List.filter_congr
    intro p hp
    have hexact := topologyDescriptionEqual_exact (h p hp)
    by_cases hsame : SameTopology addrString p.1 p.2
    · simp [hsame, hexact.mpr hsame]
    · simp [hsame, mt hexact.mp hsame]

end

/-- Two descriptions of servers under their own names: one of them replaced by another. -/
def replacedServer : TopologyDescription × TopologyDescription :=
  (⟨0, [⟨lit "a", 0⟩]⟩, ⟨0, [⟨lit "b", 1⟩]⟩)

/-- The change is seen in one direction only. -/
theorem replacedServer_hidden :
    topologyDescriptionEqual id replacedServer.1 replacedServer.2 = true ∧
    topologyDescriptionEqual id replacedServer.2 replacedServer.1 = false ∧
    kindOf id replacedServer.1.servers (lit "a") = some 0 ∧
    kindOf id replacedServer.2.servers (lit "a") = none := by
  decide +kernel

end MongoBouncer
