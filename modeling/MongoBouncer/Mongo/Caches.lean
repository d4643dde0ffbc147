import MongoBouncer.LruTtl
import MongoBouncer.Mongo.SessionManager

/-!
# The transaction and cursor caches of a Mongo client

Model of `mongo/transaction_cache.go` and `mongo/cursor_cache.go`, and of the fields of `Mongo`
that RoundTrip reads. A lookup answers `none` when the cache does not know the key, and
`some none` when only the distributed cache knows it: it then says `ok` but has no server to
return.
-/

namespace MongoBouncer

open GoStd Lruttl

def maxTransactions : Nat := 1024 * 1024

/-- `transactionExpiry`: 120 seconds. -/
def transactionExpiry : Int := 120 * 1000000000

def maxCursors : Nat := 1024 * 1024

/-- `cursorExpiry`: 24 hours. -/
def cursorExpiry : Int := 24 * 3600 * 1000000000

structure CursorInfo where
  server : Server
  databaseName : GoString
  deriving DecidableEq, Repr

/-- `transactionCache`, without the distributed cache. -/
abbrev TransactionCache := LruTtl GoString Server

/-- `cursorCache`, without the distributed cache. -/
abbrev CursorCache := LruTtl GoString CursorInfo

namespace TransactionCache

/-- `newTransactionCache`. -/
def new : TransactionCache := LruTtl.new maxTransactions transactionExpiry

/-- `transactionCache.peek`. -/
def peek (t : TransactionCache) (dc : Option DistributedCache) (lsID : Bytes) :
    Option (Option Server) :=
  match LruTtl.peek t (Base64.encodeToString lsID) with
  | some v => some (some v)
  | none => if dc.any (·.getTransaction lsID) then some none else none

/-- `transactionCache.add`, on the local cache. -/
def add (t : TransactionCache) (now : Int) (lsID : Bytes) (server : Server) : TransactionCache :=
  LruTtl.add t now (Base64.encodeToString lsID) server

/-- `transactionCache.remove`, on the local cache. -/
def remove (t : TransactionCache) (lsID : Bytes) : TransactionCache :=
  LruTtl.remove t (Base64.encodeToString lsID)

/-- The local cache has an entry for the lsid. -/
def Holds (t : TransactionCache) (lsID : Bytes) : Prop :=
  (LruTtl.peek t (Base64.encodeToString lsID)).isSome

instance (t : TransactionCache) (lsID : Bytes) : Decidable (t.Holds lsID) :=
  inferInstanceAs (Decidable (_ = true))

theorem not_holds_new (lsID : Bytes) : ¬ new.Holds lsID := by
  simp [Holds, new]

theorem holds_add_self (t : TransactionCache) (now : Int) (lsID : Bytes) (server : Server) :
    (t.add now lsID server).Holds lsID := by
  simp [Holds, add]

theorem holds_of_holds_add {t : TransactionCache} {now : Int} {lsID lsID' : Bytes}
    {server : Server} (h : (t.add now lsID server).Holds lsID') :
    lsID' = lsID ∨ t.Holds lsID' := by
  obtain ⟨v, hv⟩ := Option.isSome_iff_exists.mp h
  rcases LruTtl.peek_of_peek_add hv with heq | hold
  · exact Or.inl (Base64.encodeToString_injective heq)
  · exact Or.inr (Option.isSome_iff_exists.mpr ⟨v, hold⟩)

theorem holds_remove {t : TransactionCache} {lsID lsID' : Bytes} :
    (t.remove lsID).Holds lsID' ↔ lsID' ≠ lsID ∧ t.Holds lsID' := by
  unfold Holds remove
  rw [LruTtl.peek_remove]
  by_cases h : lsID' = lsID
  · simp [h]
  · rw [if_neg fun he => h (Base64.encodeToString_injective he)]
    simp [h]

end TransactionCache

namespace CursorCache

/-- `newCursorCache`. -/
def new : CursorCache := LruTtl.new maxCursors cursorExpiry

def buildKey (cursorID : Int64) (collection : GoString) : GoString :=
  formatInt cursorID.toInt ++ lit "-" ++ collection

/-- `cursorCache.peek`. -/
def peek (c : CursorCache) (dc : Option DistributedCache) (cursorID : Int64)
    (collection : GoString) : Option (Option Server) :=
  match LruTtl.peek c (buildKey cursorID collection) with
  | some info => some (some info.server)
  | none => if dc.any fun d => (d.getCursor cursorID collection).isSome then some none else none

/-- `cursorCache.add`, on the local cache. -/
def add (c : CursorCache) (now : Int) (cursorID : Int64) (collection : GoString) (server : Server)
    (databaseName : GoString) : CursorCache :=
  LruTtl.add c now (buildKey cursorID collection) { server, databaseName }

/-- `cursorCache.remove`, on the local cache. -/
def remove (c : CursorCache) (cursorID : Int64) (collection : GoString) : CursorCache :=
  LruTtl.remove c (buildKey cursorID collection)

end CursorCache

/-- `Mongo`: whether `client` is nil, whether its caches have the distributed cache, the name used
for labels, and the two caches. -/
structure Mongo where
  closed : Bool
  distributed : Bool
  databaseName : GoString
  cursors : CursorCache
  transactions : TransactionCache

/-- A client as `ConnectWithDistributedCache` makes it. -/
def Mongo.connected (databaseName : GoString) : Mongo :=
  { closed := false, distributed := true, databaseName, cursors := CursorCache.new,
    transactions := TransactionCache.new }

/-- A client as `ConnectWithSessionManager` makes it: it shares the session manager, but its own
caches have no distributed cache. -/
def Mongo.connectedLocally (databaseName : GoString) : Mongo :=
  { Mongo.connected databaseName with distributed := false }

end MongoBouncer
