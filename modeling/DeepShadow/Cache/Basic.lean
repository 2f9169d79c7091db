import DeepShadow.Tile

/-!
# A bounded cache of tiles

The cache holds the tiles requested most recently.  A request is two steps: the
lookup finds the entry of the tile or enters a new one, and where the entry is
new, the tile is loaded and the entry settled.  Between the two steps of one
request others may run; they find the new entry and wait for it.  An entry that
is not settled is never evicted, so that no tile is loaded twice at a time.

Lookups are numbered, and each entry has the number of the lookup that gave it last.
The entries are in no particular order.

A load that failed is kept like a tile, so that it is not repeated.
-/

namespace DeepShadow

/-- Why there is no cache with some settings. -/
inductive CacheError
  | noCapacity
deriving DecidableEq, Repr

/-- The text shown for an error. -/
def CacheError.message : CacheError -> String
  | noCapacity => "tile cache must hold at least one tile"

/-- The number of tiles that a cache holds where nothing else is said. -/
def defaultCacheCapacity : Nat := 256

/-- What an entry of the cache holds. -/
inductive Slot
  /-- The tile is being loaded. -/
  | pending
  /-- The tile, or none where it could not be loaded. -/
  | settled (tile : Option Tile)
deriving DecidableEq, Repr

namespace Slot

/-- Whether the load has come to an end. -/
def isSettled : Slot -> Bool
  | .pending => false
  | .settled _ => true

end Slot

/-- An entry of the cache. -/
structure CacheEntry where
  position : TilePosition
  /-- The number of the miss that entered it. -/
  ticket : Nat
  /-- The number of the lookup that gave it last. -/
  lastUsed : Nat
  slot : Slot
deriving DecidableEq, Repr

namespace CacheEntry

/-- The entry behind the lookup of a tile with the given number. -/
def touch (position : TilePosition) (now : Nat) (entry : CacheEntry) : CacheEntry :=
  if entry.position = position then { entry with lastUsed := now } else entry

/-- The entry behind the end of the load for the miss with the given ticket. -/
def settle (ticket : Nat) (tile : Option Tile) (entry : CacheEntry) : CacheEntry :=
  if entry.ticket = ticket then { entry with slot := .settled tile } else entry

end CacheEntry

/-- How often what has happened. -/
structure CacheCounters where
  hits : Nat
  misses : Nat
  decodes : Nat
  failures : Nat
  evictions : Nat
deriving DecidableEq, Repr

/-- A cache of tiles. -/
structure Cache where
  /-- The number of tiles that may stay. -/
  capacity : Nat
  capacity_pos : 0 < capacity
  /-- The entries, one for each of their positions. -/
  entries : List CacheEntry
  /-- The number of lookups so far. -/
  clock : Nat
  counters : CacheCounters

namespace Cache

/-- The empty cache for the given number of tiles. -/
def ofCapacity (capacity : Nat) : Except CacheError Cache :=
  if positive : 0 < capacity then
    .ok
      { capacity
        capacity_pos := positive
        entries := []
        clock := 0
        counters := ⟨0, 0, 0, 0, 0⟩ }
  else .error .noCapacity

/-- The number of entries. -/
def residentCount (cache : Cache) : Nat := cache.entries.length

/-- The entry of a tile. -/
def entry? (cache : Cache) (position : TilePosition) : Option CacheEntry :=
  cache.entries.find? fun entry => entry.position = position

/-- Whether a tile was loaded and is still held. -/
def isResident (cache : Cache) (position : TilePosition) : Bool :=
  match cache.entry? position with
  | some entry => entry.slot.isSettled
  | none => false

/-- The entry that is evicted next: of those that are settled, that of the tile to keep
apart, the one looked up longest ago. -/
def victim? (keep : TilePosition) (entries : List CacheEntry) : Option CacheEntry :=
  (entries.filter fun entry => entry.position ≠ keep && entry.slot.isSettled).minOn?
    CacheEntry.lastUsed

/-- Takes out as many entries as there are too many, each time the one that is evicted
next, until none can be evicted any more.  Gives the entries taken out in their order,
and those left. -/
def evict (keep : TilePosition) :
    (excess : Nat) -> List CacheEntry -> List CacheEntry × List CacheEntry
  | 0, entries => ([], entries)
  | excess + 1, entries =>
      match victim? keep entries with
      | none => ([], entries)
      | some victim =>
          let (victims, left) :=
            evict keep excess (entries.filter fun entry => entry.position ≠ victim.position)
          (victim :: victims, left)

/-- The first step of a request: finds the entry of the tile, or enters a new one
and makes room for it.  Gives the entry with the tiles that were evicted. -/
def lookup
    (cache : Cache)
    (position : TilePosition) : CacheEntry × List TilePosition × Cache :=
  let now := cache.clock + 1
  match cache.entry? position with
  | some entry =>
      ( entry.touch position now
      , []
      , { cache with
          entries := cache.entries.map (CacheEntry.touch position now)
          clock := now
          counters := { cache.counters with hits := cache.counters.hits + 1 } } )
  | none =>
      let entry : CacheEntry := ⟨position, cache.counters.misses, now, .pending⟩
      let entries := entry :: cache.entries
      let (victims, left) := evict position (entries.length - cache.capacity) entries
      ( entry
      , victims.map CacheEntry.position
      , { cache with
          entries := left
          clock := now
          counters :=
            { cache.counters with
              misses := cache.counters.misses + 1
              evictions := cache.counters.evictions + victims.length } } )

/-- The second step of a request that entered a new entry: settles the entry with
the given ticket. -/
def settle (cache : Cache) (ticket : Nat) (tile : Option Tile) : Cache :=
  { cache with
    entries := cache.entries.map (CacheEntry.settle ticket tile)
    counters :=
      match tile with
      | some _ => { cache.counters with decodes := cache.counters.decodes + 1 }
      | none => { cache.counters with failures := cache.counters.failures + 1 } }

/-- What a request has come to. -/
structure Answer (ε : Type) where
  /-- The tile, or none where it could not be loaded. -/
  tile : Option Tile
  /-- The tiles that were evicted for it, the oldest first. -/
  evicted : List TilePosition
  /-- The result of the load, where the tile was not held. -/
  loaded : Option (Except ε Tile)

/-- A request with nothing in between its two steps. -/
def request
    (load : TilePosition -> Except ε Tile)
    (cache : Cache)
    (position : TilePosition) : Answer ε × Cache :=
  let (entry, evicted, cache) := cache.lookup position
  match entry.slot with
  | .settled tile => ({ tile, evicted, loaded := none }, cache)
  | .pending =>
      let result := load position
      let tile := result.toOption
      ({ tile, evicted, loaded := some result }, cache.settle entry.ticket tile)

end Cache
end DeepShadow
