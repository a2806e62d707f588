import SortedTable.Filter.Basic

namespace SortedTable

/-- The bits of a filter and the number of open handles on them. -/
structure Region where
  bits : Bits
  handles : Nat
  deriving DecidableEq, Inhabited

/-- A handle on a filter. A handle on a Bloom filter loses its region when it is closed. -/
inductive Handle where
  | alwaysPresent
  | bloom (hashCount : UInt32) (hashing : 0 < hashCount) (region : Option Nat)

instance : Inhabited Handle := ⟨.alwaysPresent⟩

/-- A use of a handle that its state does not allow. -/
inductive HandleFault where
  | closed
  | shared (handles : Nat)
  deriving DecidableEq, Repr

def HandleFault.message : HandleFault → String
  | .closed => "off-heap bit set used after close"
  | .shared handles => s!"cannot clear a bit set shared by {handles} handles"

/-- The regions in the order of their making; a released one leaves an empty place. -/
structure Pool where
  regions : Array (Option Region)
  deriving Inhabited

namespace Pool

def empty : Pool := ⟨#[]⟩

/-- Puts a filter into a new region with one handle on it. -/
def adopt (pool : Pool) (filter : Filter) : Handle × Pool :=
  match filter with
  | .alwaysPresent => (.alwaysPresent, pool)
  | .bloom bloom =>
      (.bloom bloom.hashCount bloom.hashing (some pool.regions.size),
        ⟨pool.regions.push (some ⟨bloom.bits, 1⟩)⟩)

/-- The region of a handle, unless it was closed. -/
def region? (pool : Pool) (region : Option Nat) : Option Region :=
  region.bind fun index => pool.regions.getD index none

/-- The filter that a handle shows. -/
def filter (pool : Pool) : Handle → Except HandleFault Filter
  | .alwaysPresent => .ok .alwaysPresent
  | .bloom hashCount hashing region =>
      match pool.region? region with
      | some found => .ok (.bloom ⟨hashCount, found.bits, hashing⟩)
      | none => .error .closed

/-- The number of open handles on the region of a handle; zero for a closed handle. -/
def refCount (pool : Pool) : Handle → Nat
  | .alwaysPresent => 0
  | .bloom _ _ region => (pool.region? region).elim 0 Region.handles

/-- Changes a region. -/
def change (pool : Pool) (index : Nat) (update : Region → Option Region) : Pool :=
  ⟨pool.regions.modify index fun region => region.bind update⟩

/-- A further handle on the same bits. -/
def share (pool : Pool) : Handle → Except HandleFault (Handle × Pool)
  | .alwaysPresent => .ok (.alwaysPresent, pool)
  | .bloom hashCount hashing region =>
      match region with
      | some index =>
          .ok (.bloom hashCount hashing (some index),
            pool.change index fun held => some { held with handles := held.handles + 1 })
      | none => .error .closed

/-- Gives up one handle of a region and releases the region with the last one. -/
def release (pool : Pool) (index : Nat) : Pool :=
  pool.change index fun held =>
    if held.handles ≤ 1 then none else some { held with handles := held.handles - 1 }

/-- Closes a handle. Closing it again changes nothing. -/
def close (pool : Pool) : Handle → Handle × Pool
  | .alwaysPresent => (.alwaysPresent, pool)
  | .bloom hashCount hashing region =>
      (.bloom hashCount hashing none, region.elim pool pool.release)

/-- Drops a handle, which closes it. -/
def drop (pool : Pool) (handle : Handle) : Pool := (pool.close handle).2

/-- Adds a key to the bits of a handle; every handle on them sees it. -/
def add (pool : Pool) (handle : Handle) (hash : Murmur.Words) : Except HandleFault Pool :=
  match handle with
  | .alwaysPresent => .ok pool
  | .bloom hashCount _ region =>
      match region with
      | some index =>
          .ok (pool.change index fun held =>
            some { held with bits := Bloom.setFrom hash hashCount.toNat 0 held.bits })
      | none => .error .closed

/-- Clears the bits of a handle, which must be the only one on them. -/
def clear (pool : Pool) (handle : Handle) : Except HandleFault Pool :=
  match handle with
  | .alwaysPresent => .ok pool
  | .bloom _ _ region =>
      match region, pool.region? region with
      | some index, some held =>
          if held.handles = 1 then
            .ok (pool.change index fun held => some { held with bits := held.bits.cleared })
          else .error (.shared held.handles)
      | _, _ => .error .closed

/-- A handle in words. -/
def render (pool : Pool) : Handle → String
  | .alwaysPresent => "AlwaysPresentFilter"
  | .bloom hashCount _ region =>
      match pool.region? region with
      | some held =>
          s!"BloomFilter \x7b hash_count: {hashCount}, bit_count: {held.bits.capacity}, " ++
            s!"ref_count: {held.handles} \x7d"
      | none => s!"BloomFilter \x7b hash_count: {hashCount}, closed: true \x7d"

end Pool

/-- Whether the answers of a handle carry any information. -/
def Handle.isInformative : Handle → Bool
  | .alwaysPresent => false
  | .bloom .. => true

end SortedTable
