import SortedTable.Filter.Pool
import SortedTable.Reader

namespace SortedTable

/-- An open table with its handle on the filter. -/
structure SharedReader where
  reader : Reader
  handle : Handle
  deriving Inhabited

namespace SharedReader

/-- Puts the filter of an open table into the pool. -/
def adopt (reader : Reader) (pool : Pool) : SharedReader × Pool :=
  let (handle, pool) := pool.adopt reader.filter
  (⟨reader, handle⟩, pool)

/-- The open table with the bits that its filter has by now. -/
def view (shared : SharedReader) (pool : Pool) : Reader :=
  match pool.filter shared.handle with
  | .ok filter => { shared.reader with filter := filter }
  | .error _ => shared.reader

/-- A further handle on the filter. -/
def shareFilter (shared : SharedReader) (pool : Pool) : Except HandleFault (Handle × Pool) :=
  pool.share shared.handle

/-- Closes the table, which gives up its handle. -/
def drop (shared : SharedReader) (pool : Pool) : Pool := pool.drop shared.handle

def render (shared : SharedReader) (pool : Pool) : String :=
  shared.reader.render (pool.render shared.handle)

end SharedReader

end SortedTable
