import SortedTable.Memtable
import SortedTable.Writer.Basic

namespace SortedTable

/-- Writes partitions in order until one fails. -/
def Writer.appendAll (writer : Writer) (store : Store) :
    List Partition → Except TableError Unit × Writer × Store
  | [] => (.ok (), writer, store)
  | partition :: rest =>
      match writer.append partition store with
      | (.error error, writer, store) => (.error error, writer, store)
      | (.ok _, writer, store) => writer.appendAll store rest

/-- Writes every partition to a new table, with a filter for all keys of the buffer, and opens it. -/
def Memtable.flush (memtable : Memtable) (plan : WriterPlan) (store : Store) :
    Except TableError Reader × Store :=
  if memtable.isEmpty then (.error .empty, store)
  else
    match Writer.build { plan with expected := UInt64.ofNat memtable.size } store with
    | (.error error, store) => (.error error, store)
    | (.ok writer, store) =>
        match writer.appendAll store memtable.toList with
        | (.error error, _, store) => (.error error, store)
        | (.ok _, writer, store) => writer.finishAndOpen store

end SortedTable
