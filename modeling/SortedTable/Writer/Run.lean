import SortedTable.Writer.Basic

namespace SortedTable

/-- How a writer ends. Dropping a writer aborts it. -/
inductive Conclusion where
  | finish
  | finishAndOpen
  | abort
  deriving DecidableEq, Repr, Inhabited

/-- A partition that a writer was given, where it would land, and the writer's answer. -/
structure Attempt where
  partition : Partition
  position : Option Position
  answer : Except TableError (Option Position)

/-- What became of a writer, with the open table if one was asked for. -/
structure WriterRun where
  built : Except TableError Unit
  attempts : List Attempt
  /-- There is none if the writer was not built or was aborted. -/
  result : Option (Except TableError (Option Reader))
  store : Store

namespace Writer

/-- Gives partitions to a writer in order, also after one that failed. -/
def appendEach (writer : Writer) (store : Store) : List Partition → List Attempt × Writer × Store
  | [] => ([], writer, store)
  | partition :: rest =>
      let (answer, next, store) := writer.append partition store
      let (attempts, last, store) := next.appendEach store rest
      (⟨partition, writer.position?, answer⟩ :: attempts, last, store)

/-- Ends a writer. -/
def conclude (writer : Writer) (conclusion : Conclusion) (store : Store) :
    Option (Except TableError (Option Reader)) × Store :=
  match conclusion with
  | .finish =>
      let (result, store) := writer.finish store
      (some (result.map fun _ => none), store)
  | .finishAndOpen =>
      let (result, store) := writer.finishAndOpen store
      (some (result.map some), store)
  | .abort => (none, writer.abort store)

end Writer

/-- Builds a writer, gives it partitions and ends it. -/
def WriterPlan.run (plan : WriterPlan) (partitions : List Partition) (conclusion : Conclusion)
    (store : Store) : WriterRun :=
  match Writer.build plan store with
  | (.error error, store) => ⟨.error error, [], none, store⟩
  | (.ok writer, store) =>
      let (attempts, writer, store) := writer.appendEach store partitions
      let (result, store) := writer.conclude conclusion store
      ⟨.ok (), attempts, result, store⟩

namespace WriterRun

/-- The table was committed: finishing the writer succeeded. -/
def IsCommitted (run : WriterRun) : Prop := ∃ opened, run.result = some (.ok opened)

instance (run : WriterRun) : Decidable run.IsCommitted :=
  match outcome : run.result with
  | some (.ok opened) => .isTrue ⟨opened, outcome⟩
  | some (.error _) => .isFalse fun ⟨_, same⟩ => nomatch outcome.symm.trans same
  | none => .isFalse fun ⟨_, same⟩ => nomatch outcome.symm.trans same

end WriterRun

end SortedTable
