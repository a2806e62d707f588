import SortedTable.Filter.Basic
import SortedTable.Layout.IndexEntry
import SortedTable.Layout.Statistics
import SortedTable.Observer
import SortedTable.Version

namespace SortedTable

/-- One step of a writer. -/
inductive Step where
  /-- Tells all observers. -/
  | notify (notice : Notice)
  /-- Creates the file of a component under its temporary name. -/
  | create (component : Component)
  | write (component : Component) (bytes : Bytes)
  /-- Empties the buffer of a component, makes its file durable and closes it. -/
  | close (component : Component)
  /-- Gives the file of a component its final name. -/
  | rename (component : Component)
  deriving DecidableEq

/-- Steps, and the error behind them if there is one. -/
structure Script where
  steps : List Step
  fault : Option TableError := none

namespace Script

/-- A script of steps without a fault. -/
def ofSteps (steps : List Step) : Script := ⟨steps, none⟩

/-- Writes fields to a component, unless there is an error instead. -/
def ofFields (component : Component) : Except TableError (List Bytes) → Script
  | .ok fields => .ofSteps (fields.map (.write component))
  | .error error => ⟨[], some error⟩

/-- The second script follows if the first one has no fault. -/
def followedBy (first second : Script) : Script :=
  match first.fault with
  | some _ => first
  | none => ⟨first.steps ++ second.steps, second.fault⟩

instance : Append Script := ⟨followedBy⟩

theorem fault_append (first second : Script) :
    (first ++ second).fault = (first.fault <|> second.fault) := by
  change (followedBy first second).fault = _
  unfold followedBy
  cases ended : first.fault <;> simp [ended]

end Script

/-- An element with the fields of its unit and the size of that unit. -/
structure EncodedElement where
  element : Element
  fields : List Bytes
  size : UInt64
  deriving DecidableEq

namespace EncodedElement

def ofElement (element : Element) : Except IoError EncodedElement := do
  let (kind, body) ← element.encode
  let fields ← unitFields kind body
  pure ⟨element, fields, unitSize body⟩

/-- Elements in order up to the first that cannot be encoded. -/
def ofElements : List Element → List EncodedElement × Option IoError
  | [] => ([], none)
  | element :: rest =>
      match ofElement element with
      | .error cause => ([], some cause)
      | .ok encoded =>
          let (further, fault) := ofElements rest
          (encoded :: further, fault)

/-- Writes the unit and then tells the observers. -/
def steps (encoded : EncodedElement) : List Step :=
  encoded.fields.map (.write .data) ++ [.notify (.element encoded.element)]

/-- The blocks of a partition whose further elements start at `position`. -/
def blocks (index : BlockIndex) (position : UInt64) :
    List EncodedElement → Except Overflow (List Block)
  | [] => index.blocks position
  | encoded :: rest => do
      let stop ← exactSum position encoded.size
      blocks (← index.add encoded.element.clustering position stop) stop rest

end EncodedElement

/-- Where a partition landed. -/
structure Position where
  data : UInt64
  index : UInt64
  deriving DecidableEq, Repr, Inhabited

namespace Row

/-- The fields of the unit of a static row. -/
def staticFields (row : Row) : Except TableError (List Bytes) := liftIo do
  unitFields staticRowKind (← row.encode)

/-- The size of the unit of a static row; a row that cannot be encoded has none. -/
def staticSize (row : Row) : UInt64 :=
  match row.encode with
  | .ok body => unitSize body
  | .error _ => 0

/-- Writes a static row and then tells the observers. -/
def staticScript (row : Row) : Script :=
  Script.ofFields .data row.staticFields ++ .ofSteps [.notify (.staticRow row)]

end Row

namespace Partition

/-- The static row that is written. -/
def writtenStaticRow (partition : Partition) : Option Row := partition.normalized.staticRow

/-- Announces a partition and writes its header and its static row. -/
def openingScript (partition : Partition) (position : Position) : Script :=
  let staticRow := partition.writtenStaticRow
  .ofSteps [.notify (.partition partition.key position.data position.index)] ++
    (.ofFields .data (headerFields partition.key partition.deletion staticRow.isSome) ++
      staticRow.elim (.ofSteps []) Row.staticScript)

/-- Where the first element of a partition stands. -/
def elementsStart (partition : Partition) (dataPosition : UInt64) : Except Overflow UInt64 := do
  exactSum (← exactSum dataPosition (headerSize partition.key))
    (partition.writtenStaticRow.elim 0 Row.staticSize)

/-- The blocks of a partition at a position, given its elements. -/
def blocks (partition : Partition) (blockSize dataPosition : UInt64)
    (encoded : List EncodedElement) : Except Overflow (List Block) := do
  EncodedElement.blocks (.start dataPosition blockSize) (← partition.elementsStart dataPosition)
    encoded

/-- Writes the end mark and the entry of the index, unless the blocks have no place. -/
def closingScript (key : Key) (dataPosition : UInt64) :
    Except Overflow (List Block) → Script
  | .error cause => ⟨[], some (.overflow cause)⟩
  | .ok blocks =>
      .ofSteps [.write .data endMark] ++
        .ofFields .index (IndexEntry.fields key ⟨dataPosition, blocks⟩)

/-- Writes a partition at a position. -/
def script (partition : Partition) (blockSize : UInt64) (position : Position) : Script :=
  let (encoded, fault) := EncodedElement.ofElements partition.elements
  partition.openingScript position ++
    (⟨encoded.flatMap EncodedElement.steps, fault.map .io⟩ ++
      closingScript partition.key position.data (partition.blocks blockSize position.data encoded))

end Partition

/-- Creates a component, writes its fields and closes it. -/
def componentScript (component : Component) (fields : Except TableError (List Bytes)) : Script :=
  .ofSteps [.create component] ++ (.ofFields component fields ++ .ofSteps [.close component])

/-- The components of a table besides its list of contents. -/
def tableComponents (filter : Filter) : List Component :=
  [.data, .index] ++ (if filter.isInformative then [.filter] else []) ++ [.statistics]

/-- The text of a list of contents: a line for each component, itself included. -/
def contentsText (components : List Component) : String :=
  String.join ((components ++ [Component.contents]).map fun component => component.fileName ++ "\n")

/-- Finishes the components of a table and commits it by its list of contents. -/
def commitScript (version : Version) (filter : Filter) (statistics : Statistics) : Script :=
  let components := tableComponents filter
  .ofSteps [.close .data, .close .index] ++
    ((if filter.isInformative then
        componentScript .filter (.ok (filter.storedFields version.filterFormat))
      else .ofSteps []) ++
      (componentScript .statistics statistics.fields ++
        (.ofSteps (components.map .rename) ++
          (componentScript .contents (.ok [Bytes.ofText (contentsText components)]) ++
            .ofSteps [.rename .contents]))))

end SortedTable
