import SortedTable.Proofs.Decoder.Stable
import SortedTable.Proofs.Disk.Replace
import SortedTable.Proofs.RoundTrip

namespace SortedTable

/-- The files of the other components are as they were when one got other bytes. -/
theorem Stage.Shows.keepsFile {setting : Setting} {folder : Path} {base later : Disk} {stage : Stage}
    {drafts : Drafts} (shows' : stage.Shows setting folder base drafts) {component other : Component}
    {id : Nat} {bytes : Bytes}
    (found : stage.store.disk.find (setting.descriptor.finalPath component) = .ok (.file id))
    (replaces : stage.store.disk.Replaces later id bytes) (differs : other ≠ component) :
    setting.descriptor.KeepsFile stage.store.disk later other where
  find node := by rw [Disk.find_congr replaces.entries]
  read node held := by
    cases node with
    | folder => rfl
    | file file =>
        refine congrArg Except.ok (replaces.others file ?_)
        rintro rfl
        rw [← Descriptor.pathOf_true] at found held
        exact differs (shows'.apart true other true component file
          (Descriptor.node?_of_find shows'.stays held)
          (Descriptor.node?_of_find shows'.stays found)).2

namespace Reader

variable {plan : WriterPlan} {folder : Path} {base later : Disk} {stage : Stage}
  {placed : List (Placed plan.settings.blockSize)} {progress : Progress}
  {data index contents front : Bytes} {fields : List Bytes} {id : Nat}

end Reader

end SortedTable
