import SortedTable.Proofs.Disk.Basic
import SortedTable.Proofs.Sink
import SortedTable.Proofs.Store
import SortedTable.Writer.Stage

namespace SortedTable

/-- Bytes were written to one file; the rest of the disk is as before. -/
structure Disk.Writes (disk later : Disk) (id : Nat) : Prop where
  nodes : ∀ path, later.node? path = disk.node? path
  kept : ∀ file, file ≠ id → later.content file = disk.content file
  size : later.contents.size = disk.contents.size

namespace Disk.Writes

variable {disk middle later : Disk} {id : Nat}

theorem refl (disk : Disk) (id : Nat) : Writes disk disk id :=
  ⟨fun _ => rfl, fun _ _ => rfl, rfl⟩

theorem trans (first : Writes disk middle id) (second : Writes middle later id) :
    Writes disk later id where
  nodes path := (second.nodes path).trans (first.nodes path)
  kept file differs := (second.kept file differs).trans (first.kept file differs)
  size := second.size.trans first.size

theorem write (disk : Disk) (id offset : Nat) (bytes : Bytes) :
    Writes disk (disk.apply (.write id offset bytes)) id where
  nodes _ := rfl
  kept _ differs := content_write_of_ne differs offset bytes
  size := by simp [apply]

end Disk.Writes

/-- An output that wrote to its file: it is still open for the same component. -/
structure Output.Carries (store : Store) (output : Output) (later : Store) (next : Output) : Prop where
  writes : store.disk.Writes later.disk output.file
  file : next.file = output.file
  component : next.component = output.component
  tracker : next.tracker = output.tracker
  deliveries : later.deliveries = store.deliveries

namespace Output

/-- The next byte of the output lands behind the last one of its file. -/
structure AtEnd (disk : Disk) (output : Output) : Prop where
  inside : output.file < disk.contents.size
  offset : output.offset = (disk.content output.file).length

/-- The bytes taken in: those in the file and those held back. -/
def bytes (disk : Disk) (output : Output) : Bytes :=
  disk.content output.file ++ output.buffer.held

/-- The output after bytes were taken in whole: it is still open for the same component. -/
structure Takes (plan : SinkPlan) (disk : Disk) (output : Output) (given : Bytes) (later : Disk)
    (next : Output) : Prop where
  writes : disk.Writes later output.file
  file : next.file = output.file
  component : next.component = output.component
  taken : next.tracker.taken = output.tracker.taken + given.length
  atEnd : next.AtEnd later
  all : plan.keeps = true → next.bytes later = output.bytes disk ++ given
  room : plan.keeps = true → next.tracker.taken ≤ Stage.maxFileBytes
  word : next.tracker.taken < UInt64.size

namespace Carries

variable {store middle later : Store} {output between next : Output}

theorem refl (store : Store) (output : Output) : Carries store output store output :=
  ⟨.refl _ _, rfl, rfl, rfl, rfl⟩

theorem trans (first : Carries store output middle between)
    (second : Carries middle between later next) : Carries store output later next where
  writes := first.writes.trans (first.file ▸ second.writes)
  file := second.file.trans first.file
  component := second.component.trans first.component
  tracker := second.tracker.trans first.tracker
  deliveries := second.deliveries.trans first.deliveries

end Carries

end Output

namespace Stage

open Output

theorem emit_cons (store : Store) (output : Output) (chunk : Bytes) (rest : List Bytes) :
    emit store output (chunk :: rest) =
      emit (store.change (.write output.file output.offset chunk))
        { output with offset := output.offset + chunk.length } rest := rfl

theorem absorb_cons (store : Store) (output : Output) (part : Bytes) (rest : List Bytes) :
    absorb store output (part :: rest) =
      let (store, output) :=
        emit store { output with buffer := (output.buffer.push part).2 } (output.buffer.push part).1
      absorb store output rest := rfl

theorem carries_emit (store : Store) (output : Output) (chunks : List Bytes) :
    Carries store output (emit store output chunks).1 (emit store output chunks).2 := by
  induction chunks generalizing store output with
  | nil => exact .refl store output
  | cons chunk rest ih =>
      have first : Carries store output (store.change (.write output.file output.offset chunk))
          { output with offset := output.offset + chunk.length } :=
        ⟨.write store.disk output.file output.offset chunk, rfl, rfl, rfl,
          store.deliveries_change _⟩
      exact first.trans (ih _ _)

/-- Chunks land behind what was in the file, and the buffer is as before. -/
theorem content_emit {store : Store} {output : Output} (atEnd : output.AtEnd store.disk)
    (chunks : List Bytes) :
    (emit store output chunks).2.AtEnd (emit store output chunks).1.disk ∧
      (emit store output chunks).1.disk.content output.file =
        store.disk.content output.file ++ chunks.flatten ∧
      (emit store output chunks).2.buffer = output.buffer := by
  induction chunks generalizing store output with
  | nil => exact ⟨atEnd, by simp [emit], rfl⟩
  | cons chunk rest ih =>
      have content : (store.change (.write output.file output.offset chunk)).disk.content
          output.file = store.disk.content output.file ++ chunk := by
        rw [Store.disk_change, Disk.content_write_self atEnd.inside, atEnd.offset,
          Disk.overwrite_length]
      have next : AtEnd (store.change (.write output.file output.offset chunk)).disk
          { output with offset := output.offset + chunk.length } :=
        { inside := Nat.lt_of_lt_of_le atEnd.inside (Disk.size_apply_le _ _)
          offset := by
            dsimp only
            rw [content, List.length_append, atEnd.offset] }
      obtain ⟨last, all, buffer⟩ := ih next
      rw [emit_cons]
      refine ⟨last, ?_, buffer⟩
      rw [all]
      dsimp only
      rw [content, List.flatten_cons, List.append_assoc]

theorem carries_absorb (store : Store) (output : Output) (parts : List Bytes) :
    Carries store output (absorb store output parts).1 (absorb store output parts).2 := by
  induction parts generalizing store output with
  | nil => exact .refl store output
  | cons part rest ih =>
      have buffered : Carries store output store
          { output with buffer := (output.buffer.push part).2 } :=
        ⟨.refl _ _, rfl, rfl, rfl, rfl⟩
      exact (buffered.trans (carries_emit _ _ _)).trans (ih _ _)

/-- The parts are taken in behind what was taken in before. -/
theorem bytes_absorb {store : Store} {output : Output} (atEnd : output.AtEnd store.disk)
    (parts : List Bytes) :
    (absorb store output parts).2.AtEnd (absorb store output parts).1.disk ∧
      (absorb store output parts).2.bytes (absorb store output parts).1.disk =
        output.bytes store.disk ++ parts.flatten := by
  induction parts generalizing store output with
  | nil => exact ⟨atEnd, by simp [absorb]⟩
  | cons part rest ih =>
      have pushed : AtEnd store.disk { output with buffer := (output.buffer.push part).2 } :=
        ⟨atEnd.inside, atEnd.offset⟩
      obtain ⟨next, content, buffer⟩ := content_emit pushed (output.buffer.push part).1
      have file := (carries_emit store { output with buffer := (output.buffer.push part).2 }
        (output.buffer.push part).1).file
      obtain ⟨last, all⟩ := ih next
      rw [absorb_cons]
      refine ⟨last, all.trans ?_⟩
      have kept := output.buffer.flatten_push part
      dsimp only at content file buffer
      rw [bytes, bytes, file, content, buffer, List.append_assoc (store.disk.content output.file),
        kept, List.flatten_cons]
      simp only [List.append_assoc]

/-- A component of which nothing is too much has its room and its word. -/
theorem excess?_eq_none {plan : SinkPlan} {taken : Nat} (fits : excess? plan taken = none) :
    (plan.keeps = true → taken ≤ maxFileBytes) ∧ taken < UInt64.size := by
  unfold excess? at fits
  split at fits
  · cases fits
  · rename_i room
    split at fits
    · cases fits
    · rename_i word
      refine ⟨fun keeps => ?_, Nat.not_le.1 word⟩
      rw [keeps, Bool.true_and, decide_eq_true_iff] at room
      exact Nat.not_lt.1 room

/-- Bytes that were written are taken in whole. -/
theorem takes_of_write {setting : Setting} {stage later : Stage} {component : Component}
    {bytes : Bytes} {output : Output} (found : stage.output? component = some output)
    (atEnd : output.AtEnd stage.store.disk)
    (done : stage.write setting component bytes = (later, none)) :
    ∃ store next, later = ({ stage with store := store } : Stage).setOutput next ∧
      Takes (setting.medium.sink component) stage.store.disk output bytes store.disk next := by
  unfold Stage.write at done
  rw [found] at done
  dsimp only at done
  obtain ⟨same, faults⟩ := Prod.mk.inj done
  rw [Option.or_eq_none_iff, Option.map_eq_none_iff] at faults
  obtain ⟨fits, whole⟩ := faults
  have count := SinkPlan.taken_of_writeAll whole
  obtain ⟨room, word⟩ := excess?_eq_none fits
  by_cases keeps : (setting.medium.sink component).keeps = true
  · rw [if_pos keeps] at same
    have parts := SinkPlan.flatten_parts_writeAll (setting.medium.sink component) output.tracker
      bytes whole
    have start : Output.AtEnd stage.store.disk { output with
        tracker := ((setting.medium.sink component).writeAll output.tracker bytes).tracker } :=
      ⟨atEnd.inside, atEnd.offset⟩
    have carries := carries_absorb stage.store { output with
      tracker := ((setting.medium.sink component).writeAll output.tracker bytes).tracker }
      ((setting.medium.sink component).writeAll output.tracker bytes).parts
    obtain ⟨last, content⟩ := bytes_absorb start
      ((setting.medium.sink component).writeAll output.tracker bytes).parts
    refine ⟨_, _, same.symm, carries.writes, carries.file, carries.component, ?_, last,
      fun _ => ?_, fun keeps => ?_, ?_⟩
    · rw [carries.tracker]
      exact count
    · rw [content, parts]
      rfl
    · rw [carries.tracker]
      exact room keeps
    · rw [carries.tracker]
      exact word
  · rw [if_neg keeps] at same
    exact ⟨_, _, same.symm, .refl _ _, rfl, rfl, count, ⟨atEnd.inside, atEnd.offset⟩,
      fun kept => absurd kept keeps, room, word⟩

theorem carries_drain (store : Store) (output : Output) :
    ∃ next, Carries store output (drain store output) next :=
  ⟨_, carries_emit store output _⟩

/-- What the buffer held back has reached the file. -/
theorem content_drain {store : Store} {output : Output} (atEnd : output.AtEnd store.disk) :
    (drain store output).disk.content output.file = output.bytes store.disk := by
  obtain ⟨-, content, -⟩ := content_emit atEnd output.buffer.drained
  rw [drain, content, WriteBuffer.flatten_drained, bytes]

end Stage

end SortedTable
