import SortedTable.Proofs.Writer.Course

namespace SortedTable

/-- The final names of these components are taken by files. -/
structure Descriptor.HasAll (descriptor : Descriptor) (disk : Disk) (folder : Path)
    (components : List Component) : Prop where
  resides : descriptor.ResidesIn disk folder
  present : ∀ component ∈ components, ∃ bytes,
    disk.file? (folder ++ [descriptor.nameOf true component]) = some bytes

/-- What the observers are told of each attempt, up to the first one that fails. -/
inductive Protocol : List Attempt → List Notice → Prop
  | nil : Protocol [] []
  | written {partition : Partition} {position : Position} {attempts : List Attempt}
      {told : List Notice} (full : partition.isEmpty = false) (rest : Protocol attempts told) :
      Protocol (⟨partition, some position, .ok (some position)⟩ :: attempts)
        (partition.notices position ++ told)
  | skipped {partition : Partition} {position : Position} {attempts : List Attempt}
      {told : List Notice} (empty : partition.isEmpty = true) (rest : Protocol attempts told) :
      Protocol (⟨partition, some position, .ok none⟩ :: attempts) told
  | failed {partition : Partition} {position : Position} {error : TableError}
      {attempts : List Attempt} {told : List Notice} (front : told <+: partition.notices position)
      (refused : ∀ attempt ∈ attempts, ∃ cause, attempt.answer = .error cause) :
      Protocol (⟨partition, some position, .error error⟩ :: attempts) told

/-- No partition tells that a table is complete. -/
theorem Partition.complete_notMem_notices (partition : Partition) (position : Position) :
    Notice.complete ∉ partition.notices position := by
  simp [notices]

/-- That the table is complete is not told while partitions are written. -/
theorem Protocol.complete_notMem {attempts : List Attempt} {told : List Notice}
    (protocol : Protocol attempts told) : Notice.complete ∉ told := by
  induction protocol with
  | nil => exact List.not_mem_nil
  | written full rest ih =>
      rw [List.mem_append, not_or]
      exact ⟨Partition.complete_notMem_notices _ _, ih⟩
  | skipped empty rest ih => exact ih
  | failed front refused =>
      intro member
      exact Partition.complete_notMem_notices _ _ (front.subset member)

/-- What an attempt that was accepted tells, before those behind it. -/
theorem Protocol.of_accepted {attempt : Attempt} {attempts : List Attempt} {told : List Notice}
    (protocol : Protocol (attempt :: attempts) told)
    (accepted : ∃ landed, attempt.answer = .ok landed) :
    attempt.answer = .ok none ∧ attempt.partition.isEmpty = true ∧ Protocol attempts told ∨
      attempt.partition.isEmpty = false ∧ ∃ position further,
        attempt.answer = .ok (some position) ∧ Protocol attempts further ∧
        told = attempt.partition.notices position ++ further := by
  cases protocol with
  | written full rest => exact .inr ⟨full, _, _, rfl, rest, rfl⟩
  | skipped empty rest => exact .inl ⟨rfl, empty, rest⟩
  | failed front refused =>
      obtain ⟨landed, answer⟩ := accepted
      cases answer

/-- A partition that was accepted has shown all of its cells, or has none. -/
theorem Protocol.cells_of_accepted {attempts : List Attempt} {told : List Notice}
    (protocol : Protocol attempts told) :
    ∀ attempt ∈ attempts, ∀ landed, attempt.answer = .ok landed →
      (landed.elim [] attempt.partition.notices).flatMap Notice.cells = attempt.partition.cells := by
  induction protocol with
  | nil => exact fun attempt member => absurd member List.not_mem_nil
  | @written partition position attempts told full rest ih =>
      rw [List.forall_mem_cons]
      refine ⟨?_, ih⟩
      rintro _ ⟨⟩
      exact partition.cells_notices position
  | skipped empty rest ih =>
      rw [List.forall_mem_cons]
      refine ⟨?_, ih⟩
      rintro _ ⟨⟩
      exact (Partition.cells_of_isEmpty empty).symm
  | failed front refused =>
      rw [List.forall_mem_cons]
      refine ⟨by rintro _ ⟨⟩, fun attempt member landed accepted => ?_⟩
      obtain ⟨cause, answer⟩ := refused attempt member
      rw [answer] at accepted
      cases accepted

namespace WriterPlan

/-- The beginning is told once the data and the index were created, and not otherwise. -/
theorem deliveries_opening {plan : WriterPlan} {store : Store} {stage : Stage}
    {outcome : Option TableError}
    (ran : (plan.ground store).run plan.setting plan.opening = (stage, outcome)) :
    stage.store.deliveries = store.deliveries ++
      if outcome = none then deliveriesTo plan.observers [.begin plan.expected] else [] := by
  rw [← plan.deliveries_ground store]
  have first := Stage.deliveries_create plan.setting (plan.ground store) .data
  have steps : plan.opening.steps =
      [.create .data, .create .index, .notify (.begin plan.expected)] := rfl
  rw [Stage.run, steps, Stage.performAll, Stage.perform] at ran
  rcases data : (plan.ground store).create plan.setting .data with ⟨middle, - | error⟩
  · have second := Stage.deliveries_create plan.setting middle .index
    rw [data] at ran first
    dsimp only at ran
    rw [Stage.performAll, Stage.perform] at ran
    rcases index : middle.create plan.setting .index with ⟨last, - | error⟩
    · rw [index] at ran second
      cases ran
      rw [if_pos (show plan.opening.fault = none from rfl), ← first, ← second]
      exact last.store.deliveries_deliver plan.observers _
    · rw [index] at ran second
      cases ran
      rw [if_neg (Option.some_ne_none _), List.append_nil]
      exact second.trans first
  · rw [data] at ran first
    cases ran
    rw [if_neg (Option.some_ne_none _), List.append_nil]
    exact first

end WriterPlan

namespace Writer

/-- The attempts behind a failed one are all refused and tell nothing. -/
theorem protocol_of_failed {writer : Writer} (ended : writer.progress = none) (store : Store)
    (rest : List Partition) {partition : Partition} {position : Position} (error : TableError)
    {told : List Notice} (front : told <+: partition.notices position) :
    Protocol (⟨partition, some position, .error error⟩ :: (writer.appendEach store rest).1) told ∧
      (writer.appendEach store rest).2.2 = store := by
  rw [appendEach_of_failed ended]
  refine ⟨.failed front fun attempt member => ?_, rfl⟩
  obtain ⟨other, -, rfl⟩ := List.mem_map.1 member
  exact ⟨_, rfl⟩

/-- The observers of a writer are told of the partitions according to its answers. -/
theorem protocol_appendEach (writer : Writer) (store : Store) (partitions : List Partition)
    {progress : Progress} (alive : writer.progress = some progress) :
    ∃ told, Protocol (writer.appendEach store partitions).1 told ∧
      (writer.appendEach store partitions).2.2.deliveries =
        store.deliveries ++ deliveriesTo writer.setting.observers told := by
  induction partitions generalizing writer store progress with
  | nil => exact ⟨[], .nil, (List.append_nil _).symm⟩
  | cons partition rest ih =>
      have possible := writer.appends partition store
      have tells := partition.tells_script writer.blockSize writer.nextPosition
      rw [appendEach, position?, alive]
      generalize writer.append partition store = outcome at possible
      cases possible with
      | aborted ended =>
          rw [alive] at ended
          cases ended
      | refused progress error held refusal =>
          have silent := Stage.deliveries_clear writer.setting (writer.stage store)
          obtain ⟨protocol, still⟩ := protocol_of_failed (show writer.failed.progress = none from rfl)
            ((writer.stage store).clear writer.setting) rest error
            (List.nil_prefix (l := partition.notices writer.nextPosition))
          exact ⟨[], protocol, by rw [still, silent]; exact (List.append_nil _).symm⟩
      | skipped progress held allowed empty =>
          obtain ⟨told, protocol, delivered⟩ := ih
            { writer with progress := some { progress with lastKey := some partition.key } } store rfl
          exact ⟨told, .skipped empty protocol, delivered⟩
      | written progress stage held allowed full ran =>
          obtain ⟨told, -, whole, first⟩ :=
            Stage.deliveries_run tells (writer.stage store)
          rw [ran] at whole first
          obtain rfl := whole rfl
          obtain ⟨further, protocol, delivered⟩ :=
            ih (writer.onStage stage (Progress.add progress partition)) stage.store rfl
          refine ⟨_, .written full protocol, ?_⟩
          dsimp only at first delivered ⊢
          rw [delivered, first, deliveriesTo_append, ← List.append_assoc]
          rfl
      | broken progress stage error held ran =>
          obtain ⟨told, front, -, first⟩ :=
            Stage.deliveries_run tells (writer.stage store)
          rw [ran] at first
          have silent := Stage.deliveries_clear writer.setting stage
          obtain ⟨protocol, still⟩ := protocol_of_failed (show writer.failed.progress = none from rfl)
            (stage.clear writer.setting) rest error front
          exact ⟨told, protocol, by rw [still, silent]; exact first⟩

/-- A writer that has not failed has answered every partition. -/
theorem answers_of_alive {writer : Writer} {store : Store} {partitions : List Partition}
    {progress : Progress}
    (alive : (writer.appendEach store partitions).2.1.progress = some progress) :
    ∀ attempt ∈ (writer.appendEach store partitions).1, ∃ landed, attempt.answer = .ok landed := by
  intro attempt member
  cases answer : attempt.answer with
  | ok landed => exact ⟨landed, rfl⟩
  | error error =>
      obtain ⟨front, back, split⟩ := List.append_of_mem member
      obtain ⟨last, later, ended, -, all, -, -⟩ := appendEach_of_error split answer
      rw [all, ended] at alive
      cases alive

theorem deliveries_run_of_silent (setting : Setting) (stage : Stage) {script : Script}
    (silent : script.Tells []) :
    (stage.run setting script).1.store.deliveries = stage.store.deliveries := by
  obtain ⟨told, front, -, delivered⟩ := Stage.deliveries_run silent stage
  rw [delivered, List.prefix_nil.1 front, deliveriesTo_nil, List.append_nil]

/-- The stage of a committed table has all of its files under their final names. -/
theorem hasAll_of_stands {plan : WriterPlan} {folder : Path} {base : Disk} {stage : Stage}
    {filter : Filter} {data index statistics contents : Bytes}
    (stands : stage.Stands plan.setting folder base (.committed data index statistics contents
      (Drafts.filterBytes plan.descriptor.version filter))) :
    plan.descriptor.HasAll stage.store.disk folder (tableComponents filter ++ [.contents]) where
  resides := stands.stays
  present component member := by
    obtain ⟨draft, drafted⟩ := Option.ne_none_iff_exists'.1 (Drafts.committed_ne_none_iff.2 member)
    obtain ⟨id, node⟩ := stands.placed component draft drafted
    rw [(Drafts.isFinal_of_committed drafted).1] at node
    exact ⟨_, Disk.file?_of_node? node⟩

/-- The end is told of a committed table alone, when all of its files have their final names. -/
theorem IsFilling.deliveries_conclude {plan : WriterPlan} {folder : Path} {first : Filter}
    {writer : Writer} {store start : Store}
    (filling : IsFilling plan.setting (Stage.Stands plan.setting folder (plan.site start)) first
      writer store) (conclusion : Conclusion) :
    (∃ opened, (writer.conclude conclusion store).1 = some (.ok opened) ∧
      (∃ progress, writer.progress = some progress) ∧
      ∃ before : Store, (writer.conclude conclusion store).2 =
          before.deliver plan.observers .complete ∧
        before.deliveries = store.deliveries ∧
        plan.descriptor.HasAll before.disk folder (tableComponents first ++ [.contents])) ∨
    (∀ opened, (writer.conclude conclusion store).1 ≠ some (.ok opened)) ∧
      (writer.conclude conclusion store).2.deliveries = store.deliveries := by
  have possible := writer.concludes conclusion store
  generalize writer.conclude conclusion store = outcome at possible
  cases possible with
  | ended result ended answer =>
      refine .inr ⟨fun opened same => ?_, rfl⟩
      dsimp only at same
      rw [same] at answer
      split at answer <;> cases answer
  | aborted progress given held =>
      exact .inr ⟨nofun, Stage.deliveries_clear writer.setting (writer.stage store)⟩
  | broken progress error held =>
      exact .inr ⟨nofun, (Stage.deliveries_clear writer.setting _).trans
        (deliveries_run_of_silent writer.setting (writer.stage store) (progress.tells_ending _))⟩
  | committed progress stage opened held ran reopens =>
      have delivered := deliveries_run_of_silent writer.setting (writer.stage store)
        (tells_commitScript writer.setting.descriptor.version progress.filter progress.statistics)
      rw [ran] at delivered
      obtain ⟨same, data, index, fields, -, stands⟩ :=
        filling.commit (isKept_stands _ _ _) held ran
      have all := hasAll_of_stands stands
      rw [same] at all
      refine .inl ⟨opened, rfl, ⟨progress, held⟩, stage.store, ?_, delivered, all⟩
      rw [filling.setting]
      rfl

end Writer

/-- A writer that was built has told the beginning and then of the partitions that it was given. -/
theorem WriterPlan.protocol_of_opening {plan : WriterPlan} {store : Store} {stage : Stage}
    (ran : (plan.ground store).run plan.setting plan.opening = (stage, none)) (filter : Filter)
    (partitions : List Partition) :
    ∃ told, Protocol ((plan.writer filter stage).appendEach stage.store partitions).1 told ∧
      ((plan.writer filter stage).appendEach stage.store partitions).2.2.deliveries =
        store.deliveries ++ deliveriesTo plan.observers (.begin plan.expected :: told) := by
  obtain ⟨told, protocol, delivered⟩ := (plan.writer filter stage).protocol_appendEach stage.store
    partitions rfl
  have opened := deliveries_opening ran
  rw [if_pos rfl] at opened
  refine ⟨told, protocol, ?_⟩
  rw [delivered, opened, List.append_assoc]
  exact congrArg (store.deliveries ++ ·)
    (deliveriesTo_append plan.observers [.begin plan.expected] told).symm

/-- A writer that was built has begun its data and its index. -/
theorem WriterPlan.isFilling_of_opening {plan : WriterPlan} {store : Store} {stage : Stage}
    {folder : Path} (ran : (plan.ground store).run plan.setting plan.opening = (stage, none))
    (resides : plan.descriptor.ResidesIn (plan.site store) folder) (filter : Filter) :
    Writer.IsFilling plan.setting (Stage.Stands plan.setting folder (plan.site store)) filter
      (plan.writer filter stage) stage.store where
  setting := rfl
  informative _ same := by
    cases same
    rfl
  filled _ _ := ⟨[], [], stands_of_opening resides ran⟩

/-- The observers are told of the beginning, of each partition by its answer, and of a commit at the
end. -/
theorem WriterPlan.run_tells_in_order (plan : WriterPlan) (partitions : List Partition)
    (conclusion : Conclusion) (store : Store) :
    let run := plan.run partitions conclusion store
    (∀ error, run.built = .error error →
      run.attempts = [] ∧ run.result = none ∧ run.store.deliveries = store.deliveries) ∧
    (run.built = .ok () → run.attempts.map Attempt.partition = partitions ∧
      ∃ told, Protocol run.attempts told ∧ (run.IsCommitted ∧
          run.store.deliveries = store.deliveries ++ deliveriesTo plan.observers
            (.begin plan.expected :: told ++ [.complete]) ∧
          (∀ attempt ∈ run.attempts, ∃ landed, attempt.answer = .ok landed) ∧
          (∃ filter folder, ∃ before : Store,
            Filter.forTable plan.expected plan.settings.falsePositiveChance = .ok filter ∧
            run.store = before.deliver plan.observers .complete ∧
            plan.descriptor.HasAll before.disk folder (tableComponents filter ++ [.contents])) ∨
        ¬run.IsCommitted ∧
          run.store.deliveries = store.deliveries ++ deliveriesTo plan.observers
            (.begin plan.expected :: told))) ∧
    ∀ attempt ∈ run.attempts, ∀ landed, attempt.answer = .ok landed →
      (landed.elim [] attempt.partition.notices).flatMap Notice.cells = attempt.partition.cells := by
  have possible := plan.runs store partitions conclusion
  dsimp only
  generalize plan.run partitions conclusion store = run at possible ⊢
  cases possible with
  | refused cause later origin =>
      have silent : later.deliveries = store.deliveries := by
        rcases origin with rfl | rfl
        · rfl
        · exact plan.deliveries_ground store
      exact ⟨fun _ _ => ⟨rfl, rfl, silent⟩, by rintro ⟨⟩,
        fun _ member => absurd member List.not_mem_nil⟩
  | broken stage cause ran =>
      have told := deliveries_opening ran
      rw [if_neg nofun, List.append_nil] at told
      have silent := (Stage.deliveries_clear plan.setting stage).trans told
      exact ⟨fun _ _ => ⟨rfl, rfl, silent⟩, by rintro ⟨⟩,
        fun _ member => absurd member List.not_mem_nil⟩
  | built filter stage folder made ran resides built =>
      obtain ⟨told, protocol, front⟩ := protocol_of_opening ran filter partitions
      have given := Writer.map_partition_appendEach (plan.writer filter stage) stage.store partitions
      refine ⟨by rintro _ ⟨⟩, fun _ => ⟨given, told, protocol, ?_⟩, protocol.cells_of_accepted⟩
      have further := (isFilling_of_opening ran resides filter).appendEach (Writer.isKept_stands _ _ _)
        partitions
      rcases further.deliveries_conclude conclusion with
        ⟨reader, result, ⟨progress, alive⟩, before, ended, silent, all⟩ | ⟨result, silent⟩
      · refine .inl ⟨⟨reader, result⟩, ?_, Writer.answers_of_alive alive,
          filter, folder, before, made, ended, all⟩
        dsimp only
        rw [ended, Store.deliveries_deliver, silent, front, List.append_assoc, deliveriesTo_append]
      · exact .inr ⟨fun ⟨reader, committed⟩ => result reader committed, silent.trans front⟩

/-- Two observers hear of the two partitions that are not empty, and of the end. -/
theorem WriterPlan.run_tells_in_order_triple :
    let plan : WriterPlan := { unfiltered with observers := 2 }
    let run := plan.run Partition.triple .finish ⟨.empty, []⟩
    run.IsCommitted ∧ ∃ first last, run.store.deliveries = deliveriesTo 2
      (.begin 0 :: (Partition.triple[0].notices first ++ Partition.triple[2].notices last) ++
        [.complete]) := by
  intro plan run
  have committed : run.IsCommitted := by decide +kernel
  refine ⟨committed, ?_⟩
  obtain ⟨refused, tells, -⟩ := run_tells_in_order plan Partition.triple .finish ⟨.empty, []⟩
  cases built : run.built with
  | error cause =>
      obtain ⟨opened, result⟩ := committed
      rw [(refused cause built).2.1] at result
      cases result
  | ok begun =>
      obtain ⟨given, told, protocol, ⟨-, delivered, accepted, -⟩ | ⟨never, -⟩⟩ := tells built
      · obtain ⟨one, attempts, all, shown, given⟩ := List.map_eq_cons_iff.1 given
        obtain ⟨skipped, attempts, rfl, unseen, given⟩ := List.map_eq_cons_iff.1 given
        obtain ⟨other, attempts, rfl, seen, given⟩ := List.map_eq_cons_iff.1 given
        obtain rfl := List.map_eq_nil_iff.1 given
        rw [all] at protocol accepted
        obtain ⟨-, empty, -⟩ | ⟨-, first, behind, -, rest, rfl⟩ :=
          protocol.of_accepted (accepted one (by simp))
        · rw [shown] at empty
          exact absurd empty (by decide +kernel)
        obtain ⟨-, -, rest⟩ | ⟨full, -⟩ := rest.of_accepted (accepted skipped (by simp))
        · obtain ⟨-, empty, -⟩ | ⟨-, last, left, -, ends, rfl⟩ :=
            rest.of_accepted (accepted other (by simp))
          · rw [seen] at empty
            exact absurd empty (by decide +kernel)
          cases ends
          refine ⟨first, last, delivered.trans ?_⟩
          rw [shown, seen, List.append_nil]
          rfl
        · rw [unseen] at full
          exact absurd full (by decide +kernel)
      · exact absurd committed never

end SortedTable
