import Mathlib.Data.List.Forall2

namespace Except

variable {ε α β : Type}

theorem bind_eq_ok_iff {first : Except ε α} {next : α → Except ε β} {result : β} :
    (first >>= next) = .ok result ↔ ∃ value, first = .ok value ∧ next value = .ok result := by
  cases first with
  | error error => exact ⟨nofun, fun ⟨_, impossible, _⟩ => nomatch impossible⟩
  | ok value => exact ⟨fun same => ⟨value, rfl, same⟩, fun ⟨_, same, last⟩ => by cases same; exact last⟩

theorem map_eq_ok_iff {first : Except ε α} {change : α → β} {result : β} :
    first.map change = .ok result ↔ ∃ value, first = .ok value ∧ change value = result := by
  cases first with
  | error error => exact ⟨nofun, fun ⟨_, impossible, _⟩ => nomatch impossible⟩
  | ok value =>
      constructor
      · intro same
        exact ⟨value, rfl, Except.ok.inj same⟩
      · rintro ⟨_, same, rfl⟩
        cases same
        rfl

theorem pure_eq_ok_iff {value result : α} :
    (pure value : Except ε α) = .ok result ↔ value = result :=
  ⟨fun same => Except.ok.inj same, fun same => same ▸ rfl⟩

theorem ok_bind (value : α) (next : α → Except ε β) :
    ((Except.ok value : Except ε α) >>= next) = next value := rfl

theorem mapError_eq_ok_iff {ε' : Type} {first : Except ε α} {restate : ε → ε'} {result : α} :
    first.mapError restate = .ok result ↔ first = .ok result := by
  cases first <;> simp [Except.mapError]

theorem toOption_eq_some_iff {outcome : Except ε α} {result : α} :
    outcome.toOption = some result ↔ outcome = .ok result := by
  cases outcome <;> simp [Except.toOption]

theorem eq_ok_getD [Inhabited α] {outcome : Except ε α} (succeeded : outcome.toOption.isSome = true) :
    outcome = .ok (outcome.toOption.getD default) := by
  cases outcome with
  | error error => cases succeeded
  | ok value => rfl

/-- A list of operations succeeds if each of them does, with the results in the same order. -/
theorem mapM_eq_ok_iff {operation : α → Except ε β} {values : List α} {results : List β} :
    values.mapM operation = .ok results ↔
      List.Forall₂ (fun value result => operation value = .ok result) values results := by
  induction values generalizing results with
  | nil =>
      rw [List.mapM_nil, pure_eq_ok_iff, List.forall₂_nil_left_iff, eq_comm]
  | cons value rest ih =>
      rw [List.mapM_cons, bind_eq_ok_iff, List.forall₂_cons_left_iff]
      constructor
      · rintro ⟨first, done, further⟩
        obtain ⟨others, doneAll, same⟩ := bind_eq_ok_iff.1 further
        exact ⟨first, others, done, ih.1 doneAll, (pure_eq_ok_iff.1 same).symm⟩
      · rintro ⟨first, others, done, doneAll, rfl⟩
        exact ⟨first, done, bind_eq_ok_iff.2 ⟨others, ih.2 doneAll, rfl⟩⟩

theorem exists_mapM_eq_ok {operation : α → Except ε β} {values : List α}
    (done : ∀ value ∈ values, ∃ result, operation value = .ok result) :
    ∃ results, values.mapM operation = .ok results := by
  simp only [mapM_eq_ok_iff]
  induction values with
  | nil => exact ⟨[], .nil⟩
  | cons value rest ih =>
      obtain ⟨result, first⟩ := done value List.mem_cons_self
      obtain ⟨results, others⟩ := ih fun other member => done other (List.mem_cons_of_mem _ member)
      exact ⟨result :: results, .cons first others⟩

end Except
