import SortedTable.Bytes

namespace SortedTable

/-- The most bytes that a buffer holds back. -/
def bufferCapacity : Nat := 8192

/-- The chunks held back, in reverse, and the number of their bytes. -/
structure WriteBuffer where
  reversed : List Bytes := []
  size : Nat := 0
  size_eq : size = reversed.flatten.length := by rfl
  deriving DecidableEq

namespace WriteBuffer

def empty : WriteBuffer := {}

instance : Inhabited WriteBuffer := ⟨empty⟩

/-- The bytes held back. -/
def held (buffer : WriteBuffer) : Bytes := buffer.reversed.reverse.flatten

/-- The bytes that reach the file when the buffer is emptied. -/
def drained (buffer : WriteBuffer) : List Bytes :=
  if buffer.size = 0 then [] else [buffer.held]

/-- Holds a further chunk back. -/
def hold (buffer : WriteBuffer) (chunk : Bytes) : WriteBuffer where
  reversed := chunk :: buffer.reversed
  size := chunk.length + buffer.size
  size_eq := by simp [buffer.size_eq]

/-- Takes a chunk. The result is what reaches the file and the buffer afterwards. -/
def push (buffer : WriteBuffer) (chunk : Bytes) : List Bytes × WriteBuffer :=
  if chunk.length < bufferCapacity then
    if chunk.length + buffer.size ≤ bufferCapacity then ([], buffer.hold chunk)
    else (buffer.drained, empty.hold chunk)
  else (buffer.drained ++ [chunk], empty)

theorem held_hold (buffer : WriteBuffer) (chunk : Bytes) :
    (buffer.hold chunk).held = buffer.held ++ chunk := by
  simp [held, hold]

theorem flatten_drained (buffer : WriteBuffer) : buffer.drained.flatten = buffer.held := by
  unfold drained
  split
  · rename_i nothing
    rw [buffer.size_eq, List.length_eq_zero_iff, List.flatten_eq_nil_iff] at nothing
    symm
    simpa [held, List.flatten_eq_nil_iff] using nothing
  · simp

/-- No byte is lost and the order is kept. -/
theorem flatten_push (buffer : WriteBuffer) (chunk : Bytes) :
    (buffer.push chunk).1.flatten ++ (buffer.push chunk).2.held = buffer.held ++ chunk := by
  have nothing : held empty = [] := rfl
  unfold push
  split
  · split
    · simp [held_hold]
    · simp [held_hold, flatten_drained, nothing]
  · simp [flatten_drained, nothing]

end WriteBuffer

end SortedTable
