import Mathlib.Data.List.Basic
import Mathlib.Tactic.Common

/-!
# Rows printed into a buffer

A loop prints row after row behind what the buffer holds.  It stops at the
first row that is cut off: the caller knows how far the complete rows go, and
reads the buffer with the row that was cut off.  Or it stops when the offset
has come to a limit, where the offset counts what did not fit as well.
-/

namespace BoundedRows

variable {α : Type}

/-- What is kept of the rows by a buffer for `size` items, of which one is the
terminator: the complete rows, and the contents of the buffer. -/
def printRows (size : Nat) : List α → List (List α) → List α × List α
  | done, [] => (done, done)
  | done, row :: rows =>
      if done.length + row.length < size then
        printRows size (done ++ row) rows
      else (done, (done ++ row).take (size - 1))

variable {size : Nat}

/-- The buffer holds as much of all rows as there is room for. -/
theorem printRows_buffer (rows : List (List α)) {done : List α}
    (room : done.length < size) :
    (printRows size done rows).2 =
      (done ++ rows.flatten).take (size - 1) := by
  induction rows generalizing done with
  | nil =>
      rw [printRows, List.flatten_nil, List.append_nil,
        List.take_of_length_le (by omega)]
  | cons row rows ih =>
      rw [printRows, List.flatten_cons, ← List.append_assoc]
      split
      · apply ih
        rw [List.length_append]
        assumption
      · have full : size - 1 ≤ (done ++ row).length := by
          rw [List.length_append]
          omega
        rw [List.take_append_of_le_length full]

/-- The complete rows are the first ones, and the next one does not fit. -/
theorem printRows_done (rows : List (List α)) (done : List α) :
    ∃ count ≤ rows.length,
      (printRows size done rows).1 = done ++ (rows.take count).flatten ∧
        ∀ row ∈ (rows.drop count).head?,
          size ≤ (done ++ (rows.take count).flatten).length + row.length := by
  induction rows generalizing done with
  | nil => exact ⟨0, by simp [printRows]⟩
  | cons row rows ih =>
      rw [printRows]
      split
      · obtain ⟨count, within, complete, next⟩ := ih (done ++ row)
        refine ⟨count + 1, by simpa using within, ?_, ?_⟩
        · rw [complete, List.take_succ_cons, List.flatten_cons,
            List.append_assoc]
        · rw [List.drop_succ_cons, List.take_succ_cons, List.flatten_cons,
            ← List.append_assoc]
          exact next
      · refine ⟨0, Nat.zero_le _, by simp, ?_⟩
        simp only [List.drop_zero, List.head?_cons, List.take_zero,
          List.flatten_nil, List.append_nil, Option.mem_some_iff]
        rintro _ rfl
        omega

/-- The rows are printed as long as the offset is below the limit, each as far
as there is room. -/
def printUntil (limit room : Nat) : List α → Nat → List (List α) → List α
  | data, _, [] => data
  | data, offset, row :: rows =>
      if offset < limit then
        printUntil limit room (data ++ row.take (room - offset))
          (offset + row.length) rows
      else data

/-- The first rows are printed, until there are none or the limit is reached;
only the last of them can be cut. -/
theorem printUntil_rows {limit room : Nat} (rows : List (List α))
    (done : List α) :
    ∃ count ≤ rows.length,
      printUntil limit room (done.take room) done.length rows =
        (done ++ (rows.take count).flatten).take room ∧
        (count < rows.length →
          limit ≤ (done ++ (rows.take count).flatten).length) := by
  induction rows generalizing done with
  | nil => exact ⟨0, Nat.le_refl 0, by simp [printUntil], by simp⟩
  | cons row rows ih =>
      rw [printUntil]
      split
      · rename_i more
        obtain ⟨count, enough, printed, full⟩ := ih (done ++ row)
        have data : done.take room ++ row.take (room - done.length) =
            (done ++ row).take room := by rw [List.take_append]
        refine ⟨count + 1, by simpa using enough, ?_, ?_⟩
        · rw [data, ← List.length_append, printed, List.take_succ_cons,
            List.flatten_cons, List.append_assoc]
        · intro left
          rw [List.take_succ_cons, List.flatten_cons, ← List.append_assoc]
          exact full (by simpa using left)
      · rename_i reached
        refine ⟨0, Nat.zero_le _, by simp, fun _ => ?_⟩
        rw [List.take_zero, List.flatten_nil, List.append_nil]
        omega

end BoundedRows
