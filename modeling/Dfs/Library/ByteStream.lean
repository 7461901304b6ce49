import Mathlib.Data.List.Basic
import Mathlib.Tactic.Common

/-!
# Loops that move bytes in parts

A buffer is written to or read from a reliable stream by calls that move as
many bytes as the transport likes.  The outcomes of the calls are given in
advance; once they are used up, every further call moves all it is asked to.
-/

namespace Dfs.ByteStream

variable {α : Type}

/-- A copy of `bytes` to an offset of a buffer. -/
def overwrite (buffer : List α) (offset : Nat) (bytes : List α) : List α :=
  buffer.take offset ++ bytes ++ buffer.drop (offset + bytes.length)

theorem overwrite_append (done rest bytes : List α) :
    overwrite (done ++ rest) done.length bytes =
      (done ++ bytes) ++ rest.drop bytes.length := by
  have kept : (done ++ rest).take done.length = done := List.take_left
  have after : (done ++ rest).drop (done.length + bytes.length) =
      rest.drop bytes.length := by simp [List.drop_append]
  rw [overwrite, kept, after]

/-- Why a call moved nothing. -/
inductive Obstacle where
  | interrupted
  | timedOut
  | closed
  | failed
  deriving DecidableEq, Repr

/-- How one call ends: `moved more` moves at most `more + 1` bytes, and at
least one. -/
inductive Outcome where
  | moved (more : Nat)
  | stopped (obstacle : Obstacle)
  deriving DecidableEq, Repr

section Loops

-- The obstacles after which a call is repeated.
variable (retried : Obstacle → Bool)

/-- Hands `bytes` to the transport from the offset `total` on: the bytes that
were taken, and how many of the buffer, or -1. -/
def writeAll (bytes : List α) : List Outcome → Nat → List α × Int
  | [], total =>
      if total < bytes.length then (bytes.drop total, bytes.length)
      else ([], total)
  | .moved more :: outcomes, total =>
      if total < bytes.length then
        let count := min (more + 1) (bytes.length - total)
        let (taken, result) := writeAll bytes outcomes (total + count)
        ((bytes.drop total).take count ++ taken, result)
      else ([], total)
  | .stopped obstacle :: outcomes, total =>
      if total < bytes.length then
        if retried obstacle then writeAll bytes outcomes total else ([], -1)
      else ([], total)

/-- What a reading loop leaves behind. -/
structure Read (α : Type) where
  result : Int
  buffer : List α
  stream : List α

/-- Fills the buffer from the offset `total` on.  An exhausted stream ends
the loop with -1. -/
def readAll (size : Nat) :
    List Outcome → Nat → List α → List α → Read α
  | [], total, buffer, stream =>
      if total < size then
        { result := if size - total ≤ stream.length then size else -1
          buffer := overwrite buffer total (stream.take (size - total))
          stream := stream.drop (size - total) }
      else ⟨total, buffer, stream⟩
  | .moved more :: outcomes, total, buffer, stream =>
      if total < size then
        if stream.isEmpty then ⟨-1, buffer, stream⟩
        else
          let bytes := stream.take (min (more + 1) (size - total))
          readAll size outcomes (total + bytes.length)
            (overwrite buffer total bytes) (stream.drop bytes.length)
      else ⟨total, buffer, stream⟩
  | .stopped obstacle :: outcomes, total, buffer, stream =>
      if total < size then
        if retried obstacle then readAll size outcomes total buffer stream
        else ⟨-1, buffer, stream⟩
      else ⟨total, buffer, stream⟩

/-- Every call moves bytes or is repeated. -/
def Benign (outcomes : List Outcome) : Prop :=
  ∀ obstacle, .stopped obstacle ∈ outcomes → retried obstacle = true

end Loops

section

variable {retried : Obstacle → Bool} {outcomes : List Outcome}

theorem Benign.tail {outcome : Outcome}
    (benign : Benign retried (outcome :: outcomes)) :
    Benign retried outcomes :=
  fun obstacle member => benign obstacle (List.mem_cons_of_mem _ member)

theorem Benign.head {obstacle : Obstacle}
    (benign : Benign retried (.stopped obstacle :: outcomes)) :
    retried obstacle = true :=
  benign obstacle List.mem_cons_self

theorem writeAll_done {bytes : List α} {total : Nat}
    (done : ¬total < bytes.length) (outcomes : List Outcome) :
    writeAll retried bytes outcomes total = ([], (total : Int)) := by
  cases outcomes with
  | nil => rw [writeAll, if_neg done]
  | cons outcome outcomes => cases outcome <;> rw [writeAll, if_neg done]

theorem readAll_done {size total : Nat} (done : ¬total < size)
    (outcomes : List Outcome) (buffer stream : List α) :
    readAll retried size outcomes total buffer stream =
      ⟨total, buffer, stream⟩ := by
  cases outcomes with
  | nil => rw [readAll, if_neg done]
  | cons outcome outcomes => cases outcome <;> rw [readAll, if_neg done]

/-- A call that moves bytes takes a nonempty front of the frame. -/
theorem readAll_moved {size more : Nat} (done : List α)
    {front back rest : List α} (inhabited : front ≠ [])
    (count : min (more + 1) (size - done.length) = front.length)
    (unfinished : done.length < size) (outcomes : List Outcome)
    (stream : List α) :
    readAll retried size (.moved more :: outcomes) done.length
        (done ++ rest) (front ++ back ++ stream) =
      readAll retried size outcomes (done ++ front).length
        ((done ++ front) ++ rest.drop front.length) (back ++ stream) := by
  have available : (front ++ back ++ stream).isEmpty = false := by
    simp [inhabited]
  have taken : (front ++ back ++ stream).take front.length = front := by
    rw [List.append_assoc, List.take_left]
  have left : (front ++ back ++ stream).drop front.length =
      back ++ stream := by
    rw [List.append_assoc, List.drop_left]
  rw [readAll, if_pos unfinished, available, count]
  simp only [Bool.false_eq_true, if_false, taken, left, overwrite_append,
    List.length_append]

theorem writeAll_complete {bytes : List α} {total : Nat}
    (within : total ≤ bytes.length) (finished : ¬total < bytes.length)
    (outcomes : List Outcome) :
    writeAll retried bytes outcomes total =
      (bytes.drop total, (bytes.length : Int)) := by
  have done : total = bytes.length := by omega
  rw [writeAll_done finished, done, List.drop_length]

/-- The transport receives exactly the rest of the buffer. -/
theorem writeAll_benign (benign : Benign retried outcomes)
    {bytes : List α} {total : Nat} (within : total ≤ bytes.length) :
    writeAll retried bytes outcomes total =
      (bytes.drop total, (bytes.length : Int)) := by
  induction outcomes generalizing total with
  | nil =>
      by_cases unfinished : total < bytes.length
      · rw [writeAll, if_pos unfinished]
      · exact writeAll_complete within unfinished []
  | cons outcome outcomes ih =>
      by_cases unfinished : total < bytes.length
      · cases outcome with
        | moved more =>
            generalize cut : min (more + 1) (bytes.length - total) = count
            have next := @ih benign.tail (total + count) (by omega)
            have split := List.take_append_drop count (bytes.drop total)
            rw [List.drop_drop] at split
            rw [writeAll, if_pos unfinished]
            simp only [cut, next, split]
        | stopped obstacle =>
            rw [writeAll, if_pos unfinished, if_pos benign.head]
            exact ih benign.tail within
      · exact writeAll_complete within unfinished _

theorem readAll_complete (done : List α) {rest frame : List α}
    (sized : frame.length = rest.length) {size : Nat}
    (whole : size = done.length + rest.length)
    (finished : ¬done.length < size) (outcomes : List Outcome)
    (stream : List α) :
    readAll retried size outcomes done.length (done ++ rest)
        (frame ++ stream) =
      ⟨size, done ++ frame, stream⟩ := by
  have noRest : rest = [] := List.eq_nil_of_length_eq_zero (by omega)
  have noFrame : frame = [] := List.eq_nil_of_length_eq_zero (by
    rw [sized, noRest, List.length_nil])
  have complete : done.length = size := by omega
  rw [readAll_done finished, noRest, noFrame, complete, List.nil_append]

/-- The buffer receives exactly the next bytes of the stream. -/
theorem readAll_enough (benign : Benign retried outcomes)
    (done : List α) {rest frame : List α}
    (sized : frame.length = rest.length) (stream : List α) {size : Nat}
    (whole : size = done.length + rest.length) :
    readAll retried size outcomes done.length (done ++ rest)
        (frame ++ stream) =
      ⟨size, done ++ frame, stream⟩ := by
  induction outcomes generalizing done rest frame with
  | nil =>
      by_cases unfinished : done.length < size
      · have asked : size - done.length = frame.length := by omega
        have emptied : rest.drop frame.length = [] := by
          rw [sized, List.drop_length]
        rw [readAll, if_pos unfinished, asked, List.take_left,
          List.drop_left, overwrite_append, emptied, List.append_nil,
          if_pos (by simp)]
      · exact readAll_complete done sized whole unfinished [] stream
  | cons outcome outcomes ih =>
      by_cases unfinished : done.length < size
      · cases outcome with
        | moved more =>
            -- one call cuts the frame in two
            generalize cut : min (more + 1) (size - done.length) = count
            have fits : (frame.take count).length = count := by
              rw [List.length_take]
              omega
            have inhabited : frame.take count ≠ [] := by
              rw [← List.length_pos_iff, fits]
              omega
            have step := @readAll_moved α retried size more done
              (frame.take count) (frame.drop count) rest inhabited
              (cut.trans fits.symm) unfinished outcomes stream
            rw [List.take_append_drop] at step
            have next := ih benign.tail (done ++ frame.take count)
              (show (frame.drop count).length =
                  (rest.drop (frame.take count).length).length by
                rw [fits, List.length_drop, List.length_drop, sized])
              (by
                rw [List.length_append, List.length_drop, fits]
                omega)
            rw [step, next, List.append_assoc, List.take_append_drop]
        | stopped obstacle =>
            rw [readAll, if_pos unfinished, if_pos benign.head]
            exact ih benign.tail done sized whole
      · exact readAll_complete done sized whole unfinished _ stream

/-- A stream that ends too early is used up, and the loop fails. -/
theorem readAll_short (benign : Benign retried outcomes)
    {size total : Nat} (buffer : List α) {stream : List α}
    (short : stream.length < size - total) :
    (readAll retried size outcomes total buffer stream).result = -1 ∧
      (readAll retried size outcomes total buffer stream).stream = [] := by
  have unfinished : total < size := by omega
  induction outcomes generalizing total buffer stream with
  | nil =>
      have missing : ¬size - total ≤ stream.length := by omega
      have emptied : stream.drop (size - total) = [] :=
        List.drop_eq_nil_of_le (by omega)
      simp [readAll, unfinished, missing, emptied]
  | cons outcome outcomes ih =>
      cases outcome with
      | moved more =>
          cases stream with
          | nil => simp [readAll, unfinished]
          | cons byte stream =>
              simp only [readAll, unfinished, if_true, List.isEmpty_cons,
                Bool.false_eq_true, if_false]
              rw [List.length_cons] at short
              apply ih benign.tail
              · simp only [List.length_drop, List.length_take,
                  List.length_cons]
                omega
              · simp only [List.length_take, List.length_cons]
                omega
      | stopped obstacle =>
          rw [readAll, if_pos unfinished, if_pos benign.head]
          exact ih benign.tail buffer short unfinished

end

/-- A stream of frames that ends somewhere: the frames that are complete, and
a part of the next one. -/
theorem take_flatten_frames {size : Nat} (positive : 0 < size)
    {frames : List (List α)} (sized : ∀ frame ∈ frames, frame.length = size)
    (length : Nat) :
    ∃ tail : List α, tail.length < size ∧
      frames.flatten.take length =
        (frames.take (length / size)).flatten ++ tail := by
  induction frames generalizing length with
  | nil => exact ⟨[], positive, by simp⟩
  | cons frame frames ih =>
      have first := sized frame List.mem_cons_self
      by_cases cut : length < size
      · refine ⟨(frame :: frames).flatten.take length, ?_, ?_⟩
        · exact Nat.lt_of_le_of_lt (List.length_take_le _ _) cut
        · rw [Nat.div_eq_of_lt cut]
          simp
      · obtain ⟨tail, short, rest⟩ := ih
          (fun other member => sized other (List.mem_cons_of_mem _ member))
          (length - size)
        have count : length / size = (length - size) / size + 1 := by
          rw [← Nat.add_div_right _ positive]
          congr 1
          omega
        refine ⟨tail, short, ?_⟩
        rw [count, List.take_succ_cons, List.flatten_cons, List.flatten_cons,
          List.append_assoc, ← rest, List.take_append, first,
          List.take_of_length_le (by omega)]

end Dfs.ByteStream
