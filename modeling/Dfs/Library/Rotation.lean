import Mathlib.Data.List.Rotate

/-!
# Taking turns around a circle

A circle is a list read from where the next search starts.  A turn goes to the
first one that is ready, and the next search starts behind it.  As many turns
as there are ready ones reach each of them once, in the order of the circle.
-/

namespace Rotation

variable {α : Type} (ready : α → Bool)

/-- The one whose turn it is, and the circle read from behind it. -/
def turn (circle : List α) : Option (α × List α) := do
  let place ← circle.findIdx? ready
  let item ← circle[place]?
  return (item, circle.rotate (place + 1))

/-- Whose turn it is so many times in a row. -/
def turns : Nat → List α → List α
  | 0, _ => []
  | count + 1, circle =>
      match turn ready circle with
      | none => []
      | some (item, next) => item :: turns count next

variable {ready} {item : α} {rest : List α}

theorem turn_eq_none_iff {circle : List α} :
    turn ready circle = none ↔ ∀ item ∈ circle, ready item = false := by
  cases found : circle.findIdx? ready with
  | none =>
      have idle : turn ready circle = none := by simp [turn, found]
      exact iff_of_true idle (List.findIdx?_eq_none_iff.mp found)
  | some place =>
      obtain ⟨inside, isReady, _⟩ :=
        List.findIdx?_eq_some_iff_getElem.mp found
      have taken : turn ready circle ≠ none := by
        simp [turn, found, List.getElem?_eq_getElem inside]
      refine iff_of_false taken fun idle => ?_
      rw [idle _ (List.getElem_mem inside)] at isReady
      cases isReady

theorem turn_cons_of_ready (isReady : ready item = true) :
    turn ready (item :: rest) = some (item, rest ++ [item]) := by
  simp [turn, List.findIdx?_cons, isReady]

/-- One that is not ready is passed over. -/
theorem turn_cons_of_not_ready (notReady : ready item = false) :
    turn ready (item :: rest) = turn ready (rest ++ [item]) := by
  have appended : (rest ++ [item]).findIdx? ready = rest.findIdx? ready := by
    simp [List.findIdx?_append, List.findIdx?_cons, notReady]
  cases found : rest.findIdx? ready with
  | none => simp [turn, List.findIdx?_cons, notReady, appended, found]
  | some place =>
      have inside := (List.findIdx?_eq_some_iff_getElem.mp found).1
      have same : (rest ++ [item])[place]? = rest[place]? :=
        List.getElem?_append_left inside
      simp [turn, List.findIdx?_cons, notReady, appended, found, same]

theorem turns_cons_of_ready (isReady : ready item = true) (count : Nat) :
    turns ready (count + 1) (item :: rest) =
      item :: turns ready count (rest ++ [item]) := by
  rw [turns, turn_cons_of_ready isReady]

theorem turns_cons_of_not_ready (notReady : ready item = false)
    (count : Nat) :
    turns ready count (item :: rest) = turns ready count (rest ++ [item]) := by
  cases count with
  | zero => rfl
  | succ count => rw [turns, turns, turn_cons_of_not_ready notReady]

/-- Enough turns for the ready ones of a first part reach just these. -/
theorem turns_filter (first second : List α) :
    turns ready (first.filter ready).length (first ++ second) =
      first.filter ready := by
  induction first generalizing second with
  | nil => rfl
  | cons item first ih =>
      have later := ih (second ++ [item])
      rw [← List.append_assoc] at later
      cases isReady : ready item with
      | true =>
          rw [List.filter_cons_of_pos isReady, List.length_cons,
            List.cons_append, turns_cons_of_ready isReady, later]
      | false =>
          have skipped : ¬ ready item = true := by simp [isReady]
          rw [List.filter_cons_of_neg skipped, List.cons_append,
            turns_cons_of_not_ready isReady, later]

/-- Once around the circle. -/
theorem turns_circle (circle : List α) :
    turns ready (circle.filter ready).length circle =
      circle.filter ready := by
  simpa using @turns_filter α ready circle []

/-- The places of a circle of this size, in the order in which a search from
`start` comes to them. -/
def places (size start : Nat) : List Nat :=
  (List.range size).map fun step => (start + step) % size

theorem places_eq_rotate (size start : Nat) :
    places size start = (List.range size).rotate start := by
  apply List.ext_getElem
  · simp [places]
  · intro step inside _
    simp [places, List.getElem_rotate, Nat.add_comm]

theorem places_perm (size start : Nat) :
    (places size start).Perm (List.range size) := by
  rw [places_eq_rotate]
  exact List.rotate_perm _ _

/-- Behind a place the circle starts anew. -/
theorem rotate_places (size start step : Nat) :
    (places size start).rotate (step + 1) =
      places size (((start + step) % size + 1) % size) := by
  have behind : ((start + step) % size + 1) % size =
      (start + (step + 1)) % (List.range size).length := by
    rw [Nat.mod_add_mod, Nat.add_assoc, List.length_range]
  rw [places_eq_rotate, places_eq_rotate, List.rotate_rotate, behind,
    List.rotate_mod]

theorem findIdx?_range (wanted : Nat → Bool) (size : Nat) :
    (List.range size).findIdx? wanted = (List.range size).find? wanted := by
  ext step
  rw [List.find?_range_eq_some, List.findIdx?_eq_some_iff_getElem]
  simp

/-- A search that counts its steps makes the turn of the circle. -/
theorem turn_places (ready : Nat → Bool) (size start : Nat) :
    turn ready (places size start) =
      ((List.range size).find? fun step => ready ((start + step) % size)).map
        fun step => ((start + step) % size,
          places size (((start + step) % size + 1) % size)) := by
  have searched : (places size start).findIdx? ready =
      (List.range size).find? fun step => ready ((start + step) % size) := by
    rw [places, List.findIdx?_map]
    exact findIdx?_range _ size
  cases found : (List.range size).find? fun step =>
      ready ((start + step) % size) with
  | none =>
      rw [found] at searched
      simp [turn, searched]
  | some step =>
      rw [found] at searched
      have inside : step < size :=
        List.mem_range.mp (List.mem_of_find?_eq_some found)
      have item : (places size start)[step]? =
          some ((start + step) % size) := by
        simp [places, inside]
      simp [turn, searched, item, rotate_places]

end Rotation
