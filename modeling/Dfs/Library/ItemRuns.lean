import Mathlib.Data.List.TakeWhile

/-!
# Maximal runs between breaks

The words of a text are its maximal runs of items that are not breaks.
`RunsOf` says what they are and `runs` computes them.
-/

namespace ItemRuns

variable {α : Type} {isBreak : α → Bool}

/-- Break by break, and run by run where a run ends with the text or at a
break. -/
inductive RunsOf (isBreak : α → Bool) : List α → List (List α) → Prop where
  | nil : RunsOf isBreak [] []
  | skip {item : α} {rest : List α} {found : List (List α)}
      (breaks : isBreak item = true) (later : RunsOf isBreak rest found) :
      RunsOf isBreak (item :: rest) found
  | run {run rest : List α} {found : List (List α)} (inhabited : run ≠ [])
      (solid : ∀ item ∈ run, isBreak item = false)
      (maximal : ∀ item ∈ rest.head?, isBreak item = true)
      (later : RunsOf isBreak rest found) :
      RunsOf isBreak (run ++ rest) (run :: found)

/-- The pieces between breaks that are not empty. -/
def runs (isBreak : α → Bool) (text : List α) : List (List α) :=
  (text.splitOnP isBreak).filter fun piece => !piece.isEmpty

theorem runs_append_cons {item : α} (breaks : isBreak item = true)
    (front back : List α) :
    runs isBreak (front ++ item :: back) =
      runs isBreak front ++ runs isBreak back := by
  rw [runs, List.splitOnP_append_cons front back breaks, List.filter_append]
  rfl

theorem runs_of_solid {front : List α}
    (solid : ∀ item ∈ front, isBreak item = false) :
    runs isBreak front = if front.isEmpty then [] else [front] := by
  rw [runs, List.splitOnP_eq_singleton solid]
  cases front with
  | nil => rfl
  | cons item front => rfl

theorem runs_nil : runs isBreak ([] : List α) = [] :=
  runs_of_solid (by simp)

theorem runs_cons {item : α} (breaks : isBreak item = true)
    (back : List α) : runs isBreak (item :: back) = runs isBreak back := by
  have split := runs_append_cons breaks [] back
  rw [runs_nil] at split
  exact split

theorem runs_run_append {run rest : List α} (inhabited : run ≠ [])
    (solid : ∀ item ∈ run, isBreak item = false)
    (maximal : ∀ item ∈ rest.head?, isBreak item = true) :
    runs isBreak (run ++ rest) = run :: runs isBreak rest := by
  have first := runs_of_solid solid
  rw [if_neg (by simpa using inhabited)] at first
  cases rest with
  | nil => rw [List.append_nil, first, runs_nil]
  | cons item rest =>
      have breaks := maximal item (by simp)
      rw [runs_append_cons breaks, first, runs_cons breaks]
      rfl

/-- A text begins with all items before its first break. -/
theorem exists_solid_front (isBreak : α → Bool) (text : List α) :
    ∃ run rest, text = run ++ rest ∧
      (∀ item ∈ run, isBreak item = false) ∧
      ∀ item ∈ rest.head?, isBreak item = true := by
  induction text with
  | nil => exact ⟨[], [], rfl, by simp, by simp⟩
  | cons item text ih =>
      cases breaks : isBreak item with
      | true => exact ⟨[], item :: text, rfl, by simp, by simpa using breaks⟩
      | false =>
          obtain ⟨run, rest, rfl, solid, maximal⟩ := ih
          refine ⟨item :: run, rest, rfl, ?_, maximal⟩
          intro other member
          rcases List.mem_cons.mp member with rfl | later
          · exact breaks
          · exact solid other later

/-- The run that begins a text goes on behind what is known of it. -/
theorem runs_of_started {front : List α} (inhabited : front ≠ [])
    (solid : ∀ item ∈ front, isBreak item = false) (rest : List α) :
    ∃ more others, runs isBreak (front ++ rest) =
      (front ++ more) :: others := by
  obtain ⟨more, rest, rfl, moreSolid, maximal⟩ :=
    exists_solid_front isBreak rest
  refine ⟨more, runs isBreak rest, ?_⟩
  rw [← List.append_assoc]
  apply runs_run_append (by simp [inhabited]) _ maximal
  intro item member
  rcases List.mem_append.mp member with before | after
  · exact solid item before
  · exact moreSolid item after

theorem runsOf_runs (isBreak : α → Bool) (text : List α) :
    RunsOf isBreak text (runs isBreak text) := by
  induction size : text.length using Nat.strong_induction_on
    generalizing text with
  | h length ih =>
      obtain ⟨run, rest, rfl, solid, maximal⟩ :=
        exists_solid_front isBreak text
      rw [List.length_append] at size
      by_cases inhabited : run = []
      · subst inhabited
        cases rest with
        | nil =>
            rw [List.append_nil, runs_nil]
            exact .nil
        | cons item rest =>
            have breaks := maximal item (by simp)
            rw [List.nil_append, runs_cons breaks]
            apply RunsOf.skip breaks
            apply ih rest.length _ rest rfl
            simp only [List.length_cons] at size
            omega
      · have more := List.length_pos_iff.mpr inhabited
        rw [runs_run_append inhabited solid maximal]
        exact .run inhabited solid maximal
          (ih rest.length (by omega) rest rfl)

/-- The computed runs are the runs, and no others are. -/
theorem runsOf_iff {text : List α} {found : List (List α)} :
    RunsOf isBreak text found ↔ runs isBreak text = found := by
  constructor
  · intro derivation
    induction derivation with
    | nil => exact runs_nil
    | skip breaks _ ih => rw [runs_cons breaks, ih]
    | run inhabited solid maximal _ ih =>
        rw [runs_run_append inhabited solid maximal, ih]
  · rintro rfl
    exact runsOf_runs isBreak text

theorem RunsOf.subset {text run : List α} {found : List (List α)}
    (derivation : RunsOf isBreak text found) (member : run ∈ found) :
    run ⊆ text := by
  induction derivation with
  | nil => cases member
  | skip _ _ ih => exact List.subset_cons_of_subset _ (ih member)
  | run _ _ _ _ ih =>
      rcases List.mem_cons.mp member with rfl | later
      · exact List.subset_append_left _ _
      · exact List.subset_append_of_subset_right _ (ih later)

theorem RunsOf.mem {text run : List α} {found : List (List α)}
    (derivation : RunsOf isBreak text found) (member : run ∈ found) :
    run ≠ [] ∧ ∀ item ∈ run, isBreak item = false := by
  induction derivation with
  | nil => cases member
  | skip _ _ ih => exact ih member
  | run inhabited solid _ _ ih =>
      rcases List.mem_cons.mp member with rfl | later
      · exact ⟨inhabited, solid⟩
      · exact ih later

end ItemRuns
