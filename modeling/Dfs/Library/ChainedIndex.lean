import Mathlib.Logic.Function.Basic
import Mathlib.Data.List.Basic

/-!
# Hash index with chained buckets

New nodes go to the head of their bucket, removal unlinks the first node of
the key and a search returns the first match.  Seen from one key this is a
stack: `stack` lists the values under a key, newest first, and the three
operations push, pop and peek it whatever else shares the bucket.
-/

/-- Buckets of nodes, each node a key with its value. -/
structure ChainedIndex (κ ν : Type) where
  buckets : Nat → List (κ × ν)

namespace ChainedIndex

variable {κ ν : Type}

def empty : ChainedIndex κ ν := ⟨fun _ => []⟩

variable [DecidableEq κ] (hash : κ → Nat)

def insert (index : ChainedIndex κ ν) (key : κ) (value : ν) :
    ChainedIndex κ ν :=
  ⟨Function.update index.buckets (hash key)
    ((key, value) :: index.buckets (hash key))⟩

def remove (index : ChainedIndex κ ν) (key : κ) : ChainedIndex κ ν :=
  ⟨Function.update index.buckets (hash key)
    ((index.buckets (hash key)).eraseP fun node => node.1 = key)⟩

def find (index : ChainedIndex κ ν) (key : κ) : Option ν :=
  ((index.buckets (hash key)).find? fun node => node.1 = key).map Prod.snd

/-- The values stored under a key, newest first. -/
def stack (index : ChainedIndex κ ν) (key : κ) : List ν :=
  ((index.buckets (hash key)).filter fun node => node.1 = key).map Prod.snd

@[simp] theorem stack_empty (key : κ) :
    stack hash (empty : ChainedIndex κ ν) key = [] := rfl

theorem find_eq_head? (index : ChainedIndex κ ν) (key : κ) :
    find hash index key = (stack hash index key).head? := by
  simp [find, stack, List.head?_filter]

theorem stack_insert_self (index : ChainedIndex κ ν) (key : κ) (value : ν) :
    stack hash (insert hash index key value) key =
      value :: stack hash index key := by
  simp [stack, insert]

theorem stack_insert_of_ne (index : ChainedIndex κ ν) {key other : κ}
    (different : other ≠ key) (value : ν) :
    stack hash (insert hash index key value) other =
      stack hash index other := by
  by_cases collide : hash other = hash key
  · simp [stack, insert, collide, different.symm]
  · simp [stack, insert, Function.update_of_ne collide]

private theorem filter_eraseP (nodes : List (κ × ν)) (key other : κ) :
    (nodes.eraseP fun node => node.1 = key).filter
        (fun node => node.1 = other) =
      if other = key then (nodes.filter fun node => node.1 = key).tail
      else nodes.filter fun node => node.1 = other := by
  induction nodes with
  | nil => simp
  | cons node nodes ih =>
      by_cases matched : node.1 = key
      · by_cases same : other = key
        · simp [matched, same]
        · have unequal : node.1 ≠ other := fun equal =>
            same (equal.symm.trans matched)
          simp [matched, same, Ne.symm same]
      · by_cases same : other = key
        · subst same
          simpa [matched] using ih
        · by_cases kept : node.1 = other
          · simp [kept, same] at ih ⊢
            simp [ih]
          · simpa [matched, kept, same] using ih

theorem stack_remove_self (index : ChainedIndex κ ν) (key : κ) :
    stack hash (remove hash index key) key = (stack hash index key).tail := by
  have filtered := filter_eraseP (index.buckets (hash key)) key key
  simp [stack, remove] at filtered ⊢
  rw [filtered, List.map_tail]

theorem stack_remove_of_ne (index : ChainedIndex κ ν) {key other : κ}
    (different : other ≠ key) :
    stack hash (remove hash index key) other = stack hash index other := by
  by_cases collide : hash other = hash key
  · have filtered := filter_eraseP (index.buckets (hash key)) key other
    simp [different] at filtered
    simp [stack, remove, collide, filtered]
  · simp [stack, remove, Function.update_of_ne collide]

/-- Under every key the index has exactly the values related to it, each
once. -/
structure Tracks (index : ChainedIndex κ ν) (related : ν → κ → Prop) :
    Prop where
  nodup : ∀ key, (stack hash index key).Nodup
  mem_iff : ∀ key value, value ∈ stack hash index key ↔ related value key

namespace Tracks

variable {hash} {index : ChainedIndex κ ν} {related : ν → κ → Prop}

theorem congr (tracks : Tracks hash index related)
    {other : ν → κ → Prop}
    (same : ∀ value key, other value key ↔ related value key) :
    Tracks hash index other :=
  ⟨tracks.nodup, fun key value =>
    (tracks.mem_iff key value).trans (same value key).symm⟩

theorem find_eq_none_iff (tracks : Tracks hash index related) (key : κ) :
    find hash index key = none ↔ ∀ value, ¬related value key := by
  rw [find_eq_head?, List.head?_eq_none_iff, List.eq_nil_iff_forall_not_mem]
  exact forall_congr' fun value => not_congr (tracks.mem_iff key value)

theorem related_of_find (tracks : Tracks hash index related)
    {key : κ} {value : ν} (found : find hash index key = some value) :
    related value key := by
  rw [find_eq_head?] at found
  exact (tracks.mem_iff key value).mp (List.mem_of_head? found)

/-- Inserting relates one more pair. -/
theorem insert (tracks : Tracks hash index related)
    {key : κ} {value : ν} (unrelated : ¬related value key) :
    Tracks hash (index.insert hash key value) fun other otherKey =>
      related other otherKey ∨ other = value ∧ key = otherKey := by
  constructor
  · intro otherKey
    by_cases same : otherKey = key
    · subst same
      rw [stack_insert_self, List.nodup_cons]
      exact ⟨fun member => unrelated ((tracks.mem_iff _ _).mp member),
        tracks.nodup otherKey⟩
    · rw [stack_insert_of_ne _ _ same]
      exact tracks.nodup otherKey
  · intro otherKey other
    by_cases same : otherKey = key
    · subst same
      rw [stack_insert_self, List.mem_cons, tracks.mem_iff]
      simp [or_comm]
    · rw [stack_insert_of_ne _ _ same, tracks.mem_iff]
      simp [Ne.symm same]

/-- Removing a key forgets the value a search for it returns, when that value
is related to no other key. -/
theorem remove (tracks : Tracks hash index related)
    {key : κ} {value : ν} (found : find hash index key = some value)
    (only : ∀ otherKey, related value otherKey → otherKey = key) :
    Tracks hash (index.remove hash key) fun other otherKey =>
      related other otherKey ∧ other ≠ value := by
  rw [find_eq_head?] at found
  obtain ⟨rest, stackEq⟩ := List.head?_eq_some_iff.mp found
  have fresh : value ∉ rest ∧ rest.Nodup := by
    have nodup := tracks.nodup key
    rw [stackEq, List.nodup_cons] at nodup
    exact nodup
  constructor
  · intro otherKey
    by_cases same : otherKey = key
    · subst same
      rw [stack_remove_self, stackEq]
      exact fresh.2
    · rw [stack_remove_of_ne _ _ same]
      exact tracks.nodup otherKey
  · intro otherKey other
    rw [← tracks.mem_iff]
    by_cases same : otherKey = key
    · subst same
      rw [stack_remove_self, stackEq, List.tail_cons, List.mem_cons]
      constructor
      · intro member
        exact ⟨.inr member, fun equal => fresh.1 (equal ▸ member)⟩
      · rintro ⟨equal | member, different⟩
        · exact (different equal).elim
        · exact member
    · rw [stack_remove_of_ne _ _ same]
      constructor
      · intro member
        refine ⟨member, fun equal => same (only otherKey ?_)⟩
        subst equal
        exact (tracks.mem_iff otherKey other).mp member
      · exact And.left

end Tracks

end ChainedIndex
