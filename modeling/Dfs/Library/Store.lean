import Mathlib.Data.List.Basic

/-!
# Finite stores

A finite map as an association list without repeated keys in use: `set`
replaces what was stored under a key and `erase` forgets it.  Reading goes
through `get`, and the laws below are all a client needs.
-/

/-- A finite map from keys to values. -/
structure Store (κ ν : Type) where
  entries : List (κ × ν)
  deriving DecidableEq, Repr

namespace Store

variable {κ ν : Type}

def empty : Store κ ν := ⟨[]⟩

variable [DecidableEq κ]

def get (store : Store κ ν) (key : κ) : Option ν :=
  store.entries.lookup key

def erase (store : Store κ ν) (key : κ) : Store κ ν :=
  ⟨store.entries.filter fun entry => entry.1 ≠ key⟩

def set (store : Store κ ν) (key : κ) (value : ν) : Store κ ν :=
  ⟨(key, value) :: (store.erase key).entries⟩

private theorem lookup_filter (keep : κ → Bool)
    (entries : List (κ × ν)) (key : κ) :
    (entries.filter fun entry => keep entry.1).lookup key =
      if keep key then entries.lookup key else none := by
  induction entries with
  | nil => simp
  | cons entry entries ih =>
      obtain ⟨entryKey, value⟩ := entry
      by_cases found : key = entryKey
      · subst found
        cases kept : keep key with
        | true => simp [kept]
        | false => simp [kept, ih]
      · have different : (key == entryKey) = false := by simpa using found
        cases kept : keep entryKey with
        | true => simp [kept, List.lookup_cons, different, ih]
        | false => simp [kept, List.lookup_cons, different, ih]

theorem get_erase (store : Store κ ν) (key other : κ) :
    (store.erase key).get other =
      if other = key then none else store.get other := by
  have filtered :=
    lookup_filter (fun candidate => decide (candidate ≠ key))
      store.entries other
  by_cases same : other = key
  · simpa [get, erase, same] using filtered
  · simpa [get, erase, same] using filtered

@[simp] theorem get_erase_self (store : Store κ ν) (key : κ) :
    (store.erase key).get key = none := by
  simp [get_erase]

theorem get_erase_of_ne (store : Store κ ν) {key other : κ}
    (different : other ≠ key) :
    (store.erase key).get other = store.get other := by
  simp [get_erase, different]

@[simp] theorem get_set_self (store : Store κ ν) (key : κ) (value : ν) :
    (store.set key value).get key = some value := by
  simp [get, set]

theorem get_set_of_ne (store : Store κ ν) {key other : κ}
    (different : other ≠ key) (value : ν) :
    (store.set key value).get other = store.get other := by
  have unequal : (other == key) = false := by simpa using different
  rw [← get_erase_of_ne store different]
  simp [get, set, List.lookup_cons, unequal]

theorem erase_erase (store : Store κ ν) (key : κ) :
    (store.erase key).erase key = store.erase key := by
  simp [erase, List.filter_filter]

theorem erase_comm (store : Store κ ν) (first second : κ) :
    (store.erase first).erase second = (store.erase second).erase first := by
  simp only [erase, List.filter_filter, Bool.and_comm]

@[simp] theorem erase_set (store : Store κ ν) (key : κ) (value : ν) :
    (store.set key value).erase key = store.erase key := by
  rw [← erase_erase store key]
  simp [erase, set]

@[simp] theorem set_set (store : Store κ ν) (key : κ) (first second : ν) :
    (store.set key first).set key second = store.set key second := by
  rw [set, erase_set, ← set]

/-- Moving other keys around does not change what is stored under a key. -/
theorem get_map_keys (store : Store κ ν) {move : κ → κ} {key : κ}
    (fixed : ∀ other, move other = key ↔ other = key) :
    (⟨store.entries.map fun entry => (move entry.1, entry.2)⟩ :
      Store κ ν).get key = store.get key := by
  unfold get
  induction store.entries with
  | nil => rfl
  | cons entry entries ih =>
      have same : (key == move entry.1) = (key == entry.1) := by
        rw [Bool.eq_iff_iff, beq_iff_eq, beq_iff_eq]
        exact ⟨fun moved => ((fixed entry.1).mp moved.symm).symm,
          fun here => ((fixed entry.1).mpr here.symm).symm⟩
      obtain ⟨entryKey, value⟩ := entry
      simp only [List.map_cons, List.lookup_cons, same]
      rw [ih]

theorem isSome_get_iff (store : Store κ ν) {key : κ} :
    (store.get key).isSome ↔ key ∈ store.entries.map Prod.fst := by
  unfold get
  rw [List.lookup_isSome_iff, List.mem_map]
  constructor
  · rintro ⟨entry, inside, same⟩
    exact ⟨entry, inside, (beq_iff_eq.mp same).symm⟩
  · rintro ⟨entry, inside, same⟩
    exact ⟨entry, inside, by simp [same]⟩

end Store
