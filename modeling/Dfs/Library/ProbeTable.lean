import Mathlib.Logic.Function.Basic
import Mathlib.Data.List.Basic

/-!
# Open addressing with linear probing

A table of `size` slots in which a key is first sought in its home slot and
then in the slots behind it, cyclically, until an invalid slot ends the
search.  Insertion never fills the home slot: it updates it on a match and
otherwise takes the first invalid or matching slot behind it.  Invalid slots
may appear anywhere, so a search can miss a key that is stored; the laws
below hold for every pattern of holes.
-/

structure ProbeSlot (κ ν : Type) where
  key : κ
  value : ν
  valid : Bool
  deriving DecidableEq, Repr

abbrev ProbeTable (κ ν : Type) := Nat → ProbeSlot κ ν

namespace ProbeTable

variable {κ ν : Type} [DecidableEq κ] (size : Nat) (hash : κ → Nat)

def lookupFrom (table : ProbeTable κ ν) (key : κ) : Nat → Nat → Option ν
  | 0, _ => none
  | remaining + 1, offset =>
      let slot := table ((hash key + offset) % size)
      if slot.valid = false then none
      else if slot.key = key then some slot.value
      else lookupFrom table key remaining (offset + 1)

def lookup (table : ProbeTable κ ν) (key : κ) : Option ν :=
  let slot := table (hash key)
  if slot.valid = true ∧ slot.key = key then some slot.value
  else lookupFrom size hash table key (size - 1) 1

def insertFrom (table : ProbeTable κ ν) (key : κ) (value : ν) :
    Nat → Nat → ProbeTable κ ν
  | 0, _ => table
  | remaining + 1, offset =>
      let position := (hash key + offset) % size
      if (table position).valid = false then
        Function.update table position ⟨key, value, true⟩
      else if (table position).key = key then
        Function.update table position { table position with value := value }
      else insertFrom table key value remaining (offset + 1)

def insert (table : ProbeTable κ ν) (key : κ) (value : ν) :
    ProbeTable κ ν :=
  let home := hash key
  if (table home).valid = true ∧ (table home).key = key then
    Function.update table home { table home with value := value }
  else insertFrom size hash table key value (size - 1) 1

variable {size hash}

private theorem lookupFrom_sound {table : ProbeTable κ ν} {key : κ}
    {value : ν} {remaining offset : Nat}
    (found : lookupFrom size hash table key remaining offset = some value) :
    ∃ position, table position = ⟨key, value, true⟩ := by
  induction remaining generalizing offset with
  | zero => simp [lookupFrom] at found
  | succ remaining ih =>
      simp only [lookupFrom] at found
      split at found
      · cases found
      · rename_i valid
        split at found
        · rename_i matched
          refine ⟨(hash key + offset) % size, ?_⟩
          cases slot : table ((hash key + offset) % size)
          simp_all
        · exact ih found

/-- A search only returns values that are stored under the key. -/
theorem lookup_sound {table : ProbeTable κ ν} {key : κ} {value : ν}
    (found : lookup size hash table key = some value) :
    ∃ position, table position = ⟨key, value, true⟩ := by
  simp only [lookup] at found
  split at found
  · rename_i matched
    refine ⟨hash key, ?_⟩
    cases slot : table (hash key)
    simp_all
  · exact lookupFrom_sound found

omit [DecidableEq κ] in
private theorem update_cases (table : ProbeTable κ ν) (key : κ) (value : ν)
    (target position : Nat)
    (open_ : (table target).valid = false ∨ (table target).key = key) :
    Function.update table target ⟨key, value, true⟩ position =
        table position ∨
      ((table position).valid = false ∨ (table position).key = key) ∧
        Function.update table target ⟨key, value, true⟩ position =
          ⟨key, value, true⟩ := by
  by_cases same : position = target
  · subst same
    exact .inr ⟨open_, by simp⟩
  · exact .inl (by simp [same])

omit [DecidableEq κ] in
private theorem matched_update {table : ProbeTable κ ν} {key : κ}
    {position : Nat} (valid : (table position).valid = true)
    (matched : (table position).key = key) (value : ν) :
    { table position with value := value } = ⟨key, value, true⟩ := by
  cases slot : table position
  simp_all

variable (size hash) in
private theorem insertFrom_cases (table : ProbeTable κ ν) (key : κ)
    (value : ν) (remaining offset position : Nat) :
    insertFrom size hash table key value remaining offset position =
        table position ∨
      ((table position).valid = false ∨ (table position).key = key) ∧
        insertFrom size hash table key value remaining offset position =
          ⟨key, value, true⟩ := by
  induction remaining generalizing offset with
  | zero => exact .inl rfl
  | succ remaining ih =>
      simp only [insertFrom]
      split
      · rename_i free
        exact update_cases table key value _ position (.inl free)
      · rename_i valid
        split
        · rename_i matched
          rw [matched_update (by simpa using valid) matched]
          exact update_cases table key value _ position (.inr matched)
        · exact ih (offset + 1)

variable (size hash) in
/-- An insertion rewrites at most slots that were invalid or had the key. -/
theorem insert_cases (table : ProbeTable κ ν) (key : κ) (value : ν)
    (position : Nat) :
    insert size hash table key value position = table position ∨
      ((table position).valid = false ∨ (table position).key = key) ∧
        insert size hash table key value position = ⟨key, value, true⟩ := by
  simp only [insert]
  split
  · rename_i matched
    rw [matched_update matched.1 matched.2]
    exact update_cases table key value _ position (.inr matched.2)
  · exact insertFrom_cases size hash table key value _ _ position

/-- Some slot behind the home slot of the key is invalid. -/
def Room (size : Nat) (hash : κ → Nat) (table : ProbeTable κ ν) (key : κ) :
    Prop :=
  ∃ offset, 1 ≤ offset ∧ offset < size ∧
    (table ((hash key + offset) % size)).valid = false

private theorem lookupFrom_insertFrom_self {table : ProbeTable κ ν} {key : κ}
    (value : ν) {remaining offset free : Nat} (lower : offset ≤ free)
    (upper : free < offset + remaining)
    (invalid : (table ((hash key + free) % size)).valid = false) :
    lookupFrom size hash
      (insertFrom size hash table key value remaining offset) key remaining
      offset = some value := by
  induction remaining generalizing offset with
  | zero => omega
  | succ remaining ih =>
      by_cases open_ :
          (table ((hash key + offset) % size)).valid = false ∨
            (table ((hash key + offset) % size)).key = key
      · have written : insertFrom size hash table key value (remaining + 1)
            offset ((hash key + offset) % size) = ⟨key, value, true⟩ := by
          simp only [insertFrom]
          split
          · simp
          · rename_i valid
            have matched := open_.resolve_left valid
            rw [if_pos matched, matched_update (by simpa using valid) matched]
            simp
        simp [lookupFrom, written]
      · have valid : ¬(table ((hash key + offset) % size)).valid = false :=
          fun isFree => open_ (.inl isFree)
        have unmatched : ¬(table ((hash key + offset) % size)).key = key :=
          fun isKey => open_ (.inr isKey)
        have later : offset + 1 ≤ free := by
          by_contra early
          have same : free = offset := by omega
          exact valid (same ▸ invalid)
        have recursion : insertFrom size hash table key value (remaining + 1)
            offset =
            insertFrom size hash table key value remaining (offset + 1) := by
          simp [insertFrom, valid, unmatched]
        have rest := ih later (by omega)
        rw [recursion, lookupFrom]
        rcases insertFrom_cases size hash table key value remaining
          (offset + 1) ((hash key + offset) % size) with same | ⟨_, written⟩
        · simp only [same, valid, unmatched, ↓reduceIte]
          exact rest
        · simp [written]

/-- After an insertion with room for it the key is found. -/
theorem lookup_insert_self {table : ProbeTable κ ν} {key : κ}
    (room : Room size hash table key) (value : ν) :
    lookup size hash (insert size hash table key value) key = some value := by
  by_cases matched : (table (hash key)).valid = true ∧
      (table (hash key)).key = key
  · simp [lookup, insert, matched]
  · obtain ⟨free, lower, upper, invalid⟩ := room
    have inserted : insert size hash table key value =
        insertFrom size hash table key value (size - 1) 1 := by
      simp only [insert, matched, ↓reduceIte]
    have rest : lookupFrom size hash
        (insertFrom size hash table key value (size - 1) 1) key (size - 1) 1 =
        some value :=
      lookupFrom_insertFrom_self value lower (by omega) invalid
    rw [inserted]
    rcases insertFrom_cases size hash table key value (size - 1) 1
      (hash key) with same | ⟨_, written⟩
    · simp only [lookup, same, matched, ↓reduceIte]
      exact rest
    · simp [lookup, written]

private theorem lookupFrom_of_cases {table next : ProbeTable κ ν}
    {inserted key : κ} {written value : ν} (different : key ≠ inserted)
    (cases : ∀ position, next position = table position ∨
      ((table position).valid = false ∨ (table position).key = inserted) ∧
        next position = ⟨inserted, written, true⟩)
    {remaining offset : Nat}
    (found : lookupFrom size hash table key remaining offset = some value) :
    lookupFrom size hash next key remaining offset = some value := by
  induction remaining generalizing offset with
  | zero => simp [lookupFrom] at found
  | succ remaining ih =>
      rw [lookupFrom] at found ⊢
      rcases cases ((hash key + offset) % size) with same | ⟨old, new⟩
      · rw [same]
        split at found
        · cases found
        · rename_i valid
          split at found
          · rename_i matched
            simpa [valid, matched] using found
          · rename_i unmatched
            simpa [valid, unmatched] using ih found
      · rw [new]
        split at found
        · cases found
        · rename_i valid
          have isKey := old.resolve_left valid
          rw [if_neg (isKey ▸ different.symm)] at found
          simpa [different.symm] using ih found

/-- An insertion does not hide another key that was found before. -/
theorem lookup_insert_of_ne {table : ProbeTable κ ν} {inserted key : κ}
    (different : key ≠ inserted) (written : ν) {value : ν}
    (found : lookup size hash table key = some value) :
    lookup size hash (insert size hash table inserted written) key =
      some value := by
  have cases := insert_cases size hash table inserted written
  simp only [lookup] at found ⊢
  rcases cases (hash key) with same | ⟨old, new⟩
  · rw [same]
    split at found
    · rename_i matched
      rw [if_pos matched]
      exact found
    · rename_i unmatched
      rw [if_neg unmatched]
      exact lookupFrom_of_cases different cases found
  · rw [new]
    split at found
    · rename_i matched
      rcases old with free | isKey
      · rw [free] at matched
        cases matched.1
      · exact (different (matched.2.symm.trans isKey)).elim
    · rw [if_neg (fun matched => different matched.2.symm)]
      exact lookupFrom_of_cases different cases found

/-- A slot that is free after an insertion was free before it. -/
theorem free_of_insert {table : ProbeTable κ ν} {key : κ} {value : ν}
    {position : Nat}
    (free : (insert size hash table key value position).valid = false) :
    (table position).valid = false := by
  rcases insert_cases size hash table key value position with
    same | ⟨_, written⟩
  · rw [← same]
    exact free
  · rw [written] at free
    cases free

/-- Two slots of the table are free. -/
def HasRoom (size : Nat) (table : ProbeTable κ ν) : Prop :=
  ∃ first second, first < size ∧ second < size ∧ first ≠ second ∧
    (table first).valid = false ∧ (table second).valid = false

omit [DecidableEq κ] in
private theorem room_of_free {table : ProbeTable κ ν} {key : κ}
    {position : Nat} (inRange : hash key < size) (bound : position < size)
    (away : position ≠ hash key) (free : (table position).valid = false) :
    Room size hash table key := by
  by_cases behind : hash key < position
  · refine ⟨position - hash key, by omega, by omega, ?_⟩
    rw [Nat.add_sub_cancel' (Nat.le_of_lt behind), Nat.mod_eq_of_lt bound]
    exact free
  · refine ⟨position + size - hash key, by omega, by omega, ?_⟩
    have wrapped : hash key + (position + size - hash key) =
        position + size := by omega
    rw [wrapped, Nat.add_mod_right, Nat.mod_eq_of_lt bound]
    exact free

omit [DecidableEq κ] in
/-- One of two free slots is not the home slot. -/
theorem HasRoom.room {table : ProbeTable κ ν} (hasRoom : HasRoom size table)
    {key : κ} (inRange : hash key < size) : Room size hash table key := by
  obtain ⟨first, second, firstBound, secondBound, different, firstFree,
    secondFree⟩ := hasRoom
  by_cases home : first = hash key
  · exact room_of_free inRange secondBound
      (fun same => different (home.trans same.symm)) secondFree
  · exact room_of_free inRange firstBound home firstFree

end ProbeTable
