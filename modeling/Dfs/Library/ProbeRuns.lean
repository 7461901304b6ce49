import Mathlib.Data.List.Induction
import Mathlib.Data.Nat.Find
import Dfs.Library.ProbeTable

/-!
# Many insertions into a probing table

A key settles in the slot that a search for it reaches first.  Insertions of
other keys do not move it and an insertion of the same key writes it again, so
after a list of insertions every slot is as before or holds the last value of
its key, whatever the pattern of holes was.
-/

namespace ProbeTable

variable {κ ν : Type} [DecidableEq κ] {size : Nat} {hash : κ → Nat}

/-- The slots behind the home slot before `offset` hold other keys. -/
def Passed (size : Nat) (hash : κ → Nat) (table : ProbeTable κ ν) (key : κ)
    (offset : Nat) : Prop :=
  ∀ earlier, 1 ≤ earlier → earlier < offset →
    (table ((hash key + earlier) % size)).valid = true ∧
      (table ((hash key + earlier) % size)).key ≠ key

/-- The key is in its home slot. -/
def AtHome (hash : κ → Nat) (table : ProbeTable κ ν) (key : κ) : Prop :=
  (table (hash key)).valid = true ∧ (table (hash key)).key = key

/-- A search for the key ends here. -/
structure Settled (size : Nat) (hash : κ → Nat) (table : ProbeTable κ ν)
    (key : κ) (position : Nat) : Prop where
  valid : (table position).valid = true
  isKey : (table position).key = key
  reached : position = hash key ∨
    ¬ AtHome hash table key ∧
      ∃ offset, 1 ≤ offset ∧ offset < size ∧
        position = (hash key + offset) % size ∧
        Passed size hash table key offset

section OneKey

variable {table : ProbeTable κ ν} {key : κ} {position : Nat}

private theorem lookupFrom_of_passed {remaining offset found : Nat}
    (lower : offset ≤ found) (upper : found < offset + remaining)
    (passed : ∀ earlier, offset ≤ earlier → earlier < found →
      (table ((hash key + earlier) % size)).valid = true ∧
        (table ((hash key + earlier) % size)).key ≠ key)
    (valid : (table ((hash key + found) % size)).valid = true)
    (isKey : (table ((hash key + found) % size)).key = key) :
    lookupFrom size hash table key remaining offset =
      some (table ((hash key + found) % size)).value := by
  induction remaining generalizing offset with
  | zero => omega
  | succ remaining ih =>
      by_cases here : offset = found
      · subst here
        simp [lookupFrom, valid, isKey]
      · obtain ⟨busy, other⟩ := passed offset (Nat.le_refl _) (by omega)
        have rest := @ih (offset + 1) (by omega) (by omega)
          (fun earlier after before => passed earlier (by omega) before)
        simp only [lookupFrom, busy, other, Bool.true_eq_false, if_false]
        exact rest

private theorem insertFrom_of_passed {remaining offset found : Nat}
    (lower : offset ≤ found) (upper : found < offset + remaining)
    (passed : ∀ earlier, offset ≤ earlier → earlier < found →
      (table ((hash key + earlier) % size)).valid = true ∧
        (table ((hash key + earlier) % size)).key ≠ key)
    (reusable : (table ((hash key + found) % size)).valid = false ∨
      (table ((hash key + found) % size)).key = key) (value : ν) :
    insertFrom size hash table key value remaining offset =
      Function.update table ((hash key + found) % size)
        ⟨key, value, true⟩ := by
  induction remaining generalizing offset with
  | zero => omega
  | succ remaining ih =>
      by_cases here : offset = found
      · subst here
        by_cases free :
            (table ((hash key + offset) % size)).valid = false
        · simp [insertFrom, free]
        · have matched := reusable.resolve_left free
          have slot : { table ((hash key + offset) % size) with
              value := value } = ⟨key, value, true⟩ := by
            cases stored : table ((hash key + offset) % size)
            simp_all
          have busy : (table ((hash key + offset) % size)).valid = true := by
            simpa using free
          rw [← slot]
          simp only [insertFrom, busy, matched, Bool.true_eq_false, if_false,
            if_true]
      · obtain ⟨busy, other⟩ := passed offset (Nat.le_refl _) (by omega)
        have rest := @ih (offset + 1) (by omega) (by omega)
          (fun earlier after before => passed earlier (by omega) before)
        simp only [insertFrom, busy, other, Bool.true_eq_false, if_false]
        exact rest

theorem Settled.lookup (settled : Settled size hash table key position) :
    lookup size hash table key = some (table position).value := by
  rcases settled.reached with rfl | ⟨away, offset, lower, upper, rfl, passed⟩
  · simp [ProbeTable.lookup, settled.valid, settled.isKey]
  · have rest := @lookupFrom_of_passed κ ν _ size hash table key (size - 1)
      1 offset lower (show offset < 1 + (size - 1) by omega) passed
      settled.valid settled.isKey
    simp only [ProbeTable.lookup]
    exact (if_neg away).trans rest

/-- An insertion of a settled key writes its slot. -/
theorem Settled.insert_eq (settled : Settled size hash table key position)
    (value : ν) :
    insert size hash table key value =
      Function.update table position ⟨key, value, true⟩ := by
  rcases settled.reached with rfl | ⟨away, offset, lower, upper, rfl, passed⟩
  · have slot : { table (hash key) with value := value } =
        ⟨key, value, true⟩ := by
      have valid := settled.valid
      have isKey := settled.isKey
      cases stored : table (hash key)
      simp_all
    rw [insert, if_pos ⟨settled.valid, settled.isKey⟩, slot]
  · simp only [insert]
    exact (if_neg away).trans (insertFrom_of_passed lower (by omega) passed
      (.inr settled.isKey) value)

theorem Settled.insert_self (settled : Settled size hash table key position)
    (value : ν) :
    Settled size hash (insert size hash table key value) key position ∧
      insert size hash table key value position = ⟨key, value, true⟩ := by
  rw [settled.insert_eq value]
  refine ⟨⟨by simp, by simp, ?_⟩, by simp⟩
  rcases settled.reached with home | ⟨away, offset, lower, upper, place,
    passed⟩
  · exact .inl home
  · by_cases same : position = hash key
    · exact .inl same
    refine .inr ⟨?_, offset, lower, upper, place, ?_⟩
    · simpa [AtHome, Function.update_of_ne (Ne.symm same)] using away
    · intro earlier after before
      obtain ⟨busy, other⟩ := passed earlier after before
      have elsewhere : (hash key + earlier) % size ≠ position := by
        intro equal
        rw [equal] at other
        exact other settled.isKey
      rw [Function.update_of_ne elsewhere]
      exact ⟨busy, other⟩

/-- Other keys do not move it. -/
theorem Settled.insert_of_ne (settled : Settled size hash table key position)
    {inserted : κ} (different : key ≠ inserted) (value : ν) :
    Settled size hash (insert size hash table inserted value) key position ∧
      insert size hash table inserted value position = table position := by
  have cases := insert_cases size hash table inserted value
  have busyAfter : ∀ place, (table place).valid = true →
      (table place).key ≠ key →
      (insert size hash table inserted value place).valid = true ∧
        (insert size hash table inserted value place).key ≠ key := by
    intro place busy other
    rcases cases place with same | ⟨_, written⟩
    · rw [same]
      exact ⟨busy, other⟩
    · rw [written]
      exact ⟨rfl, different.symm⟩
  have here : insert size hash table inserted value position =
      table position := by
    rcases cases position with same | ⟨free | isInserted, _⟩
    · exact same
    · rw [settled.valid] at free
      cases free
    · exact (different (settled.isKey.symm.trans isInserted)).elim
  refine ⟨⟨by rw [here]; exact settled.valid,
    by rw [here]; exact settled.isKey, ?_⟩, here⟩
  rcases settled.reached with home | ⟨away, offset, lower, upper, place,
    passed⟩
  · exact .inl home
  · refine .inr ⟨?_, offset, lower, upper, place, ?_⟩
    · intro atHome
      unfold AtHome at atHome
      rcases cases (hash key) with same | ⟨_, written⟩
      · rw [same] at atHome
        exact away atHome
      · rw [written] at atHome
        exact different atHome.2.symm
    · intro earlier after before
      obtain ⟨busy, other⟩ := passed earlier after before
      exact busyAfter _ busy other

/-- With room an inserted key settles, and no other slot is written. -/
theorem insert_settles (room : Room size hash table key) (value : ν) :
    ∃ position, Settled size hash (insert size hash table key value) key
        position ∧
      insert size hash table key value position = ⟨key, value, true⟩ ∧
      ∀ other, other ≠ position →
        insert size hash table key value other = table other := by
  classical
  by_cases home : AtHome hash table key
  · have settled : Settled size hash table key (hash key) :=
      ⟨home.1, home.2, .inl rfl⟩
    obtain ⟨after, written⟩ := settled.insert_self value
    refine ⟨hash key, after, written, ?_⟩
    intro other elsewhere
    rw [settled.insert_eq, Function.update_of_ne elsewhere]
  · have reusable : ∃ offset, 1 ≤ offset ∧ offset < size ∧
        ((table ((hash key + offset) % size)).valid = false ∨
          (table ((hash key + offset) % size)).key = key) := by
      obtain ⟨offset, lower, upper, free⟩ := room
      exact ⟨offset, lower, upper, .inl free⟩
    obtain ⟨lower, upper, open_⟩ := Nat.find_spec reusable
    have passed : Passed size hash table key (Nat.find reusable) := by
      intro earlier after before
      have busy := Nat.find_min reusable before
      simp only [not_and, not_or] at busy
      obtain ⟨valid, other⟩ := busy after (by omega)
      exact ⟨by simpa using valid, other⟩
    have written : insert size hash table key value =
        Function.update table
          ((hash key + Nat.find reusable) % size) ⟨key, value, true⟩ := by
      simp only [insert]
      exact (if_neg home).trans
        (insertFrom_of_passed lower (by omega) passed open_ value)
    generalize Nat.find reusable = offset at *
    rw [written]
    refine ⟨(hash key + offset) % size, ⟨by simp, by simp, ?_⟩, by simp,
      fun other elsewhere => Function.update_of_ne elsewhere _ _⟩
    by_cases same : (hash key + offset) % size = hash key
    · exact .inl same
    refine .inr ⟨?_, offset, lower, upper, rfl, ?_⟩
    · simpa [AtHome, Function.update_of_ne (Ne.symm same)] using home
    · intro earlier after before
      obtain ⟨busy, other⟩ := passed earlier after before
      have elsewhere : (hash key + earlier) % size ≠
          (hash key + offset) % size := by
        intro equal
        rw [equal] at busy other
        rcases open_ with free | matched
        · rw [free] at busy
          cases busy
        · exact other matched
      rw [Function.update_of_ne elsewhere]
      exact ⟨busy, other⟩

private theorem insertFrom_of_full {remaining offset : Nat}
    (full : ∀ later, offset ≤ later → later < offset + remaining →
      (table ((hash key + later) % size)).valid = true ∧
        (table ((hash key + later) % size)).key ≠ key) (value : ν) :
    insertFrom size hash table key value remaining offset = table := by
  induction remaining generalizing offset with
  | zero => rfl
  | succ remaining ih =>
      obtain ⟨busy, other⟩ := full offset (Nat.le_refl _) (by omega)
      simp only [insertFrom, busy, other, Bool.true_eq_false, if_false]
      exact ih fun later after before => full later (by omega) (by omega)

/-- A key that is not stored is found after its insertion exactly when there
was room for it. -/
theorem lookup_insert_new_iff
    (new : ∀ position, (table position).valid = true →
      (table position).key ≠ key) {value : ν} :
    lookup size hash (insert size hash table key value) key = some value ↔
      Room size hash table key := by
  constructor
  · intro found
    by_contra full
    have unchanged : insert size hash table key value = table := by
      have away : ¬ AtHome hash table key := fun home =>
        new _ home.1 home.2
      simp only [insert]
      refine (if_neg away).trans (insertFrom_of_full ?_ value)
      intro later after before
      have busy : (table ((hash key + later) % size)).valid = true := by
        by_contra free
        exact full ⟨later, after, by omega, by simpa using free⟩
      exact ⟨busy, new _ busy⟩
    rw [unchanged] at found
    obtain ⟨position, slot⟩ := lookup_sound found
    exact new position (by rw [slot]) (by rw [slot])
  · exact fun room => lookup_insert_self room value

end OneKey

omit [DecidableEq κ] in
/-- The number of invalid slots. -/
def freeSlots (size : Nat) (table : ProbeTable κ ν) : Nat :=
  (List.range size).countP fun position => !(table position).valid

private theorem countP_range_le {first second : Nat → Bool} {target : Nat}
    (same : ∀ position, position ≠ target → first position = second position)
    (count : Nat) :
    (List.range count).countP first ≤
      (List.range count).countP second + if target < count then 1 else 0 := by
  induction count with
  | zero => simp
  | succ count ih =>
      rw [List.range_succ, List.countP_append, List.countP_append]
      by_cases here : count = target
      · subst here
        have before : (List.range count).countP first ≤
            (List.range count).countP second := by simpa using ih
        have one : [count].countP first ≤ 1 := List.countP_le_length
        simp only [Nat.lt_succ_self, if_true]
        omega
      · have last : [count].countP first = [count].countP second := by
          simp [List.countP_cons, same count here]
        by_cases earlier : target < count
        · simp only [earlier, Nat.lt_succ_of_lt earlier, if_true] at ih ⊢
          omega
        · have beyond : ¬ target < count + 1 := by omega
          simp only [earlier, beyond, if_false] at ih ⊢
          omega

private theorem insertFrom_elsewhere (table : ProbeTable κ ν) (key : κ)
    (value : ν) (remaining offset : Nat) :
    ∃ target, ∀ position, position ≠ target →
      insertFrom size hash table key value remaining offset position =
        table position := by
  induction remaining generalizing offset with
  | zero => exact ⟨0, fun _ _ => rfl⟩
  | succ remaining ih =>
      simp only [insertFrom]
      split
      · exact ⟨_, fun _ away => Function.update_of_ne away _ _⟩
      · split
        · exact ⟨_, fun _ away => Function.update_of_ne away _ _⟩
        · exact ih (offset + 1)

variable (size hash) in
theorem insert_elsewhere (table : ProbeTable κ ν) (key : κ) (value : ν) :
    ∃ target, ∀ position, position ≠ target →
      insert size hash table key value position = table position := by
  simp only [insert]
  split
  · exact ⟨_, fun _ away => Function.update_of_ne away _ _⟩
  · exact insertFrom_elsewhere table key value _ _

variable (size hash) in
/-- An insertion takes at most one free slot. -/
theorem freeSlots_insert (table : ProbeTable κ ν) (key : κ) (value : ν) :
    freeSlots size table ≤
      freeSlots size (insert size hash table key value) + 1 := by
  obtain ⟨target, elsewhere⟩ :=
    insert_elsewhere size hash table key value
  have same : ∀ position, position ≠ target →
      (!(table position).valid) =
        !(insert size hash table key value position).valid := by
    intro position away
    rw [elsewhere position away]
  have bound := countP_range_le same size
  unfold freeSlots
  split at bound
  · exact bound
  · omega

omit [DecidableEq κ] in
theorem hasRoom_of_freeSlots {table : ProbeTable κ ν}
    (two : 2 ≤ freeSlots size table) : HasRoom size table := by
  rw [freeSlots, List.countP_eq_length_filter] at two
  generalize slots : (List.range size).filter
    (fun position => !(table position).valid) = free at two
  have nodup : free.Nodup := by
    rw [← slots]
    exact List.nodup_range.filter _
  have isFree : ∀ position ∈ free, position < size ∧
      (table position).valid = false := by
    intro position member
    rw [← slots, List.mem_filter, List.mem_range] at member
    simpa using member
  match free, two with
  | first :: second :: _, _ =>
      obtain ⟨firstBound, firstFree⟩ := isFree first (by simp)
      obtain ⟨secondBound, secondFree⟩ := isFree second (by simp)
      refine ⟨first, second, firstBound, secondBound, ?_, firstFree,
        secondFree⟩
      rintro rfl
      simp at nodup

def insertAll (size : Nat) (hash : κ → Nat) (table : ProbeTable κ ν)
    (pairs : List (κ × ν)) : ProbeTable κ ν :=
  pairs.foldl (fun table pair => insert size hash table pair.1 pair.2) table

/-- The value that the last pair of a key gives to it. -/
def lastValue (pairs : List (κ × ν)) (key : κ) : Option ν :=
  (pairs.filterMap fun pair =>
    if pair.1 = key then some pair.2 else none).getLast?

theorem lastValue_concat (pairs : List (κ × ν)) (pair : κ × ν) (key : κ) :
    lastValue (pairs ++ [pair]) key =
      if pair.1 = key then some pair.2 else lastValue pairs key := by
  unfold lastValue
  by_cases same : pair.1 = key
  · simp [same]
  · simp [same]

theorem insertAll_concat (table : ProbeTable κ ν) (pairs : List (κ × ν))
    (pair : κ × ν) :
    insertAll size hash table (pairs ++ [pair]) =
      insert size hash (insertAll size hash table pairs) pair.1 pair.2 := by
  simp [insertAll]

variable (size hash) in
theorem freeSlots_insertAll (table : ProbeTable κ ν)
    (pairs : List (κ × ν)) :
    freeSlots size table ≤
      freeSlots size (insertAll size hash table pairs) + pairs.length := by
  induction pairs generalizing table with
  | nil => exact Nat.le_refl _
  | cons pair pairs ih =>
      have first := freeSlots_insert size hash table
        pair.1 pair.2
      have rest := ih (insert size hash table pair.1 pair.2)
      rw [insertAll, List.foldl_cons, List.length_cons]
      unfold insertAll at rest
      omega

/-- What the insertions leave: slots as before, or with the last value of a
key that settled there; and every inserted key has such a slot. -/
structure Filled (size : Nat) (hash : κ → Nat) (before after : ProbeTable κ ν)
    (pairs : List (κ × ν)) : Prop where
  slots : ∀ position, after position = before position ∨
    ∃ key value, after position = ⟨key, value, true⟩ ∧
      lastValue pairs key = some value ∧
      Settled size hash after key position
  found : ∀ key value, lastValue pairs key = some value →
    ∃ position, Settled size hash after key position ∧
      (after position).value = value

/-- One more insertion with room. -/
theorem Filled.insert {before after : ProbeTable κ ν}
    {pairs : List (κ × ν)} (filled : Filled size hash before after pairs)
    {key : κ} (room : Room size hash after key) (value : ν) :
    Filled size hash before (ProbeTable.insert size hash after key value)
      (pairs ++ [(key, value)]) := by
  obtain ⟨target, settled, written, elsewhere⟩ :=
    insert_settles room value
  constructor
  · intro position
    by_cases here : position = target
    · subst here
      refine .inr ⟨key, value, written, ?_, settled⟩
      rw [lastValue_concat, if_pos rfl]
    · rcases filled.slots position with same | ⟨other, stored, slot, last,
        own⟩
      · exact .inl ((elsewhere position here).trans same)
      · right
        by_cases sameKey : other = key
        · subst sameKey
          obtain ⟨after, rewritten⟩ := own.insert_self value
          refine ⟨other, value, rewritten, ?_, after⟩
          rw [lastValue_concat, if_pos rfl]
        · obtain ⟨after, kept⟩ := own.insert_of_ne sameKey value
          refine ⟨other, stored, kept.trans slot, ?_, after⟩
          rw [lastValue_concat, if_neg (Ne.symm sameKey), last]
  · intro other stored last
    rw [lastValue_concat] at last
    split at last
    · rename_i same
      cases last
      have sameKey : key = other := same
      subst sameKey
      exact ⟨target, settled, by rw [written]⟩
    · rename_i different
      obtain ⟨position, own, has⟩ := filled.found other stored last
      obtain ⟨after, kept⟩ := own.insert_of_ne (Ne.symm different) value
      exact ⟨position, after, by rw [kept, has]⟩

/-- With more free slots than insertions all of them take effect. -/
theorem filled_insertAll (inRange : ∀ key, hash key < size)
    {table : ProbeTable κ ν} {pairs : List (κ × ν)}
    (room : pairs.length < freeSlots size table) :
    Filled size hash table (insertAll size hash table pairs) pairs := by
  induction pairs using List.reverseRecOn with
  | nil =>
      refine ⟨fun _ => .inl rfl, ?_⟩
      intro key value last
      simp [lastValue] at last
  | append_singleton pairs pair ih =>
      rw [List.length_append, List.length_singleton] at room
      have used := freeSlots_insertAll size hash table pairs
      have free : HasRoom size (insertAll size hash table pairs) :=
        hasRoom_of_freeSlots (by omega)
      rw [insertAll_concat]
      exact (ih (by omega)).insert (free.room (inRange pair.1)) pair.2

end ProbeTable
