import Dfs.Library.ProbeRuns
import Dfs.StorageServer.AccessDecisions

/-!
# The access cache agrees with the lists

A decision looks into a table with holes, where a key can be stored twice or
be out of reach, and fills in the list of the file when the look is not
enough.  As long as the entries of the file are those of its list and the
table has more free slots than the list has entries, the answer is the one
that the last entry of the user gives.
-/

namespace Dfs.StorageServer

/-- A colon-free name at the end of a key can be read off. -/
theorem split_at_last_colon {front other name user : Text}
    (free : ':' ∉ name) (otherFree : ':' ∉ user)
    (same : front ++ ':' :: name = other ++ ':' :: user) :
    front = other ∧ name = user := by
  have reversed := congrArg List.reverse same
  simp only [List.reverse_append, List.reverse_cons, List.append_assoc,
    List.singleton_append] at reversed
  have nameFree : ':' ∉ name.reverse := by simpa using free
  have userFree : ':' ∉ user.reverse := by simpa using otherFree
  have names : name.reverse = user.reverse := by
    rw [← (split_at_colon nameFree front.reverse).1, reversed,
      (split_at_colon userFree other.reverse).1]
  rw [names] at reversed
  have fronts := (List.cons_eq_cons.mp
    (List.append_cancel_left reversed)).2
  exact ⟨List.reverse_injective fronts, List.reverse_injective names⟩

/-- A key that is as long as that of a user is not cut. -/
theorem accessCacheKey_whole {filename other : Filename}
    {username : Username} {name : Text}
    (same : accessCacheKey other name =
      accessCacheKey filename username.chars) :
    other.chars ++ ':' :: name = filename.chars ++ ':' :: username.chars := by
  rw [accessCacheKey_username] at same
  rw [← same]
  apply Eq.symm
  apply List.take_of_length_le
  have lengths := congrArg List.length same
  have fileBound := filename.fits
  have userBound := username.fits
  simp only [accessCacheKey, List.length_take, List.length_append,
    List.length_cons] at lengths ⊢
  omega

theorem name_of_accessCacheKey {filename : Filename} {username : Username}
    {name : Text}
    (same : accessCacheKey filename name =
      accessCacheKey filename username.chars) : name = username.chars := by
  have whole := List.append_cancel_left (accessCacheKey_whole same)
  exact (List.cons_eq_cons.mp whole).2

/-- Without colons in user names a key belongs to one file and one user. -/
theorem file_of_accessCacheKey {filename other : Filename}
    {username : Username} {name : Text} (free : ':' ∉ name)
    (userFree : ':' ∉ username.chars)
    (same : accessCacheKey other name =
      accessCacheKey filename username.chars) :
    other = filename ∧ name = username.chars := by
  obtain ⟨files, names⟩ :=
    split_at_last_colon free userFree (accessCacheKey_whole same)
  exact ⟨CString.ext files, names⟩

/-- What the entries of a list put into the table. -/
def cachePairs (filename : Filename) (entries : List Text) :
    List (Text × Nat) :=
  entries.filterMap fun entry =>
    (parseAccessEntry entry).map fun (name, accessType) =>
      (accessCacheKey filename name, accessType)

theorem foldl_cacheAccessEntry (filename : Filename) (entries : List Text)
    (table : ProbeTable Text Nat) :
    entries.foldl (cacheAccessEntry filename) table =
      ProbeTable.insertAll accessCacheSize hashAccessKey table
        (cachePairs filename entries) := by
  induction entries generalizing table with
  | nil => rfl
  | cons entry entries ih =>
      rw [List.foldl_cons, ih, cacheAccessEntry]
      cases parsed : parseAccessEntry entry with
      | none => simp [cachePairs, parsed]
      | some parts => simp [cachePairs, parsed, ProbeTable.insertAll]

/-- The last value of a user's key is that of the user's last entry. -/
theorem lastValue_cachePairs (filename : Filename) (entries : List Text)
    (username : Username) :
    ProbeTable.lastValue (cachePairs filename entries)
        (accessCacheKey filename username.chars) =
      (listedAccess entries username.chars).getLast? := by
  rw [ProbeTable.lastValue, cachePairs, List.filterMap_filterMap,
    listedAccess]
  congr 1
  apply List.filterMap_congr
  intro entry _
  cases parseAccessEntry entry with
  | none => rfl
  | some parts =>
      obtain ⟨name, accessType⟩ := parts
      by_cases same : name = username.chars
      · simp [same]
      · have different : accessCacheKey filename name ≠
            accessCacheKey filename username.chars :=
          fun equal => same (name_of_accessCacheKey equal)
        simp [same, different]

theorem length_cachePairs_le (filename : Filename) (entries : List Text) :
    (cachePairs filename entries).length ≤ entries.length :=
  List.length_filterMap_le _ _

/-- A key that the list of a file puts in is the key of a colon-free name. -/
theorem name_of_lastValue {filename : Filename} {entries : List Text}
    {key : Text} {value : Nat}
    (last : ProbeTable.lastValue (cachePairs filename entries) key =
      some value) :
    ∃ name, ':' ∉ name ∧ accessCacheKey filename name = key := by
  have member := List.mem_of_getLast? last
  obtain ⟨pair, inside, given⟩ := List.mem_filterMap.mp member
  obtain ⟨entry, _, parsed⟩ := List.mem_filterMap.mp inside
  obtain ⟨⟨name, accessType⟩, found, rfl⟩ := Option.map_eq_some_iff.mp parsed
  refine ⟨name, (parseAccessEntry_eq_some found).1, ?_⟩
  by_contra different
  simp [different] at given

/-- Every valid entry about a user of the file carries the access that the
last entry of the list gives to the user. -/
def EntriesCorrect (table : ProbeTable Text Nat) (filename : Filename)
    (accessList : DataText) : Prop :=
  ∀ (position : Nat) (username : Username), ':' ∉ username.chars →
    (table position).valid = true →
    (table position).key = accessCacheKey filename username.chars →
    (listedAccess (accessEntries accessList) username.chars).getLast? =
      some (table position).value

/-- The answer of the owner field and the list alone. -/
def directAccess (requiredAccess : Nat) (metadata : FileMetadata)
    (username : Username) : Bool :=
  if metadata.owner = username then true
  else
    match (listedAccess (accessEntries metadata.accessList)
        username.chars).getLast? with
    | some accessType => accessType &&& requiredAccess = requiredAccess
    | none => false

section Build

variable {table : ProbeTable Text Nat} {filename : Filename}
  {accessList : DataText}

/-- The table after the list of the file was entered. -/
def builtTable (table : ProbeTable Text Nat) (filename : Filename)
    (accessList : DataText) : ProbeTable Text Nat :=
  (accessEntries accessList).foldl (cacheAccessEntry filename) table

theorem filled_builtTable
    (room : (accessEntries accessList).length <
      ProbeTable.freeSlots accessCacheSize table) :
    ProbeTable.Filled accessCacheSize hashAccessKey table
      (builtTable table filename accessList)
      (cachePairs filename (accessEntries accessList)) := by
  rw [builtTable, foldl_cacheAccessEntry]
  apply ProbeTable.filled_insertAll hashAccessKey_lt
  have pairs := length_cachePairs_le filename (accessEntries accessList)
  omega

/-- What is found of a user is the user's last entry, and nothing without. -/
theorem lookup_of_correct (correct : EntriesCorrect table filename accessList)
    {username : Username} (free : ':' ∉ username.chars) {value : Nat}
    (found : table.lookup accessCacheSize hashAccessKey
      (accessCacheKey filename username.chars) = some value) :
    (listedAccess (accessEntries accessList) username.chars).getLast? =
      some value := by
  obtain ⟨position, slot⟩ := ProbeTable.lookup_sound found
  have entry := correct position username free (by rw [slot]) (by rw [slot])
  rw [slot] at entry
  exact entry

/-- Entering a list keeps the entries of every file correct. -/
theorem correct_builtTable
    (room : (accessEntries accessList).length <
      ProbeTable.freeSlots accessCacheSize table)
    {other : Filename} {otherList : DataText}
    (sameList : other = filename → otherList = accessList)
    (correct : EntriesCorrect table other otherList) :
    EntriesCorrect (builtTable table filename accessList) other
      otherList := by
  intro position username free valid key
  rcases (filled_builtTable room).slots position with same |
    ⟨stored, value, slot, last, _⟩
  · rw [same] at valid key ⊢
    exact correct position username free valid key
  · rw [slot] at key ⊢
    have storedKey : stored = accessCacheKey other username.chars := key
    obtain ⟨name, nameFree, nameKey⟩ := name_of_lastValue last
    obtain ⟨sameFile, _⟩ :=
      file_of_accessCacheKey nameFree free (nameKey.trans storedKey)
    subst sameFile
    rw [storedKey, lastValue_cachePairs] at last
    rw [sameList rfl]
    exact last

/-- After the list was entered every user of it is found. -/
theorem lookup_builtTable
    (room : (accessEntries accessList).length <
      ProbeTable.freeSlots accessCacheSize table)
    (correct : EntriesCorrect table filename accessList)
    {username : Username} (free : ':' ∉ username.chars) :
    (builtTable table filename accessList).lookup accessCacheSize
        hashAccessKey (accessCacheKey filename username.chars) =
      (listedAccess (accessEntries accessList) username.chars).getLast? := by
  cases last : (listedAccess (accessEntries accessList)
      username.chars).getLast? with
  | some value =>
      rw [← lastValue_cachePairs filename] at last
      obtain ⟨position, settled, stored⟩ :=
        (filled_builtTable room).found _ value last
      rw [settled.lookup, stored]
  | none =>
      have correctAfter := @correct_builtTable table filename accessList
        room filename accessList (fun _ => rfl) correct
      cases found : (builtTable table filename accessList).lookup
          accessCacheSize hashAccessKey
          (accessCacheKey filename username.chars) with
      | none => rfl
      | some value =>
          rw [lookup_of_correct correctAfter free found] at last
          cases last

end Build

section Decision

variable {s : FileHandler} {filename : Filename} {metadata : FileMetadata}
  {username : Username} {requiredAccess : Nat}

theorem hasAccessLl_table (record : findMetadata s filename = some metadata) :
    (hasAccessLl requiredAccess s filename username).2 = s ∨
      (hasAccessLl requiredAccess s filename username).2 =
        { s with
          accessCache :=
            builtTable s.accessCache filename metadata.accessList } := by
  simp only [hasAccessLl, record]
  split
  · exact .inl rfl
  · split
    · exact .inl rfl
    · exact .inr rfl

theorem hasAccessLl_eq_direct
    (record : findMetadata s filename = some metadata)
    (correct : EntriesCorrect s.accessCache filename metadata.accessList)
    (room : (accessEntries metadata.accessList).length <
      ProbeTable.freeSlots accessCacheSize s.accessCache)
    (free : ':' ∉ username.chars) :
    (hasAccessLl requiredAccess s filename username).1 =
      directAccess requiredAccess metadata username := by
  simp only [hasAccessLl, record, directAccess]
  by_cases owner : metadata.owner = username
  · simp [owner]
  rw [if_neg owner, if_neg owner]
  have after : lookupAccessCache
      (buildAccessCacheForFile s filename metadata.accessList) filename
        username requiredAccess =
      match (listedAccess (accessEntries metadata.accessList)
          username.chars).getLast? with
      | some accessType => accessType &&& requiredAccess = requiredAccess
      | none => false := by
    rw [← lookup_builtTable room correct free]
    rfl
  split
  · rename_i hit
    simp only [lookupAccessCache] at hit
    split at hit
    · rename_i value found
      rw [lookup_of_correct correct free found]
      exact hit.symm
    · cases hit
  · exact after

/-- The entries of all files stay correct. -/
theorem correct_hasAccessLl
    (record : findMetadata s filename = some metadata)
    (room : (accessEntries metadata.accessList).length <
      ProbeTable.freeSlots accessCacheSize s.accessCache)
    {other : Filename} {otherRecord : FileMetadata}
    (recorded : findMetadata s other = some otherRecord)
    (correct : EntriesCorrect s.accessCache other otherRecord.accessList) :
    EntriesCorrect
      (hasAccessLl requiredAccess s filename username).2.accessCache other
      otherRecord.accessList := by
  rcases @hasAccessLl_table s filename metadata username requiredAccess
    record with same | built
  · rw [same]
    exact correct
  · rw [built]
    apply correct_builtTable room _ correct
    rintro rfl
    rw [record] at recorded
    cases recorded
    rfl

/-- Reading and writing are decided as owner and list say, for every pattern
of holes, and no entry becomes wrong. -/
theorem decisions_agree_with_list
    (record : findMetadata s filename = some metadata)
    (correct : EntriesCorrect s.accessCache filename metadata.accessList)
    (room : (accessEntries metadata.accessList).length <
      ProbeTable.freeSlots accessCacheSize s.accessCache)
    (free : ':' ∉ username.chars) :
    (hasReadAccessLl s filename username).1 =
        directAccess 1 metadata username ∧
      (hasWriteAccessLl s filename username).1 =
        directAccess 2 metadata username ∧
      ∀ (other : Filename) (otherRecord : FileMetadata),
        findMetadata s other = some otherRecord →
        EntriesCorrect s.accessCache other otherRecord.accessList →
        EntriesCorrect (hasReadAccessLl s filename username).2.accessCache
            other otherRecord.accessList ∧
          EntriesCorrect
            (hasWriteAccessLl s filename username).2.accessCache other
            otherRecord.accessList := by
  refine ⟨hasAccessLl_eq_direct record correct room free,
    hasAccessLl_eq_direct record correct room free, ?_⟩
  intro other otherRecord recorded correctOther
  exact ⟨correct_hasAccessLl record room recorded correctOther,
    correct_hasAccessLl record room recorded correctOther⟩

end Decision

private def listedReader : Username := CString.copy 63 "bob".toList

private def listedFile : FileMetadata :=
  { newMetadata (CString.copy 255 "f".toList)
      (CString.copy 63 "ann".toList) (CString.copy 63 []) with
    accessList := CString.copy 4095 "ann:RW,bob:R".toList }

private def emptyCacheServer : FileHandler :=
  { freshServer with metadataList := [listedFile] }

theorem decisions_agree_for_reader :
    (hasReadAccessLl emptyCacheServer listedFile.filename listedReader).1 =
        true ∧
      (hasWriteAccessLl emptyCacheServer listedFile.filename
        listedReader).1 = false := by
  have agree := @decisions_agree_with_list emptyCacheServer
    listedFile.filename listedFile listedReader (by decide +kernel)
    (fun _ _ _ valid _ => absurd valid (by
      simp [emptyCacheServer, freshServer,
          initFileHandlerLl]))
    (by
      have listed : (accessEntries listedFile.accessList).length = 2 := by
        decide +kernel
      have free : ProbeTable.freeSlots accessCacheSize
          emptyCacheServer.accessCache = accessCacheSize := by
        simp [ProbeTable.freeSlots, emptyCacheServer, freshServer,
          initFileHandlerLl]
      rw [listed, free]
      decide)
    (by decide +kernel)
  refine ⟨agree.1.trans ?_, agree.2.1.trans ?_⟩
  · decide +kernel
  · decide +kernel

end Dfs.StorageServer
