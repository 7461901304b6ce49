import Dfs.Library.StepRun
import Dfs.StorageServer.AccessControl
import Dfs.StorageServer.DeletedFiles

/-!
# Access decisions and the metadata

A decision is read from the access cache, which is filled from the list of a
file and emptied for the file when the list changes.  The cache is sound as
long as no file is created while entries of a deleted file of the same name
are left in it, and a sound cache answers from the current list.
-/

namespace Dfs.StorageServer

theorem split_at_colon {name : Text} (free : ':' ∉ name) (rest : Text) :
    (name ++ ':' :: rest).takeWhile (· ≠ ':') = name ∧
      (name ++ ':' :: rest).dropWhile (· ≠ ':') = ':' :: rest := by
  have plain : ∀ byte ∈ name, decide (byte ≠ ':') = true := by
    intro byte member
    have different : byte ≠ ':' := fun same => free (same ▸ member)
    simpa using different
  constructor
  · rw [List.takeWhile_append_of_pos plain]
    simp
  · rw [List.dropWhile_append_of_pos plain]
    simp

theorem parseAccessEntry_append {name : Text} (free : ':' ∉ name)
    (rest : Text) :
    parseAccessEntry (name ++ ':' :: rest) =
      if rest = ['R'] then some (name, 1)
      else if rest = ['R', 'W'] then some (name, 3)
      else none := by
  obtain ⟨taken, dropped⟩ := split_at_colon free rest
  unfold parseAccessEntry
  rw [dropped]
  simp only [taken]

/-- An entry that counts is a name with `:R` or `:RW`. -/
theorem parseAccessEntry_eq_some {entry name : Text} {accessType : Nat}
    (parsed : parseAccessEntry entry = some (name, accessType)) :
    ':' ∉ name ∧
      (accessType = 1 ∧ entry = name ++ ":R".toList ∨
        accessType = 3 ∧ entry = name ++ ":RW".toList) := by
  by_cases colon : ':' ∈ entry
  · obtain ⟨front, rest, rfl, free⟩ := List.eq_append_cons_of_mem colon
    rw [parseAccessEntry_append free] at parsed
    split at parsed
    · rename_i read
      cases parsed
      exact ⟨free, .inl ⟨rfl, by rw [read]; rfl⟩⟩
    · split at parsed
      · rename_i write
        cases parsed
        exact ⟨free, .inr ⟨rfl, by rw [write]; rfl⟩⟩
      · cases parsed
  · have nothing : entry.dropWhile (· ≠ ':') = [] := by
      rw [List.dropWhile_eq_nil_iff]
      intro byte member
      have different : byte ≠ ':' := fun same => colon (same ▸ member)
      simpa using different
    unfold parseAccessEntry at parsed
    rw [nothing] at parsed
    cases parsed

/-- The access types that the entries give to one user, in order. -/
def listedAccess (entries : List Text) (username : Text) : List Nat :=
  entries.filterMap fun entry =>
    match parseAccessEntry entry with
    | some (name, accessType) =>
        if name = username then some accessType else none
    | none => none

def accessEntries (accessList : DataText) : List Text :=
  CText.strtok ',' accessList.chars

theorem mem_listedAccess {entries : List Text} {username : Text}
    {accessType : Nat} :
    accessType ∈ listedAccess entries username ↔
      ∃ entry ∈ entries,
        parseAccessEntry entry = some (username, accessType) := by
  unfold listedAccess
  rw [List.mem_filterMap]
  constructor
  · rintro ⟨entry, member, listed⟩
    refine ⟨entry, member, ?_⟩
    cases parsed : parseAccessEntry entry with
    | none => simp [parsed] at listed
    | some parts =>
        obtain ⟨name, found⟩ := parts
        simp only [parsed] at listed
        split at listed
        · rename_i same
          cases listed
          rw [same]
        · cases listed
  · rintro ⟨entry, member, parsed⟩
    exact ⟨entry, member, by simp [parsed]⟩

/-- What is listed for a user is reading, or reading and writing. -/
theorem listedAccess_cases {entries : List Text} {username : Text}
    {accessType : Nat}
    (listed : accessType ∈ listedAccess entries username) :
    (accessType = 1 ∧ username ++ ":R".toList ∈ entries) ∨
      accessType = 3 ∧ username ++ ":RW".toList ∈ entries := by
  obtain ⟨entry, member, parsed⟩ := mem_listedAccess.mp listed
  obtain ⟨_, ⟨read, same⟩ | ⟨write, same⟩⟩ := parseAccessEntry_eq_some parsed
  · exact .inl ⟨read, same ▸ member⟩
  · exact .inr ⟨write, same ▸ member⟩

theorem one_mem_listedAccess {entries : List Text} {username : Text}
    (free : ':' ∉ username) :
    1 ∈ listedAccess entries username ↔
      username ++ ":R".toList ∈ entries := by
  constructor
  · intro listed
    rcases listedAccess_cases listed with ⟨_, member⟩ | ⟨absurd, _⟩
    · exact member
    · cases absurd
  · intro member
    refine mem_listedAccess.mpr ⟨_, member, ?_⟩
    exact (parseAccessEntry_append free ['R']).trans (by simp)

theorem three_mem_listedAccess {entries : List Text} {username : Text}
    (free : ':' ∉ username) :
    3 ∈ listedAccess entries username ↔
      username ++ ":RW".toList ∈ entries := by
  constructor
  · intro listed
    rcases listedAccess_cases listed with ⟨absurd, _⟩ | ⟨_, member⟩
    · cases absurd
    · exact member
  · intro member
    refine mem_listedAccess.mpr ⟨_, member, ?_⟩
    exact (parseAccessEntry_append free ['R', 'W']).trans (by simp)

theorem accessCacheKey_username (filename : Filename) (username : Username) :
    accessCacheKey filename username.chars =
      filename.chars ++ ':' :: username.chars := by
  unfold accessCacheKey
  apply List.take_of_length_le
  have fileBound := filename.fits
  have userBound := username.fits
  simp only [List.length_append, List.length_cons]
  omega

/-- Only the entries of one user of one file have the key of that user. -/
theorem accessCacheKey_injective {filename other : Filename}
    {username : Username} {name : Text} (free : ':' ∉ filename.chars)
    (otherFree : ':' ∉ other.chars)
    (same : accessCacheKey other name =
      accessCacheKey filename username.chars) :
    other = filename ∧ name = username.chars := by
  rw [accessCacheKey_username] at same
  have whole : accessCacheKey other name = other.chars ++ ':' :: name := by
    unfold accessCacheKey at same ⊢
    apply List.take_of_length_le
    have lengths := congrArg List.length same
    have fileBound := filename.fits
    have userBound := username.fits
    simp only [List.length_take, List.length_append, List.length_cons]
      at lengths ⊢
    omega
  rw [whole] at same
  have sameFile : other.chars = filename.chars := by
    rw [← (split_at_colon otherFree name).1, same,
      (split_at_colon free username.chars).1]
  rw [sameFile] at same
  have sameName := List.append_cancel_left same
  exact ⟨CString.ext sameFile, (List.cons_eq_cons.mp sameName).2⟩

theorem prefix_accessCacheKey (filename : Filename) (name : Text) :
    (filename.chars ++ [':']).isPrefixOf (accessCacheKey filename name) =
      true := by
  rw [List.isPrefixOf_iff_prefix]
  unfold accessCacheKey
  rw [List.prefix_take_iff]
  refine ⟨⟨name, by simp⟩, ?_⟩
  have bound := filename.fits
  simp only [List.length_append, List.length_cons, List.length_nil]
  omega

section

variable {s : FileHandler} {filename : Filename} {metadata : FileMetadata}
  {username : Username} {table : ProbeTable Text Nat}

/-- An entry of a file with a record is about its owner or repeats its
list. -/
def EntrySound (s : FileHandler) (slot : ProbeSlot Text Nat) : Prop :=
  ∃ (filename : Filename) (name : Text), ':' ∉ filename.chars ∧
    slot.key = accessCacheKey filename name ∧
    ∀ metadata, findMetadata s filename = some metadata →
      name = metadata.owner.chars ∨
        slot.value ∈ listedAccess (accessEntries metadata.accessList) name

def TableSound (s : FileHandler) (table : ProbeTable Text Nat) : Prop :=
  ∀ position, (table position).valid = true → EntrySound s (table position)

/-- What a sound cache answers about a user other than the owner is listed. -/
theorem listed_of_lookup (sound : TableSound s table)
    (record : findMetadata s filename = some metadata)
    (guest : metadata.owner ≠ username) (free : ':' ∉ filename.chars)
    {value : Nat}
    (hit : table.lookup accessCacheSize hashAccessKey
      (accessCacheKey filename username.chars) = some value) :
    value ∈ listedAccess (accessEntries metadata.accessList)
      username.chars := by
  obtain ⟨position, slot⟩ := ProbeTable.lookup_sound hit
  obtain ⟨other, name, otherFree, key, listed⟩ :=
    sound position (by rw [slot])
  rw [slot] at key listed
  obtain ⟨rfl, rfl⟩ := accessCacheKey_injective free otherFree key.symm
  rcases listed metadata record with owner | member
  · exact (guest (CString.ext owner.symm)).elim
  · exact member

theorem tableSound_cacheAccessEntry (sound : TableSound s table)
    (record : findMetadata s filename = some metadata)
    (free : ':' ∉ filename.chars) {entry : Text}
    (member : entry ∈ accessEntries metadata.accessList) :
    TableSound s (cacheAccessEntry filename table entry) := by
  unfold cacheAccessEntry
  cases parsed : parseAccessEntry entry with
  | none => exact sound
  | some parts =>
      obtain ⟨name, accessType⟩ := parts
      intro position valid
      simp only at valid ⊢
      rcases ProbeTable.insert_cases accessCacheSize hashAccessKey table
          (accessCacheKey filename name) accessType position with
        same | ⟨_, written⟩
      · rw [same] at valid ⊢
        exact sound position valid
      · rw [written]
        refine ⟨filename, name, free, rfl, ?_⟩
        intro found recorded
        rw [record] at recorded
        cases recorded
        exact .inr (mem_listedAccess.mpr ⟨entry, member, parsed⟩)

theorem tableSound_build (sound : TableSound s table)
    (record : findMetadata s filename = some metadata)
    (free : ':' ∉ filename.chars) {entries : List Text}
    (listed : ∀ entry ∈ entries,
      entry ∈ accessEntries metadata.accessList) :
    TableSound s (entries.foldl (cacheAccessEntry filename) table) := by
  induction entries generalizing table with
  | nil => exact sound
  | cons entry entries ih =>
      exact ih (tableSound_cacheAccessEntry sound record free
          (listed entry (by simp)))
        (fun other member => listed other (by simp [member]))

theorem hasRoom_of_cacheAccessEntry {entry : Text}
    (room : ProbeTable.HasRoom accessCacheSize
      (cacheAccessEntry filename table entry)) :
    ProbeTable.HasRoom accessCacheSize table := by
  unfold cacheAccessEntry at room
  split at room
  · exact room
  · obtain ⟨first, second, firstBound, secondBound, different, firstFree,
      secondFree⟩ := room
    exact ⟨first, second, firstBound, secondBound, different,
      ProbeTable.free_of_insert firstFree,
      ProbeTable.free_of_insert secondFree⟩

theorem hasRoom_of_build {entries : List Text}
    (room : ProbeTable.HasRoom accessCacheSize
      (entries.foldl (cacheAccessEntry filename) table)) :
    ProbeTable.HasRoom accessCacheSize table := by
  induction entries generalizing table with
  | nil => exact room
  | cons entry entries ih => exact hasRoom_of_cacheAccessEntry (ih room)

theorem hashAccessKey_lt (key : Text) :
    hashAccessKey key < accessCacheSize :=
  Nat.mod_lt _ (by decide)

/-- The last entry of a user decides what is found for the user. -/
theorem lookup_build (free : ':' ∉ filename.chars) {entries : List Text}
    (room : ProbeTable.HasRoom accessCacheSize
      (entries.foldl (cacheAccessEntry filename) table))
    {value : Nat}
    (last : (listedAccess entries username.chars).getLast?.or
      (table.lookup accessCacheSize hashAccessKey
        (accessCacheKey filename username.chars)) = some value) :
    ProbeTable.lookup accessCacheSize hashAccessKey
      (entries.foldl (cacheAccessEntry filename) table)
      (accessCacheKey filename username.chars) = some value := by
  induction entries generalizing table with
  | nil => simpa [listedAccess] using last
  | cons entry entries ih =>
      have roomHere := hasRoom_of_cacheAccessEntry (hasRoom_of_build room)
      apply ih room
      unfold cacheAccessEntry
      cases parsed : parseAccessEntry entry with
      | none =>
          have skipped : listedAccess (entry :: entries) username.chars =
              listedAccess entries username.chars := by
            simp [listedAccess, parsed]
          rw [skipped] at last
          exact last
      | some parts =>
          obtain ⟨name, accessType⟩ := parts
          simp only
          by_cases same : name = username.chars
          · have listed : listedAccess (entry :: entries) username.chars =
                accessType :: listedAccess entries username.chars := by
              simp [listedAccess, parsed, same]
            have inserted := ProbeTable.lookup_insert_self (roomHere.room
              (hashAccessKey_lt (accessCacheKey filename username.chars)))
              accessType
            rw [listed, List.getLast?_cons] at last
            rw [same, inserted, ← last]
            cases (listedAccess entries username.chars).getLast? with
            | none => simp
            | some later => simp
          · have skipped : listedAccess (entry :: entries) username.chars =
                listedAccess entries username.chars := by
              simp [listedAccess, parsed, same]
            have otherKey : accessCacheKey filename username.chars ≠
                accessCacheKey filename name := fun equal =>
              same (accessCacheKey_injective free free equal.symm).2
            rw [skipped] at last
            cases later : (listedAccess entries username.chars).getLast? with
            | none =>
                rw [later] at last
                exact ProbeTable.lookup_insert_of_ne otherKey accessType last
            | some decided => simpa [later] using last

/-- The bits of the required access are among those listed. -/
theorem listed_of_hasAccessLl {requiredAccess : Nat}
    (sound : TableSound s s.accessCache)
    (record : findMetadata s filename = some metadata)
    (guest : metadata.owner ≠ username) (free : ':' ∉ filename.chars)
    (granted : (hasAccessLl requiredAccess s filename username).1 = true) :
    ∃ value ∈ listedAccess (accessEntries metadata.accessList)
        username.chars, value &&& requiredAccess = requiredAccess := by
  have lookedUp : ∀ table, TableSound s table →
      lookupAccessCache { s with accessCache := table } filename username
        requiredAccess = true →
      ∃ value ∈ listedAccess (accessEntries metadata.accessList)
        username.chars, value &&& requiredAccess = requiredAccess := by
    intro table tableSound hit
    unfold lookupAccessCache at hit
    split at hit
    · rename_i value found
      exact ⟨value, listed_of_lookup tableSound record guest free found,
        by simpa using hit⟩
    · cases hit
  unfold hasAccessLl at granted
  rw [record] at granted
  simp only [guest, ↓reduceIte] at granted
  split at granted
  · rename_i hit
    exact lookedUp s.accessCache sound hit
  · exact lookedUp _ (tableSound_build sound record free
      (fun _ member => member)) granted

/-- The last entry of a user is enough for a decision in its favour. -/
theorem hasAccessLl_of_last {requiredAccess value : Nat}
    (record : findMetadata s filename = some metadata)
    (free : ':' ∉ filename.chars)
    (room : ProbeTable.HasRoom accessCacheSize
      (hasAccessLl requiredAccess s filename username).2.accessCache)
    (last : (listedAccess (accessEntries metadata.accessList)
      username.chars).getLast? = some value)
    (enough : value &&& requiredAccess = requiredAccess) :
    (hasAccessLl requiredAccess s filename username).1 = true := by
  unfold hasAccessLl at room ⊢
  rw [record] at room ⊢
  simp only at room ⊢
  split
  · rfl
  · rename_i guest
    split
    · rfl
    · rename_i missed
      simp only [guest, missed, ↓reduceIte, Bool.false_eq_true] at room
      have found := @lookup_build filename username s.accessCache free
        (accessEntries metadata.accessList) room value (by rw [last]; rfl)
      unfold lookupAccessCache buildAccessCacheForFile
      unfold accessEntries at found
      simp only [found, enough, decide_true]

end

section

variable {s t : FileHandler} {filename other : Filename}
  {table : ProbeTable Text Nat}

/-- A table stays sound when the record of one file changes, if its entries
for that file are sound for the new record. -/
theorem tableSound_of_others (sound : TableSound s table)
    (others : ∀ other, other ≠ filename →
      findMetadata t other = findMetadata s other)
    (own : ∀ position name, (table position).valid = true →
      (table position).key = accessCacheKey filename name →
      ∀ metadata, findMetadata t filename = some metadata →
        name = metadata.owner.chars ∨
          (table position).value ∈
            listedAccess (accessEntries metadata.accessList) name) :
    TableSound t table := by
  intro position valid
  obtain ⟨other, name, free, key, listed⟩ := sound position valid
  refine ⟨other, name, free, key, ?_⟩
  by_cases same : other = filename
  · subst same
    exact own position name valid key
  · rw [others other same]
    exact listed

/-- What is valid after an invalidation was valid before and is about another
file. -/
theorem valid_of_invalidated {position : Nat}
    (valid : ((invalidateAccessCacheForFile s filename).accessCache
      position).valid = true) :
    (invalidateAccessCacheForFile s filename).accessCache position =
        s.accessCache position ∧
      ∀ name, (s.accessCache position).key ≠
        accessCacheKey filename name := by
  unfold invalidateAccessCacheForFile at valid ⊢
  simp only at valid ⊢
  split at valid
  · cases valid
  · rename_i elsewhere
    rw [if_neg elsewhere]
    refine ⟨rfl, ?_⟩
    intro name key
    apply elsewhere
    refine ⟨valid, ?_⟩
    rw [key]
    exact prefix_accessCacheKey filename name

theorem tableSound_invalidated (sound : TableSound s s.accessCache)
    (others : ∀ other, other ≠ filename →
      findMetadata t other = findMetadata s other) :
    TableSound t
      (invalidateAccessCacheForFile s filename).accessCache := by
  have kept : TableSound s
      (invalidateAccessCacheForFile s filename).accessCache := by
    intro position valid
    obtain ⟨same, _⟩ := valid_of_invalidated valid
    rw [same] at valid ⊢
    exact sound position valid
  apply tableSound_of_others kept others
  intro position name valid key
  obtain ⟨same, elsewhere⟩ := valid_of_invalidated valid
  rw [same] at key
  exact (elsewhere name key).elim

end

/-- A name that cannot be mistaken for a part of a list or of a key. -/
def PlainName (name : Text) : Prop :=
  ':' ∉ name ∧ ',' ∉ name

inductive AccessOperation where
  | createFile (filename : Filename) (owner : Username) (now : TimeText)
  | deleteFile (filename : Filename)
  | addUserAccess (filename : Filename) (username : Username)
      (accessType : Int)
  | removeUserAccess (filename : Filename) (username : Username)
  | hasReadAccess (filename : Filename) (username : Username)
  | hasWriteAccess (filename : Filename) (username : Username)
  deriving DecidableEq, Repr

def accessStep (s : FileHandler) : AccessOperation → FileHandler
  | .createFile filename owner now => (createFileLl s filename owner now).1
  | .deleteFile filename => (deleteFileLl s filename).1
  | .addUserAccess filename username accessType =>
      (addUserAccessLl s filename username accessType).1
  | .removeUserAccess filename username =>
      (removeUserAccessLl s filename username).1
  | .hasReadAccess filename username =>
      (hasReadAccessLl s filename username).2
  | .hasWriteAccess filename username =>
      (hasWriteAccessLl s filename username).2

def AccessOperation.Plain : AccessOperation → Prop
  | .createFile filename owner _ =>
      PlainName filename.chars ∧ PlainName owner.chars
  | .deleteFile filename => PlainName filename.chars
  | .addUserAccess filename username _ =>
      PlainName filename.chars ∧ PlainName username.chars
  | .removeUserAccess filename username =>
      PlainName filename.chars ∧ PlainName username.chars
  | .hasReadAccess filename username =>
      PlainName filename.chars ∧ PlainName username.chars
  | .hasWriteAccess filename username =>
      PlainName filename.chars ∧ PlainName username.chars

/-- A file is created only when the cache has no entry under its name, except
for the new owner. -/
def CreatesFresh (s : FileHandler) : AccessOperation → Prop
  | .createFile filename owner now =>
      (createFileLl s filename owner now).2 = 0 →
      ∀ position, (s.accessCache position).valid = true →
        (filename.chars ++ [':']).isPrefixOf (s.accessCache position).key →
        (s.accessCache position).key = accessCacheKey filename owner.chars
  | _ => True

/-- The cache agrees with the records. -/
structure AccessSound (s : FileHandler) : Prop where
  nodup : s.names.Nodup
  table : TableSound s s.accessCache

section

variable {s : FileHandler} {filename : Filename}

theorem accessSound_createFileLl (sound : AccessSound s) {owner : Username}
    {now : TimeText} (free : ':' ∉ filename.chars)
    (fresh : CreatesFresh s (.createFile filename owner now)) :
    AccessSound (createFileLl s filename owner now).1 := by
  unfold CreatesFresh at fresh
  unfold createFileLl at fresh ⊢
  split
  · exact sound
  · rename_i unrecorded
    split
    · exact sound
    · rename_i notFull
      split
      · exact sound
      · rename_i written
        have absent := Option.not_isSome_iff_eq_none.mp unrecorded
        have unknown := findMetadata_eq_none_iff.mp absent
        have entries := fresh (by simp [unrecorded, notFull, written])
        refine ⟨?_, ?_⟩
        · have names : (s.metadataList ++
              [newMetadata filename owner now]).map FileMetadata.filename =
              s.names ++ [filename] := by
            simp [FileHandler.names, newMetadata]
          show ((s.metadataList ++ [newMetadata filename owner now]).map
            FileMetadata.filename).Nodup
          rw [names]
          exact nodup_concat sound.nodup unknown
        · apply @tableSound_of_others s _ filename _ sound.table
          · intro other different
            simp [findMetadata, saveMetadataLl, newMetadata, different.symm]
          · intro position name valid key metadata recorded
            have made : (s.metadataList ++
                [newMetadata filename owner now]).find?
                (fun record => record.filename = filename) =
                some (newMetadata filename owner now) := by
              unfold findMetadata at absent
              rw [List.find?_append, absent]
              simp [newMetadata]
            have created : some metadata =
                some (newMetadata filename owner now) :=
              recorded.symm.trans made
            have ownKey := entries position valid
              (by rw [key]; exact prefix_accessCacheKey filename name)
            rw [key] at ownKey
            cases created
            exact .inl (accessCacheKey_injective free free ownKey).2

theorem accessSound_deleteFileLl (sound : AccessSound s) :
    AccessSound (deleteFileLl s filename).1 := by
  obtain ⟨fileCache, marked⟩ := markForDeletion_eq s filename
  unfold deleteFileLl
  split
  · exact sound
  · rw [marked]
    simp only
    split
    · exact ⟨sound.nodup, sound.table⟩
    · have names := @names_eraseRecord filename s.metadataList
      refine ⟨?_, ?_⟩
      · show ((s.metadataList.eraseIdx (s.metadataList.findIdx
          fun record => record.filename = filename)).map
          FileMetadata.filename).Nodup
        rw [names]
        exact sound.nodup.erase filename
      · apply @tableSound_of_others s _ filename _ sound.table
        · intro other different
          exact find?_eraseRecord s.metadataList different
        · intro position name valid key metadata recorded
          have gone : filename ∉ (s.metadataList.eraseIdx
              (s.metadataList.findIdx fun record =>
                record.filename = filename)).map FileMetadata.filename := by
            rw [names]
            exact sound.nodup.not_mem_erase
          rw [findMetadata_eq_none_iff.mpr gone] at recorded
          cases recorded

theorem accessSound_changed (sound : AccessSound s)
    {change : FileMetadata → FileMetadata}
    (named : ∀ record, (change record).filename = record.filename) :
    AccessSound (saveMetadataLl (invalidateAccessCacheForFile
      (updateMetadata s filename change) filename)) := by
  refine ⟨?_, ?_⟩
  · have names := @names_updateMetadata filename s change named
    exact names ▸ sound.nodup
  · apply @tableSound_invalidated s _ filename sound.table
    intro other different
    exact find?_modifyRecord s.metadataList named different

theorem accessSound_hasAccessLl (sound : AccessSound s)
    (free : ':' ∉ filename.chars) (requiredAccess : Nat)
    (username : Username) :
    AccessSound (hasAccessLl requiredAccess s filename username).2 := by
  unfold hasAccessLl
  cases record : findMetadata s filename with
  | none => exact sound
  | some metadata =>
      simp only
      split
      · exact sound
      · split
        · exact sound
        · exact ⟨sound.nodup, tableSound_build sound.table record free
            (fun _ member => member)⟩

theorem accessSound_step (sound : AccessSound s)
    {operation : AccessOperation} (plain : operation.Plain)
    (fresh : CreatesFresh s operation) :
    AccessSound (accessStep s operation) := by
  cases operation with
  | createFile filename owner now =>
      exact accessSound_createFileLl sound plain.1.1 fresh
  | deleteFile filename => exact accessSound_deleteFileLl sound
  | addUserAccess filename username accessType =>
      unfold accessStep addUserAccessLl
      simp only
      split
      · exact sound
      · exact accessSound_changed sound fun _ => rfl
  | removeUserAccess filename username =>
      unfold accessStep removeUserAccessLl
      simp only
      split
      · exact sound
      · exact accessSound_changed sound fun _ => rfl
  | hasReadAccess filename username =>
      exact accessSound_hasAccessLl sound plain.1.1 1 username
  | hasWriteAccess filename username =>
      exact accessSound_hasAccessLl sound plain.1.1 2 username

theorem accessSound_cold (nodup : s.names.Nodup)
    (cold : ∀ position, (s.accessCache position).valid = false) :
    AccessSound s := by
  refine ⟨nodup, ?_⟩
  intro position valid
  rw [cold position] at valid
  cases valid

end

/-- The server after a list of operations. -/
def runAccess : FileHandler → List AccessOperation → FileHandler :=
  StepRun.run accessStep

/-- What the metadata says about reading. -/
def MayRead (s : FileHandler) (filename : Filename) (username : Username) :
    Prop :=
  ∃ metadata, findMetadata s filename = some metadata ∧
    (metadata.owner = username ∨
      username.chars ++ ":R".toList ∈ accessEntries metadata.accessList ∨
      username.chars ++ ":RW".toList ∈ accessEntries metadata.accessList)

/-- What the metadata says about writing. -/
def MayWrite (s : FileHandler) (filename : Filename) (username : Username) :
    Prop :=
  ∃ metadata, findMetadata s filename = some metadata ∧
    (metadata.owner = username ∨
      username.chars ++ ":RW".toList ∈ accessEntries metadata.accessList)

/-- A user with an entry `:RW` has no entry `:R` behind it. -/
def WriteEntryLast (s : FileHandler) (filename : Filename)
    (username : Username) : Prop :=
  ∀ metadata ∈ findMetadata s filename,
    3 ∈ listedAccess (accessEntries metadata.accessList) username.chars →
    (listedAccess (accessEntries metadata.accessList)
      username.chars).getLast? = some 3

section

variable {s : FileHandler} {filename : Filename} {username : Username}

theorem hasAccessLl_of_absent (requiredAccess : Nat)
    (absent : findMetadata s filename = none) :
    (hasAccessLl requiredAccess s filename username).1 = false := by
  simp [hasAccessLl, absent]

theorem hasAccessLl_of_owner (requiredAccess : Nat)
    {metadata : FileMetadata}
    (record : findMetadata s filename = some metadata)
    (owner : metadata.owner = username) :
    (hasAccessLl requiredAccess s filename username).1 = true := by
  simp [hasAccessLl, record, owner]

/-- A sound cache decides by the list, if the last entry of the user is
sufficient whenever one is. -/
theorem hasAccessLl_iff {requiredAccess : Nat} (sound : AccessSound s)
    (free : ':' ∉ filename.chars)
    (room : ProbeTable.HasRoom accessCacheSize
      (hasAccessLl requiredAccess s filename username).2.accessCache)
    (lastDecides : ∀ metadata ∈ findMetadata s filename,
      ∀ value ∈ listedAccess (accessEntries metadata.accessList)
          username.chars, value &&& requiredAccess = requiredAccess →
        ∃ last, (listedAccess (accessEntries metadata.accessList)
            username.chars).getLast? = some last ∧
          last &&& requiredAccess = requiredAccess) :
    (hasAccessLl requiredAccess s filename username).1 = true ↔
      ∃ metadata, findMetadata s filename = some metadata ∧
        (metadata.owner = username ∨
          ∃ value ∈ listedAccess (accessEntries metadata.accessList)
            username.chars, value &&& requiredAccess = requiredAccess) := by
  constructor
  · intro granted
    cases record : findMetadata s filename with
    | none => simp [hasAccessLl_of_absent requiredAccess record] at granted
    | some metadata =>
        refine ⟨metadata, rfl, ?_⟩
        by_cases owner : metadata.owner = username
        · exact .inl owner
        · exact .inr
            (listed_of_hasAccessLl sound.table record owner free granted)
  · rintro ⟨metadata, record, owner | ⟨value, listed, enough⟩⟩
    · exact hasAccessLl_of_owner requiredAccess record owner
    · obtain ⟨last, found, lastEnough⟩ :=
        lastDecides metadata record value listed enough
      exact hasAccessLl_of_last record free room found lastEnough

theorem hasReadAccessLl_iff (sound : AccessSound s)
    (free : ':' ∉ filename.chars) (freeUser : ':' ∉ username.chars)
    (room : ProbeTable.HasRoom accessCacheSize
      (hasReadAccessLl s filename username).2.accessCache) :
    (hasReadAccessLl s filename username).1 = true ↔
      MayRead s filename username := by
  have sufficient : ∀ {entries : List Text} {value : Nat},
      value ∈ listedAccess entries username.chars → value &&& 1 = 1 := by
    intro entries value listed
    rcases listedAccess_cases listed with ⟨read, _⟩ | ⟨write, _⟩
    · rw [read]
      rfl
    · rw [write]
      rfl
  refine (hasAccessLl_iff sound free room ?_).trans ?_
  · intro metadata _ value listed _
    have more := List.ne_nil_of_mem listed
    exact ⟨_, List.getLast?_eq_some_getLast more,
      sufficient (List.getLast_mem more)⟩
  · constructor
    · rintro ⟨metadata, record, owner | ⟨value, listed, _⟩⟩
      · exact ⟨metadata, record, .inl owner⟩
      · rcases listedAccess_cases listed with ⟨_, read⟩ | ⟨_, write⟩
        · exact ⟨metadata, record, .inr (.inl read)⟩
        · exact ⟨metadata, record, .inr (.inr write)⟩
    · rintro ⟨metadata, record, owner | read | write⟩
      · exact ⟨metadata, record, .inl owner⟩
      · exact ⟨metadata, record,
          .inr ⟨1, (one_mem_listedAccess freeUser).mpr read, rfl⟩⟩
      · exact ⟨metadata, record,
          .inr ⟨3, (three_mem_listedAccess freeUser).mpr write, rfl⟩⟩

theorem hasWriteAccessLl_iff (sound : AccessSound s)
    (free : ':' ∉ filename.chars) (freeUser : ':' ∉ username.chars)
    (room : ProbeTable.HasRoom accessCacheSize
      (hasWriteAccessLl s filename username).2.accessCache)
    (writeLast : WriteEntryLast s filename username) :
    (hasWriteAccessLl s filename username).1 = true ↔
      MayWrite s filename username := by
  have writing : ∀ {entries : List Text} {value : Nat},
      value ∈ listedAccess entries username.chars → value &&& 2 = 2 →
      value = 3 := by
    intro entries value listed enough
    rcases listedAccess_cases listed with ⟨read, _⟩ | ⟨write, _⟩
    · rw [read] at enough
      cases enough
    · exact write
  refine (hasAccessLl_iff sound free room ?_).trans ?_
  · intro metadata record value listed enough
    have write := writing listed enough
    subst write
    exact ⟨3, writeLast metadata record listed, rfl⟩
  · constructor
    · rintro ⟨metadata, record, owner | ⟨value, listed, enough⟩⟩
      · exact ⟨metadata, record, .inl owner⟩
      · have write := writing listed enough
        subst write
        exact ⟨metadata, record,
          .inr ((three_mem_listedAccess freeUser).mp listed)⟩
    · rintro ⟨metadata, record, owner | write⟩
      · exact ⟨metadata, record, .inl owner⟩
      · exact ⟨metadata, record,
          .inr ⟨3, (three_mem_listedAccess freeUser).mpr write, rfl⟩⟩

end

/-- Access decisions follow the current metadata in every run that creates no
file over stale entries of its name. -/
theorem decisions_follow_metadata {start : FileHandler}
    (nodup : start.names.Nodup)
    (cold : ∀ position, (start.accessCache position).valid = false)
    {operations : List AccessOperation}
    (steps : StepRun.AllSteps accessStep
      (fun s operation => operation.Plain ∧ CreatesFresh s operation) start
      operations)
    {filename : Filename} {username : Username}
    (plainFile : PlainName filename.chars)
    (plainUser : PlainName username.chars) :
    (ProbeTable.HasRoom accessCacheSize (hasReadAccessLl
        (runAccess start operations) filename username).2.accessCache →
      ((hasReadAccessLl (runAccess start operations) filename
          username).1 = true ↔
        MayRead (runAccess start operations) filename username)) ∧
    (ProbeTable.HasRoom accessCacheSize (hasWriteAccessLl
        (runAccess start operations) filename username).2.accessCache →
      WriteEntryLast (runAccess start operations) filename username →
      ((hasWriteAccessLl (runAccess start operations) filename
          username).1 = true ↔
        MayWrite (runAccess start operations) filename username)) := by
  have sound : AccessSound (runAccess start operations) :=
    @StepRun.invariant _ _ accessStep
      (fun s operation => operation.Plain ∧ CreatesFresh s operation)
      AccessSound
      (fun _ _ holds met => accessSound_step holds met.1 met.2) start
      operations (accessSound_cold nodup cold) steps
  exact ⟨hasReadAccessLl_iff sound plainFile.1 plainUser.1,
    hasWriteAccessLl_iff sound plainFile.1 plainUser.1⟩

private def bob : Username := CString.copy 63 "bob".toList

private def carol : Username := CString.copy 63 "carol".toList

private def grantBob : List AccessOperation :=
  [.createFile sampleFile sampleUser sampleTime,
    .addUserAccess sampleFile bob 3]

theorem decisions_follow_grant :
    (hasReadAccessLl (runAccess freshServer grantBob) sampleFile
        bob).1 = true ∧
      (hasWriteAccessLl (runAccess freshServer grantBob) sampleFile
        bob).1 = true := by
  have record : findMetadata (runAccess freshServer grantBob)
      sampleFile = some
        { newMetadata sampleFile sampleUser sampleTime with
          accessList := CString.copy 4095 "alice:RW,bob:RW".toList } := by
    decide +kernel
  have entry : bob.chars ++ ":RW".toList ∈ accessEntries
      (CString.copy 4095 "alice:RW,bob:RW".toList) := by
    decide +kernel
  have last : WriteEntryLast (runAccess freshServer grantBob)
      sampleFile bob := by
    intro metadata found _
    cases record.symm.trans found
    decide +kernel
  have followed := @decisions_follow_metadata freshServer
    List.nodup_nil (fun _ => rfl) grantBob
    ⟨⟨by unfold AccessOperation.Plain PlainName; decide +kernel,
        fun _ _ valid => by cases valid⟩,
      ⟨by unfold AccessOperation.Plain PlainName; decide +kernel, trivial⟩,
      trivial⟩ sampleFile bob
    (by unfold PlainName; decide +kernel) (by unfold PlainName; decide +kernel)
  constructor
  · refine (followed.1 ⟨0, 1, ?_⟩).mpr ⟨_, record, .inr (.inr entry)⟩
    decide +kernel
  · refine (followed.2 ⟨0, 1, ?_⟩ last).mpr ⟨_, record, .inr entry⟩
    decide +kernel

private def staleRun : List AccessOperation :=
  [.createFile sampleFile sampleUser sampleTime,
    .addUserAccess sampleFile bob accessRead,
    .hasReadAccess sampleFile bob,
    .deleteFile sampleFile,
    .createFile sampleFile carol sampleTime]

/-- A reader of a deleted file can read the new file of another owner. -/
theorem stale_reader_keeps_access :
    ¬((hasReadAccessLl (runAccess freshServer staleRun) sampleFile
        bob).1 = true ↔
      MayRead (runAccess freshServer staleRun) sampleFile bob) := by
  have record : findMetadata (runAccess freshServer staleRun)
      sampleFile = some (newMetadata sampleFile carol sampleTime) := by
    decide +kernel
  intro follows
  obtain ⟨metadata, found, listed⟩ := follows.mp (by decide +kernel)
  cases record.symm.trans found
  revert listed
  decide +kernel

private def shadowRun : List AccessOperation :=
  [.createFile sampleFile sampleUser sampleTime,
    .addUserAccess sampleFile (CString.copy 63 "xbob".toList) 3,
    .addUserAccess sampleFile (CString.copy 63 "ybob".toList) 3,
    .addUserAccess sampleFile carol accessRead,
    .addUserAccess sampleFile bob 3,
    .addUserAccess sampleFile bob accessRead]

end Dfs.StorageServer
