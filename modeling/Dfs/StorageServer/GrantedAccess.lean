import Dfs.StorageServer.CacheAgreement

/-!
# What a grant adds

A grant appends `,user:R` or `,user:RW` through a buffer of 64 bytes to a list
of at most 4095, and either can cut the entry.  A cut entry gives nothing, or
reading in place of writing; the entries before it count as they did.
-/

namespace Dfs.StorageServer

def accessLetters (accessType : Int) : Text :=
  if accessType = accessRead then ['R'] else ['R', 'W']

/-- The bits that a complete entry gives. -/
def accessBits (accessType : Int) : Nat :=
  if accessType = accessRead then 1 else 3

def grantedEntry (username : Username) (accessType : Int) : Text :=
  username.chars ++ ':' :: accessLetters accessType

theorem accessString_eq (username : Username) (accessType : Int) :
    accessString username accessType =
      (',' :: grantedEntry username accessType).take 63 := by
  unfold accessString grantedEntry accessLetters
  split
  · rfl
  · rfl

/-- The number of bytes of the new entry and its comma that are kept. -/
def keptBytes (accessList : DataText) : Nat :=
  min 63 (4095 - accessList.chars.length)

/-- What is kept of the new entry. -/
def keptEntry (accessList : DataText) (username : Username)
    (accessType : Int) : Text :=
  (grantedEntry username accessType).take (keptBytes accessList - 1)

theorem nul_not_mem_grantedEntry (username : Username) (accessType : Int) :
    CText.nul ∉ grantedEntry username accessType := by
  have letters : CText.nul ∉ ':' :: accessLetters accessType := by
    unfold accessLetters
    split
    · decide
    · decide
  intro found
  rcases List.mem_append.mp found with inName | inLetters
  · exact username.nulFree inName
  · exact letters inLetters

theorem grantedList_chars (accessList : DataText) (username : Username)
    (accessType : Int) :
    (CString.copy 4095 (accessList.chars ++
        accessString username accessType)).chars =
      accessList.chars ++
        (',' :: grantedEntry username accessType).take
          (keptBytes accessList) := by
  have nulFree : CText.nul ∉ accessList.chars ++
      accessString username accessType := by
    rw [accessString_eq]
    intro found
    rcases List.mem_append.mp found with inList | inEntry
    · exact accessList.nulFree inList
    · rcases List.mem_cons.mp (List.mem_of_mem_take inEntry) with comma |
        inEntry
      · exact absurd comma (by decide)
      · exact nul_not_mem_grantedEntry username accessType inEntry
  simp only [CString.copy, CText.terminated_eq_self nulFree]
  rw [accessString_eq, List.take_append,
    List.take_of_length_le accessList.fits, List.take_take, Nat.min_comm]
  rfl

theorem comma_not_mem_grantedEntry {username : Username}
    (free : ',' ∉ username.chars) (accessType : Int) :
    ',' ∉ grantedEntry username accessType := by
  have letters : ',' ∉ ':' :: accessLetters accessType := by
    unfold accessLetters
    split
    · decide
    · decide
  intro found
  rcases List.mem_append.mp found with inName | inLetters
  · exact free inName
  · exact letters inLetters

/-- The list after a grant: the entries before, and what is kept of the new
one. -/
theorem accessEntries_grantedList (accessList : DataText)
    (username : Username) (accessType : Int) :
    accessEntries (CString.copy 4095 (accessList.chars ++
        accessString username accessType)) =
      accessEntries accessList ++
        CText.strtok ',' (keptEntry accessList username accessType) := by
  unfold accessEntries keptEntry
  rw [grantedList_chars]
  cases keptBytes accessList with
  | zero => simp [CText.strtok]
  | succ kept =>
      rw [List.take_succ_cons, Nat.add_sub_cancel, CText.strtok,
        List.splitOn_append_cons_self, List.filter_append]
      rfl

theorem parseAccessEntry_of_free {entry : Text} (free : ':' ∉ entry) :
    parseAccessEntry entry = none := by
  cases parsed : parseAccessEntry entry with
  | none => rfl
  | some parts =>
      obtain ⟨name, accessType⟩ := parts
      obtain ⟨_, ⟨_, same⟩ | ⟨_, same⟩⟩ := parseAccessEntry_eq_some parsed
      · exact absurd (by simp [same]) free
      · exact absurd (by simp [same]) free

/-- What is left of an entry that was cut. -/
theorem parseAccessEntry_take {username : Username}
    (free : ':' ∉ username.chars) (accessType : Int) (kept : Nat) :
    parseAccessEntry ((grantedEntry username accessType).take kept) =
      if kept < username.chars.length + 2 then none
      else if kept = username.chars.length + 2 then
        some (username.chars, 1)
      else some (username.chars, accessBits accessType) := by
  by_cases inName : kept ≤ username.chars.length
  · rw [grantedEntry, List.take_append_of_le_length inName,
      parseAccessEntry_of_free fun found => free (List.mem_of_mem_take found),
      if_pos (by omega)]
  obtain ⟨letters, rfl⟩ : ∃ letters,
      kept = username.chars.length + (letters + 1) :=
    ⟨kept - username.chars.length - 1, by omega⟩
  rw [grantedEntry, List.take_length_add_append, List.take_succ_cons,
    parseAccessEntry_append free]
  match letters with
  | 0 => simp
  | 1 =>
      have one : (accessLetters accessType).take 1 = ['R'] := by
        unfold accessLetters
        split
        · rfl
        · rfl
      simp [one]
  | letters + 2 =>
      have whole : (accessLetters accessType).take (letters + 2) =
          accessLetters accessType := by
        apply List.take_of_length_le
        unfold accessLetters
        split
        · simp
        · simp
      have far : ¬ username.chars.length + (letters + 2 + 1) <
          username.chars.length + 2 := by omega
      have further : ¬ username.chars.length + (letters + 2 + 1) =
          username.chars.length + 2 := by omega
      rw [whole, if_neg far, if_neg further]
      unfold accessLetters accessBits
      split
      · simp
      · simp

theorem strtok_keptEntry {username : Username} (free : ',' ∉ username.chars)
    (accessList : DataText) (accessType : Int) :
    CText.strtok ',' (keptEntry accessList username accessType) =
      if keptEntry accessList username accessType = [] then []
      else [keptEntry accessList username accessType] :=
  CText.strtok_of_not_mem fun found =>
    comma_not_mem_grantedEntry free accessType (List.mem_of_mem_take found)

theorem listedAccess_keptEntry {username : Username}
    (free : ',' ∉ username.chars) (colonFree : ':' ∉ username.chars)
    (accessList : DataText) (accessType : Int) {name : Text}
    (other : name ≠ username.chars) :
    listedAccess (CText.strtok ',' (keptEntry accessList username
      accessType)) name = [] := by
  rw [strtok_keptEntry free]
  split
  · rfl
  · rw [listedAccess, List.filterMap_cons, keptEntry,
      parseAccessEntry_take colonFree]
    split_ifs
    · rfl
    · simp [Ne.symm other]
    · simp [Ne.symm other]

/-- The other users keep what the list gave them. -/
theorem listedAccess_grantedList {username : Username}
    (free : ',' ∉ username.chars) (colonFree : ':' ∉ username.chars)
    (accessList : DataText) (accessType : Int) {name : Text}
    (other : name ≠ username.chars) :
    listedAccess (accessEntries (CString.copy 4095 (accessList.chars ++
        accessString username accessType))) name =
      listedAccess (accessEntries accessList) name := by
  rw [accessEntries_grantedList, listedAccess, List.filterMap_append]
  have nothing := listedAccess_keptEntry free colonFree accessList accessType
    other
  unfold listedAccess at nothing
  rw [nothing, List.append_nil]
  rfl

section Table

variable {filename : Filename} {username : Username}
  {table : ProbeTable Text Nat}

/-- No valid slot has the key of this user. -/
def NotCached (table : ProbeTable Text Nat) (filename : Filename)
    (username : Username) : Prop :=
  ∀ position, (table position).valid = true →
    (table position).key ≠ accessCacheKey filename username.chars

theorem notCached_cacheAccessEntry
    (absent : NotCached table filename username) {entry : Text}
    (other : ∀ accessType,
      parseAccessEntry entry ≠ some (username.chars, accessType)) :
    NotCached (cacheAccessEntry filename table entry) filename username := by
  unfold cacheAccessEntry
  cases parsed : parseAccessEntry entry with
  | none => exact absent
  | some parts =>
      obtain ⟨name, accessType⟩ := parts
      intro position valid
      simp only at valid ⊢
      rcases ProbeTable.insert_cases accessCacheSize hashAccessKey table
          (accessCacheKey filename name) accessType position with
        same | ⟨_, written⟩
      · rw [same] at valid ⊢
        exact absent position valid
      · rw [written]
        intro key
        apply other accessType
        rw [parsed, name_of_accessCacheKey key]

theorem notCached_fold {entries : List Text}
    (absent : NotCached table filename username)
    (unlisted : listedAccess entries username.chars = []) :
    NotCached (entries.foldl (cacheAccessEntry filename) table) filename
      username := by
  induction entries generalizing table with
  | nil => exact absent
  | cons entry entries ih =>
      have others : ∀ listed ∈ entry :: entries, ∀ accessType,
          parseAccessEntry listed ≠ some (username.chars, accessType) := by
        intro listed member accessType parsed
        have found := mem_listedAccess.mpr ⟨listed, member, parsed⟩
        rw [unlisted] at found
        cases found
      apply ih
      · exact notCached_cacheAccessEntry absent (others entry (by simp))
      · rw [List.eq_nil_iff_forall_not_mem]
        intro accessType found
        obtain ⟨listed, member, parsed⟩ := mem_listedAccess.mp found
        exact others listed (by simp [member]) accessType parsed

theorem lookup_of_notCached (absent : NotCached table filename username) :
    table.lookup accessCacheSize hashAccessKey
      (accessCacheKey filename username.chars) = none := by
  cases found : table.lookup accessCacheSize hashAccessKey
      (accessCacheKey filename username.chars) with
  | none => rfl
  | some value =>
      obtain ⟨position, slot⟩ := ProbeTable.lookup_sound found
      exact (absent position (by rw [slot]) (by rw [slot])).elim

theorem notCached_invalidated (s : FileHandler) :
    NotCached (invalidateAccessCacheForFile s filename).accessCache filename
      username := by
  intro position valid
  obtain ⟨same, elsewhere⟩ := valid_of_invalidated valid
  rw [same]
  exact elsewhere username.chars

/-- A new entry of the user is found if there is room, and no other value. -/
theorem lookup_cacheAccessEntry_iff
    (absent : NotCached table filename username) {entry : Text}
    {value : Nat} :
    (cacheAccessEntry filename table entry).lookup accessCacheSize
        hashAccessKey (accessCacheKey filename username.chars) =
      some value ↔
      parseAccessEntry entry = some (username.chars, value) ∧
        ProbeTable.Room accessCacheSize hashAccessKey table
          (accessCacheKey filename username.chars) := by
  by_cases own : ∃ accessType,
      parseAccessEntry entry = some (username.chars, accessType)
  · obtain ⟨accessType, parsed⟩ := own
    have inserted : cacheAccessEntry filename table entry =
        ProbeTable.insert accessCacheSize hashAccessKey table
          (accessCacheKey filename username.chars) accessType := by
      simp [cacheAccessEntry, parsed]
    rw [inserted, parsed, Option.some.injEq, Prod.mk.injEq]
    constructor
    · intro found
      obtain ⟨position, slot⟩ := ProbeTable.lookup_sound found
      rcases ProbeTable.insert_cases accessCacheSize hashAccessKey table
          (accessCacheKey filename username.chars) accessType position with
        same | ⟨_, written⟩
      · rw [slot] at same
        exact (absent position (by rw [← same]) (by rw [← same])).elim
      · rw [written] at slot
        cases slot
        exact ⟨⟨rfl, rfl⟩,
          (ProbeTable.lookup_insert_new_iff absent).mp found⟩
    · rintro ⟨⟨_, rfl⟩, room⟩
      exact ProbeTable.lookup_insert_self room accessType
  · have others : ∀ accessType,
        parseAccessEntry entry ≠ some (username.chars, accessType) :=
      fun accessType parsed => own ⟨accessType, parsed⟩
    have missing := lookup_of_notCached
      (notCached_cacheAccessEntry absent others)
    rw [missing]
    constructor
    · intro found
      cases found
    · rintro ⟨parsed, _⟩
      exact (others value parsed).elim

end Table

section Granted

variable {s : FileHandler} {filename : Filename} {metadata : FileMetadata}
  {username : Username} {accessType : Int}

theorem listedAccess_of_absent {accessList : DataText}
    (absent : ¬ username.chars ++ ":R".toList <:+: accessList.chars) :
    listedAccess (accessEntries accessList) username.chars = [] := by
  rw [List.eq_nil_iff_forall_not_mem]
  intro value listed
  apply absent
  rcases listedAccess_cases listed with ⟨_, member⟩ | ⟨_, member⟩
  · exact (CText.mem_strtok member).part
  · refine List.IsInfix.trans (List.IsPrefix.isInfix ⟨['W'], ?_⟩)
      (CText.mem_strtok member).part
    simp

theorem removeAccessEntry_of_absent {accessList : Text}
    (absent : ¬ username.chars ++ ":R".toList <:+: accessList) :
    removeAccessEntry accessList username = accessList := by
  have reading := CText.strstr_eq_none_iff.mpr absent
  have writing : CText.strstr (username.chars ++ ":RW".toList) accessList =
      none := by
    apply CText.strstr_eq_none_iff.mpr
    intro found
    apply absent
    refine List.IsInfix.trans (List.IsPrefix.isInfix ⟨['W'], ?_⟩) found
    simp
  simp only [removeAccessEntry, findAccessEntry, writing, reading]

/-- The record after a grant to a user whose entry is not in the list. -/
def grantedRecord (metadata : FileMetadata) (username : Username)
    (accessType : Int) : FileMetadata :=
  { metadata with
    accessList := CString.copy 4095 (metadata.accessList.chars ++
      accessString username accessType) }

theorem findMetadata_addUserAccessLl
    (record : findMetadata s filename = some metadata)
    (absent : ¬ username.chars ++ ":R".toList <:+:
      metadata.accessList.chars) :
    findMetadata (addUserAccessLl s filename username accessType).1
        filename =
      some (grantedRecord metadata username accessType) := by
  simp only [addUserAccessLl, record, removeAccessEntry_of_absent absent]
  change findMetadata (updateMetadata s filename _) filename = _
  rw [findMetadata_updateMetadata, record]
  · rfl
  · intro other
    rfl

theorem accessCache_addUserAccessLl
    (record : findMetadata s filename = some metadata) :
    (addUserAccessLl s filename username accessType).1.accessCache =
      (invalidateAccessCacheForFile s filename).accessCache := by
  simp only [addUserAccessLl, record]
  rfl

/-- The slots left for the user when the entries before are in. -/
def GrantRoom (s : FileHandler) (filename : Filename)
    (accessList : DataText) (username : Username) : Prop :=
  ProbeTable.Room accessCacheSize hashAccessKey
    (builtTable (invalidateAccessCacheForFile s filename).accessCache
      filename accessList)
    (accessCacheKey filename username.chars)

theorem lookupAccessCache_iff {requiredAccess : Nat} :
    lookupAccessCache s filename username requiredAccess = true ↔
      ∃ value, s.accessCache.lookup accessCacheSize hashAccessKey
          (accessCacheKey filename username.chars) = some value ∧
        value &&& requiredAccess = requiredAccess := by
  unfold lookupAccessCache
  cases s.accessCache.lookup accessCacheSize hashAccessKey
      (accessCacheKey filename username.chars) with
  | none => simp
  | some value => simp

/-- The list after a grant enters what is left of the new entry last. -/
theorem builtTable_granted (free : ',' ∉ username.chars)
    (table : ProbeTable Text Nat) :
    builtTable table filename
        (grantedRecord metadata username accessType).accessList =
      cacheAccessEntry filename
        (builtTable table filename metadata.accessList)
        (keptEntry metadata.accessList username accessType) := by
  have kept := strtok_keptEntry free metadata.accessList accessType
  rw [builtTable, grantedRecord, accessEntries_grantedList,
    List.foldl_append, kept]
  split
  · rename_i nothing
    have parsed : parseAccessEntry [] = none := rfl
    simp [nothing, cacheAccessEntry, parsed, builtTable]
  · rfl

/-- A guest gets what is left of the new entry, if there is room. -/
theorem hasAccessLl_granted_iff {requiredAccess : Nat}
    (record : findMetadata s filename = some metadata)
    (absent : ¬ username.chars ++ ":R".toList <:+:
      metadata.accessList.chars)
    (free : ',' ∉ username.chars) (guest : metadata.owner ≠ username) :
    (hasAccessLl requiredAccess
        (addUserAccessLl s filename username accessType).1 filename
        username).1 = true ↔
      ∃ value,
        parseAccessEntry (keptEntry metadata.accessList username
          accessType) = some (username.chars, value) ∧
        value &&& requiredAccess = requiredAccess ∧
        GrantRoom s filename metadata.accessList username := by
  have cleared := @notCached_invalidated filename username s
  have before := notCached_fold cleared (listedAccess_of_absent absent)
  have missing : lookupAccessCache
      (addUserAccessLl s filename username accessType).1 filename username
        requiredAccess = false := by
    rw [lookupAccessCache, accessCache_addUserAccessLl record,
      lookup_of_notCached cleared]
  simp only [hasAccessLl, findMetadata_addUserAccessLl record absent]
  have stillGuest : (grantedRecord metadata username accessType).owner ≠
      username := guest
  rw [if_neg stillGuest, missing]
  simp only [Bool.false_eq_true, if_false, lookupAccessCache_iff]
  have table : (buildAccessCacheForFile
      (addUserAccessLl s filename username accessType).1 filename
      (grantedRecord metadata username accessType).accessList).accessCache =
        cacheAccessEntry filename
          (builtTable (invalidateAccessCacheForFile s filename).accessCache
            filename metadata.accessList)
          (keptEntry metadata.accessList username accessType) := by
    rw [← builtTable_granted free, ← accessCache_addUserAccessLl record]
    rfl
  rw [table]
  constructor
  · rintro ⟨value, found, enough⟩
    obtain ⟨parsed, room⟩ := (lookup_cacheAccessEntry_iff before).mp found
    exact ⟨value, parsed, enough, room⟩
  · rintro ⟨value, parsed, enough, room⟩
    exact ⟨value, (lookup_cacheAccessEntry_iff before).mpr ⟨parsed, room⟩,
      enough⟩

end Granted

/-- The entry is in the list whole. -/
def EntryFits (accessList : DataText) (username : Username)
    (accessType : Int) : Prop :=
  (',' :: grantedEntry username accessType).length ≤ keptBytes accessList

instance (accessList : DataText) (username : Username) (accessType : Int) :
    Decidable (EntryFits accessList username accessType) :=
  inferInstanceAs (Decidable (_ ≤ _))

/-- Only a whole entry gives what was asked for. -/
theorem parse_keptEntry_iff {accessList : DataText} {username : Username}
    (free : ':' ∉ username.chars) (accessType : Int) :
    parseAccessEntry (keptEntry accessList username accessType) =
        some (username.chars, accessBits accessType) ↔
      EntryFits accessList username accessType := by
  have length : (',' :: grantedEntry username accessType).length =
      username.chars.length + 2 +
        if accessType = accessRead then 1 else 2 := by
    unfold grantedEntry accessLetters
    split
    · simp
    · simp
  rw [keptEntry, parseAccessEntry_take free, EntryFits, length]
  by_cases reading : accessType = accessRead
  · simp only [accessBits, reading, if_true, ite_self]
    split
    · simp
      omega
    · simp
      omega
  · simp only [accessBits, reading, if_false]
    split
    · simp
      omega
    · split
      · simp
        omega
      · simp
        omega

theorem accessBits_of_some {accessList : DataText} {username : Username}
    (free : ':' ∉ username.chars) {accessType : Int} {value : Nat}
    (parsed : parseAccessEntry (keptEntry accessList username accessType) =
      some (username.chars, value)) :
    value = 1 ∨ value = accessBits accessType := by
  rw [keptEntry, parseAccessEntry_take free] at parsed
  split_ifs at parsed
  · cases parsed
    exact .inl rfl
  · cases parsed
    exact .inr rfl

section Others

variable {s : FileHandler} {filename : Filename} {metadata : FileMetadata}
  {username other : Username} {accessType : Int}

theorem directAccess_grantedRecord (free : ',' ∉ username.chars)
    (colonFree : ':' ∉ username.chars) (different : other ≠ username)
    (requiredAccess : Nat) :
    directAccess requiredAccess
        (grantedRecord metadata username accessType) other =
      directAccess requiredAccess metadata other := by
  have names : other.chars ≠ username.chars := fun same =>
    different (CString.ext same)
  have listed := listedAccess_grantedList free colonFree metadata.accessList
    accessType names
  unfold directAccess grantedRecord
  simp only [listed]

theorem freeSlots_invalidated (s : FileHandler) (filename : Filename) :
    ProbeTable.freeSlots accessCacheSize s.accessCache ≤
      ProbeTable.freeSlots accessCacheSize
        (invalidateAccessCacheForFile s filename).accessCache := by
  apply List.countP_mono_left
  intro position _ free
  simp only [invalidateAccessCacheForFile]
  split
  · rfl
  · exact free

theorem length_accessEntries_grantedRecord (free : ',' ∉ username.chars) :
    (accessEntries
      (grantedRecord metadata username accessType).accessList).length ≤
        (accessEntries metadata.accessList).length + 1 := by
  rw [grantedRecord, accessEntries_grantedList, List.length_append]
  rw [strtok_keptEntry free metadata.accessList accessType]
  split
  · simp
  · simp

/-- With correct entries and room the decisions about others stay. -/
theorem hasAccessLl_other {requiredAccess : Nat}
    (record : findMetadata s filename = some metadata)
    (absent : ¬ username.chars ++ ":R".toList <:+:
      metadata.accessList.chars)
    (free : ',' ∉ username.chars) (colonFree : ':' ∉ username.chars)
    (correct : EntriesCorrect s.accessCache filename metadata.accessList)
    (room : (accessEntries metadata.accessList).length + 1 <
      ProbeTable.freeSlots accessCacheSize s.accessCache)
    (different : other ≠ username) (otherFree : ':' ∉ other.chars) :
    (hasAccessLl requiredAccess
        (addUserAccessLl s filename username accessType).1 filename
        other).1 =
      (hasAccessLl requiredAccess s filename other).1 := by
  have recordAfter := @findMetadata_addUserAccessLl s filename metadata
    username accessType record absent
  have cleared : EntriesCorrect
      (addUserAccessLl s filename username accessType).1.accessCache filename
      (grantedRecord metadata username accessType).accessList := by
    rw [accessCache_addUserAccessLl record]
    intro position user _ valid key
    exact (notCached_invalidated s position valid key).elim
  have roomAfter : (accessEntries
      (grantedRecord metadata username accessType).accessList).length <
        ProbeTable.freeSlots accessCacheSize
          (addUserAccessLl s filename username accessType).1.accessCache := by
    rw [accessCache_addUserAccessLl record]
    have more := freeSlots_invalidated s filename
    have entries := @length_accessEntries_grantedRecord metadata username
      accessType free
    omega
  rw [hasAccessLl_eq_direct recordAfter cleared roomAfter otherFree,
    hasAccessLl_eq_direct record correct (by omega) otherFree,
    directAccess_grantedRecord free colonFree different]

end Others

/-- The user may read, and write unless reading was granted; everyone else is
left alone, by the record and, with correct entries and room in the cache, by
the decisions. -/
structure GrantEffective (s : FileHandler) (filename : Filename)
    (metadata : FileMetadata) (username : Username) (accessType : Int) :
    Prop where
  reads : (hasReadAccessLl
    (addUserAccessLl s filename username accessType).1 filename
      username).1 = true
  writes : accessType ≠ accessRead →
    (hasWriteAccessLl (addUserAccessLl s filename username accessType).1
      filename username).1 = true
  readsOnly : accessType = accessRead → metadata.owner ≠ username →
    (hasWriteAccessLl (addUserAccessLl s filename username accessType).1
      filename username).1 = false
  others : ∃ after, findMetadata
      (addUserAccessLl s filename username accessType).1 filename =
        some after ∧
    ∀ (other : Username) (requiredAccess : Nat), other ≠ username →
      directAccess requiredAccess after other =
        directAccess requiredAccess metadata other
  decisions : EntriesCorrect s.accessCache filename metadata.accessList →
    (accessEntries metadata.accessList).length + 1 <
      ProbeTable.freeSlots accessCacheSize s.accessCache →
    ∀ other : Username, other ≠ username → ':' ∉ other.chars →
      (hasReadAccessLl (addUserAccessLl s filename username accessType).1
          filename other).1 = (hasReadAccessLl s filename other).1 ∧
        (hasWriteAccessLl (addUserAccessLl s filename username accessType).1
          filename other).1 = (hasWriteAccessLl s filename other).1

/-- A grant is acknowledged, and effective exactly for the owner, or when the
whole entry fits into the buffer and the list and the cache has a slot for
it. -/
theorem grant_effective_iff {s : FileHandler} {filename : Filename}
    {metadata : FileMetadata} {username : Username}
    (record : findMetadata s filename = some metadata)
    (free : ',' ∉ username.chars) (colonFree : ':' ∉ username.chars)
    (absent : ¬ username.chars ++ ":R".toList <:+:
      metadata.accessList.chars)
    (accessType : Int) :
    (addUserAccessLl s filename username accessType).2 = 0 ∧
      (GrantEffective s filename metadata username accessType ↔
        metadata.owner = username ∨
          EntryFits metadata.accessList username accessType ∧
            GrantRoom s filename metadata.accessList username) := by
  refine ⟨by simp only [addUserAccessLl, record], ?_⟩
  have recordAfter := @findMetadata_addUserAccessLl s filename metadata
    username accessType record absent
  have exact := fun requiredAccess guest =>
    @hasAccessLl_granted_iff s filename metadata username accessType
      requiredAccess record absent free guest
  constructor
  · intro effective
    by_cases owner : metadata.owner = username
    · exact .inl owner
    obtain ⟨value, parsed, _, room⟩ := (exact 1 owner).mp effective.reads
    refine .inr ⟨(parse_keptEntry_iff colonFree accessType).mp ?_, room⟩
    by_cases reading : accessType = accessRead
    · rcases accessBits_of_some colonFree parsed with rfl | rfl
      · simpa [accessBits, reading] using parsed
      · exact parsed
    · obtain ⟨value, parsed, enough, _⟩ :=
        (exact 2 owner).mp (effective.writes reading)
      rcases accessBits_of_some colonFree parsed with rfl | rfl
      · exact absurd enough (by decide)
      · exact parsed
  · intro condition
    have given : metadata.owner ≠ username → ∀ requiredAccess,
        accessBits accessType &&& requiredAccess = requiredAccess →
        (hasAccessLl requiredAccess
          (addUserAccessLl s filename username accessType).1 filename
          username).1 = true := by
      intro guest requiredAccess enough
      obtain ⟨fits, room⟩ := condition.resolve_left guest
      exact (exact requiredAccess guest).mpr
        ⟨_, (parse_keptEntry_iff colonFree accessType).mpr fits, enough,
          room⟩
    refine ⟨?_, ?_, ?_, ?_, ?_⟩
    · by_cases owner : metadata.owner = username
      · exact hasAccessLl_of_owner 1 recordAfter owner
      · apply given owner
        unfold accessBits
        split
        · rfl
        · rfl
    · intro writing
      by_cases owner : metadata.owner = username
      · exact hasAccessLl_of_owner 2 recordAfter owner
      · apply given owner
        rw [accessBits, if_neg writing]
        rfl
    · intro reading guest
      by_contra granted
      have allowed : (hasAccessLl 2
          (addUserAccessLl s filename username accessType).1 filename
          username).1 = true := by
        simpa [hasWriteAccessLl] using granted
      obtain ⟨value, parsed, enough, _⟩ := (exact 2 guest).mp allowed
      have one : value = 1 := by
        rcases accessBits_of_some colonFree parsed with same | same
        · exact same
        · simpa [accessBits, reading] using same
      rw [one] at enough
      exact absurd enough (by decide)
    · refine ⟨_, recordAfter, ?_⟩
      intro other requiredAccess different
      exact directAccess_grantedRecord free colonFree different
        requiredAccess
    · intro correct room other different otherFree
      exact ⟨hasAccessLl_other record absent free colonFree correct room
          different otherFree,
        hasAccessLl_other record absent free colonFree correct room
          different otherFree⟩

private def sharedFile : FileMetadata :=
  { newMetadata (CString.copy 255 "f".toList)
      (CString.copy 63 "ann".toList) (CString.copy 63 []) with
    accessList := CString.copy 4095 "ann:RW".toList }

private def sharedServer : FileHandler :=
  { freshServer with metadataList := [sharedFile] }

private def newReader : Username := CString.copy 63 "bob".toList

/-- A reader with a short name. -/
theorem grant_effective_short_name :
    (hasReadAccessLl (addUserAccessLl sharedServer sharedFile.filename
        newReader accessRead).1 sharedFile.filename newReader).1 = true ∧
      (hasWriteAccessLl (addUserAccessLl sharedServer sharedFile.filename
        newReader accessRead).1 sharedFile.filename newReader).1 =
          false := by
  have absent : ¬ newReader.chars ++ ":R".toList <:+:
      sharedFile.accessList.chars := by
    rw [← CText.strstr_eq_none_iff]
    decide +kernel
  have granted := ((@grant_effective_iff sharedServer sharedFile.filename
    sharedFile newReader (by decide +kernel) (by decide +kernel)
    (by decide +kernel) absent accessRead).2).mpr
      (.inr ⟨by decide +kernel,
        ⟨1, by decide, by decide, by decide +kernel⟩⟩)
  exact ⟨granted.reads, granted.readsOnly rfl (by decide +kernel)⟩

private def longName : Username := CString.copy 63 (List.replicate 61 'a')

/-- The entry of a name of 61 bytes ends behind its colon, and the grant is
acknowledged all the same. -/
theorem grant_of_long_name_lost :
    findMetadata sharedServer sharedFile.filename = some sharedFile ∧
      ',' ∉ longName.chars ∧ ':' ∉ longName.chars ∧
      ¬ longName.chars ++ ":R".toList <:+: sharedFile.accessList.chars ∧
      (addUserAccessLl sharedServer sharedFile.filename longName
        accessRead).2 = 0 ∧
      ¬ GrantEffective sharedServer sharedFile.filename sharedFile longName
        accessRead := by
  have record : findMetadata sharedServer sharedFile.filename =
      some sharedFile := by decide +kernel
  have free : ',' ∉ longName.chars := by decide +kernel
  have absent : ¬ longName.chars ++ ":R".toList <:+:
      sharedFile.accessList.chars := by
    rw [← CText.strstr_eq_none_iff]
    decide +kernel
  have cut : parseAccessEntry (keptEntry sharedFile.accessList longName
      accessRead) = none := by decide +kernel
  refine ⟨record, free, by decide +kernel, absent,
    by simp only [addUserAccessLl, record], ?_⟩
  intro effective
  obtain ⟨value, parsed, _⟩ := (hasAccessLl_granted_iff record absent free
    (by decide +kernel)).mp effective.reads
  rw [cut] at parsed
  cases parsed

end Dfs.StorageServer
