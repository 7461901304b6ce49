import Dfs.StorageServer.State

/-!
# Access lists and the access cache

Every file has a list `owner:RW,user:R,...` in its metadata, and the answers
read from it are kept in an open-addressing table under `filename:username`.
A hit in the table is trusted; a miss rebuilds the entries of the file from
its list.
-/

namespace Dfs.StorageServer

def accessCacheSize : Nat := 10007

def hashAccessKey (key : Text) : Nat :=
  CText.djb2 32 key % accessCacheSize

/-- `snprintf` into `char cache_key[MAX_FILENAME + MAX_USERNAME + 2]`. -/
def accessCacheKey (filename : Filename) (username : Text) : Text :=
  (filename.chars ++ ':' :: username).take 321

/-- The user and the access bits that one entry of a list stands for. -/
def parseAccessEntry (entry : Text) : Option (Text × Nat) :=
  match entry.dropWhile (· ≠ ':') with
  | [] => none
  | _ :: accessStr =>
      let username := entry.takeWhile (· ≠ ':')
      if accessStr = ['R'] then some (username, 1)
      else if accessStr = ['R', 'W'] then some (username, 3)
      else none

def cacheAccessEntry (filename : Filename) (table : ProbeTable Text Nat)
    (entry : Text) : ProbeTable Text Nat :=
  match parseAccessEntry entry with
  | none => table
  | some (username, accessType) =>
      table.insert accessCacheSize hashAccessKey
        (accessCacheKey filename username) accessType

def buildAccessCacheForFile (s : FileHandler) (filename : Filename)
    (accessList : DataText) : FileHandler :=
  { s with
    accessCache := (CText.strtok ',' accessList.chars).foldl
      (cacheAccessEntry filename) s.accessCache }

def invalidateAccessCacheForFile (s : FileHandler) (filename : Filename) :
    FileHandler :=
  { s with
    accessCache := fun position =>
      let slot := s.accessCache position
      if slot.valid ∧ (filename.chars ++ [':']).isPrefixOf slot.key then
        { slot with valid := false }
      else slot }

def lookupAccessCache (s : FileHandler) (filename : Filename)
    (username : Username) (requiredAccess : Nat) : Bool :=
  match s.accessCache.lookup accessCacheSize hashAccessKey
      (accessCacheKey filename username.chars) with
  | some accessType => accessType &&& requiredAccess = requiredAccess
  | none => false

/-- The decision shared by reading (bit 1) and writing (bit 2), with the table
it leaves behind. -/
def hasAccessLl (requiredAccess : Nat) (s : FileHandler)
    (filename : Filename) (username : Username) : Bool × FileHandler :=
  match findMetadata s filename with
  | none => (false, s)
  | some metadata =>
      if metadata.owner = username then (true, s)
      else if lookupAccessCache s filename username requiredAccess then
        (true, s)
      else
        let s := buildAccessCacheForFile s filename metadata.accessList
        (lookupAccessCache s filename username requiredAccess, s)

def hasReadAccessLl : FileHandler → Filename → Username →
    Bool × FileHandler :=
  hasAccessLl 1

def hasWriteAccessLl : FileHandler → Filename → Username →
    Bool × FileHandler :=
  hasAccessLl 2

/-- A decision changes nothing but the table. -/
theorem hasAccessLl_server (requiredAccess : Nat) (s : FileHandler)
    (filename : Filename) (username : Username) :
    ∃ accessCache, (hasAccessLl requiredAccess s filename username).2 =
      { s with accessCache := accessCache } := by
  unfold hasAccessLl
  split
  · exact ⟨s.accessCache, rfl⟩
  · split
    · exact ⟨s.accessCache, rfl⟩
    · split
      · exact ⟨s.accessCache, rfl⟩
      · exact ⟨_, rfl⟩

/-- Where the first `username:RW`, or else the first `username:R`, occurs. -/
def findAccessEntry (accessList : Text) (username : Username) : Option Nat :=
  match CText.strstr (username.chars ++ ":RW".toList) accessList with
  | some position => some position
  | none => CText.strstr (username.chars ++ ":R".toList) accessList

/-- Remove the bytes from `position` to the next comma, with one of the commas
around them. -/
def cutAccessEntry (accessList : Text) (position : Nat) : Text :=
  let before := accessList.take position
  let after := (accessList.drop position).dropWhile (· ≠ ',')
  if before.getLast? = some ',' then before.dropLast ++ after
  else before ++ after.drop 1

def removeAccessEntry (accessList : Text) (username : Username) : Text :=
  match findAccessEntry accessList username with
  | none => accessList
  | some position => cutAccessEntry accessList position

/-- `snprintf` into `char access_str[64]`. -/
def accessString (username : Username) (accessType : Int) : Text :=
  if accessType = accessRead then
    (',' :: username.chars ++ ":R".toList).take 63
  else (',' :: username.chars ++ ":RW".toList).take 63

def addUserAccessLl (s : FileHandler) (filename : Filename)
    (username : Username) (accessType : Int) : FileHandler × Int :=
  match findMetadata s filename with
  | none => (s, errFileNotFound)
  | some metadata =>
      let accessList :=
        removeAccessEntry metadata.accessList.chars username ++
          accessString username accessType
      let s := updateMetadata s filename fun record =>
        { record with accessList := CString.copy 4095 accessList }
      (saveMetadataLl (invalidateAccessCacheForFile s filename), 0)

def removeUserAccessLl (s : FileHandler) (filename : Filename)
    (username : Username) : FileHandler × Int :=
  match findMetadata s filename with
  | none => (s, errFileNotFound)
  | some metadata =>
      let accessList := removeAccessEntry metadata.accessList.chars username
      let s := updateMetadata s filename fun record =>
        { record with accessList := CString.copy 4095 accessList }
      (saveMetadataLl (invalidateAccessCacheForFile s filename), 0)

end Dfs.StorageServer
