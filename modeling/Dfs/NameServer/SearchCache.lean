import Mathlib.Logic.Function.Basic
import Dfs.Protocol

/-!
# Location cache of the name server

One slot for each hash value; a newer entry with the same hash replaces the
older one, and an entry is used for `CACHE_TTL` seconds.
-/

namespace Dfs.NameServer

def cacheSize : Nat := 100
def cacheTtl : Int := 60

structure CacheEntry where
  filename : Filename
  ssId : Int
  timestamp : Int
  valid : Bool
  deriving DecidableEq, Repr

/-- The memory of the `entries` array. -/
abbrev SearchCache := Nat → CacheEntry

def zeroedEntry : CacheEntry :=
  { filename := CString.copy 255 [], ssId := 0, timestamp := 0, valid := false }

def initFileCache : SearchCache := fun _ => zeroedEntry

def cacheHash (filename : Filename) : Nat :=
  CText.djb2 64 filename.chars % cacheSize

def CacheEntry.matches (entry : CacheEntry) (filename : Filename) : Bool :=
  entry.valid && entry.filename = filename

def cacheInsert (now : Int) (cache : SearchCache) (filename : Filename)
    (ssId : Int) : SearchCache :=
  let entry := cache (cacheHash filename)
  Function.update cache (cacheHash filename)
    (if entry.matches filename then
      { entry with ssId := ssId, timestamp := now }
    else
      { filename := filename, ssId := ssId, timestamp := now, valid := true })

/-- An entry that expired is invalidated. -/
def cacheLookup (now : Int) (cache : SearchCache) (filename : Filename) :
    SearchCache × Option Int :=
  let entry := cache (cacheHash filename)
  if entry.matches filename then
    if now - entry.timestamp < cacheTtl then (cache, some entry.ssId)
    else
      (Function.update cache (cacheHash filename)
        { entry with valid := false }, none)
  else (cache, none)

def cacheInvalidate (cache : SearchCache) (filename : Filename) :
    SearchCache :=
  let entry := cache (cacheHash filename)
  if entry.matches filename then
    Function.update cache (cacheHash filename) { entry with valid := false }
  else cache

def cacheClear : SearchCache := initFileCache

section

variable {filename : Filename}

theorem CacheEntry.matches_iff {entry : CacheEntry} :
    entry.matches filename = true ↔
      entry.valid = true ∧ entry.filename = filename := by
  simp [CacheEntry.matches]

/-- Whether the slot was in use or not, an insertion leaves the same entry. -/
theorem cacheInsert_eq (now : Int) (cache : SearchCache)
    (filename : Filename) (ssId : Int) :
    cacheInsert now cache filename ssId =
      Function.update cache (cacheHash filename)
        { filename := filename
          ssId := ssId
          timestamp := now
          valid := true } := by
  unfold cacheInsert
  simp only
  split
  · rename_i matched
    obtain ⟨valid, named⟩ := CacheEntry.matches_iff.mp matched
    rw [valid, named]
  · rfl

theorem cacheLookup_hit_iff {cache : SearchCache} {now ssId : Int} :
    (cacheLookup now cache filename).2 = some ssId ↔
      (cache (cacheHash filename)).matches filename = true ∧
        now - (cache (cacheHash filename)).timestamp < cacheTtl ∧
        (cache (cacheHash filename)).ssId = ssId := by
  unfold cacheLookup
  simp only
  split
  · rename_i matched
    split
    · rename_i fresh
      simp [matched, fresh]
    · rename_i expired
      simp [expired]
  · rename_i unmatched
    simp [unmatched]

end

end Dfs.NameServer
