import Dfs.StorageServer.ClientPort
import Dfs.StorageServer.RequestEffects
import Dfs.StorageServer.DirectOperations

/-!
# Reference counts

Nine functions of the file handler take a reference to the cached document.
`KeepsReferences` says what such a call leaves of it: the lock and the direct
write give it back on every path, the others on none.  A run of requests and
direct calls therefore keeps all counts at zero exactly as long as no step
leaves a reference behind, and a deletion then drops its document at once.
-/

namespace Dfs.StorageServer

/-- The reference count of the cached document, zero when there is none. -/
def references (s : FileHandler) (filename : Filename) : Int :=
  match s.fileCache.get filename with
  | some file => file.refcount
  | none => 0

/-- `memory` tells how many allocations succeed. -/
inductive ReferenceCall where
  | lockSentence (sentenceIndex : Int) (username : Username)
  | unlockSentence (sentenceIndex : Int) (username : Username)
  | syncFile
  | saveUndoBackup
  | hasLockedSentences
  | readFile (maxSize : Int) (now : TimeText)
  | writeToFile (sentenceIndex wordIndex : Int) (content : Text)
      (memory : Nat)
  | ensureDelimiter (sentenceIndex : Int)
  | forceUnlock
  deriving DecidableEq, Repr

namespace ReferenceCall

def perform (s : FileHandler) (filename : Filename) :
    ReferenceCall → FileHandler
  | lockSentence sentenceIndex username =>
      (lockSentenceLl s filename sentenceIndex username).1
  | unlockSentence sentenceIndex username =>
      (unlockSentenceLl s filename sentenceIndex username).1
  | syncFile => (syncFileToDisk s filename).1
  | saveUndoBackup => (saveUndoBackupLl s filename).1
  | hasLockedSentences => (fileHasLockedSentences s filename).1
  | readFile maxSize now => (readFileLl s filename maxSize now).1
  | writeToFile sentenceIndex wordIndex content memory =>
      (writeToFileLl s filename sentenceIndex wordIndex content memory).1
  | ensureDelimiter sentenceIndex =>
      (ensureSentenceDelimiterLl s filename sentenceIndex).1
  | forceUnlock => (forceUnlockAllSentencesLl s filename).1

/-- The call gives its references back. -/
def Releases : ReferenceCall → Prop
  | lockSentence _ _ => True
  | writeToFile _ _ _ _ => True
  | _ => False

end ReferenceCall

/-- What a call leaves in the cache: nothing new if the file cannot be loaded,
and `kept` more references to the document otherwise, unless this was the last
one and the document was freed. -/
structure KeepsReferences (kept : Int) (filename : Filename)
    (s t : FileHandler) : Prop where
  elsewhere : ∀ other, other ≠ filename →
    t.fileCache.get other = s.fileCache.get other
  unloaded : loadedFile s filename = none → t.fileCache = s.fileCache
  loaded : ∀ file, loadedFile s filename = some file →
    (∃ document, t.fileCache.get filename =
      some ⟨document, file.refcount + kept, file.markedForDeletion⟩) ∨
    file.refcount + kept = 0 ∧ t.fileCache.get filename = none

section

variable {s t u : FileHandler} {filename : Filename} {file : LoadedFile}

theorem refcount_loadedFile (loaded : loadedFile s filename = some file) :
    file.refcount = references s filename := by
  unfold loadedFile at loaded
  unfold references
  cases cached : s.fileCache.get filename with
  | some other =>
      rw [cached] at loaded
      cases loaded
      rfl
  | none =>
      rw [cached] at loaded
      obtain ⟨content, _, rfl⟩ := Option.map_eq_some_iff.mp loaded
      rfl

theorem KeepsReferences.of_cache {kept : Int}
    (keeps : KeepsReferences kept filename s t)
    (same : u.fileCache = t.fileCache) :
    KeepsReferences kept filename s u := by
  constructor
  · rw [same]
    exact keeps.elsewhere
  · rw [same]
    exact keeps.unloaded
  · rw [same]
    exact keeps.loaded

theorem keepsReferences_unloaded {kept : Int}
    (unloaded : loadedFile s filename = none) :
    KeepsReferences kept filename s s := by
  constructor
  · exact fun _ _ => rfl
  · exact fun _ => rfl
  · intro file loaded
    rw [unloaded] at loaded
    cases loaded

/-- The document stays in the cache with the reference that was taken. -/
theorem keepsReferences_cache (loaded : loadedFile s filename = some file)
    (document : Document)
    (elsewhere : ∀ other, other ≠ filename →
      t.fileCache.get other = s.fileCache.get other) :
    KeepsReferences 1 filename s
      (t.cache filename ⟨document, file.refcount + 1,
        file.markedForDeletion⟩) := by
  constructor
  · intro other different
    rw [← elsewhere other different]
    exact frame_cache _ |>.cache other different
  · intro unloaded
    rw [loaded] at unloaded
    cases unloaded
  · intro other same
    rw [loaded] at same
    cases same
    exact .inl ⟨document, Store.get_set_self _ _ _⟩

/-- One reference less, and the document is freed if it was the last one. -/
theorem get_fileRelease (cached : t.fileCache.get filename = some file) :
    (fileRelease t filename).fileCache.get filename =
        some { file with refcount := file.refcount - 1 } ∨
      file.refcount - 1 = 0 ∧
        (fileRelease t filename).fileCache.get filename = none := by
  unfold fileRelease
  rw [cached]
  simp only
  split
  · rename_i last
    exact .inr ⟨last.1, Store.get_erase_self _ _⟩
  · exact .inl (Store.get_set_self _ _ _)

theorem frame_fileRelease : Frame filename s (fileRelease s filename) :=
  (frame_moves filename).fileRelease s

/-- One of the references taken is given back. -/
theorem KeepsReferences.release {kept : Int}
    (loaded : loadedFile s filename = some file)
    (elsewhere : ∀ other, other ≠ filename →
      t.fileCache.get other = s.fileCache.get other)
    {document : Document}
    (cached : t.fileCache.get filename = some
      ⟨document, file.refcount + (kept + 1), file.markedForDeletion⟩) :
    KeepsReferences kept filename s (fileRelease t filename) := by
  have count : file.refcount + (kept + 1) - 1 = file.refcount + kept := by
    omega
  have released := get_fileRelease cached
  simp only [count] at released
  constructor
  · intro other different
    rw [frame_fileRelease.cache other different]
    exact elsewhere other different
  · intro unloaded
    rw [loaded] at unloaded
    cases unloaded
  · intro other same
    rw [loaded] at same
    cases same
    rcases released with stays | freed
    · exact .inl ⟨document, stays⟩
    · exact .inr freed

/-- All of them begin in the same way, and only a document that was found
makes a difference. -/
theorem KeepsReferences.of_loaded {α : Type} {kept : Int} {code : α}
    {operation : FileHandler → LoadedFile → FileHandler × α}
    (keeps : ∀ file, loadedFile s filename = some file →
      KeepsReferences kept filename s (operation
        (s.cache filename { file with refcount := file.refcount + 1 })
        { file with refcount := file.refcount + 1 }).1) :
    KeepsReferences kept filename s
      (match getFileFromCache s filename with
      | none => (s, code)
      | some (t, file) => operation t file).1 := by
  rw [getFileFromCache_eq]
  cases loaded : loadedFile s filename with
  | none => exact keepsReferences_unloaded loaded
  | some file => exact keeps file loaded

theorem keepsReferences_lockSentenceLl (sentenceIndex : Int)
    (username : Username) :
    KeepsReferences 0 filename s
      (lockSentenceLl s filename sentenceIndex username).1 := by
  apply KeepsReferences.of_loaded
  intro file loaded
  apply KeepsReferences.release loaded
  · exact ((frame_cache _).trans (frame_cache _)).cache
  · exact Store.get_set_self _ _ _

theorem keepsReferences_writeToFileLl (sentenceIndex wordIndex : Int)
    (content : Text) (memory : Nat) :
    KeepsReferences 0 filename s
      (writeToFileLl s filename sentenceIndex wordIndex content
        memory).1 := by
  apply KeepsReferences.of_loaded
  intro file loaded
  apply KeepsReferences.release loaded
  · exact ((frame_cache _).trans (frame_cache _)).cache
  · exact Store.get_set_self _ _ _

theorem keepsReferences_unlockSentenceLl (sentenceIndex : Int)
    (username : Username) :
    KeepsReferences 1 filename s
      (unlockSentenceLl s filename sentenceIndex username).1 := by
  apply KeepsReferences.of_loaded
  intro file loaded
  exact keepsReferences_cache loaded _ (frame_cache _).cache

theorem keepsReferences_ensureSentenceDelimiterLl (sentenceIndex : Int) :
    KeepsReferences 1 filename s
      (ensureSentenceDelimiterLl s filename sentenceIndex).1 := by
  apply KeepsReferences.of_loaded
  intro file loaded
  exact keepsReferences_cache loaded _ (frame_cache _).cache

theorem keepsReferences_forceUnlockAllSentencesLl :
    KeepsReferences 1 filename s
      (forceUnlockAllSentencesLl s filename).1 := by
  apply KeepsReferences.of_loaded
  intro file loaded
  exact keepsReferences_cache loaded _ (frame_cache _).cache

theorem keepsReferences_fileHasLockedSentences :
    KeepsReferences 1 filename s (fileHasLockedSentences s filename).1 := by
  apply KeepsReferences.of_loaded
  intro file loaded
  exact keepsReferences_cache loaded file.toDocument fun _ _ => rfl

/-- The backup that cannot be opened keeps the reference too. -/
theorem keepsReferences_saveUndoBackupLl :
    KeepsReferences 1 filename s (saveUndoBackupLl s filename).1 := by
  apply KeepsReferences.of_loaded
  intro file loaded
  have keeps := keepsReferences_cache loaded file.toDocument fun _ _ => rfl
  simp only
  split
  · exact keeps.of_cache rfl
  · exact keeps.of_cache rfl

/-- Neither a failed nor a successful rename gives the reference back. -/
theorem keepsReferences_syncFileToDisk :
    KeepsReferences 1 filename s (syncFileToDisk s filename).1 := by
  apply KeepsReferences.of_loaded
  intro file loaded
  have keeps := keepsReferences_cache loaded file.toDocument fun _ _ => rfl
  simp only
  split
  · exact keeps
  · split
    · exact keeps.of_cache rfl
    · exact keeps.of_cache rfl

theorem fileCache_readFileFromDiskLl (maxSize : Int) (now : TimeText) :
    (readFileFromDiskLl s filename maxSize now).1.fileCache =
      s.fileCache := by
  unfold readFileFromDiskLl
  split
  · rfl
  · rfl

/-- The search for locks keeps one of the two references taken. -/
theorem keepsReferences_readFileLl (maxSize : Int) (now : TimeText) :
    KeepsReferences 1 filename s
      (readFileLl s filename maxSize now).1 := by
  apply KeepsReferences.of_loaded
  intro file loaded
  have twice : file.refcount + 1 + 1 = file.refcount + (1 + 1) := by
    omega
  simp only [fileHasLockedSentences, getFileFromCache_eq, loadedFile_cache,
    Option.map_some]
  split
  · apply KeepsReferences.of_cache _ (fileCache_readFileFromDiskLl _ _)
    apply KeepsReferences.release loaded
    · exact ((frame_cache _).trans (frame_cache _)).cache
    · rw [← twice]
      exact Store.get_set_self _ _ _
  · apply KeepsReferences.release loaded
    · exact ((frame_cache _).trans (frame_cache _)).cache
    · rw [← twice]
      exact Store.get_set_self _ _ _

/-- The lock and the direct write balance, the other calls keep one
reference. -/
theorem keepsReferences_perform (call : ReferenceCall) :
    call.Releases ∧ KeepsReferences 0 filename s (call.perform s filename) ∨
      ¬call.Releases ∧
        KeepsReferences 1 filename s (call.perform s filename) := by
  cases call with
  | lockSentence sentenceIndex username =>
      exact .inl ⟨trivial, keepsReferences_lockSentenceLl _ _⟩
  | writeToFile sentenceIndex wordIndex content memory =>
      exact .inl ⟨trivial, keepsReferences_writeToFileLl _ _ _ _⟩
  | unlockSentence sentenceIndex username =>
      exact .inr ⟨id, keepsReferences_unlockSentenceLl _ _⟩
  | syncFile => exact .inr ⟨id, keepsReferences_syncFileToDisk⟩
  | saveUndoBackup => exact .inr ⟨id, keepsReferences_saveUndoBackupLl⟩
  | hasLockedSentences =>
      exact .inr ⟨id, keepsReferences_fileHasLockedSentences⟩
  | readFile maxSize now =>
      exact .inr ⟨id, keepsReferences_readFileLl maxSize now⟩
  | ensureDelimiter sentenceIndex =>
      exact .inr ⟨id, keepsReferences_ensureSentenceDelimiterLl _⟩
  | forceUnlock =>
      exact .inr ⟨id, keepsReferences_forceUnlockAllSentencesLl⟩

theorem KeepsReferences.references {kept : Int}
    (keeps : KeepsReferences kept filename s t)
    (loaded : loadedFile s filename = some file) :
    references t filename = references s filename + kept := by
  have count := refcount_loadedFile loaded
  rcases keeps.loaded file loaded with ⟨document, cached⟩ | ⟨last, freed⟩
  · rw [← count, StorageServer.references, cached]
  · rw [← count, last, StorageServer.references, freed]

theorem KeepsReferences.references_unloaded {kept : Int}
    (keeps : KeepsReferences kept filename s t)
    (unloaded : loadedFile s filename = none) (other : Filename) :
    StorageServer.references t other = StorageServer.references s other := by
  unfold StorageServer.references
  rw [keeps.unloaded unloaded]

/-- A call leaves the count as it was exactly if it is the lock or the direct
write, or if there is nothing to load. -/
theorem references_perform_iff (call : ReferenceCall) :
    references (call.perform s filename) filename =
        references s filename ↔
      call.Releases ∨ loadedFile s filename = none := by
  cases loaded : loadedFile s filename with
  | none =>
      have same : StorageServer.references (call.perform s filename)
          filename = StorageServer.references s filename := by
        rcases @keepsReferences_perform s filename call with
          ⟨_, keeps⟩ | ⟨_, keeps⟩
        · exact keeps.references_unloaded loaded filename
        · exact keeps.references_unloaded loaded filename
      exact iff_of_true same (.inr rfl)
  | some file =>
      rcases @keepsReferences_perform s filename call with
        ⟨releases, keeps⟩ | ⟨holds, keeps⟩
      · have same := keeps.references loaded
        exact iff_of_true (by omega) (.inl releases)
      · have more := keeps.references loaded
        apply iff_of_false
        · omega
        · simpa using holds

end

end Dfs.StorageServer
