import Dfs.StorageServer.Paths
import Dfs.StorageServer.WriteSession

/-!
# The moves of a WRITE or UNDO request

Whatever such a request does, it does in small moves: it changes the cached
document of its file, the access cache, the backup and its folders, the file
on disk, the swap file beside it and the record of the file.  A reflexive and
transitive relation that every single move respects is therefore respected by
the whole request, and what a request leaves alone needs to be checked only
for the moves.
-/

namespace Dfs.StorageServer

/-- The moves on the document in the cache and on the access cache. -/
structure CacheMoves (filename : Filename)
    (related : FileHandler → FileHandler → Prop) : Prop where
  refl : ∀ s, related s s
  trans : ∀ {s t u}, related s t → related t u → related s u
  cache : ∀ s file, related s (s.cache filename file)
  uncache : ∀ s, related s (s.uncache filename)
  accessCache : ∀ s accessCache,
    related s { s with accessCache := accessCache }

/-- The moves of opening a session, which write only the backup to disk. -/
structure MemoryMoves (filename : Filename)
    (related : FileHandler → FileHandler → Prop) : Prop extends
    CacheMoves filename related where
  folders : ∀ s, related s
    { s with
      disk := s.disk.makeParents (filePaths s.storage filename).backup }
  backup : ∀ s place content,
    s.disk.target (filePaths s.storage filename).backup = some place →
    related s { s with disk := s.disk.put place content }

/-- What a record says about who may do what. -/
def FileMetadata.rights (record : FileMetadata) :
    Filename × Username × DataText :=
  (record.filename, record.owner, record.accessList)

/-- The moves of restoring a file and of the statistics of its record. -/
structure RestoreMoves (filename : Filename)
    (related : FileHandler → FileHandler → Prop) : Prop extends
    CacheMoves filename related where
  write : ∀ s place content,
    s.disk.target (filePaths s.storage filename).file = some place →
    related s { s with disk := s.disk.put place content }
  record : ∀ s change,
    (∀ record : FileMetadata, (change record).rights = record.rights) →
    related s (saveMetadataLl (updateMetadata s filename change))

/-- All moves of a request. -/
structure SessionMoves (filename : Filename)
    (related : FileHandler → FileHandler → Prop) : Prop extends
    MemoryMoves filename related, RestoreMoves filename related where
  swap : ∀ s place,
    s.disk.target (filePaths s.storage filename).swap = some place →
    related s { s with disk := s.disk.remove place }

variable {filename : Filename} {related : FileHandler → FileHandler → Prop}

namespace CacheMoves

variable (moves : CacheMoves filename related)

include moves

theorem getFileFromCache {s t : FileHandler} {file : LoadedFile}
    (got : getFileFromCache s filename = some (t, file)) : related s t := by
  simp only [StorageServer.getFileFromCache, Option.map_eq_some_iff] at got
  obtain ⟨found, _, same⟩ := got
  cases same
  exact moves.cache s _

theorem fileRelease (s : FileHandler) :
    related s (fileRelease s filename) := by
  rw [StorageServer.fileRelease]
  split
  · exact moves.refl s
  · simp only
    split
    · exact moves.uncache s
    · exact moves.cache s _

theorem hasAccessLl (requiredAccess : Nat) (s : FileHandler)
    (username : Username) :
    related s (hasAccessLl requiredAccess s filename username).2 := by
  obtain ⟨accessCache, checked⟩ :=
    hasAccessLl_server requiredAccess s filename username
  rw [checked]
  exact moves.accessCache s accessCache

theorem lockSentenceLl (s : FileHandler) (sentenceIndex : Int)
    (username : Username) :
    related s (lockSentenceLl s filename sentenceIndex username).1 := by
  rw [StorageServer.lockSentenceLl]
  cases got : StorageServer.getFileFromCache s filename with
  | none => exact moves.refl s
  | some loaded =>
      apply moves.trans (moves.getFileFromCache got)
      apply moves.trans (moves.cache _ _)
      exact moves.fileRelease _

theorem unlockSentenceLl (s : FileHandler) (sentenceIndex : Int)
    (username : Username) :
    related s (unlockSentenceLl s filename sentenceIndex username).1 := by
  rw [StorageServer.unlockSentenceLl]
  cases got : StorageServer.getFileFromCache s filename with
  | none => exact moves.refl s
  | some loaded =>
      apply moves.trans (moves.getFileFromCache got)
      exact moves.cache _ _

theorem reloadFileFromDisk (s : FileHandler) :
    related s (reloadFileFromDisk s filename).1 := by
  rw [StorageServer.reloadFileFromDisk]
  split
  · apply moves.trans (moves.uncache s)
    exact moves.cache _ _
  · exact moves.uncache s

end CacheMoves

namespace MemoryMoves

variable (moves : MemoryMoves filename related)

include moves

theorem saveUndoBackupLl (s : FileHandler) :
    related s (saveUndoBackupLl s filename).1 := by
  rw [saveUndoBackupLl_eq]
  cases got : StorageServer.getFileFromCache s filename with
  | none => exact moves.refl s
  | some loaded =>
      apply moves.trans (moves.getFileFromCache got)
      simp only [FilePaths.saveBackup_eq]
      split
      · exact moves.folders _
      · rename_i place opens
        apply moves.trans (moves.folders _)
        exact moves.backup { loaded.1 with disk := _ } place _ opens

theorem openWrite (s : FileHandler) (username : Username)
    (sentenceIndex : Int) :
    related s (openWrite s filename username sentenceIndex).1 := by
  have checked := moves.hasAccessLl 2 s username
  rw [StorageServer.openWrite, hasWriteAccessLl]
  generalize StorageServer.hasAccessLl 2 s filename username = access
    at checked ⊢
  obtain ⟨allowed, t⟩ := access
  simp only at checked ⊢
  split
  · exact checked
  · split
    · exact checked
    · have locked := moves.trans checked
        (moves.lockSentenceLl t sentenceIndex username)
      generalize StorageServer.lockSentenceLl t filename sentenceIndex
        username = result at locked ⊢
      obtain ⟨t, lockResult⟩ := result
      simp only at locked ⊢
      split
      · exact locked
      · apply moves.trans locked
        cases got : StorageServer.getFileFromCache t filename with
        | none => exact moves.unlockSentenceLl t _ _
        | some loaded =>
            apply moves.trans (moves.getFileFromCache got)
            apply moves.trans (moves.fileRelease _)
            exact moves.saveUndoBackupLl _

end MemoryMoves

namespace RestoreMoves

variable (moves : RestoreMoves filename related)

include moves

theorem updateFileStatisticsLl (s : FileHandler) :
    related s (updateFileStatisticsLl s filename).1 := by
  rw [StorageServer.updateFileStatisticsLl]
  split
  · exact moves.refl s
  · exact moves.refl s
  · exact moves.record s _ fun _ => rfl

theorem updateFileWriteStatsLl (s : FileHandler) (now : TimeText) :
    related s (updateFileWriteStatsLl s filename now).1 := by
  rw [StorageServer.updateFileWriteStatsLl]
  split
  · exact moves.refl s
  · exact moves.refl s
  · exact moves.record s _ fun _ => rfl

theorem undoFileChangeLl (s : FileHandler) :
    related s (undoFileChangeLl s filename).1 := by
  rw [undoFileChangeLl_eq]
  split
  · exact moves.refl s
  · rename_i disk copied
    obtain ⟨place, content, opens, rfl⟩ := FileSystem.copy_cases copied
    apply moves.trans (moves.write s place content opens)
    exact moves.reloadFileFromDisk _

theorem handleUndoRequest (s : FileHandler) :
    related s (handleUndoRequest s filename).1 := by
  have undone := moves.undoFileChangeLl s
  rw [StorageServer.handleUndoRequest]
  generalize StorageServer.undoFileChangeLl s filename = result at undone ⊢
  obtain ⟨t, code⟩ := result
  simp only
  split
  · exact undone
  · exact moves.trans undone (moves.updateFileStatisticsLl t)

end RestoreMoves

namespace SessionMoves

variable (moves : SessionMoves filename related)

include moves

theorem syncFileToDisk (s : FileHandler) :
    related s (syncFileToDisk s filename).1 := by
  rw [syncFileToDisk_eq]
  cases got : StorageServer.getFileFromCache s filename with
  | none => exact moves.refl s
  | some loaded =>
      apply moves.trans (moves.getFileFromCache got)
      simp only [FilePaths.sync_eq]
      split
      · exact moves.refl _
      · rename_i source opens _
        exact moves.swap _ source opens
      · rename_i source goal opens goalOpens
        apply moves.trans (moves.swap _ source opens)
        exact moves.write { loaded.1 with disk := _ } goal _ goalOpens

theorem commitWrite (s : FileHandler) (session : WriteSession)
    (now : TimeText) :
    related s (commitWrite s filename session now).1 := by
  rw [StorageServer.commitWrite]
  cases got : StorageServer.getFileFromCache s filename with
  | none => exact moves.refl s
  | some loaded =>
      apply moves.trans (moves.getFileFromCache got)
      simp only
      split
      · exact moves.fileRelease _
      · apply moves.trans (moves.cache _ _)
        apply moves.trans (moves.fileRelease _)
        apply moves.trans (moves.syncFileToDisk _)
        exact moves.updateFileWriteStatsLl _ now

theorem handleWriteRequest (s : FileHandler) (username : Username)
    (sentenceIndex : Int) (messages : List WriteMessage) (now : TimeText) :
    related s (handleWriteRequest s filename username sentenceIndex messages
      now).1 := by
  have opened := moves.openWrite s username sentenceIndex
  rw [StorageServer.handleWriteRequest]
  generalize StorageServer.openWrite s filename username sentenceIndex =
    result at opened ⊢
  obtain ⟨t, response, session⟩ := result
  cases session with
  | none => exact opened
  | some session =>
      apply moves.trans opened
      simp only
      split
      · apply moves.trans (moves.unlockSentenceLl t _ _)
        exact moves.commitWrite _ _ now
      · apply moves.trans (moves.unlockSentenceLl t _ _)
        exact moves.undoFileChangeLl _

end SessionMoves

end Dfs.StorageServer
