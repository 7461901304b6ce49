import Dfs.StorageServer.Queries
import Dfs.StorageServer.DiskFrames
import Dfs.StorageServer.CompleteRequests

/-!
# What the client port changes without write access

READ and STREAM write the time of the last access and nothing else, and WRITE
asks for write access before it touches its file.  Two paths remain: UNDO asks
nobody, and a WRITE to another name may lead to the same file, or to its
backup.  Every session is followed in every state here, also with reference
counts that no run reaches, down to the places it changes on disk; the theorem
at the end says exactly when a request of a user without write access leaves
the file as it is.
-/

namespace Dfs.StorageServer

/-- What `get_file_from_cache` finds, before it counts the reference. -/
def loadedFile (s : FileHandler) (filename : Filename) : Option LoadedFile :=
  match s.fileCache.get filename with
  | some file => some file
  | none => loadFileIntoMemory s filename

/-- The last reference of a document that is marked for deletion. -/
def LoadedFile.Expired (file : LoadedFile) : Prop :=
  file.refcount = 0 ∧ file.markedForDeletion = true

instance (file : LoadedFile) : Decidable file.Expired :=
  inferInstanceAs (Decidable (_ ∧ _))

section

variable {s : FileHandler} {filename : Filename}

theorem getFileFromCache_eq (s : FileHandler) (filename : Filename) :
    getFileFromCache s filename =
      (loadedFile s filename).map fun file =>
        (s.cache filename { file with refcount := file.refcount + 1 },
          { file with refcount := file.refcount + 1 }) :=
  rfl

theorem loadedFile_of_cached {file : LoadedFile}
    (cached : s.fileCache.get filename = some file) :
    loadedFile s filename = some file := by
  rw [loadedFile, cached]

@[simp] theorem loadedFile_cache (file : LoadedFile) :
    loadedFile (s.cache filename file) filename = some file :=
  loadedFile_of_cached (Store.get_set_self _ _ _)

/-- The reference that an operation took is given back; the disk file is what
remains of an expired document. -/
theorem loadedFile_fileRelease (file : LoadedFile) :
    loadedFile (fileRelease (s.cache filename
        { file with refcount := file.refcount + 1 }) filename) filename =
      if file.Expired then loadFileIntoMemory s filename else some file := by
  unfold fileRelease
  simp only [FileHandler.cache, Store.get_set_self, Int.add_sub_cancel]
  by_cases expired : file.Expired
  · have freed : file.refcount = 0 ∧ file.markedForDeletion = true := expired
    rw [if_pos freed, if_pos expired]
    simp only [loadedFile, FileHandler.uncache, Store.get_erase_self]
    rfl
  · have kept : ¬(file.refcount = 0 ∧ file.markedForDeletion = true) :=
      expired
    rw [if_neg kept, if_neg expired]
    simp [loadedFile]

theorem not_expired_of_loadFileIntoMemory {file : LoadedFile}
    (loaded : loadFileIntoMemory s filename = some file) : ¬file.Expired := by
  unfold loadFileIntoMemory at loaded
  obtain ⟨content, _, same⟩ := Option.map_eq_some_iff.mp loaded
  rw [← same]
  simp [LoadedFile.Expired]

/-- What the lock leaves to the rest of the session: an expired document is
freed, and the disk file is read instead. -/
def lockedFile (s : FileHandler) (filename : Filename)
    (sentenceIndex : Int) (username : Username) : Option LoadedFile :=
  match loadedFile s filename with
  | none => none
  | some file =>
      if file.Expired then loadFileIntoMemory s filename
      else some { file with
        toDocument := (file.lockSentence sentenceIndex username).1 }

theorem loadedFile_lockSentenceLl (sentenceIndex : Int)
    (username : Username) :
    loadedFile (lockSentenceLl s filename sentenceIndex username).1
      filename = lockedFile s filename sentenceIndex username := by
  unfold lockSentenceLl lockedFile
  rw [getFileFromCache_eq]
  cases loaded : loadedFile s filename with
  | none => exact loaded
  | some file =>
      exact @loadedFile_fileRelease (s.cache filename
        { file with refcount := file.refcount + 1 }) filename
        { file with
          toDocument := (file.lockSentence sentenceIndex username).1 }

theorem lockSentenceLl_code (sentenceIndex : Int) (username : Username) :
    (lockSentenceLl s filename sentenceIndex username).2 = 0 ↔
      ∃ file, loadedFile s filename = some file ∧
        (file.lockSentence sentenceIndex username).2 = 0 := by
  unfold lockSentenceLl
  rw [getFileFromCache_eq]
  cases loadedFile s filename with
  | none => simp [errFileNotFound]
  | some file => simp

theorem not_expired_of_lockedFile {sentenceIndex : Int} {username : Username}
    {file : LoadedFile}
    (locked : lockedFile s filename sentenceIndex username = some file) :
    ¬file.Expired := by
  unfold lockedFile at locked
  split at locked
  · cases locked
  · split at locked
    · exact not_expired_of_loadFileIntoMemory locked
    · rename_i kept
      cases locked
      exact kept

/-- The checks before the command loop, and the document they leave. -/
structure Opens (s : FileHandler) (filename : Filename)
    (username : Username) (sentenceIndex : Int) (file : LoadedFile) :
    Prop where
  allowed : (hasWriteAccessLl s filename username).1 = true
  valid : validateWrite (s.diskText filename)
    (s.disk.statSize (getFilePath s.storage filename)) sentenceIndex = none
  free : ∃ file, loadedFile s filename = some file ∧
    (file.lockSentence sentenceIndex username).2 = 0
  locked : lockedFile s filename sentenceIndex username = some file

theorem SameFiles.loadedFile {s t : FileHandler} (same : SameFiles s t) :
    loadedFile s filename = loadedFile t filename := by
  unfold StorageServer.loadedFile loadFileIntoMemory FileHandler.diskText
  rw [same.fileCache, same.disk, same.storage]

theorem SameFiles.lockedFile {s t : FileHandler} (same : SameFiles s t)
    (sentenceIndex : Int) (username : Username) :
    lockedFile s filename sentenceIndex username =
      lockedFile t filename sentenceIndex username := by
  unfold StorageServer.lockedFile loadFileIntoMemory FileHandler.diskText
  rw [same.loadedFile, same.disk, same.storage]

/-- A session is opened exactly after these checks.  Its backup is saved, and
keeps one reference. -/
theorem openWrite_session (username : Username) (sentenceIndex : Int) :
    ((openWrite s filename username sentenceIndex).2.2 = none ∧
        SameDisk s (openWrite s filename username sentenceIndex).1 ∧
        ∀ file, ¬Opens s filename username sentenceIndex file) ∨
      ∃ file, Opens s filename username sentenceIndex file ∧
        (openWrite s filename username sentenceIndex).2.2 =
          some (newSession username sentenceIndex
            (file.wordCountAt sentenceIndex)) ∧
        loadedFile (openWrite s filename username sentenceIndex).1
          filename = some { file with refcount := file.refcount + 1 } ∧
        (openWrite s filename username sentenceIndex).1.storage =
          s.storage ∧
        (openWrite s filename username sentenceIndex).1.disk =
          (filePaths s.storage filename).saveBackup s.disk
            (undoBackupText file.sentences) := by
  have checked := @sameFiles_hasWriteAccessLl s filename username
  have code := @lockSentenceLl_code (hasWriteAccessLl s filename username).2
    filename sentenceIndex username
  have locked := @loadedFile_lockSentenceLl
    (hasWriteAccessLl s filename username).2 filename sentenceIndex username
  rw [checked.loadedFile] at code
  rw [checked.lockedFile] at locked
  have moves := sameDisk_moves filename
  have checkedDisk := moves.hasAccessLl 2 s username
  have lockedDisk := checkedDisk.trans (moves.lockSentenceLl
    (hasWriteAccessLl s filename username).2 sentenceIndex username)
  have text : (hasWriteAccessLl s filename username).2.diskText filename =
      s.diskText filename := by
    rw [FileHandler.diskText, checked.storage, checked.disk]
    rfl
  have size : (hasWriteAccessLl s filename username).2.disk.statSize
      (getFilePath (hasWriteAccessLl s filename username).2.storage
        filename) = s.disk.statSize (getFilePath s.storage filename) := by
    rw [checked.storage, checked.disk]
  unfold openWrite
  cases allowed : (hasWriteAccessLl s filename username).1 with
  | false =>
      simp only [allowed, ↓reduceIte]
      refine .inl ⟨trivial, checkedDisk, ?_⟩
      intro file opens
      rw [opens.allowed] at allowed
      cases allowed
  | true =>
      simp only [allowed, Bool.true_eq_false, ↓reduceIte, text, size]
      cases valid : validateWrite (s.diskText filename)
          (s.disk.statSize (getFilePath s.storage filename))
          sentenceIndex with
      | some response =>
          refine .inl ⟨rfl, checkedDisk, ?_⟩
          intro file opens
          rw [opens.valid] at valid
          cases valid
      | none =>
          generalize lockSentenceLl (hasWriteAccessLl s filename username).2
            filename sentenceIndex username = result
            at code locked lockedDisk ⊢
          obtain ⟨t, lockResult⟩ := result
          simp only at code locked lockedDisk ⊢
          by_cases granted : lockResult = 0
          · rw [if_neg (not_not_intro granted), getFileFromCache_eq, locked]
            cases found : lockedFile s filename sentenceIndex username with
            | none =>
                refine .inl ⟨rfl, lockedDisk.trans
                  (moves.unlockSentenceLl t sentenceIndex username), ?_⟩
                intro file opens
                rw [opens.locked] at found
                cases found
            | some file =>
                refine .inr ⟨file,
                  ⟨allowed, valid, code.mp granted, found⟩, rfl, ?_⟩
                have released := @loadedFile_fileRelease t filename file
                rw [if_neg (not_expired_of_lockedFile found)] at released
                have releasedDisk := lockedDisk.trans
                  ((moves.cache t _).trans (moves.fileRelease (t.cache
                    filename { file with refcount := file.refcount + 1 })))
                simp only [Option.map_some, saveUndoBackupLl_eq,
                  getFileFromCache_eq, released]
                refine ⟨loadedFile_of_cached (Store.get_set_self _ _ _),
                  releasedDisk.storage, ?_⟩
                rw [FileHandler.cache, releasedDisk.storage,
                  releasedDisk.disk]
          · rw [if_pos granted]
            refine .inl ⟨rfl, lockedDisk, ?_⟩
            intro file opens
            exact granted (code.mpr opens.free)

theorem loadedFile_unlockSentenceLl {file : LoadedFile}
    (loaded : loadedFile s filename = some file) (sentenceIndex : Int)
    (username : Username) :
    loadedFile (unlockSentenceLl s filename sentenceIndex username).1
      filename = some { file with
        toDocument := (file.unlockSentence sentenceIndex username).1
        refcount := file.refcount + 1 } := by
  simp only [unlockSentenceLl, getFileFromCache_eq, loaded, Option.map_some]
  exact loadedFile_cache _

theorem disk_syncFileToDisk :
    (syncFileToDisk s filename).1.disk =
      match loadedFile s filename with
      | none => s.disk
      | some file =>
          (filePaths s.storage filename).sync s.disk
            (writeLinkedListToFile file.sentences) := by
  rw [syncFileToDisk_eq, getFileFromCache_eq]
  cases loadedFile s filename <;> rfl

/-- The document that a commit writes.  One that expires is freed first, and
read from disk again. -/
def writtenDocument (disk : FileSystem) (paths : FilePaths)
    (file : LoadedFile) (session : WriteSession) : Option Document :=
  (file.commit session).bind fun document =>
    if file.Expired then (disk.load paths.file).map loadDocument
    else some document

theorem disk_commitWrite {file : LoadedFile}
    (loaded : loadedFile s filename = some file) (session : WriteSession)
    (now : TimeText) :
    (commitWrite s filename session now).1.disk =
      match writtenDocument s.disk (filePaths s.storage filename) file
        session with
      | none => s.disk
      | some document =>
          (filePaths s.storage filename).sync s.disk
            (writeLinkedListToFile document.sentences) := by
  have moves := sameDisk_moves filename
  have read : loadFileIntoMemory s filename =
      (s.disk.load (filePaths s.storage filename).file).map fun content =>
        ⟨loadDocument content, 0, false⟩ := by
    rw [loadFileIntoMemory, FileHandler.diskText, getFilePath_eq]
  unfold commitWrite writtenDocument
  rw [getFileFromCache_eq, loaded]
  simp only [Option.map_some]
  cases file.commit session with
  | none =>
      exact ((moves.cache s _).trans (moves.fileRelease (s.cache filename
        { file with refcount := file.refcount + 1 }))).disk
  | some document =>
      have left := @loadedFile_fileRelease (s.cache filename
        { file with refcount := file.refcount + 1 }) filename
        { file with toDocument := document }
      have same := ((moves.cache s _).trans (moves.cache (s.cache filename
        { file with refcount := file.refcount + 1 }) _)).trans
          (moves.fileRelease ((s.cache filename
            { file with refcount := file.refcount + 1 }).cache filename
              { file with
                toDocument := document
                refcount := file.refcount + 1 }))
      simp only [Option.bind_some]
      rw [(sameFiles_updateFileWriteStatsLl now).disk, disk_syncFileToDisk,
        left, same.disk, same.storage]
      by_cases expired : file.Expired
      · have freed : LoadedFile.Expired { file with toDocument := document } :=
          expired
        have uncached : loadFileIntoMemory (s.cache filename
            { file with refcount := file.refcount + 1 }) filename =
              loadFileIntoMemory s filename := rfl
        rw [if_pos freed, if_pos expired, uncached, read]
        cases s.disk.load (filePaths s.storage filename).file <;> rfl
      · have kept : ¬LoadedFile.Expired
            { file with toDocument := document } := expired
        rw [if_neg kept, if_neg expired]

theorem disk_undoFileChangeLl :
    (undoFileChangeLl s filename).1.disk =
      (s.disk.copy (filePaths s.storage filename).backup
        (filePaths s.storage filename).file).getD s.disk := by
  rw [undoFileChangeLl_eq]
  cases s.disk.copy (filePaths s.storage filename).backup
      (filePaths s.storage filename).file with
  | none => rfl
  | some disk =>
      exact ((sameDisk_moves filename).reloadFileFromDisk
        { s with disk := disk }).disk

end

namespace FilePaths

variable (paths : FilePaths) (fs : FileSystem)

/-- Where `save_undo_backup_ll` writes, once the folders are there. -/
def backupChanges (text : Text) : List (Location × Option Text) :=
  (fs.target paths.backup).toList.map fun place => (place, some text)

/-- What `sync_file_to_disk` changes where. -/
def syncChanges (text : Text) : List (Location × Option Text) :=
  match fs.target paths.swap, fs.target paths.file with
  | none, _ => []
  | some source, none => [(source, none)]
  | some source, some goal => [(source, none), (goal, some text)]

/-- What `undo_file_change_ll` changes where. -/
def restoreChanges : List (Location × Option Text) :=
  match fs.read paths.backup, fs.target paths.file with
  | some backup, some goal => [(goal, some backup)]
  | _, _ => []

theorem saveBackup_changes (text : Text) :
    paths.saveBackup fs text = (fs.makeParents paths.backup).changeAll
      (paths.backupChanges (fs.makeParents paths.backup) text) := by
  rw [saveBackup_eq, backupChanges]
  cases (fs.makeParents paths.backup).target paths.backup <;> rfl

theorem sync_changes (text : Text) :
    paths.sync fs text = fs.changeAll (paths.syncChanges fs text) := by
  rw [sync_eq, syncChanges]
  cases fs.target paths.swap with
  | none => rfl
  | some source => cases fs.target paths.file <;> rfl

theorem copy_changes :
    (fs.copy paths.backup paths.file).getD fs =
      fs.changeAll (paths.restoreChanges fs) := by
  unfold restoreChanges
  cases saved : fs.read paths.backup with
  | none =>
      rw [FileSystem.copy_eq_none (.inr saved)]
      rfl
  | some backup =>
      cases opens : fs.target paths.file with
      | none =>
          rw [FileSystem.copy_eq_none (.inl opens)]
          rfl
      | some goal =>
          rw [FileSystem.copy_apart opens (file_apart_backup opens) saved]
          rfl

end FilePaths

/-- What a session on this document changes where, by the paths as they are
once the folders of the backup were made. -/
def sessionChanges (disk : FileSystem) (paths : FilePaths)
    (file : LoadedFile) (received : WriteSession × Bool × List Response) :
    List (Location × Option Text) :=
  let (session, completed, _) := received
  let backup := undoBackupText file.sentences
  let saved := paths.saveBackup disk backup
  paths.backupChanges (disk.makeParents paths.backup) backup ++
    if completed then
      match writtenDocument saved paths
        { file with
          toDocument :=
            (file.unlockSentence session.sentenceIndex session.username).1
          refcount := file.refcount + 1 + 1 } session with
      | none => []
      | some document =>
          paths.syncChanges saved (writeLinkedListToFile document.sentences)
    else paths.restoreChanges saved

/-- Every place is changed once, and belongs to the file or its swap file. -/
structure FilePaths.Beside (paths : FilePaths) (fs : FileSystem)
    (changes : List (Location × Option Text)) : Prop where
  distinct : (changes.map Prod.fst).Nodup
  places : ∀ entry ∈ changes, fs.target paths.swap = some entry.1 ∨
    fs.target paths.file = some entry.1

theorem FilePaths.beside_syncChanges (paths : FilePaths) (fs : FileSystem)
    (text : Text) : paths.Beside fs (paths.syncChanges fs text) := by
  unfold syncChanges
  cases opens : fs.target paths.swap with
  | none => exact ⟨by simp, by simp⟩
  | some source =>
      cases goalOpens : fs.target paths.file with
      | none => exact ⟨by simp, by simp [opens]⟩
      | some goal =>
          have apart : source ≠ goal := by
            rintro rfl
            exact swap_apart_file opens (FileSystem.locate_of_target goalOpens)
          exact ⟨by simp [apart], by simp [opens, goalOpens]⟩

theorem FilePaths.beside_restoreChanges (paths : FilePaths)
    (fs : FileSystem) : paths.Beside fs (paths.restoreChanges fs) := by
  unfold restoreChanges
  cases fs.read paths.backup with
  | none => exact ⟨by simp, by simp⟩
  | some backup =>
      cases opens : fs.target paths.file with
      | none => exact ⟨by simp, by simp⟩
      | some goal => exact ⟨by simp, by simp [opens]⟩

/-- A session changes no place twice, and no folder. -/
theorem sessionChanges_places (disk : FileSystem) (paths : FilePaths)
    (file : LoadedFile) (received : WriteSession × Bool × List Response) :
    ((sessionChanges disk paths file received).map Prod.fst).Nodup ∧
      ∀ entry ∈ sessionChanges disk paths file received,
        ¬(disk.makeParents paths.backup).IsFolder entry.1 := by
  obtain ⟨session, completed, responses⟩ := received
  unfold sessionChanges
  simp only
  generalize savedIs : paths.saveBackup disk (undoBackupText file.sentences) =
    saved
  have same : saved.folders = (disk.makeParents paths.backup).folders :=
    savedIs ▸ FilePaths.folders_saveBackup paths disk _
  have targets := FileView.target_congr same
  have rest : ∀ changes, paths.Beside saved changes →
      ((paths.backupChanges (disk.makeParents paths.backup)
          (undoBackupText file.sentences) ++ changes).map Prod.fst).Nodup ∧
        ∀ entry ∈ paths.backupChanges (disk.makeParents paths.backup)
            (undoBackupText file.sentences) ++ changes,
          ¬(disk.makeParents paths.backup).IsFolder entry.1 := by
    rintro changes ⟨distinct, places⟩
    simp only [targets] at places
    have file : ∀ entry ∈ changes,
        ¬(disk.makeParents paths.backup).IsFolder entry.1 := by
      intro entry listed
      rcases places entry listed with opens | opens
      · exact FileSystem.not_isFolder_of_target opens
      · exact FileSystem.not_isFolder_of_target opens
    unfold FilePaths.backupChanges
    cases opens : (disk.makeParents paths.backup).target paths.backup with
    | none => exact ⟨by simpa using distinct, by simpa using file⟩
    | some place =>
        have reached := FileSystem.locate_of_target opens
        have apart : place ∉ changes.map Prod.fst := by
          intro listed
          obtain ⟨entry, found, rfl⟩ := List.mem_map.mp listed
          rcases places entry found with swap | goal
          · exact FilePaths.swap_apart_backup swap reached
          · exact FilePaths.file_apart_backup goal reached
        refine ⟨List.nodup_cons.mpr ⟨apart, distinct⟩, ?_⟩
        intro entry listed
        rcases List.mem_cons.mp listed with rfl | later
        · exact FileSystem.not_isFolder_of_target opens
        · exact file entry later
  apply rest
  split
  · split
    · exact ⟨by simp, by simp⟩
    · exact FilePaths.beside_syncChanges paths saved _
  · exact FilePaths.beside_restoreChanges paths saved

/-- After the changes a path reads as on the disk before.  The folders in
`made` are there first. -/
def Spares (disk made : FileSystem)
    (changes : List (Location × Option Text)) (path : PathName) : Prop :=
  (∀ entry ∈ changes, made.locate path = some entry.1 →
      entry.2 = disk.read path) ∧
    ((∀ entry ∈ changes, made.locate path ≠ some entry.1) →
      made.read path = disk.read path)

instance (disk made : FileSystem) (changes : List (Location × Option Text))
    (path : PathName) : Decidable (Spares disk made changes path) :=
  inferInstanceAs (Decidable (_ ∧ _))

theorem read_changeAll_iff {disk made : FileSystem}
    {changes : List (Location × Option Text)}
    (distinct : (changes.map Prod.fst).Nodup)
    (files : ∀ entry ∈ changes, ¬made.IsFolder entry.1) (path : PathName) :
    (made.changeAll changes).read path = disk.read path ↔
      Spares disk made changes path := by
  by_cases changed : ∃ entry ∈ changes, made.locate path = some entry.1
  · obtain ⟨entry, listed, reached⟩ := changed
    have found : ∀ other ∈ changes, made.locate path = some other.1 →
        (made.changeAll changes).read path = other.2 :=
      fun other otherListed there => FileSystem.read_changeAll distinct
        otherListed there (files other otherListed)
    constructor
    · intro same
      exact ⟨fun other otherListed there =>
        (found other otherListed there).symm.trans same,
        fun apart => (apart entry listed reached).elim⟩
    · intro spares
      exact (found entry listed reached).trans
        (spares.1 entry listed reached)
  · have apart : ∀ entry ∈ changes, made.locate path ≠ some entry.1 :=
      fun entry listed reached => changed ⟨entry, listed, reached⟩
    rw [(FileSystem.sameAt_changeAll apart).read]
    exact ⟨fun same => ⟨fun entry listed reached =>
      (apart entry listed reached).elim, fun _ => same⟩,
      fun spares => spares.2 apart⟩

section

variable {s : FileHandler} {filename : Filename}

/-- A WRITE that is refused leaves the disk alone. -/
theorem disk_handleWriteRequest (username : Username) (sentenceIndex : Int)
    (messages : List WriteMessage) (now : TimeText) :
    ((∀ file, ¬Opens s filename username sentenceIndex file) ∧
        (handleWriteRequest s filename username sentenceIndex messages
          now).1.disk = s.disk) ∨
      ∃ file, Opens s filename username sentenceIndex file ∧
        (handleWriteRequest s filename username sentenceIndex messages
          now).1.disk =
            (s.disk.makeParents (filePaths s.storage filename).backup
              ).changeAll (sessionChanges s.disk
                (filePaths s.storage filename) file
                (receiveCommands (newSession username sentenceIndex
                  (file.wordCountAt sentenceIndex)) messages)) := by
  have session := @openWrite_session s filename username sentenceIndex
  unfold handleWriteRequest
  generalize openWrite s filename username sentenceIndex = result
    at session ⊢
  obtain ⟨t, response, started⟩ := result
  simp only at session ⊢
  rcases session with ⟨rfl, same, refused⟩ |
    ⟨file, opens, rfl, loaded, storage, disk⟩
  · exact .inl ⟨refused, same.disk⟩
  · refine .inr ⟨file, opens, ?_⟩
    simp only
    generalize receiveCommands (newSession username sentenceIndex
      (file.wordCountAt sentenceIndex)) messages = received
    obtain ⟨last, completed, responses⟩ := received
    have unlocked := loadedFile_unlockSentenceLl loaded last.sentenceIndex
      last.username
    have kept := (sameDisk_moves filename).unlockSentenceLl t
      last.sentenceIndex last.username
    unfold sessionChanges
    simp only
    rw [FileSystem.changeAll_append, ← FilePaths.saveBackup_changes]
    cases completed with
    | false =>
        simp only [Bool.false_eq_true, ↓reduceIte, rollbackWrite]
        rw [disk_undoFileChangeLl, kept.disk, kept.storage, storage, disk,
          FilePaths.copy_changes]
    | true =>
        simp only [↓reduceIte]
        rw [disk_commitWrite unlocked, kept.disk, kept.storage, storage, disk]
        split
        · rename_i missing
          rw [missing]
          rfl
        · rename_i document written
          rw [written, FilePaths.sync_changes]

end

def FileMetadata.statistics (record : FileMetadata) : Int × Int × Int :=
  (record.fileSize, record.wordCount, record.charCount)

/-- The size, word count and character count of the record, if there is one. -/
def statistics (s : FileHandler) (filename : Filename) :
    Option (Int × Int × Int) :=
  (findMetadata s filename).map FileMetadata.statistics

/-- What `update_file_statistics_ll` counts in a text. -/
def textStatistics (content : Text) : Int × Int × Int :=
  (content.length, countWords statisticsBreak false content, content.length)

/-- Disk content, cached document, undo backup and statistics are kept. -/
structure SameFile (filename : Filename) (s t : FileHandler) : Prop where
  disk : t.disk.read (filePaths s.storage filename).file =
    s.disk.read (filePaths s.storage filename).file
  cached : (t.fileCache.get filename).map LoadedFile.toDocument =
    (s.fileCache.get filename).map LoadedFile.toDocument
  undo : t.disk.read (filePaths s.storage filename).backup =
    s.disk.read (filePaths s.storage filename).backup
  statistics : statistics t filename = statistics s filename

/-- The request leaves the file alone: UNDO has no backup to restore, or the
file is already what it restores, and where it restores another name, or a
session of another name is opened, nothing else is put in the place of the
file or of its backup. -/
def ClientRequest.KeepsFile (filename : Filename) (username : Username)
    (s : FileHandler) : ClientRequest → Prop
  | .undo target =>
      (∀ path ∈ [(filePaths s.storage filename).file,
          (filePaths s.storage filename).backup],
        Spares s.disk s.disk
          ((filePaths s.storage target).restoreChanges s.disk) path) ∧
      (target = filename → ∀ backup,
        s.disk.read (filePaths s.storage filename).backup = some backup →
        (s.disk.target (filePaths s.storage filename).file).isSome →
          (s.fileCache.get filename).map LoadedFile.toDocument =
            some (loadDocument backup) ∧
          statistics s filename = (findMetadata s filename).map
            fun _ => textStatistics backup)
  | .write target sentenceIndex messages =>
      ∀ file, Opens s target username sentenceIndex file →
        ∀ path ∈ [(filePaths s.storage filename).file,
            (filePaths s.storage filename).backup],
          Spares s.disk
            (s.disk.makeParents (filePaths s.storage target).backup)
            (sessionChanges s.disk (filePaths s.storage target) file
              (receiveCommands (newSession username sentenceIndex
                (file.wordCountAt sentenceIndex)) messages)) path
  | _ => True

section

variable {s t u : FileHandler} {filename target : Filename}

theorem SameFile.refl (filename : Filename) (s : FileHandler) :
    SameFile filename s s :=
  ⟨rfl, rfl, rfl, rfl⟩

theorem sameFile_of_disk (silent : Silent s t)
    (disk : t.disk = s.disk)
    (counts : statistics t filename = statistics s filename) :
    SameFile filename s t :=
  ⟨by rw [disk], by rw [silent.cache], by rw [disk], counts⟩

/-- A change of the record that keeps the counts. -/
theorem statistics_updateMetadata {change : FileMetadata → FileMetadata}
    (named : ∀ record, (change record).filename = record.filename)
    (counts : ∀ record, (change record).statistics = record.statistics) :
    statistics (saveMetadataLl (updateMetadata s target change)) filename =
      statistics s filename := by
  change (findMetadata (updateMetadata s target change) filename).map _ = _
  by_cases same : filename = target
  · subst same
    rw [findMetadata_updateMetadata named, Option.map_map]
    exact congrArg (fun f => Option.map f _) (funext counts)
  · exact congrArg _ (find?_modifyRecord s.metadataList named same)

theorem statistics_of_same (same : SameDisk s t) :
    statistics t filename = statistics s filename := by
  unfold statistics
  rw [same.findMetadata]

theorem sameFile_handleTransferRequest (username : Username)
    (now : TimeText) :
    SameFile filename s (handleTransferRequest s target username now).1 := by
  refine sameFile_of_disk (silent_handleTransferRequest username now)
    (disk_handleTransferRequest username now) ?_
  have checked := @statistics_of_same _ _ filename
    ((sameDisk_moves target).hasAccessLl 1 s username)
  unfold handleTransferRequest hasReadAccessLl
  generalize hasAccessLl 1 s target username = access at checked ⊢
  obtain ⟨allowed, t⟩ := access
  simp only at checked ⊢
  split
  · exact checked
  · split
    · exact checked
    · refine Eq.trans ?_ checked
      unfold updateFileAccessedTimeLl
      split
      · rfl
      · exact statistics_updateMetadata (fun _ => rfl) (fun _ => rfl)

/-- Requests on another file reach the disk only. -/
theorem sameFile_iff_of_frame (different : filename ≠ target)
    (frame : Frame target s t) (records : OtherRecords target s t) :
    SameFile filename s t ↔
      ∀ path ∈ [(filePaths s.storage filename).file,
        (filePaths s.storage filename).backup],
        t.disk.read path = s.disk.read path := by
  constructor
  · intro same path listed
    rcases List.mem_pair.mp listed with rfl | rfl
    · exact same.disk
    · exact same.undo
  · intro same
    refine ⟨same _ (by simp), by rw [frame.cache filename different],
      same _ (by simp), ?_⟩
    unfold statistics
    rw [records filename different]

theorem otherRecords_handleUndoRequest :
    OtherRecords target s (handleUndoRequest s target).1 :=
  (otherRecords_moves target).toRestoreMoves.handleUndoRequest s

theorem disk_handleUndoRequest :
    (handleUndoRequest s target).1.disk =
      s.disk.changeAll
        ((filePaths s.storage target).restoreChanges s.disk) := by
  have undone := @disk_undoFileChangeLl s target
  unfold handleUndoRequest
  generalize undoFileChangeLl s target = result at undone ⊢
  obtain ⟨t, code⟩ := result
  simp only at undone ⊢
  rw [← FilePaths.copy_changes, ← undone]
  split
  · rfl
  · exact sameFiles_updateFileStatisticsLl.disk

theorem read_handleUndoRequest_iff (path : PathName) :
    (handleUndoRequest s target).1.disk.read path = s.disk.read path ↔
      Spares s.disk s.disk
        ((filePaths s.storage target).restoreChanges s.disk) path := by
  have beside := FilePaths.beside_restoreChanges (filePaths s.storage target)
    s.disk
  rw [disk_handleUndoRequest]
  refine read_changeAll_iff beside.distinct (fun entry listed => ?_) path
  rcases beside.places entry listed with opens | opens
  · exact FileSystem.not_isFolder_of_target opens
  · exact FileSystem.not_isFolder_of_target opens

theorem statistics_updateFileStatisticsLl {content : Text}
    (opens : (s.disk.openRead (getFilePath s.storage filename)) =
      some ⟨content, content.length⟩) :
    statistics (updateFileStatisticsLl s filename).1 filename =
      (findMetadata s filename).map fun _ => textStatistics content := by
  unfold updateFileStatisticsLl
  rw [opens]
  cases record : findMetadata s filename with
  | none => simp [statistics, record]
  | some metadata =>
      change (findMetadata (updateMetadata s filename _) filename).map _ = _
      rw [findMetadata_updateMetadata, record]
      · rfl
      · intro other
        rfl

/-- What a successful UNDO leaves in memory. -/
theorem handleUndoRequest_of_saved {backup : Text} {place : Location}
    (saved : s.disk.read (filePaths s.storage filename).backup =
      some backup)
    (opens : s.disk.target (filePaths s.storage filename).file =
      some place) :
    ((handleUndoRequest s filename).1.fileCache.get filename).map
        LoadedFile.toDocument = some (loadDocument backup) ∧
      statistics (handleUndoRequest s filename).1 filename =
        (findMetadata s filename).map fun _ => textStatistics backup := by
  have copied := FileSystem.copy_apart opens
    (FilePaths.file_apart_backup opens) saved
  have loaded : loadFileIntoMemory
      (FileHandler.uncache { s with disk := s.disk.put place backup }
        filename) filename = some ⟨loadDocument backup, 0, false⟩ := by
    rw [loadFileIntoMemory, FileHandler.diskText, getFilePath_eq]
    change ((s.disk.put place backup).load
      (filePaths s.storage filename).file).map _ = _
    rw [FileSystem.load_put opens, Option.map_some]
  have undone : undoFileChangeLl s filename =
      ((FileHandler.uncache { s with disk := s.disk.put place backup }
        filename).cache filename ⟨loadDocument backup, 0, false⟩, 0) := by
    rw [undoFileChangeLl_eq, copied]
    simp only [reloadFileFromDisk, loaded]
  unfold handleUndoRequest
  rw [undone]
  simp only [Int.lt_irrefl, ↓reduceIte]
  refine ⟨?_, ?_⟩
  · rw [sameFiles_updateFileStatisticsLl.fileCache]
    simp [FileHandler.cache]
  · rw [statistics_updateFileStatisticsLl]
    · rfl
    · rw [getFilePath_eq]
      exact FileSystem.openRead_put opens

theorem handleUndoRequest_of_unsaved
    (unsaved : ∀ backup,
      s.disk.read (filePaths s.storage filename).backup = some backup →
        ¬(s.disk.target (filePaths s.storage filename).file).isSome) :
    (handleUndoRequest s filename).1 = s := by
  have failed : s.disk.copy (filePaths s.storage filename).backup
      (filePaths s.storage filename).file = none := by
    cases saved : s.disk.read (filePaths s.storage filename).backup with
    | none => exact FileSystem.copy_eq_none (.inr saved)
    | some backup =>
        exact FileSystem.copy_eq_none
          (.inl (by simpa using unsaved backup saved))
  have kept : undoFileChangeLl s filename = (s, -1) := by
    rw [undoFileChangeLl_eq, failed]
  simp [handleUndoRequest, kept]

/-- UNDO by anyone keeps the file only if it is what is restored. -/
theorem sameFile_undo_iff (username : Username) :
    SameFile filename s (handleUndoRequest s target).1 ↔
      (ClientRequest.undo target).KeepsFile filename username s := by
  by_cases same : filename = target
  · subst same
    have reads := @read_handleUndoRequest_iff s filename
    by_cases restores : ∃ backup,
        s.disk.read (filePaths s.storage filename).backup = some backup ∧
          (s.disk.target (filePaths s.storage filename).file).isSome
    · obtain ⟨backup, saved, writable⟩ := restores
      obtain ⟨place, opens⟩ := Option.isSome_iff_exists.mp writable
      obtain ⟨cached, counts⟩ := handleUndoRequest_of_saved saved opens
      constructor
      · intro kept
        refine ⟨fun path listed => (reads path).mp ?_,
          fun _ other found _ => ?_⟩
        · rcases List.mem_pair.mp listed with rfl | rfl
          · exact kept.disk
          · exact kept.undo
        · obtain rfl := Option.some.inj (saved.symm.trans found)
          exact ⟨kept.cached.symm.trans cached,
            kept.statistics.symm.trans counts⟩
      · rintro ⟨spares, restored⟩
        obtain ⟨keptCached, keptCounts⟩ := restored rfl backup saved writable
        exact ⟨(reads _).mpr (spares _ (by simp)),
          cached.trans keptCached.symm, (reads _).mpr (spares _ (by simp)),
          counts.trans keptCounts.symm⟩
    · have unsaved : ∀ backup,
          s.disk.read (filePaths s.storage filename).backup = some backup →
            ¬(s.disk.target (filePaths s.storage filename).file).isSome :=
        fun backup saved writable => restores ⟨backup, saved, writable⟩
      have unchanged := handleUndoRequest_of_unsaved unsaved
      have spares : (ClientRequest.undo filename).KeepsFile filename username
          s :=
        ⟨fun path _ => (reads path).mp (by rw [unchanged]),
          fun _ backup saved writable =>
            (unsaved backup saved writable).elim⟩
      rw [unchanged]
      exact iff_of_true (.refl filename s) spares
  · rw [sameFile_iff_of_frame same frame_handleUndoRequest
      otherRecords_handleUndoRequest]
    simp only [read_handleUndoRequest_iff]
    exact ⟨fun spares => ⟨spares, fun equal => (same equal.symm).elim⟩,
      And.left⟩

/-- WRITE asks for access first. -/
theorem not_opens_of_denied {username : Username}
    (denied : (hasWriteAccessLl s filename username).1 = false)
    (sentenceIndex : Int) (file : LoadedFile) :
    ¬Opens s filename username sentenceIndex file := by
  intro opens
  rw [opens.allowed] at denied
  cases denied

/-- A WRITE to another file reaches this one by the places of its paths
only. -/
theorem sameFile_write_iff (different : filename ≠ target)
    (username : Username) (sentenceIndex : Int)
    (messages : List WriteMessage) (now : TimeText) :
    SameFile filename s (handleWriteRequest s target username sentenceIndex
        messages now).1 ↔
      (ClientRequest.write target sentenceIndex messages).KeepsFile filename
        username s := by
  rw [sameFile_iff_of_frame different
    (frame_handleWriteRequest username sentenceIndex messages now)
    ((otherRecords_moves target).handleWriteRequest s username sentenceIndex
      messages now)]
  rcases @disk_handleWriteRequest s target username sentenceIndex messages
      now with ⟨refused, disk⟩ | ⟨file, opens, disk⟩
  · exact iff_of_true (fun path _ => by rw [disk])
      fun file opens => (refused file opens).elim
  · obtain ⟨distinct, files⟩ := sessionChanges_places s.disk
      (filePaths s.storage target) file (receiveCommands (newSession username
        sentenceIndex (file.wordCountAt sentenceIndex)) messages)
    rw [disk]
    simp only [read_changeAll_iff distinct files]
    refine ⟨fun spares other otherOpens => ?_, fun spares => spares file opens⟩
    obtain rfl : file = other :=
      Option.some.inj (opens.locked.symm.trans otherOpens.locked)
    exact spares

end

/-- A request of a user without write access leaves the file as it is exactly
when what it restores or writes under another name is not put in the place of
the file or its backup, or is there already. -/
theorem client_port_keeps_file_iff (s : FileHandler) (filename : Filename)
    (username : Username) (now : TimeText) (request : ClientRequest)
    (denied : (hasWriteAccessLl s filename username).1 = false)
    (_spared : SparesMetadata s.storage (getFilePath s.storage filename)) :
    SameFile filename s (handleClientConnection s username now request).1 ↔
      request.KeepsFile filename username s := by
  cases request with
  | read target =>
      simp only [handleClientConnection, handleReadRequest_server]
      exact iff_of_true (sameFile_handleTransferRequest username now) trivial
  | stream target =>
      simp only [handleClientConnection, handleStreamRequest_server]
      exact iff_of_true (sameFile_handleTransferRequest username now) trivial
  | unknown => exact iff_of_true (.refl filename s) trivial
  | undo target => exact sameFile_undo_iff username
  | write target sentenceIndex messages =>
      by_cases same : filename = target
      · subst same
        have refused := not_opens_of_denied denied sentenceIndex
        refine iff_of_true ?_ fun file opens => (refused file opens).elim
        have checked := (sameDisk_moves filename).hasAccessLl 2 s username
        have silent := @silent_hasAccessLl filename s 2 username
        simp only [handleClientConnection, handleWriteRequest, openWrite,
          denied, ↓reduceIte]
        exact sameFile_of_disk silent checked.disk (statistics_of_same checked)
      · exact sameFile_write_iff same username sentenceIndex messages now

private def stranger : Username := CString.copy 63 "mallory".toList

/-- One word was written to the file of `sampleUser`. -/
private def sampleWritten : FileHandler :=
  runRequests freshServer [sampleCreate, sampleWrite 0 "hi".toList]

/-- The word was taken back, so that a second UNDO restores what is there. -/
private def sampleUndone : FileHandler :=
  (handleUndoRequest sampleWritten sampleFile).1

theorem client_port_keeps_file_from_stranger :
    (hasWriteAccessLl sampleUndone sampleFile stranger).1 = false ∧
      SameFile sampleFile sampleUndone
        (handleClientConnection sampleUndone stranger sampleTime
          (.undo sampleFile)).1 := by
  have denied : (hasWriteAccessLl sampleUndone sampleFile stranger).1 =
      false := by
    decide +kernel
  refine ⟨denied, (client_port_keeps_file_iff _ _ _ _ _ denied
    (by decide +kernel)).mpr
    ⟨by decide +kernel, fun _ backup saved _ => ?_⟩⟩
  have empty : sampleUndone.disk.read
      (filePaths sampleUndone.storage sampleFile).backup = some [] := by
    decide +kernel
  obtain rfl := Option.some.inj (empty.symm.trans saved)
  decide +kernel

/-- UNDO asks nobody: the stranger takes the word back. -/
theorem undo_by_stranger_changes_file :
    (hasWriteAccessLl sampleWritten sampleFile stranger).1 = false ∧
      ¬SameFile sampleFile sampleWritten
        (handleClientConnection sampleWritten stranger sampleTime
          (.undo sampleFile)).1 := by
  refine ⟨by decide +kernel, fun same => ?_⟩
  exact absurd same.disk (by decide +kernel)

end Dfs.StorageServer
