import Dfs.StorageServer.Paths
import Dfs.StorageServer.WriteSession

/-!
# One file as its sessions see it

A `FileView` is what the storage server works with on one file: the disk, the
three paths of the file and its document in the cache, without the reference
counts.  Each operation of the file handler acts on the view of its file as
the operation of the same name here, as long as no document is about to be
freed while the operation holds it.  `Stable` says so, and every operation
keeps it.
-/

namespace Dfs.StorageServer

structure FileView where
  world : FileSystem
  paths : FilePaths
  cached : Option Document

namespace FileView

/-- The text the file is loaded from. -/
def disk (v : FileView) : Option Text := v.world.load v.paths.file

def size (v : FileView) : Option Nat := v.world.statSize v.paths.file

/-- The text the file would be restored from. -/
def backup (v : FileView) : Option Text := v.world.read v.paths.backup

/-- The file can be opened for writing. -/
def writable (v : FileView) : Bool := (v.world.target v.paths.file).isSome

/-- The swap file can be opened for writing. -/
def swappable (v : FileView) : Bool := (v.world.target v.paths.swap).isSome

/-- The folders on the way to the backup are there. -/
def made (v : FileView) : FileView :=
  { v with world := v.world.makeParents v.paths.backup }

/-- The backup can be opened for writing once its folders were made. -/
def savable (v : FileView) : Bool :=
  (v.made.world.target v.paths.backup).isSome

/-- The document an operation works on: the cached one, or the disk file. -/
def document (v : FileView) : Option Document :=
  match v.cached with
  | some document => some document
  | none => v.disk.map loadDocument

def lock (v : FileView) (sentenceIndex : Int) (username : Username) :
    FileView × Int :=
  match v.document with
  | none => (v, errFileNotFound)
  | some document =>
      ({ v with
          cached := some (document.lockSentence sentenceIndex username).1 },
        (document.lockSentence sentenceIndex username).2)

def unlock (v : FileView) (sentenceIndex : Int) (username : Username) :
    FileView :=
  match v.document with
  | none => v
  | some document =>
      { v with
        cached := some (document.unlockSentence sentenceIndex username).1 }

def saveBackup (v : FileView) : FileView :=
  match v.document with
  | none => v
  | some document =>
      { v with
        cached := some document
        world := v.paths.saveBackup v.world
          (undoBackupText document.sentences) }

def restore (v : FileView) : FileView :=
  match v.world.copy v.paths.backup v.paths.file with
  | none => v
  | some world =>
      { v with
        world := world
        cached := (world.load v.paths.file).map loadDocument }

def sync (v : FileView) : FileView :=
  match v.document with
  | none => v
  | some document =>
      { v with
        cached := some document
        world := v.paths.sync v.world
          (writeLinkedListToFile document.sentences) }

/-- `allowed` is the answer of the access check. -/
def openWrite (v : FileView) (allowed : Bool) (username : Username)
    (sentenceIndex : Int) : FileView × Option WriteSession :=
  if allowed = false ∨ (validateWrite v.disk v.size sentenceIndex).isSome then
    (v, none)
  else
    let (v, lockResult) := v.lock sentenceIndex username
    if lockResult ≠ 0 then (v, none)
    else
      match v.document with
      | none => (v, none)
      | some document =>
          (v.saveBackup, some (newSession username sentenceIndex
            (document.wordCountAt sentenceIndex)))

def commit (v : FileView) (session : WriteSession) : FileView :=
  match v.document with
  | none => v
  | some document =>
      match document.commit session with
      | none => { v with cached := some document }
      | some document => { v with cached := some document }.sync

def rollback (v : FileView) (session : WriteSession) : FileView :=
  (v.unlock session.sentenceIndex session.username).restore

section

variable {v : FileView}

theorem writable_iff :
    v.writable = true ↔ ∃ place, v.world.target v.paths.file = some place :=
  Option.isSome_iff_exists

theorem backup_sync (v : FileView) : v.sync.backup = v.backup := by
  unfold sync
  split
  · rfl
  · exact (FilePaths.sameAt_sync_backup v.paths v.world _).read

/-- Targets depend on the folders only. -/
theorem target_congr {fs gs : FileSystem} (same : gs.folders = fs.folders)
    (path : PathName) : gs.target path = fs.target path := by
  obtain ⟨files, folders, _, _⟩ := fs
  obtain ⟨_, _, _, _⟩ := gs
  cases same
  rfl

theorem restore_of_none (absent : v.backup = none) : v.restore = v := by
  rw [restore, FileSystem.copy_eq_none (.inr absent)]

theorem restore_of_unwritable (closed : v.writable = false) :
    v.restore = v := by
  have blocked : v.world.target v.paths.file = none := by
    simpa [writable] using closed
  rw [restore, FileSystem.copy_eq_none (.inl blocked)]

theorem restore_of_some {backup : Text} {place : Location}
    (saved : v.backup = some backup)
    (opens : v.world.target v.paths.file = some place) :
    v.restore =
      { v with
        world := v.world.put place backup
        cached := some (loadDocument backup) } := by
  have copied := FileSystem.copy_apart opens
    (FilePaths.file_apart_backup opens) saved
  rw [restore, copied]
  simp only [FileSystem.load_put opens, Option.map_some]

/-- Restoration changes nothing or loads the backup. -/
theorem restore_cases (v : FileView) :
    v.restore = v ∨
      ∃ backup place, v.backup = some backup ∧
        v.world.target v.paths.file = some place ∧
        v.restore =
          { v with
            world := v.world.put place backup
            cached := some (loadDocument backup) } := by
  cases saved : v.backup with
  | none => exact .inl (restore_of_none saved)
  | some backup =>
      cases writable : v.writable with
      | false => exact .inl (restore_of_unwritable writable)
      | true =>
          obtain ⟨place, opens⟩ := writable_iff.mp writable
          exact .inr ⟨backup, place, rfl, opens,
            restore_of_some saved opens⟩

/-- A file that can be written gets the backup, if there is one. -/
theorem disk_restore (v : FileView) :
    v.restore.disk =
      if v.writable then v.backup.or v.disk else v.disk := by
  cases writable : v.writable with
  | false =>
      rw [restore_of_unwritable writable]
      rfl
  | true =>
      cases saved : v.backup with
      | none =>
          rw [restore_of_none saved]
          rfl
      | some backup =>
          obtain ⟨place, opens⟩ := writable_iff.mp writable
          rw [restore_of_some saved opens]
          exact FileSystem.load_put opens

theorem document_restore (v : FileView) :
    v.restore.document =
      if v.writable then (v.backup.map loadDocument).or v.document
      else v.document := by
  cases writable : v.writable with
  | false =>
      rw [restore_of_unwritable writable]
      rfl
  | true =>
      cases saved : v.backup with
      | none =>
          rw [restore_of_none saved]
          rfl
      | some backup =>
          obtain ⟨place, opens⟩ := writable_iff.mp writable
          rw [restore_of_some saved opens]
          rfl

theorem writable_restore (v : FileView) :
    v.restore.writable = v.writable := by
  rcases restore_cases v with same | ⟨_, _, _, _, restored⟩
  · rw [same]
  · rw [restored]
    rfl

theorem backup_restore (v : FileView) : v.restore.backup = v.backup := by
  rcases restore_cases v with same | ⟨backup, place, _, opens, restored⟩
  · rw [same]
  · rw [restored]
    exact (FileSystem.sameAt_put (FilePaths.file_apart_backup opens)).read

/-- A file on disk is not touched when its backup is saved. -/
theorem disk_saved {content : Text} (stored : v.disk = some content)
    (text : Text) (cached : Option Document) :
    FileView.disk
      { v with
        world := v.paths.saveBackup v.world text
        cached := cached } = some content := by
  have stands := FileSystem.pathExists_of_load stored
  exact (FilePaths.sameAt_saveBackup stands text).load.trans stored

theorem saveBackup_of_document {document : Document}
    (loaded : v.document = some document) :
    v.saveBackup =
      { v with
        cached := some document
        world := v.paths.saveBackup v.world
          (undoBackupText document.sentences) } := by
  rw [saveBackup, loaded]

end

end FileView

def view (s : FileHandler) (filename : Filename) : FileView :=
  { world := s.disk
    paths := filePaths s.storage filename
    cached := (s.fileCache.get filename).map LoadedFile.toDocument }

/-- No reference is missing, and a document marked for deletion has one. -/
def LoadedFile.Stable (file : LoadedFile) : Prop :=
  0 ≤ file.refcount ∧ (file.markedForDeletion = true → 0 < file.refcount)

def Stable (s : FileHandler) (filename : Filename) : Prop :=
  ∀ file, s.fileCache.get filename = some file → file.Stable

section

variable {s : FileHandler} {filename : Filename}

@[simp] theorem view_cache (file : LoadedFile) :
    view (s.cache filename file) filename =
      { view s filename with cached := some file.toDocument } := by
  simp [view, FileHandler.cache]

theorem view_disk : (view s filename).disk = s.diskText filename := by
  rw [FileHandler.diskText, getFilePath_eq]
  rfl

theorem stable_cache {file : LoadedFile} (stable : file.Stable) :
    Stable (s.cache filename file) filename := by
  intro other found
  simp only [FileHandler.cache, Store.get_set_self, Option.some.injEq]
    at found
  exact found ▸ stable

/-- A document that is held through one reference more than `Stable` asks
for. -/
def LoadedFile.Held (file : LoadedFile) : Prop :=
  { file with refcount := file.refcount - 1 }.Stable

theorem LoadedFile.Held.stable {file : LoadedFile} (held : file.Held) :
    file.Stable := by
  unfold LoadedFile.Held LoadedFile.Stable at *
  simp only at held
  exact ⟨by omega, fun _ => by omega⟩

theorem getFileFromCache_eq_none (absent : (view s filename).document = none) :
    getFileFromCache s filename = none := by
  rw [FileView.document, view_disk] at absent
  unfold getFileFromCache loadFileIntoMemory
  cases cached : s.fileCache.get filename with
  | some file => simp [view, cached] at absent
  | none =>
      cases disk : s.diskText filename with
      | some content => simp [view, cached, disk] at absent
      | none => rfl

theorem getFileFromCache_eq_some {document : Document}
    (found : (view s filename).document = some document)
    (stable : Stable s filename) :
    ∃ file : LoadedFile, file.toDocument = document ∧ file.Held ∧
      getFileFromCache s filename = some (s.cache filename file, file) := by
  rw [FileView.document, view_disk] at found
  unfold getFileFromCache loadFileIntoMemory
  cases cached : s.fileCache.get filename with
  | some file =>
      refine ⟨{ file with refcount := file.refcount + 1 }, ?_, ?_, rfl⟩
      · simpa [view, cached] using found
      · simpa [LoadedFile.Held] using stable file cached
  | none =>
      cases disk : s.diskText filename with
      | none => simp [view, cached, disk] at found
      | some content =>
          refine ⟨⟨loadDocument content, 0 + 1, false⟩, ?_, ?_, rfl⟩
          · simpa [view, cached, disk] using found
          · simp [LoadedFile.Held, LoadedFile.Stable]

theorem fileRelease_cache {file : LoadedFile} (held : file.Held) :
    view (fileRelease (s.cache filename file) filename) filename =
        view (s.cache filename file) filename ∧
      Stable (fileRelease (s.cache filename file) filename) filename := by
  have kept : ¬(file.refcount - 1 = 0 ∧ file.markedForDeletion = true) := by
    rintro ⟨last, marked⟩
    have positive := held.2 marked
    simp only at positive
    omega
  have released : fileRelease (s.cache filename file) filename =
      (s.cache filename file).cache filename
        { file with refcount := file.refcount - 1 } := by
    simp only [fileRelease, FileHandler.cache, Store.get_set_self]
    rw [if_neg kept]
  rw [released]
  exact ⟨by simp, stable_cache held⟩

/-- The two states differ at most in metadata and in the access cache. -/
structure SameFiles (s t : FileHandler) : Prop where
  storage : s.storage = t.storage
  disk : s.disk = t.disk
  fileCache : s.fileCache = t.fileCache

theorem SameFiles.refl (s : FileHandler) : SameFiles s s :=
  ⟨rfl, rfl, rfl⟩

theorem SameFiles.view {s t : FileHandler} (same : SameFiles s t) :
    view s filename = view t filename := by
  rw [StorageServer.view, same.storage, same.disk, same.fileCache]
  rfl

theorem SameFiles.stable {s t : FileHandler} (same : SameFiles s t)
    (stable : Stable t filename) : Stable s filename := by
  intro file found
  exact stable file (same.fileCache ▸ found)

theorem sameFiles_hasWriteAccessLl (username : Username) :
    SameFiles (hasWriteAccessLl s filename username).2 s := by
  obtain ⟨accessCache, checked⟩ := hasAccessLl_server 2 s filename username
  rw [hasWriteAccessLl, checked]
  exact ⟨rfl, rfl, rfl⟩

theorem sameFiles_updateFileWriteStatsLl (now : TimeText) :
    SameFiles (updateFileWriteStatsLl s filename now).1 s := by
  rw [updateFileWriteStatsLl]
  split
  · exact .refl s
  · exact .refl s
  · exact ⟨rfl, rfl, rfl⟩

theorem sameFiles_updateFileStatisticsLl :
    SameFiles (updateFileStatisticsLl s filename).1 s := by
  unfold updateFileStatisticsLl
  split
  · exact .refl s
  · exact .refl s
  · exact ⟨rfl, rfl, rfl⟩

theorem view_lockSentenceLl (stable : Stable s filename)
    (sentenceIndex : Int) (username : Username) :
    view (lockSentenceLl s filename sentenceIndex username).1 filename =
        ((view s filename).lock sentenceIndex username).1 ∧
      (lockSentenceLl s filename sentenceIndex username).2 =
        ((view s filename).lock sentenceIndex username).2 ∧
      Stable (lockSentenceLl s filename sentenceIndex username).1
        filename := by
  unfold lockSentenceLl FileView.lock
  cases loaded : (view s filename).document with
  | none =>
      rw [getFileFromCache_eq_none loaded]
      exact ⟨rfl, rfl, stable⟩
  | some document =>
      obtain ⟨file, rfl, held, got⟩ := getFileFromCache_eq_some loaded stable
      rw [got]
      have released := @fileRelease_cache (s.cache filename file) filename
        { file with
          toDocument :=
            (file.lockSentence sentenceIndex username).1 } held
      refine ⟨?_, rfl, released.2⟩
      rw [released.1]
      simp

/-- An operation does nothing without a document; with one, only the
document found and its reference matter. -/
theorem view_of_document {α : Type} {code : α}
    {operation : FileHandler → LoadedFile → FileHandler × α}
    {effect : Document → FileView} (stable : Stable s filename)
    (acts : ∀ file : LoadedFile, file.Held →
      (view s filename).document = some file.toDocument →
      view (operation (s.cache filename file) file).1 filename =
          effect file.toDocument ∧
        Stable (operation (s.cache filename file) file).1 filename) :
    view (match getFileFromCache s filename with
      | none => (s, code)
      | some (t, file) => operation t file).1 filename =
        (match (view s filename).document with
        | none => view s filename
        | some document => effect document) ∧
      Stable (match getFileFromCache s filename with
        | none => (s, code)
        | some (t, file) => operation t file).1 filename := by
  cases loaded : (view s filename).document with
  | none =>
      rw [getFileFromCache_eq_none loaded]
      exact ⟨rfl, stable⟩
  | some document =>
      obtain ⟨file, rfl, held, got⟩ := getFileFromCache_eq_some loaded stable
      rw [got]
      exact acts file held loaded

theorem view_unlockSentenceLl (stable : Stable s filename)
    (sentenceIndex : Int) (username : Username) :
    view (unlockSentenceLl s filename sentenceIndex username).1 filename =
        (view s filename).unlock sentenceIndex username ∧
      Stable (unlockSentenceLl s filename sentenceIndex username).1
        filename := by
  unfold unlockSentenceLl FileView.unlock
  apply view_of_document stable
  intro file held loaded
  have kept : LoadedFile.Stable
      { file with
        toDocument := (file.unlockSentence sentenceIndex username).1 } :=
    held.stable
  exact ⟨by simp, stable_cache kept⟩

theorem view_saveUndoBackupLl (stable : Stable s filename) :
    view (saveUndoBackupLl s filename).1 filename =
        (view s filename).saveBackup ∧
      Stable (saveUndoBackupLl s filename).1 filename := by
  rw [saveUndoBackupLl_eq]
  unfold FileView.saveBackup
  cases loaded : (view s filename).document with
  | none =>
      rw [getFileFromCache_eq_none loaded]
      exact ⟨rfl, stable⟩
  | some document =>
      obtain ⟨file, rfl, held, got⟩ := getFileFromCache_eq_some loaded stable
      rw [got]
      refine ⟨?_, fun other found => stable_cache held.stable other found⟩
      simp [view, FileHandler.cache]

/-- Whatever was cached, the document is then the one on disk. -/
theorem view_reloadFileFromDisk (s : FileHandler) (filename : Filename) :
    view (reloadFileFromDisk s filename).1 filename =
        { view s filename with
          cached := (s.disk.load (filePaths s.storage filename).file).map
            loadDocument } ∧
      Stable (reloadFileFromDisk s filename).1 filename := by
  have text : (s.uncache filename).diskText filename =
      s.disk.load (filePaths s.storage filename).file := by
    rw [FileHandler.diskText, getFilePath_eq]
    rfl
  unfold reloadFileFromDisk
  simp only [loadFileIntoMemory, text]
  cases s.disk.load (filePaths s.storage filename).file with
  | none =>
      refine ⟨by simp [view, FileHandler.uncache], ?_⟩
      intro file found
      simp [FileHandler.uncache] at found
  | some content =>
      have fresh : LoadedFile.Stable ⟨loadDocument content, 0, false⟩ := by
        simp [LoadedFile.Stable]
      refine ⟨?_, stable_cache fresh⟩
      rw [Option.map_some, view_cache]
      simp [view, FileHandler.uncache]

theorem view_undoFileChangeLl (stable : Stable s filename) :
    view (undoFileChangeLl s filename).1 filename =
        (view s filename).restore ∧
      Stable (undoFileChangeLl s filename).1 filename := by
  rw [undoFileChangeLl_eq]
  unfold FileView.restore
  change view (match s.disk.copy (filePaths s.storage filename).backup
      (filePaths s.storage filename).file with
    | none => (s, (-1 : Int))
    | some disk =>
        ((reloadFileFromDisk { s with disk := disk } filename).1, 0)).1
      filename =
    (match s.disk.copy (filePaths s.storage filename).backup
        (filePaths s.storage filename).file with
      | none => view s filename
      | some world =>
          { view s filename with
            world := world
            cached := (world.load (filePaths s.storage filename).file).map
              loadDocument }) ∧ _
  cases copied : s.disk.copy (filePaths s.storage filename).backup
      (filePaths s.storage filename).file with
  | none => exact ⟨rfl, stable⟩
  | some disk =>
      exact view_reloadFileFromDisk { s with disk := disk } filename

theorem view_syncFileToDisk (stable : Stable s filename) :
    view (syncFileToDisk s filename).1 filename = (view s filename).sync ∧
      Stable (syncFileToDisk s filename).1 filename := by
  rw [syncFileToDisk_eq]
  unfold FileView.sync
  cases loaded : (view s filename).document with
  | none =>
      rw [getFileFromCache_eq_none loaded]
      exact ⟨rfl, stable⟩
  | some document =>
      obtain ⟨file, rfl, held, got⟩ := getFileFromCache_eq_some loaded stable
      rw [got]
      refine ⟨?_, fun other found => stable_cache held.stable other found⟩
      simp [view, FileHandler.cache]

theorem FileView.saveBackup_of_loaded {v : FileView} {document : Document}
    (loaded : v.document = some document) :
    { v with cached := some document }.saveBackup = v.saveBackup := by
  unfold FileView.saveBackup
  rw [loaded]
  rfl

theorem view_openWrite (stable : Stable s filename) (username : Username)
    (sentenceIndex : Int) :
    view (openWrite s filename username sentenceIndex).1 filename =
        ((view s filename).openWrite
          (hasWriteAccessLl s filename username).1 username sentenceIndex).1 ∧
      (openWrite s filename username sentenceIndex).2.2 =
        ((view s filename).openWrite
          (hasWriteAccessLl s filename username).1 username
          sentenceIndex).2 ∧
      Stable (openWrite s filename username sentenceIndex).1 filename := by
  have checked := @sameFiles_hasWriteAccessLl s filename username
  unfold openWrite FileView.openWrite
  generalize hasWriteAccessLl s filename username = access at checked ⊢
  obtain ⟨allowed, t⟩ := access
  simp only at checked ⊢
  have checkedStable := checked.stable stable
  cases allowed with
  | false =>
      simp only [↓reduceIte, true_or]
      exact ⟨checked.view, trivial, checkedStable⟩
  | true =>
      have disk : t.diskText filename = (view s filename).disk := by
        rw [← checked.view, view_disk]
      have size : t.disk.statSize (getFilePath t.storage filename) =
          (view s filename).size := by
        rw [← checked.view, getFilePath_eq]
        rfl
      rw [disk, size]
      cases validated : validateWrite (view s filename).disk
          (view s filename).size sentenceIndex with
      | some response =>
          simp only [Bool.true_eq_false, ↓reduceIte, Option.isSome_some,
            or_true]
          exact ⟨checked.view, trivial, checkedStable⟩
      | none =>
          have locked :=
            view_lockSentenceLl checkedStable sentenceIndex username
          rw [checked.view] at locked
          generalize lockSentenceLl t filename sentenceIndex username =
            result at locked ⊢
          generalize (view s filename).lock sentenceIndex username =
            expected at locked ⊢
          obtain ⟨t, lockResult⟩ := result
          obtain ⟨v, lockExpected⟩ := expected
          obtain ⟨rfl, rfl, lockedStable⟩ := locked
          by_cases refused : lockResult ≠ 0
          · simp only [Option.isSome_none, Bool.true_eq_false,
              Bool.false_eq_true, or_self, ↓reduceIte, refused, ne_eq,
              not_false_eq_true, true_and]
            exact lockedStable
          · simp only [Option.isSome_none, Bool.true_eq_false,
              Bool.false_eq_true, or_self, ↓reduceIte, refused]
            cases loaded : (view t filename).document with
            | none =>
                have unlocked := view_unlockSentenceLl lockedStable
                  sentenceIndex username
                rw [getFileFromCache_eq_none loaded]
                refine ⟨?_, rfl, unlocked.2⟩
                rw [unlocked.1]
                simp [FileView.unlock, loaded]
            | some document =>
                obtain ⟨file, rfl, held, got⟩ :=
                  getFileFromCache_eq_some loaded lockedStable
                have released := @fileRelease_cache t filename file held
                have saved := view_saveUndoBackupLl released.2
                rw [got]
                refine ⟨?_, rfl, saved.2⟩
                rw [saved.1, released.1, view_cache,
                  FileView.saveBackup_of_loaded loaded]

theorem view_commitWrite (stable : Stable s filename)
    (session : WriteSession) (now : TimeText) :
    view (commitWrite s filename session now).1 filename =
        (view s filename).commit session ∧
      Stable (commitWrite s filename session now).1 filename := by
  unfold commitWrite FileView.commit
  apply view_of_document stable
  intro file held loaded
  cases committed : file.commit session with
  | none =>
      have released := @fileRelease_cache s filename file held
      simp only
      exact ⟨released.1.trans (view_cache file), released.2⟩
  | some document =>
      have released := @fileRelease_cache (s.cache filename file) filename
        { file with toDocument := document } held
      have synced := view_syncFileToDisk released.2
      have counted := @sameFiles_updateFileWriteStatsLl
        (syncFileToDisk (fileRelease ((s.cache filename file).cache
          filename { file with toDocument := document }) filename)
          filename).1 filename now
      simp only
      refine ⟨?_, counted.stable synced.2⟩
      rw [counted.view, synced.1, released.1]
      simp

theorem view_rollbackWrite (stable : Stable s filename)
    (session : WriteSession) :
    view (rollbackWrite s filename session) filename =
        (view s filename).rollback session ∧
      Stable (rollbackWrite s filename session) filename := by
  have unlocked := view_unlockSentenceLl stable session.sentenceIndex
    session.username
  have restored := view_undoFileChangeLl unlocked.2
  unfold rollbackWrite FileView.rollback
  exact ⟨by rw [restored.1, unlocked.1], restored.2⟩

theorem view_handleUndoRequest (stable : Stable s filename) :
    view (handleUndoRequest s filename).1 filename =
        (view s filename).restore ∧
      Stable (handleUndoRequest s filename).1 filename := by
  have restored := view_undoFileChangeLl stable
  unfold handleUndoRequest
  generalize undoFileChangeLl s filename = undone at restored ⊢
  obtain ⟨t, result⟩ := undone
  by_cases failed : result < 0
  · simp only [failed, ↓reduceIte]
    exact restored
  · simp only [failed, ↓reduceIte]
    have counted := @sameFiles_updateFileStatisticsLl t filename
    exact ⟨counted.view.trans restored.1, counted.stable restored.2⟩

/-- A whole WRITE request on the view. -/
def FileView.write (v : FileView) (allowed : Bool) (username : Username)
    (sentenceIndex : Int) (messages : List WriteMessage) : FileView :=
  match v.openWrite allowed username sentenceIndex with
  | (v, none) => v
  | (v, some session) =>
      match receiveCommands session messages with
      | (session, true, _) =>
          (v.unlock session.sentenceIndex session.username).commit
            session
      | (session, false, _) => v.rollback session

theorem view_handleWriteRequest (stable : Stable s filename)
    (username : Username) (sentenceIndex : Int)
    (messages : List WriteMessage) (now : TimeText) :
    view (handleWriteRequest s filename username sentenceIndex messages
          now).1 filename =
        (view s filename).write (hasWriteAccessLl s filename username).1
          username sentenceIndex messages ∧
      Stable (handleWriteRequest s filename username sentenceIndex messages
        now).1 filename := by
  have opened := view_openWrite stable username sentenceIndex
  unfold handleWriteRequest FileView.write
  generalize openWrite s filename username sentenceIndex = result at opened ⊢
  generalize (view s filename).openWrite
    (hasWriteAccessLl s filename username).1 username sentenceIndex =
    expected at opened ⊢
  obtain ⟨t, response, session⟩ := result
  obtain ⟨v, sessionExpected⟩ := expected
  obtain ⟨rfl, rfl, openedStable⟩ := opened
  cases session with
  | none => exact ⟨rfl, openedStable⟩
  | some session =>
      simp only
      rcases receiveCommands session messages with
        ⟨session, completed, responses⟩
      cases completed with
      | true =>
          have unlocked := view_unlockSentenceLl openedStable
            session.sentenceIndex session.username
          have committed := view_commitWrite unlocked.2 session now
          simp only [↓reduceIte]
          exact ⟨by rw [committed.1, unlocked.1], committed.2⟩
      | false =>
          simp only [Bool.false_eq_true, ↓reduceIte]
          exact view_rollbackWrite openedStable session

end

end Dfs.StorageServer
