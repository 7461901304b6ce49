import Dfs.Library.FileFootprint
import Dfs.StorageServer.FileOperations

/-!
# The three paths of a file

A file, the swap file beside it and its undo backup have paths that end in
three different names, whatever the file is called, so no two of them are one
file on disk.
-/

namespace Dfs.StorageServer

/-- `name` is what follows the last slash of the name of the file. -/
structure FilePaths where
  folder : PathName
  undoFolder : PathName
  name : Text

namespace FilePaths

def file (paths : FilePaths) : PathName := paths.folder ++ [paths.name]

def swap (paths : FilePaths) : PathName :=
  paths.folder ++ [paths.name ++ ".tmp".toList]

def backup (paths : FilePaths) : PathName :=
  paths.undoFolder ++ [paths.name ++ ".undo".toList]

variable {paths : FilePaths} {fs : FileSystem} {place : Location}

theorem swap_apart_file (opens : fs.target paths.swap = some place) :
    fs.locate paths.file ≠ some place :=
  FileSystem.locate_ne_of_target (by simp) opens

theorem swap_apart_backup (opens : fs.target paths.swap = some place) :
    fs.locate paths.backup ≠ some place :=
  FileSystem.locate_ne_of_target (by simp) opens

theorem file_apart_backup (opens : fs.target paths.file = some place) :
    fs.locate paths.backup ≠ some place :=
  FileSystem.locate_ne_of_target (by simp) opens

theorem backup_apart_file (opens : fs.target paths.backup = some place) :
    fs.locate paths.file ≠ some place :=
  FileSystem.locate_ne_of_target (by simp) opens

/-- What is left on disk by `save_undo_backup_ll` with this text. -/
def saveBackup (paths : FilePaths) (fs : FileSystem) (text : Text) :
    FileSystem :=
  let made := fs.makeParents paths.backup
  (made.write paths.backup text).getD made

/-- What is left on disk by `sync_file_to_disk` with this text. -/
def sync (paths : FilePaths) (fs : FileSystem) (text : Text) : FileSystem :=
  match fs.write paths.swap text with
  | none => fs
  | some disk =>
      match disk.rename paths.swap paths.file with
      | .ok disk => disk
      | .error _ => disk.tryUnlink paths.swap

theorem saveBackup_eq (paths : FilePaths) (fs : FileSystem) (text : Text) :
    paths.saveBackup fs text =
      match (fs.makeParents paths.backup).target paths.backup with
      | none => fs.makeParents paths.backup
      | some place => (fs.makeParents paths.backup).put place text := by
  simp only [saveBackup, FileSystem.write]
  cases (fs.makeParents paths.backup).target paths.backup with
  | none => rfl
  | some place => rfl

/-- The swap file is gone, and the file has the new text if both can be
opened. -/
theorem sync_eq (paths : FilePaths) (fs : FileSystem) (text : Text) :
    paths.sync fs text =
      match fs.target paths.swap, fs.target paths.file with
      | none, _ => fs
      | some source, none => fs.remove source
      | some source, some goal => (fs.remove source).put goal text := by
  have different : paths.name ++ ".tmp".toList ≠ paths.name := by simp
  rcases @FileSystem.write_rename fs paths.folder paths.name _ text
      different with
    ⟨blocked, unwritten⟩ | ⟨source, disk, opens, written, rest⟩
  · rw [← swap] at blocked unwritten
    rw [sync, unwritten, blocked]
  · rw [← swap] at opens written rest
    rw [← file] at rest
    rw [sync, written, opens]
    rcases rest with ⟨goal, goalOpens, renamed⟩ |
      ⟨reason, goalBlocked, failed, removed⟩
    · simp only [renamed, goalOpens]
    · simp only [failed, goalBlocked, removed]

theorem folders_sync (paths : FilePaths) (fs : FileSystem) (text : Text) :
    (paths.sync fs text).folders = fs.folders := by
  rw [sync_eq]
  split <;> rfl

theorem sync_sync (paths : FilePaths) (fs : FileSystem)
    (first second : Text) :
    paths.sync (paths.sync fs first) second = paths.sync fs second := by
  rw [sync_eq paths fs first, sync_eq paths fs second]
  cases opens : fs.target paths.swap with
  | none => rw [sync_eq, opens]
  | some source =>
      have opensAfter : (fs.remove source).target paths.swap =
          some source := opens
      cases goalOpens : fs.target paths.file with
      | none =>
          have blocked : (fs.remove source).target paths.file = none :=
            goalOpens
          rw [sync_eq, opensAfter, blocked]
          exact FileSystem.remove_remove
      | some goal =>
          have swap : ((fs.remove source).put goal first).target paths.swap =
              some source := opens
          have file : ((fs.remove source).put goal first).target paths.file =
              some goal := goalOpens
          rw [sync_eq, swap, file]
          exact FileSystem.remove_put_twice

/-- Whatever happens to the swap file, the file has the new text or its old
one. -/
theorem sync_cases (paths : FilePaths) (fs : FileSystem) (text : Text) :
    (((fs.target paths.swap).isSome ∧ (fs.target paths.file).isSome) ∧
        ∃ goal, (paths.sync fs text).target paths.file = some goal ∧
          ∃ before : FileSystem, before.target paths.file = some goal ∧
            paths.sync fs text = before.put goal text) ∨
      ¬((fs.target paths.swap).isSome ∧ (fs.target paths.file).isSome) ∧
        FileSystem.SameAt fs (paths.sync fs text) paths.file := by
  rw [sync_eq]
  cases opens : fs.target paths.swap with
  | none => exact .inr ⟨by simp, .refl⟩
  | some source =>
      cases goalOpens : fs.target paths.file with
      | none =>
          exact .inr ⟨by simp,
            FileSystem.sameAt_remove (swap_apart_file opens)⟩
      | some goal =>
          exact .inl ⟨by simp, goal, goalOpens, fs.remove source, goalOpens,
            rfl⟩

theorem load_sync (paths : FilePaths) (fs : FileSystem) (text : Text) :
    (paths.sync fs text).load paths.file =
      if (fs.target paths.swap).isSome ∧ (fs.target paths.file).isSome then
        some text
      else fs.load paths.file := by
  rcases sync_cases paths fs text with
    ⟨both, goal, _, before, opens, written⟩ | ⟨closed, same⟩
  · rw [if_pos both, written, FileSystem.load_put opens]
  · rw [if_neg closed, same.load]

/-- The backup is not touched. -/
theorem sameAt_sync_backup (paths : FilePaths) (fs : FileSystem)
    (text : Text) :
    FileSystem.SameAt fs (paths.sync fs text) paths.backup := by
  rw [sync_eq]
  cases opens : fs.target paths.swap with
  | none => exact .refl
  | some source =>
      have removed := FileSystem.sameAt_remove (swap_apart_backup opens)
      cases goalOpens : fs.target paths.file with
      | none => exact removed
      | some goal =>
          exact removed.trans
            (FileSystem.sameAt_put (file_apart_backup goalOpens))

theorem folders_saveBackup (paths : FilePaths) (fs : FileSystem)
    (text : Text) :
    (paths.saveBackup fs text).folders =
      (fs.makeParents paths.backup).folders := by
  rw [saveBackup_eq]
  split <;> rfl

theorem read_saveBackup {text : Text}
    (opens : (fs.makeParents paths.backup).target paths.backup =
      some place) :
    (paths.saveBackup fs text).read paths.backup = some text := by
  rw [saveBackup_eq, opens]
  exact FileSystem.read_put opens

/-- What stands at the path of the file stays there. -/
theorem sameAt_saveBackup (stands : fs.PathExists paths.file)
    (text : Text) :
    FileSystem.SameAt fs (paths.saveBackup fs text) paths.file := by
  have made := FileSystem.sameAt_makeParents stands paths.backup
  rw [saveBackup_eq]
  split
  · exact made
  · rename_i place opens
    exact made.trans (FileSystem.sameAt_put (backup_apart_file opens))

end FilePaths

theorem splitOn_append {separator : Char} {ending : Text}
    (solid : separator ∉ ending) (text : Text) :
    (text ++ ending).splitOn separator =
      (text.splitOn separator).dropLast ++
        [(text.splitOn separator).getLast?.getD [] ++ ending] := by
  induction text with
  | nil => simp [List.splitOn_eq_singleton solid]
  | cons byte text ih =>
      rw [List.cons_append, List.splitOn_cons_eq_if_modifyHead,
        List.splitOn_cons_eq_if_modifyHead, ih]
      obtain ⟨first, rest, split⟩ := List.exists_cons_of_ne_nil
        (List.splitOn_ne_nil separator text)
      rw [split]
      by_cases same : byte = separator
      · cases rest with
        | nil => simp [same]
        | cons next rest => simp [same]
      · cases rest with
        | nil => simp [same]
        | cons next rest => simp [same]

/-- The path does not lead to the metadata file, which the server writes anew
with every save and which is kept apart from the disk here. -/
def SparesMetadata (storage : StorageDir) (path : PathName) : Prop :=
  path.resolve ≠ (metadataPath storage).resolve

instance (storage : StorageDir) (path : PathName) :
    Decidable (SparesMetadata storage path) :=
  inferInstanceAs (Decidable (_ ≠ _))

def filePaths (storage : StorageDir) (filename : Filename) : FilePaths :=
  { folder := storage.location ++
      "files".toList :: (filename.chars.splitOn '/').dropLast
    undoFolder := storage.location ++
      "undo".toList :: (filename.chars.splitOn '/').dropLast
    name := (filename.chars.splitOn '/').getLast?.getD [] }

section

variable (storage : StorageDir) (filename : Filename)

private theorem dropLast_append_name :
    (filename.chars.splitOn '/').dropLast ++
        [(filename.chars.splitOn '/').getLast?.getD []] =
      filename.chars.splitOn '/' := by
  have whole := @splitOn_append '/' [] (by simp) filename.chars
  rw [List.append_nil, List.append_nil] at whole
  exact whole.symm

theorem splitOn_in_folder {folder : Text} (solid : '/' ∉ folder)
    (text : Text) :
    (folder ++ '/' :: text).splitOn '/' = folder :: text.splitOn '/' :=
  List.splitOn_append_cons_self_of_not_mem solid text

theorem getFilePath_eq :
    getFilePath storage filename = (filePaths storage filename).file := by
  have split := @splitOn_in_folder "files".toList (by decide) filename.chars
  have whole : "files/".toList ++ filename.chars =
      "files".toList ++ '/' :: filename.chars := rfl
  rw [getFilePath, StorageDir.path, whole, split, FilePaths.file, filePaths,
    List.append_assoc, List.cons_append, dropLast_append_name]

theorem swapPath_eq :
    swapPath storage filename = (filePaths storage filename).swap := by
  have split := @splitOn_in_folder "files".toList (by decide)
    (filename.chars ++ ".tmp".toList)
  have whole : "files/".toList ++ filename.chars ++ ".tmp".toList =
      "files".toList ++ '/' :: (filename.chars ++ ".tmp".toList) := rfl
  rw [swapPath, StorageDir.path, whole, split, splitOn_append (by decide),
    FilePaths.swap, filePaths, List.append_assoc, List.cons_append]

theorem getUndoPath_eq :
    getUndoPath storage filename = (filePaths storage filename).backup := by
  have split := @splitOn_in_folder "undo".toList (by decide)
    (filename.chars ++ ".undo".toList)
  have whole : "undo/".toList ++ filename.chars ++ ".undo".toList =
      "undo".toList ++ '/' :: (filename.chars ++ ".undo".toList) := rfl
  rw [getUndoPath, StorageDir.path, whole, split, splitOn_append (by decide),
    FilePaths.backup, filePaths, List.append_assoc, List.cons_append]

end

theorem saveUndoBackupLl_eq (s : FileHandler) (filename : Filename) :
    (saveUndoBackupLl s filename).1 =
      match getFileFromCache s filename with
      | none => s
      | some (s, file) =>
          { s with
            disk := (filePaths s.storage filename).saveBackup s.disk
              (undoBackupText file.sentences) } := by
  unfold saveUndoBackupLl FilePaths.saveBackup
  cases getFileFromCache s filename with
  | none => rfl
  | some loaded =>
      simp only [getUndoPath_eq]
      cases (loaded.1.disk.makeParents
          (filePaths loaded.1.storage filename).backup).write
            (filePaths loaded.1.storage filename).backup
            (undoBackupText loaded.2.sentences) with
      | none => rfl
      | some written => rfl

theorem syncFileToDisk_eq (s : FileHandler) (filename : Filename) :
    (syncFileToDisk s filename).1 =
      match getFileFromCache s filename with
      | none => s
      | some (s, file) =>
          { s with
            disk := (filePaths s.storage filename).sync s.disk
              (writeLinkedListToFile file.sentences) } := by
  unfold syncFileToDisk FilePaths.sync
  cases getFileFromCache s filename with
  | none => rfl
  | some loaded =>
      simp only [swapPath_eq, getFilePath_eq]
      cases loaded.1.disk.write (filePaths loaded.1.storage filename).swap
          (writeLinkedListToFile loaded.2.sentences) with
      | none => rfl
      | some written =>
          simp only
          cases written.rename (filePaths loaded.1.storage filename).swap
              (filePaths loaded.1.storage filename).file with
          | error errno => rfl
          | ok disk => rfl

/-- The text of a backup goes to the file and is loaded from there. -/
theorem undoFileChangeLl_eq (s : FileHandler) (filename : Filename) :
    undoFileChangeLl s filename =
      match s.disk.copy (filePaths s.storage filename).backup
          (filePaths s.storage filename).file with
      | none => (s, -1)
      | some disk =>
          ((reloadFileFromDisk { s with disk := disk } filename).1, 0) := by
  have body : undoFileChangeLl s filename =
      match s.disk.copy (getUndoPath s.storage filename)
          (getFilePath s.storage filename) with
      | none => (s, -1)
      | some disk =>
          ((reloadFileFromDisk { s with disk := disk } filename).1, 0) := rfl
  rw [body, getUndoPath_eq, getFilePath_eq]

end Dfs.StorageServer
