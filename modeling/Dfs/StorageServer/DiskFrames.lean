import Dfs.Library.FileFootprint
import Dfs.StorageServer.RequestFrames

/-!
# What a request leaves on disk

Where the paths of a request lead does not depend on the state, so neither do
the places at which it writes files or makes something new.  What stands at
the end of a path elsewhere is left alone by every request, and by a MOVE if
the path does not go through what is moved.
-/

namespace Dfs.StorageServer

/-- Only the caches differ. -/
structure SameDisk (s t : FileHandler) : Prop where
  storage : t.storage = s.storage
  disk : t.disk = s.disk
  records : t.metadataList = s.metadataList

/-- What may differ on disk: the files at `writes`, and whatever is new stands
at one of `makes`. -/
structure DiskStep (writes makes : List Location) (s t : FileHandler) :
    Prop where
  storage : t.storage = s.storage
  changed : FileSystem.ChangedAt writes s.disk t.disk
  adds : FileSystem.Adds makes s.disk t.disk

/-- The folders on the way to the backup. -/
def FilePaths.ways (paths : FilePaths) : List Location :=
  paths.backup.dropLast.inits.map PathName.resolve

/-- Where a request may write or remove files. -/
def Request.writes (storage : StorageDir) : Request → List Location
  | .createFile filename _ _ =>
      [(filePaths storage filename).file.resolve,
        (filePaths storage filename).backup.resolve]
  | .deleteFile filename =>
      [(filePaths storage filename).file.resolve,
        (filePaths storage filename).backup.resolve]
  | .checkpoint filename tag =>
      [(checkpointPath storage filename tag).resolve]
  | .revert filename _ _ => [(filePaths storage filename).file.resolve]
  | .write filename _ _ _ _ =>
      [(filePaths storage filename).file.resolve,
        (filePaths storage filename).swap.resolve,
        (filePaths storage filename).backup.resolve]
  | .undo filename => [(filePaths storage filename).file.resolve]
  | _ => []

/-- Where a request other than MOVE may make a file or folder. -/
def Request.makes (storage : StorageDir) : Request → List Location
  | .createFile filename _ _ =>
      (filePaths storage filename).file.resolve ::
        (filePaths storage filename).backup.resolve ::
          (filePaths storage filename).ways
  | .createfolder filename _ _ =>
      [(filePaths storage filename).file.resolve]
  | .checkpoint filename tag =>
      [(checkpointDir storage).resolve,
        (checkpointPath storage filename tag).resolve]
  | .revert filename _ _ => [(filePaths storage filename).file.resolve]
  | .write filename _ _ _ _ =>
      (filePaths storage filename).file.resolve ::
        (filePaths storage filename).backup.resolve ::
          (filePaths storage filename).ways
  | .undo filename => [(filePaths storage filename).file.resolve]
  | _ => []

/-- The place that a MOVE gives to its file or folder. -/
def moveGoal (storage : StorageDir) (filename : Filename)
    (targetPath : PathText) : Location :=
  (storage.path (moveTarget storage filename targetPath)).resolve

/-- The request does not write where this path leads, nor move anything on
its way. -/
def Request.Leaves (storage : StorageDir) (path : PathName) : Request → Prop
  | .move filename targetPath =>
      PathName.Avoids (filePaths storage filename).file.resolve path ∧
        ¬moveGoal storage filename targetPath <+: path.resolve
  | request => path.resolve ∉ request.writes storage

section

variable {filename : Filename} {s t u : FileHandler}
  {writes makes moreWrites moreMakes : List Location}

theorem SameDisk.refl (s : FileHandler) : SameDisk s s :=
  ⟨rfl, rfl, rfl⟩

theorem SameDisk.trans (first : SameDisk s t) (second : SameDisk t u) :
    SameDisk s u :=
  ⟨second.storage.trans first.storage, second.disk.trans first.disk,
    second.records.trans first.records⟩

theorem SameDisk.findMetadata (same : SameDisk s t) (filename : Filename) :
    findMetadata t filename = findMetadata s filename := by
  unfold StorageServer.findMetadata
  rw [same.records]

theorem sameDisk_moves (filename : Filename) :
    CacheMoves filename SameDisk where
  refl := .refl
  trans := .trans
  cache := fun _ _ => ⟨rfl, rfl, rfl⟩
  uncache := fun _ => ⟨rfl, rfl, rfl⟩
  accessCache := fun _ _ => ⟨rfl, rfl, rfl⟩

namespace DiskStep

theorem refl (writes makes : List Location) (s : FileHandler) :
    DiskStep writes makes s s :=
  ⟨rfl, .refl writes s.disk, .refl makes s.disk⟩

theorem trans (first : DiskStep writes makes s t)
    (second : DiskStep writes makes t u) : DiskStep writes makes s u :=
  ⟨second.storage.trans first.storage, first.changed.trans second.changed,
    first.adds.trans second.adds⟩

theorem mono (step : DiskStep writes makes s t)
    (writesSubset : writes ⊆ moreWrites) (makesSubset : makes ⊆ moreMakes) :
    DiskStep moreWrites moreMakes s t :=
  ⟨step.storage, step.changed.mono writesSubset,
    step.adds.mono makesSubset⟩

/-- Where the disk is kept, nothing is to be said. -/
theorem of_same (storage : t.storage = s.storage) (disk : t.disk = s.disk) :
    DiskStep writes makes s t := by
  refine ⟨storage, ?_, ?_⟩
  · rw [disk]
    exact .refl writes s.disk
  · rw [disk]
    exact .refl makes s.disk

end DiskStep

theorem SameDisk.step (same : SameDisk s t) : DiskStep writes makes s t :=
  .of_same same.storage same.disk

theorem diskStep_cacheMoves (filename : Filename)
    (writes makes : FileHandler → List Location)
    (fixed : ∀ {s t : FileHandler}, t.storage = s.storage →
      writes t = writes s ∧ makes t = makes s) :
    CacheMoves filename fun s t => DiskStep (writes s) (makes s) s t where
  refl := fun s => .refl _ _ s
  trans := by
    intro s t u first second
    rw [(fixed first.storage).1, (fixed first.storage).2] at second
    exact first.trans second
  cache := fun _ _ => .of_same rfl rfl
  uncache := fun _ => .of_same rfl rfl
  accessCache := fun _ _ => .of_same rfl rfl

/-- The effect of a backup. -/
theorem diskStep_memoryMoves (filename : Filename) :
    MemoryMoves filename fun s t => DiskStep
      [(filePaths s.storage filename).backup.resolve]
      ((filePaths s.storage filename).backup.resolve ::
        (filePaths s.storage filename).ways) s t where
  toCacheMoves := diskStep_cacheMoves filename
    (fun s => [(filePaths s.storage filename).backup.resolve])
    (fun s => (filePaths s.storage filename).backup.resolve ::
      (filePaths s.storage filename).ways)
    fun same => by rw [same]; exact ⟨rfl, rfl⟩
  folders := fun _ =>
    ⟨rfl, .makeParents _, .makeParents (List.subset_cons_self _ _)⟩
  backup := by
    intro s place content opens
    have here := FileSystem.resolve_of_target opens
    exact ⟨rfl, .put (here ▸ List.mem_cons_self),
      .put (here ▸ List.mem_cons_self)⟩

/-- The effect of a restoration. -/
theorem diskStep_restoreMoves (filename : Filename) :
    RestoreMoves filename fun s t => DiskStep
      [(filePaths s.storage filename).file.resolve]
      [(filePaths s.storage filename).file.resolve] s t where
  toCacheMoves := diskStep_cacheMoves filename
    (fun s => [(filePaths s.storage filename).file.resolve])
    (fun s => [(filePaths s.storage filename).file.resolve])
    fun same => by rw [same]; exact ⟨rfl, rfl⟩
  write := by
    intro s place content opens
    have here := FileSystem.resolve_of_target opens
    exact ⟨rfl, .put (here ▸ List.mem_cons_self),
      .put (here ▸ List.mem_cons_self)⟩
  record := fun _ _ _ => .of_same rfl rfl

/-- The effect of a session. -/
theorem diskStep_sessionMoves (filename : Filename) :
    SessionMoves filename fun s t => DiskStep
      [(filePaths s.storage filename).file.resolve,
        (filePaths s.storage filename).swap.resolve,
        (filePaths s.storage filename).backup.resolve]
      ((filePaths s.storage filename).file.resolve ::
        (filePaths s.storage filename).backup.resolve ::
          (filePaths s.storage filename).ways) s t where
  toCacheMoves := diskStep_cacheMoves filename
    (fun s => [(filePaths s.storage filename).file.resolve,
      (filePaths s.storage filename).swap.resolve,
      (filePaths s.storage filename).backup.resolve])
    (fun s => (filePaths s.storage filename).file.resolve ::
      (filePaths s.storage filename).backup.resolve ::
        (filePaths s.storage filename).ways)
    fun same => by rw [same]; exact ⟨rfl, rfl⟩
  folders := fun s => ((diskStep_memoryMoves filename).folders s).mono
    (by simp) (List.subset_cons_self _ _)
  backup := fun s place content opens =>
    ((diskStep_memoryMoves filename).backup s place content opens).mono
      (by simp) (List.subset_cons_self _ _)
  write := fun s place content opens =>
    ((diskStep_restoreMoves filename).write s place content opens).mono
      (by simp) (by simp)
  record := fun _ _ _ => .of_same rfl rfl
  swap := by
    intro s place opens
    refine ⟨rfl, .remove ?_, .remove⟩
    rw [← FileSystem.resolve_of_target opens]
    simp

theorem diskStep_saveUndoBackupLl : DiskStep
    [(filePaths s.storage filename).backup.resolve]
    ((filePaths s.storage filename).backup.resolve ::
      (filePaths s.storage filename).ways) s
    (saveUndoBackupLl s filename).1 :=
  (diskStep_memoryMoves filename).saveUndoBackupLl s

end

section

variable {filename tag : Filename} {s : FileHandler}

theorem diskStep_nmCreateFile (username : Username) (now : TimeText) :
    DiskStep ((Request.createFile filename username now).writes s.storage)
      ((Request.createFile filename username now).makes s.storage) s
      (nmCreateFile s filename username now).1 := by
  have created : DiskStep
      ((Request.createFile filename username now).writes s.storage)
      ((Request.createFile filename username now).makes s.storage) s
      (createFileLl s filename username now).1 := by
    unfold createFileLl
    rw [getFilePath_eq]
    split
    · exact .refl _ _ s
    · split
      · exact .refl _ _ s
      · split
        · exact .refl _ _ s
        · rename_i written
          exact ⟨rfl, .write List.mem_cons_self written,
            .write List.mem_cons_self written⟩
  unfold nmCreateFile
  generalize createFileLl s filename username now = result at created ⊢
  obtain ⟨t, code⟩ := result
  simp only at created ⊢
  split
  · exact created
  · have saved := @diskStep_saveUndoBackupLl filename t
    rw [created.storage] at saved
    exact created.trans (saved.mono (by simp [Request.writes])
      (List.subset_cons_self _ _))

theorem diskStep_nmDeleteFile :
    DiskStep ((Request.deleteFile filename).writes s.storage)
      ((Request.deleteFile filename).makes s.storage) s
      (nmDeleteFile s filename).1 := by
  have marked : SameDisk s (markForDeletion s filename) := by
    unfold markForDeletion
    split
    · exact .refl s
    · split
      · exact ⟨rfl, rfl, rfl⟩
      · exact ⟨rfl, rfl, rfl⟩
  unfold nmDeleteFile deleteFileLl
  simp only [getFilePath_eq, getUndoPath_eq, marked.storage, marked.disk]
  split
  · exact .refl _ _ s
  · split
    · exact marked.step
    · rename_i unlinked
      refine ⟨rfl, ?_, ?_⟩
      · exact .trans (.unlink List.mem_cons_self unlinked)
          (.tryUnlink (by simp [Request.writes]))
      · exact (FileSystem.Adds.unlink unlinked).trans .tryUnlink

theorem diskStep_nmCreatefolder (username : Username) (now : TimeText) :
    DiskStep ((Request.createfolder filename username now).writes s.storage)
      ((Request.createfolder filename username now).makes s.storage) s
      (nmCreatefolder s filename username now).1 := by
  unfold nmCreatefolder
  rw [getFilePath_eq]
  split
  · exact .refl _ _ s
  · exact .refl _ _ s
  · rename_i made
    unfold addMetadataLl
    split
    · exact ⟨rfl, .mkdir made, .mkdir List.mem_cons_self made⟩
    · split
      · exact ⟨rfl, .mkdir made, .mkdir List.mem_cons_self made⟩
      · exact ⟨rfl, .mkdir made, .mkdir List.mem_cons_self made⟩

/-- The disk when a CHECKPOINT has looked for its folder. -/
def checkpointDisk (s : FileHandler) : FileSystem :=
  s.disk.tryMkdir (checkpointDir s.storage)

theorem diskStep_nmCheckpoint :
    DiskStep ((Request.checkpoint filename tag).writes s.storage)
      ((Request.checkpoint filename tag).makes s.storage) s
      (nmCheckpoint s filename tag).1 := by
  unfold nmCheckpoint
  simp only
  split
  · exact ⟨rfl, .tryMkdir _, .tryMkdir List.mem_cons_self⟩
  · split
    · exact ⟨rfl, .tryMkdir _, .tryMkdir List.mem_cons_self⟩
    · rename_i copied
      exact ⟨rfl, .trans (.tryMkdir _) (.copy List.mem_cons_self copied),
        .trans (.tryMkdir List.mem_cons_self)
          (.copy (by simp [Request.makes]) copied)⟩

theorem diskStep_nmRevert (now : TimeText) :
    DiskStep ((Request.revert filename tag now).writes s.storage)
      ((Request.revert filename tag now).makes s.storage) s
      (nmRevert s filename tag now).1 := by
  unfold nmRevert
  rw [getFilePath_eq]
  simp only
  split
  · exact .refl _ _ s
  · split
    · exact .refl _ _ s
    · rename_i copied
      have step : FileSystem.ChangedAt
          ((Request.revert filename tag now).writes s.storage) s.disk _ :=
        .copy List.mem_cons_self copied
      have adds : FileSystem.Adds
          ((Request.revert filename tag now).makes s.storage) s.disk _ :=
        .copy List.mem_cons_self copied
      unfold updateFileModifiedTimeLl
      split
      · exact ⟨rfl, step, adds⟩
      · exact ⟨rfl, step, adds⟩

theorem disk_handleTransferRequest (username : Username)
    (now : TimeText) :
    (handleTransferRequest s filename username now).1.disk = s.disk := by
  have checked := ((sameDisk_moves filename).hasAccessLl 1 s username).disk
  unfold handleTransferRequest hasReadAccessLl
  generalize hasAccessLl 1 s filename username = access at checked ⊢
  obtain ⟨allowed, t⟩ := access
  simp only at checked ⊢
  split
  · exact checked
  · split
    · exact checked
    · unfold updateFileAccessedTimeLl
      split
      · exact checked
      · exact checked

theorem disk_nmAddaccess (data : DataText) (accessType : Int) :
    (nmAddaccess s filename data accessType).1.disk = s.disk := by
  have added : (addUserAccessLl s filename
      (CString.copy 63 data.chars) accessType).1.disk = s.disk := by
    unfold addUserAccessLl
    split <;> rfl
  unfold nmAddaccess
  simp only
  split
  · exact added
  · exact added

theorem disk_nmRemaccess (data : DataText) :
    (nmRemaccess s filename data).1.disk = s.disk := by
  have removed : (removeUserAccessLl s filename
      (CString.copy 63 data.chars)).1.disk = s.disk := by
    unfold removeUserAccessLl
    split <;> rfl
  unfold nmRemaccess
  simp only
  split
  · exact removed
  · exact removed

/-- What any request but MOVE does to the disk. -/
theorem diskStep_handleRequest {request : Request}
    (stays : ∀ filename targetPath, request ≠ .move filename targetPath) :
    DiskStep (request.writes s.storage) (request.makes s.storage) s
      (handleRequest s request) := by
  cases request with
  | createFile filename username now => exact diskStep_nmCreateFile username now
  | deleteFile filename => exact diskStep_nmDeleteFile
  | addaccess filename data accessType =>
      exact .of_same (silent_nmAddaccess data accessType).storage
        (disk_nmAddaccess data accessType)
  | remaccess filename data =>
      exact .of_same (silent_nmRemaccess data).storage
        (disk_nmRemaccess data)
  | createfolder filename username now =>
      exact diskStep_nmCreatefolder username now
  | move filename targetPath => exact (stays filename targetPath rfl).elim
  | checkpoint filename tag => exact diskStep_nmCheckpoint
  | revert filename tag now => exact diskStep_nmRevert now
  | transfer filename username now =>
      exact .of_same (silent_handleTransferRequest username now).storage
        (disk_handleTransferRequest username now)
  | write filename username sentenceIndex messages now =>
      exact (diskStep_sessionMoves filename).handleWriteRequest s username
        sentenceIndex messages now
  | undo filename =>
      exact (diskStep_restoreMoves filename).handleUndoRequest s
  | query => exact .refl _ _ s

/-- What MOVE does to the disk. -/
theorem disk_nmMove (s : FileHandler) (filename : Filename)
    (targetPath : PathText) :
    (nmMove s filename targetPath).1.disk = s.disk ∨
      s.disk.rename (filePaths s.storage filename).file
        (s.storage.path (moveTarget s.storage filename targetPath)) =
          .ok (nmMove s filename targetPath).1.disk := by
  rw [← getFilePath_eq]
  unfold nmMove
  simp only
  split
  · exact .inl rfl
  · split
    · exact .inl rfl
    · split
      · exact .inl rfl
      · rename_i renamed
        exact .inr renamed

theorem storage_handleRequest (s : FileHandler) (request : Request) :
    (handleRequest s request).storage = s.storage := by
  by_cases moves : ∃ filename targetPath, request = .move filename targetPath
  · obtain ⟨filename, targetPath, rfl⟩ := moves
    exact (silent_nmMove targetPath).storage
  · exact (diskStep_handleRequest fun filename targetPath same =>
      moves ⟨filename, targetPath, same⟩).storage

/-- What stands at the end of a path that the request leaves stays there. -/
theorem sameAt_handleRequest {request : Request} {path : PathName}
    (stands : s.disk.PathExists path)
    (leaves : request.Leaves s.storage path) :
    FileSystem.SameAt s.disk (handleRequest s request).disk path := by
  by_cases moves : ∃ filename targetPath, request = .move filename targetPath
  · obtain ⟨filename, targetPath, rfl⟩ := moves
    rcases disk_nmMove s filename targetPath with same | renamed
    · rw [handleRequest, same]
      exact .refl
    · exact FileSystem.sameAt_rename renamed stands leaves.1 leaves.2
  · have step := @diskStep_handleRequest s request
      fun filename targetPath same => moves ⟨filename, targetPath, same⟩
    apply step.changed.sameAt stands
    cases request with
    | move filename targetPath => exact (moves ⟨_, _, rfl⟩).elim
    | _ => exact leaves

/-- What a request makes stands where it says, or where a MOVE goes. -/
theorem exists_handleRequest {request : Request} {place : Location}
    (stands : (handleRequest s request).disk.Exists place) :
    s.disk.Exists place ∨ place ∈ request.makes s.storage ∨
      ∃ filename targetPath, request = .move filename targetPath ∧
        moveGoal s.storage filename targetPath <+: place := by
  by_cases moves : ∃ filename targetPath, request = .move filename targetPath
  · obtain ⟨filename, targetPath, rfl⟩ := moves
    rcases disk_nmMove s filename targetPath with same | renamed
    · rw [handleRequest, same] at stands
      exact .inl stands
    · exact (FileSystem.exists_rename renamed stands).imp_right fun below =>
        .inr ⟨filename, targetPath, rfl, below⟩
  · have step := @diskStep_handleRequest s request
      fun filename targetPath same => moves ⟨filename, targetPath, same⟩
    exact (step.adds place stands).imp_right .inl

end

/-- The records of other files are kept. -/
def OtherRecords (filename : Filename) (s t : FileHandler) : Prop :=
  ∀ other, other ≠ filename → findMetadata t other = findMetadata s other

theorem otherRecords_moves (filename : Filename) :
    SessionMoves filename (OtherRecords filename) where
  refl := fun _ _ _ => rfl
  trans := fun first second other different =>
    (second other different).trans (first other different)
  cache := fun _ _ _ _ => rfl
  uncache := fun _ _ _ => rfl
  accessCache := fun _ _ _ _ => rfl
  folders := fun _ _ _ => rfl
  backup := fun _ _ _ _ _ _ => rfl
  write := fun _ _ _ _ _ _ => rfl
  swap := fun _ _ _ _ _ => rfl
  record := fun s _ kept _ different => find?_modifyRecord s.metadataList
    (fun record => congrArg Prod.fst (kept record)) different

/-- Opening a session keeps all records. -/
theorem records_moves (filename : Filename) :
    MemoryMoves filename fun s t => t.metadataList = s.metadataList where
  refl := fun _ => rfl
  trans := fun first second => second.trans first
  cache := fun _ _ => rfl
  uncache := fun _ => rfl
  accessCache := fun _ _ => rfl
  folders := fun _ => rfl
  backup := fun _ _ _ _ => rfl

theorem records_saveUndoBackupLl {s : FileHandler} {filename : Filename} :
    (saveUndoBackupLl s filename).1.metadataList = s.metadataList :=
  (records_moves filename).saveUndoBackupLl s

end Dfs.StorageServer
