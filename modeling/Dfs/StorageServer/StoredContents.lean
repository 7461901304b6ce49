import Dfs.StorageServer.ClientPort

/-!
# Who may change what is stored

What stands at a place on the disk of a storage server is found under every
path that leads there.  Five requests at the port of the name server can
change it, and CREATE writes a file only where there is no record.  At the
client port WRITE asks for write access, under the name in the request, and
UNDO asks nobody.
-/

namespace Dfs.StorageServer

/-- The request may change the file at the place. -/
def NmRequest.SetsContent (storage : StorageDir) (request : NmRequest)
    (place : Location) : Prop :=
  match request with
  | .createFile target _ =>
      place = (filePaths storage target).file.resolve ∨
        place = (filePaths storage target).backup.resolve
  | .deleteFile target _ =>
      place = (filePaths storage target).file.resolve ∨
        place = (filePaths storage target).backup.resolve
  | .move target targetPath _ =>
      (filePaths storage target).file.resolve <+: place ∨
        moveGoal storage target targetPath <+: place
  | .checkpoint target tag _ =>
      place = (checkpointPath storage target tag).resolve
  | .revert target _ _ => place = (filePaths storage target).file.resolve
  | _ => False

/-- The request of the user may change the file at the place: a session writes
its file, the swap file and the backup, and UNDO writes what was saved. -/
inductive ClientRequest.SetsContent (s : FileHandler) (username : Username)
    (place : Location) : ClientRequest → Prop where
  | writes {target : Filename} {sentenceIndex : Int}
      {messages : List WriteMessage}
      (allowed : (hasWriteAccessLl s target username).1 = true)
      (here : place = (filePaths s.storage target).file.resolve ∨
        place = (filePaths s.storage target).swap.resolve ∨
        place = (filePaths s.storage target).backup.resolve) :
      SetsContent s username place (.write target sentenceIndex messages)
  | undoes {target : Filename}
      (saved : s.disk.PathExists (filePaths s.storage target).backup)
      (here : place = (filePaths s.storage target).file.resolve) :
      SetsContent s username place (.undo target)

section

variable {s : FileHandler} {target : Filename} {username : Username}
  {place : Location}

/-- A request other than MOVE changes files where it writes. -/
theorem files_handleRequest {request : Request}
    (stays : ∀ filename targetPath, request ≠ .move filename targetPath)
    (elsewhere : place ∉ request.writes s.storage) :
    (handleRequest s request).disk.files.get place =
      s.disk.files.get place :=
  (diskStep_handleRequest stays).changed.files place elsewhere

/-- CREATE empties no file that has a record. -/
theorem files_nmCreateFile_of_recorded
    (recorded : (findMetadata s target).isSome)
    (elsewhere : place ≠ (filePaths s.storage target).backup.resolve)
    (now : TimeText) :
    (nmCreateFile s target username now).1.disk.files.get place =
      s.disk.files.get place := by
  have known : target ∈ s.names := by
    by_contra unknown
    rw [findMetadata_eq_none_iff.mpr unknown] at recorded
    cases recorded
  rcases nmCreateFile_cases s target username now with
    ⟨_, result⟩ | ⟨unknown, _⟩ | ⟨unknown, _⟩
  · rw [result]
    exact diskStep_saveUndoBackupLl.changed.files place
      (by simpa using elsewhere)
  · exact (unknown known).elim
  · exact (unknown known).elim

theorem files_nmMove {targetPath : PathText}
    (outside : ¬(filePaths s.storage target).file.resolve <+: place)
    (apart : ¬moveGoal s.storage target targetPath <+: place) :
    (nmMove s target targetPath).1.disk.files.get place =
      s.disk.files.get place := by
  rcases disk_nmMove s target targetPath with same | renamed
  · rw [same]
  · exact FileSystem.files_rename renamed outside apart

/-- The other requests leave the file at the place. -/
theorem files_handleNmConnection {context : NmContext} {request : NmRequest}
    (others : ¬request.SetsContent s.storage place) :
    (handleNmConnection context s request).1.disk.files.get place =
      s.disk.files.get place := by
  cases request with
  | createFile target username =>
      exact @files_handleRequest s place
        (.createFile target username context.now) (by simp)
        (by simpa [NmRequest.SetsContent, Request.writes] using others)
  | createfolder target username =>
      exact @files_handleRequest s place
        (.createfolder target username context.now) (by simp)
        (by simp [Request.writes])
  | deleteFile target username =>
      exact @files_handleRequest s place (.deleteFile target) (by simp)
        (by simpa [NmRequest.SetsContent, Request.writes] using others)
  | addaccess target username data accessType =>
      exact congrArg (fun disk => disk.files.get place)
        (disk_nmAddaccess data accessType)
  | remaccess target username data =>
      exact congrArg (fun disk => disk.files.get place)
        (disk_nmRemaccess data)
  | info target username => rfl
  | move target targetPath username =>
      exact files_nmMove (fun below => others (.inl below))
        fun below => others (.inr below)
  | checkpoint target tag username =>
      exact @files_handleRequest s place (.checkpoint target tag) (by simp)
        (by simpa [NmRequest.SetsContent, Request.writes] using others)
  | viewcheckpoint target tag username => rfl
  | revert target tag username =>
      exact @files_handleRequest s place (.revert target tag context.now)
        (by simp)
        (by simpa [NmRequest.SetsContent, Request.writes] using others)
  | listcheckpoints target username => rfl

theorem storage_handleNmConnection (context : NmContext) (s : FileHandler)
    (request : NmRequest) :
    (handleNmConnection context s request).1.storage = s.storage := by
  cases request with
  | createFile target username =>
      exact storage_handleRequest s (.createFile target username context.now)
  | createfolder target username =>
      exact storage_handleRequest s
        (.createfolder target username context.now)
  | deleteFile target username =>
      exact storage_handleRequest s (.deleteFile target)
  | addaccess target username data accessType =>
      exact (silent_nmAddaccess data accessType).storage
  | remaccess target username data => exact (silent_nmRemaccess data).storage
  | info target username => rfl
  | move target targetPath username => exact (silent_nmMove targetPath).storage
  | checkpoint target tag username =>
      exact storage_handleRequest s (.checkpoint target tag)
  | viewcheckpoint target tag username => rfl
  | revert target tag username =>
      exact storage_handleRequest s (.revert target tag context.now)
  | listcheckpoints target username => rfl

theorem disk_handleWriteRequest_of_denied
    (denied : (hasWriteAccessLl s target username).1 = false)
    (sentenceIndex : Int) (messages : List WriteMessage) (now : TimeText) :
    (handleWriteRequest s target username sentenceIndex messages
      now).1.disk = s.disk := by
  simp only [handleWriteRequest, openWrite, denied, ↓reduceIte]
  exact ((sameDisk_moves target).hasAccessLl 2 s username).disk

theorem storage_handleClientConnection (s : FileHandler)
    (username : Username) (now : TimeText) (request : ClientRequest) :
    (handleClientConnection s username now request).1.storage =
      s.storage := by
  cases request with
  | read target =>
      rw [handleClientConnection, handleReadRequest_server]
      exact storage_handleRequest s (.transfer target username now)
  | stream target =>
      rw [handleClientConnection, handleStreamRequest_server]
      exact storage_handleRequest s (.transfer target username now)
  | write target sentenceIndex messages =>
      exact storage_handleRequest s
        (.write target username sentenceIndex messages now)
  | undo target => exact storage_handleRequest s (.undo target)
  | unknown => rfl

/-- The other requests leave the file at the place. -/
theorem files_handleClientConnection {request : ClientRequest}
    (others : ¬request.SetsContent s username place) (now : TimeText) :
    (handleClientConnection s username now request).1.disk.files.get place =
      s.disk.files.get place := by
  cases request with
  | read target =>
      rw [handleClientConnection, handleReadRequest_server,
        disk_handleTransferRequest]
  | stream target =>
      rw [handleClientConnection, handleStreamRequest_server,
        disk_handleTransferRequest]
  | write target sentenceIndex messages =>
      rw [handleClientConnection]
      cases allowed : (hasWriteAccessLl s target username).1 with
      | false => rw [disk_handleWriteRequest_of_denied allowed]
      | true =>
          apply @files_handleRequest s place
            (.write target username sentenceIndex messages now) (by simp)
          intro here
          exact others (.writes allowed (by simpa [Request.writes] using here))
  | undo target =>
      rw [handleClientConnection]
      by_cases saved : s.disk.PathExists (filePaths s.storage target).backup
      · apply @files_handleRequest s place (.undo target) (by simp)
        intro here
        exact others (.undoes saved (by simpa [Request.writes] using here))
      · have unread : s.disk.read (filePaths s.storage target).backup =
            none := by
          rw [← Option.not_isSome_iff_eq_none, FileSystem.read_isSome_iff]
          exact saved
        rw [handleUndoRequest_of_unsaved]
        intro backup found
        rw [unread] at found
        cases found
  | unknown => rfl

end

end Dfs.StorageServer
