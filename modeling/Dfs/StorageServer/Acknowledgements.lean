import Dfs.StorageServer.Queries
import Dfs.StorageServer.Interleaving

/-!
# What the answers to the name server say

The functions of the file handler report failures in two ways: with `-1`, and
with a positive code of the protocol.  `handle_nm_connection` tests for
negative results, so a positive code is acknowledged as success.  For the
requests whose handler sets the error code itself, the second part says when
the answer is a success.
-/

namespace Dfs.StorageServer

/-- The requests of the name server that call one function of the file
handler and answer with its result. -/
inductive FunctionRequest where
  | createFile (filename : Filename) (username : Username) (now : TimeText)
  | deleteFile (filename : Filename)
  | addaccess (filename : Filename) (data : DataText) (accessType : Int)
  | remaccess (filename : Filename) (data : DataText)
  | info (filename : Filename)
  deriving DecidableEq, Repr

/-- The answer that is sent; `leftover` is what the stack held before INFO. -/
def functionResponse (leftover : FileMetadata) (s : FileHandler) :
    FunctionRequest → Response
  | .createFile filename username now =>
      (nmCreateFile s filename username now).2
  | .deleteFile filename => (nmDeleteFile s filename).2
  | .addaccess filename data accessType =>
      (nmAddaccess s filename data accessType).2
  | .remaccess filename data => (nmRemaccess s filename data).2
  | .info filename => nmInfo leftover s filename

/-- What the called function returned. -/
def functionResult (s : FileHandler) : FunctionRequest → Int
  | .createFile filename username now =>
      (createFileLl s filename username now).2
  | .deleteFile filename => (deleteFileLl s filename).2
  | .addaccess filename data accessType =>
      (addUserAccessLl s filename (CString.copy 63 data.chars) accessType).2
  | .remaccess filename data =>
      (removeUserAccessLl s filename (CString.copy 63 data.chars)).2
  | .info filename => (getFileMetadataLl s filename).2

/-- CREATE finds no record, and every other request finds one. -/
def FunctionRequest.Expected (s : FileHandler) : FunctionRequest → Prop
  | .createFile filename _ _ => findMetadata s filename = none
  | .deleteFile filename => (findMetadata s filename).isSome
  | .addaccess filename _ _ => (findMetadata s filename).isSome
  | .remaccess filename _ => (findMetadata s filename).isSome
  | .info filename => (findMetadata s filename).isSome

/-- The answer reports success for every result that is not negative. -/
theorem functionResponse_success_iff (leftover : FileMetadata)
    (s : FileHandler) (request : FunctionRequest) :
    (functionResponse leftover s request).errorCode = errSuccess ↔
      0 ≤ functionResult s request := by
  cases request with
  | createFile filename username now =>
      simp only [functionResponse, functionResult, nmCreateFile]
      generalize createFileLl s filename username now = result
      obtain ⟨t, code⟩ := result
      by_cases failed : code < 0
      · have other : code ≠ errFileExists := by
          intro same
          rw [same] at failed
          exact absurd failed (by decide)
        simp [failed, other, nmResponse, errServerError, errSuccess]
      · simp [failed, nmResponse, Int.not_lt.mp failed]
  | deleteFile filename =>
      simp only [functionResponse, functionResult, nmDeleteFile]
      generalize deleteFileLl s filename = result
      by_cases failed : result.2 < 0
      · simp [failed, nmResponse, errFileNotFound, errSuccess]
      · simp [failed, nmResponse, Int.not_lt.mp failed]
  | addaccess filename data accessType =>
      simp only [functionResponse, functionResult, nmAddaccess]
      generalize addUserAccessLl s filename (CString.copy 63 data.chars)
        accessType = result
      by_cases failed : result.2 < 0
      · simp [failed, nmResponse, errServerError, errSuccess]
      · simp [failed, nmResponse, Int.not_lt.mp failed]
  | remaccess filename data =>
      simp only [functionResponse, functionResult, nmRemaccess]
      generalize removeUserAccessLl s filename
        (CString.copy 63 data.chars) = result
      by_cases failed : result.2 < 0
      · simp [failed, nmResponse, errServerError, errSuccess]
      · simp [failed, nmResponse, Int.not_lt.mp failed]
  | info filename =>
      simp only [functionResponse, functionResult, nmInfo]
      generalize getFileMetadataLl s filename = result
      by_cases failed : result.2 < 0
      · simp [failed, nmResponse, errFileNotFound, errSuccess]
      · simp [failed, Int.not_lt.mp failed]

/-- A result is positive exactly for a record that should not be there, or
that is missing. -/
theorem functionResult_pos_iff (s : FileHandler)
    (request : FunctionRequest) :
    0 < functionResult s request ↔ ¬request.Expected s := by
  cases request with
  | createFile filename username now =>
      simp only [functionResult, createFileLl, FunctionRequest.Expected]
      cases findMetadata s filename with
      | some record => simp [errFileExists]
      | none =>
          simp only [Option.isSome_none, Bool.false_eq_true, ↓reduceIte,
            not_true_eq_false, iff_false]
          split
          · simp
          · split <;> simp
  | deleteFile filename =>
      simp only [functionResult, deleteFileLl, FunctionRequest.Expected]
      cases findMetadata s filename with
      | none => simp [errFileNotFound]
      | some record =>
          simp only [Option.isSome_some, not_true_eq_false, iff_false]
          split <;> simp
  | addaccess filename data accessType =>
      simp only [functionResult, addUserAccessLl, FunctionRequest.Expected]
      cases findMetadata s filename with
      | none => simp [errFileNotFound]
      | some record => simp
  | remaccess filename data =>
      simp only [functionResult, removeUserAccessLl,
        FunctionRequest.Expected]
      cases findMetadata s filename with
      | none => simp [errFileNotFound]
      | some record => simp
  | info filename =>
      simp only [functionResult, getFileMetadataLl, FunctionRequest.Expected]
      cases findMetadata s filename with
      | none => simp [errFileNotFound]
      | some record => simp

/-- The acknowledgement agrees with the function exactly when a CREATE finds
no record and any other request finds one. -/
theorem acknowledgement_truthful_iff (leftover : FileMetadata)
    (s : FileHandler) (request : FunctionRequest) :
    ((functionResponse leftover s request).errorCode = errSuccess ↔
        functionResult s request = 0) ↔
      request.Expected s := by
  have success := functionResponse_success_iff leftover s request
  have positive := functionResult_pos_iff s request
  constructor
  · intro truthful
    by_contra unexpected
    have above := positive.mpr unexpected
    have zero := truthful.mp (success.mpr (by omega))
    omega
  · intro expected
    have bounded : ¬0 < functionResult s request := fun above =>
      positive.mp above expected
    rw [success]
    omega

/-- The second CREATE of a name is acknowledged although `create_file_ll`
refused it. -/
theorem repeated_create_acknowledged :
    ¬((functionResponse (newMetadata sampleFile sampleUser sampleTime)
          (sampleServer []) (.createFile sampleFile sampleUser
            sampleTime)).errorCode = errSuccess ↔
        functionResult (sampleServer []) (.createFile sampleFile sampleUser
          sampleTime) = 0) := by
  decide +kernel

section

variable {s : FileHandler} {filename : Filename}

theorem nmCreatefolder_success_iff (username : Username) (now : TimeText) :
    (nmCreatefolder s filename username now).2.errorCode = errSuccess ↔
      (s.disk.mkdir (getFilePath s.storage filename)).toBool = true := by
  unfold nmCreatefolder
  cases s.disk.mkdir (getFilePath s.storage filename) with
  | ok disk => simp [nmResponse, Except.toBool]
  | error reason =>
      cases reason <;>
        simp [nmResponse, errFileExists, errServerError, errSuccess,
          Except.toBool]

theorem nmMove_success_iff (targetPath : PathText) :
    (nmMove s filename targetPath).2.errorCode = errSuccess ↔
      s.disk.PathExists (getFilePath s.storage filename) ∧
        s.disk.PathExists
          (s.storage.path (moveFolder s.storage targetPath)) ∧
        (s.disk.rename (getFilePath s.storage filename)
          (s.storage.path
            (moveTarget s.storage filename targetPath))).toBool = true := by
  unfold nmMove
  by_cases source : s.disk.PathExists (getFilePath s.storage filename)
  · by_cases folder : s.disk.PathExists
        (s.storage.path (moveFolder s.storage targetPath))
    · cases renamed : s.disk.rename (getFilePath s.storage filename)
          (s.storage.path (moveTarget s.storage filename targetPath)) with
      | error reason =>
          simp [source, folder, renamed, nmResponse, errServerError,
            errSuccess, Except.toBool]
      | ok disk =>
          simp [source, folder, renamed, nmResponse, Except.toBool]
    · simp [source, folder, nmResponse, errFileNotFound, errSuccess]
  · simp [source, nmResponse, errFileNotFound, errSuccess]

theorem nmCheckpoint_success_iff (tag : Filename) :
    (nmCheckpoint s filename tag).2.errorCode = errSuccess ↔
      (s.disk.tryMkdir (checkpointDir s.storage)).PathExists
          (getFilePath s.storage filename) ∧
        ((s.disk.tryMkdir (checkpointDir s.storage)).target
          (checkpointPath s.storage filename tag)).isSome := by
  rw [← FileSystem.copy_isSome_iff]
  unfold nmCheckpoint
  simp only
  cases opened : (s.disk.tryMkdir (checkpointDir s.storage)).openRead
      (getFilePath s.storage filename) with
  | none =>
      simp [FileSystem.copy, opened, nmResponse, errFileNotFound, errSuccess]
  | some file =>
      simp only
      cases (s.disk.tryMkdir (checkpointDir s.storage)).copy
          (getFilePath s.storage filename)
          (checkpointPath s.storage filename tag) with
      | none => simp [nmResponse, errServerError, errSuccess]
      | some disk => simp [nmResponse]

theorem nmRevert_success_iff (tag : Filename) (now : TimeText) :
    (nmRevert s filename tag now).2.errorCode = errSuccess ↔
      s.disk.PathExists (checkpointPath s.storage filename tag) ∧
        (s.disk.target (getFilePath s.storage filename)).isSome := by
  rw [← FileSystem.copy_isSome_iff]
  unfold nmRevert
  by_cases stands : s.disk.PathExists (checkpointPath s.storage filename tag)
  · cases copied : s.disk.copy (checkpointPath s.storage filename tag)
        (getFilePath s.storage filename) with
    | none => simp [stands, copied, nmResponse, errServerError, errSuccess]
    | some disk => simp [stands, copied, nmResponse]
  · have nothing : s.disk.copy (checkpointPath s.storage filename tag)
        (getFilePath s.storage filename) = none := by
      rw [← Option.not_isSome_iff_eq_none, FileSystem.copy_isSome_iff]
      exact fun both => stands both.1
    simp [stands, nothing, nmResponse, errFileNotFound, errSuccess]

end

end Dfs.StorageServer
