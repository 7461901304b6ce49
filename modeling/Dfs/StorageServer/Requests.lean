import Dfs.StorageServer.WriteSession

/-!
# Requests to a storage server

The cases of `handle_nm_connection` and `handle_client_connection`, each with
its effect on the server and its answer.  The framing of transferred files is
left out: READ and STREAM return the text they transfer.  The requests that
only look at the server are one `query`.
-/

namespace Dfs.StorageServer

/-- The answer of `handle_nm_connection`, an acknowledgement by default. -/
def nmResponse (operation errorCode : Int) (data : Text) : Response :=
  ⟨msgAck, operation, errorCode, data⟩

/-- An existing file is reported with a positive code, so that the backup is
saved then too. -/
def nmCreateFile (s : FileHandler) (filename : Filename)
    (username : Username) (now : TimeText) : FileHandler × Response :=
  let (s, result) := createFileLl s filename username now
  if result < 0 then
    (s, nmResponse opSsCreateFile
      (if result = errFileExists then errFileExists else errServerError) [])
  else
    ((saveUndoBackupLl s filename).1, nmResponse opSsCreateFile errSuccess [])

def nmDeleteFile (s : FileHandler) (filename : Filename) :
    FileHandler × Response :=
  let (s, result) := deleteFileLl s filename
  (s, nmResponse opSsDeleteFile
    (if result < 0 then errFileNotFound else errSuccess) [])

def nmAddaccess (s : FileHandler) (filename : Filename) (data : DataText)
    (accessType : Int) : FileHandler × Response :=
  let (s, result) :=
    addUserAccessLl s filename (CString.copy 63 data.chars) accessType
  if result < 0 then
    (s, nmResponse opSsAddaccess errServerError
      "Failed to add access for user".toList)
  else
    (s, nmResponse opSsAddaccess errSuccess
      "Access granted successfully".toList)

def nmRemaccess (s : FileHandler) (filename : Filename) (data : DataText) :
    FileHandler × Response :=
  let (s, result) :=
    removeUserAccessLl s filename (CString.copy 63 data.chars)
  if result < 0 then
    (s, nmResponse opSsRemaccess errServerError
      "Failed to remove access for user".toList)
  else
    (s, nmResponse opSsRemaccess errSuccess
      "Access removed successfully".toList)

def strerror : Errno → Text
  | .enoent => "No such file or directory".toList
  | .enotdir => "Not a directory".toList
  | .eisdir => "Is a directory".toList
  | .eexist => "File exists".toList
  | .enotempty => "Directory not empty".toList
  | .einval => "Invalid argument".toList
  | .ebusy => "Device or resource busy".toList
  | .enametoolong => "File name too long".toList

def folderMetadata (filename : Filename) (owner : Username)
    (now : TimeText) : FileMetadata :=
  { filename := filename
    owner := owner
    createdTime := now
    modifiedTime := now
    accessedTime := CString.copy 63 []
    fileSize := 0
    wordCount := -1
    charCount := 0
    accessList := CString.copy 4095 [] }

def nmCreatefolder (s : FileHandler) (filename : Filename)
    (username : Username) (now : TimeText) : FileHandler × Response :=
  match s.disk.mkdir (getFilePath s.storage filename) with
  | .error .eexist =>
      (s, nmResponse opCreatefolder errFileExists
        "Folder already exists".toList)
  | .error reason =>
      (s, nmResponse opCreatefolder errServerError
        ("Failed to create folder: ".toList ++ strerror reason))
  | .ok disk =>
      ((addMetadataLl { s with disk := disk }
          (folderMetadata filename username now)).1,
        nmResponse opCreatefolder errSuccess
          "Folder created successfully".toList)

/-- `dst_dir`, cut off where the buffer ends. -/
def moveFolder (storage : StorageDir) (targetPath : PathText) : Text :=
  ("files/".toList ++ targetPath.chars).take storage.pathRoom

/-- `dst_path`, cut off in the same way. -/
def moveTarget (storage : StorageDir) (filename : Filename)
    (targetPath : PathText) : Text :=
  (moveFolder storage targetPath ++ '/' :: filename.chars).take
    storage.pathRoom

def nmMove (s : FileHandler) (filename : Filename) (targetPath : PathText) :
    FileHandler × Response :=
  let source := getFilePath s.storage filename
  if ¬s.disk.PathExists source then
    (s, nmResponse opMove errFileNotFound "Source file not found".toList)
  else if ¬s.disk.PathExists
      (s.storage.path (moveFolder s.storage targetPath)) then
    (s, nmResponse opMove errFileNotFound
      "Destination folder does not exist".toList)
  else
    match s.disk.rename source
        (s.storage.path (moveTarget s.storage filename targetPath)) with
    | .error reason =>
        (s, nmResponse opMove errServerError
          ("Failed to move file: ".toList ++ strerror reason))
    | .ok disk =>
        ({ s with disk := disk },
          nmResponse opMove errSuccess "File moved successfully".toList)

def checkpointDir (storage : StorageDir) : PathName :=
  storage.path "checkpoints".toList

def checkpointPath (storage : StorageDir) (filename tag : Filename) :
    PathName :=
  storage.path ("checkpoints/".toList ++ filename.chars ++ '.' :: tag.chars)

/-- The directory of the checkpoints is made when it is missing. -/
def nmCheckpoint (s : FileHandler) (filename tag : Filename) :
    FileHandler × Response :=
  let source := getFilePath s.storage filename
  let s := { s with disk := s.disk.tryMkdir (checkpointDir s.storage) }
  match s.disk.openRead source with
  | none => (s, nmResponse opCheckpoint errFileNotFound "File not found".toList)
  | some _ =>
      match s.disk.copy source (checkpointPath s.storage filename tag) with
      | none =>
          (s, nmResponse opCheckpoint errServerError
            "Failed to create checkpoint".toList)
      | some disk =>
          ({ s with disk := disk },
            nmResponse opCheckpoint errSuccess
              "Checkpoint created successfully".toList)

/-- Only the disk file is restored. -/
def nmRevert (s : FileHandler) (filename tag : Filename) (now : TimeText) :
    FileHandler × Response :=
  let checkpoint := checkpointPath s.storage filename tag
  if ¬s.disk.PathExists checkpoint then
    (s, nmResponse opRevert errFileNotFound "Checkpoint not found".toList)
  else
    match s.disk.copy checkpoint (getFilePath s.storage filename) with
    | none =>
        (s, nmResponse opRevert errServerError "Failed to revert file".toList)
    | some disk =>
        ((updateFileModifiedTimeLl { s with disk := disk } filename now).1,
          nmResponse opRevert errSuccess "File reverted successfully".toList)

/-- What READ and STREAM send, or the code of their error. -/
def handleTransferRequest (s : FileHandler) (filename : Filename)
    (username : Username) (now : TimeText) :
    FileHandler × Except Int Text :=
  let (allowed, s) := hasReadAccessLl s filename username
  if allowed = false then (s, .error errNoReadAccess)
  else
    match s.disk.openRead (getFilePath s.storage filename) with
    | none => (s, .error errFileNotFound)
    | some file =>
        ((updateFileAccessedTimeLl s filename username now).1,
          .ok file.bytes)

inductive Request where
  | createFile (filename : Filename) (username : Username) (now : TimeText)
  | deleteFile (filename : Filename)
  | addaccess (filename : Filename) (data : DataText) (accessType : Int)
  | remaccess (filename : Filename) (data : DataText)
  | createfolder (filename : Filename) (username : Username) (now : TimeText)
  | move (filename : Filename) (targetPath : PathText)
  | checkpoint (filename tag : Filename)
  | revert (filename tag : Filename) (now : TimeText)
  | transfer (filename : Filename) (username : Username) (now : TimeText)
  | write (filename : Filename) (username : Username) (sentenceIndex : Int)
      (messages : List WriteMessage) (now : TimeText)
  | undo (filename : Filename)
  | query
  deriving DecidableEq, Repr

/-- The server after one complete request. -/
def handleRequest (s : FileHandler) : Request → FileHandler
  | .createFile filename username now =>
      (nmCreateFile s filename username now).1
  | .deleteFile filename => (nmDeleteFile s filename).1
  | .addaccess filename data accessType =>
      (nmAddaccess s filename data accessType).1
  | .remaccess filename data => (nmRemaccess s filename data).1
  | .createfolder filename username now =>
      (nmCreatefolder s filename username now).1
  | .move filename targetPath => (nmMove s filename targetPath).1
  | .checkpoint filename tag => (nmCheckpoint s filename tag).1
  | .revert filename tag now => (nmRevert s filename tag now).1
  | .transfer filename username now =>
      (handleTransferRequest s filename username now).1
  | .write filename username sentenceIndex messages now =>
      (handleWriteRequest s filename username sentenceIndex messages now).1
  | .undo filename => (handleUndoRequest s filename).1
  | .query => s

end Dfs.StorageServer
