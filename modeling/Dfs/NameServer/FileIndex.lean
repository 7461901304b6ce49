import Dfs.Protocol
import Dfs.Library.ChainedIndex

/-!
# File lists and hash index of the name server

The part of `name_server/ss_manager.c` that keeps one array of file records
per storage server and a chained hash table of pointers into those arrays,
with the rename steps of `handle_move_file`.  A pointer is a server position
and a slot of its array, so it keeps denoting the same cell when the cells
around it are shifted.
-/

namespace Dfs.NameServer

def maxStorageServers : Nat := 100
def maxFilesPerServer : Nat := 1000
def fileHashTableSize : Nat := 10007

inductive SsStatus where
  | offline
  | online
  deriving DecidableEq, Repr

structure FileInfo where
  filename : Filename
  owner : Username
  ssId : Int
  createdTime : Int
  modifiedTime : Int
  deriving DecidableEq, Repr

/-- A `FileInfo *` into the `files` array of a registered server. -/
structure FilePtr where
  server : Nat
  slot : Nat
  deriving DecidableEq, Repr

/-- `files` is the memory of the whole array; the cells below `fileCount` are
the live ones. -/
structure StorageServerInfo where
  ssId : Int
  ip : IpText
  nmPort : Int
  clientPort : Int
  status : SsStatus
  files : Nat → FileInfo
  fileCount : Nat

structure NameServerState where
  storageServers : List StorageServerInfo
  fileIndex : ChainedIndex Filename FilePtr

def initNameServer : NameServerState :=
  { storageServers := [], fileIndex := ChainedIndex.empty }

/-- The fields of a registration message that `register_storage_server`
reads. -/
structure RegisterMessage where
  ssId : Int
  ip : IpText
  port1 : Int
  port2 : Int
  data : DataText

def hashFilename (filename : Filename) : Nat :=
  CText.djb2 64 filename.chars % fileHashTableSize

def hashInsertFile (nm : NameServerState) (filename : Filename)
    (file : FilePtr) : NameServerState :=
  { nm with fileIndex := nm.fileIndex.insert hashFilename filename file }

def hashRemoveFile (nm : NameServerState) (filename : Filename) :
    NameServerState :=
  { nm with fileIndex := nm.fileIndex.remove hashFilename filename }

def hashFindFile (nm : NameServerState) (filename : Filename) :
    Option FilePtr :=
  nm.fileIndex.find hashFilename filename

def findFile (nm : NameServerState) (filename : Filename) : Option FilePtr :=
  hashFindFile nm filename

def findStorageServer (nm : NameServerState) (ssId : Int) : Option Nat :=
  nm.storageServers.findIdx? fun ss => ss.ssId = ssId

def modifyServer (nm : NameServerState) (server : Nat)
    (change : StorageServerInfo → StorageServerInfo) : NameServerState :=
  { nm with storageServers := nm.storageServers.modify server change }

/-- Fill the cell at `file_count`, index it and count it. -/
def appendFile (nm : NameServerState) (server : Nat) (file : FileInfo) :
    NameServerState :=
  match nm.storageServers[server]? with
  | none => nm
  | some ss =>
      let nm := modifyServer nm server fun ss =>
        { ss with files := Function.update ss.files ss.fileCount file }
      let nm := hashInsertFile nm file.filename ⟨server, ss.fileCount⟩
      modifyServer nm server fun ss =>
        { ss with fileCount := ss.fileCount + 1 }

def zeroedFile : FileInfo :=
  { filename := CString.copy 255 []
    owner := CString.copy 63 []
    ssId := 0
    createdTime := 0
    modifiedTime := 0 }

/-- One `filename:owner` token of a registered file list. -/
def parseFileEntry (now ssId : Int) (token : Text) : FileInfo :=
  let name := token.takeWhile (· ≠ ':')
  let owner :=
    if ':' ∈ token then (token.dropWhile (· ≠ ':')).drop 1
    else "system".toList
  { filename := CString.copy 255 name
    owner := CString.copy 63 owner
    ssId := ssId
    createdTime := now
    modifiedTime := now }

def registerFiles (now ssId : Int) (server : Nat) :
    NameServerState → List Text → NameServerState
  | nm, [] => nm
  | nm, token :: tokens =>
      match nm.storageServers[server]? with
      | none => nm
      | some ss =>
          if ss.fileCount < maxFilesPerServer then
            registerFiles now ssId server
              (appendFile nm server (parseFileEntry now ssId token)) tokens
          else nm

def registerStorageServer (now : Int) (nm : NameServerState)
    (msg : RegisterMessage) : NameServerState × Int :=
  match findStorageServer nm msg.ssId with
  | some server =>
      (modifyServer nm server fun ss =>
        { ss with
          ip := msg.ip
          nmPort := msg.port1
          clientPort := msg.port2
          status := .online }, errSuccess)
  | none =>
      if nm.storageServers.length ≥ maxStorageServers then
        (nm, errServerError)
      else
        let ss : StorageServerInfo :=
          { ssId := msg.ssId
            ip := msg.ip
            nmPort := msg.port1
            clientPort := msg.port2
            status := .online
            files := fun _ => zeroedFile
            fileCount := 0 }
        let server := nm.storageServers.length
        let nm := { nm with storageServers := nm.storageServers ++ [ss] }
        (registerFiles now msg.ssId server nm
          (CText.strtok ',' msg.data.chars), errSuccess)

/-- The first live slot of a server that holds the name. -/
def findSlot (ss : StorageServerInfo) (filename : Filename) : Option Nat :=
  (List.range ss.fileCount).find? fun slot =>
    (ss.files slot).filename = filename

def addFileToServer (now : Int) (nm : NameServerState) (ssId : Int)
    (filename : Filename) (owner : Username) : NameServerState × Int :=
  match findStorageServer nm ssId with
  | none => (nm, errServerError)
  | some server =>
      match nm.storageServers[server]? with
      | none => (nm, errServerError)
      | some ss =>
          if ss.fileCount ≥ maxFilesPerServer then (nm, errServerError)
          else if (findSlot ss filename).isSome then (nm, errFileExists)
          else
            (appendFile nm server
              { filename := filename
                owner := owner
                ssId := ssId
                createdTime := now
                modifiedTime := now }, errSuccess)

/-- Move the cells behind a slot one place down, up to the last live one. -/
def shiftFiles (ss : StorageServerInfo) (slot : Nat) : StorageServerInfo :=
  { ss with
    files := fun cell =>
      if slot ≤ cell ∧ cell + 1 < ss.fileCount then ss.files (cell + 1)
      else ss.files cell
    fileCount := ss.fileCount - 1 }

def removeFileFromServer (nm : NameServerState) (ssId : Int)
    (filename : Filename) : NameServerState × Int :=
  match findStorageServer nm ssId with
  | none => (nm, errServerError)
  | some server =>
      match nm.storageServers[server]?.bind (findSlot · filename) with
      | none => (nm, errFileNotFound)
      | some slot =>
          let nm := hashRemoveFile nm filename
          (modifyServer nm server fun ss => shiftFiles ss slot, errSuccess)

/-- The rename steps of `handle_move_file` after the storage server moved the
file: unlink the old name, overwrite the record, index the new name. -/
def moveFile (nm : NameServerState) (filename : Filename)
    (targetPath : PathText) : NameServerState :=
  match findFile nm filename with
  | none => nm
  | some file =>
      let newPath : Filename :=
        CString.copy 255 (targetPath.chars ++ '/' :: filename.chars)
      let nm := hashRemoveFile nm filename
      let nm := modifyServer nm file.server fun ss =>
        { ss with
          files := Function.update ss.files file.slot
            { ss.files file.slot with filename := newPath } }
      hashInsertFile nm newPath file

end Dfs.NameServer
