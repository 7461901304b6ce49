import Dfs.Library.FileSystem
import Dfs.Library.Store
import Dfs.Library.ProbeTable
import Dfs.StorageServer.Document

/-!
# State of a storage server

Everything `file_handler_ll.c` keeps: its directory on disk, the cache of
loaded documents with their reference counts, the metadata records and the
access cache.  File names are used in paths as they are, so that two names may
mean one file, and `..` leads out of the directory.  The metadata file is kept
apart from the other files, so that saving the records changes none of them.
-/

namespace Dfs.StorageServer

def maxFiles : Nat := 1000

/-- A document in the file cache. -/
structure LoadedFile extends Document where
  refcount : Int
  markedForDeletion : Bool
  deriving DecidableEq, Repr

/-- `char created_time[64]` and its siblings. -/
abbrev TimeText := CString 63

structure FileMetadata where
  filename : Filename
  owner : Username
  createdTime : TimeText
  modifiedTime : TimeText
  accessedTime : TimeText
  fileSize : Int
  wordCount : Int
  charCount : Int
  accessList : DataText
  deriving DecidableEq, Repr

/-- The directory a server is started with, without links, `.` or `..` in its
own path.  `pathRoom` is what its name leaves of a buffer of `MAX_PATH` bytes;
the paths of files, backups and checkpoints fit. -/
structure StorageDir where
  location : Location
  pathRoom : Nat
  roomy : 523 ≤ pathRoom

/-- `metadataFile` holds the records in `metadata.txt`. -/
structure FileHandler where
  storage : StorageDir
  disk : FileSystem
  fileCache : Store Filename LoadedFile
  metadataList : List FileMetadata
  metadataFile : Option (List FileMetadata)
  accessCache : ProbeTable Text Nat

/-- The path of `text` below the directory of the server. -/
def StorageDir.path (storage : StorageDir) (text : Text) : PathName :=
  storage.location ++ text.splitOn '/'

/-- The state after `init_file_handler_ll`. -/
def initFileHandlerLl (storage : StorageDir) (disk : FileSystem) :
    FileHandler :=
  { storage := storage
    disk := ((disk.tryMkdir storage.location).tryMkdir
      (storage.path "files".toList)).tryMkdir (storage.path "undo".toList)
    fileCache := Store.empty
    metadataList := []
    metadataFile := none
    accessCache := fun _ => ⟨[], 0, false⟩ }

/-- A server started in a new directory of an empty disk. -/
def freshServer : FileHandler :=
  initFileHandlerLl ⟨["ss".toList], 1019, by decide⟩
    { files := Store.empty
      folders := []
      folderEnd := fun _ => longMax
      folderSize := fun _ => 4096 }

def getFilePath (storage : StorageDir) (filename : Filename) : PathName :=
  storage.path ("files/".toList ++ filename.chars)

def getUndoPath (storage : StorageDir) (filename : Filename) : PathName :=
  storage.path ("undo/".toList ++ filename.chars ++ ".undo".toList)

/-- `metadata_file`. -/
def metadataPath (storage : StorageDir) : PathName :=
  storage.path "metadata.txt".toList

/-- What the loader of documents reads at the path of a file. -/
def FileHandler.diskText (s : FileHandler) (filename : Filename) :
    Option Text :=
  s.disk.load (getFilePath s.storage filename)

def findMetadata (s : FileHandler) (filename : Filename) :
    Option FileMetadata :=
  s.metadataList.find? fun record => record.filename = filename

/-- Write through the pointer that `find_metadata` returned. -/
def updateMetadata (s : FileHandler) (filename : Filename)
    (change : FileMetadata → FileMetadata) : FileHandler :=
  { s with
    metadataList := s.metadataList.modify
      (s.metadataList.findIdx fun record => record.filename = filename)
      change }

def saveMetadataLl (s : FileHandler) : FileHandler :=
  { s with metadataFile := some s.metadataList }

/-- The C string in the buffer is parsed, up to the first NUL byte. -/
def loadDocument (content : Text) : Document :=
  let sentences := parseFileToLinkedList (CText.terminated content)
  { sentences := sentences, sentenceCount := sentences.length }

def loadFileIntoMemory (s : FileHandler) (filename : Filename) :
    Option LoadedFile :=
  (s.diskText filename).map fun content =>
    { toDocument := loadDocument content
      refcount := 0
      markedForDeletion := false }

def FileHandler.cache (s : FileHandler) (filename : Filename)
    (file : LoadedFile) : FileHandler :=
  { s with fileCache := s.fileCache.set filename file }

def FileHandler.uncache (s : FileHandler) (filename : Filename) :
    FileHandler :=
  { s with fileCache := s.fileCache.erase filename }

/-- The cached copy, loaded if need be, with one more reference. -/
def getFileFromCache (s : FileHandler) (filename : Filename) :
    Option (FileHandler × LoadedFile) :=
  let found :=
    match s.fileCache.get filename with
    | some file => some file
    | none => loadFileIntoMemory s filename
  found.map fun file =>
    let file := { file with refcount := file.refcount + 1 }
    (s.cache filename file, file)

/-- Give a reference back; the last one frees a file marked for deletion. -/
def fileRelease (s : FileHandler) (filename : Filename) : FileHandler :=
  match s.fileCache.get filename with
  | none => s
  | some file =>
      let file := { file with refcount := file.refcount - 1 }
      if file.refcount = 0 ∧ file.markedForDeletion = true then
        s.uncache filename
      else s.cache filename file

def reloadFileFromDisk (s : FileHandler) (filename : Filename) :
    FileHandler × Int :=
  let s := s.uncache filename
  match loadFileIntoMemory s filename with
  | some file => (s.cache filename file, 0)
  | none => (s, -1)

end Dfs.StorageServer
