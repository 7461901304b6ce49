import Dfs.StorageServer.State

/-!
# Operations on stored files

Creation and deletion, sentence locks, the undo backup and its restoration,
synchronisation to disk and the statistics kept in the metadata.  Several of
these operations take a reference to the cached document; not all of them give
it back, and the reference counts below follow each one.
-/

namespace Dfs.StorageServer

def newMetadata (filename : Filename) (owner : Username) (now : TimeText) :
    FileMetadata :=
  { filename := filename
    owner := owner
    createdTime := now
    modifiedTime := now
    accessedTime := now
    fileSize := 0
    wordCount := 0
    charCount := 0
    accessList := CString.copy 4095 (owner.chars ++ ":RW".toList) }

def createFileLl (s : FileHandler) (filename : Filename) (owner : Username)
    (now : TimeText) : FileHandler × Int :=
  if (findMetadata s filename).isSome then (s, errFileExists)
  else if s.metadataList.length ≥ maxFiles then (s, -1)
  else
    match s.disk.write (getFilePath s.storage filename) [] with
    | none => (s, -1)
    | some disk =>
        let s :=
          { s with
            disk := disk
            metadataList := s.metadataList ++ [newMetadata filename owner now] }
        (saveMetadataLl s, 0)

/-- Mark the cached document; without references it goes at once. -/
def markForDeletion (s : FileHandler) (filename : Filename) : FileHandler :=
  match s.fileCache.get filename with
  | none => s
  | some file =>
      if file.refcount = 0 then s.uncache filename
      else s.cache filename { file with markedForDeletion := true }

def deleteFileLl (s : FileHandler) (filename : Filename) :
    FileHandler × Int :=
  match findMetadata s filename with
  | none => (s, errFileNotFound)
  | some _ =>
      let s := markForDeletion s filename
      match s.disk.unlink (getFilePath s.storage filename) with
      | none => (s, -1)
      | some disk =>
          let s :=
            { s with
              disk := disk.tryUnlink (getUndoPath s.storage filename)
              metadataList := s.metadataList.eraseIdx
                (s.metadataList.findIdx
                  fun record => record.filename = filename) }
          (saveMetadataLl s, 0)

/-- Used for folders, which have metadata but no file. -/
def addMetadataLl (s : FileHandler) (metadata : FileMetadata) :
    FileHandler × Int :=
  if (findMetadata s metadata.filename).isSome then (s, errFileExists)
  else if s.metadataList.length ≥ maxFiles then (s, -1)
  else
    (saveMetadataLl
      { s with metadataList := s.metadataList ++ [metadata] }, 0)

/-- All exits give the reference back. -/
def lockSentenceLl (s : FileHandler) (filename : Filename)
    (sentenceIndex : Int) (username : Username) : FileHandler × Int :=
  match getFileFromCache s filename with
  | none => (s, errFileNotFound)
  | some (s, file) =>
      let (document, result) :=
        file.lockSentence sentenceIndex username
      (fileRelease (s.cache filename { file with toDocument := document })
        filename, result)

/-- No exit gives the reference back. -/
def unlockSentenceLl (s : FileHandler) (filename : Filename)
    (sentenceIndex : Int) (username : Username) : FileHandler × Int :=
  match getFileFromCache s filename with
  | none => (s, errFileNotFound)
  | some (s, file) =>
      let (document, result) :=
        file.unlockSentence sentenceIndex username
      (s.cache filename { file with toDocument := document }, result)

/-- The folders on the way to the backup are made first.  The reference is
kept on every path. -/
def saveUndoBackupLl (s : FileHandler) (filename : Filename) :
    FileHandler × Int :=
  match getFileFromCache s filename with
  | none => (s, -1)
  | some (s, file) =>
      let undoPath := getUndoPath s.storage filename
      let disk := s.disk.makeParents undoPath
      match disk.write undoPath (undoBackupText file.sentences) with
      | none => ({ s with disk := disk }, -1)
      | some disk => ({ s with disk := disk }, 0)

def undoFileChangeLl (s : FileHandler) (filename : Filename) :
    FileHandler × Int :=
  match s.disk.copy (getUndoPath s.storage filename)
      (getFilePath s.storage filename) with
  | none => (s, -1)
  | some disk => ((reloadFileFromDisk { s with disk := disk } filename).1, 0)

def swapPath (storage : StorageDir) (filename : Filename) : PathName :=
  storage.path ("files/".toList ++ filename.chars ++ ".tmp".toList)

/-- Write the swap file and rename it over the original.  The reference is
kept. -/
def syncFileToDisk (s : FileHandler) (filename : Filename) :
    FileHandler × Int :=
  match getFileFromCache s filename with
  | none => (s, errFileNotFound)
  | some (s, file) =>
      let swap := swapPath s.storage filename
      match s.disk.write swap (writeLinkedListToFile file.sentences) with
      | none => (s, -1)
      | some disk =>
          match disk.rename swap (getFilePath s.storage filename) with
          | .ok disk => ({ s with disk := disk }, 0)
          | .error _ => ({ s with disk := disk.tryUnlink swap }, -1)

/-- Runs of bytes that are not breaks; `inWord` is the counter's flag. -/
def countWords (isBreak : Char → Bool) : Bool → Text → Nat
  | inWord, [] => if inWord then 1 else 0
  | inWord, byte :: rest =>
      if isBreak byte then
        (if inWord then 1 else 0) + countWords isBreak false rest
      else countWords isBreak true rest

/-- The counter of `update_file_statistics_ll`, used after UNDO. -/
def statisticsBreak (byte : Char) : Bool :=
  CText.isSpace byte || isDelimiter byte

/-- The counter of `update_file_write_stats_ll`, used after a commit. -/
def writeStatsBreak (byte : Char) : Bool :=
  byte == ' ' || byte == '\n' || byte == '\t'

def updateFileStatisticsLl (s : FileHandler) (filename : Filename) :
    FileHandler × Int :=
  match findMetadata s filename,
      s.disk.openRead (getFilePath s.storage filename) with
  | none, _ => (s, errFileNotFound)
  | some _, none => (s, errFileNotFound)
  | some _, some file =>
      (saveMetadataLl (updateMetadata s filename fun record =>
        { record with
          fileSize := file.size
          wordCount := countWords statisticsBreak false file.bytes
          charCount := file.bytes.length }), 0)

/-- A path that `stat` finds can be opened too. -/
def updateFileWriteStatsLl (s : FileHandler) (filename : Filename)
    (now : TimeText) : FileHandler × Int :=
  let path := getFilePath s.storage filename
  match findMetadata s filename, s.disk.statSize path with
  | none, _ => (s, errFileNotFound)
  | some _, none => (s, -1)
  | some _, some size =>
      let bytes := (s.disk.read path).getD []
      (saveMetadataLl (updateMetadata s filename fun record =>
        { record with
          modifiedTime := now
          fileSize := size
          wordCount := countWords writeStatsBreak false bytes
          charCount := bytes.length }), 0)

def updateFileModifiedTimeLl (s : FileHandler) (filename : Filename)
    (now : TimeText) : FileHandler × Int :=
  match findMetadata s filename with
  | none => (s, errFileNotFound)
  | some _ =>
      (saveMetadataLl (updateMetadata s filename fun record =>
        { record with modifiedTime := now }), 0)

def updateFileAccessedTimeLl (s : FileHandler) (filename : Filename)
    (username : Username) (now : TimeText) : FileHandler × Int :=
  match findMetadata s filename with
  | none => (s, errFileNotFound)
  | some _ =>
      (saveMetadataLl (updateMetadata s filename fun record =>
        { record with
          accessedTime := CString.copy 63
            (now.chars ++ " by ".toList ++ username.chars) }), 0)

end Dfs.StorageServer
