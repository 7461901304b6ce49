import Mathlib.Algebra.Ring.Nat
import Mathlib.Algebra.Ring.Int.Defs
import Dfs.StorageServer.Requests

/-!
# Requests that read, with every message of their answers

INFO, EXEC, VIEWCHECKPOINT and LISTCHECKPOINTS of the name server leave the
storage server as it is.  READ and STREAM of a client update the time of the
last access; here they have the messages they send, while the effect on the
server is that of `handleTransferRequest`.  All sends succeed.
-/

namespace Dfs.StorageServer

/-- A message with the field in which sizes are transferred. -/
structure DataMessage extends Response where
  sentenceIndex : Int
  deriving DecidableEq, Repr

/-- A message whose `sentence_index` was left at zero. -/
def Response.message (response : Response) : DataMessage :=
  { response with sentenceIndex := 0 }

def getFileMetadataLl (s : FileHandler) (filename : Filename) :
    Option FileMetadata × Int :=
  match findMetadata s filename with
  | none => (none, errFileNotFound)
  | some metadata => (some metadata, 0)

/-- `snprintf` into `response.data`. -/
def infoText (metadata : FileMetadata) : Text :=
  ("File: ".toList ++ metadata.filename.chars ++
    "\nOwner: ".toList ++ metadata.owner.chars ++
    "\nCreated: ".toList ++ metadata.createdTime.chars ++
    "\nLast Modified: ".toList ++ metadata.modifiedTime.chars ++
    "\nSize: ".toList ++ intText metadata.fileSize ++
    " bytes\nWords: ".toList ++ intText metadata.wordCount ++
    "\nCharacters: ".toList ++ intText metadata.charCount ++
    "\nAccess: ".toList ++ metadata.accessList.chars ++
    "\nLast Accessed: ".toList ++ metadata.accessedTime.chars).take
      (maxDataSize - 1)

/-- The record of a missing file is left uninitialised: its bytes are
`leftover`. -/
def nmInfo (leftover : FileMetadata) (s : FileHandler)
    (filename : Filename) : Response :=
  let (metadata, result) := getFileMetadataLl s filename
  if result < 0 then nmResponse opInfo errFileNotFound []
  else ⟨msgResponse, opInfo, errSuccess, infoText (metadata.getD leftover)⟩

/-- The room for file data in one message. -/
def chunkSize : Nat := maxDataSize - 100

/-- Consecutive blocks of at most `size` bytes, from at most `fuel` of them. -/
def blocks (size : Nat) : Nat → Text → List Text
  | 0, _ => []
  | fuel + 1, content =>
      if content = [] then []
      else content.take size :: blocks size fuel (content.drop size)

/-- The messages that carry a file, one for each block that `fread` returns. -/
def chunkMessages (operation : Int) (content : Text) : List DataMessage :=
  (blocks chunkSize content.length content).map fun block =>
    ⟨⟨msgResponse, operation, errSuccess, block⟩, block.length⟩

def stopMessage (data : Text) : DataMessage :=
  ⟨⟨msgResponse, opStop, errSuccess, data⟩, 0⟩

/-- A `long` stored in an `int` field. -/
def intField (value : Nat) : Int := (value : Int).bmod (2 ^ 32)

theorem intField_of_lt {value : Nat} (small : value < 2 ^ 31) :
    intField value = value := by
  unfold intField
  rw [Int.bmod_eq_of_le] <;> omega

def nmExec (s : FileHandler) (filename : Filename) : List DataMessage :=
  match s.disk.openRead (getFilePath s.storage filename) with
  | none => [(nmResponse opExec errFileNotFound []).message]
  | some file =>
      ⟨⟨msgResponse, opExec, errSuccess, []⟩, intField file.size⟩ ::
        chunkMessages opExecChunk file.bytes ++ [stopMessage []]

def nmViewcheckpoint (s : FileHandler) (filename tag : Filename) : Response :=
  match s.disk.read (checkpointPath s.storage filename tag) with
  | none =>
      nmResponse opViewcheckpoint errFileNotFound "Checkpoint not found".toList
  | some content =>
      nmResponse opViewcheckpoint errSuccess (content.take (maxDataSize - 1))

/-- What `readdir` returns for the directory of the checkpoints, if it can be
opened. -/
def checkpointNames (s : FileHandler) : Option (List Text) :=
  (s.disk.locate (checkpointDir s.storage)).bind fun place =>
    if s.disk.IsFolder place then
      some (".".toList :: "..".toList :: s.disk.entries place)
    else none

/-- What follows `filename.` in the names of the checkpoint files. -/
def matchingTags (filename : Filename) (names : List Text) : List Text :=
  names.filterMap fun name =>
    if (filename.chars ++ ['.']).isPrefixOf name then
      some (name.drop (filename.chars.length + 1))
    else none

/-- The loop of LISTCHECKPOINTS: `offset` counts the bytes that did not fit as
well, and ends the loop when the message is nearly full. -/
def printTags : Text → Nat → List Text → Text
  | data, _, [] => data
  | data, offset, tag :: tags =>
      if offset < maxDataSize - 100 then
        let line := tag ++ ['\n']
        printTags (data ++ line.take (maxDataSize - offset - 2))
          (offset + line.length) tags
      else data

def nmListcheckpoints (s : FileHandler) (filename : Filename) : Response :=
  match checkpointNames s with
  | none =>
      nmResponse opListcheckpoints errSuccess "No checkpoints found".toList
  | some names =>
      if matchingTags filename names = [] then
        nmResponse opListcheckpoints errSuccess
          "No checkpoints found for this file".toList
      else
        nmResponse opListcheckpoints errSuccess
          (printTags [] 0 (matchingTags filename names))

/-- A request of the name server with one answer. -/
inductive NmRequest where
  | createFile (filename : Filename) (username : Username)
  | deleteFile (filename : Filename) (username : Username)
  | info (filename : Filename) (username : Username)
  | addaccess (filename : Filename) (username : Username) (data : DataText)
      (accessType : Int)
  | remaccess (filename : Filename) (username : Username) (data : DataText)
  | createfolder (filename : Filename) (username : Username)
  | move (filename : Filename) (targetPath : PathText) (username : Username)
  | checkpoint (filename tag : Filename) (username : Username)
  | viewcheckpoint (filename tag : Filename) (username : Username)
  | revert (filename tag : Filename) (username : Username)
  | listcheckpoints (filename : Filename) (username : Username)
  deriving DecidableEq, Repr

/-- What a handler finds besides the request and the server. -/
structure NmContext where
  now : TimeText
  leftover : FileMetadata
  deriving DecidableEq, Repr

def handleNmConnection (context : NmContext) (s : FileHandler) :
    NmRequest → FileHandler × Response
  | .createFile filename username =>
      nmCreateFile s filename username context.now
  | .deleteFile filename _ => nmDeleteFile s filename
  | .info filename _ => (s, nmInfo context.leftover s filename)
  | .addaccess filename _ data accessType =>
      nmAddaccess s filename data accessType
  | .remaccess filename _ data => nmRemaccess s filename data
  | .createfolder filename username =>
      nmCreatefolder s filename username context.now
  | .move filename targetPath _ => nmMove s filename targetPath
  | .checkpoint filename tag _ => nmCheckpoint s filename tag
  | .viewcheckpoint filename tag _ => (s, nmViewcheckpoint s filename tag)
  | .revert filename tag _ => nmRevert s filename tag context.now
  | .listcheckpoints filename _ => (s, nmListcheckpoints s filename)

def accessDenied (operation : Int) : DataMessage :=
  (⟨msgError, operation, errNoReadAccess, []⟩ : Response).message

/-- A small file goes out with the first answer, a large one in chunks. -/
def readMessages (file : OpenFile) : List DataMessage :=
  if file.size ≤ chunkSize then
    [⟨⟨msgResponse, opRead, errSuccess, file.bytes⟩, intField file.size⟩]
  else
    ⟨⟨msgResponse, opRead, errSuccess,
        "FILE_SIZE:".toList ++ intText file.size⟩, intField file.size⟩ ::
      chunkMessages opReadChunk file.bytes ++
        [stopMessage "READ_COMPLETE".toList]

def handleReadRequest (s : FileHandler) (filename : Filename)
    (username : Username) (now : TimeText) :
    FileHandler × List DataMessage :=
  let (allowed, s) := hasReadAccessLl s filename username
  if allowed = false then (s, [accessDenied opRead])
  else
    match s.disk.openRead (getFilePath s.storage filename) with
    | none =>
        (s, [(⟨msgError, opRead, errFileNotFound, []⟩ : Response).message])
    | some file =>
        ((updateFileAccessedTimeLl s filename username now).1,
          readMessages file)

/-- The bytes that end a word of a stream. -/
def streamBreak (byte : Char) : Bool :=
  byte == ' ' || byte == '\t' || byte == '\n' || byte == '\r'

/-- The words of a stream; `buffer` holds the current one and drops what does
not fit. -/
def streamWords : Text → Text → List Text
  | buffer, [] => if buffer = [] then [] else [buffer]
  | buffer, byte :: content =>
      if streamBreak byte then
        if buffer = [] then streamWords [] content
        else buffer :: streamWords [] content
      else if buffer.length < maxDataSize - 1 then
        streamWords (buffer ++ [byte]) content
      else streamWords buffer content

def streamMessages (content : Text) : List DataMessage :=
  ((streamWords [] content).map fun word =>
      (⟨msgResponse, opStreamWord, errSuccess,
        CText.terminated word⟩ : Response).message) ++
    [stopMessage "STOP".toList]

def handleStreamRequest (s : FileHandler) (filename : Filename)
    (username : Username) (now : TimeText) :
    FileHandler × List DataMessage :=
  let (allowed, s) := hasReadAccessLl s filename username
  if allowed = false then (s, [accessDenied 0])
  else
    match s.disk.openRead (getFilePath s.storage filename) with
    | none => (s, [(⟨msgError, 0, errFileNotFound, []⟩ : Response).message])
    | some file =>
        ((updateFileAccessedTimeLl s filename username now).1,
          streamMessages file.bytes)

/-- A request to the client port, without its user.  The messages of a WRITE
end with the connection. -/
inductive ClientRequest where
  | read (filename : Filename)
  | write (filename : Filename) (sentenceIndex : Int)
      (messages : List WriteMessage)
  | stream (filename : Filename)
  | undo (filename : Filename)
  | unknown
  deriving DecidableEq, Repr

def handleClientConnection (s : FileHandler) (username : Username)
    (now : TimeText) : ClientRequest → FileHandler × List DataMessage
  | .read filename => handleReadRequest s filename username now
  | .write filename sentenceIndex messages =>
      let (s, responses) :=
        handleWriteRequest s filename username sentenceIndex messages now
      (s, responses.map Response.message)
  | .stream filename => handleStreamRequest s filename username now
  | .undo filename =>
      let (s, response) := handleUndoRequest s filename
      (s, [response.message])
  | .unknown =>
      (s, [(⟨msgError, 0, errInvalidOperation, []⟩ : Response).message])

section

variable {s : FileHandler} {filename : Filename} {username : Username}
  {now : TimeText}

theorem handleReadRequest_server :
    (handleReadRequest s filename username now).1 =
      (handleTransferRequest s filename username now).1 := by
  unfold handleReadRequest handleTransferRequest
  generalize hasReadAccessLl s filename username = decision
  obtain ⟨allowed, t⟩ := decision
  cases allowed with
  | false => rfl
  | true =>
      cases found : t.disk.openRead (getFilePath t.storage filename) <;>
        simp [found]

theorem handleStreamRequest_server :
    (handleStreamRequest s filename username now).1 =
      (handleTransferRequest s filename username now).1 := by
  unfold handleStreamRequest handleTransferRequest
  generalize hasReadAccessLl s filename username = decision
  obtain ⟨allowed, t⟩ := decision
  cases allowed with
  | false => rfl
  | true =>
      cases found : t.disk.openRead (getFilePath t.storage filename) <;>
        simp [found]

end

end Dfs.StorageServer
