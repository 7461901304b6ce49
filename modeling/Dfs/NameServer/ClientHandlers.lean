import Dfs.NameServer.FileIndex
import Dfs.NameServer.SearchCache
import Dfs.StorageServer.Queries

/-!
# Client requests at the name server

The handlers of `name_server/client_handler.c` for files, access, folders,
checkpoints and execution, each with its effect on both servers and its
answer.  A handler talks to one storage server over a connection that can fail
at every stage; `sent` records the requests that were sent.  A
storage server index of -1 is read as a server that cannot be reached.
-/

namespace Dfs.NameServer

open Dfs.StorageServer

def maxAccessRequests : Nat := 1000

inductive RequestStatus where
  | pending
  | approved
  | rejected
  deriving DecidableEq, Repr

structure AccessRequest where
  requestId : Filename
  filename : Filename
  requester : Username
  owner : Username
  accessType : Int
  requestTime : Int
  status : RequestStatus
  deriving DecidableEq, Repr

/-- The name server with everything its request handlers keep. -/
structure NmState extends NameServerState where
  searchCache : SearchCache
  accessRequests : List AccessRequest
  nextSsIndex : Nat

/-- `stores` holds the storage server behind each registered position. -/
structure System where
  nm : NmState
  stores : Nat → FileHandler
  sent : List NmRequest

/-- The directories and disks on which the storage servers are started. -/
structure Hosts where
  storage : Nat → StorageDir
  disk : Nat → FileSystem

/-- Nothing is registered, and no storage server has a record. -/
def initSystem (hosts : Hosts) : System :=
  { nm := { initNameServer with
      searchCache := initFileCache
      accessRequests := []
      nextSsIndex := 0 }
    stores := fun server =>
      initFileHandlerLl (hosts.storage server) (hosts.disk server)
    sent := [] }

/-- Every storage server is started as `freshServer` is. -/
def freshHosts : Hosts :=
  { storage := fun _ => freshServer.storage
    disk := fun _ => freshServer.disk }

def System.register (sys : System) (now : Int) (msg : RegisterMessage) :
    System :=
  let files := (registerStorageServer now sys.nm.toNameServerState msg).1
  { sys with nm := { sys.nm with toNameServerState := files } }

/-- How a connection ends: it is refused, the request cannot be sent, the
answer is lost with these bytes in its buffer, or all goes well. -/
inductive Link where
  | refused
  | broken
  | lost (buffer : Response)
  | reliable
  deriving DecidableEq, Repr

/-- The request arrives at the storage server. -/
def Link.Delivers : Link → Prop
  | .refused => False
  | .broken => False
  | .lost _ => True
  | .reliable => True

inductive Reply where
  | unconnected
  | unsent
  | unanswered (buffer : Response)
  | answered (response : Response)
  deriving DecidableEq, Repr

/-- The storage server has handled the request, and the name server knows that
it was sent. -/
def System.deliver (sys : System) (context : NmContext) (server : Nat)
    (request : NmRequest) : System :=
  { sys with
    stores := Function.update sys.stores server
      (handleNmConnection context (sys.stores server) request).1
    sent := sys.sent ++ [request] }

def System.exchange (sys : System) (context : NmContext) (server : Nat)
    (request : NmRequest) : Link → System × Reply
  | .refused => (sys, .unconnected)
  | .broken => (sys, .unsent)
  | .lost buffer => (sys.deliver context server request, .unanswered buffer)
  | .reliable =>
      (sys.deliver context server request,
        .answered (handleNmConnection context (sys.stores server) request).2)

/-- The cell a pointer denotes. -/
def readFile (nm : NameServerState) (file : FilePtr) : FileInfo :=
  match nm.storageServers[file.server]? with
  | some ss => ss.files file.slot
  | none => zeroedFile

/-- The record that `find_file` leads to. -/
def findRecord (nm : NameServerState) (filename : Filename) :
    Option FileInfo :=
  (findFile nm filename).map (readFile nm)

def System.addFile (sys : System) (now ssId : Int) (filename : Filename)
    (owner : Username) : System × Int :=
  let (files, result) :=
    addFileToServer now sys.nm.toNameServerState ssId filename owner
  ({ sys with nm := { sys.nm with toNameServerState := files } }, result)

def System.removeFile (sys : System) (ssId : Int) (filename : Filename) :
    System :=
  let files := (removeFileFromServer sys.nm.toNameServerState ssId filename).1
  { sys with nm := { sys.nm with toNameServerState := files } }

def isOnline (nm : NameServerState) (server : Nat) : Bool :=
  match nm.storageServers[server]? with
  | some ss => ss.status = .online
  | none => false

/-- Round robin over the registered servers, from the one after the last
choice. -/
def getAvailableStorageServer (nm : NmState) : NmState × Int :=
  let count := nm.storageServers.length
  match (List.range count).find? fun step =>
      isOnline nm.toNameServerState ((nm.nextSsIndex + step) % count) with
  | none => (nm, -1)
  | some step =>
      let current := (nm.nextSsIndex + step) % count
      match nm.storageServers[current]? with
      | none => (nm, -1)
      | some ss => ({ nm with nextSsIndex := (current + 1) % count }, ss.ssId)

/-- `find_storage_server` and the test of the status. -/
def onlineServer (nm : NameServerState) (ssId : Int) : Option Nat :=
  match findStorageServer nm ssId with
  | none => none
  | some server => if isOnline nm server then some server else none

def errorResponse (operation errorCode : Int) (data : Text) : Response :=
  ⟨msgError, operation, errorCode, data⟩

/-- An answer with the address of a storage server. -/
structure LocationResponse extends Response where
  ssId : Int
  ip : IpText
  port1 : Int
  deriving DecidableEq, Repr

def locationError (errorCode : Int) (data : Text) : LocationResponse :=
  { msgType := msgResponse
    operation := opGetSsInfo
    errorCode := errorCode
    data := data
    ssId := 0
    ip := CString.copy 15 []
    port1 := 0 }

def located (ssId : Int) (ss : StorageServerInfo) (data : Text) :
    LocationResponse :=
  { msgType := msgResponse
    operation := opGetSsInfo
    errorCode := errSuccess
    data := data
    ssId := ssId
    ip := ss.ip
    port1 := ss.clientPort }

/-- The answer to a hit in the cache, if its server is online. -/
def cachedLocation (nm : NameServerState) (ssId : Int) :
    Option LocationResponse :=
  ((onlineServer nm ssId).bind fun server => nm.storageServers[server]?).map
    fun ss => located ssId ss []

/-- The answer for a file that was found. -/
def fileLocation (nm : NameServerState) (ssId : Int) : LocationResponse :=
  match (findStorageServer nm ssId).bind fun server =>
      nm.storageServers[server]? with
  | none => locationError errServerError "Storage server not found".toList
  | some ss =>
      if ss.status = .online then
        located ssId ss ("File located on SS".toList ++ intText ssId ++
          " at ".toList ++ ss.ip.chars ++ ":".toList ++ intText ss.clientPort)
      else
        locationError errServerError "Storage server is offline".toList

def System.cacheFile (sys : System) (now : Int) (filename : Filename)
    (ssId : Int) : System :=
  { sys with
    nm := { sys.nm with
      searchCache := cacheInsert now sys.nm.searchCache filename ssId } }

/-- The look-up behind the cache, which fills the cache. -/
def lookupLocation (sys : System) (now : Int) (filename : Filename) :
    System × LocationResponse :=
  match findRecord sys.nm.toNameServerState filename with
  | none => (sys, locationError errFileNotFound "File not found".toList)
  | some file =>
      (sys.cacheFile now filename file.ssId,
        fileLocation sys.nm.toNameServerState file.ssId)

def handleGetSsInfo (sys : System) (now : Int) (filename : Filename) :
    System × LocationResponse :=
  let (cache, hit) := cacheLookup now sys.nm.searchCache filename
  let sys := { sys with nm := { sys.nm with searchCache := cache } }
  match hit.bind (cachedLocation sys.nm.toNameServerState) with
  | some response => (sys, response)
  | none => lookupLocation sys now filename

/-- Every failure after the registration of the file removes it again. -/
def handleCreateFile (sys : System) (context : NmContext) (now : Int)
    (link : Link) (filename : Filename) (username : Username) :
    System × Response :=
  let answer := fun errorCode data => (⟨msgAck, opCreate, errorCode, data⟩ :
    Response)
  if (findFile sys.nm.toNameServerState filename).isSome then
    (sys, answer errFileExists "File already exists".toList)
  else
    let (nm, ssId) := getAvailableStorageServer sys.nm
    let sys := { sys with nm := nm }
    if ssId < 0 then
      (sys, answer errServerError "No available storage servers".toList)
    else
      let (sys, result) := sys.addFile now ssId filename username
      if result ≠ errSuccess then
        (sys, answer result
          "Failed to register file with storage server".toList)
      else
        let refused := (sys.removeFile ssId filename,
          answer errConnectionFailed
            "Failed to connect to storage server".toList)
        match findStorageServer sys.nm.toNameServerState ssId with
        | none => refused
        | some server =>
            match sys.exchange context server
                (.createFile filename username) link with
            | (_, .unconnected) => refused
            | (sys, .unsent) =>
                (sys.removeFile ssId filename, answer errConnectionFailed
                  "Failed to send command to storage server".toList)
            | (sys, .unanswered _) =>
                (sys.removeFile ssId filename, answer errConnectionFailed
                  "Failed to receive response from storage server".toList)
            | (sys, .answered response) =>
                (if response.errorCode = errSuccess then sys
                  else sys.removeFile ssId filename,
                  answer response.errorCode response.data)

def System.invalidate (sys : System) (filename : Filename) : System :=
  { sys with
    nm := { sys.nm with
      searchCache := cacheInvalidate sys.nm.searchCache filename } }

def handleDeleteFile (sys : System) (context : NmContext) (link : Link)
    (filename : Filename) (username : Username) : System × Response :=
  match findRecord sys.nm.toNameServerState filename with
  | none =>
      (sys, errorResponse opDelete errFileNotFound "File not found".toList)
  | some file =>
      if file.owner ≠ username then
        (sys, errorResponse opDelete errNotOwner
          "Only file owner can delete the file".toList)
      else
        let refused := (sys, errorResponse opDelete errConnectionFailed
          "Failed to connect to storage server".toList)
        match findStorageServer sys.nm.toNameServerState file.ssId with
        | none => refused
        | some server =>
            match sys.exchange context server
                (.deleteFile filename username) link with
            | (_, .unconnected) => refused
            | (sys, .unsent) =>
                (sys, errorResponse opDelete errConnectionFailed
                  "Failed to send command to storage server".toList)
            | (sys, .unanswered _) =>
                (sys, errorResponse opDelete errConnectionFailed
                  "Failed to receive response from storage server".toList)
            | (sys, .answered response) =>
                (if response.errorCode = errSuccess then
                    (sys.removeFile file.ssId filename).invalidate filename
                  else sys,
                  ⟨msgAck, opDelete, response.errorCode, response.data⟩)

/-- The result of `receive_message` is ignored, so that a lost answer is
whatever the buffer holds. -/
def handleAddaccess (sys : System) (context : NmContext) (link : Link)
    (filename : Filename) (username : Username) (data : DataText)
    (accessType : Int) : System × Response :=
  let forward := fun (sys : System) (response : Response) =>
    (sys, (⟨if response.errorCode ≠ errSuccess then msgError else msgAck,
      opAddaccess, response.errorCode, response.data⟩ : Response))
  match findRecord sys.nm.toNameServerState filename with
  | none =>
      (sys, errorResponse opAddaccess errFileNotFound "File not found".toList)
  | some file =>
      if file.owner ≠ username then
        (sys, errorResponse opAddaccess errNotOwner
          "Only file owner can modify access permissions".toList)
      else
        let refused := (sys, errorResponse opAddaccess errConnectionFailed
          "Failed to connect to storage server".toList)
        match findStorageServer sys.nm.toNameServerState file.ssId with
        | none => refused
        | some server =>
            match sys.exchange context server
                (.addaccess filename username data accessType) link with
            | (_, .unconnected) => refused
            | (sys, .unsent) =>
                (sys, errorResponse opAddaccess errConnectionFailed
                  "Failed to send to storage server".toList)
            | (sys, .unanswered buffer) => forward sys buffer
            | (sys, .answered response) => forward sys response

/-- `snprintf` of the id of an access request. -/
def accessRequestId (filename : Filename) (username : Username) (now : Int) :
    Filename :=
  CString.copy 255 (filename.chars.take 99 ++ ':' :: username.chars.take 49 ++
    ':' :: intText now)

def handleRequestaccess (sys : System) (now : Int) (filename : Filename)
    (username : Username) (accessType : Int) : System × Response :=
  match findRecord sys.nm.toNameServerState filename with
  | none =>
      (sys, errorResponse opRequestaccess errFileNotFound
        "File not found".toList)
  | some file =>
      if file.owner = username then
        (sys, errorResponse opRequestaccess errInvalidOperation
          "You already own this file".toList)
      else if sys.nm.accessRequests.length ≥ maxAccessRequests then
        (sys, errorResponse opRequestaccess errServerError
          "Too many pending requests".toList)
      else if sys.nm.accessRequests.any fun request =>
          request.filename = filename && request.requester = username &&
            request.status = .pending then
        (sys, errorResponse opRequestaccess errInvalidOperation
          "You already have a pending request for this file".toList)
      else
        let request : AccessRequest :=
          { requestId := accessRequestId filename username now
            filename := filename
            requester := username
            owner := file.owner
            accessType := accessType
            requestTime := now
            status := .pending }
        ({ sys with
           nm := { sys.nm with
             accessRequests := sys.nm.accessRequests ++ [request] } },
          ⟨msgResponse, opRequestaccess, errSuccess,
            "Access request sent to owner '".toList ++ file.owner.chars ++
              "'. Request ID: ".toList ++ request.requestId.chars⟩)

/-- The common part of the two answers to a request: its first entry with this
id, if the user is the owner noted there and the entry is pending. -/
def findPending (sys : System) (operation : Int) (requestId : Filename)
    (username : Username) : Except Response AccessRequest :=
  match sys.nm.accessRequests.find? fun request =>
      request.requestId = requestId with
  | none =>
      .error (errorResponse operation errFileNotFound
        "Request not found".toList)
  | some request =>
      if request.owner ≠ username then
        .error (errorResponse operation errNotOwner
          "You are not the owner of this file".toList)
      else if request.status ≠ .pending then
        .error (errorResponse operation errInvalidOperation
          "Request already processed".toList)
      else .ok request

def System.setStatus (sys : System) (requestId : Filename)
    (status : RequestStatus) : System :=
  { sys with
    nm := { sys.nm with
      accessRequests := sys.nm.accessRequests.modify
        (sys.nm.accessRequests.findIdx fun request =>
          request.requestId = requestId)
        fun request => { request with status := status } } }

/-- The owner of the file is not looked up again. -/
def handleApproverequest (sys : System) (context : NmContext) (link : Link)
    (requestId : Filename) (username : Username) : System × Response :=
  match findPending sys opApproverequest requestId username with
  | .error response => (sys, response)
  | .ok request =>
      let sys := sys.setStatus requestId .approved
      let granted :=
        match findRecord sys.nm.toNameServerState request.filename with
        | none => sys
        | some file =>
            match findStorageServer sys.nm.toNameServerState file.ssId with
            | none => sys
            | some server =>
                (sys.exchange context server
                  (.addaccess request.filename username
                    (CString.copy 4095 request.requester.chars)
                    request.accessType) link).1
      (granted, ⟨msgResponse, opApproverequest, errSuccess,
        "Request approved. Access granted to '".toList ++
          request.requester.chars ++ "' for file '".toList ++
          request.filename.chars ++ "'".toList⟩)

def handleRejectrequest (sys : System) (requestId : Filename)
    (username : Username) : System × Response :=
  match findPending sys opRejectrequest requestId username with
  | .error response => (sys, response)
  | .ok request =>
      (sys.setStatus requestId .rejected,
        ⟨msgResponse, opRejectrequest, errSuccess,
          "Request rejected. Access denied to '".toList ++
            request.requester.chars ++ "' for file '".toList ++
            request.filename.chars ++ "'".toList⟩)

/-- Find the server online and forward the request; `unanswered` and
`answered` say how the handler goes on. -/
def System.forward (sys : System) (context : NmContext) (link : Link)
    (operation ssId : Int) (request : NmRequest)
    (unanswered : Response → Response)
    (answered : System → Response → System × Response) :
    System × Response :=
  match onlineServer sys.nm.toNameServerState ssId with
  | none =>
      (sys, errorResponse operation errServerError
        "Storage server not available".toList)
  | some server =>
      match sys.exchange context server request link with
      | (sys, .unconnected) =>
          (sys, errorResponse operation errConnectionFailed
            "Failed to connect to storage server".toList)
      | (sys, .unsent) =>
          (sys, errorResponse operation errServerError
            "Failed to send request to storage server".toList)
      | (sys, .unanswered buffer) => (sys, unanswered buffer)
      | (sys, .answered response) => answered sys response

/-- An answer is taken for a failure only if its type is `MSG_ERROR`. -/
def unlessError (failed : Response → Response)
    (succeeded : System → System × Response) (sys : System)
    (response : Response) : System × Response :=
  if response.msgType = msgError then (sys, failed response)
  else succeeded sys

def success (operation : Int) (data : Text) : Response :=
  ⟨msgResponse, operation, errSuccess, data⟩

def handleCreatefolder (sys : System) (context : NmContext) (now : Int)
    (link : Link) (filename : Filename) (username : Username) :
    System × Response :=
  if (findFile sys.nm.toNameServerState filename).isSome then
    (sys, errorResponse opCreatefolder errFileExists
      "Folder already exists".toList)
  else
    let (nm, ssId) := getAvailableStorageServer sys.nm
    let sys := { sys with nm := nm }
    if ssId < 0 then
      (sys, errorResponse opCreatefolder errServerError
        "No storage server available".toList)
    else
      let failed := fun _ => errorResponse opCreatefolder errServerError
        "Storage server failed to create folder".toList
      sys.forward context link opCreatefolder ssId
        (.createfolder filename username) failed
        (unlessError failed fun sys =>
          ((sys.addFile now ssId filename username).1,
            success opCreatefolder "Folder created successfully".toList))

/-- The records after a MOVE, with an empty cache. -/
def System.moveRecord (sys : System) (filename : Filename)
    (targetPath : PathText) : System :=
  { sys with
    nm := { sys.nm with
      toNameServerState :=
        moveFile sys.nm.toNameServerState filename targetPath
      searchCache := cacheClear } }

def handleMoveFile (sys : System) (context : NmContext) (link : Link)
    (filename : Filename) (targetPath : PathText) (username : Username) :
    System × Response :=
  match findRecord sys.nm.toNameServerState filename with
  | none =>
      (sys, errorResponse opMove errFileNotFound "File not found".toList)
  | some file =>
      if file.owner ≠ username then
        (sys, errorResponse opMove errAccessDenied
          "Only file owner can move files".toList)
      else
        let failed := fun (response : Response) =>
          errorResponse opMove response.errorCode response.data
        sys.forward context link opMove file.ssId
          (.move filename targetPath username) failed
          (unlessError failed fun sys =>
            (sys.moveRecord filename targetPath,
              success opMove "File moved successfully".toList))

def handleCheckpoint (sys : System) (context : NmContext) (link : Link)
    (filename tag : Filename) (username : Username) : System × Response :=
  match findRecord sys.nm.toNameServerState filename with
  | none =>
      (sys, errorResponse opCheckpoint errFileNotFound
        "File not found".toList)
  | some file =>
      let failed := fun _ => errorResponse opCheckpoint errServerError
        "Storage server failed to create checkpoint".toList
      sys.forward context link opCheckpoint file.ssId
        (.checkpoint filename tag username) failed
        (unlessError failed fun sys =>
          (sys, success opCheckpoint
            "Checkpoint created successfully".toList))

def handleRevert (sys : System) (context : NmContext) (link : Link)
    (filename tag : Filename) (username : Username) : System × Response :=
  match findRecord sys.nm.toNameServerState filename with
  | none =>
      (sys, errorResponse opRevert errFileNotFound "File not found".toList)
  | some file =>
      if file.owner ≠ username then
        (sys, errorResponse opRevert errNoWriteAccess
          "No write access to file".toList)
      else
        let failed := fun _ => errorResponse opRevert errServerError
          "Storage server failed to revert file".toList
        sys.forward context link opRevert file.ssId
          (.revert filename tag username) failed
          (unlessError failed fun sys =>
            (sys, success opRevert "File reverted successfully".toList))

/-- Nobody's access is checked. -/
def handleViewcheckpoint (sys : System) (context : NmContext) (link : Link)
    (filename tag : Filename) (username : Username) : System × Response :=
  match findRecord sys.nm.toNameServerState filename with
  | none =>
      (sys, errorResponse opViewcheckpoint errFileNotFound
        "File not found".toList)
  | some file =>
      sys.forward context link opViewcheckpoint file.ssId
        (.viewcheckpoint filename tag username)
        (fun _ => errorResponse opViewcheckpoint errServerError
          "Failed to receive response from storage server".toList)
        (fun sys response => (sys, ⟨response.msgType, opViewcheckpoint,
          response.errorCode, CText.terminated response.data⟩))

/-- `user_has_access` searches the text of an INFO answer: the user's name may
be the beginning of the owner's or the end of a listed one. -/
def infoAdmits (info : Text) (username : Username) : Bool :=
  if (CText.strstr ("Owner: ".toList ++ username.chars) info).isSome then true
  else
    match CText.strstr "Access: ".toList info with
    | none => false
    | some position =>
        let accessLine := info.drop position
        (CText.strstr (username.chars ++ ":R".toList) accessLine).isSome ||
          (CText.strstr (username.chars ++ ":RW".toList) accessLine).isSome

def userHasAccess (sys : System) (context : NmContext) (link : Link)
    (filename : Filename) (username : Username) (ssId : Int) : Bool :=
  match findStorageServer sys.nm.toNameServerState ssId with
  | none => false
  | some server =>
      match (sys.exchange context server (.info filename username) link).2 with
      | .unconnected => false
      | .unsent => false
      | .unanswered _ => false
      | .answered response =>
          if response.errorCode ≠ errSuccess ∧
              response.errorCode ≠ errNoReadAccess ∧
              response.errorCode ≠ errNoWriteAccess then false
          else infoAdmits response.data username

/-- How the connection that carries a file ends: it is refused, the request
cannot be sent, it breaks after a number of messages, or all goes well. -/
inductive Transfer where
  | refused
  | broken
  | cut (received : Nat)
  | complete
  deriving DecidableEq, Repr

/-- The loop that collects a file, `none` if a message is missing.  The size is
compared as a `size_t`. -/
def receiveChunks (fileSize : Int) : Text → List DataMessage → Option Text
  | content, [] => if content.length < fileSize then none else some content
  | content, message :: messages =>
      if content.length < fileSize then
        if message.operation = opStop then some content
        else if message.operation = opExecChunk then
          receiveChunks fileSize
            (content ++ message.data.take message.sentenceIndex.toNat) messages
        else receiveChunks fileSize content messages
      else some content

/-- The content of a file from the messages that arrive, or the answer to the
client. -/
def receiveFile : List DataMessage → Except Response Text
  | [] =>
      .error (errorResponse opExec errServerError
        "Failed to receive file content".toList)
  | message :: messages =>
      if message.errorCode ≠ errSuccess then
        .error (errorResponse opExec message.errorCode message.data)
      -- `malloc(file_size + 1)` of a negative size
      else if message.sentenceIndex < -1 then
        .error (errorResponse opExec errServerError "Out of memory".toList)
      else
        match receiveChunks (message.sentenceIndex % 2 ^ 64) []
            messages with
        | none =>
            .error (errorResponse opExec errServerError
              "Failed to receive file chunk".toList)
        | some content => .ok content

def requestFile (s : FileHandler) (filename : Filename) :
    Transfer → Except Response Text
  | .refused =>
      .error (errorResponse opExec errConnectionFailed
        "Failed to connect to storage server".toList)
  | .broken =>
      .error (errorResponse opExec errServerError
        "Failed to request file content".toList)
  | .cut received => receiveFile ((nmExec s filename).take received)
  | .complete => receiveFile (nmExec s filename)

/-- Whether the commands can be saved and the shell started. -/
inductive ShellStart where
  | noFile
  | noPipe
  | started
  deriving DecidableEq, Repr

/-- What successive calls of `fgets` with a buffer of 256 bytes return;
`buffer` holds the current line. -/
def outputLines : Text → Text → List Text
  | buffer, [] => if buffer = [] then [] else [buffer]
  | buffer, byte :: output =>
      if byte = '\n' ∨ buffer.length = 254 then
        (buffer ++ [byte]) :: outputLines [] output
      else outputLines (buffer ++ [byte]) output

/-- A line that does not fit ends the loop. -/
def captureOutput : Text → List Text → Text
  | captured, [] => captured
  | captured, line :: lines =>
      if captured.length + (CText.terminated line).length <
          maxDataSize - 1 then
        captureOutput (captured ++ CText.terminated line) lines
      else captured

/-- The answer to what the shell printed and the status it returned. -/
def executionResponse (printed : Text) (status : Int) : Response :=
  let output := captureOutput [] (outputLines [] printed)
  if output = [] then
    if status = 0 then
      success opExec "[No output - command executed successfully]".toList
    else
      ⟨msgResponse, opExec, errServerError,
        "[Command execution failed with status ".toList ++ intText status ++
          "]".toList⟩
  else success opExec output

/-- The file in which the script is stored. -/
def tempFile (username : Username) (time : Int) : Text :=
  ("/tmp/nm_exec_".toList ++ username.chars ++ '_' :: intText time ++
    ".sh".toList).take 255

/-- The command line, in which the user's name is not quoted. -/
def execCommand (username : Username) (time : Int) : Text :=
  ("bash ".toList ++ tempFile username time ++ " 2>&1".toList).take 511

/-- `shell` gives the output and the status of a command line when the file
just written contains the script. -/
def execute (shell : Text → Text → Text × Int) (start : ShellStart)
    (username : Username) (time : Int) (content : Text) : Response :=
  match start with
  | .noFile =>
      errorResponse opExec errServerError
        "Failed to create temporary execution file".toList
  | .noPipe =>
      errorResponse opExec errServerError "Failed to execute commands".toList
  | .started =>
      let (printed, status) :=
        shell (execCommand username time) (CText.terminated content)
      executionResponse printed status

/-- EXEC leaves both servers as they are. -/
def handleExec (shell : Text → Text → Text × Int) (sys : System)
    (context : NmContext) (link : Link) (transfer : Transfer)
    (start : ShellStart) (time : Int) (filename : Filename)
    (username : Username) : Response :=
  match findRecord sys.nm.toNameServerState filename with
  | none =>
      errorResponse opExec errFileNotFound
        ("File '".toList ++ filename.chars ++ "' not found".toList)
  | some file =>
      if file.owner ≠ username ∧
          userHasAccess sys context link filename username file.ssId =
            false then
        errorResponse opExec errNoReadAccess
          ("No read access to file '".toList ++ filename.chars ++
            "'".toList)
      else
        match findStorageServer sys.nm.toNameServerState file.ssId with
        | none =>
            errorResponse opExec errServerError
              "Storage server not available".toList
        | some server =>
            match requestFile (sys.stores server) filename transfer with
            | .error response => response
            | .ok content => execute shell start username time content

/-- The answer to an operation that the name server does not know. -/
def unknownOperation : Response := ⟨msgError, 0, errInvalidOperation, []⟩

/-- A request of a client with one answer, without its user. -/
inductive Command where
  | create (filename : Filename)
  | delete (filename : Filename)
  | addaccess (filename : Filename) (data : DataText) (accessType : Int)
  | requestaccess (filename : Filename) (accessType : Int)
  | approverequest (requestId : Filename)
  | rejectrequest (requestId : Filename)
  | createfolder (filename : Filename)
  | move (filename : Filename) (targetPath : PathText)
  | checkpoint (filename tag : Filename)
  | viewcheckpoint (filename tag : Filename)
  | revert (filename tag : Filename)
  deriving DecidableEq, Repr

/-- A request with its user, the time and the fate of the connection to the
storage server. -/
structure Call where
  context : NmContext
  now : Int
  link : Link
  username : Username
  command : Command
  deriving DecidableEq, Repr

def handleConnection (sys : System) (call : Call) : System × Response :=
  match call.command with
  | .create filename =>
      handleCreateFile sys call.context call.now call.link filename
        call.username
  | .delete filename =>
      handleDeleteFile sys call.context call.link filename call.username
  | .addaccess filename data accessType =>
      handleAddaccess sys call.context call.link filename call.username data
        accessType
  | .requestaccess filename accessType =>
      handleRequestaccess sys call.now filename call.username accessType
  | .approverequest requestId =>
      handleApproverequest sys call.context call.link requestId call.username
  | .rejectrequest requestId =>
      handleRejectrequest sys requestId call.username
  | .createfolder filename =>
      handleCreatefolder sys call.context call.now call.link filename
        call.username
  | .move filename targetPath =>
      handleMoveFile sys call.context call.link filename targetPath
        call.username
  | .checkpoint filename tag =>
      handleCheckpoint sys call.context call.link filename tag call.username
  | .viewcheckpoint filename tag =>
      handleViewcheckpoint sys call.context call.link filename tag
        call.username
  | .revert filename tag =>
      handleRevert sys call.context call.link filename tag call.username

/-- The system after a complete request. -/
def callStep (sys : System) (call : Call) : System :=
  (handleConnection sys call).1

end Dfs.NameServer
