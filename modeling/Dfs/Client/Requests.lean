import Dfs.Client.CommandParser
import Dfs.NameServer.Routing

/-!
# Requests of the client

The messages that `client/client_nm_comm.c` and `client/client_ss_comm.c` send
for a command.  What a user types is what the name server handles, what it
passes on to a storage server, and what the storage server is asked directly.
-/

namespace Dfs.Client

open CInput ByteStream Dfs.NameServer Dfs.StorageServer

def fileRequest (operation : Int) (username : Username)
    (filename : Filename) : Message :=
  { requestMessage operation username with filename := fieldOf filename }

def tagRequest (operation : Int) (username : Username)
    (filename tag : Filename) : Message :=
  { fileRequest operation username filename with
    checkpointTag := fieldOf tag }

section

variable (username : Username)

/-- The flags travel in `sentence_index`. -/
def viewRequest (viewFlags : Int) : Message :=
  { requestMessage opView username with
    sentenceIndex := wordOfInt viewFlags }

def listRequest : Message := requestMessage opList username

def infoRequest (filename : Filename) : Message :=
  fileRequest opInfo username filename

/-- The access type travels in `sentence_index`, the other user in `data`. -/
def addaccessRequest (filename : Filename) (targetUser : Username)
    (accessType : Int) : Message :=
  { fileRequest opAddaccess username filename with
    data := fieldOf (CString.copy 4095 targetUser.chars)
    sentenceIndex := wordOfInt accessType }

def remaccessRequest (filename : Filename) (targetUser : Username) :
    Message :=
  { fileRequest opRemaccess username filename with
    data := fieldOf (CString.copy 4095 targetUser.chars) }

def createRequest (filename : Filename) : Message :=
  fileRequest opCreate username filename

def deleteRequest (filename : Filename) : Message :=
  fileRequest opDelete username filename

def execRequest (filename : Filename) : Message :=
  fileRequest opExec username filename

/-- `get_ss_info`, before every request to a storage server. -/
def getSsInfo (filename : Filename) : Message :=
  fileRequest opGetSsInfo username filename

def createfolderRequest (foldername : Filename) : Message :=
  fileRequest opCreatefolder username foldername

def moveRequest (filename : Filename) (targetFolder : PathText) : Message :=
  { fileRequest opMove username filename with
    targetPath := fieldOf targetFolder }

def viewfolderRequest (foldername : Filename) : Message :=
  fileRequest opViewfolder username foldername

def checkpointRequest (filename tag : Filename) : Message :=
  tagRequest opCheckpoint username filename tag

def viewcheckpointRequest (filename tag : Filename) : Message :=
  tagRequest opViewcheckpoint username filename tag

def revertRequest (filename tag : Filename) : Message :=
  tagRequest opRevert username filename tag

def listcheckpointsRequest (filename : Filename) : Message :=
  fileRequest opListcheckpoints username filename

def requestaccessRequest (filename : Filename) (accessType : Int) :
    Message :=
  { fileRequest opRequestaccess username filename with
    sentenceIndex := wordOfInt accessType }

def viewrequestsRequest : Message := requestMessage opViewrequests username

/-- The id of the access request travels in `checkpoint_tag`. -/
def approverequestRequest (requestId : Filename) : Message :=
  { requestMessage opApproverequest username with
    checkpointTag := fieldOf requestId }

def rejectrequestRequest (requestId : Filename) : Message :=
  { requestMessage opRejectrequest username with
    checkpointTag := fieldOf requestId }

def readRequest (filename : Filename) : Message :=
  fileRequest opRead username filename

def writeRequest (filename : Filename) (sentenceIndex : Int) : Message :=
  { fileRequest opWrite username filename with
    sentenceIndex := wordOfInt sentenceIndex }

def streamRequest (filename : Filename) : Message :=
  fileRequest opStream username filename

def undoRequest (filename : Filename) : Message :=
  fileRequest opUndo username filename

end

/-- What a command sends first to the name server and then, if it is told a
location, to a storage server. -/
structure Requests where
  nameServer : Option Message
  storageServer : Option Message

def toNameServer (request : Message) : Requests := ⟨some request, none⟩

def toStorageServer (username : Username) (filename : Filename)
    (request : Message) : Requests :=
  ⟨some (getSsInfo username filename), some request⟩

/-- The switch of `handle_command`, with the first messages of each case. -/
def handleCommand (username : Username) (cmd : ParsedCommand) : Requests :=
  match cmd.type with
  | .view => toNameServer (viewRequest username cmd.viewFlags)
  | .read =>
      toStorageServer username cmd.filename
        (readRequest username cmd.filename)
  | .create => toNameServer (createRequest username cmd.filename)
  | .write =>
      toStorageServer username cmd.filename
        (writeRequest username cmd.filename cmd.sentenceIndex)
  | .delete => toNameServer (deleteRequest username cmd.filename)
  | .info => toNameServer (infoRequest username cmd.filename)
  | .stream =>
      toStorageServer username cmd.filename
        (streamRequest username cmd.filename)
  | .list => toNameServer (listRequest username)
  | .addaccess =>
      toNameServer (addaccessRequest username cmd.filename cmd.targetUser
        cmd.accessType)
  | .remaccess =>
      toNameServer (remaccessRequest username cmd.filename cmd.targetUser)
  | .exec => toNameServer (execRequest username cmd.filename)
  | .undo =>
      toStorageServer username cmd.filename
        (undoRequest username cmd.filename)
  | .createfolder => toNameServer (createfolderRequest username cmd.filename)
  | .move => toNameServer (moveRequest username cmd.filename cmd.targetPath)
  | .viewfolder => toNameServer (viewfolderRequest username cmd.filename)
  | .checkpoint =>
      toNameServer (checkpointRequest username cmd.filename
        cmd.checkpointTag)
  | .viewcheckpoint =>
      toNameServer (viewcheckpointRequest username cmd.filename
        cmd.checkpointTag)
  | .revert =>
      toNameServer (revertRequest username cmd.filename cmd.checkpointTag)
  | .listcheckpoints =>
      toNameServer (listcheckpointsRequest username cmd.filename)
  | .requestaccess =>
      toNameServer (requestaccessRequest username cmd.filename
        cmd.accessType)
  | .viewrequests => toNameServer (viewrequestsRequest username)
  | .approverequest =>
      toNameServer (approverequestRequest username cmd.requestId)
  | .rejectrequest =>
      toNameServer (rejectrequestRequest username cmd.requestId)
  | .help => ⟨none, none⟩
  | .exit => ⟨none, none⟩
  | .unknown => ⟨none, none⟩

/-- The handler of the name server that a command is for, with what was
typed. -/
def ShellCommand.call (username : Username) :
    ShellCommand → Option HandlerCall
  | .view flags => some (.viewFiles username flags.value)
  | .read filename => some (.getSsInfo username filename.toCString)
  | .create filename =>
      some (.command username (.create filename.toCString))
  | .write filename _ _ => some (.getSsInfo username filename.toCString)
  | .delete filename =>
      some (.command username (.delete filename.toCString))
  | .info filename => some (.infoRequest username filename.toCString)
  | .stream filename => some (.getSsInfo username filename.toCString)
  | .list => some (.listFiles username)
  | .addaccess access filename targetUser =>
      some (.command username (.addaccess filename.toCString
        (CString.copy 4095 targetUser.chars) access.value))
  | .remaccess filename targetUser =>
      some (.remaccess username filename.toCString
        (CString.copy 4095 targetUser.chars))
  | .exec filename => some (.exec username filename.toCString)
  | .undo filename => some (.getSsInfo username filename.toCString)
  | .createfolder foldername =>
      some (.command username (.createfolder foldername.toCString))
  | .move filename targetPath =>
      some (.command username
        (.move filename.toCString targetPath.toCString))
  | .viewfolder foldername =>
      some (.viewfolder username foldername.toCString)
  | .checkpoint filename tag =>
      some (.command username
        (.checkpoint filename.toCString tag.toCString))
  | .viewcheckpoint filename tag =>
      some (.command username
        (.viewcheckpoint filename.toCString tag.toCString))
  | .revert filename tag =>
      some (.command username (.revert filename.toCString tag.toCString))
  | .listcheckpoints filename =>
      some (.listcheckpoints username filename.toCString)
  | .requestaccess access filename =>
      some (.command username
        (.requestaccess filename.toCString access.value))
  | .viewrequests => some (.viewrequests username)
  | .approverequest requestId =>
      some (.command username (.approverequest requestId.toCString))
  | .rejectrequest requestId =>
      some (.command username (.rejectrequest requestId.toCString))
  | .exit => none
  | .help => none

/-- What a command asks a storage server for, with the messages of a WRITE
session behind the request. -/
def ShellCommand.clientRequest (messages : List WriteMessage) :
    ShellCommand → Option ClientRequest
  | .read filename => some (.read filename.toCString)
  | .write filename sentenceIndex _ =>
      some (.write filename.toCString sentenceIndex messages)
  | .stream filename => some (.stream filename.toCString)
  | .undo filename => some (.undo filename.toCString)
  | _ => none

/-- A connection between machines of any byte order whose calls move any part
of what they should, with what is in the receiver's memory and what follows on
the stream. -/
structure Wire where
  sender : ByteOrder
  receiver : ByteOrder
  sending : List Outcome
  receiving : List Outcome
  sends : Benign sendRetried sending
  receives : Benign recvRetried receiving
  memory : Message
  behind : List Byte

/-- What arrives of a message. -/
def Wire.deliver (wire : Wire) (msg : Message) : Message :=
  (receiveMessage wire.receiver wire.receiving wire.memory
    ((sendMessage wire.sender wire.sending msg).taken ++ wire.behind)).msg

@[simp]
theorem Wire.deliver_eq (wire : Wire) (msg : Message) :
    wire.deliver msg = msg := by
  rw [deliver, sendMessage_benign wire.sender wire.sends,
    receiveMessage_complete wire.receiver wire.receives]

/-- The characters of a typed command are bytes. -/
def ShellCommand.Bytes (command : ShellCommand) : Prop :=
  ∀ word ∈ command.words, IsBytes word

theorem Says.bytes {line : Text} {command : ShellCommand}
    (said : Says line command) (bytes : IsBytes line) : command.Bytes :=
  fun _ member => bytes.subset (said.word_subset member)

theorem copy_wider {capacity wider : Nat} (string : CString capacity)
    (wide : capacity ≤ wider) :
    (CString.copy wider string.chars).chars = string.chars := by
  change (CText.terminated string.chars).take wider = string.chars
  rw [CText.terminated_eq_self string.nulFree]
  exact List.take_of_length_le (string.fits.trans wide)

theorem isInt_viewFlags (flags : ViewFlags) : IsInt flags.value := by
  cases flags <;> decide

theorem isInt_accessType (access : AccessType) : IsInt access.value := by
  cases access <;> decide

/-- A number of a command goes through an `int` unchanged. -/
theorem bmod_of_isInt {value : Int} (isInt : IsInt value) :
    value.bmod 4294967296 = value :=
  Int.bmod_eq_of_le isInt.1 isInt.2

section

variable {username : Username} {command : ShellCommand}

theorem routeMessage_nameServer (userBytes : IsBytes username.chars)
    (bytes : command.Bytes) :
    (handleCommand username command.parsed).nameServer.map routeMessage =
      command.call username := by
  have user : stringOf (fieldOf username) = username :=
    stringOf_fieldOf userBytes
  cases command <;>
    simp only [ShellCommand.Bytes, ShellCommand.words,
      List.forall_mem_cons] at bytes <;>
    simp [handleCommand, ShellCommand.parsed, clearedCommand,
      ShellCommand.type, ShellCommand.call, stringOf_fieldOf, *,
      toNameServer, toStorageServer, viewRequest, listRequest, infoRequest,
      addaccessRequest, remaccessRequest, createRequest, deleteRequest,
      execRequest, getSsInfo, createfolderRequest, moveRequest,
      viewfolderRequest, checkpointRequest, viewcheckpointRequest,
      revertRequest, listcheckpointsRequest, requestaccessRequest,
      viewrequestsRequest, approverequestRequest, rejectrequestRequest,
      fileRequest, tagRequest, requestMessage, routeMessage,
      copy_wider, wordOfInt, bmod_of_isInt, isInt_viewFlags, isInt_accessType,
      opView, opSsRegister, opClientRegister, opGetSsInfo, opCreate, opDelete,
      opAddaccess, opRemaccess, opList, opInfo, opExec, opCreatefolder,
      opMove, opViewfolder, opCheckpoint, opViewcheckpoint, opRevert,
      opListcheckpoints, opRequestaccess, opViewrequests, opApproverequest,
      opRejectrequest]

theorem routeClientMessage_storageServer
    (userBytes : IsBytes username.chars) (bytes : command.Bytes)
    (messages : List WriteMessage) :
    (handleCommand username command.parsed).storageServer.map
        (routeClientMessage · messages) =
      (command.clientRequest messages).map (Prod.mk username) := by
  have user : stringOf (fieldOf username) = username :=
    stringOf_fieldOf userBytes
  cases command with
  | write filename sentenceIndex isInt =>
      simp only [ShellCommand.Bytes, ShellCommand.words,
        List.forall_mem_cons] at bytes
      simp [handleCommand, ShellCommand.parsed, clearedCommand,
        ShellCommand.type, ShellCommand.clientRequest, toStorageServer,
        writeRequest, fileRequest, requestMessage, routeClientMessage, user,
        stringOf_fieldOf, bytes, wordOfInt, bmod_of_isInt, isInt, opRead,
        opWrite]
  | _ =>
      simp only [ShellCommand.Bytes, ShellCommand.words,
        List.forall_mem_cons] at bytes
      simp [handleCommand, ShellCommand.parsed, clearedCommand,
        ShellCommand.type, ShellCommand.clientRequest, toNameServer,
        toStorageServer, readRequest, streamRequest, undoRequest,
        fileRequest, requestMessage, routeClientMessage, stringOf_fieldOf, *,
        wordOfInt, opRead, opWrite, opStream, opUndo]

end

/-- Every line that says a command makes the client send the messages that the
name server handles as this command, with the name of the user and exactly the
words that were typed; what the name server sends on to a storage server is
read there with the same words; and so is what the client asks the storage
server directly, whatever the machines and however the bytes are cut up on
their way. -/
theorem typed_request_reaches_servers {line : Text} {command : ShellCommand}
    (said : Says line command) (bytes : IsBytes line) (username : Username)
    (userBytes : IsBytes username.chars) (messages : List WriteMessage)
    (toName toStorage direct : Wire) :
    let requests := handleCommand username (parseCommand line).2
    let received := requests.nameServer.map toName.deliver
    received.map routeMessage = command.call username ∧
      (received.bind fun msg =>
        ((routeMessage msg).storageMessage msg).map
          (routeNmMessage ∘ toStorage.deliver)) =
        (command.call username).bind HandlerCall.storageCall ∧
      (requests.storageServer.map direct.deliver).map
          (routeClientMessage · messages) =
        (command.clientRequest messages).map (Prod.mk username) := by
  have typed : command.Bytes := said.bytes bytes
  have parsed : (parseCommand line).2 = command.parsed := by
    rw [parseCommand_of_said said]
  have arrived : ∀ (wire : Wire) (request : Option Message),
      request.map wire.deliver = request := fun wire request => by
    cases request <;> simp
  have handled := routeMessage_nameServer userBytes typed
  intro requests received
  have same : received =
      (handleCommand username command.parsed).nameServer := by
    simp only [received, requests, arrived, parsed]
  refine ⟨by rw [same, handled], ?_, ?_⟩
  · rw [same, ← handled, Option.bind_map]
    congr 1
    funext msg
    have forwards := forwards_routeMessage msg
    simpa [HandlerCall.Forwards, Function.comp_def] using forwards
  · simp only [requests, arrived, parsed]
    exact routeClientMessage_storageServer userBytes typed messages

/-- From a little-endian machine to a big-endian one in three pieces. -/
private def slowWire : Wire where
  sender := .littleEndian
  receiver := .bigEndian
  sending := [.moved 10, .stopped .interrupted]
  receiving := [.moved 0, .stopped .timedOut, .moved 99]
  sends := by simp [Benign, sendRetried]
  receives := by simp [Benign, recvRetried]
  memory := clearedMessage
  behind := []

theorem typed_request_reaches_servers_move :
    ∃ filename : Argument 255, ∃ path : Argument 1023,
      filename.chars = ['a'] ∧ path.chars = ['d'] ∧
      ((handleCommand (CString.copy 63 ['u'])
            (parseCommand "move\ta d".toList).2).nameServer.map
          slowWire.deliver).map routeMessage =
        some (.command (CString.copy 63 ['u'])
          (.move filename.toCString path.toCString)) := by
  let filename : Argument 255 :=
    { chars := ['a']
      fits := by decide
      nulFree := by decide
      inhabited := by decide
      solid := by simp [commandBreak] }
  let path : Argument 1023 :=
    { chars := ['d']
      fits := by decide
      nulFree := by decide
      inhabited := by decide
      solid := by simp [commandBreak] }
  have said : Says "move\ta d".toList (.move filename path) :=
    { short := by decide
      nulFree := by decide
      spelled := ⟨"move".toList, [], by decide,
        by simp [ShellCommand.Followed],
        ItemRuns.runsOf_iff.mpr (by rfl)⟩ }
  have user : (CString.copy 63 ['u']).chars = ['u'] := by decide
  have reached := typed_request_reaches_servers said (by simp [IsBytes])
    (CString.copy 63 ['u']) (by simp [IsBytes, user]) [] slowWire slowWire
    slowWire
  exact ⟨filename, path, rfl, rfl, reached.1⟩

end Dfs.Client
