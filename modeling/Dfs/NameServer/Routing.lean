import Dfs.NameServer.ClientHandlers
import Dfs.StorageServer.Routing

/-!
# Messages that reach the name server

The switch of `handle_connection`, and the messages that the handlers send on
to a storage server.
-/

namespace Dfs.NameServer

open Dfs.StorageServer

/-- A handler with the fields of the message that it reads. -/
inductive HandlerCall where
  | storageServerRegistration (msg : RegisterMessage)
  | clientRegistration (username : Username) (ip : IpText) (port1 : Int)
  | getSsInfo (username : Username) (filename : Filename)
  | listFiles (username : Username)
  | viewFiles (username : Username) (viewFlags : Int)
  | infoRequest (username : Username) (filename : Filename)
  | exec (username : Username) (filename : Filename)
  | remaccess (username : Username) (filename : Filename) (data : DataText)
  | viewfolder (username : Username) (filename : Filename)
  | listcheckpoints (username : Username) (filename : Filename)
  | viewrequests (username : Username)
  | command (username : Username) (command : Command)
  | unknown

/-- The switch of `handle_connection`. -/
def routeMessage (msg : Message) : HandlerCall :=
  let username : Username := stringOf msg.username
  let filename : Filename := stringOf msg.filename
  let tag : Filename := stringOf msg.checkpointTag
  let targetPath : PathText := stringOf msg.targetPath
  let ip : IpText := stringOf msg.ip
  let data : DataText := stringOf msg.data
  let number := msg.sentenceIndex.toInt
  let operation := msg.operation.toInt
  if operation = opSsRegister then
    .storageServerRegistration
      { ssId := msg.ssId.toInt
        ip := ip
        port1 := msg.port1.toInt
        port2 := msg.port2.toInt
        data := data }
  else if operation = opClientRegister then
    .clientRegistration username ip msg.port1.toInt
  else if operation = opGetSsInfo then .getSsInfo username filename
  else if operation = opCreate then .command username (.create filename)
  else if operation = opDelete then .command username (.delete filename)
  else if operation = opAddaccess then
    .command username (.addaccess filename data number)
  else if operation = opRemaccess then .remaccess username filename data
  else if operation = opList then .listFiles username
  else if operation = opView then .viewFiles username number
  else if operation = opInfo then .infoRequest username filename
  else if operation = opExec then .exec username filename
  else if operation = opCreatefolder then
    .command username (.createfolder filename)
  else if operation = opMove then
    .command username (.move filename targetPath)
  else if operation = opViewfolder then .viewfolder username filename
  else if operation = opCheckpoint then
    .command username (.checkpoint filename tag)
  else if operation = opViewcheckpoint then
    .command username (.viewcheckpoint filename tag)
  else if operation = opRevert then .command username (.revert filename tag)
  else if operation = opListcheckpoints then
    .listcheckpoints username filename
  else if operation = opRequestaccess then
    .command username (.requestaccess filename number)
  else if operation = opViewrequests then .viewrequests username
  else if operation = opApproverequest then
    .command username (.approverequest tag)
  else if operation = opRejectrequest then
    .command username (.rejectrequest tag)
  else .unknown

/-- A cleared request with the user and the file of a received message. -/
def forwardMessage (operation : Int) (msg : Message) : Message :=
  { requestMessage operation (stringOf msg.username : Username) with
    filename := fieldOf (stringOf msg.filename : Filename) }

def withTag (msg request : Message) : Message :=
  { request with
    checkpointTag := fieldOf (stringOf msg.checkpointTag : Filename) }

def withTargetPath (msg request : Message) : Message :=
  { request with
    targetPath := fieldOf (stringOf msg.targetPath : PathText) }

def withData (data : Text) (request : Message) : Message :=
  { request with data := fieldOf (CString.copy 4095 data) }

/-- The message that a handler sends to the storage server of the file.  LIST,
VIEWREQUESTS, REJECTREQUEST and the requests for a location send none, and
VIEW and APPROVEREQUEST send what they find in the tables of the server. -/
def HandlerCall.storageMessage (msg : Message) :
    HandlerCall → Option Message
  | .storageServerRegistration _ => none
  | .clientRegistration _ _ _ => none
  | .getSsInfo _ _ => none
  | .listFiles _ => none
  | .viewFiles _ _ => none
  | .infoRequest _ _ => some (forwardMessage opInfo msg)
  | .exec _ _ => some (forwardMessage opExec msg)
  | .remaccess _ _ _ =>
      some { msg with operation := wordOfInt opSsRemaccess }
  | .viewfolder _ _ => some (forwardMessage opViewfolder msg)
  | .listcheckpoints _ _ => some (forwardMessage opListcheckpoints msg)
  | .viewrequests _ => none
  | .command _ request =>
      match request with
      | .create _ =>
          some (withData "CREATE command from Name Server".toList
            (forwardMessage opSsCreateFile msg))
      | .delete _ =>
          some (withData "DELETE command from Name Server".toList
            (forwardMessage opSsDeleteFile msg))
      | .addaccess _ _ _ =>
          some { msg with operation := wordOfInt opSsAddaccess }
      | .requestaccess _ _ => none
      | .approverequest _ => none
      | .rejectrequest _ => none
      | .createfolder _ => some (forwardMessage opCreatefolder msg)
      | .move _ _ =>
          some (withTargetPath msg (forwardMessage opMove msg))
      | .checkpoint _ _ => some (withTag msg (forwardMessage opCheckpoint msg))
      | .viewcheckpoint _ _ =>
          some (withTag msg (forwardMessage opViewcheckpoint msg))
      | .revert _ _ => some (withTag msg (forwardMessage opRevert msg))
  | .unknown => none

/-- The request that the storage server is to be sent. -/
def HandlerCall.storageCall : HandlerCall → Option NmCall
  | .storageServerRegistration _ => none
  | .clientRegistration _ _ _ => none
  | .getSsInfo _ _ => none
  | .listFiles _ => none
  | .viewFiles _ _ => none
  | .infoRequest username filename =>
      some (.request (.info filename username))
  | .exec _ filename => some (.exec filename)
  | .remaccess username filename data =>
      some (.request (.remaccess filename username data))
  | .viewfolder _ filename => some (.viewfolder filename)
  | .listcheckpoints username filename =>
      some (.request (.listcheckpoints filename username))
  | .viewrequests _ => none
  | .command username request =>
      match request with
      | .create filename => some (.request (.createFile filename username))
      | .delete filename => some (.request (.deleteFile filename username))
      | .addaccess filename data accessType =>
          some (.request (.addaccess filename username data accessType))
      | .requestaccess _ _ => none
      | .approverequest _ => none
      | .rejectrequest _ => none
      | .createfolder filename =>
          some (.request (.createfolder filename username))
      | .move filename targetPath =>
          some (.request (.move filename targetPath username))
      | .checkpoint filename tag =>
          some (.request (.checkpoint filename tag username))
      | .viewcheckpoint filename tag =>
          some (.request (.viewcheckpoint filename tag username))
      | .revert filename tag =>
          some (.request (.revert filename tag username))
  | .unknown => none

section

variable (operation : Int) (data : Text) (msg request : Message)

@[simp]
theorem operation_forwardMessage :
    (forwardMessage operation msg).operation = wordOfInt operation := rfl

@[simp]
theorem stringOf_username_forwardMessage :
    (stringOf (forwardMessage operation msg).username : Username) =
      stringOf msg.username := stringOf_fieldOf_stringOf _

@[simp]
theorem stringOf_filename_forwardMessage :
    (stringOf (forwardMessage operation msg).filename : Filename) =
      stringOf msg.filename := stringOf_fieldOf_stringOf _

@[simp]
theorem operation_withTag :
    (withTag msg request).operation = request.operation := rfl

@[simp]
theorem username_withTag :
    (withTag msg request).username = request.username := rfl

@[simp]
theorem filename_withTag :
    (withTag msg request).filename = request.filename := rfl

@[simp]
theorem stringOf_tag_withTag :
    (stringOf (withTag msg request).checkpointTag : Filename) =
      stringOf msg.checkpointTag := stringOf_fieldOf_stringOf _

@[simp]
theorem operation_withTargetPath :
    (withTargetPath msg request).operation = request.operation := rfl

@[simp]
theorem username_withTargetPath :
    (withTargetPath msg request).username = request.username := rfl

@[simp]
theorem filename_withTargetPath :
    (withTargetPath msg request).filename = request.filename := rfl

@[simp]
theorem stringOf_targetPath_withTargetPath :
    (stringOf (withTargetPath msg request).targetPath : PathText) =
      stringOf msg.targetPath := stringOf_fieldOf_stringOf _

@[simp]
theorem operation_withData :
    (withData data request).operation = request.operation := rfl

@[simp]
theorem username_withData :
    (withData data request).username = request.username := rfl

@[simp]
theorem filename_withData :
    (withData data request).filename = request.filename := rfl

end

/-- The storage server reads the request of the call out of the message that
is sent on. -/
def HandlerCall.Forwards (msg : Message) (call : HandlerCall) : Prop :=
  (call.storageMessage msg).map routeNmMessage = call.storageCall

/-- Whatever bytes the fields of a message hold, both servers read the same
strings. -/
theorem forwards_routeMessage (msg : Message) :
    (routeMessage msg).Forwards msg := by
  unfold routeMessage
  repeat' refine iteInduction (fun _ => ?_) (fun _ => ?_)
  all_goals
    simp [HandlerCall.Forwards, HandlerCall.storageMessage,
      HandlerCall.storageCall, routeNmMessage, wordOfInt, opInfo, opExec,
      opSsCreateFile, opSsDeleteFile, opSsAddaccess, opSsRemaccess,
      opCreatefolder, opMove, opViewfolder, opCheckpoint, opViewcheckpoint,
      opRevert, opListcheckpoints]

end Dfs.NameServer
