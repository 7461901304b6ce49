import Dfs.MessageFields
import Dfs.StorageServer.Queries

/-!
# Messages that reach a storage server

How the handlers behind the two ports read a request out of the message that
`receive_message` has filled.
-/

namespace Dfs.StorageServer

/-- A case of `handle_nm_connection` with the fields that it reads. -/
inductive NmCall where
  | request (request : NmRequest)
  | exec (filename : Filename)
  | viewfolder (filename : Filename)
  | unknown
  deriving DecidableEq, Repr

/-- The switch of `handle_nm_connection`. -/
def routeNmMessage (msg : Message) : NmCall :=
  let filename : Filename := stringOf msg.filename
  let username : Username := stringOf msg.username
  let tag : Filename := stringOf msg.checkpointTag
  let targetPath : PathText := stringOf msg.targetPath
  let data : DataText := stringOf msg.data
  let operation := msg.operation.toInt
  if operation = opSsCreateFile then
    .request (.createFile filename username)
  else if operation = opSsDeleteFile then
    .request (.deleteFile filename username)
  else if operation = opInfo then .request (.info filename username)
  else if operation = opExec then .exec filename
  else if operation = opSsAddaccess then
    .request (.addaccess filename username data msg.sentenceIndex.toInt)
  else if operation = opSsRemaccess then
    .request (.remaccess filename username data)
  else if operation = opCreatefolder then
    .request (.createfolder filename username)
  else if operation = opMove then
    .request (.move filename targetPath username)
  else if operation = opViewfolder then .viewfolder filename
  else if operation = opCheckpoint then
    .request (.checkpoint filename tag username)
  else if operation = opViewcheckpoint then
    .request (.viewcheckpoint filename tag username)
  else if operation = opRevert then
    .request (.revert filename tag username)
  else if operation = opListcheckpoints then
    .request (.listcheckpoints filename username)
  else .unknown

/-- The switch of `handle_client_connection`, with the user and what the
client sends after this message. -/
def routeClientMessage (msg : Message) (messages : List WriteMessage) :
    Username × ClientRequest :=
  let filename : Filename := stringOf msg.filename
  let operation := msg.operation.toInt
  (stringOf msg.username,
    if operation = opRead then .read filename
    else if operation = opWrite then
      .write filename msg.sentenceIndex.toInt messages
    else if operation = opStream then .stream filename
    else if operation = opUndo then .undo filename
    else .unknown)

end Dfs.StorageServer
