import Dfs.Library.BoundedRows
import Dfs.NameServer.RequestIds

/-!
# The remaining requests at the name server

REMACCESS is ADDACCESS the other way, and does not look at whether its request
was sent.  INFO, VIEWFOLDER and LISTCHECKPOINTS hand on what the storage server
answers, VIEWREQUESTS prints the table of access requests.
-/

namespace Dfs.NameServer

open Dfs.StorageServer BoundedRows

/-- Nothing arrived in the cleared message. -/
def clearedResponse : Response := ⟨0, 0, 0, []⟩

/-- The results of `send_message` and `receive_message` are ignored. -/
def handleRemaccess (sys : System) (context : NmContext) (link : Link)
    (filename : Filename) (username : Username) (data : DataText) :
    System × Response :=
  let forward := fun (sys : System) (response : Response) =>
    (sys, (⟨if response.errorCode ≠ errSuccess then msgError else msgAck,
      opRemaccess, response.errorCode, response.data⟩ : Response))
  match findRecord sys.nm.toNameServerState filename with
  | none =>
      (sys, errorResponse opRemaccess errFileNotFound "File not found".toList)
  | some file =>
      if file.owner ≠ username then
        (sys, errorResponse opRemaccess errNotOwner
          "Only file owner can modify access permissions".toList)
      else
        let refused := (sys, errorResponse opRemaccess errConnectionFailed
          "Failed to connect to storage server".toList)
        match findStorageServer sys.nm.toNameServerState file.ssId with
        | none => refused
        | some server =>
            match sys.exchange context server
                (.remaccess filename username data) link with
            | (_, .unconnected) => refused
            | (sys, .unsent) => forward sys clearedResponse
            | (sys, .unanswered buffer) => forward sys buffer
            | (sys, .answered response) => forward sys response

/-- The handler does nothing but talk to the storage server. -/
theorem related_handleRemaccess {related : System → System → Prop}
    {sys : System} {context : NmContext} {link : Link} {filename : Filename}
    {username : Username} {data : DataText} (refl : related sys sys)
    (exchanged : ∀ server, related sys (sys.exchange context server
      (.remaccess filename username data) link).1) :
    related sys
      (handleRemaccess sys context link filename username data).1 := by
  unfold handleRemaccess
  split
  · exact refl
  · split
    · exact refl
    · simp only
      split
      · exact refl
      · rename_i server located
        have talked := exchanged server
        split
        · exact refl
        · rename_i same
          rwa [same] at talked
        · rename_i same
          rwa [same] at talked
        · rename_i same
          rwa [same] at talked

def handleInfoRequest (sys : System) (context : NmContext) (link : Link)
    (filename : Filename) (username : Username) : System × Response :=
  match findRecord sys.nm.toNameServerState filename with
  | none =>
      (sys, errorResponse opInfo errFileNotFound
        ("File '".toList ++ filename.chars ++ "' not found".toList))
  | some file =>
      match findStorageServer sys.nm.toNameServerState file.ssId with
      | none =>
          (sys, errorResponse opInfo errServerError
            "Storage server not available".toList)
      | some server =>
          match sys.exchange context server (.info filename username)
              link with
          | (sys, .unconnected) =>
              (sys, errorResponse opInfo errConnectionFailed
                "Failed to connect to storage server".toList)
          | (sys, .unsent) =>
              (sys, errorResponse opInfo errServerError
                "Failed to request file info".toList)
          | (sys, .unanswered _) =>
              (sys, errorResponse opInfo errServerError
                "Failed to receive file info".toList)
          | (sys, .answered response) =>
              (sys, ⟨response.msgType, opInfo, response.errorCode,
                response.data⟩)

theorem related_handleInfoRequest {related : System → System → Prop}
    {sys : System} {context : NmContext} {link : Link} {filename : Filename}
    {username : Username} (refl : related sys sys)
    (exchanged : ∀ server, related sys (sys.exchange context server
      (.info filename username) link).1) :
    related sys
      (handleInfoRequest sys context link filename username).1 := by
  unfold handleInfoRequest
  split
  · exact refl
  · split
    · exact refl
    · rename_i server located
      have talked := exchanged server
      split
      · rename_i same
        rwa [same] at talked
      · rename_i same
        rwa [same] at talked
      · rename_i same
        rwa [same] at talked
      · rename_i same
        rwa [same] at talked

/-- What `System.forward` does with an answer that is handed on. -/
def handOn (operation : Int) (sys : System) (response : Response) :
    System × Response :=
  (sys, ⟨response.msgType, operation, response.errorCode, response.data⟩)

def receiveFailed (operation : Int) : Response :=
  errorResponse operation errServerError
    "Failed to receive response from storage server".toList

def handleListcheckpoints (sys : System) (context : NmContext) (link : Link)
    (filename : Filename) (username : Username) : System × Response :=
  match findRecord sys.nm.toNameServerState filename with
  | none =>
      (sys, errorResponse opListcheckpoints errFileNotFound
        "File not found".toList)
  | some file =>
      sys.forward context link opListcheckpoints file.ssId
        (.listcheckpoints filename username)
        (fun _ => receiveFailed opListcheckpoints) (handOn opListcheckpoints)

theorem related_handleListcheckpoints {related : System → System → Prop}
    {sys : System} {context : NmContext} {link : Link} {filename : Filename}
    {username : Username} (refl : related sys sys)
    (exchanged : ∀ server, related sys (sys.exchange context server
      (.listcheckpoints filename username) link).1) :
    related sys
      (handleListcheckpoints sys context link filename username).1 := by
  unfold handleListcheckpoints
  split
  · exact refl
  · unfold System.forward
    split
    · exact refl
    · rename_i server online
      have talked := exchanged server
      split
      · rename_i same
        rwa [same] at talked
      · rename_i same
        rwa [same] at talked
      · rename_i same
        rwa [same] at talked
      · rename_i same
        rwa [same] at talked

/-- What `readdir` returns for a folder that can be opened, without `.` and
`..`. -/
def folderEntries (s : FileHandler) (filename : Filename) :
    Option (List Text) :=
  (s.disk.locate (getFilePath s.storage filename)).bind fun place =>
    if s.disk.IsFolder place then some (s.disk.entries place) else none

def nmViewfolder (s : FileHandler) (filename : Filename) : Response :=
  match folderEntries s filename with
  | none => nmResponse opViewfolder errFileNotFound "Folder not found".toList
  | some names => nmResponse opViewfolder errSuccess (printTags [] 0 names)

/-- VIEWFOLDER leaves both servers as they are. -/
def handleViewfolder (sys : System) (link : Link) (filename : Filename) :
    Response :=
  match findRecord sys.nm.toNameServerState filename with
  | none =>
      errorResponse opViewfolder errFileNotFound "Folder not found".toList
  | some folder =>
      match onlineServer sys.nm.toNameServerState folder.ssId with
      | none =>
          errorResponse opViewfolder errServerError
            "Storage server not available".toList
      | some server =>
          match link with
          | .refused =>
              errorResponse opViewfolder errConnectionFailed
                "Failed to connect to storage server".toList
          | .broken =>
              errorResponse opViewfolder errServerError
                "Failed to send request to storage server".toList
          | .lost _ => receiveFailed opViewfolder
          | .reliable =>
              let response := nmViewfolder (sys.stores server) filename
              ⟨response.msgType, opViewfolder, response.errorCode,
                response.data⟩

def requestRow (request : AccessRequest) : Text :=
  "ID: ".toList ++ request.requestId.chars ++
    "\n  File: ".toList ++ request.filename.chars ++
    "\n  User: ".toList ++ request.requester.chars ++
    "\n  Access: ".toList ++
    (if request.accessType = accessRead then "READ".toList
      else "WRITE".toList) ++ "\n\n".toList

def viewedRequests (requests : List AccessRequest) (username : Username) :
    List AccessRequest :=
  requests.filter fun request =>
    request.status = .pending && request.owner = username

def handleViewrequests (requests : List AccessRequest)
    (username : Username) : Response :=
  let shown := viewedRequests requests username
  success opViewrequests <|
    if shown = [] then "No pending access requests".toList
    else
      printUntil (maxDataSize - 200) (maxDataSize - 2) [] 0
        (shown.map requestRow)

/-- In a table without repeated ids the owner is shown exactly the requests
that he can decide. -/
theorem mem_viewedRequests_iff {sys : System}
    (ids : DistinctIds sys.nm.accessRequests) {request : AccessRequest}
    {username : Username} :
    request ∈ viewedRequests sys.nm.accessRequests username ↔
      findPending sys opApproverequest request.requestId username =
        .ok request := by
  rw [viewedRequests, List.mem_filter, findPending_eq_ok_iff]
  simp only [Bool.and_eq_true, decide_eq_true_eq]
  constructor
  · rintro ⟨member, pending, owner⟩
    obtain ⟨index, here⟩ := List.mem_iff_getElem?.mp member
    exact ⟨⟨index, ids.addresses here⟩, owner, pending⟩
  · rintro ⟨⟨index, here, -⟩, owner, pending⟩
    exact ⟨List.mem_of_getElem? here, pending, owner⟩

/-- Along a run in which no two requests get the same label in one second,
VIEWREQUESTS shows a user, each once, exactly the requests that he can approve
or reject, as far as the answer has room. -/
theorem viewrequests_shows_decidable {sys : System}
    (empty : sys.nm.accessRequests = []) {calls : List Call}
    (fresh : StepRun.AllSteps callStep
      (fun sys call => IsLong call.now ∧ FreshLabel sys call) sys calls)
    (username : Username) :
    let final := StepRun.run callStep sys calls
    let shown := viewedRequests final.nm.accessRequests username
    (∀ request, request ∈ shown ↔
      findPending final opApproverequest request.requestId username =
        .ok request) ∧
    (shown.map AccessRequest.requestId).Nodup ∧
    ∃ count ≤ shown.length,
      (let printed := ((shown.take count).map requestRow).flatten
      (handleViewrequests final.nm.accessRequests username).data =
        (if shown = [] then "No pending access requests".toList
        else printed.take (maxDataSize - 2)) ∧
      (count < shown.length → maxDataSize - 200 ≤ printed.length)) := by
  intro final shown
  have initially : DistinctIds sys.nm.accessRequests := by
    rw [empty]
    exact .nil
  have ids : DistinctIds final.nm.accessRequests :=
    @StepRun.invariant _ _ callStep _
      (fun sys => DistinctIds sys.nm.accessRequests)
      (fun _ _ ids met => distinctIds_callStep ids met.1 met.2) _ _ initially
      fresh
  have once : (shown.map AccessRequest.requestId).Nodup :=
    List.Nodup.sublist (List.filter_sublist.map _) ids.distinct
  obtain ⟨count, enough, printed, full⟩ :=
    @printUntil_rows _ (maxDataSize - 200) (maxDataSize - 2)
      (shown.map requestRow) []
  rw [List.take_nil, List.length_nil] at printed
  simp only [List.nil_append, ← List.map_take, List.length_map]
    at printed enough full
  refine ⟨fun request => mem_viewedRequests_iff ids, once, count, enough, ?_,
    full⟩
  rw [← printed]
  rfl

/-- `bob` asks `alice` for her file. -/
private def askedOnce : List Call :=
  [askCall "alice" 0 (.create askFile),
    askCall "bob" 5 (.requestaccess askFile accessRead)]

theorem viewrequests_shows_decidable_once :
    newRequest 5 askFile (askUser "bob") accessRead (askUser "alice") ∈
      viewedRequests (StepRun.run callStep askServer
        askedOnce).nm.accessRequests (askUser "alice") := by
  have fresh : StepRun.AllSteps callStep
      (fun sys call => IsLong call.now ∧ FreshLabel sys call) askServer
      askedOnce := by
    refine ⟨⟨by decide, ?_⟩, ⟨by decide, ?_⟩, trivial⟩
    · intro filename accessType command
      cases command
    · intro filename accessType command eligible room earlier member
      rw [nothing_asked] at member
      cases member
  exact ((viewrequests_shows_decidable rfl fresh (askUser "alice")).1 _).mpr
    (by decide +kernel)

end Dfs.NameServer
