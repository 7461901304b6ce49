import Dfs.NameServer.ClientHandlers
import Dfs.StorageServer.Acknowledgements

/-!
# Failures of the storage server, as the client sees them

`handle_nm_connection` answers every request with `MSG_ACK` and puts the
failure into `error_code`, while the handlers of folders and checkpoints test
for `MSG_ERROR`.  A failure of the storage server therefore ends as a success,
and only a lost answer is reported.
-/

namespace Dfs.NameServer

open Dfs.StorageServer

inductive ForwardedRequest where
  | createfolder (filename : Filename) (username : Username)
  | move (filename : Filename) (targetPath : PathText) (username : Username)
  | checkpoint (filename tag : Filename) (username : Username)
  | revert (filename tag : Filename) (username : Username)
  deriving DecidableEq, Repr

namespace ForwardedRequest

/-- What is sent to the storage server. -/
def nmRequest : ForwardedRequest → NmRequest
  | .createfolder filename username => .createfolder filename username
  | .move filename targetPath username => .move filename targetPath username
  | .checkpoint filename tag username => .checkpoint filename tag username
  | .revert filename tag username => .revert filename tag username

def handle (sys : System) (context : NmContext) (now : Int) (link : Link) :
    ForwardedRequest → System × Response
  | .createfolder filename username =>
      handleCreatefolder sys context now link filename username
  | .move filename targetPath username =>
      handleMoveFile sys context link filename targetPath username
  | .checkpoint filename tag username =>
      handleCheckpoint sys context link filename tag username
  | .revert filename tag username =>
      handleRevert sys context link filename tag username

/-- The storage server that the checks of the handler let the request
through to. -/
def reached (sys : System) : ForwardedRequest → Option Nat
  | .createfolder filename _ =>
      if (findFile sys.nm.toNameServerState filename).isSome then none
      else if (getAvailableStorageServer sys.nm).2 < 0 then none
      else onlineServer (getAvailableStorageServer sys.nm).1.toNameServerState
        (getAvailableStorageServer sys.nm).2
  | .move filename _ username =>
      (findRecord sys.nm.toNameServerState filename).bind fun file =>
        if file.owner ≠ username then none
        else onlineServer sys.nm.toNameServerState file.ssId
  | .checkpoint filename _ _ =>
      (findRecord sys.nm.toNameServerState filename).bind fun file =>
        onlineServer sys.nm.toNameServerState file.ssId
  | .revert filename _ username =>
      (findRecord sys.nm.toNameServerState filename).bind fun file =>
        if file.owner ≠ username then none
        else onlineServer sys.nm.toNameServerState file.ssId

/-- The storage server can carry the request out.  The folder of the
checkpoints is made first. -/
def Succeeds (s : FileHandler) : ForwardedRequest → Prop
  | .createfolder filename _ =>
      (s.disk.mkdir (getFilePath s.storage filename)).toBool = true
  | .move filename targetPath _ =>
      s.disk.PathExists (getFilePath s.storage filename) ∧
        s.disk.PathExists
          (s.storage.path (moveFolder s.storage targetPath)) ∧
        (s.disk.rename (getFilePath s.storage filename)
          (s.storage.path
            (moveTarget s.storage filename targetPath))).toBool = true
  | .checkpoint filename tag _ =>
      (s.disk.tryMkdir (checkpointDir s.storage)).PathExists
          (getFilePath s.storage filename) ∧
        ((s.disk.tryMkdir (checkpointDir s.storage)).target
          (checkpointPath s.storage filename tag)).isSome
  | .revert filename tag _ =>
      s.disk.PathExists (checkpointPath s.storage filename tag) ∧
        (s.disk.target (getFilePath s.storage filename)).isSome

/-- The code that the client gets when the answer is lost; for MOVE it is read
from the buffer. -/
def lostCode (buffer : Response) : ForwardedRequest → Int
  | .move _ _ _ => buffer.errorCode
  | _ => errServerError

end ForwardedRequest

/-- File lists, file index and location cache are the same. -/
structure SameRecords (before after : System) : Prop where
  files : after.nm.toNameServerState = before.nm.toNameServerState
  cache : after.nm.searchCache = before.nm.searchCache

/-- Unless the storage server answered with success, the client is told of a
failure and the records are kept. -/
def ReportsFailure (before after : System) (response client : Response) :
    Prop :=
  response.errorCode ≠ errSuccess →
    client.errorCode ≠ errSuccess ∧ SameRecords before after

/-- The storage server succeeds, or its answer is lost and not taken for a
success. -/
def ForwardedRequest.Straight (s : FileHandler) (request : ForwardedRequest) :
    Link → Prop
  | .lost buffer =>
      request.lostCode buffer = errSuccess → request.Succeeds s
  | _ => request.Succeeds s

section

variable {sys : System} {context : NmContext} {now : Int} {link : Link}
  {request : ForwardedRequest} {server : Nat}

theorem succeeds_iff (s : FileHandler) :
    (handleNmConnection context s request.nmRequest).2.errorCode =
        errSuccess ↔ request.Succeeds s := by
  cases request with
  | createfolder filename username =>
      exact nmCreatefolder_success_iff username context.now
  | move filename targetPath username => exact nmMove_success_iff targetPath
  | checkpoint filename tag username => exact nmCheckpoint_success_iff tag
  | revert filename tag username =>
      exact nmRevert_success_iff tag context.now

/-- Every answer is an acknowledgement. -/
theorem msgType_answer (s : FileHandler) :
    (handleNmConnection context s request.nmRequest).2.msgType = msgAck := by
  cases request with
  | createfolder filename username =>
      simp only [ForwardedRequest.nmRequest, handleNmConnection,
        nmCreatefolder]
      split <;> rfl
  | move filename targetPath username =>
      simp only [ForwardedRequest.nmRequest, handleNmConnection, nmMove]
      split
      · rfl
      · split
        · rfl
        · split <;> rfl
  | checkpoint filename tag username =>
      simp only [ForwardedRequest.nmRequest, handleNmConnection,
        nmCheckpoint]
      split
      · rfl
      · split <;> rfl
  | revert filename tag username =>
      simp only [ForwardedRequest.nmRequest, handleNmConnection, nmRevert]
      split
      · rfl
      · split <;> rfl

theorem forward_of_lost {operation ssId : Int} {nmRequest : NmRequest}
    {unanswered : Response → Response}
    {answered : System → Response → System × Response} {buffer : Response}
    (online : onlineServer sys.nm.toNameServerState ssId = some server) :
    sys.forward context (.lost buffer) operation ssId nmRequest unanswered
        answered =
      (sys.deliver context server nmRequest, unanswered buffer) := by
  simp [System.forward, online, System.exchange]

/-- An answer of the storage server is taken for a success. -/
theorem forward_of_reliable {operation ssId : Int}
    {failed : Response → Response}
    {succeeded : System → System × Response}
    (online : onlineServer sys.nm.toNameServerState ssId = some server) :
    sys.forward context .reliable operation ssId request.nmRequest failed
        (unlessError failed succeeded) =
      succeeded (sys.deliver context server request.nmRequest) := by
  have acknowledged := @msgType_answer context request (sys.stores server)
  have different : msgAck ≠ msgError := by decide
  simp [System.forward, online, System.exchange, unlessError, acknowledged,
    different]

theorem getAvailableStorageServer_records (nm : NmState) :
    (getAvailableStorageServer nm).1.toNameServerState =
        nm.toNameServerState ∧
      (getAvailableStorageServer nm).1.searchCache = nm.searchCache := by
  unfold getAvailableStorageServer
  simp only
  split
  · exact ⟨rfl, rfl⟩
  · split
    · exact ⟨rfl, rfl⟩
    · exact ⟨rfl, rfl⟩

/-- The request is forwarded from `base`, which has the records of `sys`: a
failure is told with `lostCode`, anything else is a success. -/
structure ForwardedAs (sys : System) (context : NmContext) (now : Int)
    (request : ForwardedRequest) (server : Nat) (base : System)
    (operation ssId : Int) (failed : Response → Response)
    (succeeded : System → System × Response) : Prop where
  same : SameRecords sys base
  online : onlineServer base.nm.toNameServerState ssId = some server
  handled : ∀ link, request.handle sys context now link =
    base.forward context link operation ssId request.nmRequest failed
      (unlessError failed succeeded)
  code : ∀ buffer, (failed buffer).errorCode = request.lostCode buffer
  succeeds : ∀ after, (succeeded after).2.errorCode = errSuccess

theorem forwarded_createfolder (context : NmContext) (now : Int)
    {filename : Filename} {username : Username}
    (reached : (ForwardedRequest.createfolder filename username).reached sys =
      some server) :
    ∃ base ssId failed succeeded,
      ForwardedAs sys context now (.createfolder filename username) server
        base opCreatefolder ssId failed succeeded := by
  obtain ⟨files, cache⟩ := getAvailableStorageServer_records sys.nm
  simp only [ForwardedRequest.reached] at reached
  split at reached
  · cases reached
  · rename_i fresh
    split at reached
    · cases reached
    · rename_i found
      refine ⟨{ sys with nm := (getAvailableStorageServer sys.nm).1 },
        (getAvailableStorageServer sys.nm).2,
        fun _ => errorResponse opCreatefolder errServerError
          "Storage server failed to create folder".toList,
        fun after => ((after.addFile now
          (getAvailableStorageServer sys.nm).2 filename username).1,
          success opCreatefolder "Folder created successfully".toList),
        ⟨files, cache⟩, reached, ?_, fun _ => rfl, fun _ => rfl⟩
      intro link
      simp only [ForwardedRequest.handle, handleCreatefolder, fresh, found,
        ↓reduceIte, Bool.false_eq_true]
      rfl

theorem forwarded_move (context : NmContext) (now : Int)
    {filename : Filename} {targetPath : PathText} {username : Username}
    (reached : (ForwardedRequest.move filename targetPath username).reached
      sys = some server) :
    ∃ ssId failed succeeded,
      ForwardedAs sys context now (.move filename targetPath username) server
        sys opMove ssId failed succeeded := by
  obtain ⟨file, record, found⟩ := Option.bind_eq_some_iff.mp reached
  split at found
  · cases found
  · rename_i owner
    refine ⟨file.ssId,
      fun response => errorResponse opMove response.errorCode response.data,
      fun after => (after.moveRecord filename targetPath,
        success opMove "File moved successfully".toList),
      ⟨rfl, rfl⟩, found, ?_, fun _ => rfl, fun _ => rfl⟩
    intro link
    simp only [ForwardedRequest.handle, handleMoveFile, record, owner,
      ↓reduceIte]
    rfl

theorem forwarded_checkpoint (context : NmContext) (now : Int)
    {filename tag : Filename} {username : Username}
    (reached : (ForwardedRequest.checkpoint filename tag username).reached
      sys = some server) :
    ∃ ssId failed succeeded,
      ForwardedAs sys context now (.checkpoint filename tag username) server
        sys opCheckpoint ssId failed succeeded := by
  obtain ⟨file, record, found⟩ := Option.bind_eq_some_iff.mp reached
  refine ⟨file.ssId,
    fun _ => errorResponse opCheckpoint errServerError
      "Storage server failed to create checkpoint".toList,
    fun after => (after, success opCheckpoint
      "Checkpoint created successfully".toList),
    ⟨rfl, rfl⟩, found, ?_, fun _ => rfl, fun _ => rfl⟩
  intro link
  simp only [ForwardedRequest.handle, handleCheckpoint, record]
  rfl

theorem forwarded_revert (context : NmContext) (now : Int)
    {filename tag : Filename} {username : Username}
    (reached : (ForwardedRequest.revert filename tag username).reached sys =
      some server) :
    ∃ ssId failed succeeded,
      ForwardedAs sys context now (.revert filename tag username) server
        sys opRevert ssId failed succeeded := by
  obtain ⟨file, record, found⟩ := Option.bind_eq_some_iff.mp reached
  split at found
  · cases found
  · rename_i owner
    refine ⟨file.ssId,
      fun _ => errorResponse opRevert errServerError
        "Storage server failed to revert file".toList,
      fun after => (after, success opRevert
        "File reverted successfully".toList),
      ⟨rfl, rfl⟩, found, ?_, fun _ => rfl, fun _ => rfl⟩
    intro link
    simp only [ForwardedRequest.handle, handleRevert, record, owner,
      ↓reduceIte]
    rfl

/-- A request that passes the checks is forwarded. -/
theorem handle_of_reached (context : NmContext) (now : Int)
    (reached : request.reached sys = some server) :
    ∃ base operation ssId failed succeeded,
      ForwardedAs sys context now request server base operation ssId failed
        succeeded := by
  cases request with
  | createfolder filename username =>
      obtain ⟨base, forwarded⟩ := forwarded_createfolder context now reached
      exact ⟨base, opCreatefolder, forwarded⟩
  | move filename targetPath username =>
      exact ⟨sys, opMove, forwarded_move context now reached⟩
  | checkpoint filename tag username =>
      exact ⟨sys, opCheckpoint, forwarded_checkpoint context now reached⟩
  | revert filename tag username =>
      exact ⟨sys, opRevert, forwarded_revert context now reached⟩

end

/-- A request that reaches the storage server is answered as that server
answered it exactly when it succeeded there, or when its answer was lost and
the client got an error code. -/
theorem storage_failure_reported_iff (sys : System) (context : NmContext)
    (now : Int) (link : Link) (request : ForwardedRequest) (server : Nat)
    (reached : request.reached sys = some server)
    (delivered : link.Delivers) :
    ReportsFailure sys (request.handle sys context now link).1
        (handleNmConnection context (sys.stores server)
          request.nmRequest).2
        (request.handle sys context now link).2 ↔
      request.Straight (sys.stores server) link := by
  obtain ⟨base, operation, ssId, failed, succeeded, forwarded⟩ :=
    handle_of_reached context now reached
  have carried := @succeeds_iff context request (sys.stores server)
  rw [forwarded.handled link]
  unfold ReportsFailure
  cases link with
  | refused => exact delivered.elim
  | broken => exact delivered.elim
  | lost buffer =>
      rw [forward_of_lost forwarded.online]
      simp only [forwarded.code, ForwardedRequest.Straight]
      constructor
      · intro reports success
        by_contra failure
        exact (reports (fun answered => failure (carried.mp answered))).1
          success
      · intro straight unanswered
        exact ⟨fun success => unanswered (carried.mpr (straight success)),
          forwarded.same.files, forwarded.same.cache⟩
  | reliable =>
      rw [forward_of_reliable forwarded.online]
      simp only [forwarded.succeeds, ForwardedRequest.Straight]
      constructor
      · intro reports
        by_contra failure
        exact (reports (fun answered => failure (carried.mp answered))).1 rfl
      · intro success failure
        exact (failure (carried.mpr success)).elim

private def idleContext : NmContext :=
  { now := CString.copy 63 []
    leftover := newMetadata (CString.copy 255 []) (CString.copy 63 [])
      (CString.copy 63 []) }

private def folderName (text : String) : Filename :=
  CString.copy 255 text.toList

private def folderOwner : Username := CString.copy 63 "alice".toList

/-- One storage server, with one file of `alice`. -/
private def oneFile : System :=
  (handleCreateFile
    ((initSystem freshHosts).register 0
      ⟨1, CString.copy 15 [], 0, 0, CString.copy 4095 []⟩)
    idleContext 0 .reliable (folderName "f") folderOwner).1

/-- A new folder is created on both servers. -/
theorem storage_failure_reported_new_folder :
    (ForwardedRequest.createfolder (folderName "d") folderOwner).reached
        oneFile = some 0 ∧
      Link.reliable.Delivers ∧
      ReportsFailure oneFile
        ((ForwardedRequest.createfolder (folderName "d") folderOwner).handle
          oneFile idleContext 0 .reliable).1
        (handleNmConnection idleContext (oneFile.stores 0)
          (ForwardedRequest.createfolder (folderName "d")
            folderOwner).nmRequest).2
        ((ForwardedRequest.createfolder (folderName "d") folderOwner).handle
          oneFile idleContext 0 .reliable).2 := by
  have reached : (ForwardedRequest.createfolder (folderName "d")
      folderOwner).reached oneFile = some 0 := by
    decide +kernel
  have created : (ForwardedRequest.createfolder (folderName "d")
      folderOwner).Straight (oneFile.stores 0) .reliable := by
    simp only [ForwardedRequest.Straight, ForwardedRequest.Succeeds]
    decide +kernel
  exact ⟨reached, trivial,
    (storage_failure_reported_iff oneFile idleContext 0 .reliable _ 0 reached
      trivial).mpr created⟩

/-- REVERT to a tag that was never saved fails at the storage server, and the
client reads that the file was reverted. -/
theorem missing_checkpoint_reported_as_success :
    (ForwardedRequest.revert (folderName "f") (folderName "t")
        folderOwner).reached oneFile = some 0 ∧
      ¬ReportsFailure oneFile
        ((ForwardedRequest.revert (folderName "f") (folderName "t")
          folderOwner).handle oneFile idleContext 0 .reliable).1
        (handleNmConnection idleContext (oneFile.stores 0)
          (ForwardedRequest.revert (folderName "f") (folderName "t")
            folderOwner).nmRequest).2
        ((ForwardedRequest.revert (folderName "f") (folderName "t")
          folderOwner).handle oneFile idleContext 0 .reliable).2 := by
  refine ⟨by decide +kernel, fun reports => ?_⟩
  have failed : (handleNmConnection idleContext (oneFile.stores 0)
      (ForwardedRequest.revert (folderName "f") (folderName "t")
        folderOwner).nmRequest).2.errorCode ≠ errSuccess := by
    decide +kernel
  exact (reports failed).1 (by decide +kernel)

end Dfs.NameServer
