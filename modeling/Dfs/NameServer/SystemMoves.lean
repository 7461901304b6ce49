import Dfs.NameServer.RequestSteps

/-!
# The moves of the name server's requests

Whatever a request does, whole or step by step, it does in a few moves: a
storage server handles a message, a server is chosen for a new file, records
are added, removed and renamed, and the cache and the table of access requests
are written.  A reflexive and transitive relation that every move respects is
respected by all requests.
-/

namespace Dfs.NameServer

open Dfs.StorageServer

def System.setRequests (sys : System) (requests : List AccessRequest) :
    System :=
  { sys with nm := { sys.nm with accessRequests := requests } }

/-- `get_available_storage_server` was called. -/
def System.choose (sys : System) : System :=
  { sys with nm := (getAvailableStorageServer sys.nm).1 }

/-- The moves that leave the table of access requests alone. -/
structure FileMoves (related : System → System → Prop) : Prop where
  refl : ∀ sys, related sys sys
  trans : ∀ {first second third}, related first second →
    related second third → related first third
  deliver : ∀ sys context server request,
    related sys (sys.deliver context server request)
  choose : ∀ sys, related sys sys.choose
  addFile : ∀ sys now ssId filename owner,
    related sys (sys.addFile now ssId filename owner).1
  removeFile : ∀ sys ssId filename, related sys (sys.removeFile ssId filename)
  moveRecord : ∀ sys filename targetPath,
    related sys (sys.moveRecord filename targetPath)
  setCache : ∀ sys cache, related sys (sys.setCache cache)

structure SystemMoves (related : System → System → Prop) : Prop extends
    FileMoves related where
  setRequests : ∀ sys requests, related sys (sys.setRequests requests)

/-- The command asks for access or decides a request for it. -/
def Command.onRequests : Command → Bool
  | .requestaccess _ _ => true
  | .approverequest _ => true
  | .rejectrequest _ => true
  | _ => false

theorem Command.onRequests_cases {command : Command}
    (kind : command.onRequests = true) :
    (∃ filename accessType, command = .requestaccess filename accessType) ∨
      (∃ requestId, command = .approverequest requestId) ∨
      ∃ requestId, command = .rejectrequest requestId := by
  cases command with
  | requestaccess filename accessType =>
      exact .inl ⟨filename, accessType, rfl⟩
  | approverequest requestId => exact .inr (.inl ⟨requestId, rfl⟩)
  | rejectrequest requestId => exact .inr (.inr ⟨requestId, rfl⟩)
  | create filename => cases kind
  | delete filename => cases kind
  | addaccess filename data accessType => cases kind
  | createfolder filename => cases kind
  | move filename targetPath => cases kind
  | checkpoint filename tag => cases kind
  | viewcheckpoint filename tag => cases kind
  | revert filename tag => cases kind

namespace FileMoves

variable {related : System → System → Prop} (moves : FileMoves related)
  (sys : System) (context : NmContext) (now : Int) (link : Link)
  (filename : Filename) (username : Username)

include moves

theorem exchange (server : Nat) (request : NmRequest) :
    related sys (sys.exchange context server request link).1 := by
  cases link with
  | refused => exact moves.refl sys
  | broken => exact moves.refl sys
  | lost buffer => exact moves.deliver sys context server request
  | reliable => exact moves.deliver sys context server request

theorem forward {operation ssId : Int} {request : NmRequest}
    {unanswered : Response → Response}
    {answered : System → Response → System × Response}
    (continues : ∀ sys response, related sys (answered sys response).1) :
    related sys (sys.forward context link operation ssId request unanswered
      answered).1 := by
  unfold System.forward
  split
  · exact moves.refl sys
  · rename_i server online
    have exchanged := moves.exchange sys context link server request
    generalize sys.exchange context server request link = result
      at exchanged ⊢
    obtain ⟨after, reply⟩ := result
    cases reply with
    | unconnected => exact exchanged
    | unsent => exact exchanged
    | unanswered buffer => exact exchanged
    | answered response =>
        exact moves.trans exchanged (continues after response)

theorem unlessError {failed : Response → Response}
    {succeeded : System → System × Response}
    (continues : ∀ sys, related sys (succeeded sys).1) (sys : System)
    (response : Response) :
    related sys (NameServer.unlessError failed succeeded sys response).1 := by
  unfold NameServer.unlessError
  split
  · exact moves.refl sys
  · exact continues sys

theorem handleCreateFile :
    related sys (handleCreateFile sys context now link filename
      username).1 := by
  unfold NameServer.handleCreateFile
  split
  · exact moves.refl sys
  · have chosen := moves.choose sys
    unfold System.choose at chosen
    generalize getAvailableStorageServer sys.nm = choice at chosen ⊢
    obtain ⟨nm, ssId⟩ := choice
    simp only at chosen ⊢
    split
    · exact chosen
    · have added := moves.addFile { sys with nm := nm } now ssId filename
        username
      generalize ({ sys with nm := nm } : System).addFile now ssId filename
        username = addition at added ⊢
      obtain ⟨listed, result⟩ := addition
      have reached := moves.trans chosen added
      simp only at reached ⊢
      split
      · exact reached
      · split
        · exact moves.trans reached (moves.removeFile listed ssId filename)
        · rename_i server location
          have exchanged := moves.trans reached (moves.exchange listed context
            link server (.createFile filename username))
          generalize listed.exchange context server
            (.createFile filename username) link = outcome at exchanged ⊢
          obtain ⟨after, reply⟩ := outcome
          cases reply with
          | unconnected =>
              exact moves.trans reached
                (moves.removeFile listed ssId filename)
          | unsent =>
              exact moves.trans exchanged
                (moves.removeFile after ssId filename)
          | unanswered buffer =>
              exact moves.trans exchanged
                (moves.removeFile after ssId filename)
          | answered response =>
              simp only
              split
              · exact exchanged
              · exact moves.trans exchanged
                  (moves.removeFile after ssId filename)

theorem handleDeleteFile :
    related sys (handleDeleteFile sys context link filename username).1 := by
  unfold NameServer.handleDeleteFile
  split
  · exact moves.refl sys
  · rename_i file found
    split
    · exact moves.refl sys
    · simp only
      split
      · exact moves.refl sys
      · rename_i server location
        have exchanged := moves.exchange sys context link server
          (.deleteFile filename username)
        generalize sys.exchange context server (.deleteFile filename username)
          link = outcome at exchanged ⊢
        obtain ⟨after, reply⟩ := outcome
        cases reply with
        | unconnected => exact moves.refl sys
        | unsent => exact exchanged
        | unanswered buffer => exact exchanged
        | answered response =>
            simp only
            split
            · apply moves.trans exchanged
              apply moves.trans (moves.removeFile after file.ssId filename)
              exact moves.setCache _ _
            · exact exchanged

theorem handleAddaccess (data : DataText) (accessType : Int) :
    related sys (handleAddaccess sys context link filename username data
      accessType).1 := by
  unfold NameServer.handleAddaccess
  simp only
  split
  · exact moves.refl sys
  · split
    · exact moves.refl sys
    · split
      · exact moves.refl sys
      · rename_i server location
        have exchanged := moves.exchange sys context link server
          (.addaccess filename username data accessType)
        generalize sys.exchange context server
          (.addaccess filename username data accessType) link = outcome
          at exchanged ⊢
        obtain ⟨after, reply⟩ := outcome
        cases reply with
        | unconnected => exact moves.refl sys
        | unsent => exact exchanged
        | unanswered buffer => exact exchanged
        | answered response => exact exchanged

theorem handleCreatefolder :
    related sys (handleCreatefolder sys context now link filename
      username).1 := by
  unfold NameServer.handleCreatefolder
  split
  · exact moves.refl sys
  · have chosen := moves.choose sys
    unfold System.choose at chosen
    generalize getAvailableStorageServer sys.nm = choice at chosen ⊢
    obtain ⟨nm, ssId⟩ := choice
    simp only at chosen ⊢
    split
    · exact chosen
    · apply moves.trans chosen
      apply moves.forward
      exact moves.unlessError fun after =>
        moves.addFile after now ssId filename username

theorem handleMoveFile (targetPath : PathText) :
    related sys (handleMoveFile sys context link filename targetPath
      username).1 := by
  unfold NameServer.handleMoveFile
  split
  · exact moves.refl sys
  · split
    · exact moves.refl sys
    · apply moves.forward
      exact moves.unlessError fun after =>
        moves.moveRecord after filename targetPath

theorem handleCheckpoint (tag : Filename) :
    related sys (handleCheckpoint sys context link filename tag
      username).1 := by
  unfold NameServer.handleCheckpoint
  split
  · exact moves.refl sys
  · apply moves.forward
    exact moves.unlessError moves.refl

theorem handleRevert (tag : Filename) :
    related sys (handleRevert sys context link filename tag username).1 := by
  unfold NameServer.handleRevert
  split
  · exact moves.refl sys
  · split
    · exact moves.refl sys
    · apply moves.forward
      exact moves.unlessError moves.refl

theorem handleViewcheckpoint (tag : Filename) :
    related sys (handleViewcheckpoint sys context link filename tag
      username).1 := by
  unfold NameServer.handleViewcheckpoint
  split
  · exact moves.refl sys
  · apply moves.forward
    exact fun after _ => moves.refl after

theorem callStep {call : Call} (other : call.command.onRequests = false) :
    related sys (callStep sys call) := by
  obtain ⟨context, now, link, username, command⟩ := call
  unfold NameServer.callStep handleConnection
  cases command with
  | create filename =>
      exact moves.handleCreateFile sys context now link filename username
  | delete filename =>
      exact moves.handleDeleteFile sys context link filename username
  | addaccess filename data accessType =>
      exact moves.handleAddaccess sys context link filename username data
        accessType
  | requestaccess filename accessType => cases other
  | approverequest requestId => cases other
  | rejectrequest requestId => cases other
  | createfolder filename =>
      exact moves.handleCreatefolder sys context now link filename username
  | move filename targetPath =>
      exact moves.handleMoveFile sys context link filename username targetPath
  | checkpoint filename tag =>
      exact moves.handleCheckpoint sys context link filename username tag
  | viewcheckpoint filename tag =>
      exact moves.handleViewcheckpoint sys context link filename username tag
  | revert filename tag =>
      exact moves.handleRevert sys context link filename username tag

theorem createStep (input : StepInput) (phase : CreatePhase) :
    related sys (createStep sys filename username input phase).1 := by
  cases phase with
  | start =>
      simp only [NameServer.createStep]
      split
      · exact moves.refl sys
      · exact moves.refl sys
  | checked => exact moves.choose sys
  | chosen ssId =>
      exact moves.addFile sys input.now ssId filename username
  | registered ssId =>
      simp only [NameServer.createStep]
      split
      · exact moves.refl sys
      · exact moves.exchange sys input.context input.link _ _
  | failed ssId response => exact moves.removeFile sys ssId filename
  | answered response => exact moves.refl sys

theorem deleteStep (input : StepInput) (phase : DeletePhase) :
    related sys (deleteStep sys filename username input phase).1 := by
  cases phase with
  | start =>
      simp only [NameServer.deleteStep]
      split
      · exact moves.refl sys
      · exact moves.refl sys
  | found file =>
      simp only [NameServer.deleteStep]
      split
      · exact moves.refl sys
      · exact moves.refl sys
  | owned ssId =>
      simp only [NameServer.deleteStep]
      split
      · exact moves.refl sys
      · rename_i server location
        have exchanged := moves.exchange sys input.context input.link server
          (.deleteFile filename username)
        generalize sys.exchange input.context server
          (.deleteFile filename username) input.link = outcome at exchanged ⊢
        obtain ⟨after, reply⟩ := outcome
        cases reply with
        | unconnected => exact exchanged
        | unsent => exact exchanged
        | unanswered buffer => exact exchanged
        | answered response => exact exchanged
  | deleted ssId response => exact moves.removeFile sys ssId filename
  | removed response => exact moves.setCache sys _
  | answered response => exact moves.refl sys

theorem lookupStep (input : StepInput) (phase : LookupPhase) :
    related sys (lookupStep sys filename input phase).1 := by
  cases phase with
  | start => exact moves.setCache sys _
  | missed =>
      simp only [NameServer.lookupStep]
      split
      · exact moves.refl sys
      · exact moves.refl sys
  | found file => exact moves.setCache sys _
  | cached file => exact moves.refl sys
  | answered response => exact moves.refl sys

theorem taskStep (input : StepInput) (task : Task) :
    related sys (taskStep sys input task).1 := by
  cases task with
  | create filename username phase =>
      exact moves.createStep sys filename username input phase
  | delete filename username phase =>
      exact moves.deleteStep sys filename username input phase
  | getSsInfo filename phase =>
      exact moves.lookupStep sys filename input phase

end FileMoves

namespace SystemMoves

variable {related : System → System → Prop} (moves : SystemMoves related)
  (sys : System) (context : NmContext) (now : Int) (link : Link)
  (filename : Filename) (username : Username)

include moves

theorem handleRequestaccess (accessType : Int) :
    related sys (handleRequestaccess sys now filename username
      accessType).1 := by
  unfold NameServer.handleRequestaccess
  split
  · exact moves.refl sys
  · split
    · exact moves.refl sys
    · split
      · exact moves.refl sys
      · split
        · exact moves.refl sys
        · exact moves.setRequests sys _

theorem handleApproverequest (requestId : Filename) :
    related sys (handleApproverequest sys context link requestId
      username).1 := by
  unfold NameServer.handleApproverequest
  split
  · exact moves.refl sys
  · rename_i request found
    have marked : related sys (sys.setStatus requestId .approved) :=
      moves.setRequests sys _
    simp only
    split
    · exact marked
    · split
      · exact marked
      · exact moves.trans marked (moves.toFileMoves.exchange _ context link _ _)

theorem handleRejectrequest (requestId : Filename) :
    related sys (handleRejectrequest sys requestId username).1 := by
  unfold NameServer.handleRejectrequest
  split
  · exact moves.refl sys
  · exact moves.setRequests sys _

theorem callStep (call : Call) : related sys (callStep sys call) := by
  cases kind : call.command.onRequests with
  | false => exact moves.toFileMoves.callStep sys kind
  | true =>
      obtain ⟨context, now, link, username, command⟩ := call
      rcases @Command.onRequests_cases command kind with
        ⟨filename, accessType, rfl⟩ | ⟨requestId, rfl⟩ | ⟨requestId, rfl⟩
      · exact moves.handleRequestaccess sys now filename username accessType
      · exact moves.handleApproverequest sys context link username requestId
      · exact moves.handleRejectrequest sys username requestId

end SystemMoves

end Dfs.NameServer
