import Dfs.Library.StepRun
import Dfs.NameServer.ClientHandlers

/-!
# Who can grant access

Two handlers send `OP_SS_ADDACCESS`.  `handle_addaccess` compares the user
with the owner in the file record; `handle_approverequest` compares him with
the owner that was copied into the access request when it was filed.  The
copy is never brought up to date.
-/

namespace Dfs.NameServer

open Dfs.StorageServer

/-- The requests sent on the way from one system to a later one. -/
def newlySent (before after : System) : List NmRequest :=
  after.sent.drop before.sent.length

/-- Every grant for a file is sent for the user whom the record of the file
names as its owner. -/
def GrantsByOwner (sys : System) (call : Call) : Prop :=
  ∀ filename username data accessType,
    .addaccess filename username data accessType ∈
      newlySent sys (callStep sys call) →
    ∃ file, findRecord sys.nm.toNameServerState filename = some file ∧
      file.owner = call.username

/-- An approval that goes out has the owner of the file record in its
request. -/
def CopiedOwnerCurrent (sys : System) (call : Call) : Prop :=
  ∀ requestId request file,
    call.command = .approverequest requestId →
    findPending sys opApproverequest requestId call.username = .ok request →
    findRecord sys.nm.toNameServerState request.filename = some file →
    (findStorageServer sys.nm.toNameServerState file.ssId).isSome →
    call.link.Delivers →
    request.owner = file.owner

section

variable {sys after : System} {context : NmContext} {now : Int} {link : Link}
  {filename : Filename} {username : Username}

/-- Nothing was sent, or only this request. -/
def SendsOnly (before after : System) (request : NmRequest) : Prop :=
  after.sent = before.sent ∨ after.sent = before.sent ++ [request]

@[simp] theorem newlySent_self : newlySent sys sys = [] := by
  simp [newlySent]

theorem mem_newlySent {request sent : NmRequest}
    (only : SendsOnly sys after request)
    (member : sent ∈ newlySent sys after) : sent = request := by
  rcases only with same | more
  · simp [newlySent, same] at member
  · simpa [newlySent, more] using member

theorem sendsOnly_exchange (sys : System) (context : NmContext)
    (server : Nat) (request : NmRequest) (link : Link) :
    SendsOnly sys (sys.exchange context server request link).1 request := by
  cases link with
  | refused => exact .inl rfl
  | broken => exact .inl rfl
  | lost buffer => exact .inr rfl
  | reliable => exact .inr rfl

/-- A handler that only forwards one request sends nothing else. -/
theorem sendsOnly_forward {operation ssId : Int} {request : NmRequest}
    {unanswered : Response → Response}
    {answered : System → Response → System × Response}
    (silent : ∀ sys response, (answered sys response).1.sent = sys.sent) :
    SendsOnly sys (sys.forward context link operation ssId request unanswered
      answered).1 request := by
  unfold System.forward
  split
  · exact .inl rfl
  · rename_i server online
    have only := sendsOnly_exchange sys context server request link
    split
    · rename_i exchanged
      rwa [exchanged] at only
    · rename_i exchanged
      rwa [exchanged] at only
    · rename_i exchanged
      rwa [exchanged] at only
    · rename_i t response exchanged
      rw [exchanged] at only
      simpa only [SendsOnly, silent] using only

theorem silent_unlessError {failed : Response → Response}
    {succeeded : System → System × Response}
    (silent : ∀ sys, (succeeded sys).1.sent = sys.sent) (sys : System)
    (response : Response) :
    (unlessError failed succeeded sys response).1.sent = sys.sent := by
  unfold unlessError
  split
  · rfl
  · exact silent sys

theorem sendsOnly_handleCreateFile :
    SendsOnly sys (handleCreateFile sys context now link filename username).1
      (.createFile filename username) := by
  unfold handleCreateFile
  simp only
  split
  · exact .inl rfl
  · split
    · exact .inl rfl
    · split
      · exact .inl rfl
      · split
        · exact .inl rfl
        · rename_i server found
          cases link with
          | refused => exact .inl rfl
          | broken => exact .inl rfl
          | lost buffer => exact .inr rfl
          | reliable =>
              simp only [System.exchange]
              split
              · exact .inr rfl
              · exact .inr rfl

theorem sendsOnly_handleDeleteFile :
    SendsOnly sys (handleDeleteFile sys context link filename username).1
      (.deleteFile filename username) := by
  unfold handleDeleteFile
  split
  · exact .inl rfl
  · split
    · exact .inl rfl
    · simp only
      split
      · exact .inl rfl
      · rename_i server found
        cases link with
        | refused => exact .inl rfl
        | broken => exact .inl rfl
        | lost buffer => exact .inr rfl
        | reliable =>
            simp only [System.exchange]
            split
            · exact .inr rfl
            · exact .inr rfl

theorem sendsOnly_handleCreatefolder :
    SendsOnly sys (handleCreatefolder sys context now link filename
      username).1 (.createfolder filename username) := by
  unfold handleCreatefolder
  simp only
  split
  · exact .inl rfl
  · split
    · exact .inl rfl
    · exact sendsOnly_forward (silent_unlessError fun _ => rfl)

theorem sendsOnly_handleMoveFile (targetPath : PathText) :
    SendsOnly sys (handleMoveFile sys context link filename targetPath
      username).1 (.move filename targetPath username) := by
  unfold handleMoveFile
  split
  · exact .inl rfl
  · split
    · exact .inl rfl
    · exact sendsOnly_forward (silent_unlessError fun _ => rfl)

theorem sendsOnly_handleCheckpoint (tag : Filename) :
    SendsOnly sys (handleCheckpoint sys context link filename tag username).1
      (.checkpoint filename tag username) := by
  unfold handleCheckpoint
  split
  · exact .inl rfl
  · exact sendsOnly_forward (silent_unlessError fun _ => rfl)

theorem sendsOnly_handleViewcheckpoint (tag : Filename) :
    SendsOnly sys (handleViewcheckpoint sys context link filename tag
      username).1 (.viewcheckpoint filename tag username) := by
  unfold handleViewcheckpoint
  split
  · exact .inl rfl
  · exact sendsOnly_forward fun _ _ => rfl

theorem sendsOnly_handleRevert (tag : Filename) :
    SendsOnly sys (handleRevert sys context link filename tag username).1
      (.revert filename tag username) := by
  unfold handleRevert
  split
  · exact .inl rfl
  · split
    · exact .inl rfl
    · exact sendsOnly_forward (silent_unlessError fun _ => rfl)

/-- A grant by ADDACCESS is for the file it names, and only its owner gets
that far. -/
theorem owner_of_handleAddaccess {data : DataText} {accessType : Int}
    {sent : NmRequest}
    (member : sent ∈ newlySent sys (handleAddaccess sys context link filename
      username data accessType).1) :
    sent = .addaccess filename username data accessType ∧
      ∃ file, findRecord sys.nm.toNameServerState filename = some file ∧
        file.owner = username := by
  unfold handleAddaccess at member
  split at member
  · simp at member
  · rename_i file found
    split at member
    · simp at member
    · rename_i owner
      refine ⟨?_, file, found, not_not.mp owner⟩
      simp only at member
      split at member
      · simp at member
      · rename_i server located
        apply mem_newlySent _ member
        have only := sendsOnly_exchange sys context server
          (.addaccess filename username data accessType) link
        split
        · exact .inl rfl
        · rename_i exchanged
          rwa [exchanged] at only
        · rename_i exchanged
          rwa [exchanged] at only
        · rename_i exchanged
          rwa [exchanged] at only

theorem newlySent_handleRequestaccess (accessType : Int) :
    newlySent sys (handleRequestaccess sys now filename username
      accessType).1 = [] := by
  unfold handleRequestaccess
  split
  · exact newlySent_self
  · split
    · exact newlySent_self
    · split
      · exact newlySent_self
      · split
        · exact newlySent_self
        · simp [newlySent]

theorem newlySent_handleRejectrequest (requestId : Filename) :
    newlySent sys (handleRejectrequest sys requestId username).1 = [] := by
  unfold handleRejectrequest
  split
  · exact newlySent_self
  · simp [newlySent, System.setStatus]

theorem owner_of_findPending {operation : Int} {requestId : Filename}
    {request : AccessRequest}
    (pending : findPending sys operation requestId username = .ok request) :
    request.owner = username := by
  unfold findPending at pending
  split at pending
  · cases pending
  · split at pending
    · cases pending
    · rename_i owner
      split at pending
      · cases pending
      · cases pending
        exact not_not.mp owner

/-- An approval sends one grant when the file, its server and the connection
are there. -/
theorem mem_newlySent_handleApproverequest {requestId : Filename}
    {sent : NmRequest} :
    sent ∈ newlySent sys (handleApproverequest sys context link requestId
        username).1 ↔
      ∃ request file,
        findPending sys opApproverequest requestId username = .ok request ∧
        findRecord sys.nm.toNameServerState request.filename = some file ∧
        (findStorageServer sys.nm.toNameServerState file.ssId).isSome ∧
        link.Delivers ∧
        sent = .addaccess request.filename username
          (CString.copy 4095 request.requester.chars) request.accessType := by
  unfold handleApproverequest
  cases pending : findPending sys opApproverequest requestId username with
  | error response => simp
  | ok request =>
      have index : (sys.setStatus requestId .approved).nm.toNameServerState =
          sys.nm.toNameServerState := rfl
      simp only [index]
      cases found : findRecord sys.nm.toNameServerState request.filename with
      | none => simp [newlySent, System.setStatus, found]
      | some file =>
          simp only
          cases located : findStorageServer sys.nm.toNameServerState
              file.ssId with
          | none => simp [newlySent, System.setStatus, found, located]
          | some server =>
              cases link with
              | refused =>
                  simp [newlySent, System.setStatus, System.exchange,
                    Link.Delivers]
              | broken =>
                  simp [newlySent, System.setStatus, System.exchange,
                    Link.Delivers]
              | lost buffer =>
                  simp [newlySent, System.setStatus, System.exchange,
                    System.deliver, Link.Delivers, found, located]
              | reliable =>
                  simp [newlySent, System.setStatus, System.exchange,
                    System.deliver, Link.Delivers, found, located]

end

/-- A request other than these two sends no grant. -/
theorem grantsByOwner_iff_of_sendsOnly {sys : System} {call : Call}
    {request : NmRequest} (only : SendsOnly sys (callStep sys call) request)
    (other : ∀ filename username data accessType,
      request ≠ .addaccess filename username data accessType)
    (unapproving : ∀ requestId, call.command ≠ .approverequest requestId) :
    GrantsByOwner sys call ↔ CopiedOwnerCurrent sys call := by
  refine iff_of_true ?_ ?_
  · intro filename username data accessType member
    exact (other _ _ _ _ (mem_newlySent only member).symm).elim
  · intro requestId request file approval
    exact (unapproving requestId approval).elim

/-- One step grants on behalf of the owner exactly when the copied owner is
current. -/
theorem grantsByOwner_iff (sys : System) (call : Call) :
    GrantsByOwner sys call ↔ CopiedOwnerCurrent sys call := by
  obtain ⟨context, now, link, username, command⟩ := call
  cases command with
  | approverequest requestId =>
      simp only [GrantsByOwner, CopiedOwnerCurrent, callStep,
        handleConnection, mem_newlySent_handleApproverequest]
      constructor
      · rintro owned _ request file ⟨⟩ pending found located delivers
        obtain ⟨record, again, owner⟩ := owned _ _ _ _
          ⟨request, file, pending, found, located, delivers, rfl⟩
        cases found.symm.trans again
        exact (owner_of_findPending pending).trans owner.symm
      · rintro current filename _ _ _ ⟨request, file, pending, found, located,
          delivers, same⟩
        cases same
        exact ⟨file, found, (current requestId request file rfl pending found
          located delivers).symm.trans (owner_of_findPending pending)⟩
  | addaccess filename data accessType =>
      refine iff_of_true ?_ (by simp [CopiedOwnerCurrent])
      intro granted _ _ _ member
      obtain ⟨same, owned⟩ := owner_of_handleAddaccess member
      cases same
      exact owned
  | requestaccess filename accessType =>
      simp [GrantsByOwner, CopiedOwnerCurrent, callStep, handleConnection,
        newlySent_handleRequestaccess]
  | rejectrequest requestId =>
      simp [GrantsByOwner, CopiedOwnerCurrent, callStep, handleConnection,
        newlySent_handleRejectrequest]
  | create filename =>
      exact grantsByOwner_iff_of_sendsOnly sendsOnly_handleCreateFile
        (by simp) (by simp)
  | delete filename =>
      exact grantsByOwner_iff_of_sendsOnly sendsOnly_handleDeleteFile
        (by simp) (by simp)
  | createfolder filename =>
      exact grantsByOwner_iff_of_sendsOnly sendsOnly_handleCreatefolder
        (by simp) (by simp)
  | move filename targetPath =>
      exact grantsByOwner_iff_of_sendsOnly
        (sendsOnly_handleMoveFile targetPath) (by simp) (by simp)
  | checkpoint filename tag =>
      exact grantsByOwner_iff_of_sendsOnly (sendsOnly_handleCheckpoint tag)
        (by simp) (by simp)
  | viewcheckpoint filename tag =>
      exact grantsByOwner_iff_of_sendsOnly
        (sendsOnly_handleViewcheckpoint tag) (by simp) (by simp)
  | revert filename tag =>
      exact grantsByOwner_iff_of_sendsOnly (sendsOnly_handleRevert tag)
        (by simp) (by simp)

/-- In a run every grant is on behalf of the current owner exactly when every
approval that goes out has him in its request. -/
theorem grants_by_owner_iff (start : System) (calls : List Call) :
    StepRun.AllSteps callStep GrantsByOwner start calls ↔
      StepRun.AllSteps callStep CopiedOwnerCurrent start calls :=
  StepRun.allSteps_congr grantsByOwner_iff start calls

private def grantFile : Filename := CString.copy 255 "f".toList

private def grantUser (text : String) : Username :=
  CString.copy 63 text.toList

private def grantCall (user : String) (command : Command) : Call :=
  { context :=
      { now := CString.copy 63 []
        leftover := newMetadata (CString.copy 255 []) (CString.copy 63 [])
          (CString.copy 63 []) }
    now := 0
    link := .reliable
    username := grantUser user
    command := command }

private def oneServer : System :=
  (initSystem freshHosts).register 0
    ⟨1, CString.copy 15 [], 0, 0, CString.copy 4095 []⟩

/-- `bob` asks `alice` for her file; she deletes it and `carol` creates a file
of the same name. -/
private def ownerChanges : List Call :=
  [grantCall "alice" (.create grantFile),
    grantCall "bob" (.requestaccess grantFile accessRead),
    grantCall "alice" (.delete grantFile),
    grantCall "carol" (.create grantFile)]

private def lateApproval : Call :=
  grantCall "alice" (.approverequest
    (accessRequestId grantFile (grantUser "bob") 0))

/-- `alice` approves after that and gives `bob` access to the file of
`carol`. -/
theorem former_owner_grants :
    ¬StepRun.AllSteps callStep GrantsByOwner oneServer
      (ownerChanges ++ [lateApproval]) := by
  intro owned
  obtain ⟨-, last, -⟩ := (StepRun.allSteps_append _ _ _).mp owned
  obtain ⟨file, found, owner⟩ := last grantFile (grantUser "alice")
    (CString.copy 4095 "bob".toList) accessRead (by decide +kernel)
  have current : (findRecord (StepRun.run callStep oneServer
      ownerChanges).nm.toNameServerState grantFile).map (·.owner) =
        some (grantUser "carol") := by
    decide +kernel
  rw [found, Option.map_some, owner] at current
  exact absurd current (by decide)

end Dfs.NameServer
