import Dfs.NameServer.Grants
import Dfs.NameServer.QueryHandlers
import Dfs.NameServer.SystemMoves
import Dfs.StorageServer.RecordRights

/-!
# Runs of the whole system

Everything that changes a server: the requests of clients at the name server,
their requests at the client ports of the storage servers, and registrations
of storage servers.  Along every run the rights on a file change only with a
request of the file's owner, as the name server knows it, or with the approval
of an access request by the user that it was addressed to.
-/

namespace Dfs.NameServer

open Dfs.StorageServer

inductive SystemEvent where
  | call (call : Call)
  | remaccess (context : NmContext) (link : Link) (filename : Filename)
      (username : Username) (data : DataText)
  | locate (now : Int) (filename : Filename)
  | info (context : NmContext) (link : Link) (filename : Filename)
      (username : Username)
  | listcheckpoints (context : NmContext) (link : Link) (filename : Filename)
      (username : Username)
  | register (now : Int) (msg : RegisterMessage)
  | direct (server : Nat) (username : Username) (now : TimeText)
      (request : ClientRequest)

/-- A client talks to the storage server. -/
def System.serve (sys : System) (server : Nat) (username : Username)
    (now : TimeText) (request : ClientRequest) : System :=
  { sys with
    stores := Function.update sys.stores server
      (handleClientConnection (sys.stores server) username now request).1 }

def systemStep (sys : System) : SystemEvent → System
  | .call call => callStep sys call
  | .remaccess context link filename username data =>
      (handleRemaccess sys context link filename username data).1
  | .locate now filename => (handleGetSsInfo sys now filename).1
  | .info context link filename username =>
      (handleInfoRequest sys context link filename username).1
  | .listcheckpoints context link filename username =>
      (handleListcheckpoints sys context link filename username).1
  | .register now msg => sys.register now msg
  | .direct server username now request =>
      sys.serve server username now request

/-- The user is the owner in the record of the name server. -/
def Owns (sys : System) (username : Username) (filename : Filename) : Prop :=
  ∃ file, findRecord sys.nm.toNameServerState filename = some file ∧
    file.owner = username

theorem Owns.recorded {sys : System} {username : Username}
    {filename : Filename} (owner : Owns sys username filename) :
    (findRecord sys.nm.toNameServerState filename).map (·.owner) =
      some username := by
  obtain ⟨file, record, rfl⟩ := owner
  rw [record, Option.map_some]

/-- What an event may send to a storage server, and the check that the name
server makes before. -/
inductive Sends (sys : System) : SystemEvent → NmRequest → Prop where
  | createFile {call : Call} {filename : Filename}
      (command : call.command = .create filename)
      (unknown : findFile sys.nm.toNameServerState filename = none) :
      Sends sys (.call call) (.createFile filename call.username)
  | createfolder {call : Call} {filename : Filename}
      (command : call.command = .createfolder filename)
      (unknown : findFile sys.nm.toNameServerState filename = none) :
      Sends sys (.call call) (.createfolder filename call.username)
  | deleteFile {call : Call} {filename : Filename}
      (command : call.command = .delete filename)
      (owner : Owns sys call.username filename) :
      Sends sys (.call call) (.deleteFile filename call.username)
  | addaccess {call : Call} {filename : Filename} {data : DataText}
      {accessType : Int}
      (command : call.command = .addaccess filename data accessType)
      (owner : Owns sys call.username filename) :
      Sends sys (.call call)
        (.addaccess filename call.username data accessType)
  | approved {call : Call} {request : AccessRequest} {data : DataText}
      (command : call.command = .approverequest request.requestId)
      (pending : findPending sys opApproverequest request.requestId
        call.username = .ok request) :
      Sends sys (.call call)
        (.addaccess request.filename call.username data request.accessType)
  | move {call : Call} {filename : Filename} {targetPath : PathText}
      (command : call.command = .move filename targetPath)
      (owner : Owns sys call.username filename) :
      Sends sys (.call call) (.move filename targetPath call.username)
  | checkpoint {call : Call} {filename tag : Filename}
      (command : call.command = .checkpoint filename tag) :
      Sends sys (.call call) (.checkpoint filename tag call.username)
  | viewcheckpoint {call : Call} {filename tag : Filename}
      (command : call.command = .viewcheckpoint filename tag) :
      Sends sys (.call call) (.viewcheckpoint filename tag call.username)
  | revert {call : Call} {filename tag : Filename}
      (command : call.command = .revert filename tag)
      (owner : Owns sys call.username filename) :
      Sends sys (.call call) (.revert filename tag call.username)
  | remaccess {context : NmContext} {link : Link} {filename : Filename}
      {username : Username} {data : DataText}
      (owner : Owns sys username filename) :
      Sends sys (.remaccess context link filename username data)
        (.remaccess filename username data)
  | info {context : NmContext} {link : Link} {filename : Filename}
      {username : Username} :
      Sends sys (.info context link filename username)
        (.info filename username)
  | listcheckpoints {context : NmContext} {link : Link}
      {filename : Filename} {username : Username} :
      Sends sys (.listcheckpoints context link filename username)
        (.listcheckpoints filename username)

section

variable {sys : System} {context : NmContext} {now : Int} {link : Link}
  {filename target : Filename} {username : Username} {sent : NmRequest}

theorem unknown_of_handleCreateFile
    (member : sent ∈ newlySent sys
      (handleCreateFile sys context now link target username).1) :
    sent = .createFile target username ∧
      findFile sys.nm.toNameServerState target = none := by
  refine ⟨mem_newlySent sendsOnly_handleCreateFile member, ?_⟩
  by_contra known
  rw [handleCreateFile, if_pos (Option.isSome_iff_ne_none.mpr known),
    newlySent_self] at member
  cases member

theorem unknown_of_handleCreatefolder
    (member : sent ∈ newlySent sys
      (handleCreatefolder sys context now link target username).1) :
    sent = .createfolder target username ∧
      findFile sys.nm.toNameServerState target = none := by
  refine ⟨mem_newlySent sendsOnly_handleCreatefolder member, ?_⟩
  by_contra known
  rw [handleCreatefolder, if_pos (Option.isSome_iff_ne_none.mpr known),
    newlySent_self] at member
  cases member

/-- A handler that sends nothing to a user who does not own the file. -/
theorem owns_of_sent {after : System}
    (unknown : findRecord sys.nm.toNameServerState target = none →
      after = sys)
    (denied : ∀ file,
      findRecord sys.nm.toNameServerState target = some file →
        file.owner ≠ username → after = sys)
    (member : sent ∈ newlySent sys after) : Owns sys username target := by
  cases record : findRecord sys.nm.toNameServerState target with
  | none =>
      rw [unknown record, newlySent_self] at member
      cases member
  | some file =>
      by_cases owner : file.owner = username
      · exact ⟨file, record, owner⟩
      · rw [denied file record owner, newlySent_self] at member
        cases member

theorem owner_of_handleDeleteFile
    (member : sent ∈ newlySent sys
      (handleDeleteFile sys context link target username).1) :
    sent = .deleteFile target username ∧ Owns sys username target := by
  refine ⟨mem_newlySent sendsOnly_handleDeleteFile member, ?_⟩
  apply owns_of_sent _ _ member
  · intro record
    simp [handleDeleteFile, record]
  · intro file record other
    simp [handleDeleteFile, record, other]

theorem owner_of_handleMoveFile {targetPath : PathText}
    (member : sent ∈ newlySent sys
      (handleMoveFile sys context link target targetPath username).1) :
    sent = .move target targetPath username ∧ Owns sys username target := by
  refine ⟨mem_newlySent (sendsOnly_handleMoveFile targetPath) member, ?_⟩
  apply owns_of_sent _ _ member
  · intro record
    simp [handleMoveFile, record]
  · intro file record other
    simp [handleMoveFile, record, other]

theorem owner_of_handleRevert {tag : Filename}
    (member : sent ∈ newlySent sys
      (handleRevert sys context link target tag username).1) :
    sent = .revert target tag username ∧ Owns sys username target := by
  refine ⟨mem_newlySent (sendsOnly_handleRevert tag) member, ?_⟩
  apply owns_of_sent _ _ member
  · intro record
    simp [handleRevert, record]
  · intro file record other
    simp [handleRevert, record, other]

theorem owner_of_handleRemaccess {data : DataText}
    (member : sent ∈ newlySent sys
      (handleRemaccess sys context link target username data).1) :
    sent = .remaccess target username data ∧ Owns sys username target := by
  have only : SendsOnly sys
      (handleRemaccess sys context link target username data).1
      (.remaccess target username data) :=
    @related_handleRemaccess
      (SendsOnly · · (.remaccess target username data)) sys context link
      target username data (.inl rfl) fun server =>
        sendsOnly_exchange sys context server _ link
  refine ⟨mem_newlySent only member, ?_⟩
  apply owns_of_sent _ _ member
  · intro record
    simp [handleRemaccess, record]
  · intro file record other
    simp [handleRemaccess, record, other]

theorem sendsOnly_handleInfoRequest :
    SendsOnly sys (handleInfoRequest sys context link target username).1
      (.info target username) :=
  @related_handleInfoRequest (SendsOnly · · (.info target username)) sys
    context link target username (.inl rfl) fun server =>
      sendsOnly_exchange sys context server _ link

theorem sendsOnly_handleListcheckpoints :
    SendsOnly sys (handleListcheckpoints sys context link target username).1
      (.listcheckpoints target username) :=
  @related_handleListcheckpoints
    (SendsOnly · · (.listcheckpoints target username)) sys context link
    target username (.inl rfl) fun server =>
      sendsOnly_exchange sys context server _ link

theorem sends_of_callStep {call : Call}
    (member : sent ∈ newlySent sys (callStep sys call)) :
    Sends sys (.call call) sent := by
  obtain ⟨context, now, link, username, command⟩ := call
  cases command with
  | create target =>
      obtain ⟨rfl, unknown⟩ := unknown_of_handleCreateFile member
      exact .createFile rfl unknown
  | createfolder target =>
      obtain ⟨rfl, unknown⟩ := unknown_of_handleCreatefolder member
      exact .createfolder rfl unknown
  | delete target =>
      obtain ⟨rfl, owner⟩ := owner_of_handleDeleteFile member
      exact .deleteFile rfl owner
  | addaccess target data accessType =>
      obtain ⟨rfl, owner⟩ := owner_of_handleAddaccess member
      exact .addaccess rfl owner
  | approverequest requestId =>
      obtain ⟨request, file, pending, record, located, delivers, rfl⟩ :=
        mem_newlySent_handleApproverequest.mp member
      have named : request.requestId = requestId := by
        obtain ⟨⟨index, addressed⟩, -, -⟩ := findPending_eq_ok_iff.mp pending
        exact addressed.2.1
      subst named
      exact .approved rfl pending
  | requestaccess target accessType =>
      have none := @newlySent_handleRequestaccess sys now target username
        accessType
      rw [callStep, handleConnection, none] at member
      cases member
  | rejectrequest requestId =>
      have none := @newlySent_handleRejectrequest sys username requestId
      rw [callStep, handleConnection, none] at member
      cases member
  | move target targetPath =>
      obtain ⟨rfl, owner⟩ := owner_of_handleMoveFile member
      exact .move rfl owner
  | checkpoint target tag =>
      cases mem_newlySent (sendsOnly_handleCheckpoint tag) member
      exact .checkpoint rfl
  | viewcheckpoint target tag =>
      cases mem_newlySent (sendsOnly_handleViewcheckpoint tag) member
      exact .viewcheckpoint rfl
  | revert target tag =>
      obtain ⟨rfl, owner⟩ := owner_of_handleRevert member
      exact .revert rfl owner

theorem locate_eq (target : Filename) :
    (handleGetSsInfo sys now target).1.sent = sys.sent ∧
      (handleGetSsInfo sys now target).1.stores = sys.stores := by
  simp only [handleGetSsInfo, lookupLocation]
  split
  · exact ⟨rfl, rfl⟩
  · split
    · exact ⟨rfl, rfl⟩
    · exact ⟨rfl, rfl⟩

/-- Every message to a storage server is sent after the check for it. -/
theorem sends_of_systemStep {event : SystemEvent}
    (member : sent ∈ newlySent sys (systemStep sys event)) :
    Sends sys event sent := by
  cases event with
  | call call => exact sends_of_callStep member
  | remaccess context link target username data =>
      obtain ⟨rfl, owner⟩ := owner_of_handleRemaccess member
      exact .remaccess owner
  | info context link target username =>
      cases mem_newlySent sendsOnly_handleInfoRequest member
      exact .info
  | listcheckpoints context link target username =>
      cases mem_newlySent sendsOnly_handleListcheckpoints member
      exact .listcheckpoints
  | locate now target =>
      rw [systemStep, newlySent, (locate_eq target).1, List.drop_length]
        at member
      cases member
  | register now msg =>
      have silent : (sys.register now msg).sent = sys.sent := rfl
      rw [systemStep, newlySent, silent, List.drop_length] at member
      cases member
  | direct server username now request =>
      have silent : (sys.serve server username now request).sent =
        sys.sent := rfl
      rw [systemStep, newlySent, silent, List.drop_length] at member
      cases member

end

/-- Something seen of a storage server, and the requests that may set it. -/
structure Watch (ω : Type) where
  view : FileHandler → ω
  Sets : NmRequest → ω → Prop
  kept : ∀ context s request, ¬ Sets request (view s) →
    view (handleNmConnection context s request).1 = view s

section

variable {ω : Type} {watch : Watch ω} {sys before middle after : System}
  {context : NmContext} {event : SystemEvent}

/-- What is seen is kept unless a request that may set it was sent. -/
def Watch.BySent (watch : Watch ω) (before after : System) : Prop :=
  ∃ requests, after.sent = before.sent ++ requests ∧
    ∀ server,
      (∀ request ∈ requests,
        ¬ watch.Sets request (watch.view (before.stores server))) →
      watch.view (after.stores server) = watch.view (before.stores server)

theorem Watch.BySent.silent (sent : after.sent = before.sent)
    (stores : after.stores = before.stores) : watch.BySent before after :=
  ⟨[], by rw [sent, List.append_nil], fun _ _ => by rw [stores]⟩

theorem Watch.BySent.trans (first : watch.BySent before middle)
    (second : watch.BySent middle after) : watch.BySent before after := by
  obtain ⟨early, sentEarly, keptEarly⟩ := first
  obtain ⟨late, sentLate, keptLate⟩ := second
  refine ⟨early ++ late, by rw [sentLate, sentEarly, List.append_assoc], ?_⟩
  intro server others
  have kept := keptEarly server fun request member =>
    others request (List.mem_append_left late member)
  rw [← kept]
  apply keptLate
  intro request member
  rw [kept]
  exact others request (List.mem_append_right early member)

theorem Watch.bySent_deliver (server : Nat) (request : NmRequest) :
    watch.BySent sys (sys.deliver context server request) := by
  refine ⟨[request], rfl, fun other others => ?_⟩
  by_cases here : other = server
  · subst here
    simp only [System.deliver, Function.update_self]
    exact watch.kept context _ request (others request (by simp))
  · simp only [System.deliver, Function.update_of_ne here]

theorem Watch.moves (watch : Watch ω) : SystemMoves watch.BySent where
  refl := fun _ => .silent rfl rfl
  trans := .trans
  deliver := fun _ _ server request => bySent_deliver server request
  choose := fun _ => .silent rfl rfl
  addFile := fun _ _ _ _ _ => .silent rfl rfl
  removeFile := fun _ _ _ => .silent rfl rfl
  moveRecord := fun _ _ _ => .silent rfl rfl
  setCache := fun _ _ => .silent rfl rfl
  setRequests := fun _ _ => .silent rfl rfl

/-- If what is seen changed, a request that may set it was sent. -/
theorem Watch.BySent.exists_sent (kept : watch.BySent sys after)
    {server : Nat}
    (changed : watch.view (after.stores server) ≠
      watch.view (sys.stores server)) :
    ∃ request ∈ newlySent sys after,
      watch.Sets request (watch.view (sys.stores server)) := by
  obtain ⟨requests, sent, kept⟩ := kept
  by_contra others
  apply changed
  apply kept
  intro request member sets
  apply others
  exact ⟨request, by simpa [newlySent, sent] using member, sets⟩

/-- One event changes what is seen of a storage server only by a request that
the name server checked, or at the client port. -/
theorem Watch.sends_of_changed {server : Nat}
    (changed : watch.view ((systemStep sys event).stores server) ≠
      watch.view (sys.stores server)) :
    (∃ request, Sends sys event request ∧
        watch.Sets request (watch.view (sys.stores server))) ∨
      ∃ username now request,
        event = .direct server username now request ∧
          watch.view (handleClientConnection (sys.stores server) username now
            request).1 ≠ watch.view (sys.stores server) := by
  have moves := watch.moves.toFileMoves
  have asked : ∀ after, after = systemStep sys event →
      watch.BySent sys after → ∃ request, Sends sys event request ∧
        watch.Sets request (watch.view (sys.stores server)) := by
    rintro after rfl bySent
    obtain ⟨request, member, sets⟩ := bySent.exists_sent changed
    exact ⟨request, sends_of_systemStep member, sets⟩
  cases event with
  | call call => exact .inl (asked _ rfl (watch.moves.callStep sys call))
  | remaccess context link target username data =>
      refine .inl (asked _ rfl (related_handleRemaccess (moves.refl sys) ?_))
      exact fun place => moves.exchange sys context link place _
  | locate now target =>
      obtain ⟨sent, stores⟩ := @locate_eq sys now target
      exact .inl (asked _ rfl (.silent sent stores))
  | info context link target username =>
      refine .inl (asked _ rfl (related_handleInfoRequest (moves.refl sys) ?_))
      exact fun place => moves.exchange sys context link place _
  | listcheckpoints context link target username =>
      refine .inl (asked _ rfl
        (related_handleListcheckpoints (moves.refl sys) ?_))
      exact fun place => moves.exchange sys context link place _
  | register now msg => exact (changed rfl).elim
  | direct place username now request =>
      right
      simp only [systemStep, System.serve] at changed
      by_cases here : server = place
      · subst here
        rw [Function.update_self] at changed
        exact ⟨username, now, request, rfl, changed⟩
      · rw [Function.update_of_ne here] at changed
        exact (changed rfl).elim

end

/-- The requests that may change the rights on a file. -/
inductive ChangesRights (sys : System) (server : Nat) (filename : Filename) :
    SystemEvent → Prop where
  | creates {call : Call}
      (command : call.command = .create filename ∨
        call.command = .createfolder filename)
      (unknown : findFile sys.nm.toNameServerState filename = none)
      (new : rightsOf (sys.stores server) filename = none) :
      ChangesRights sys server filename (.call call)
  | deletes {call : Call} (command : call.command = .delete filename)
      (owner : Owns sys call.username filename) :
      ChangesRights sys server filename (.call call)
  | grants {call : Call} {data : DataText} {accessType : Int}
      (command : call.command = .addaccess filename data accessType)
      (owner : Owns sys call.username filename) :
      ChangesRights sys server filename (.call call)
  | approves {call : Call} {request : AccessRequest}
      (command : call.command = .approverequest request.requestId)
      (pending : findPending sys opApproverequest request.requestId
        call.username = .ok request)
      (about : request.filename = filename) :
      ChangesRights sys server filename (.call call)
  | removes {context : NmContext} {link : Link} {username : Username}
      {data : DataText} (owner : Owns sys username filename) :
      ChangesRights sys server filename
        (.remaccess context link filename username data)

def rightsWatch (filename : Filename) :
    Watch (Option (Filename × Username × DataText)) where
  view := fun s => rightsOf s filename
  Sets := fun request rights => request.SetsRights filename rights
  kept := fun _ _ _ others => rightsOf_handleNmConnection others

section

variable {sys : System} {filename : Filename} {server : Nat}
  {event : SystemEvent}

/-- A request that may set the rights is sent for who may. -/
theorem changesRights_of_sends {request : NmRequest}
    (sends : Sends sys event request)
    (sets : request.SetsRights filename
      (rightsOf (sys.stores server) filename)) :
    ChangesRights sys server filename event := by
  cases sends with
  | createFile command unknown =>
      obtain ⟨rfl, new⟩ := sets
      exact .creates (.inl command) unknown new
  | createfolder command unknown =>
      obtain ⟨rfl, new⟩ := sets
      exact .creates (.inr command) unknown new
  | deleteFile command owner =>
      cases sets
      exact .deletes command owner
  | addaccess command owner =>
      cases sets
      exact .grants command owner
  | approved command pending => exact .approves command pending sets
  | move command owner => exact sets.elim
  | checkpoint command => exact sets.elim
  | viewcheckpoint command => exact sets.elim
  | revert command owner => exact sets.elim
  | remaccess owner =>
      cases sets
      exact .removes owner
  | info => exact sets.elim
  | listcheckpoints => exact sets.elim

/-- One event changes the rights on a file only if it may. -/
theorem changesRights_of_changed
    (changed : rightsOf ((systemStep sys event).stores server) filename ≠
      rightsOf (sys.stores server) filename) :
    ChangesRights sys server filename event := by
  rcases (rightsWatch filename).sends_of_changed changed with
    ⟨request, sends, sets⟩ | ⟨username, now, request, rfl, served⟩
  · exact changesRights_of_sends sends sets
  · refine (served ?_).elim
    exact (sameRights_handleClientConnection now request).rightsOf filename

end

/-- Along every run of the whole system, with any number of storage servers
and however the connections to them end, the rights on a file stay as they are
as long as no event may change them. -/
theorem rights_kept {start : System} {events : List SystemEvent}
    {server : Nat} {filename : Filename}
    (others : StepRun.AllSteps systemStep
      (fun sys event => ¬ ChangesRights sys server filename event) start
      events) :
    rightsOf ((StepRun.run systemStep start events).stores server) filename =
      rightsOf (start.stores server) filename := by
  apply StepRun.kept (fun sys : System =>
    rightsOf (sys.stores server) filename) _ others
  intro sys event other
  by_contra changed
  exact other (changesRights_of_changed changed)

/-- `bob` tries to give himself access to the file of `alice`, to delete it
and to take back her last change. -/
private def trespasses : List SystemEvent :=
  [.call (askCall "bob" 1 (.addaccess askFile
      (CString.copy 4095 "bob".toList) accessRead)),
    .call (askCall "bob" 2 (.delete askFile)),
    .direct 0 (askUser "bob") (CString.copy 63 []) (.undo askFile)]

private def aliceFile : System :=
  callStep askServer (askCall "alice" 0 (.create askFile))

theorem rights_kept_from_intruder :
    rightsOf ((StepRun.run systemStep aliceFile trespasses).stores 0) askFile =
      rightsOf (aliceFile.stores 0) askFile := by
  apply rights_kept
  refine ⟨?_, ?_, ?_, trivial⟩
  · intro changes
    cases changes with
    | creates command => simp [askCall] at command
    | deletes command => cases command
    | grants command owner => exact absurd owner.recorded (by decide +kernel)
    | approves command => cases command
  · intro changes
    cases changes with
    | creates command => simp [askCall] at command
    | deletes command owner => exact absurd owner.recorded (by decide +kernel)
    | grants command => cases command
    | approves command => cases command
  · intro changes
    cases changes

end Dfs.NameServer
