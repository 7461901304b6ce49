import Dfs.NameServer.AccessRequests
import Dfs.NameServer.Grants
import Mathlib.Data.List.Nodup

/-!
# Access requests step by step

REQUESTACCESS, APPROVEREQUEST and REJECTREQUEST cut where one critical section
ends and the next begins.  An approval marks its entry in one step and grants
the access in later ones, while other threads go on.  Whatever the order of
the steps, an entry is decided once, by its owner, and granted at most once.
-/

namespace Dfs.NameServer

open Dfs.StorageServer

/-- What a step finds besides the system.  The clock is read twice, and the
two texts lie behind the copies of a file name and of a user name that a
handler makes on its stack. -/
structure RequestInput where
  context : NmContext
  idTime : Int
  requestTime : Int
  link : Link
  behindFilename : Text
  behindRequester : Text
  deriving DecidableEq, Repr

/-- `strncpy` of at most `count` bytes into a longer array that holds other
bytes: a string that takes all of them is not terminated. -/
def localCopy (count : Nat) (text behind : Text) : Text :=
  if text.length < count then text else text ++ CText.terminated behind

/-- `find_file` for a text that may be longer than any file name. -/
def findFileNamed (nm : NameServerState) (name : Text) : Option FilePtr :=
  if name.length < maxFilename then findFile nm (CString.copy 255 name)
  else none

inductive RequestaccessPhase where
  | start
  | found (file : FilePtr)
  | permitted (file : FilePtr)
  | stored (file : FilePtr) (index : Nat)
  | answered (response : Response)
  deriving DecidableEq, Repr

def requestaccessError (errorCode : Int) (data : Text) : RequestaccessPhase :=
  .answered (errorResponse opRequestaccess errorCode data)

/-- The owner is read through the pointer before the critical section, in it
and after it. -/
def requestaccessStep (sys : System) (filename : Filename)
    (username : Username) (accessType : Int) (input : RequestInput) :
    RequestaccessPhase → System × RequestaccessPhase
  | .start =>
      match findFile sys.nm.toNameServerState filename with
      | none =>
          (sys, requestaccessError errFileNotFound "File not found".toList)
      | some file => (sys, .found file)
  | .found file =>
      if (readFile sys.nm.toNameServerState file).owner = username then
        (sys, requestaccessError errInvalidOperation
          "You already own this file".toList)
      else (sys, .permitted file)
  | .permitted file =>
      if sys.nm.accessRequests.length ≥ maxAccessRequests then
        (sys, requestaccessError errServerError
          "Too many pending requests".toList)
      else if sys.nm.accessRequests.any fun request =>
          request.filename = filename && request.requester = username &&
            request.status = .pending then
        (sys, requestaccessError errInvalidOperation
          "You already have a pending request for this file".toList)
      else
        let request : AccessRequest :=
          { requestId := accessRequestId filename username input.idTime
            filename := filename
            requester := username
            owner := (readFile sys.nm.toNameServerState file).owner
            accessType := accessType
            requestTime := input.requestTime
            status := .pending }
        (sys.setRequests (sys.nm.accessRequests ++ [request]),
          .stored file sys.nm.accessRequests.length)
  | .stored file index =>
      let requestId := (sys.nm.accessRequests[index]?.map fun request =>
        request.requestId.chars).getD []
      (sys, .answered ⟨msgResponse, opRequestaccess, errSuccess,
        "Access request sent to owner '".toList ++
          (readFile sys.nm.toNameServerState file).owner.chars ++
          "'. Request ID: ".toList ++ requestId⟩)
  | .answered response => (sys, .answered response)

/-- `index` is where the approved entry stands; the handler goes on with its
copy of the entry. -/
inductive ApprovePhase where
  | start
  | marked (index : Nat) (request : AccessRequest)
  | found (index : Nat) (request : AccessRequest) (file : FilePtr)
  | placed (index : Nat) (request : AccessRequest) (ssId : Int)
  | located (index : Nat) (request : AccessRequest) (server : Nat)
  | granted (request : AccessRequest)
  | answered (response : Response)
  deriving DecidableEq, Repr

/-- The message of a granted request. -/
def grantMessage (request : AccessRequest) (username : Username) : NmRequest :=
  .addaccess request.filename username
    (CString.copy 4095 request.requester.chars) request.accessType

def approveStep (sys : System) (requestId : Filename) (username : Username)
    (input : RequestInput) : ApprovePhase → System × ApprovePhase
  | .start =>
      match findPending sys opApproverequest requestId username with
      | .error response => (sys, .answered response)
      | .ok request =>
          (sys.setStatus requestId .approved,
            .marked (sys.nm.accessRequests.findIdx fun request =>
              request.requestId = requestId) request)
  | .marked index request =>
      match findFileNamed sys.nm.toNameServerState
          (localCopy 255 request.filename.chars input.behindFilename) with
      | none => (sys, .granted request)
      | some file => (sys, .found index request file)
  | .found index request file =>
      (sys, .placed index request
        (readFile sys.nm.toNameServerState file).ssId)
  | .placed index request ssId =>
      match findStorageServer sys.nm.toNameServerState ssId with
      | none => (sys, .granted request)
      | some server => (sys, .located index request server)
  | .located _ request server =>
      ((sys.exchange input.context server (grantMessage request username)
        input.link).1, .granted request)
  | .granted request =>
      (sys, .answered ⟨msgResponse, opApproverequest, errSuccess,
        "Request approved. Access granted to '".toList ++
          localCopy 63 request.requester.chars input.behindRequester ++
          "' for file '".toList ++
          localCopy 255 request.filename.chars input.behindFilename ++
          "'".toList⟩)
  | .answered response => (sys, .answered response)

inductive RejectPhase where
  | start
  | rejected (request : AccessRequest)
  | answered (response : Response)
  deriving DecidableEq, Repr

def rejectStep (sys : System) (requestId : Filename) (username : Username)
    (input : RequestInput) : RejectPhase → System × RejectPhase
  | .start =>
      match findPending sys opRejectrequest requestId username with
      | .error response => (sys, .answered response)
      | .ok request => (sys.setStatus requestId .rejected, .rejected request)
  | .rejected request =>
      (sys, .answered ⟨msgResponse, opRejectrequest, errSuccess,
        "Request rejected. Access denied to '".toList ++
          localCopy 63 request.requester.chars input.behindRequester ++
          "' for file '".toList ++
          localCopy 255 request.filename.chars input.behindFilename ++
          "'".toList⟩)
  | .answered response => (sys, .answered response)

inductive RequestTask where
  | requestaccess (filename : Filename) (username : Username)
      (accessType : Int) (phase : RequestaccessPhase)
  | approverequest (requestId : Filename) (username : Username)
      (phase : ApprovePhase)
  | rejectrequest (requestId : Filename) (username : Username)
      (phase : RejectPhase)
  deriving DecidableEq, Repr

def requestTaskStep (sys : System) (input : RequestInput) :
    RequestTask → System × RequestTask
  | .requestaccess filename username accessType phase =>
      let (sys, phase) :=
        requestaccessStep sys filename username accessType input phase
      (sys, .requestaccess filename username accessType phase)
  | .approverequest requestId username phase =>
      let (sys, phase) := approveStep sys requestId username input phase
      (sys, .approverequest requestId username phase)
  | .rejectrequest requestId username phase =>
      let (sys, phase) := rejectStep sys requestId username input phase
      (sys, .rejectrequest requestId username phase)

/-- The message that the thread may still send, with the place of the entry
that it grants. -/
def RequestTask.held : RequestTask → Option (Nat × NmRequest)
  | .approverequest _ username (.marked index request) =>
      some (index, grantMessage request username)
  | .approverequest _ username (.found index request _) =>
      some (index, grantMessage request username)
  | .approverequest _ username (.placed index request _) =>
      some (index, grantMessage request username)
  | .approverequest _ username (.located index request _) =>
      some (index, grantMessage request username)
  | _ => none

/-- The name server with a thread for each request.  `grants` lists what the
threads have sent, each message with the place of the entry it was sent
for. -/
structure RequestThreads where
  sys : System
  tasks : Nat → RequestTask
  grants : List (Option Nat × NmRequest)

/-- A thread takes a step, or the other requests change the system, of which
they leave the table of access requests alone. -/
inductive RequestEvent where
  | step (thread : Nat) (input : RequestInput)
  | others (sys : System)

def requestThreadStep (threads : RequestThreads) :
    RequestEvent → RequestThreads
  | .step thread input =>
      let task := threads.tasks thread
      let (sys, next) := requestTaskStep threads.sys input task
      { sys := sys
        tasks := Function.update threads.tasks thread next
        grants := threads.grants ++ (newlySent threads.sys sys).map
          fun message => (task.held.map Prod.fst, message) }
  | .others sys =>
      { threads with sys := sys.setRequests threads.sys.nm.accessRequests }

/-- A request as it arrives. -/
inductive IncomingRequest where
  | requestaccess (filename : Filename) (username : Username)
      (accessType : Int)
  | approverequest (requestId : Filename) (username : Username)
  | rejectrequest (requestId : Filename) (username : Username)
  deriving DecidableEq, Repr

def IncomingRequest.task : IncomingRequest → RequestTask
  | .requestaccess filename username accessType =>
      .requestaccess filename username accessType .start
  | .approverequest requestId username =>
      .approverequest requestId username .start
  | .rejectrequest requestId username =>
      .rejectrequest requestId username .start

/-- The name server at its start, with a request for every thread. -/
def startRequests (hosts : Hosts) (incoming : Nat → IncomingRequest) :
    RequestThreads :=
  { sys := initSystem hosts
    tasks := fun thread => (incoming thread).task
    grants := [] }

section

variable {sys : System} {filename requestId : Filename} {username : Username}
  {accessType : Int} {input : RequestInput}

theorem requestaccessStep_alone (sameTime : input.requestTime = input.idTime) :
    runAlone (fun sys =>
        requestaccessStep sys filename username accessType input) 4 sys
        .start =
      ((handleRequestaccess sys input.idTime filename username accessType).1,
        .answered (handleRequestaccess sys input.idTime filename username
          accessType).2) := by
  cases found : findFile sys.nm.toNameServerState filename with
  | none =>
      simp [runAlone, requestaccessStep, handleRequestaccess, findRecord,
        found, requestaccessError]
  | some file =>
      by_cases owner : (readFile sys.nm.toNameServerState file).owner =
          username
      · simp [runAlone, requestaccessStep, handleRequestaccess, findRecord,
          found, owner, requestaccessError]
      · by_cases room : sys.nm.accessRequests.length ≥ maxAccessRequests
        · simp [runAlone, requestaccessStep, handleRequestaccess, findRecord,
            found, owner, room, requestaccessError]
        · by_cases waiting : (sys.nm.accessRequests.any fun request =>
              request.filename = filename && request.requester = username &&
                request.status = .pending) = true
          · simp only [runAlone, requestaccessStep, handleRequestaccess,
              findRecord, found, owner, room, waiting, requestaccessError,
              Option.map_some, if_true, if_false]
          · simp only [runAlone, requestaccessStep, handleRequestaccess,
              findRecord, found, owner, room, waiting, Option.map_some,
              if_false, Bool.false_eq_true, sameTime, System.setRequests,
              List.getElem?_concat_length, Option.getD_some]

/-- With terminated copies. -/
theorem approveStep_alone (cleanFilename : input.behindFilename = [])
    (cleanRequester : input.behindRequester = []) :
    runAlone (fun sys => approveStep sys requestId username input) 6 sys
        .start =
      ((handleApproverequest sys input.context input.link requestId
        username).1,
        .answered (handleApproverequest sys input.context input.link requestId
          username).2) := by
  have copied : ∀ count text, localCopy count text [] = text := by
    intro count text
    simp [localCopy, CText.terminated]
  have named : ∀ (nm : NameServerState) (name : Filename),
      findFileNamed nm name.chars = findFile nm name := by
    intro nm name
    have short := name.fits
    simp [findFileNamed, maxFilename, show name.chars.length < 256 by omega]
  cases found : findPending sys opApproverequest requestId username with
  | error response =>
      simp [runAlone, approveStep, handleApproverequest, found]
  | ok request =>
      generalize marked : sys.setStatus requestId .approved = after
      cases located : findFile after.nm.toNameServerState
          request.filename with
      | none =>
          simp [runAlone, approveStep, handleApproverequest, found, marked,
            findRecord, located, copied, named, cleanFilename, cleanRequester]
      | some file =>
          cases placed : findStorageServer after.nm.toNameServerState
              (readFile after.nm.toNameServerState file).ssId with
          | none =>
              simp [runAlone, approveStep, handleApproverequest, found,
                marked, findRecord, located, placed, copied, named,
                cleanFilename, cleanRequester]
          | some server =>
              simp [runAlone, approveStep, handleApproverequest, found,
                marked, findRecord, located, placed, copied, named,
                cleanFilename, cleanRequester, grantMessage]

theorem rejectStep_alone (cleanFilename : input.behindFilename = [])
    (cleanRequester : input.behindRequester = []) :
    runAlone (fun sys => rejectStep sys requestId username input) 2 sys
        .start =
      ((handleRejectrequest sys requestId username).1,
        .answered (handleRejectrequest sys requestId username).2) := by
  cases found : findPending sys opRejectrequest requestId username with
  | error response => simp [runAlone, rejectStep, handleRejectrequest, found]
  | ok request =>
      simp [runAlone, rejectStep, handleRejectrequest, found, localCopy,
        CText.terminated, cleanFilename, cleanRequester]

end

/-- The step is its owner's decision about this request. -/
def RequestTask.Decides (task : RequestTask) (request : AccessRequest)
    (status : RequestStatus) : Prop :=
  task = .approverequest request.requestId request.owner .start ∧
      status = .approved ∨
    task = .rejectrequest request.requestId request.owner .start ∧
      status = .rejected

/-- The message grants the approved entry at this place. -/
def Grants (table : List AccessRequest) (index : Nat) (message : NmRequest) :
    Prop :=
  ∃ request, table[index]? = some request ∧ request.status = .approved ∧
    message = grantMessage request request.owner

/-- A step of a thread changes the table and holds nothing new, or approves an
entry, or sends what the thread holds. -/
inductive TaskMove (before after : System) (task next : RequestTask) :
    Prop where
  | table (step : TableStep (fun _ => True) task.Decides
        before.nm.accessRequests after.nm.accessRequests)
      (unsent : newlySent before after = [])
      (held : next.held = none ∨ next.held = task.held)
  | mark (index : Nat) (request : AccessRequest)
      (stored : before.nm.accessRequests[index]? = some request)
      (pending : request.status = .pending)
      (allowed : task.Decides request .approved)
      (marked : after.nm.accessRequests =
        before.nm.accessRequests.set index
          { request with status := .approved })
      (unsent : newlySent before after = [])
      (held : next.held = some (index, grantMessage request request.owner))
  | send (index : Nat) (message : NmRequest)
      (held : task.held = some (index, message))
      (same : after.nm.accessRequests = before.nm.accessRequests)
      (sent : newlySent before after = [] ∨
        newlySent before after = [message])
      (done : next.held = none)

theorem newlySent_exchange (sys : System) (context : NmContext)
    (server : Nat) (request : NmRequest) (link : Link) :
    newlySent sys (sys.exchange context server request link).1 = [] ∨
      newlySent sys (sys.exchange context server request link).1 =
        [request] := by
  rcases sendsOnly_exchange sys context server request link with same | more
  · left
    simp [newlySent, same]
  · right
    simp [newlySent, more]

section

variable (sys : System) (input : RequestInput)

theorem taskMove_requestaccessStep (filename : Filename)
    (username : Username) (accessType : Int) (phase : RequestaccessPhase) :
    TaskMove sys
      (requestaccessStep sys filename username accessType input phase).1
      (.requestaccess filename username accessType phase)
      (.requestaccess filename username accessType
        (requestaccessStep sys filename username accessType input
          phase).2) := by
  cases phase with
  | start =>
      simp only [requestaccessStep]
      split
      · exact .table .keep newlySent_self (.inl rfl)
      · exact .table .keep newlySent_self (.inl rfl)
  | found file =>
      simp only [requestaccessStep]
      split
      · exact .table .keep newlySent_self (.inl rfl)
      · exact .table .keep newlySent_self (.inl rfl)
  | permitted file =>
      simp only [requestaccessStep]
      split
      · exact .table .keep newlySent_self (.inl rfl)
      · rename_i room
        split
        · exact .table .keep newlySent_self (.inl rfl)
        · rename_i fresh
          refine .table ?_ ?_ (.inl rfl)
          · exact .store _ trivial (not_le.mp room) rfl
              (not_awaits_of_any fresh)
          · simp [newlySent, System.setRequests]
  | stored file index => exact .table .keep newlySent_self (.inl rfl)
  | answered response => exact .table .keep newlySent_self (.inl rfl)

theorem taskMove_approveStep (requestId : Filename) (username : Username)
    (phase : ApprovePhase) :
    TaskMove sys (approveStep sys requestId username input phase).1
      (.approverequest requestId username phase)
      (.approverequest requestId username
        (approveStep sys requestId username input phase).2) := by
  cases phase with
  | start =>
      simp only [approveStep]
      cases found : findPending sys opApproverequest requestId username with
      | error response => exact .table .keep newlySent_self (.inl rfl)
      | ok request =>
          obtain ⟨⟨index, addressed⟩, owner, pending⟩ :=
            findPending_eq_ok_iff.mp found
          have marked := accessRequests_setStatus .approved addressed
          have place := addressed.findIdx_eq
          have sameId := addressed.2.1
          subst sameId owner
          refine .mark index request addressed.1 pending (.inl ⟨rfl, rfl⟩)
            marked ?_ ?_
          · simp [newlySent, System.setStatus]
          · simp only [RequestTask.held, place]
  | marked index request =>
      simp only [approveStep]
      split
      · exact .table .keep newlySent_self (.inl rfl)
      · exact .table .keep newlySent_self (.inr rfl)
  | found index request file =>
      exact .table .keep newlySent_self (.inr rfl)
  | placed index request ssId =>
      simp only [approveStep]
      split
      · exact .table .keep newlySent_self (.inl rfl)
      · exact .table .keep newlySent_self (.inr rfl)
  | located index request server =>
      refine .send index (grantMessage request username) rfl ?_
        (newlySent_exchange sys input.context server _ input.link) rfl
      exact congrArg NmState.accessRequests
        (nm_exchange sys input.context server _ input.link)
  | granted request => exact .table .keep newlySent_self (.inl rfl)
  | answered response => exact .table .keep newlySent_self (.inl rfl)

theorem taskMove_rejectStep (requestId : Filename) (username : Username)
    (phase : RejectPhase) :
    TaskMove sys (rejectStep sys requestId username input phase).1
      (.rejectrequest requestId username phase)
      (.rejectrequest requestId username
        (rejectStep sys requestId username input phase).2) := by
  cases phase with
  | start =>
      simp only [rejectStep]
      cases found : findPending sys opRejectrequest requestId username with
      | error response => exact .table .keep newlySent_self (.inl rfl)
      | ok request =>
          refine .table (tableStep_setStatus found (by simp) ?_) ?_ (.inl rfl)
          · rintro request rfl rfl
            exact .inr ⟨rfl, rfl⟩
          · simp [newlySent, System.setStatus]
  | rejected request => exact .table .keep newlySent_self (.inl rfl)
  | answered response => exact .table .keep newlySent_self (.inl rfl)

theorem taskMove_requestTaskStep (task : RequestTask) :
    TaskMove sys (requestTaskStep sys input task).1 task
      (requestTaskStep sys input task).2 := by
  cases task with
  | requestaccess filename username accessType phase =>
      exact taskMove_requestaccessStep sys input filename username accessType
        phase
  | approverequest requestId username phase =>
      exact taskMove_approveStep sys input requestId username phase
  | rejectrequest requestId username phase =>
      exact taskMove_rejectStep sys input requestId username phase

end

theorem TaskMove.tableStep {before after : System} {task next : RequestTask}
    (move : TaskMove before after task next) :
    TableStep (fun _ => True) task.Decides before.nm.accessRequests
      after.nm.accessRequests := by
  cases move with
  | table step unsent held => exact step
  | mark index request stored pending allowed marked unsent held =>
      rw [marked]
      exact .settle index request .approved stored pending (by simp) allowed
  | send index message held same sent done =>
      rw [same]
      exact .keep

theorem Grants.after_step {stores : AccessRequest → Prop}
    {decides : AccessRequest → RequestStatus → Prop}
    {table after : List AccessRequest} {index : Nat} {message : NmRequest}
    (grants : Grants table index message)
    (step : TableStep stores decides table after) :
    Grants after index message := by
  obtain ⟨request, stored, approved, carried⟩ := grants
  rcases step.entry stored with same | ⟨pending, _⟩
  · exact ⟨request, same, approved, carried⟩
  · rw [approved] at pending
    cases pending

/-- What holds between any two steps; `held` says for each thread what it
holds. -/
structure GrantsOnce (table : List AccessRequest)
    (held : Nat → Option (Nat × NmRequest))
    (grants : List (Option Nat × NmRequest)) : Prop where
  onePending : OnePending table
  approved : ∀ {thread index message}, held thread = some (index, message) →
    Grants table index message
  alone : ∀ {thread other index message message'},
    held thread = some (index, message) →
    held other = some (index, message') → thread = other
  unsent : ∀ {thread index message}, held thread = some (index, message) →
    some index ∉ grants.map Prod.fst
  sent : ∀ {entry message}, (entry, message) ∈ grants →
    ∃ index, entry = some index ∧ Grants table index message
  once : (grants.map Prod.fst).Nodup

namespace GrantsOnce

variable {stores : AccessRequest → Prop}
  {decides : AccessRequest → RequestStatus → Prop}
  {table after : List AccessRequest}
  {held fewer : Nat → Option (Nat × NmRequest)}
  {grants : List (Option Nat × NmRequest)} {thread index : Nat}
  {message : NmRequest} {request : AccessRequest}

theorem step (inv : GrantsOnce table held grants)
    (move : TableStep stores decides table after)
    (less : ∀ thread entry, fewer thread = some entry →
      held thread = some entry) :
    GrantsOnce after fewer grants := by
  constructor
  · exact move.onePending inv.onePending
  · intro thread index message holds
    exact (inv.approved (less _ _ holds)).after_step move
  · intro thread other index message message' first second
    exact inv.alone (less _ _ first) (less _ _ second)
  · intro thread index message holds
    exact inv.unsent (less _ _ holds)
  · intro entry message member
    obtain ⟨index, place, grants⟩ := inv.sent member
    exact ⟨index, place, grants.after_step move⟩
  · exact inv.once

/-- A thread that lets go of its entry, or keeps it, holds nothing new. -/
theorem held_of_update {next : Option (Nat × NmRequest)}
    (kept : next = none ∨ next = held thread) (other : Nat)
    (entry : Nat × NmRequest)
    (holds : Function.update held thread next other = some entry) :
    held other = some entry := by
  by_cases here : other = thread
  · subst here
    rw [Function.update_self] at holds
    rcases kept with dropped | same
    · rw [dropped] at holds
      cases holds
    · rw [← same]
      exact holds
  · rwa [Function.update_of_ne here] at holds

theorem not_grants_of_pending (stored : table[index]? = some request)
    (pending : request.status = .pending) : ¬ Grants table index message := by
  rintro ⟨other, found, approved, _⟩
  rw [stored] at found
  cases found
  rw [pending] at approved
  cases approved

/-- The entry was pending, so that no thread holds it and none has granted
it. -/
theorem mark (inv : GrantsOnce table held grants)
    (stored : table[index]? = some request)
    (pending : request.status = .pending)
    (allowed : decides request .approved) :
    GrantsOnce (table.set index { request with status := .approved })
      (Function.update held thread
        (some (index, grantMessage request request.owner))) grants := by
  have move : TableStep (fun _ => True) decides table _ :=
    .settle index request .approved stored pending (by simp) allowed
  have later := inv.step move fun _ _ holds => holds
  have inside := (List.getElem?_eq_some_iff.mp stored).1
  have free : ∀ {other message}, held other ≠ some (index, message) := by
    intro other message holds
    exact not_grants_of_pending stored pending (inv.approved holds)
  have added : ∀ {other place message}, Function.update held thread
      (some (index, grantMessage request request.owner)) other =
        some (place, message) →
      (other = thread ∧ place = index ∧
        message = grantMessage request request.owner) ∨
      other ≠ thread ∧ held other = some (place, message) := by
    intro other place message holds
    by_cases here : other = thread
    · rw [here, Function.update_self] at holds
      cases holds
      exact .inl ⟨here, rfl, rfl⟩
    · rw [Function.update_of_ne here] at holds
      exact .inr ⟨here, holds⟩
  constructor
  · exact later.onePending
  · intro other place message holds
    rcases added holds with ⟨_, rfl, rfl⟩ | ⟨_, old⟩
    · exact ⟨_, List.getElem?_set_self inside, rfl, rfl⟩
    · exact later.approved old
  · intro first second place message message' holds holds'
    rcases added holds with ⟨here, rfl, _⟩ | ⟨_, old⟩
    · rcases added holds' with ⟨there, _⟩ | ⟨_, old'⟩
      · rw [here, there]
      · exact (free old').elim
    · rcases added holds' with ⟨_, rfl, _⟩ | ⟨_, old'⟩
      · exact (free old).elim
      · exact inv.alone old old'
  · intro other place message holds member
    rcases added holds with ⟨_, rfl, _⟩ | ⟨_, old⟩
    · obtain ⟨⟨entry, sent⟩, logged, same⟩ := List.mem_map.mp member
      obtain ⟨granted, here, already⟩ := inv.sent logged
      rw [here] at same
      cases same
      exact not_grants_of_pending stored pending already
    · exact inv.unsent old member
  · intro entry message member
    exact later.sent member
  · exact inv.once

theorem send (inv : GrantsOnce table held grants)
    (holds : held thread = some (index, message)) :
    GrantsOnce table (Function.update held thread none)
      (grants ++ [(some index, message)]) := by
  have dropped : ∀ other entry,
      Function.update held thread none other = some entry →
      other ≠ thread ∧ held other = some entry := by
    intro other entry still
    by_cases here : other = thread
    · rw [here, Function.update_self] at still
      cases still
    · rw [Function.update_of_ne here] at still
      exact ⟨here, still⟩
  constructor
  · exact inv.onePending
  · intro other place message still
    exact inv.approved (dropped _ _ still).2
  · intro first second place message message' still still'
    exact inv.alone (dropped _ _ still).2 (dropped _ _ still').2
  · intro other place sent still member
    obtain ⟨different, held'⟩ := dropped _ _ still
    rw [List.map_append, List.mem_append] at member
    rcases member with old | new
    · exact inv.unsent held' old
    · rw [List.map_singleton, List.mem_singleton] at new
      cases new
      exact different (inv.alone held' holds)
  · intro entry sent member
    rw [List.mem_append] at member
    rcases member with old | new
    · exact inv.sent old
    · rw [List.mem_singleton] at new
      cases new
      exact ⟨index, rfl, inv.approved holds⟩
  · rw [List.map_append, List.map_singleton, ← List.concat_eq_append]
    exact inv.once.concat (inv.unsent holds)

end GrantsOnce

/-- The invariant of the threads. -/
def RequestThreads.Sound (threads : RequestThreads) : Prop :=
  GrantsOnce threads.sys.nm.accessRequests
    (fun thread => (threads.tasks thread).held) threads.grants

theorem sound_startRequests (hosts : Hosts)
    (incoming : Nat → IncomingRequest) :
    (startRequests hosts incoming).Sound := by
  have idle : ∀ thread, ((startRequests hosts incoming).tasks thread).held =
      none := by
    intro thread
    cases request : incoming thread with
    | requestaccess filename username accessType =>
        simp [startRequests, request, IncomingRequest.task, RequestTask.held]
    | approverequest requestId username =>
        simp [startRequests, request, IncomingRequest.task, RequestTask.held]
    | rejectrequest requestId username =>
        simp [startRequests, request, IncomingRequest.task, RequestTask.held]
  constructor
  · exact onePending_nil
  · intro thread index message held
    cases (idle thread).symm.trans held
  · intro thread other index message message' held
    cases (idle thread).symm.trans held
  · intro thread index message held
    cases (idle thread).symm.trans held
  · intro entry message member
    cases member
  · exact List.nodup_nil

theorem sound_requestThreadStep {threads : RequestThreads}
    (sound : threads.Sound) (event : RequestEvent) :
    (requestThreadStep threads event).Sound := by
  cases event with
  | others sys => exact sound
  | step thread input =>
      have move := taskMove_requestTaskStep threads.sys input
        (threads.tasks thread)
      unfold RequestThreads.Sound requestThreadStep
      simp only
      generalize requestTaskStep threads.sys input (threads.tasks thread) =
        result at move ⊢
      obtain ⟨after, next⟩ := result
      simp only at move ⊢
      have holding : (fun other =>
          (Function.update threads.tasks thread next other).held) =
          Function.update (fun other => (threads.tasks other).held) thread
            next.held :=
        Function.comp_update RequestTask.held threads.tasks thread next
      rw [holding]
      unfold RequestThreads.Sound at sound
      cases move with
      | table step unsent held =>
          rw [unsent, List.map_nil, List.append_nil]
          exact sound.step step (GrantsOnce.held_of_update held)
      | mark index request stored pending allowed marked unsent held =>
          rw [unsent, List.map_nil, List.append_nil, marked, held]
          exact sound.mark stored pending allowed
      | send index message held same sent done =>
          rw [same, done, held]
          rcases sent with unsent | sent
          · rw [unsent, List.map_nil, List.append_nil]
            have still : TableStep (fun _ => True) (fun _ _ => True)
                threads.sys.nm.accessRequests threads.sys.nm.accessRequests :=
              .keep
            exact sound.step still (GrantsOnce.held_of_update (.inl rfl))
          · rw [sent]
            exact sound.send held

/-- The requests that the name server has stored so far. -/
def RequestThreads.table (threads : RequestThreads) : List AccessRequest :=
  threads.sys.nm.accessRequests

/-- On the way one step of a thread is the owner's decision about this
request. -/
def DecidedBy (threads : RequestThreads) (events : List RequestEvent)
    (request : AccessRequest) (status : RequestStatus) : Prop :=
  ∃ before thread input after,
    events = before ++ .step thread input :: after ∧
      ((StepRun.run requestThreadStep threads before).tasks thread).Decides
        request status

/-- An entry keeps everything but its status, and the status too unless it is
pending and the owner decides. -/
def Lives (threads : RequestThreads) (events : List RequestEvent)
    (index : Nat) (request : AccessRequest) : Prop :=
  let reached := StepRun.run requestThreadStep threads events
  reached.table[index]? = some request ∨
    request.status = .pending ∧
      ∃ status, status ≠ .pending ∧ DecidedBy threads events request status ∧
        reached.table[index]? = some { request with status := status }

theorem entry_requestThreadStep {threads : RequestThreads}
    (event : RequestEvent) {index : Nat} {request : AccessRequest}
    (stored : threads.table[index]? = some request) :
    Lives threads [event] index request := by
  cases event with
  | others sys => exact .inl stored
  | step thread input =>
      have move := taskMove_requestTaskStep threads.sys input
        (threads.tasks thread)
      rcases move.tableStep.entry stored with
        same | ⟨pending, status, decided, allowed, settled⟩
      · exact .inl same
      · exact .inr ⟨pending, status, decided,
          ⟨[], thread, input, [], rfl, allowed⟩, settled⟩

theorem entry_run {threads : RequestThreads} {events : List RequestEvent}
    {index : Nat} {request : AccessRequest}
    (stored : threads.table[index]? = some request) :
    Lives threads events index request := by
  induction events using List.reverseRecOn with
  | nil => exact .inl stored
  | append_singleton events event ih =>
      unfold Lives at ih ⊢
      rw [StepRun.run_append]
      rcases ih with same | ⟨pending, status, decided, allowed, settled⟩
      · rcases entry_requestThreadStep event same with
          still | ⟨pending, status, decided, allowed, settled⟩
        · exact .inl still
        · refine .inr ⟨pending, status, decided, ?_, settled⟩
          obtain ⟨before, thread, input, after, split, decides⟩ := allowed
          refine ⟨events ++ before, thread, input, after, ?_, ?_⟩
          · rw [split, List.append_assoc]
          · rw [StepRun.run_append]
            exact decides
      · refine .inr ⟨pending, status, decided, ?_, ?_⟩
        · obtain ⟨before, thread, input, after, split, decides⟩ := allowed
          refine ⟨before, thread, input, after ++ [event], ?_, decides⟩
          rw [split, List.append_assoc, List.cons_append]
        · rcases entry_requestThreadStep event settled with
            still | ⟨again, _⟩
          · exact still
          · exact (decided again).elim

/-- Whatever the order of the steps, an entry is decided at most once, by its
owner, keeps everything else, and leads to at most one message, which carries
its file, requester and access type. -/
theorem access_request_life_cycle (hosts : Hosts)
    (incoming : Nat → IncomingRequest) (events later : List RequestEvent) :
    let threads :=
      StepRun.run requestThreadStep (startRequests hosts incoming) events
    OnePending threads.table ∧
      (∀ index request, threads.table[index]? = some request →
        Lives threads later index request) ∧
      (threads.grants.map Prod.fst).Nodup ∧
      ∀ entry message, (entry, message) ∈ threads.grants →
        ∃ index request, entry = some index ∧
          threads.table[index]? = some request ∧
          request.status = .approved ∧
          message = .addaccess request.filename request.owner
            (CString.copy 4095 request.requester.chars)
            request.accessType := by
  intro threads
  have sound : threads.Sound :=
    @StepRun.invariant _ _ requestThreadStep (fun _ _ => True)
      RequestThreads.Sound
      (fun _ event sound _ => sound_requestThreadStep sound event)
      (startRequests hosts incoming) events
      (sound_startRequests hosts incoming)
      (StepRun.allSteps_of_forall (fun _ _ => trivial) _ _)
  refine ⟨sound.onePending, ?_, sound.once, ?_⟩
  · intro index request stored
    exact entry_run stored
  · intro entry message member
    obtain ⟨index, place, request, stored, approved, carried⟩ :=
      sound.sent member
    exact ⟨index, request, place, stored, approved, carried⟩

end Dfs.NameServer
