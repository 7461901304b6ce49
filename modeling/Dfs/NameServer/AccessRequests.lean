import Dfs.NameServer.SystemMoves

/-!
# The table of access requests

The critical sections of REQUESTACCESS, APPROVEREQUEST and REJECTREQUEST
change the table of access requests in two ways only: a pending request is
stored behind the others, or the owner noted in a pending request decides it.
No other request touches the table.
-/

namespace Dfs.NameServer

open Dfs.StorageServer

/-- The request waits for the decision about this requester and this file. -/
def AccessRequest.Awaits (request : AccessRequest) (filename : Filename)
    (requester : Username) : Prop :=
  request.status = .pending ∧ request.filename = filename ∧
    request.requester = requester

instance (request : AccessRequest) (filename : Filename)
    (requester : Username) : Decidable (request.Awaits filename requester) :=
  inferInstanceAs (Decidable (_ ∧ _))

/-- At most one request is pending for each file and requester. -/
def OnePending (table : List AccessRequest) : Prop :=
  ∀ {filename requester} (i j : Nat) (first second : AccessRequest),
    table[i]? = some first → first.Awaits filename requester →
    table[j]? = some second → second.Awaits filename requester → i = j

/-- What a critical section does to the table; `stores` and `decides` say which
entries and which decisions are the request's to make. -/
inductive TableStep (stores : AccessRequest → Prop)
    (decides : AccessRequest → RequestStatus → Prop)
    (table : List AccessRequest) : List AccessRequest → Prop where
  | keep : TableStep stores decides table table
  | store (request : AccessRequest)
      (allowed : stores request)
      (room : table.length < maxAccessRequests)
      (pending : request.status = .pending)
      (fresh : ∀ other ∈ table,
        ¬ other.Awaits request.filename request.requester) :
      TableStep stores decides table (table ++ [request])
  | settle (index : Nat) (request : AccessRequest) (status : RequestStatus)
      (stored : table[index]? = some request)
      (pending : request.status = .pending) (decided : status ≠ .pending)
      (allowed : decides request status) :
      TableStep stores decides table
        (table.set index { request with status := status })

namespace TableStep

variable {stores : AccessRequest → Prop}
  {decides : AccessRequest → RequestStatus → Prop}
  {table after : List AccessRequest}

/-- An entry stays as it is, or it is decided. -/
theorem entry (step : TableStep stores decides table after) {index : Nat}
    {request : AccessRequest} (stored : table[index]? = some request) :
    after[index]? = some request ∨
      request.status = .pending ∧
        ∃ status, status ≠ .pending ∧ decides request status ∧
          after[index]? = some { request with status := status } := by
  have inside := (List.getElem?_eq_some_iff.mp stored).1
  cases step with
  | keep => exact .inl stored
  | store added made room pending fresh =>
      left
      rw [List.getElem?_append_left inside]
      exact stored
  | settle place settled status found pending decided allowed =>
      by_cases here : place = index
      · right
        have same : settled = request := by
          rw [here] at found
          exact Option.some.inj (found.symm.trans stored)
        subst same
        refine ⟨pending, status, decided, allowed, ?_⟩
        rw [here]
        exact List.getElem?_set_self inside
      · left
        rw [List.getElem?_set_ne here]
        exact stored

/-- A pending entry was there before, or it has just been stored. -/
theorem pending_before (step : TableStep stores decides table after)
    {index : Nat} {request : AccessRequest}
    (stored : after[index]? = some request)
    (pending : request.status = .pending) :
    table[index]? = some request ∨
      index = table.length ∧
        ∀ other ∈ table, ¬ other.Awaits request.filename request.requester := by
  cases step with
  | keep => exact .inl stored
  | store added made room waiting fresh =>
      rcases Nat.lt_trichotomy index table.length with inside | last | beyond
      · left
        rwa [List.getElem?_append_left inside] at stored
      · right
        subst last
        rw [List.getElem?_concat_length] at stored
        cases stored
        exact ⟨rfl, fresh⟩
      · rw [List.getElem?_eq_none (by simp; omega)] at stored
        cases stored
  | settle place settled status found waiting decided allowed =>
      left
      by_cases here : place = index
      · subst here
        have inside := (List.getElem?_eq_some_iff.mp found).1
        rw [List.getElem?_set_self inside] at stored
        cases stored
        exact (decided pending).elim
      · rwa [List.getElem?_set_ne here] at stored

theorem onePending (step : TableStep stores decides table after)
    (one : OnePending table) : OnePending after := by
  intro filename requester i j first second atFirst awaitsFirst atSecond
    awaitsSecond
  have clash : ∀ {place : Nat} {old new : AccessRequest},
      table[place]? = some old → old.Awaits filename requester →
      new.Awaits filename requester →
      ¬ ∀ other ∈ table, ¬ other.Awaits new.filename new.requester := by
    intro place old new there waits awaits fresh
    obtain ⟨_, sameFile, sameUser⟩ := awaits
    apply fresh old (List.mem_of_getElem? there)
    rw [sameFile, sameUser]
    exact waits
  rcases step.pending_before atFirst awaitsFirst.1 with old | ⟨last, fresh⟩
  · rcases step.pending_before atSecond awaitsSecond.1 with
      old' | ⟨last', fresh'⟩
    · exact one i j first second old awaitsFirst old' awaitsSecond
    · exact (clash old awaitsFirst awaitsSecond fresh').elim
  · rcases step.pending_before atSecond awaitsSecond.1 with
      old' | ⟨last', fresh'⟩
    · exact (clash old' awaitsSecond awaitsFirst fresh).elim
    · rw [last, last']

end TableStep

/-- The loop over the table has found no pending request. -/
theorem not_awaits_of_any {table : List AccessRequest} {filename : Filename}
    {username : Username}
    (fresh : ¬ (table.any fun request =>
      request.filename = filename && request.requester = username &&
        request.status = .pending) = true) :
    ∀ other ∈ table, ¬ other.Awaits filename username := by
  intro other member awaits
  obtain ⟨pending, sameFile, sameUser⟩ := awaits
  apply fresh
  rw [List.any_eq_true]
  exact ⟨other, member, by simp [pending, sameFile, sameUser]⟩

theorem onePending_nil : OnePending [] := by
  intro filename requester i j first second atFirst
  cases atFirst

/-- The entry that an id addresses is the first with this id. -/
def Addresses (table : List AccessRequest) (requestId : Filename)
    (index : Nat) (request : AccessRequest) : Prop :=
  table[index]? = some request ∧ request.requestId = requestId ∧
    ∀ earlier < index, ∀ other, table[earlier]? = some other →
      other.requestId ≠ requestId

section

variable {sys : System} {operation : Int} {requestId : Filename}
  {username : Username} {index : Nat} {request : AccessRequest}

theorem Addresses.le {table : List AccessRequest} {place : Nat}
    {other : AccessRequest}
    (addressed : Addresses table requestId index request)
    (stored : table[place]? = some other)
    (sameId : other.requestId = requestId) : index ≤ place := by
  by_contra later
  exact addressed.2.2 place (not_le.mp later) other stored sameId

theorem find?_eq_some_iff_addresses {table : List AccessRequest} :
    table.find? (fun request => request.requestId = requestId) =
        some request ↔
      ∃ index, Addresses table requestId index request := by
  rw [List.find?_eq_some_iff_getElem]
  constructor
  · rintro ⟨sameId, index, inside, here, before⟩
    refine ⟨index, List.getElem?_eq_some_iff.mpr ⟨inside, here⟩,
      of_decide_eq_true sameId, ?_⟩
    intro earlier less other found equal
    obtain ⟨_, there⟩ := List.getElem?_eq_some_iff.mp found
    have different := before earlier less
    rw [there] at different
    simp [equal] at different
  · rintro ⟨index, here, sameId, before⟩
    obtain ⟨inside, found⟩ := List.getElem?_eq_some_iff.mp here
    refine ⟨decide_eq_true sameId, index, inside, found, ?_⟩
    intro earlier less
    have different := before earlier less _
      (List.getElem?_eq_getElem (less.trans inside))
    simpa using different

theorem Addresses.findIdx_eq {table : List AccessRequest}
    (addressed : Addresses table requestId index request) :
    table.findIdx (fun request => request.requestId = requestId) = index := by
  obtain ⟨here, sameId, before⟩ := addressed
  obtain ⟨inside, found⟩ := List.getElem?_eq_some_iff.mp here
  rw [List.findIdx_eq inside]
  constructor
  · rw [found]
    exact decide_eq_true sameId
  · intro earlier less
    have different := before earlier less _
      (List.getElem?_eq_getElem (less.trans inside))
    simpa using different

/-- A request is decided where its id leads to it, by its owner, while it is
pending. -/
theorem findPending_eq_ok_iff :
    findPending sys operation requestId username = .ok request ↔
      (∃ index, Addresses sys.nm.accessRequests requestId index request) ∧
        request.owner = username ∧ request.status = .pending := by
  rw [← find?_eq_some_iff_addresses]
  unfold findPending
  split
  · rename_i missing
    simp [missing]
  · rename_i first found
    rw [found]
    constructor
    · intro accepted
      split at accepted
      · cases accepted
      · split at accepted
        · cases accepted
        · rename_i owner pending
          cases accepted
          exact ⟨rfl, not_not.mp owner, not_not.mp pending⟩
    · rintro ⟨same, owner, pending⟩
      cases same
      simp [owner, pending]

theorem accessRequests_setStatus (status : RequestStatus)
    (addressed : Addresses sys.nm.accessRequests requestId index request) :
    (sys.setStatus requestId status).nm.accessRequests =
      sys.nm.accessRequests.set index { request with status := status } := by
  unfold System.setStatus
  simp only [addressed.findIdx_eq]
  rw [List.modify_eq_set_getElem?, addressed.1]
  rfl

/-- A decision is a step of the table. -/
theorem tableStep_setStatus {status : RequestStatus}
    {stores : AccessRequest → Prop}
    {decides : AccessRequest → RequestStatus → Prop}
    (found : findPending sys operation requestId username = .ok request)
    (decided : status ≠ .pending) (allowed : ∀ request : AccessRequest,
      request.requestId = requestId → request.owner = username →
      decides request status) :
    TableStep stores decides sys.nm.accessRequests
      (sys.setStatus requestId status).nm.accessRequests := by
  obtain ⟨⟨index, addressed⟩, owner, pending⟩ := findPending_eq_ok_iff.mp found
  rw [accessRequests_setStatus status addressed]
  exact .settle index request status addressed.1 pending decided
    (allowed request addressed.2.1 owner)

end

section

/-- The entry that REQUESTACCESS makes. -/
def newRequest (now : Int) (filename : Filename) (username : Username)
    (accessType : Int) (owner : Username) : AccessRequest :=
  { requestId := accessRequestId filename username now
    filename := filename
    requester := username
    owner := owner
    accessType := accessType
    requestTime := now
    status := .pending }

/-- The user asks for a file of somebody else. -/
def AsksOwner (sys : System) (filename : Filename) (username owner : Username) :
    Prop :=
  ∃ file, findRecord sys.nm.toNameServerState filename = some file ∧
    file.owner = owner ∧ owner ≠ username

/-- The call asks the owner of the file for this access; the id is made from
the file, the requester and the time. -/
def Call.Stores (call : Call) (sys : System) (request : AccessRequest) :
    Prop :=
  call.command = .requestaccess request.filename request.accessType ∧
    request.requester = call.username ∧
    request.requestId =
      accessRequestId request.filename request.requester call.now ∧
    request.requestTime = call.now ∧
    AsksOwner sys request.filename request.requester request.owner

/-- The call is its owner's decision about this request. -/
def Call.Decides (call : Call) (request : AccessRequest)
    (status : RequestStatus) : Prop :=
  request.owner = call.username ∧
    (call.command = .approverequest request.requestId ∧ status = .approved ∨
      call.command = .rejectrequest request.requestId ∧ status = .rejected)

variable (sys : System) (context : NmContext) (now : Int) (link : Link)
  (username : Username) (stores : AccessRequest → Prop)
  (decides : AccessRequest → RequestStatus → Prop)

theorem tableStep_handleRequestaccess (filename : Filename)
    (accessType : Int)
    (allowed : ∀ owner, AsksOwner sys filename username owner →
      stores (newRequest now filename username accessType owner)) :
    TableStep stores decides sys.nm.accessRequests
      (handleRequestaccess sys now filename username
        accessType).1.nm.accessRequests := by
  unfold handleRequestaccess
  split
  · exact .keep
  · rename_i file found
    split
    · exact .keep
    · rename_i foreign
      split
      · exact .keep
      · rename_i room
        split
        · exact .keep
        · rename_i fresh
          exact .store _ (allowed file.owner ⟨file, found, rfl, foreign⟩)
            (not_le.mp room) rfl (not_awaits_of_any fresh)

/-- Granting the access does not touch the table. -/
theorem accessRequests_handleApproverequest {requestId : Filename}
    {request : AccessRequest}
    (found : findPending sys opApproverequest requestId username =
      .ok request) :
    (handleApproverequest sys context link requestId
        username).1.nm.accessRequests =
      (sys.setStatus requestId .approved).nm.accessRequests := by
  unfold handleApproverequest
  rw [found]
  simp only
  split
  · rfl
  · split
    · rfl
    · rw [nm_exchange]

theorem tableStep_handleApproverequest (requestId : Filename)
    (allowed : ∀ request : AccessRequest, request.requestId = requestId →
      request.owner = username → decides request .approved) :
    TableStep stores decides sys.nm.accessRequests
      (handleApproverequest sys context link requestId
        username).1.nm.accessRequests := by
  cases found : findPending sys opApproverequest requestId username with
  | error response =>
      unfold handleApproverequest
      rw [found]
      exact .keep
  | ok request =>
      rw [accessRequests_handleApproverequest sys context link username found]
      exact tableStep_setStatus found (by simp) allowed

theorem tableStep_handleRejectrequest (requestId : Filename)
    (allowed : ∀ request : AccessRequest, request.requestId = requestId →
      request.owner = username → decides request .rejected) :
    TableStep stores decides sys.nm.accessRequests
      (handleRejectrequest sys requestId username).1.nm.accessRequests := by
  unfold handleRejectrequest
  split
  · exact .keep
  · rename_i request found
    exact tableStep_setStatus found (by simp) allowed

theorem accessRequests_moves : FileMoves fun before after =>
    after.nm.accessRequests = before.nm.accessRequests where
  refl := fun _ => rfl
  trans := fun first second => second.trans first
  deliver := fun _ _ _ _ => rfl
  choose := fun sys => by
    unfold System.choose getAvailableStorageServer
    simp only
    split
    · rfl
    · split
      · rfl
      · rfl
  addFile := fun _ _ _ _ _ => rfl
  removeFile := fun _ _ _ => rfl
  moveRecord := fun _ _ _ => rfl
  setCache := fun _ _ => rfl

/-- Every request is one step of the table. -/
theorem tableStep_callStep (call : Call) :
    TableStep (call.Stores sys) call.Decides sys.nm.accessRequests
      (callStep sys call).nm.accessRequests := by
  cases kind : call.command.onRequests with
  | false =>
      rw [accessRequests_moves.callStep sys kind]
      exact .keep
  | true =>
      obtain ⟨context, now, link, username, command⟩ := call
      rcases @Command.onRequests_cases command kind with
        ⟨filename, accessType, rfl⟩ | ⟨requestId, rfl⟩ | ⟨requestId, rfl⟩
      · apply tableStep_handleRequestaccess
        intro owner asks
        exact ⟨rfl, rfl, rfl, rfl, asks⟩
      · apply tableStep_handleApproverequest
        rintro request rfl owner
        exact ⟨owner, .inl ⟨rfl, rfl⟩⟩
      · apply tableStep_handleRejectrequest
        rintro request rfl owner
        exact ⟨owner, .inr ⟨rfl, rfl⟩⟩

/-- The user may ask: the file is somebody else's, and no request of the user
for it is pending. -/
def Eligible (sys : System) (filename : Filename) (username : Username) :
    Prop :=
  (∃ owner, AsksOwner sys filename username owner) ∧
    ∀ other ∈ sys.nm.accessRequests, ¬ other.Awaits filename username

/-- An eligible request is stored behind the others, if there is room. -/
theorem handleRequestaccess_of_room {sys : System} {filename : Filename}
    {username : Username} (eligible : Eligible sys filename username)
    (room : sys.nm.accessRequests.length < maxAccessRequests)
    (accessType : Int) :
    ∃ owner, AsksOwner sys filename username owner ∧
      handleRequestaccess sys now filename username accessType =
        (sys.setRequests (sys.nm.accessRequests ++
            [newRequest now filename username accessType owner]),
          ⟨msgResponse, opRequestaccess, errSuccess,
            "Access request sent to owner '".toList ++ owner.chars ++
              "'. Request ID: ".toList ++
              (accessRequestId filename username now).chars⟩) := by
  obtain ⟨⟨owner, file, found, sameOwner, foreign⟩, fresh⟩ := eligible
  have none : (sys.nm.accessRequests.any fun request =>
      request.filename = filename && request.requester = username &&
        request.status = .pending) = false := by
    rw [List.any_eq_false]
    intro other member waiting
    apply fresh other member
    simp only [Bool.and_eq_true, decide_eq_true_eq] at waiting
    exact ⟨waiting.2, waiting.1⟩
  refine ⟨owner, ⟨file, found, sameOwner, foreign⟩, ?_⟩
  subst sameOwner
  unfold handleRequestaccess
  simp only [found, foreign, if_false, not_le.mpr room, none,
    Bool.false_eq_true]
  rfl

/-- A full table refuses it. -/
theorem handleRequestaccess_of_full {sys : System} {filename : Filename}
    {username owner : Username} (asks : AsksOwner sys filename username owner)
    (full : maxAccessRequests ≤ sys.nm.accessRequests.length)
    (accessType : Int) :
    handleRequestaccess sys now filename username accessType =
      (sys, errorResponse opRequestaccess errServerError
        "Too many pending requests".toList) := by
  obtain ⟨file, found, sameOwner, foreign⟩ := asks
  subst sameOwner
  unfold handleRequestaccess
  simp only [found, foreign, if_false, ge_iff_le, full, if_true]

end

end Dfs.NameServer
