import Dfs.NameServer.AccessRequests
import Mathlib.Data.List.Nodup

/-!
# The ids of access requests

The owner of a file addresses a request by its id, which is made from the
beginnings of two names and the second in which the request was stored.  The
first entry with the id is the one that is meant, so that a later one with the
same id waits for ever.
-/

namespace Dfs.NameServer

open Dfs.StorageServer

/-- A value of the type `long`, as the clock returns it. -/
def IsLong (value : Int) : Prop :=
  -9223372036854775808 ≤ value ∧ value < 9223372036854775808

instance (value : Int) : Decidable (IsLong value) :=
  inferInstanceAs (Decidable (_ ∧ _))

/-- The names in an id, each cut short. -/
def requestLabel (filename : Filename) (username : Username) : Text :=
  filename.chars.take 99 ++ ':' :: username.chars.take 49

section

variable {filename other : Filename} {username user : Username}
  {now before : Int}

/-- An id is never cut. -/
theorem chars_accessRequestId (long : IsLong now) :
    (accessRequestId filename username now).chars =
      requestLabel filename username ++ ':' :: intText now := by
  have short := length_intText_le long.1 long.2
  have nulFree : CText.nul ∉
      requestLabel filename username ++ ':' :: intText now := by
    intro member
    simp only [requestLabel, List.mem_append, List.mem_cons] at member
    rcases member with (inFilename | colon | inUsername) | colon | inTime
    · exact filename.nulFree (List.mem_of_mem_take inFilename)
    · cases colon
    · exact username.nulFree (List.mem_of_mem_take inUsername)
    · cases colon
    · exact not_mem_intText (by decide) (by decide) now inTime
  have split : filename.chars.take 99 ++ ':' :: username.chars.take 49 ++
      ':' :: intText now =
      requestLabel filename username ++ ':' :: intText now := rfl
  unfold accessRequestId CString.copy
  rw [split]
  simp only [CText.terminated_eq_self nulFree]
  apply List.take_of_length_le
  simp only [requestLabel, List.length_append, List.length_cons,
    List.length_take]
  omega

/-- A text is cut at its last colon in one way only. -/
theorem last_colon {first second rest rest' : Text} (free : ':' ∉ rest)
    (free' : ':' ∉ rest')
    (same : first ++ ':' :: rest = second ++ ':' :: rest') :
    first = second ∧ rest = rest' := by
  rcases List.append_eq_append_iff.mp same with
    ⟨between, whole, left⟩ | ⟨between, whole, right⟩
  · cases between with
    | nil =>
        cases left
        exact ⟨by rw [whole, List.append_nil], rfl⟩
    | cons byte between =>
        rw [List.cons_append, List.cons.injEq] at left
        apply (free _).elim
        rw [left.2]
        simp
  · cases between with
    | nil =>
        cases right
        exact ⟨by rw [whole, List.append_nil], rfl⟩
    | cons byte between =>
        rw [List.cons_append, List.cons.injEq] at right
        apply (free' _).elim
        rw [right.2]
        simp

theorem accessRequestId_eq_iff (long : IsLong now) (long' : IsLong before) :
    accessRequestId filename username now =
        accessRequestId other user before ↔
      requestLabel filename username = requestLabel other user ∧
        now = before := by
  constructor
  · intro same
    have texts := congrArg CString.chars same
    rw [chars_accessRequestId long, chars_accessRequestId long'] at texts
    obtain ⟨labels, times⟩ := last_colon
      (not_mem_intText (by decide) (by decide) _)
      (not_mem_intText (by decide) (by decide) _) texts
    exact ⟨labels, intText_injective times⟩
  · rintro ⟨labels, rfl⟩
    apply CString.ext
    rw [chars_accessRequestId long, chars_accessRequestId long, labels]

end

/-- The decisions of the owner about this id reach this entry. -/
def CanBeDecided (sys : System) (index : Nat) (request : AccessRequest) :
    Prop :=
  ∀ context now link,
    (callStep sys ⟨context, now, link, request.owner,
        .approverequest request.requestId⟩).nm.accessRequests[index]? =
      some { request with status := .approved } ∧
    (callStep sys ⟨context, now, link, request.owner,
        .rejectrequest request.requestId⟩).nm.accessRequests[index]? =
      some { request with status := .rejected }

/-- Every pending request can be decided by its owner. -/
def EveryPendingDecidable (sys : System) : Prop :=
  ∀ index request, sys.nm.accessRequests[index]? = some request →
    request.status = .pending → CanBeDecided sys index request

section

variable {sys : System} {index : Nat} {request : AccessRequest}

theorem canBeDecided_of_addresses
    (addressed :
      Addresses sys.nm.accessRequests request.requestId index request)
    (pending : request.status = .pending) : CanBeDecided sys index request := by
  have inside := (List.getElem?_eq_some_iff.mp addressed.1).1
  have found : ∀ operation, findPending sys operation request.requestId
      request.owner = .ok request := by
    intro operation
    exact findPending_eq_ok_iff.mpr ⟨⟨index, addressed⟩, rfl, pending⟩
  intro context now link
  constructor
  · have table := accessRequests_handleApproverequest sys context link _
      (found opApproverequest)
    rw [accessRequests_setStatus .approved addressed] at table
    simp only [callStep, handleConnection]
    rw [table]
    exact List.getElem?_set_self inside
  · have table := accessRequests_setStatus .rejected addressed
    simp only [callStep, handleConnection, handleRejectrequest,
      found opRejectrequest]
    rw [table]
    exact List.getElem?_set_self inside

/-- The decisions reach the entry that comes first. -/
theorem not_canBeDecided_of_earlier (context : NmContext) (now : Int)
    (link : Link) {earlier : Nat} {other : AccessRequest}
    (stored : sys.nm.accessRequests[index]? = some request)
    (pending : request.status = .pending) (before : earlier < index)
    (found : sys.nm.accessRequests[earlier]? = some other)
    (sameId : other.requestId = request.requestId) :
    ¬ CanBeDecided sys index request := by
  intro decidable
  have rejected := (decidable context now link).2
  have unchanged : (handleRejectrequest sys request.requestId
      request.owner).1.nm.accessRequests[index]? = some request := by
    cases search : findPending sys opRejectrequest request.requestId
        request.owner with
    | error response =>
        simp only [handleRejectrequest, search]
        exact stored
    | ok first =>
        obtain ⟨⟨place, addressed⟩, _⟩ := findPending_eq_ok_iff.mp search
        have table := accessRequests_setStatus .rejected addressed
        have early := addressed.le found sameId
        simp only [handleRejectrequest, search]
        rw [table, List.getElem?_set_ne (by omega)]
        exact stored
  simp only [callStep, handleConnection] at rejected
  rw [unchanged] at rejected
  have same := congrArg AccessRequest.status (Option.some.inj rejected)
  rw [pending] at same
  cases same

end

/-- A request is stored under a label that no request had in the same
second. -/
def FreshLabel (sys : System) (call : Call) : Prop :=
  ∀ filename accessType, call.command = .requestaccess filename accessType →
    Eligible sys filename call.username →
    sys.nm.accessRequests.length < maxAccessRequests →
    ∀ earlier ∈ sys.nm.accessRequests,
      ¬ (earlier.requestTime = call.now ∧
        requestLabel earlier.filename earlier.requester =
          requestLabel filename call.username)

/-- No two entries have the same id, and each has the id of its fields. -/
structure DistinctIds (table : List AccessRequest) : Prop where
  made : ∀ request ∈ table,
    IsLong request.requestTime ∧ request.requestId =
      accessRequestId request.filename request.requester request.requestTime
  distinct : (table.map AccessRequest.requestId).Nodup

namespace DistinctIds

variable {table : List AccessRequest} {index : Nat} {request : AccessRequest}

theorem nil : DistinctIds [] where
  made := fun _ member => by cases member
  distinct := List.nodup_nil

theorem store (ids : DistinctIds table) (long : IsLong request.requestTime)
    (made : request.requestId =
      accessRequestId request.filename request.requester request.requestTime)
    (fresh : ∀ earlier ∈ table,
      ¬ (earlier.requestTime = request.requestTime ∧
        requestLabel earlier.filename earlier.requester =
          requestLabel request.filename request.requester)) :
    DistinctIds (table ++ [request]) := by
  constructor
  · intro other member
    rcases List.mem_append.mp member with old | new
    · exact ids.made other old
    · cases List.mem_singleton.mp new
      exact ⟨long, made⟩
  · rw [List.map_append, List.map_singleton, ← List.concat_eq_append]
    apply ids.distinct.concat
    intro known
    obtain ⟨earlier, member, sameId⟩ := List.mem_map.mp known
    obtain ⟨before, madeBefore⟩ := ids.made earlier member
    rw [madeBefore, made, accessRequestId_eq_iff before long] at sameId
    exact fresh earlier member ⟨sameId.2, sameId.1⟩

theorem settle (ids : DistinctIds table)
    (stored : table[index]? = some request) (status : RequestStatus) :
    DistinctIds (table.set index { request with status := status }) := by
  obtain ⟨inside, here⟩ := List.getElem?_eq_some_iff.mp stored
  constructor
  · intro other member
    rcases List.mem_or_eq_of_mem_set member with old | rfl
    · exact ids.made other old
    · exact ids.made request (List.mem_of_getElem? stored)
  · have sameIds : (table.set index { request with status := status }).map
        AccessRequest.requestId = table.map AccessRequest.requestId := by
      rw [List.map_set]
      apply List.ext_getElem?
      intro place
      by_cases same : index = place
      · subst same
        rw [List.getElem?_set_self (by simpa using inside), List.getElem?_map,
          stored]
        rfl
      · rw [List.getElem?_set_ne same]
    rw [sameIds]
    exact ids.distinct

theorem addresses (ids : DistinctIds table)
    (stored : table[index]? = some request) :
    Addresses table request.requestId index request := by
  refine ⟨stored, rfl, ?_⟩
  intro earlier before other found sameId
  have inside := (List.getElem?_eq_some_iff.mp stored).1
  have equal : (table.map AccessRequest.requestId)[earlier]? =
      (table.map AccessRequest.requestId)[index]? := by
    rw [List.getElem?_map, List.getElem?_map, found, stored, Option.map_some,
      Option.map_some, sameId]
  have place := (List.getElem?_inj (by simp; omega) ids.distinct).mp equal
  omega

end DistinctIds

theorem everyPendingDecidable_of_distinctIds {sys : System}
    (ids : DistinctIds sys.nm.accessRequests) : EveryPendingDecidable sys :=
  fun _ _ stored pending =>
    canBeDecided_of_addresses (ids.addresses stored) pending

section

variable {sys : System} {call : Call}

theorem distinctIds_callStep (ids : DistinctIds sys.nm.accessRequests)
    (long : IsLong call.now) (fresh : FreshLabel sys call) :
    DistinctIds (callStep sys call).nm.accessRequests := by
  have step := tableStep_callStep sys call
  generalize (callStep sys call).nm.accessRequests = after at step ⊢
  cases step with
  | keep => exact ids
  | store request stores room pending free =>
      obtain ⟨command, sameUser, made, time, asks⟩ := stores
      apply ids.store
      · rw [time]
        exact long
      · rw [time]
        exact made
      · have eligible : Eligible sys request.filename call.username := by
          rw [← sameUser]
          exact ⟨⟨request.owner, asks⟩, free⟩
        rw [time, sameUser]
        exact fresh request.filename request.accessType command eligible room
  | settle index request status stored pending decided allowed =>
      exact ids.settle stored status

/-- A request under a label that another had in the same second can never be
decided. -/
theorem freshLabel_of_everyPendingDecidable
    (ids : DistinctIds sys.nm.accessRequests) (long : IsLong call.now)
    (decidable : EveryPendingDecidable (callStep sys call)) :
    FreshLabel sys call := by
  intro filename accessType command eligible room earlier member
  rintro ⟨sameTime, sameLabel⟩
  obtain ⟨owner, asks, handled⟩ :=
    handleRequestaccess_of_room call.now eligible room accessType
  have table : (callStep sys call).nm.accessRequests =
      sys.nm.accessRequests ++
        [newRequest call.now filename call.username accessType owner] := by
    simp only [callStep, handleConnection, command, handled]
    rfl
  obtain ⟨place, inside, here⟩ := List.getElem_of_mem member
  have old : (callStep sys call).nm.accessRequests[place]? = some earlier := by
    rw [table, List.getElem?_append_left inside]
    exact List.getElem?_eq_some_iff.mpr ⟨inside, here⟩
  have new : (callStep sys call).nm.accessRequests[
      sys.nm.accessRequests.length]? =
      some (newRequest call.now filename call.username accessType owner) := by
    rw [table, List.getElem?_concat_length]
  have sameId : earlier.requestId =
      accessRequestId filename call.username call.now := by
    obtain ⟨before, made⟩ := ids.made earlier member
    rw [made, accessRequestId_eq_iff before long]
    exact ⟨sameLabel, sameTime⟩
  exact not_canBeDecided_of_earlier call.context call.now call.link new rfl
    inside old sameId (decidable _ _ new rfl)

/-- Along a run from an empty table every pending request can be decided, if
and only if no request is stored under a label that another got in the same
second. -/
theorem requests_decidable_iff (empty : sys.nm.accessRequests = [])
    {calls : List Call} (clock : ∀ call ∈ calls, IsLong call.now) :
    (∀ before, before <+: calls →
      EveryPendingDecidable (StepRun.run callStep sys before)) ↔
      StepRun.AllSteps callStep FreshLabel sys calls := by
  have initially : DistinctIds sys.nm.accessRequests := by
    rw [empty]
    exact .nil
  exact @StepRun.forall_prefix_iff _ _ callStep FreshLabel
    (fun sys => DistinctIds sys.nm.accessRequests) EveryPendingDecidable
    (fun call => IsLong call.now)
    (fun _ ids => everyPendingDecidable_of_distinctIds ids)
    (fun _ _ ids long fresh => distinctIds_callStep ids long fresh)
    (fun _ _ ids long decidable =>
      freshLabel_of_everyPendingDecidable ids long decidable)
    sys calls initially clock

end

def askUser (name : String) : Username := CString.copy 63 name.toList

def askFile : Filename := CString.copy 255 "notes".toList

def askCall (user : String) (now : Int) (command : Command) : Call :=
  { context :=
      { now := CString.copy 63 []
        leftover := newMetadata (CString.copy 255 []) (CString.copy 63 [])
          (CString.copy 63 []) }
    now := now
    link := .reliable
    username := askUser user
    command := command }

def askServer : System :=
  (initSystem freshHosts).register 0
    ⟨1, CString.copy 15 [], 0, 0, CString.copy 4095 []⟩

theorem nothing_asked : (callStep askServer
    (askCall "alice" 0 (.create askFile))).nm.accessRequests = [] := by
  decide +kernel

/-- `alice` turns `bob` down, who asks again at this time. -/
private def askedAgain (now : Int) : List Call :=
  [askCall "alice" 0 (.create askFile),
    askCall "bob" 5 (.requestaccess askFile accessRead),
    askCall "alice" 5 (.rejectrequest
      (accessRequestId askFile (askUser "bob") 5)),
    askCall "bob" now (.requestaccess askFile accessRead)]

/-- If `bob` asks again within the second, `alice` cannot answer any more. -/
theorem request_waits_for_ever :
    ¬ ∀ (sys : System) (calls : List Call), sys.nm.accessRequests = [] →
      (∀ call ∈ calls, IsLong call.now) →
      (calls.map Call.now).Pairwise (· ≤ ·) →
      ∀ before, before <+: calls →
        EveryPendingDecidable (StepRun.run callStep sys before) := by
  intro every
  have decidable := every askServer (askedAgain 5) rfl (by decide) (by decide)
    _ (List.prefix_refl _)
  have second : (StepRun.run callStep askServer
      (askedAgain 5)).nm.accessRequests[1]? =
      some (newRequest 5 askFile (askUser "bob") accessRead
        (askUser "alice")) := by
    decide +kernel
  have first : (StepRun.run callStep askServer
      (askedAgain 5)).nm.accessRequests[0]? =
      some { newRequest 5 askFile (askUser "bob") accessRead
        (askUser "alice") with status := .rejected } := by
    decide +kernel
  exact not_canBeDecided_of_earlier
    (askCall "alice" 5 (.create askFile)).context 5 .reliable second rfl
    Nat.zero_lt_one first rfl (decidable 1 _ second rfl)

/-- A second later there is no clash. -/
theorem requests_decidable_next_second :
    EveryPendingDecidable (StepRun.run callStep askServer (askedAgain 6)) := by
  refine (requests_decidable_iff rfl (by decide)).mpr ?_ _ List.prefix_rfl
  refine ⟨?_, ?_, ?_, ?_, trivial⟩
  · intro filename accessType command
    cases command
  · intro filename accessType command eligible room earlier member
    rw [nothing_asked] at member
    cases member
  · intro filename accessType command
    cases command
  · intro filename accessType command eligible room earlier member
    have times : ∀ request ∈ (StepRun.run callStep askServer
        ((askedAgain 6).take 3)).nm.accessRequests,
        request.requestTime = 5 := by
      decide +kernel
    rintro ⟨sameTime, _⟩
    have time := times earlier member
    rw [sameTime] at time
    cases time

end Dfs.NameServer
