import Dfs.NameServer.RequestIds

/-!
# The room in the table of access requests

The table has a fixed number of places, and a decided request keeps its place.
So the table is full once that many requests have been stored, however few of
them still wait, and every later request is refused for good.
-/

namespace Dfs.NameServer

open Dfs.StorageServer

/-- How many requests wait for a decision. -/
def pendingCount (table : List AccessRequest) : Nat :=
  table.countP fun request => request.status = .pending

theorem pendingCount_append (table : List AccessRequest)
    (request : AccessRequest) (pending : request.status = .pending) :
    pendingCount (table ++ [request]) = pendingCount table + 1 := by
  simp [pendingCount, List.countP_append, pending]

/-- A decision leaves one request less to decide. -/
theorem pendingCount_set {table : List AccessRequest} {index : Nat}
    {request : AccessRequest} {status : RequestStatus}
    (stored : table[index]? = some request)
    (pending : request.status = .pending) (decided : status ≠ .pending) :
    pendingCount (table.set index { request with status := status }) + 1 =
      pendingCount table := by
  obtain ⟨inside, here⟩ := List.getElem?_eq_some_iff.mp stored
  have waits : 0 < pendingCount table :=
    List.countP_pos_iff.mpr ⟨request, List.mem_of_getElem? stored,
      decide_eq_true pending⟩
  unfold pendingCount at waits ⊢
  rw [List.countP_set inside, here]
  simp only [pending, decided, decide_true, decide_false, if_true]
  simp only [Bool.false_eq_true, if_false]
  omega

def Command.asks : Command → Bool
  | .requestaccess _ _ => true
  | _ => false

def Command.decides : Command → Bool
  | .approverequest _ => true
  | .rejectrequest _ => true
  | _ => false

/-- The call is of this kind, and its user is told that it succeeded. -/
def Call.Succeeds (kind : Command → Bool) (sys : System) (call : Call) :
    Prop :=
  kind call.command = true ∧
    (handleConnection sys call).2.errorCode = errSuccess

instance (kind : Command → Bool) (sys : System) (call : Call) :
    Decidable (call.Succeeds kind sys) :=
  inferInstanceAs (Decidable (_ ∧ _))

/-- How many calls of this kind succeed along a run. -/
def successes (kind : Command → Bool) : System → List Call → Nat
  | _, [] => 0
  | sys, call :: calls =>
      (if call.Succeeds kind sys then 1 else 0) +
        successes kind (callStep sys call) calls

/-- The requests stored, and the decisions about them. -/
def requestsStored (sys : System) (calls : List Call) : Nat :=
  successes Command.asks sys calls

def requestsDecided (sys : System) (calls : List Call) : Nat :=
  successes Command.decides sys calls

/-- What one call adds to the table and to the two counts. -/
structure Counted (sys : System) (call : Call) : Prop where
  length : (callStep sys call).nm.accessRequests.length =
    sys.nm.accessRequests.length +
      if call.Succeeds Command.asks sys then 1 else 0
  pending : pendingCount (callStep sys call).nm.accessRequests +
      (if call.Succeeds Command.decides sys then 1 else 0) =
    pendingCount sys.nm.accessRequests +
      if call.Succeeds Command.asks sys then 1 else 0

section

variable (sys : System) (context : NmContext) (now : Int) (link : Link)
  (username : Username)

/-- A request is stored and its user told so, or neither. -/
theorem handleRequestaccess_cases (filename : Filename) (accessType : Int) :
    (∃ request, request.status = .pending ∧
      (handleRequestaccess sys now filename username
          accessType).1.nm.accessRequests =
        sys.nm.accessRequests ++ [request] ∧
      (handleRequestaccess sys now filename username
          accessType).2.errorCode = errSuccess) ∨
    (handleRequestaccess sys now filename username accessType).1 = sys ∧
      (handleRequestaccess sys now filename username
          accessType).2.errorCode ≠ errSuccess := by
  unfold handleRequestaccess
  split
  · exact .inr ⟨rfl, by simp [errorResponse, errFileNotFound, errSuccess]⟩
  · split
    · exact .inr ⟨rfl,
        by simp [errorResponse, errInvalidOperation, errSuccess]⟩
    · split
      · exact .inr ⟨rfl, by simp [errorResponse, errServerError, errSuccess]⟩
      · split
        · exact .inr ⟨rfl,
            by simp [errorResponse, errInvalidOperation, errSuccess]⟩
        · exact .inl ⟨_, rfl, rfl, rfl⟩

theorem errorCode_of_findPending {operation : Int} {requestId : Filename}
    {response : Response}
    (refused : findPending sys operation requestId username =
      .error response) : response.errorCode ≠ errSuccess := by
  unfold findPending at refused
  split at refused
  · cases refused
    simp [errorResponse, errFileNotFound, errSuccess]
  · split at refused
    · cases refused
      simp [errorResponse, errNotOwner, errSuccess]
    · split at refused
      · cases refused
        simp [errorResponse, errInvalidOperation, errSuccess]
      · cases refused

theorem counted_requestaccess (filename : Filename) (accessType : Int) :
    Counted sys ⟨context, now, link, username,
      .requestaccess filename accessType⟩ := by
  rcases handleRequestaccess_cases sys now username filename accessType with
    ⟨request, pending, stored, success⟩ | ⟨same, refused⟩
  · constructor
    · simp [callStep, handleConnection, Call.Succeeds, Command.asks, stored,
        success]
    · simp [callStep, handleConnection, Call.Succeeds, Command.asks,
        Command.decides, stored, success, pendingCount_append _ _ pending]
  · constructor
    · simp [callStep, handleConnection, Call.Succeeds, same, refused]
    · simp [callStep, handleConnection, Call.Succeeds, same, refused]

theorem counted_approverequest (requestId : Filename) :
    Counted sys ⟨context, now, link, username,
      .approverequest requestId⟩ := by
  cases found : findPending sys opApproverequest requestId username with
  | error response =>
      have refused := errorCode_of_findPending sys username found
      constructor
      · simp [callStep, handleConnection, handleApproverequest, found,
          Call.Succeeds, refused]
      · simp [callStep, handleConnection, handleApproverequest, found,
          Call.Succeeds, refused]
  | ok request =>
      obtain ⟨⟨index, addressed⟩, _, pending⟩ :=
        findPending_eq_ok_iff.mp found
      have table := accessRequests_handleApproverequest sys context link
        username found
      rw [accessRequests_setStatus .approved addressed] at table
      have success : (handleApproverequest sys context link requestId
          username).2.errorCode = errSuccess := by
        simp only [handleApproverequest, found]
      have fewer := pendingCount_set addressed.1 pending
        (show RequestStatus.approved ≠ .pending by simp)
      constructor
      · simp [callStep, handleConnection, Call.Succeeds, Command.asks, table]
      · simp [callStep, handleConnection, Call.Succeeds, Command.asks,
          Command.decides, table, success, fewer]

theorem counted_rejectrequest (requestId : Filename) :
    Counted sys ⟨context, now, link, username,
      .rejectrequest requestId⟩ := by
  cases found : findPending sys opRejectrequest requestId username with
  | error response =>
      have refused := errorCode_of_findPending sys username found
      constructor
      · simp [callStep, handleConnection, handleRejectrequest, found,
          Call.Succeeds, refused]
      · simp [callStep, handleConnection, handleRejectrequest, found,
          Call.Succeeds, refused]
  | ok request =>
      obtain ⟨⟨index, addressed⟩, _, pending⟩ :=
        findPending_eq_ok_iff.mp found
      have table := accessRequests_setStatus .rejected addressed
      have fewer := pendingCount_set addressed.1 pending
        (show RequestStatus.rejected ≠ .pending by simp)
      constructor
      · simp [callStep, handleConnection, handleRejectrequest, found,
          Call.Succeeds, Command.asks, table]
      · simp [callStep, handleConnection, handleRejectrequest, found,
          Call.Succeeds, Command.asks, Command.decides, table, fewer]

theorem counted_other (call : Call)
    (other : call.command.onRequests = false) : Counted sys call := by
  have same := accessRequests_moves.callStep sys other
  have neither : call.command.asks = false ∧
      call.command.decides = false := by
    cases kind : call.command <;> simp_all [Command.onRequests, Command.asks,
      Command.decides]
  constructor
  · simp [same, Call.Succeeds, neither]
  · simp [same, Call.Succeeds, neither]

theorem counted (call : Call) : Counted sys call := by
  cases kind : call.command.onRequests with
  | false => exact counted_other sys call kind
  | true =>
      obtain ⟨context, now, link, username, command⟩ := call
      rcases @Command.onRequests_cases command kind with
        ⟨filename, accessType, rfl⟩ | ⟨requestId, rfl⟩ | ⟨requestId, rfl⟩
      · exact counted_requestaccess sys context now link username filename
          accessType
      · exact counted_approverequest sys context now link username requestId
      · exact counted_rejectrequest sys context now link username requestId

/-- Every stored request keeps its place. -/
theorem length_run (calls : List Call) :
    (StepRun.run callStep sys calls).nm.accessRequests.length =
      sys.nm.accessRequests.length + requestsStored sys calls := by
  induction calls generalizing sys with
  | nil => rfl
  | cons call calls ih =>
      have first := (counted sys call).length
      have rest := ih (callStep sys call)
      unfold requestsStored at rest ⊢
      rw [StepRun.run_cons, rest, first, successes, Nat.add_assoc]

/-- Only the decisions make requests stop waiting. -/
theorem pendingCount_run (calls : List Call) :
    pendingCount (StepRun.run callStep sys calls).nm.accessRequests +
        requestsDecided sys calls =
      pendingCount sys.nm.accessRequests + requestsStored sys calls := by
  induction calls generalizing sys with
  | nil => rfl
  | cons call calls ih =>
      have first := (counted sys call).pending
      have rest := ih (callStep sys call)
      unfold requestsStored requestsDecided at rest ⊢
      rw [StepRun.run_cons, successes, successes]
      omega

theorem length_le_run {sys : System} (calls : List Call)
    (room : sys.nm.accessRequests.length ≤ maxAccessRequests) :
    (StepRun.run callStep sys calls).nm.accessRequests.length ≤
      maxAccessRequests := by
  induction calls generalizing sys with
  | nil => exact room
  | cons call calls ih =>
      apply ih
      have step := tableStep_callStep sys call
      generalize (callStep sys call).nm.accessRequests = after at step ⊢
      cases step with
      | keep => exact room
      | store request stores free pending fresh =>
          rw [List.length_append, List.length_singleton]
          omega
      | settle index request status stored pending decided allowed =>
          rw [List.length_set]
          exact room

end

/-- An eligible request is refused for want of room while fewer requests wait,
as soon as so many were stored and one of them was decided. -/
theorem too_many_requests_iff {sys : System}
    (empty : sys.nm.accessRequests = []) (calls : List Call)
    {filename : Filename} {username : Username}
    (eligible : Eligible (StepRun.run callStep sys calls) filename username)
    (now accessType : Int) :
    ((handleRequestaccess (StepRun.run callStep sys calls) now filename
          username accessType).2 =
        errorResponse opRequestaccess errServerError
          "Too many pending requests".toList →
      pendingCount (StepRun.run callStep sys calls).nm.accessRequests =
        maxAccessRequests) ↔
      requestsStored sys calls < maxAccessRequests ∨
        requestsDecided sys calls = 0 := by
  have length := length_run sys calls
  have waiting := pendingCount_run sys calls
  have bounded : (StepRun.run callStep sys calls).nm.accessRequests.length ≤
      maxAccessRequests :=
    length_le_run calls (by simp [empty])
  rw [empty, List.length_nil, Nat.zero_add] at length
  simp only [empty, pendingCount, List.countP_nil, Nat.zero_add] at waiting
  generalize StepRun.run callStep sys calls = reached at *
  by_cases room : requestsStored sys calls < maxAccessRequests
  · refine ⟨fun _ => .inl room, fun _ refused => ?_⟩
    obtain ⟨owner, asks, handled⟩ := handleRequestaccess_of_room now eligible
      (by omega) accessType
    rw [handled] at refused
    have code := congrArg Response.errorCode refused
    simp [errorResponse, errSuccess, errServerError] at code
  · obtain ⟨⟨owner, asks⟩, fresh⟩ := eligible
    have full : maxAccessRequests ≤ reached.nm.accessRequests.length := by
      omega
    rw [handleRequestaccess_of_full now asks full accessType]
    unfold pendingCount
    constructor
    · intro refused
      have all := refused rfl
      exact .inr (by omega)
    · intro condition _
      omega

section

variable {start reached : System} {filename : Filename}
  {user owner : Username} {count : Nat}

/-- The user asks, and the owner turns the request down. -/
def askedAndRefused (context : NmContext) (filename : Filename)
    (user owner : Username) (now : Nat) : List Call :=
  [⟨context, now, .reliable, user, .requestaccess filename accessRead⟩,
    ⟨context, now, .reliable, owner,
      .rejectrequest (accessRequestId filename user now)⟩]

/-- Since the start only requests were stored, this many, and all of them were
decided. -/
structure FilledWithDecided (start reached : System) (count : Nat) :
    Prop where
  files : reached.nm.toNameServerState = start.nm.toNameServerState
  length : reached.nm.accessRequests.length = count
  ids : DistinctIds reached.nm.accessRequests
  old : ∀ request ∈ reached.nm.accessRequests,
    request.requestTime < count ∧ request.status ≠ .pending

namespace FilledWithDecided

theorem asks (filled : FilledWithDecided start reached count)
    (asks : AsksOwner start filename user owner) :
    AsksOwner reached filename user owner := by
  unfold AsksOwner at asks ⊢
  rw [filled.files]
  exact asks

theorem eligible (filled : FilledWithDecided start reached count)
    (asks : AsksOwner start filename user owner) :
    Eligible reached filename user := by
  refine ⟨⟨owner, filled.asks asks⟩, ?_⟩
  intro other member awaits
  exact (filled.old other member).2 awaits.1

/-- The question of a round is stored. -/
theorem asked (filled : FilledWithDecided start reached count)
    (asks : AsksOwner start filename user owner)
    (room : count < maxAccessRequests) :
    (handleRequestaccess reached count filename user accessRead).1 =
      reached.setRequests (reached.nm.accessRequests ++
        [newRequest count filename user accessRead owner]) := by
  obtain ⟨owner', asks', handled⟩ := handleRequestaccess_of_room (count : Int)
    (filled.eligible asks) (by rw [filled.length]; exact room) accessRead
  have same : owner' = owner := by
    obtain ⟨file, found, here, _⟩ := filled.asks asks
    obtain ⟨file', found', here', _⟩ := asks'
    rw [found] at found'
    cases found'
    rw [← here, ← here']
  rw [handled, same]

theorem distinct (filled : FilledWithDecided start reached count)
    (room : count < maxAccessRequests) (filename : Filename)
    (user owner : Username) :
    DistinctIds (reached.nm.accessRequests ++
      [newRequest count filename user accessRead owner]) := by
  have long : IsLong (count : Int) := by
    unfold IsLong maxAccessRequests at *
    omega
  apply filled.ids.store long rfl
  intro earlier member clash
  have before := (filled.old earlier member).1
  have time : earlier.requestTime = count := clash.1
  omega

/-- The answer of a round finds the question at the end of the table. -/
theorem refused (filled : FilledWithDecided start reached count)
    (asks : AsksOwner start filename user owner) (context : NmContext)
    (room : count < maxAccessRequests) :
    StepRun.run callStep reached
        (askedAndRefused context filename user owner count) =
      (reached.setRequests (reached.nm.accessRequests ++
        [newRequest count filename user accessRead owner])).setStatus
          (accessRequestId filename user count) .rejected ∧
      Addresses (reached.nm.accessRequests ++
          [newRequest count filename user accessRead owner])
        (accessRequestId filename user count) count
        (newRequest count filename user accessRead owner) := by
  have stored : (reached.nm.accessRequests ++
      [newRequest count filename user accessRead owner])[count]? =
      some (newRequest count filename user accessRead owner) := by
    rw [← filled.length]
    exact List.getElem?_concat_length
  have addressed :=
    (filled.distinct room filename user owner).addresses stored
  refine ⟨?_, addressed⟩
  have found : findPending (reached.setRequests
      (reached.nm.accessRequests ++
        [newRequest count filename user accessRead owner])) opRejectrequest
      (accessRequestId filename user count) owner =
      .ok (newRequest count filename user accessRead owner) :=
    findPending_eq_ok_iff.mpr ⟨⟨count, addressed⟩, rfl, rfl⟩
  simp only [askedAndRefused, StepRun.run_cons, StepRun.run_nil, callStep,
    handleConnection, filled.asked asks room]
  change (handleRejectrequest _ (accessRequestId filename user count)
    owner).1 = _
  simp only [handleRejectrequest, found]

theorem round (filled : FilledWithDecided start reached count)
    (asks : AsksOwner start filename user owner) (context : NmContext)
    (room : count < maxAccessRequests) :
    FilledWithDecided start
      (StepRun.run callStep reached
        (askedAndRefused context filename user owner count)) (count + 1) := by
  obtain ⟨ended, addressed⟩ := filled.refused asks context room
  have settled := (filled.distinct room filename user owner).settle
    addressed.1 .rejected
  have table : (StepRun.run callStep reached
      (askedAndRefused context filename user owner
        count)).nm.accessRequests =
      reached.nm.accessRequests ++
        [{ newRequest count filename user accessRead owner with
          status := .rejected }] := by
    rw [ended]
    apply (accessRequests_setStatus .rejected addressed).trans
    change List.set (_ ++ _) _ _ = _
    rw [← filled.length, List.set_append_right _ _ le_rfl, Nat.sub_self]
    rfl
  constructor
  · rw [ended]
    exact filled.files
  · rw [table, List.length_append, filled.length]
    rfl
  · rw [table]
    rw [← filled.length, List.set_append_right _ _ le_rfl, Nat.sub_self]
      at settled
    exact filled.length ▸ settled
  · intro other member
    rw [table] at member
    rcases List.mem_append.mp member with earlier | new
    · obtain ⟨time, decided⟩ := filled.old other earlier
      exact ⟨by push_cast; omega, decided⟩
    · cases List.mem_singleton.mp new
      refine ⟨?_, by simp⟩
      change (count : Int) < ((count + 1 : Nat) : Int)
      omega

end FilledWithDecided

/-- So many rounds, one a second. -/
def roundsOfRefusal (context : NmContext) (filename : Filename)
    (user owner : Username) (rounds : Nat) : List Call :=
  (List.range rounds).flatMap (askedAndRefused context filename user owner)

theorem filledWithDecided_rounds (empty : start.nm.accessRequests = [])
    (asks : AsksOwner start filename user owner) (context : NmContext)
    {rounds : Nat} (room : rounds ≤ maxAccessRequests) :
    FilledWithDecided start
      (StepRun.run callStep start
        (roundsOfRefusal context filename user owner rounds)) rounds := by
  induction rounds with
  | zero =>
      have ids : DistinctIds start.nm.accessRequests := by
        rw [empty]
        exact .nil
      refine ⟨rfl, congrArg List.length empty, ids, ?_⟩
      intro request member
      change request ∈ start.nm.accessRequests at member
      rw [empty] at member
      cases member
  | succ rounds ih =>
      have filled := ih (Nat.le_of_succ_le room)
      unfold roundsOfRefusal at filled ⊢
      rw [List.range_succ, List.flatMap_append, StepRun.run_append,
        List.flatMap_singleton]
      exact filled.round asks context room

end

/-- The file of `alice` has been created. -/
private def fileOfAlice : System :=
  callStep askServer (askCall "alice" 0 (.create askFile))

private theorem asks_of_recorded {sys : System}
    (owner : (findRecord sys.nm.toNameServerState askFile).map
      FileInfo.owner = some (askUser "alice")) :
    AsksOwner sys askFile (askUser "bob") (askUser "alice") := by
  obtain ⟨file, found, here⟩ := Option.map_eq_some_iff.mp owner
  exact ⟨file, found, here, by decide⟩

private theorem fileOfAlice_asks :
    AsksOwner fileOfAlice askFile (askUser "bob") (askUser "alice") :=
  asks_of_recorded (by decide +kernel)

private def refusals : List Call :=
  roundsOfRefusal (askCall "alice" 0 (.create askFile)).context askFile
    (askUser "bob") (askUser "alice") maxAccessRequests

/-- A thousand times `alice` turns `bob` down; then the table is full and none
of its requests waits. -/
theorem decided_requests_fill_table :
    ¬ ∀ (sys : System) (calls : List Call) (filename : Filename)
      (username : Username) (now accessType : Int),
      sys.nm.accessRequests = [] →
      Eligible (StepRun.run callStep sys calls) filename username →
      (handleRequestaccess (StepRun.run callStep sys calls) now filename
          username accessType).2 =
        errorResponse opRequestaccess errServerError
          "Too many pending requests".toList →
      pendingCount (StepRun.run callStep sys calls).nm.accessRequests =
        maxAccessRequests := by
  intro every
  have empty : fileOfAlice.nm.accessRequests = [] := nothing_asked
  have filled : FilledWithDecided fileOfAlice
      (StepRun.run callStep fileOfAlice refusals) maxAccessRequests :=
    filledWithDecided_rounds empty fileOfAlice_asks _ le_rfl
  have refused := handleRequestaccess_of_full maxAccessRequests
    (filled.asks fileOfAlice_asks) filled.length.ge accessRead
  have pending := every fileOfAlice refusals askFile (askUser "bob")
    maxAccessRequests accessRead empty (filled.eligible fileOfAlice_asks)
    (by rw [refused])
  have none : pendingCount
      (StepRun.run callStep fileOfAlice refusals).nm.accessRequests = 0 := by
    apply List.countP_eq_zero.mpr
    intro request member waits
    exact (filled.old request member).2 (of_decide_eq_true waits)
  rw [none] at pending
  cases pending

/-- `bob` was turned down once, and asks again. -/
private def oneRefusal : List Call :=
  askedAndRefused (askCall "alice" 0 (.create askFile)).context askFile
    (askUser "bob") (askUser "alice") 5

theorem too_many_requests_second_request :
    requestsStored fileOfAlice oneRefusal = 1 ∧
      requestsDecided fileOfAlice oneRefusal = 1 ∧
      ((handleRequestaccess (StepRun.run callStep fileOfAlice oneRefusal) 6
            askFile (askUser "bob") accessRead).2 =
          errorResponse opRequestaccess errServerError
            "Too many pending requests".toList →
        pendingCount (StepRun.run callStep fileOfAlice
          oneRefusal).nm.accessRequests = maxAccessRequests) := by
  have empty : fileOfAlice.nm.accessRequests = [] := nothing_asked
  have decided : ∀ request ∈ (StepRun.run callStep fileOfAlice
      oneRefusal).nm.accessRequests, request.status ≠ .pending := by
    decide +kernel
  have eligible : Eligible (StepRun.run callStep fileOfAlice oneRefusal)
      askFile (askUser "bob") := by
    refine ⟨⟨_, asks_of_recorded (by decide +kernel)⟩, ?_⟩
    intro other member awaits
    exact decided other member awaits.1
  have stored : requestsStored fileOfAlice oneRefusal = 1 := by
    decide +kernel
  exact ⟨stored, by decide +kernel,
    (too_many_requests_iff empty oneRefusal eligible 6 accessRead).mpr
      (.inl (by rw [stored]; decide))⟩

end Dfs.NameServer
