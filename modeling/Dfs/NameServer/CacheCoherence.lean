import Dfs.NameServer.ForwardedRequests
import Dfs.NameServer.Placement
import Dfs.NameServer.RequestSteps

/-!
# Coherence of the location cache

A reader finds a file in one step and caches its location in a later one; a
deletion removes the file in one step and invalidates the cache in the next;
a creation that fails removes its file without a word to the cache.  An entry
is current as long as it was current when it was made and no creation takes
its file back.
-/

namespace Dfs.NameServer

open Dfs.StorageServer

/-- A request that has not begun. -/
inductive ThreadRequest where
  | create (filename : Filename) (username : Username)
  | delete (filename : Filename) (username : Username)
  | getSsInfo (filename : Filename)
  deriving DecidableEq, Repr

def ThreadRequest.task : ThreadRequest → Task
  | .create filename username => .create filename username .start
  | .delete filename username => .delete filename username .start
  | .getSsInfo filename => .getSsInfo filename .start

def startThreads (hosts : Hosts) (requests : Nat → ThreadRequest) :
    Threads :=
  { sys := initSystem hosts, tasks := fun thread => (requests thread).task }

/-- A deletion of the file is between its removal and the invalidation of the
cache. -/
def PendingDelete (threads : Threads) (filename : Filename) : Prop :=
  ∃ thread username response,
    threads.tasks thread = .delete filename username (.removed response)

/-- A server brings new names only.  A list is extended by a name that the
index does not have.  A failed creation takes back a file that is not cached,
and a reader caches a location that is still right, unless a deletion is about
to invalidate the entry anyway. -/
def KeepsCache (threads : Threads) : ThreadEvent → Prop
  | .register now msg =>
      findStorageServer threads.sys.nm.toNameServerState msg.ssId = none →
      ((CText.strtok ',' msg.data.chars).map fun token =>
        (parseFileEntry now msg.ssId token).filename).Nodup ∧
      ∀ token ∈ CText.strtok ',' msg.data.chars,
        findFile threads.sys.nm.toNameServerState
          (parseFileEntry now msg.ssId token).filename = none
  | .step thread input =>
      match threads.tasks thread with
      | .create filename username (.chosen ssId) =>
          findFile threads.sys.nm.toNameServerState filename = none ∨
            (addFileToServer input.now threads.sys.nm.toNameServerState ssId
              filename username).2 ≠ errSuccess
      | .create filename _ (.failed ssId _) =>
          (threads.sys.nm.searchCache (cacheHash filename)).matches
              filename = false ∨
            PendingDelete threads filename ∨
            ∀ server, findStorageServer threads.sys.nm.toNameServerState
                ssId = some server →
              ¬Lists threads.sys.nm.toNameServerState server filename
      | .getSsInfo filename (.found file) =>
          location threads.sys.nm.toNameServerState filename =
              some (readFile threads.sys.nm.toNameServerState file).ssId ∨
            PendingDelete threads filename
      | _ => True

/-- The entry stands in the slot of its name, and the file is where it says. -/
def EntryHolds (cache : SearchCache) (held : Filename → Int → Prop)
    (slot : Nat) : Prop :=
  (cache slot).valid = true →
    cacheHash (cache slot).filename = slot ∧
      held (cache slot).filename (cache slot).ssId

section

variable {cache : SearchCache} {held : Filename → Int → Prop}
  {filename : Filename} {slot : Nat}

theorem entryHolds_insert {now ssId : Int}
    (holds : ∀ slot, EntryHolds cache held slot)
    (current : held filename ssId) :
    EntryHolds (cacheInsert now cache filename ssId) held slot := by
  rw [cacheInsert_eq]
  unfold EntryHolds
  by_cases here : slot = cacheHash filename
  · subst here
    rw [Function.update_self]
    exact fun _ => ⟨rfl, current⟩
  · rw [Function.update_of_ne here]
    exact holds slot

/-- An entry that is made invalid matters no longer. -/
theorem entryHolds_drop {position : Nat} {entry : CacheEntry}
    (dropped : entry.valid = false)
    (others : slot ≠ position → EntryHolds cache held slot) :
    EntryHolds (Function.update cache position entry) held slot := by
  intro valid
  by_cases here : slot = position
  · subst here
    rw [Function.update_self, dropped] at valid
    cases valid
  · rw [Function.update_of_ne here] at valid ⊢
    exact others here valid

theorem entryHolds_lookup (now : Int) (filename : Filename)
    (holds : ∀ slot, EntryHolds cache held slot) :
    EntryHolds (cacheLookup now cache filename).1 held slot := by
  unfold cacheLookup
  simp only
  split
  · split
    · exact holds slot
    · exact entryHolds_drop rfl fun _ => holds slot
  · exact holds slot

/-- After an invalidation nothing need be held for the name. -/
theorem entryHolds_invalidate {after : Filename → Int → Prop}
    (holds : ∀ slot, EntryHolds cache held slot)
    (others : ∀ other ssId, other ≠ filename → held other ssId →
      after other ssId) :
    EntryHolds (cacheInvalidate cache filename) after slot := by
  unfold cacheInvalidate
  simp only
  split
  · apply entryHolds_drop rfl
    intro elsewhere valid
    obtain ⟨own, before⟩ := holds slot valid
    refine ⟨own, others _ _ ?_ before⟩
    intro same
    rw [same] at own
    exact elsewhere own.symm
  · rename_i unmatched
    intro valid
    obtain ⟨own, before⟩ := holds slot valid
    refine ⟨own, others _ _ ?_ before⟩
    intro same
    rw [same] at own
    subst own
    simp [CacheEntry.matches, valid, same] at unmatched

theorem EntryHolds.imp {after : Filename → Int → Prop}
    (holds : EntryHolds cache held slot)
    (weaker : held (cache slot).filename (cache slot).ssId →
      after (cache slot).filename (cache slot).ssId) :
    EntryHolds cache after slot :=
  fun valid => ⟨(holds valid).1, weaker (holds valid).2⟩

end

/-- The file is there, or the entry is about to be invalidated. -/
def Held (threads : Threads) (filename : Filename) (ssId : Int) : Prop :=
  location threads.sys.nm.toNameServerState filename = some ssId ∨
    PendingDelete threads filename

structure Current (threads : Threads) : Prop where
  settled : Settled threads.sys.nm.toNameServerState
  entries : ∀ slot,
    EntryHolds threads.sys.nm.searchCache (Held threads) slot

section

variable {threads : Threads} {thread : Nat} {sys : System} {task : Task}

/-- Only the step that invalidates the cache ends a deletion. -/
theorem PendingDelete.update {filename : Filename}
    (pending : PendingDelete threads filename)
    (other : ∀ username response, threads.tasks thread ≠
      .delete filename username (.removed response)) :
    PendingDelete ⟨sys, Function.update threads.tasks thread task⟩
      filename := by
  obtain ⟨deleter, username, response, removed⟩ := pending
  have different : deleter ≠ thread := by
    intro same
    rw [same] at removed
    exact other username response removed
  refine ⟨deleter, username, response, ?_⟩
  rw [← removed]
  exact Function.update_of_ne different _ _

/-- A step that makes no entry and takes no file away. -/
theorem Current.keep (current : Current threads)
    (settled : Settled sys.nm.toNameServerState)
    (kept : KeepsLocations threads.sys.nm.toNameServerState
      sys.nm.toNameServerState)
    (cache : sys.nm.searchCache = threads.sys.nm.searchCache)
    (other : ∀ filename username response, threads.tasks thread ≠
      .delete filename username (.removed response)) :
    Current ⟨sys, Function.update threads.tasks thread task⟩ := by
  refine ⟨settled, fun slot => ?_⟩
  simp only [cache]
  apply (current.entries slot).imp
  rintro (located | pending)
  · exact .inl (kept _ _ located)
  · exact .inr (pending.update (other _))

/-- A step that leaves the name server as it is. -/
theorem Current.idle (current : Current threads)
    (same : sys.nm.toNameServerState = threads.sys.nm.toNameServerState)
    (cache : sys.nm.searchCache = threads.sys.nm.searchCache)
    (other : ∀ filename username response, threads.tasks thread ≠
      .delete filename username (.removed response)) :
    Current ⟨sys, Function.update threads.tasks thread task⟩ :=
  current.keep (same ▸ current.settled)
    (fun _ _ located => by rw [same]; exact located) cache other

theorem Current.held_of_matches (current : Current threads)
    {filename : Filename}
    (matched : (threads.sys.nm.searchCache (cacheHash filename)).matches
      filename = true) :
    Held threads filename
      (threads.sys.nm.searchCache (cacheHash filename)).ssId := by
  simp only [CacheEntry.matches, Bool.and_eq_true,
    decide_eq_true_eq] at matched
  have held := (current.entries _ matched.1).2
  rwa [matched.2] at held

/-- A removal affects the entry of its own name only. -/
theorem Current.remove (current : Current threads) (ssId : Int)
    (filename : Filename)
    (other : ∀ filename username response, threads.tasks thread ≠
      .delete filename username (.removed response))
    (own : (threads.sys.nm.searchCache (cacheHash filename)).matches
        filename = true →
      Held ⟨threads.sys.removeFile ssId filename,
        Function.update threads.tasks thread task⟩ filename
        (threads.sys.nm.searchCache (cacheHash filename)).ssId) :
    Current ⟨threads.sys.removeFile ssId filename,
      Function.update threads.tasks thread task⟩ := by
  obtain ⟨settled, unmoved⟩ := current.settled.removeFile ssId filename
  refine ⟨settled, fun slot valid => ?_⟩
  obtain ⟨place, held⟩ := current.entries slot valid
  refine ⟨place, ?_⟩
  by_cases same : (threads.sys.nm.searchCache slot).filename = filename
  · rw [same] at place
    subst place
    have matched : (threads.sys.nm.searchCache
        (cacheHash filename)).matches filename = true := by
      simp only [CacheEntry.matches, Bool.and_eq_true, decide_eq_true_eq]
      exact ⟨valid, same⟩
    have after := own matched
    simp only [System.removeFile, same]
    exact after
  · rcases held with located | pending
    · exact .inl ((unmoved _ same).trans located)
    · exact .inr (pending.update (other _))

theorem Current.createStep (current : Current threads) {filename : Filename}
    {username : Username} {phase : CreatePhase} {input : StepInput}
    (creating : threads.tasks thread = .create filename username phase)
    (condition : KeepsCache threads (.step thread input)) :
    Current ⟨(createStep threads.sys filename username input phase).1,
      Function.update threads.tasks thread task⟩ := by
  have other : ∀ filename username response, threads.tasks thread ≠
      .delete filename username (.removed response) := by
    rw [creating]
    simp
  cases phase with
  | start =>
      simp only [NameServer.createStep]
      split
      · exact current.idle rfl rfl other
      · exact current.idle rfl rfl other
  | checked =>
      obtain ⟨files, cache⟩ := getAvailableStorageServer_records
        threads.sys.nm
      exact current.idle files cache other
  | chosen ssId =>
      simp only [KeepsCache, creating] at condition
      obtain ⟨settled, kept⟩ := current.settled.addFile condition
      exact current.keep settled kept rfl other
  | registered ssId =>
      simp only [NameServer.createStep]
      split
      · exact current.idle rfl rfl other
      · rename_i server _
        have same := nm_exchange threads.sys input.context server
          (.createFile filename username) input.link
        exact current.idle (by simp only [same]) (by simp only [same]) other
  | failed ssId response =>
      simp only [KeepsCache, creating] at condition
      apply current.remove ssId filename other
      intro matched
      rcases condition with absent | pending | unlisted
      · rw [absent] at matched
        cases matched
      · exact .inr (pending.update (other _))
      · rcases removeFileFromServer_cases threads.sys.nm.toNameServerState
            ssId filename with
          ⟨result, -, unchanged, -⟩ | ⟨server, ss, slot, known, found,
            inSlot, -⟩
        · rcases current.held_of_matches matched with located | pending
          · refine .inl ?_
            simp only [System.removeFile, unchanged]
            exact located
          · exact .inr (pending.update (other _))
        · refine (unlisted server known ?_).elim
          rw [Lists, serverFiles_of_getElem? found]
          exact findSlot_isSome_iff.mp (by simp [inSlot])
  | answered response => exact current.idle rfl rfl other

theorem Current.deleteStep (current : Current threads) {filename : Filename}
    {username : Username} {phase : DeletePhase} {input : StepInput}
    (deleting : threads.tasks thread = .delete filename username phase) :
    Current ⟨(deleteStep threads.sys filename username input phase).1,
      Function.update threads.tasks thread (.delete filename username
        (deleteStep threads.sys filename username input phase).2)⟩ := by
  have other : (∀ response, phase ≠ .removed response) →
      ∀ filename username response, threads.tasks thread ≠
        .delete filename username (.removed response) := by
    intro earlier _ _ response same
    rw [deleting] at same
    simp only [Task.delete.injEq] at same
    exact earlier response same.2.2
  cases phase with
  | start =>
      simp only [NameServer.deleteStep]
      split
      · exact current.idle rfl rfl (other (by simp))
      · exact current.idle rfl rfl (other (by simp))
  | found file =>
      simp only [NameServer.deleteStep]
      split
      · exact current.idle rfl rfl (other (by simp))
      · exact current.idle rfl rfl (other (by simp))
  | owned ssId =>
      have same := nm_deleteStep_owned threads.sys filename username input
        ssId
      exact current.idle (by rw [same]) (by rw [same]) (other (by simp))
  | deleted ssId response =>
      apply current.remove ssId filename (other (by simp))
      intro _
      exact .inr ⟨thread, username, response, Function.update_self ..⟩
  | removed response =>
      refine ⟨current.settled, fun slot => ?_⟩
      apply entryHolds_invalidate current.entries
      rintro name ssId different (located | pending)
      · exact .inl located
      · refine .inr (pending.update ?_)
        intro user reply same
        rw [deleting] at same
        simp only [Task.delete.injEq] at same
        exact different same.1.symm
  | answered response => exact current.idle rfl rfl (other (by simp))

theorem Current.lookupStep (current : Current threads) {filename : Filename}
    {phase : LookupPhase} {input : StepInput}
    (looking : threads.tasks thread = .getSsInfo filename phase)
    (condition : KeepsCache threads (.step thread input)) :
    Current ⟨(lookupStep threads.sys filename input phase).1,
      Function.update threads.tasks thread task⟩ := by
  have other : ∀ filename username response, threads.tasks thread ≠
      .delete filename username (.removed response) := by
    rw [looking]
    simp
  have later : ∀ name ssId, Held threads name ssId → ∀ sys : System,
      sys.nm.toNameServerState = threads.sys.nm.toNameServerState →
      Held ⟨sys, Function.update threads.tasks thread task⟩ name ssId := by
    rintro name ssId (located | pending) sys same
    · exact .inl (by rw [← located, ← same])
    · exact .inr (pending.update (other _))
  cases phase with
  | start =>
      refine ⟨current.settled, fun slot => ?_⟩
      exact (entryHolds_lookup input.now filename current.entries).imp
        fun held => later _ _ held _ rfl
  | missed =>
      simp only [NameServer.lookupStep]
      split
      · exact current.idle rfl rfl other
      · exact current.idle rfl rfl other
  | found file =>
      simp only [KeepsCache, looking] at condition
      refine ⟨current.settled, fun slot => ?_⟩
      exact (entryHolds_insert current.entries condition).imp
        fun held => later _ _ held _ rfl
  | cached file => exact current.idle rfl rfl other
  | answered response => exact current.idle rfl rfl other

theorem Current.step (current : Current threads) (event : ThreadEvent)
    (condition : KeepsCache threads event) :
    Current (threadStep threads event) := by
  cases event with
  | register now msg =>
      obtain ⟨settled, kept⟩ :=
        current.settled.registerStorageServer now msg condition
      refine ⟨settled, fun slot => (current.entries slot).imp ?_⟩
      rintro (located | pending)
      · exact .inl (kept _ _ located)
      · exact .inr pending
  | step thread input =>
      cases task : threads.tasks thread with
      | create filename username phase =>
          simp only [threadStep, task, taskStep]
          exact current.createStep task condition
      | delete filename username phase =>
          simp only [threadStep, task, taskStep]
          exact current.deleteStep task
      | getSsInfo filename phase =>
          simp only [threadStep, task, taskStep]
          exact current.lookupStep task condition

end

theorem current_startThreads (hosts : Hosts)
    (requests : Nat → ThreadRequest) :
    Current (startThreads hosts requests) := by
  refine ⟨settled_initNameServer, fun slot valid => ?_⟩
  cases valid

/-- The answer without its text for the user. -/
def LocationResponse.withoutText (response : LocationResponse) :
    LocationResponse :=
  { response with data := [] }

/-- A hit is answered as the look-up behind the cache answers it. -/
theorem withoutText_cachedLocation {nm : NameServerState} {ssId : Int}
    {response : LocationResponse}
    (hit : cachedLocation nm ssId = some response) :
    response.withoutText = (fileLocation nm ssId).withoutText := by
  obtain ⟨ss, found, rfl⟩ := Option.map_eq_some_iff.mp hit
  obtain ⟨server, online, located⟩ := Option.bind_eq_some_iff.mp found
  unfold onlineServer at online
  split at online
  · cases online
  · rename_i place known
    split at online
    · rename_i running
      cases online
      have status : ss.status = .online := by
        simpa [isOnline, located] using running
      simp [fileLocation, known, located, status, NameServer.located,
        LocationResponse.withoutText]
    · cases online

/-- Where the entry of a file is right, GET_SS_INFO answers as it would
without the cache. -/
theorem handleGetSsInfo_eq_lookup {sys : System} {filename : Filename}
    (now : Int)
    (right : (sys.nm.searchCache (cacheHash filename)).matches
        filename = true →
      location sys.nm.toNameServerState filename =
        some (sys.nm.searchCache (cacheHash filename)).ssId) :
    (handleGetSsInfo sys now filename).2.withoutText =
      (lookupLocation sys now filename).2.withoutText := by
  unfold handleGetSsInfo
  generalize looked : cacheLookup now sys.nm.searchCache filename = answer
  obtain ⟨cache, hit⟩ := answer
  simp only
  split
  · rename_i response found
    obtain ⟨ssId, same, cached⟩ := Option.bind_eq_some_iff.mp found
    subst same
    obtain ⟨matched, _, entry⟩ := cacheLookup_hit_iff.mp (by rw [looked])
    have place := right matched
    rw [entry] at place
    obtain ⟨file, record, own⟩ := Option.map_eq_some_iff.mp place
    rw [withoutText_cachedLocation cached]
    simp only [lookupLocation, record, own]
  · simp only [lookupLocation]
    split
    · rfl
    · rfl

theorem not_pendingDelete_of_quiet {threads : Threads}
    (quiet : threads.Quiet) (filename : Filename) :
    ¬PendingDelete threads filename := by
  rintro ⟨thread, username, response, removed⟩
  have idle := quiet thread
  rw [removed] at idle
  cases idle

/-- In every run whose steps keep the cache, a quiet system has only current
entries, and its cached answers are those of the look-up. -/
theorem cache_coherent_when_quiet (hosts : Hosts)
    (requests : Nat → ThreadRequest)
    (events : List ThreadEvent)
    (steps : StepRun.AllSteps threadStep KeepsCache
      (startThreads hosts requests) events)
    (quiet : (StepRun.run threadStep (startThreads hosts requests)
      events).Quiet) :
    let sys := (StepRun.run threadStep (startThreads hosts requests)
      events).sys
    (∀ slot now, (sys.nm.searchCache slot).valid = true →
      now - (sys.nm.searchCache slot).timestamp < cacheTtl →
      ∃ file, findRecord sys.nm.toNameServerState
          (sys.nm.searchCache slot).filename = some file ∧
        file.ssId = (sys.nm.searchCache slot).ssId) ∧
    ∀ filename now, (handleGetSsInfo sys now filename).2.withoutText =
      (lookupLocation sys now filename).2.withoutText := by
  have current : Current (StepRun.run threadStep
      (startThreads hosts requests) events) :=
    StepRun.invariant (fun _ event before => before.step event)
      (current_startThreads hosts requests) steps
  have located : ∀ filename ssId, Held (StepRun.run threadStep
      (startThreads hosts requests) events) filename ssId →
      location (StepRun.run threadStep (startThreads hosts requests)
        events).sys.nm.toNameServerState filename = some ssId := by
    rintro filename ssId (place | pending)
    · exact place
    · exact (not_pendingDelete_of_quiet quiet filename pending).elim
  refine ⟨?_, ?_⟩
  · intro slot now valid _
    have place := located _ _ (current.entries slot valid).2
    exact Option.map_eq_some_iff.mp place
  · intro filename now
    apply handleGetSsInfo_eq_lookup
    intro matched
    exact located _ _ (current.held_of_matches matched)

/-- The steps that keep the cache without a look at other threads. -/
private def plainlyKeeps (threads : Threads) : ThreadEvent → Bool
  | .register _ msg => CText.strtok ',' msg.data.chars = []
  | .step thread _ =>
      match threads.tasks thread with
      | .create filename _ (.chosen _) =>
          findFile threads.sys.nm.toNameServerState filename = none
      | .create filename _ (.failed _ _) =>
          (threads.sys.nm.searchCache (cacheHash filename)).matches
            filename = false
      | .getSsInfo filename (.found file) =>
          location threads.sys.nm.toNameServerState filename =
            some (readFile threads.sys.nm.toNameServerState file).ssId
      | _ => true

private theorem keepsCache_of_plainly (threads : Threads)
    (event : ThreadEvent) (plainly : plainlyKeeps threads event = true) :
    KeepsCache threads event := by
  cases event with
  | register now msg =>
      have empty : CText.strtok ',' msg.data.chars = [] := by
        simpa [plainlyKeeps] using plainly
      intro _
      simp [empty]
  | step thread input =>
      simp only [plainlyKeeps] at plainly
      simp only [KeepsCache]
      split at plainly
      · exact .inl (of_decide_eq_true plainly)
      · exact .inl (of_decide_eq_true plainly)
      · exact .inl (of_decide_eq_true plainly)
      · trivial

private def cacheInput : StepInput :=
  { context :=
      { now := CString.copy 63 []
        leftover := newMetadata (CString.copy 255 []) (CString.copy 63 [])
          (CString.copy 63 []) }
    now := 0
    link := .reliable }

private def cachedFile : Filename := CString.copy 255 "f".toList

private def cacheUser : Username := CString.copy 63 "alice".toList

/-- Thread 0 creates the file, thread 1 looks it up and thread 2 deletes it. -/
private def cacheRequests : Nat → ThreadRequest
  | 0 => .create cachedFile cacheUser
  | 2 => .delete cachedFile cacheUser
  | _ => .getSsInfo cachedFile

private def cacheThreads : Threads := startThreads freshHosts cacheRequests

private def cacheEvents (order : List Nat) : List ThreadEvent :=
  .register 0 ⟨1, CString.copy 15 [], 0, 0, CString.copy 4095 []⟩ ::
    order.map fun thread => .step thread cacheInput

private def oneAfterTheOther : List Nat := [0, 0, 0, 0, 1, 1, 1, 1]

private def deletedMeanwhile : List Nat :=
  [0, 0, 0, 0, 1, 1, 2, 2, 2, 2, 2, 1, 1]

/-- Only the first three threads take steps. -/
private theorem quiet_cacheEvents {order : List Nat}
    (few : ∀ thread ∈ order, thread < 3)
    (first : ∀ thread < 3, ((StepRun.run threadStep cacheThreads
      (cacheEvents order)).tasks thread).quiet = true) :
    (StepRun.run threadStep cacheThreads (cacheEvents order)).Quiet := by
  intro thread
  by_cases small : thread < 3
  · exact first thread small
  · rw [tasks_run]
    · simp only [cacheThreads, startThreads]
      cases cacheRequests thread with
      | create filename username => rfl
      | delete filename username => rfl
      | getSsInfo filename => rfl
    · intro other input member same
      subst same
      rcases List.mem_cons.mp member with impossible | stepped
      · cases impossible
      · obtain ⟨scheduled, inside, equal⟩ := List.mem_map.mp stepped
        cases equal
        exact small (few _ inside)

theorem cache_coherent_in_turn :
    StepRun.AllSteps threadStep KeepsCache cacheThreads
      (cacheEvents oneAfterTheOther) ∧
    (StepRun.run threadStep cacheThreads
      (cacheEvents oneAfterTheOther)).Quiet ∧
    ∀ filename now,
      (handleGetSsInfo (StepRun.run threadStep cacheThreads
        (cacheEvents oneAfterTheOther)).sys now filename).2.withoutText =
      (lookupLocation (StepRun.run threadStep cacheThreads
        (cacheEvents oneAfterTheOther)).sys now filename).2.withoutText := by
  have plainly : StepRun.AllSteps threadStep
      (fun threads event => plainlyKeeps threads event = true)
      cacheThreads (cacheEvents oneAfterTheOther) := by
    decide +kernel
  have steps := StepRun.allSteps_imp keepsCache_of_plainly plainly
  have quiet := @quiet_cacheEvents oneAfterTheOther (by decide)
    (by decide +kernel)
  exact ⟨steps, quiet,
    (cache_coherent_when_quiet freshHosts cacheRequests _ steps quiet).2⟩

/-- The file is deleted after the look-up found it and before its location is
cached: the entry outlives the file. -/
theorem stale_entry_after_delete :
    (StepRun.run threadStep cacheThreads
      (cacheEvents deletedMeanwhile)).Quiet ∧
    ((StepRun.run threadStep cacheThreads
      (cacheEvents deletedMeanwhile)).sys.nm.searchCache
        (cacheHash cachedFile)).valid = true ∧
    0 - ((StepRun.run threadStep cacheThreads
      (cacheEvents deletedMeanwhile)).sys.nm.searchCache
        (cacheHash cachedFile)).timestamp < cacheTtl ∧
    findRecord (StepRun.run threadStep cacheThreads
      (cacheEvents deletedMeanwhile)).sys.nm.toNameServerState
      ((StepRun.run threadStep cacheThreads
        (cacheEvents deletedMeanwhile)).sys.nm.searchCache
          (cacheHash cachedFile)).filename = none ∧
    (handleGetSsInfo (StepRun.run threadStep cacheThreads
      (cacheEvents deletedMeanwhile)).sys 0 cachedFile).2.errorCode =
        errSuccess := by
  refine ⟨quiet_cacheEvents (by decide) (by decide +kernel), ?_, ?_, ?_, ?_⟩
  · decide +kernel
  · decide +kernel
  · decide +kernel
  · decide +kernel

end Dfs.NameServer
