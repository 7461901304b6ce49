import Dfs.Library.StepRun
import Dfs.NameServer.ClientHandlers

/-!
# Requests step by step

Every connection has a thread of its own.  Here GET_SS_INFO, CREATE and DELETE
are cut where one critical section ends and the next begins, so that the steps
of any number of threads can be interleaved.  A thread that runs alone does
what its handler does.
-/

namespace Dfs.NameServer

open Dfs.StorageServer

/-- What a step finds besides the system: the time, the storage server's
surroundings and the fate of a connection. -/
structure StepInput where
  context : NmContext
  now : Int
  link : Link
  deriving DecidableEq, Repr

theorem nm_exchange (sys : System) (context : NmContext) (server : Nat)
    (request : NmRequest) (link : Link) :
    (sys.exchange context server request link).1.nm = sys.nm := by
  cases link with
  | refused => rfl
  | broken => rfl
  | lost buffer => rfl
  | reliable => rfl

inductive CreatePhase where
  | start
  | checked
  | chosen (ssId : Int)
  | registered (ssId : Int)
  | failed (ssId : Int) (response : Response)
  | answered (response : Response)
  deriving DecidableEq, Repr

def createAnswer (errorCode : Int) (data : Text) : Response :=
  ⟨msgAck, opCreate, errorCode, data⟩

/-- Where the thread goes with the answer of the storage server. -/
def afterReply (ssId : Int) : Reply → CreatePhase
  | .unconnected =>
      .failed ssId (createAnswer errConnectionFailed
        "Failed to connect to storage server".toList)
  | .unsent =>
      .failed ssId (createAnswer errConnectionFailed
        "Failed to send command to storage server".toList)
  | .unanswered _ =>
      .failed ssId (createAnswer errConnectionFailed
        "Failed to receive response from storage server".toList)
  | .answered response =>
      if response.errorCode = errSuccess then
        .answered (createAnswer response.errorCode response.data)
      else .failed ssId (createAnswer response.errorCode response.data)

def createStep (sys : System) (filename : Filename) (username : Username)
    (input : StepInput) : CreatePhase → System × CreatePhase
  | .start =>
      if (findFile sys.nm.toNameServerState filename).isSome then
        (sys, .answered (createAnswer errFileExists
          "File already exists".toList))
      else (sys, .checked)
  | .checked =>
      let (nm, ssId) := getAvailableStorageServer sys.nm
      ({ sys with nm := nm },
        if ssId < 0 then
          .answered (createAnswer errServerError
            "No available storage servers".toList)
        else .chosen ssId)
  | .chosen ssId =>
      let (sys, result) := sys.addFile input.now ssId filename username
      (sys,
        if result ≠ errSuccess then
          .answered (createAnswer result
            "Failed to register file with storage server".toList)
        else .registered ssId)
  | .registered ssId =>
      match findStorageServer sys.nm.toNameServerState ssId with
      | none => (sys, afterReply ssId .unconnected)
      | some server =>
          let (sys, reply) := sys.exchange input.context server
            (.createFile filename username) input.link
          (sys, afterReply ssId reply)
  | .failed ssId response => (sys.removeFile ssId filename, .answered response)
  | .answered response => (sys, .answered response)

inductive DeletePhase where
  | start
  | found (file : FilePtr)
  | owned (ssId : Int)
  | deleted (ssId : Int) (response : Response)
  | removed (response : Response)
  | answered (response : Response)
  deriving DecidableEq, Repr

def deleteError (errorCode : Int) (data : Text) : DeletePhase :=
  .answered (errorResponse opDelete errorCode data)

def deleteStep (sys : System) (filename : Filename) (username : Username)
    (input : StepInput) : DeletePhase → System × DeletePhase
  | .start =>
      match findFile sys.nm.toNameServerState filename with
      | none => (sys, deleteError errFileNotFound "File not found".toList)
      | some file => (sys, .found file)
  | .found file =>
      let record := readFile sys.nm.toNameServerState file
      if record.owner ≠ username then
        (sys, deleteError errNotOwner
          "Only file owner can delete the file".toList)
      else (sys, .owned record.ssId)
  | .owned ssId =>
      match findStorageServer sys.nm.toNameServerState ssId with
      | none =>
          (sys, deleteError errConnectionFailed
            "Failed to connect to storage server".toList)
      | some server =>
          match sys.exchange input.context server
              (.deleteFile filename username) input.link with
          | (sys, .unconnected) =>
              (sys, deleteError errConnectionFailed
                "Failed to connect to storage server".toList)
          | (sys, .unsent) =>
              (sys, deleteError errConnectionFailed
                "Failed to send command to storage server".toList)
          | (sys, .unanswered _) =>
              (sys, deleteError errConnectionFailed
                "Failed to receive response from storage server".toList)
          | (sys, .answered response) =>
              let answer : Response :=
                ⟨msgAck, opDelete, response.errorCode, response.data⟩
              (sys, if response.errorCode = errSuccess then
                .deleted ssId answer else .answered answer)
  | .deleted ssId response => (sys.removeFile ssId filename, .removed response)
  | .removed response => (sys.invalidate filename, .answered response)
  | .answered response => (sys, .answered response)

/-- The storage server is asked, and the records wait for its answer. -/
theorem nm_deleteStep_owned (sys : System) (filename : Filename)
    (username : Username) (input : StepInput) (ssId : Int) :
    (deleteStep sys filename username input (.owned ssId)).1.nm = sys.nm := by
  simp only [deleteStep]
  split
  · rfl
  · cases input.link with
    | refused => rfl
    | broken => rfl
    | lost buffer => rfl
    | reliable => rfl

inductive LookupPhase where
  | start
  | missed
  | found (file : FilePtr)
  | cached (file : FilePtr)
  | answered (response : LocationResponse)
  deriving DecidableEq, Repr

def System.setCache (sys : System) (cache : SearchCache) : System :=
  { sys with nm := { sys.nm with searchCache := cache } }

/-- The record is read through the pointer whenever it is needed. -/
def lookupStep (sys : System) (filename : Filename) (input : StepInput) :
    LookupPhase → System × LookupPhase
  | .start =>
      let (cache, hit) := cacheLookup input.now sys.nm.searchCache filename
      (sys.setCache cache,
        match hit.bind (cachedLocation sys.nm.toNameServerState) with
        | some response => .answered response
        | none => .missed)
  | .missed =>
      match findFile sys.nm.toNameServerState filename with
      | none =>
          (sys, .answered (locationError errFileNotFound
            "File not found".toList))
      | some file => (sys, .found file)
  | .found file =>
      (sys.cacheFile input.now filename
        (readFile sys.nm.toNameServerState file).ssId, .cached file)
  | .cached file =>
      (sys, .answered (fileLocation sys.nm.toNameServerState
        (readFile sys.nm.toNameServerState file).ssId))
  | .answered response => (sys, .answered response)

/-- A request and how far its thread has come. -/
inductive Task where
  | create (filename : Filename) (username : Username) (phase : CreatePhase)
  | delete (filename : Filename) (username : Username) (phase : DeletePhase)
  | getSsInfo (filename : Filename) (phase : LookupPhase)
  deriving DecidableEq, Repr

def taskStep (sys : System) (input : StepInput) : Task → System × Task
  | .create filename username phase =>
      let (sys, phase) := createStep sys filename username input phase
      (sys, .create filename username phase)
  | .delete filename username phase =>
      let (sys, phase) := deleteStep sys filename username input phase
      (sys, .delete filename username phase)
  | .getSsInfo filename phase =>
      let (sys, phase) := lookupStep sys filename input phase
      (sys, .getSsInfo filename phase)

/-- The system with its threads, one for each connection. -/
structure Threads where
  sys : System
  tasks : Nat → Task

/-- One thread takes a step, or a storage server registers. -/
inductive ThreadEvent where
  | step (thread : Nat) (input : StepInput)
  | register (now : Int) (msg : RegisterMessage)

def threadStep (threads : Threads) : ThreadEvent → Threads
  | .step thread input =>
      let (sys, task) := taskStep threads.sys input (threads.tasks thread)
      { sys := sys, tasks := Function.update threads.tasks thread task }
  | .register now msg => { threads with sys := threads.sys.register now msg }

/-- The request has not begun, or it has been answered. -/
def Task.quiet : Task → Bool
  | .create _ _ .start => true
  | .create _ _ (.answered _) => true
  | .delete _ _ .start => true
  | .delete _ _ (.answered _) => true
  | .getSsInfo _ .start => true
  | .getSsInfo _ (.answered _) => true
  | _ => false

/-- No request is in progress. -/
def Threads.Quiet (threads : Threads) : Prop :=
  ∀ thread, (threads.tasks thread).quiet = true

/-- A thread that takes no step stays where it is. -/
theorem tasks_run {events : List ThreadEvent} {thread : Nat}
    (waiting : ∀ other input, .step other input ∈ events → other ≠ thread)
    (threads : Threads) :
    (StepRun.run threadStep threads events).tasks thread =
      threads.tasks thread := by
  induction events generalizing threads with
  | nil => rfl
  | cons event events ih =>
      have later := ih (fun other input member =>
        waiting other input (List.mem_cons_of_mem _ member))
        (threadStep threads event)
      rw [StepRun.run_cons, later]
      cases event with
      | register now msg => rfl
      | step other input =>
          exact Function.update_of_ne
            (waiting other input List.mem_cons_self).symm _ _

/-- So many steps of one thread, with no other thread between them. -/
def runAlone {phase : Type} (step : System → phase → System × phase) :
    Nat → System → phase → System × phase
  | 0, sys, current => (sys, current)
  | steps + 1, sys, current =>
      runAlone step steps (step sys current).1 (step sys current).2

section

variable {sys : System} {filename : Filename} {username : Username}
  {input : StepInput}

theorem createStep_alone :
    runAlone (fun sys => createStep sys filename username input) 5 sys
        .start =
      ((handleCreateFile sys input.context input.now input.link filename
        username).1,
        .answered (handleCreateFile sys input.context input.now input.link
          filename username).2) := by
  cases known : (findFile sys.nm.toNameServerState filename).isSome with
  | true => simp [runAlone, createStep, handleCreateFile, known, createAnswer]
  | false =>
      by_cases unavailable : (getAvailableStorageServer sys.nm).2 < 0
      · simp [runAlone, createStep, handleCreateFile, known, unavailable,
          createAnswer]
      · generalize chosen : getAvailableStorageServer sys.nm = choice
          at unavailable
        obtain ⟨nm, ssId⟩ := choice
        generalize registered : ({ sys with nm := nm } : System).addFile
          input.now ssId filename username = addition
        obtain ⟨listed, result⟩ := addition
        by_cases refused : result = errSuccess
        · cases location : findStorageServer listed.nm.toNameServerState
              ssId with
          | none =>
              simp [runAlone, createStep, handleCreateFile, known, chosen,
                unavailable, registered, refused, location, afterReply,
                createAnswer]
          | some server =>
              cases fate : input.link with
              | refused =>
                  simp [runAlone, createStep, handleCreateFile, known, chosen,
                    unavailable, registered, refused, location, fate,
                    System.exchange, afterReply, createAnswer]
              | broken =>
                  simp [runAlone, createStep, handleCreateFile, known, chosen,
                    unavailable, registered, refused, location, fate,
                    System.exchange, afterReply, createAnswer]
              | lost buffer =>
                  simp [runAlone, createStep, handleCreateFile, known, chosen,
                    unavailable, registered, refused, location, fate,
                    System.exchange, afterReply, createAnswer]
              | reliable =>
                  by_cases success : (handleNmConnection input.context
                      (listed.stores server)
                      (.createFile filename username)).2.errorCode =
                      errSuccess
                  · simp [runAlone, createStep, handleCreateFile, known,
                      chosen, unavailable, registered, refused, location,
                      fate, System.exchange, afterReply, createAnswer,
                      success]
                  · simp [runAlone, createStep, handleCreateFile, known,
                      chosen, unavailable, registered, refused, location,
                      fate, System.exchange, afterReply, createAnswer,
                      success]
        · simp [runAlone, createStep, handleCreateFile, known, chosen,
            unavailable, registered, refused, createAnswer]

theorem deleteStep_alone :
    runAlone (fun sys => deleteStep sys filename username input) 5 sys
        .start =
      ((handleDeleteFile sys input.context input.link filename username).1,
        .answered (handleDeleteFile sys input.context input.link filename
          username).2) := by
  cases found : findFile sys.nm.toNameServerState filename with
  | none =>
      simp [runAlone, deleteStep, handleDeleteFile, findRecord, found,
        deleteError]
  | some file =>
      by_cases owner : (readFile sys.nm.toNameServerState file).owner =
          username
      · cases located : findStorageServer sys.nm.toNameServerState
            (readFile sys.nm.toNameServerState file).ssId with
        | none =>
            simp [runAlone, deleteStep, handleDeleteFile, findRecord, found,
              owner, located, deleteError]
        | some server =>
            cases fate : input.link with
            | refused =>
                simp [runAlone, deleteStep, handleDeleteFile, findRecord,
                  found, owner, located, fate, System.exchange, deleteError]
            | broken =>
                simp [runAlone, deleteStep, handleDeleteFile, findRecord,
                  found, owner, located, fate, System.exchange, deleteError]
            | lost buffer =>
                simp [runAlone, deleteStep, handleDeleteFile, findRecord,
                  found, owner, located, fate, System.exchange, deleteError]
            | reliable =>
                by_cases success : (handleNmConnection input.context
                    (sys.stores server)
                    (.deleteFile filename username)).2.errorCode =
                    errSuccess
                · simp [runAlone, deleteStep, handleDeleteFile, findRecord,
                    found, owner, located, fate, System.exchange, success]
                · simp [runAlone, deleteStep, handleDeleteFile, findRecord,
                    found, owner, located, fate, System.exchange, success]
      · simp [runAlone, deleteStep, handleDeleteFile, findRecord, found,
          owner, deleteError]

theorem lookupStep_alone :
    runAlone (fun sys => lookupStep sys filename input) 4 sys .start =
      ((handleGetSsInfo sys input.now filename).1,
        .answered (handleGetSsInfo sys input.now filename).2) := by
  generalize looked : cacheLookup input.now sys.nm.searchCache filename =
    answer
  obtain ⟨cache, hit⟩ := answer
  cases cached : hit.bind (cachedLocation sys.nm.toNameServerState) with
  | some response =>
      simp [runAlone, lookupStep, handleGetSsInfo, looked, cached,
        System.setCache]
  | none =>
      cases found : findFile sys.nm.toNameServerState filename with
      | none =>
          simp [runAlone, lookupStep, handleGetSsInfo, lookupLocation,
            looked, cached, findRecord, found, System.setCache]
      | some file =>
          simp [runAlone, lookupStep, handleGetSsInfo, lookupLocation,
            looked, cached, findRecord, found, System.setCache,
            System.cacheFile]

end

end Dfs.NameServer
