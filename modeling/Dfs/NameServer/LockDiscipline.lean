import Dfs.Library.LockOrder
import Dfs.Protocol

/-!
# Locks of the name server

What every function of the name server does with its mutexes and with the
peers of its connections, and nothing else: each definition has the name of its
source function.  A thread waits for the `caller` on its connection, for a
`storageServer` that it asks, or for the `script` of an EXEC.
-/

namespace Dfs.NameServer.Locks

open LockOrder LockOrder.Conduct Completion

inductive NmLock where
  | assignmentMutex
  | ssListMutex
  | ssMutex (index : Nat)
  | hashMutex
  | cacheMutex
  | clientListMutex
  | requestMutex
  deriving DecidableEq, Repr

/-- The order in which mutexes are taken inside each other. -/
def NmLock.rank : NmLock → Nat
  | .assignmentMutex => 0
  | .ssListMutex => 0
  | .ssMutex _ => 1
  | .hashMutex => 2
  | .cacheMutex => 2
  | .clientListMutex => 2
  | .requestMutex => 2

inductive Peer where
  | caller
  | storageServer
  | script
  deriving DecidableEq, Repr

abbrev NmConduct := Conduct NmLock Peer

def hashInsertFile : NmConduct := mutex .hashMutex skip

def hashRemoveFile : NmConduct := mutex .hashMutex skip

def hashFindFile : NmConduct := mutex .hashMutex skip

def cacheInsert : NmConduct := mutex .cacheMutex skip

def cacheLookup : NmConduct := mutex .cacheMutex skip

def cacheInvalidate : NmConduct := mutex .cacheMutex skip

def cacheClear : NmConduct := mutex .cacheMutex skip

def printServerStatus : NmConduct :=
  loop fun index => mutex (.ssMutex index) skip

/-- A server that reconnects, or a new one with its files, unless there are
too many. -/
def registerStorageServer : NmConduct :=
  steps [
    mutex .ssListMutex
      (either (choice fun index => mutex (.ssMutex index) skip)
        (perhaps (steps [
          choice fun index => mutex (.ssMutex index) skip,
          loop fun _ => hashInsertFile]))),
    perhaps printServerStatus]

def getAvailableStorageServer : NmConduct :=
  mutex .assignmentMutex (loop fun index => mutex (.ssMutex index) skip)

def addFileToServer : NmConduct :=
  perhaps (choice fun index =>
    mutex (.ssMutex index) (perhaps hashInsertFile))

def removeFileFromServer : NmConduct :=
  perhaps (choice fun index =>
    mutex (.ssMutex index) (perhaps hashRemoveFile))

def findFile : NmConduct := hashFindFile

def registerClient : NmConduct := mutex .clientListMutex skip

/-- The messages on a connection to a storage server, if it is made. -/
def exchange : NmConduct := loop fun _ => wait .storageServer

def answer : NmConduct := wait .caller

def handleStorageServerRegistration : NmConduct :=
  steps [registerStorageServer, answer]

def handleClientRegistration : NmConduct := steps [registerClient, answer]

def handleGetSsInfo : NmConduct :=
  steps [
    cacheLookup,
    perhaps (steps [
      findFile,
      perhaps (steps [
        cacheInsert,
        perhaps (choice fun index => mutex (.ssMutex index) skip)])]),
    answer]

def handleCreateFile : NmConduct :=
  steps [
    findFile,
    perhaps (steps [
      getAvailableStorageServer,
      perhaps (steps [
        addFileToServer,
        perhaps (steps [exchange, perhaps removeFileFromServer])])]),
    answer]

def handleDeleteFile : NmConduct :=
  steps [
    findFile,
    perhaps (steps [
      exchange,
      perhaps (steps [removeFileFromServer, cacheInvalidate])]),
    answer]

def handleListFiles : NmConduct :=
  steps [mutex .clientListMutex skip, answer]

/-- The handlers that find a file and ask its storage server. -/
def forwardRequest : NmConduct := steps [findFile, perhaps exchange, answer]

def handleAddaccess : NmConduct := forwardRequest

def handleRemaccess : NmConduct := forwardRequest

def userHasAccess : NmConduct := perhaps exchange

def getFileDetails : NmConduct := perhaps exchange

def handleInfoRequest : NmConduct := forwardRequest

/-- The storage servers are asked while the mutexes are held. -/
def handleViewFiles : NmConduct :=
  steps [
    mutex .ssListMutex (loop fun index =>
      mutex (.ssMutex index) (loop fun _ =>
        steps [perhaps userHasAccess, perhaps getFileDetails])),
    answer]

def handleExec : NmConduct :=
  steps [
    findFile,
    perhaps (steps [
      perhaps userHasAccess,
      perhaps (steps [exchange, perhaps (wait .script)])]),
    answer]

def handleCreatefolder : NmConduct :=
  steps [
    findFile,
    perhaps (steps [
      getAvailableStorageServer,
      perhaps (steps [exchange, perhaps addFileToServer])]),
    answer]

def handleMoveFile : NmConduct :=
  steps [
    findFile,
    perhaps (steps [
      exchange,
      perhaps (steps [
        hashRemoveFile,
        choice fun index => mutex (.ssMutex index) skip,
        hashInsertFile,
        cacheClear])]),
    answer]

def handleViewfolder : NmConduct := forwardRequest

def handleCheckpoint : NmConduct := forwardRequest

def handleViewcheckpoint : NmConduct := forwardRequest

def handleRevert : NmConduct := forwardRequest

def handleListcheckpoints : NmConduct := forwardRequest

def handleRequestaccess : NmConduct :=
  steps [findFile, perhaps (mutex .requestMutex skip), answer]

def handleViewrequests : NmConduct :=
  steps [mutex .requestMutex skip, answer]

def handleApproverequest : NmConduct :=
  steps [
    mutex .requestMutex skip,
    perhaps (steps [findFile, perhaps exchange]),
    answer]

def handleRejectrequest : NmConduct :=
  steps [mutex .requestMutex skip, answer]

def routeRequest (operation : Nat) : NmConduct :=
  match operation with
  | 200 => handleStorageServerRegistration
  | 201 => handleClientRegistration
  | 300 => handleGetSsInfo
  | 100 => handleCreateFile
  | 103 => handleDeleteFile
  | 108 => handleAddaccess
  | 109 => handleRemaccess
  | 106 => handleListFiles
  | 107 => handleViewFiles
  | 104 => handleInfoRequest
  | 110 => handleExec
  | 112 => handleCreatefolder
  | 113 => handleMoveFile
  | 114 => handleViewfolder
  | 115 => handleCheckpoint
  | 116 => handleViewcheckpoint
  | 117 => handleRevert
  | 118 => handleListcheckpoints
  | 119 => handleRequestaccess
  | 120 => handleViewrequests
  | 121 => handleApproverequest
  | 122 => handleRejectrequest
  | _ => answer

/-- The thread of a connection; `operation` is that of its first message. -/
def handleConnection (operation : Nat) : NmConduct :=
  steps [wait .caller, perhaps (routeRequest operation)]

section

variable {silent : Peer → Prop}

theorem ordered_findFile : findFile.Ordered NmLock.rank silent 0 := by
  simp [findFile, hashFindFile]

theorem ordered_registerStorageServer :
    registerStorageServer.Ordered NmLock.rank silent 0 := by
  simp [registerStorageServer, hashInsertFile, printServerStatus,
    NmLock.rank]

theorem ordered_getAvailableStorageServer :
    getAvailableStorageServer.Ordered NmLock.rank silent 0 := by
  simp [getAvailableStorageServer, NmLock.rank]

theorem ordered_addFileToServer :
    addFileToServer.Ordered NmLock.rank silent 0 := by
  simp [addFileToServer, hashInsertFile, NmLock.rank]

theorem ordered_removeFileFromServer :
    removeFileFromServer.Ordered NmLock.rank silent 0 := by
  simp [removeFileFromServer, hashRemoveFile, NmLock.rank]

theorem ordered_exchange : exchange.Ordered NmLock.rank silent 0 := by
  simp [exchange]

theorem ordered_answer : answer.Ordered NmLock.rank silent 0 := by
  simp [answer]

theorem ordered_forwardRequest :
    forwardRequest.Ordered NmLock.rank silent 0 := by
  simp [forwardRequest, ordered_findFile, ordered_exchange, ordered_answer]

/-- VIEW is ordered where its storage servers answer. -/
theorem ordered_handleViewFiles (answered : ¬ silent .storageServer) :
    handleViewFiles.Ordered NmLock.rank silent 0 := by
  simp [handleViewFiles, userHasAccess, getFileDetails, exchange, answered,
    ordered_answer, NmLock.rank]

theorem ordered_routeRequest {operation : Nat}
    (answered : (operation : Int) = opView → ¬ silent .storageServer) :
    (routeRequest operation).Ordered NmLock.rank silent 0 := by
  by_cases view : operation = 107
  · subst view
    exact ordered_handleViewFiles (answered rfl)
  unfold routeRequest
  split <;> first
  | exact absurd rfl view
  | simp [handleStorageServerRegistration, handleClientRegistration,
      handleGetSsInfo, handleCreateFile, handleDeleteFile, handleAddaccess,
      handleRemaccess, handleListFiles, handleInfoRequest, handleExec,
      handleCreatefolder, handleMoveFile, handleViewfolder, handleCheckpoint,
      handleViewcheckpoint, handleRevert, handleListcheckpoints,
      handleRequestaccess, handleViewrequests, handleApproverequest,
      handleRejectrequest, cacheLookup, cacheInsert, cacheInvalidate,
      cacheClear, registerClient, hashRemoveFile, hashInsertFile,
      userHasAccess, ordered_findFile, ordered_registerStorageServer,
      ordered_getAvailableStorageServer, ordered_addFileToServer,
      ordered_removeFileFromServer, ordered_exchange, ordered_answer,
      ordered_forwardRequest]

theorem ordered_handleConnection {operation : Nat}
    (answered : (operation : Int) = opView → ¬ silent .storageServer) :
    (handleConnection operation).Ordered NmLock.rank silent 0 := by
  simp [handleConnection, ordered_routeRequest answered]

end

/-- Any number of connections, each with any operation.  Any peer may fall
silent at any message, except that the storage servers have to answer a VIEW.
Then no two threads hold the same mutex, every run goes on until each thread is
done or left waiting, and a thread that was left waiting holds no mutex. -/
theorem connections_complete (count : Nat) (operations : Fin count → Nat)
    (silent : Fin count → Peer → Prop)
    (answered : ∀ i, (operations i : Int) = opView →
      ¬ silent i .storageServer)
    (actions : Fin count → List (Action NmLock Peer))
    (performs : ∀ i, Performs (handleConnection (operations i)) (actions i)) :
    Completes (Step silent) Settled (unstarted actions) ∧
      ∀ threads, Reachable (Step silent) (unstarted actions) threads →
        Exclusive threads ∧
          ∀ i, (threads i).rest = [] → (threads i).held = [] :=
  ordered_complete
    (fun i => ordered_handleConnection (answered i)) performs

/-- Two LISTs.  One client sends its request and does not read the answer. -/
theorem connections_complete_lists :
    ∃ front : List (Action NmLock Peer),
      Performs (handleConnection 106) (front ++ [.wait .caller]) ∧
      ∃ threads,
        Reachable (Step fun (_ : Fin 2) _ => True)
          (unstarted fun _ => front ++ [.wait .caller]) threads ∧
        threads 0 = ⟨[], []⟩ ∧
        threads 1 = ⟨[], front ++ [.wait .caller]⟩ ∧
        Completes (Step fun (_ : Fin 2) _ => True) Settled
          (unstarted fun _ => front ++ [.wait .caller]) := by
  let front : List (Action NmLock Peer) :=
    [.wait .caller, .acquire .clientListMutex .exclusive,
      .release .clientListMutex .exclusive]
  obtain ⟨listed, lists, rfl⟩ : ∃ actions,
      Performs (routeRequest 106) actions ∧
        actions = front.tail ++ [.wait .caller] :=
    ⟨_, .cons (.hold .skip) (.cons (.wait _) .skip), rfl⟩
  obtain ⟨actions, performs, rfl⟩ : ∃ actions,
      Performs (handleConnection 106) actions ∧
        actions = front ++ [.wait .caller] :=
    ⟨_, .cons (.wait _) (.cons (.choice 0 lists) .skip), rfl⟩
  have answered : ¬(106 : Nat) = opView := by decide
  obtain ⟨completes, holdsNothing⟩ := connections_complete 2 (fun _ => 106)
    (fun _ _ => True) (fun _ view => absurd view answered) _
    fun _ => performs
  obtain ⟨threads, reachable, left, others⟩ := @falls_silent NmLock Peer
    (Fin 2) NmLock.rank (fun _ _ => True) _ _ _
    (fun _ => ordered_handleConnection fun view => absurd view answered)
    _ (fun _ => performs) 0 .caller front [] rfl trivial
  have empty := (holdsNothing threads reachable).2 0 left
  refine ⟨front, performs, threads, reachable, ?_, others 1 (by decide),
    completes⟩
  cases first : threads 0 with
  | mk held rest =>
      rw [first] at left empty
      cases left
      cases empty
      rfl

end Dfs.NameServer.Locks
