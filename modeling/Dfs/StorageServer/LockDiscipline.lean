import Dfs.Library.LockOrder
import Dfs.Protocol

/-!
# Locks of the storage server

What the functions behind the two ports of the storage server do with its
locks and with the peer of their connection; each definition has the name of
its source function.  A loaded file is known by a number, and so is a sentence.
That locks are destroyed with their file is not modelled.
-/

namespace Dfs.StorageServer.Locks

open LockOrder LockOrder.Conduct Completion

inductive SsLock where
  | commitMutex
  | undoMutex
  | fileCacheMutex
  | metadataMutex
  | accessCacheMutex
  | refcountLock (file : Nat)
  | fileRwlock (file : Nat)
  | sentenceLock (sentence : Nat)
  deriving DecidableEq, Repr

/-- The order in which locks are taken inside each other. -/
def SsLock.rank : SsLock → Nat
  | .commitMutex => 0
  | .undoMutex => 1
  | .fileCacheMutex => 2
  | .metadataMutex => 2
  | .accessCacheMutex => 3
  | .refcountLock _ => 3
  | .fileRwlock _ => 3
  | .sentenceLock _ => 3

/-- The other end of the connection, a client or the name server. -/
inductive Peer where
  | caller
  deriving DecidableEq, Repr

abbrev SsConduct := Conduct SsLock Peer

def findMetadata : SsConduct := mutex .metadataMutex skip

def saveMetadataLl : SsConduct := perhaps (mutex .metadataMutex skip)

def buildAccessCacheForFile : SsConduct := mutex .accessCacheMutex skip

def invalidateAccessCacheForFile : SsConduct := mutex .accessCacheMutex skip

def lookupAccessCache : SsConduct := mutex .accessCacheMutex skip

/-- `has_read_access_ll` and `has_write_access_ll` differ in the bit they ask
for. -/
def hasAccessLl : SsConduct :=
  steps [
    findMetadata,
    perhaps (steps [
      lookupAccessCache,
      perhaps (steps [buildAccessCacheForFile, lookupAccessCache])])]

def hasReadAccessLl : SsConduct := hasAccessLl

def hasWriteAccessLl : SsConduct := hasAccessLl

def getFileMetadataLl : SsConduct :=
  steps [findMetadata, perhaps (mutex .metadataMutex skip)]

/-- Find a record, change it and save all. -/
def updateMetadata : SsConduct :=
  steps [
    findMetadata,
    perhaps (steps [mutex .metadataMutex skip, saveMetadataLl])]

def updateFileStatisticsLl : SsConduct := updateMetadata

def updateFileModifiedTimeLl : SsConduct := updateMetadata

def updateFileWriteStatsLl : SsConduct := updateMetadata

def updateFileAccessedTimeLl : SsConduct := updateMetadata

/-- The access cache is invalidated before the metadata are released. -/
def changeUserAccess : SsConduct :=
  steps [
    findMetadata,
    perhaps (steps [
      mutex .metadataMutex invalidateAccessCacheForFile,
      saveMetadataLl])]

def addUserAccessLl : SsConduct := changeUserAccess

def removeUserAccessLl : SsConduct := changeUserAccess

def addMetadataLl : SsConduct :=
  steps [mutex .metadataMutex skip, perhaps saveMetadataLl]

def fileAddref (file : Nat) : SsConduct := mutex (.refcountLock file) skip

def fileRelease (file : Nat) : SsConduct :=
  steps [mutex (.refcountLock file) skip, perhaps (mutex .fileCacheMutex skip)]

/-- The reference to the file that is returned is taken inside. -/
def getFileFromCache : SsConduct :=
  mutex .fileCacheMutex (perhaps (choice fileAddref))

def reloadFileFromDisk : SsConduct := mutex .fileCacheMutex skip

def createFileLl : SsConduct :=
  steps [
    findMetadata,
    perhaps (steps [mutex .metadataMutex skip, perhaps saveMetadataLl])]

def deleteFileLl : SsConduct :=
  steps [
    findMetadata,
    perhaps (steps [
      mutex .fileCacheMutex
        (perhaps (choice fun file => mutex (.refcountLock file) skip)),
      perhaps (steps [mutex .metadataMutex skip, saveMetadataLl])])]

/-- The reference is not given back. -/
def readLoadedFile : SsConduct :=
  steps [
    getFileFromCache,
    perhaps (choice fun file => hold (.fileRwlock file) .shared skip)]

def syncFileToDisk : SsConduct := readLoadedFile

def saveUndoBackupLl : SsConduct := readLoadedFile

def lockSentenceLl : SsConduct :=
  steps [
    getFileFromCache,
    perhaps (steps [
      perhaps (choice fun sentence => mutex (.sentenceLock sentence) skip),
      choice fileRelease])]

def unlockSentenceLl : SsConduct :=
  steps [
    getFileFromCache,
    perhaps (choice fun sentence => mutex (.sentenceLock sentence) skip)]

def undoFileChangeLl : SsConduct :=
  mutex .undoMutex (perhaps reloadFileFromDisk)

/-- Messages to or from the other end. -/
def converse : SsConduct := loop fun _ => wait .caller

def handleReadRequest : SsConduct :=
  steps [hasReadAccessLl, converse, perhaps updateFileAccessedTimeLl]

/-- Between `lock_commit` and `unlock_commit`. -/
def commitEdits : SsConduct :=
  mutex .commitMutex (steps [
    getFileFromCache,
    perhaps (steps [
      choice fileRelease,
      perhaps (steps [syncFileToDisk, updateFileWriteStatsLl])])])

/-- After the answer to the request: the session, which a lack of memory can
end before the commands or among them. -/
def writeMode : SsConduct :=
  steps [
    saveUndoBackupLl,
    perhaps converse,
    unlockSentenceLl,
    perhaps (either undoFileChangeLl commitEdits)]

def handleWriteRequest : SsConduct :=
  steps [
    hasWriteAccessLl,
    perhaps (steps [
      lockSentenceLl,
      perhaps (steps [
        getFileFromCache,
        either unlockSentenceLl
          (steps [choice fileRelease, wait .caller, writeMode])])]),
    perhaps (wait .caller)]

def handleStreamRequest : SsConduct :=
  steps [hasReadAccessLl, perhaps updateFileAccessedTimeLl, converse]

def handleUndoRequest : SsConduct :=
  steps [
    mutex .commitMutex
      (steps [undoFileChangeLl, perhaps updateFileStatisticsLl]),
    wait .caller]

def handleClientConnection (operation : Nat) : SsConduct :=
  steps [
    wait .caller,
    perhaps (match operation with
      | 101 => handleReadRequest
      | 102 => handleWriteRequest
      | 105 => handleStreamRequest
      | 111 => handleUndoRequest
      | _ => wait .caller)]

/-- EXEC answers in pieces, the other operations with one message. -/
def handleNmConnection (operation : Nat) : SsConduct :=
  steps [
    wait .caller,
    perhaps (steps [
      match operation with
        | 301 => steps [createFileLl, perhaps saveUndoBackupLl]
        | 302 => deleteFileLl
        | 104 => getFileMetadataLl
        | 306 => addUserAccessLl
        | 307 => removeUserAccessLl
        | 112 => perhaps addMetadataLl
        | 117 => perhaps updateFileModifiedTimeLl
        | _ => skip,
      converse])]

section

variable {silent : Peer → Prop}

theorem ordered_findMetadata {bound : Nat} (below : bound ≤ 2) :
    findMetadata.Ordered SsLock.rank silent bound := by
  simp [findMetadata, SsLock.rank, below]

theorem ordered_saveMetadataLl {bound : Nat} (below : bound ≤ 2) :
    saveMetadataLl.Ordered SsLock.rank silent bound := by
  simp [saveMetadataLl, SsLock.rank, below]

theorem ordered_hasAccessLl :
    hasAccessLl.Ordered SsLock.rank silent 0 := by
  simp [hasAccessLl, ordered_findMetadata, lookupAccessCache,
    buildAccessCacheForFile]

theorem ordered_getFileMetadataLl :
    getFileMetadataLl.Ordered SsLock.rank silent 0 := by
  simp [getFileMetadataLl, ordered_findMetadata]

theorem ordered_updateMetadata {bound : Nat} (below : bound ≤ 2) :
    updateMetadata.Ordered SsLock.rank silent bound := by
  simp [updateMetadata, ordered_findMetadata, ordered_saveMetadataLl, below,
    SsLock.rank]

theorem ordered_changeUserAccess :
    changeUserAccess.Ordered SsLock.rank silent 0 := by
  simp [changeUserAccess, ordered_findMetadata, ordered_saveMetadataLl,
    invalidateAccessCacheForFile, SsLock.rank]

theorem ordered_addMetadataLl :
    addMetadataLl.Ordered SsLock.rank silent 0 := by
  simp [addMetadataLl, ordered_saveMetadataLl]

theorem ordered_fileRelease {bound : Nat} (below : bound ≤ 2) (file : Nat) :
    (fileRelease file).Ordered SsLock.rank silent bound := by
  simp [fileRelease, SsLock.rank, below]
  omega

theorem ordered_getFileFromCache {bound : Nat} (below : bound ≤ 2) :
    getFileFromCache.Ordered SsLock.rank silent bound := by
  simp [getFileFromCache, fileAddref, SsLock.rank, below]

theorem ordered_createFileLl :
    createFileLl.Ordered SsLock.rank silent 0 := by
  simp [createFileLl, ordered_findMetadata, ordered_saveMetadataLl]

theorem ordered_deleteFileLl :
    deleteFileLl.Ordered SsLock.rank silent 0 := by
  simp [deleteFileLl, ordered_findMetadata, ordered_saveMetadataLl,
    SsLock.rank]

theorem ordered_readLoadedFile {bound : Nat} (below : bound ≤ 2) :
    readLoadedFile.Ordered SsLock.rank silent bound := by
  simp [readLoadedFile, ordered_getFileFromCache, below, SsLock.rank]
  omega

theorem ordered_lockSentenceLl :
    lockSentenceLl.Ordered SsLock.rank silent 0 := by
  simp [lockSentenceLl, ordered_getFileFromCache, ordered_fileRelease]

theorem ordered_unlockSentenceLl :
    unlockSentenceLl.Ordered SsLock.rank silent 0 := by
  simp [unlockSentenceLl, ordered_getFileFromCache]

theorem ordered_undoFileChangeLl {bound : Nat} (below : bound ≤ 1) :
    undoFileChangeLl.Ordered SsLock.rank silent bound := by
  simp [undoFileChangeLl, reloadFileFromDisk, SsLock.rank, below]

theorem ordered_converse : converse.Ordered SsLock.rank silent 0 := by
  simp [converse]

theorem ordered_commitEdits :
    commitEdits.Ordered SsLock.rank silent 0 := by
  simp [commitEdits, ordered_getFileFromCache, ordered_fileRelease,
    syncFileToDisk, ordered_readLoadedFile, updateFileWriteStatsLl,
    ordered_updateMetadata, SsLock.rank]

theorem ordered_handleWriteRequest :
    handleWriteRequest.Ordered SsLock.rank silent 0 := by
  simp [handleWriteRequest, writeMode, hasWriteAccessLl, ordered_hasAccessLl,
    ordered_lockSentenceLl, ordered_unlockSentenceLl,
    ordered_getFileFromCache, ordered_fileRelease, saveUndoBackupLl,
    ordered_readLoadedFile, ordered_undoFileChangeLl, ordered_commitEdits,
    ordered_converse]

theorem ordered_handleUndoRequest :
    handleUndoRequest.Ordered SsLock.rank silent 0 := by
  simp [handleUndoRequest, ordered_undoFileChangeLl, updateFileStatisticsLl,
    ordered_updateMetadata, SsLock.rank]

theorem ordered_handleClientConnection (operation : Nat) :
    (handleClientConnection operation).Ordered SsLock.rank silent 0 := by
  unfold handleClientConnection
  split <;>
    simp [handleReadRequest, handleStreamRequest, hasReadAccessLl,
      ordered_hasAccessLl, updateFileAccessedTimeLl, ordered_updateMetadata,
      ordered_handleWriteRequest, ordered_handleUndoRequest,
      ordered_converse]

theorem ordered_handleNmConnection (operation : Nat) :
    (handleNmConnection operation).Ordered SsLock.rank silent 0 := by
  unfold handleNmConnection
  split <;>
    simp [ordered_createFileLl, saveUndoBackupLl, ordered_readLoadedFile,
      ordered_deleteFileLl, ordered_getFileMetadataLl, addUserAccessLl,
      removeUserAccessLl, ordered_changeUserAccess, ordered_addMetadataLl,
      updateFileModifiedTimeLl, ordered_updateMetadata, ordered_converse]

end

/-- A thread of the storage server. -/
inductive Connection where
  | client (operation : Nat)
  | nameServer (operation : Nat)
  deriving DecidableEq, Repr

def Connection.conduct : Connection → SsConduct
  | .client operation => handleClientConnection operation
  | .nameServer operation => handleNmConnection operation

theorem Connection.ordered {silent : Peer → Prop} (connection : Connection) :
    connection.conduct.Ordered SsLock.rank silent 0 := by
  cases connection with
  | client operation => exact ordered_handleClientConnection operation
  | nameServer operation => exact ordered_handleNmConnection operation

/-- Any number of connections at both ports, each with any operation and with
a peer that may fall silent at any message: no two threads hold a lock that
excludes them, every run goes on until each thread is done or left waiting, and
a thread that was left waiting holds no lock.  So a client that stops in the
middle of a WRITE keeps nobody else from being served. -/
theorem silent_peers_block_nobody (count : Nat)
    (connections : Fin count → Connection) (silent : Fin count → Peer → Prop)
    (actions : Fin count → List (Action SsLock Peer))
    (performs : ∀ i, Performs (connections i).conduct (actions i)) :
    Completes (Step silent) Settled (unstarted actions) ∧
      ∀ threads, Reachable (Step silent) (unstarted actions) threads →
        Exclusive threads ∧
          ∀ i, (threads i).rest = [] → (threads i).held = [] :=
  ordered_complete (fun i => (connections i).ordered) performs

/-- Two WRITEs.  One client falls silent among the commands of its session. -/
theorem silent_peers_block_nobody_write :
    ∃ front rest : List (Action SsLock Peer),
      Performs (Connection.client 102).conduct
        (front ++ .wait .caller :: rest) ∧
      ∃ threads,
        Reachable (Step fun (_ : Fin 2) _ => True)
          (unstarted fun _ => front ++ .wait .caller :: rest) threads ∧
        threads 0 = ⟨[], []⟩ ∧
        threads 1 = ⟨[], front ++ .wait .caller :: rest⟩ ∧
        Completes (Step fun (_ : Fin 2) _ => True) Settled
          (unstarted fun _ => front ++ .wait .caller :: rest) := by
  obtain ⟨checked, checks⟩ : ∃ actions, Performs hasWriteAccessLl actions :=
    ⟨_, .cons (.hold .skip) (.cons (.choice 1 .skip) .skip)⟩
  obtain ⟨cached, caches⟩ : ∃ actions, Performs getFileFromCache actions :=
    ⟨_, .hold (.choice 1 .skip)⟩
  obtain ⟨released, releases⟩ :
      ∃ actions, Performs (choice fileRelease) actions :=
    ⟨_, .choice 0 (.cons (.hold .skip) (.cons (.choice 1 .skip) .skip))⟩
  obtain ⟨locked, locks⟩ : ∃ actions, Performs lockSentenceLl actions :=
    ⟨_, .cons caches (.cons (.choice 1 .skip) .skip)⟩
  obtain ⟨saved, saves⟩ : ∃ actions, Performs saveUndoBackupLl actions :=
    ⟨_, .cons caches (.cons (.choice 1 .skip) .skip)⟩
  obtain ⟨unlocked, unlocks⟩ : ∃ actions, Performs unlockSentenceLl actions :=
    ⟨_, .cons caches (.cons (.choice 1 .skip) .skip)⟩
  -- one command arrives, and the next message never does
  obtain ⟨talked, session⟩ : ∃ actions, Performs writeMode actions ∧
      actions = saved ++ .wait .caller :: .wait .caller :: unlocked :=
    ⟨_, .cons saves (.cons (.choice 0 (.again 0 (.wait _)
      (.again 0 (.wait _) .leave))) (.cons unlocks
        (.cons (.choice 1 .skip) .skip))), by simp⟩
  let front := .wait .caller :: (checked ++ locked ++ cached ++ released ++
    .wait .caller :: saved ++ [.wait .caller])
  obtain ⟨actions, performs, rfl⟩ : ∃ actions,
      Performs (Connection.client 102).conduct actions ∧
        actions = front ++ .wait .caller :: unlocked := by
    have granted : Performs
        (steps [choice fileRelease, wait .caller, writeMode]) _ :=
      .cons releases (.cons (.wait _) (.cons session.1 .skip))
    have handled : Performs handleWriteRequest _ :=
      .cons checks (.cons (.choice 0 (.cons locks (.cons
        (.choice 0 (.cons caches (.cons (.choice 1 granted) .skip)))
        .skip))) (.cons (.choice 1 .skip) .skip))
    exact ⟨_, .cons (.wait _) (.cons (.choice 0 handled) .skip),
      by simp [front, session.2]⟩
  obtain ⟨completes, holdsNothing⟩ := silent_peers_block_nobody 2
    (fun _ => .client 102) (fun _ _ => True) _ fun _ => performs
  obtain ⟨threads, reachable, left, others⟩ := @falls_silent SsLock Peer
    (Fin 2) SsLock.rank (fun _ _ => True) _ _ _
    (fun _ => Connection.ordered (.client 102))
    _ (fun _ => performs) 0 .caller front unlocked rfl trivial
  have empty := (holdsNothing threads reachable).2 0 left
  refine ⟨front, unlocked, performs, threads, reachable, ?_,
    others 1 (by decide), completes⟩
  cases first : threads 0 with
  | mk held calls =>
      rw [first] at left empty
      cases left
      cases empty
      rfl

end Dfs.StorageServer.Locks
