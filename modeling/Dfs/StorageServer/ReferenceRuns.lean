import Dfs.StorageServer.ReferenceCounts

/-!
# Reference counts between requests

Runs of requests and direct calls of the file handler, in any order.  Every
count is zero in every state that a run reaches, and a deletion drops its
document at once, if and only if each step gives back what it took.  UNDO and
the end of a lost session do so by loading the document anew.
-/

namespace Dfs.StorageServer

/-- The cached document, if there is one, is neither referenced nor marked. -/
def Unreferenced (filename : Filename) (s : FileHandler) : Prop :=
  ∀ file, s.fileCache.get filename = some file →
    file.refcount = 0 ∧ file.markedForDeletion = false

section

variable {s t : FileHandler} {filename : Filename} {file : LoadedFile}

theorem Unreferenced.of_cache (unreferenced : Unreferenced filename s)
    (same : t.fileCache.get filename = s.fileCache.get filename) :
    Unreferenced filename t := by
  intro file cached
  apply unreferenced file
  rw [← same]
  exact cached

theorem unreferenced_of_uncached (uncached : s.fileCache.get filename = none) :
    Unreferenced filename s := by
  intro file cached
  rw [uncached] at cached
  cases cached

theorem unreferenced_loadFileIntoMemory
    (loaded : loadFileIntoMemory s filename = some file) :
    file.refcount = 0 ∧ file.markedForDeletion = false := by
  obtain ⟨content, _, rfl⟩ := Option.map_eq_some_iff.mp loaded
  exact ⟨rfl, rfl⟩

theorem Unreferenced.loaded (unreferenced : Unreferenced filename s)
    (loaded : loadedFile s filename = some file) :
    file.refcount = 0 ∧ file.markedForDeletion = false := by
  unfold loadedFile at loaded
  cases cached : s.fileCache.get filename with
  | some other =>
      rw [cached] at loaded
      cases loaded
      exact unreferenced file cached
  | none =>
      rw [cached] at loaded
      exact unreferenced_loadFileIntoMemory loaded

theorem Unreferenced.references (unreferenced : Unreferenced filename s) :
    references s filename = 0 := by
  unfold StorageServer.references
  cases cached : s.fileCache.get filename with
  | none => rfl
  | some file => exact (unreferenced file cached).1

theorem KeepsReferences.unreferenced
    (keeps : KeepsReferences 0 filename s t)
    (unreferenced : Unreferenced filename s) : Unreferenced filename t := by
  cases loaded : loadedFile s filename with
  | none =>
      apply unreferenced.of_cache
      rw [keeps.unloaded loaded]
  | some file =>
      obtain ⟨unused, unmarked⟩ := unreferenced.loaded loaded
      rcases keeps.loaded file loaded with ⟨document, cached⟩ | ⟨_, freed⟩
      · intro other found
        rw [cached] at found
        cases found
        exact ⟨(Int.add_zero file.refcount).trans unused, unmarked⟩
      · exact unreferenced_of_uncached freed

theorem KeepsReferences.le {kept : Int} (nonnegative : 0 ≤ kept)
    (keeps : KeepsReferences kept filename s t) :
    StorageServer.references s filename ≤
      StorageServer.references t filename := by
  cases loaded : loadedFile s filename with
  | none => exact Int.le_of_eq (keeps.references_unloaded loaded filename).symm
  | some file =>
      rw [keeps.references loaded]
      omega

theorem unreferenced_reloadFileFromDisk :
    Unreferenced filename (reloadFileFromDisk s filename).1 := by
  unfold reloadFileFromDisk
  simp only
  cases loaded : loadFileIntoMemory (s.uncache filename) filename with
  | none =>
      apply unreferenced_of_uncached
      exact Store.get_erase_self _ _
  | some file =>
      intro other cached
      simp only [FileHandler.cache, Store.get_set_self, Option.some.injEq]
        at cached
      subst cached
      exact unreferenced_loadFileIntoMemory loaded

/-- A backup that is written back replaces the document. -/
theorem unreferenced_undoFileChangeLl
    (copied : (s.disk.copy (filePaths s.storage filename).backup
      (filePaths s.storage filename).file).isSome) :
    Unreferenced filename (undoFileChangeLl s filename).1 := by
  obtain ⟨disk, found⟩ := Option.isSome_iff_exists.mp copied
  rw [undoFileChangeLl_eq, found]
  exact unreferenced_reloadFileFromDisk

theorem undoFileChangeLl_of_failed
    (failed : s.disk.copy (filePaths s.storage filename).backup
      (filePaths s.storage filename).file = none) :
    (undoFileChangeLl s filename).1 = s := by
  rw [undoFileChangeLl_eq, failed]

theorem unreferenced_handleUndoRequest
    (unreferenced : Unreferenced filename s) :
    Unreferenced filename (handleUndoRequest s filename).1 := by
  have restored : Unreferenced filename (undoFileChangeLl s filename).1 := by
    cases copied : s.disk.copy (filePaths s.storage filename).backup
        (filePaths s.storage filename).file with
    | none =>
        rw [undoFileChangeLl_of_failed copied]
        exact unreferenced
    | some disk => exact unreferenced_undoFileChangeLl (by rw [copied]; rfl)
  unfold handleUndoRequest
  generalize undoFileChangeLl s filename = result at restored ⊢
  obtain ⟨t, code⟩ := result
  simp only
  split
  · exact restored
  · apply restored.of_cache
    rw [sameFiles_updateFileStatisticsLl.fileCache]

theorem markForDeletion_of_unreferenced
    (unreferenced : Unreferenced filename s) :
    (markForDeletion s filename).fileCache.get filename = none := by
  unfold markForDeletion
  cases cached : s.fileCache.get filename with
  | none => exact cached
  | some file =>
      simp only
      rw [if_pos (unreferenced file cached).1]
      exact Store.get_erase_self _ _

/-- A deletion that finds its record drops the document at once. -/
theorem deleteFileLl_of_unreferenced
    (unreferenced : Unreferenced filename s) (known : filename ∈ s.names) :
    (deleteFileLl s filename).1.fileCache.get filename = none := by
  change (nmDeleteFile s filename).1.fileCache.get filename = none
  rcases nmDeleteFile_cases s filename with
    ⟨unknown, _⟩ | ⟨_, _, result⟩ | ⟨_, _, _, cache⟩
  · exact (unknown known).elim
  · rw [result]
    exact markForDeletion_of_unreferenced unreferenced
  · rw [cache]
    exact markForDeletion_of_unreferenced unreferenced

theorem unreferenced_nmDeleteFile
    (unreferenced : Unreferenced filename s) :
    Unreferenced filename (nmDeleteFile s filename).1 := by
  by_cases known : filename ∈ s.names
  · apply unreferenced_of_uncached
    exact deleteFileLl_of_unreferenced unreferenced known
  · rcases nmDeleteFile_cases s filename with
      ⟨_, result⟩ | ⟨here, _⟩ | ⟨here, _⟩
    · rw [result]
      exact unreferenced
    · exact (known here).elim
    · exact (known here).elim

/-- A CREATE request makes no file and finds no document to back up. -/
def CreatesNothing (s : FileHandler) (filename : Filename) : Prop :=
  filename ∈ s.names ∧ loadedFile s filename = none ∨
    filename ∉ s.names ∧
      (maxFiles ≤ s.metadataList.length ∨
        s.disk.target (filePaths s.storage filename).file = none)

theorem references_saveUndoBackupLl (unreferenced : Unreferenced filename s)
    (loaded : loadedFile s filename = some file) :
    references (saveUndoBackupLl s filename).1 filename = 1 := by
  rw [keepsReferences_saveUndoBackupLl.references loaded,
    unreferenced.references]
  rfl

theorem nmCreateFile_of_unknown (unknown : filename ∉ s.names)
    (username : Username) (now : TimeText) :
    (nmCreateFile s filename username now).1 =
      if maxFiles ≤ s.metadataList.length ∨
          s.disk.target (filePaths s.storage filename).file = none then s
      else (saveUndoBackupLl (createFileLl s filename username now).1
        filename).1 := by
  have unrecorded := findMetadata_eq_none_iff.mpr unknown
  unfold nmCreateFile createFileLl
  simp only [unrecorded, Option.isSome_none, Bool.false_eq_true, ↓reduceIte,
    ge_iff_le, getFilePath_eq]
  by_cases full : maxFiles ≤ s.metadataList.length
  · simp [full]
  · cases opens : s.disk.target (filePaths s.storage filename).file with
    | none => simp [full, FileSystem.write_eq_none opens]
    | some place => simp [full, FileSystem.write_of_target opens]

theorem loadedFile_createFileLl (unknown : filename ∉ s.names)
    (room : ¬(maxFiles ≤ s.metadataList.length ∨
      s.disk.target (filePaths s.storage filename).file = none))
    (unreferenced : Unreferenced filename s) (username : Username)
    (now : TimeText) :
    Unreferenced filename (createFileLl s filename username now).1 ∧
      ∃ file, loadedFile (createFileLl s filename username now).1 filename =
        some file := by
  have unrecorded := findMetadata_eq_none_iff.mpr unknown
  obtain ⟨roomy, writable⟩ := not_or.mp room
  obtain ⟨place, opens⟩ := Option.ne_none_iff_exists'.mp writable
  simp only [createFileLl, unrecorded, Option.isSome_none, ge_iff_le, roomy,
    getFilePath_eq, FileSystem.write_of_target opens, Bool.false_eq_true,
    ↓reduceIte]
  refine ⟨unreferenced, ?_⟩
  unfold loadedFile
  cases cached : s.fileCache.get filename with
  | some file =>
      refine ⟨file, ?_⟩
      simp [saveMetadataLl, cached]
  | none =>
      simp [saveMetadataLl, cached, loadFileIntoMemory, FileHandler.diskText,
        getFilePath_eq, FileSystem.load_put opens]

/-- A CREATE request that does anything leaves the reference of its
backup. -/
theorem nmCreateFile_counts (unreferenced : Unreferenced filename s)
    (username : Username) (now : TimeText) :
    CreatesNothing s filename ∧
        Unreferenced filename (nmCreateFile s filename username now).1 ∨
      ¬CreatesNothing s filename ∧
        references (nmCreateFile s filename username now).1 filename = 1 := by
  by_cases known : filename ∈ s.names
  · rcases nmCreateFile_cases s filename username now with
      ⟨_, result⟩ | ⟨unknown, _⟩ | ⟨unknown, _⟩
    · rw [result]
      cases loaded : loadedFile s filename with
      | none =>
          refine .inl ⟨.inl ⟨known, loaded⟩, ?_⟩
          apply unreferenced.of_cache
          rw [keepsReferences_saveUndoBackupLl.unloaded loaded]
      | some file =>
          refine .inr ⟨?_, references_saveUndoBackupLl unreferenced loaded⟩
          rintro (⟨_, unloaded⟩ | ⟨unknown, _⟩)
          · rw [loaded] at unloaded
            cases unloaded
          · exact unknown known
    · exact (unknown known).elim
    · exact (unknown known).elim
  · rw [nmCreateFile_of_unknown known]
    by_cases refused : maxFiles ≤ s.metadataList.length ∨
        s.disk.target (filePaths s.storage filename).file = none
    · rw [if_pos refused]
      exact .inl ⟨.inr ⟨known, refused⟩, unreferenced⟩
    · rw [if_neg refused]
      obtain ⟨fresh, file, loaded⟩ :=
        loadedFile_createFileLl known refused unreferenced username now
      refine .inr ⟨?_, references_saveUndoBackupLl fresh loaded⟩
      rintro (⟨here, _⟩ | ⟨_, failed⟩)
      · exact known here
      · exact refused failed

/-- The roll-back of a session loads the document anew: the file can be opened
for writing, and there is a backup, saved by the session or before it. -/
def RollsBack (s : FileHandler) (filename : Filename) : Prop :=
  let paths := filePaths s.storage filename
  let made := s.disk.makeParents paths.backup
  (made.PathExists paths.backup ∨ (made.target paths.backup).isSome) ∧
    (made.target paths.file).isSome

instance (s : FileHandler) (filename : Filename) :
    Decidable (RollsBack s filename) :=
  inferInstanceAs (Decidable (_ ∧ _))

/-- No WRITE session is opened, or the connection is lost before `ETIRW` and
the backup is written back. -/
def WritesNothing (s : FileHandler) (filename : Filename)
    (username : Username) (sentenceIndex : Int)
    (messages : List WriteMessage) : Prop :=
  (∀ file, ¬Opens s filename username sentenceIndex file) ∨
    (∀ message ∈ messages, message.data.chars ≠ etirw) ∧
      RollsBack s filename

theorem unreferenced_openWrite (unreferenced : Unreferenced filename s)
    {username : Username} {sentenceIndex : Int}
    (refused : (openWrite s filename username sentenceIndex).2.2 = none) :
    Unreferenced filename
      (openWrite s filename username sentenceIndex).1 := by
  have checked : Unreferenced filename
      (hasWriteAccessLl s filename username).2 := by
    apply unreferenced.of_cache
    rw [(sameFiles_hasWriteAccessLl username).fileCache]
  unfold openWrite at refused ⊢
  generalize hasWriteAccessLl s filename username = access
    at checked refused ⊢
  obtain ⟨allowed, t⟩ := access
  simp only at checked refused ⊢
  split
  · exact checked
  · rename_i granted
    rw [if_neg granted] at refused
    split
    · exact checked
    · rename_i valid
      rw [valid] at refused
      have locked := (@keepsReferences_lockSentenceLl t filename sentenceIndex
        username).unreferenced checked
      generalize lockSentenceLl t filename sentenceIndex username = result
        at locked refused ⊢
      obtain ⟨u, code⟩ := result
      simp only at locked refused ⊢
      split
      · exact locked
      · rename_i opened
        rw [if_neg opened, getFileFromCache_eq] at refused
        rw [getFileFromCache_eq]
        cases loaded : loadedFile u filename with
        | some file =>
            rw [loaded] at refused
            cases refused
        | none =>
            apply locked.of_cache
            have kept := @keepsReferences_unlockSentenceLl u filename
              sentenceIndex username
            exact congrArg (fun cache => cache.get filename)
              (kept.unloaded loaded)

theorem refcount_lockedFile (unreferenced : Unreferenced filename s)
    {sentenceIndex : Int} {username : Username}
    (locked : lockedFile s filename sentenceIndex username = some file) :
    file.refcount = 0 := by
  unfold lockedFile at locked
  cases loaded : loadedFile s filename with
  | none =>
      rw [loaded] at locked
      cases locked
  | some other =>
      rw [loaded] at locked
      simp only at locked
      split at locked
      · exact (unreferenced_loadFileIntoMemory locked).1
      · cases locked
        exact (unreferenced.loaded loaded).1

/-- A commit gives back no reference of others. -/
theorem references_le_commitWrite (session : WriteSession) (now : TimeText) :
    references s filename ≤
      references (commitWrite s filename session now).1 filename := by
  unfold commitWrite
  rw [getFileFromCache_eq]
  cases loaded : loadedFile s filename with
  | none => exact Int.le_refl _
  | some file =>
      have released : ∀ document, KeepsReferences 0 filename s
          (fileRelease ((s.cache filename
            { file with refcount := file.refcount + 1 }).cache filename
              ⟨document, file.refcount + 1, file.markedForDeletion⟩)
            filename) := by
        intro document
        apply KeepsReferences.release loaded
        · exact ((frame_cache _).trans (frame_cache _)).cache
        · exact Store.get_set_self _ _ _
      simp only [Option.map_some]
      split
      · apply KeepsReferences.le (Int.le_refl 0)
        apply KeepsReferences.release loaded
        · exact (frame_cache _).cache
        · exact Store.get_set_self _ _ _
      · rename_i document committed
        have synced := KeepsReferences.le (by omega)
          (@keepsReferences_syncFileToDisk (fileRelease ((s.cache filename
            { file with refcount := file.refcount + 1 }).cache filename
              ⟨document, file.refcount + 1, file.markedForDeletion⟩)
            filename) filename)
        have before := KeepsReferences.le (Int.le_refl 0) (released document)
        have same : ∀ t : FileHandler,
            references (updateFileWriteStatsLl t filename now).1 filename =
              references t filename := by
          intro t
          unfold references
          rw [(sameFiles_updateFileWriteStatsLl now).fileCache]
        rw [same]
        exact Int.le_trans before synced

theorem receiveCommands_completed (session : WriteSession)
    (messages : List WriteMessage) :
    (receiveCommands session messages).2.1 = true ↔
      ∃ message ∈ messages, message.data.chars = etirw := by
  induction messages generalizing session with
  | nil => simp [receiveCommands]
  | cons message messages ih =>
      by_cases ended : message.data.chars = etirw
      · simp [receiveCommands, ended]
      · simp [receiveCommands, ended, ih]

theorem references_unlockSentenceLl
    (loaded : loadedFile s filename = some file) (sentenceIndex : Int)
    (username : Username) :
    references (unlockSentenceLl s filename sentenceIndex username).1
      filename = file.refcount + 1 := by
  rw [(keepsReferences_unlockSentenceLl _ _).references loaded,
    refcount_loadedFile loaded]

/-- What the session left of the backup is there when it is lost. -/
theorem copy_saveBackup_isSome_iff (paths : FilePaths) (fs : FileSystem)
    (text : Text) :
    ((paths.saveBackup fs text).copy paths.backup paths.file).isSome ↔
      ((fs.makeParents paths.backup).PathExists paths.backup ∨
        ((fs.makeParents paths.backup).target paths.backup).isSome) ∧
      ((fs.makeParents paths.backup).target paths.file).isSome := by
  rw [FileSystem.copy_isSome_iff, FilePaths.saveBackup_eq]
  cases opens : (fs.makeParents paths.backup).target paths.backup with
  | none => simp
  | some place =>
      have stored := @FileSystem.read_put _ _ _ text opens
      simp [← FileSystem.read_isSome_iff, stored]

/-- The roll-back gives all references back with the document, or keeps that
of the unlock. -/
theorem rollbackWrite_counts {session : WriteSession}
    (loaded : loadedFile s filename = some file) :
    ((s.disk.copy (filePaths s.storage filename).backup
          (filePaths s.storage filename).file).isSome ∧
        Unreferenced filename (rollbackWrite s filename session)) ∨
      s.disk.copy (filePaths s.storage filename).backup
          (filePaths s.storage filename).file = none ∧
        references (rollbackWrite s filename session) filename =
          file.refcount + 1 := by
  have kept := (sameDisk_moves filename).unlockSentenceLl s
    session.sentenceIndex session.username
  unfold rollbackWrite
  cases copied : s.disk.copy (filePaths s.storage filename).backup
      (filePaths s.storage filename).file with
  | some disk =>
      refine .inl ⟨rfl, unreferenced_undoFileChangeLl ?_⟩
      rw [kept.disk, kept.storage, copied]
      rfl
  | none =>
      refine .inr ⟨rfl, ?_⟩
      rw [undoFileChangeLl_of_failed (by rw [kept.disk, kept.storage, copied])]
      exact references_unlockSentenceLl loaded _ _

/-- A WRITE request that opens a session leaves a reference, unless the
session is lost and the document loaded anew. -/
theorem handleWriteRequest_counts (unreferenced : Unreferenced filename s)
    (username : Username) (sentenceIndex : Int)
    (messages : List WriteMessage) (now : TimeText) :
    WritesNothing s filename username sentenceIndex messages ∧
        Unreferenced filename (handleWriteRequest s filename username
          sentenceIndex messages now).1 ∨
      ¬WritesNothing s filename username sentenceIndex messages ∧
        1 ≤ references (handleWriteRequest s filename username sentenceIndex
          messages now).1 filename := by
  have refusal := @unreferenced_openWrite s filename unreferenced username
    sentenceIndex
  have session := @openWrite_session s filename username sentenceIndex
  unfold handleWriteRequest
  generalize openWrite s filename username sentenceIndex = result
    at refusal session ⊢
  obtain ⟨t, response, started⟩ := result
  simp only at refusal session ⊢
  rcases session with ⟨rfl, _, refused⟩ |
    ⟨file, opens, rfl, loaded, storage, disk⟩
  · exact .inl ⟨.inl refused, refusal rfl⟩
  · simp only
    have finished := receiveCommands_completed (newSession username
      sentenceIndex (file.wordCountAt sentenceIndex)) messages
    generalize receiveCommands (newSession username sentenceIndex
      (file.wordCountAt sentenceIndex)) messages = received at finished ⊢
    obtain ⟨last, completed, responses⟩ := received
    simp only at finished ⊢
    have zero := refcount_lockedFile unreferenced opens.locked
    cases completed with
    | true =>
        refine .inr ⟨?_, ?_⟩
        · rintro (refused | ⟨silent, _⟩)
          · exact refused file opens
          · obtain ⟨message, member, ends⟩ := finished.mp rfl
            exact silent message member ends
        · have counted := references_unlockSentenceLl loaded
            last.sentenceIndex last.username
          have committed := @references_le_commitWrite (unlockSentenceLl t
            filename last.sentenceIndex last.username).1 filename last now
          simp only [↓reduceIte] at counted ⊢
          omega
    | false =>
        have silent : ∀ message ∈ messages, message.data.chars ≠ etirw := by
          intro message member ends
          simpa using finished.mpr ⟨message, member, ends⟩
        have saved := copy_saveBackup_isSome_iff
          (filePaths s.storage filename) s.disk (undoBackupText file.sentences)
        simp only [Bool.false_eq_true, ↓reduceIte]
        rcases @rollbackWrite_counts t filename _ last loaded with
          ⟨copied, anew⟩ | ⟨failed, counted⟩
        · rw [storage, disk] at copied
          exact .inl ⟨.inr ⟨silent, saved.mp copied⟩, anew⟩
        · rw [storage, disk] at failed
          rw [failed] at saved
          refine .inr ⟨?_, ?_⟩
          · rintro (refused | ⟨_, restores⟩)
            · exact refused file opens
            · simpa using saved.mpr restores
          · simp only at counted
            omega

end

/-- A request, or a direct call of a function that takes a reference. -/
inductive ServerCall where
  | request (request : Request)
  | operate (filename : Filename) (call : ReferenceCall)
  deriving DecidableEq, Repr

def serverStep (s : FileHandler) : ServerCall → FileHandler
  | .request request => handleRequest s request
  | .operate filename call => call.perform s filename

/-- No call is running: every cached document is without references, and a
deletion that finds its record drops the document. -/
structure Balanced (s : FileHandler) : Prop where
  counts : ∀ filename file, s.fileCache.get filename = some file →
    file.refcount = 0
  deletes : ∀ filename, filename ∈ s.names →
    (deleteFileLl s filename).1.fileCache.get filename = none

/-- The step gives back what it takes. -/
def GivesBack (s : FileHandler) : ServerCall → Prop
  | .operate filename call =>
      call.Releases ∨ loadedFile s filename = none
  | .request (.createFile filename _ _) => CreatesNothing s filename
  | .request (.write filename username sentenceIndex messages _) =>
      WritesNothing s filename username sentenceIndex messages
  | .request _ => True

section

variable {s : FileHandler} {filename : Filename}

theorem balanced_of_unreferenced
    (unreferenced : ∀ filename, Unreferenced filename s) : Balanced s := by
  constructor
  · intro filename file cached
    exact (unreferenced filename file cached).1
  · intro filename known
    exact deleteFileLl_of_unreferenced (unreferenced filename) known

theorem Balanced.references (balanced : Balanced s) (filename : Filename) :
    references s filename = 0 := by
  unfold StorageServer.references
  cases cached : s.fileCache.get filename with
  | none => rfl
  | some file => exact balanced.counts filename file cached

theorem unreferenced_request
    (unreferenced : ∀ filename, Unreferenced filename s) {request : Request}
    (balanced : GivesBack s (.request request)) (filename : Filename) :
    Unreferenced filename (handleRequest s request) := by
  have here := unreferenced filename
  by_cases touches : request.Touches filename
  · rcases Request.touches_cases touches with
      ⟨username, now, rfl⟩ | rfl | ⟨username, now, rfl⟩ |
      ⟨username, sentenceIndex, messages, now, rfl⟩ | rfl
    · rcases nmCreateFile_counts here username now with
        ⟨_, kept⟩ | ⟨creates, _⟩
      · exact kept
      · exact (creates balanced).elim
    · exact unreferenced_nmDeleteFile here
    · apply here.of_cache
      exact congrArg (fun cache => cache.get filename)
        (nmCreatefolder_cases s filename username now).2.1
    · rcases handleWriteRequest_counts here username sentenceIndex messages
          now with ⟨_, kept⟩ | ⟨writes, _⟩
      · exact kept
      · exact (writes balanced).elim
    · exact unreferenced_handleUndoRequest here
  · exact here.of_cache (untouched_handleRequest touches).cache

theorem unreferenced_operate
    (unreferenced : ∀ filename, Unreferenced filename s) {target : Filename}
    {call : ReferenceCall} (balanced : GivesBack s (.operate target call))
    (filename : Filename) :
    Unreferenced filename (call.perform s target) := by
  have keeps := @keepsReferences_perform s target call
  by_cases here : filename = target
  · subst here
    rcases keeps with ⟨_, keeps⟩ | ⟨takes, keeps⟩
    · exact keeps.unreferenced (unreferenced filename)
    · rcases balanced with releases | unloaded
      · exact (takes releases).elim
      · apply (unreferenced filename).of_cache
        rw [keeps.unloaded unloaded]
  · apply (unreferenced filename).of_cache
    rcases keeps with ⟨_, keeps⟩ | ⟨_, keeps⟩
    · exact keeps.elsewhere filename here
    · exact keeps.elsewhere filename here

theorem unreferenced_step
    (unreferenced : ∀ filename, Unreferenced filename s) {call : ServerCall}
    (balanced : GivesBack s call) (filename : Filename) :
    Unreferenced filename (serverStep s call) := by
  cases call with
  | request request => exact unreferenced_request unreferenced balanced filename
  | operate target call =>
      exact unreferenced_operate unreferenced balanced filename

/-- A step that leaves every count at zero has given back what it took. -/
theorem givesBack_of_balanced
    (unreferenced : ∀ filename, Unreferenced filename s) {call : ServerCall}
    (balanced : Balanced (serverStep s call)) : GivesBack s call := by
  cases call with
  | operate target call =>
      apply references_perform_iff call |>.mp
      rw [(unreferenced target).references]
      exact balanced.references target
  | request request =>
      cases request with
      | createFile target username now =>
          rcases nmCreateFile_counts (unreferenced target) username now with
            ⟨nothing, _⟩ | ⟨_, counted⟩
          · exact nothing
          · have zero := balanced.references target
            rw [serverStep, handleRequest, counted] at zero
            cases zero
      | write target username sentenceIndex messages now =>
          rcases handleWriteRequest_counts (unreferenced target) username
              sentenceIndex messages now with ⟨nothing, _⟩ | ⟨_, counted⟩
          · exact nothing
          · have zero := balanced.references target
            rw [serverStep, handleRequest] at zero
            omega
      | deleteFile _ => trivial
      | addaccess _ _ _ => trivial
      | remaccess _ _ => trivial
      | createfolder _ _ _ => trivial
      | move _ _ => trivial
      | checkpoint _ _ => trivial
      | revert _ _ _ => trivial
      | transfer _ _ _ => trivial
      | undo _ => trivial
      | query => trivial

end

theorem started_sampleServer (content : Text) :
    (sampleServer content).Started where
  nodup := List.pairwise_singleton _ sampleFile
  cache := fun _ => rfl

end Dfs.StorageServer
