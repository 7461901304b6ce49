import Dfs.Library.StepRun
import Dfs.StorageServer.RequestFrames
import Dfs.StorageServer.SentenceLocks

/-!
# Requests that run alone

Without overlap a WRITE request finds the document its open locked, so one
request is described by the document before it: it is refused, commits the
queue of its session to that document, or restores the backup it took itself.
Creation is described in the same way.
-/

namespace Dfs.StorageServer

theorem receiveCommands_fields (session : WriteSession)
    (messages : List WriteMessage) :
    (receiveCommands session messages).1.username = session.username ∧
      (receiveCommands session messages).1.sentenceIndex =
        session.sentenceIndex ∧
      (receiveCommands session messages).1.originalWordCount =
        session.originalWordCount := by
  induction messages generalizing session with
  | nil => exact ⟨rfl, rfl, rfl⟩
  | cons message messages ih =>
      unfold receiveCommands
      split
      · exact ⟨rfl, rfl, rfl⟩
      · obtain ⟨username, sentenceIndex, wordCount, _⟩ :=
          writeCommand_fields session message
        obtain ⟨laterUsername, laterIndex, laterCount⟩ :=
          ih (writeCommand session message).1
        exact ⟨laterUsername.trans username, laterIndex.trans sentenceIndex,
          laterCount.trans wordCount⟩

theorem Document.wordCountAt_of_content {left right : Document}
    (same : left.content = right.content) (sentenceIndex : Int) :
    left.wordCountAt sentenceIndex = right.wordCountAt sentenceIndex := by
  have lists := Document.wordLists_of_content same
  have here := congrArg (fun list => list[sentenceIndex.toNat]?) lists
  simp only [List.getElem?_map] at here
  unfold wordCountAt sentenceAt
  cases leftFound : left.sentences[sentenceIndex.toNat]? with
  | none =>
      cases rightFound : right.sentences[sentenceIndex.toNat]? with
      | none => rfl
      | some sentence => simp [leftFound, rightFound] at here
  | some sentence =>
      cases rightFound : right.sentences[sentenceIndex.toNat]? with
      | none => simp [leftFound, rightFound] at here
      | some other =>
          simp only [leftFound, rightFound, Option.map_some,
            Option.some.injEq] at here
          simp [here]

namespace FileView

/-- The view when the words of a session are in: `document` is what the open
found and `unlocked` the same document after the lock was given back. -/
def received (v : FileView) (document unlocked : Document) : FileView :=
  { v with
    cached := some unlocked
    world := v.paths.saveBackup v.world
      (undoBackupText document.sentences) }

/-- The file can be written once the folders of the backup are there. -/
def Openable (v : FileView) : Prop :=
  v.made.writable = true ∧ v.made.swappable = true

instance (v : FileView) : Decidable v.Openable :=
  inferInstanceAs (Decidable (_ ∧ _))

/-- An open that was granted. -/
structure Granted (v : FileView) (username : Username) (sentenceIndex : Int)
    (session : WriteSession) (document unlocked : Document) : Prop where
  loaded : v.document = some document
  nonnegative : 0 ≤ sentenceIndex
  inRange : sentenceIndex ≤ document.sentenceCount
  opened : session = newSession username sentenceIndex
    (document.wordCountAt sentenceIndex)
  content : unlocked.content = document.content
  count : unlocked.sentenceCount = document.sentenceCount

variable {v : FileView} {allowed : Bool} {username : Username}
  {sentenceIndex : Int} {session : WriteSession}
  {document unlocked : Document}

theorem Granted.counted
    (granted : v.Granted username sentenceIndex session document unlocked)
    (counted : document.Counted) : unlocked.Counted :=
  counted.of_content granted.content granted.count

/-- Where a session writes depends on the folders only. -/
theorem writable_received :
    (v.received document unlocked).writable = v.made.writable := by
  have same := target_congr (FilePaths.folders_saveBackup v.paths v.world
    (undoBackupText document.sentences))
  exact congrArg Option.isSome (same v.paths.file)

theorem swappable_received :
    (v.received document unlocked).swappable = v.made.swappable := by
  have same := target_congr (FilePaths.folders_saveBackup v.paths v.world
    (undoBackupText document.sentences))
  exact congrArg Option.isSome (same v.paths.swap)

/-- The backup that stands while a session on the document is open. -/
def sessionBackup (v : FileView) (document : Document) : Option Text :=
  if v.savable then some (undoBackupText document.sentences)
  else v.made.backup

theorem backup_received :
    (v.received document unlocked).backup = v.sessionBackup document := by
  unfold sessionBackup
  cases opens : v.made.world.target v.paths.backup with
  | some place =>
      have savable : v.savable = true := by simp [savable, opens]
      rw [if_pos savable]
      exact FilePaths.read_saveBackup opens
  | none =>
      have closed : v.savable = false := by simp [savable, opens]
      unfold made at opens
      rw [closed, if_neg (by simp), received, backup, made, backup]
      simp only [FilePaths.saveBackup_eq, opens]

/-- The backup is not the file. -/
theorem disk_received :
    (v.received document unlocked).disk = v.made.disk := by
  unfold received made disk
  simp only [FilePaths.saveBackup_eq]
  split
  · rfl
  · rename_i place opens
    exact (FileSystem.sameAt_put (FilePaths.backup_apart_file opens)).load

/-- A file on disk is not touched when folders are made. -/
theorem disk_made {content : Text} (stored : v.disk = some content) :
    v.made.disk = some content := by
  have stands := FileSystem.pathExists_of_load stored
  exact (FileSystem.sameAt_makeParents stands v.paths.backup).load.trans
    stored

theorem writable_made {content : Text} (stored : v.disk = some content) :
    v.made.writable = v.writable := by
  have stands := FileSystem.pathExists_of_load stored
  have kept := FileSystem.sameAt_makeParents stands v.paths.backup
  exact congrArg Option.isSome kept.target

theorem write_of_refused (messages : List WriteMessage)
    (refused : (v.openWrite allowed username sentenceIndex).2 = none) :
    (v.write allowed username sentenceIndex messages).document =
        v.document ∧
      (∀ document, v.cached = some document →
        (v.write allowed username sentenceIndex messages).cached =
          some document) ∧
      SameStorage (v.write allowed username sentenceIndex messages) v := by
  unfold write
  rcases openWrite_cases v allowed username sentenceIndex with
    ⟨_, sameDocument, keepsCached, sameStorage⟩ |
    ⟨document, locked, _, _, _, opened⟩
  · generalize v.openWrite allowed username sentenceIndex = result at *
    obtain ⟨w, session⟩ := result
    subst refused
    exact ⟨sameDocument, keepsCached, sameStorage⟩
  · rw [opened] at refused
    cases refused

theorem write_of_granted (messages : List WriteMessage)
    (opened : (v.openWrite allowed username sentenceIndex).2 =
      some session) :
    ∃ document unlocked,
      v.Granted username sentenceIndex session document unlocked ∧
      v.write allowed username sentenceIndex messages =
        if (receiveCommands session messages).2.1 then
          (v.received document unlocked).commit
            (receiveCommands session messages).1
        else (v.received document unlocked).restore := by
  rcases openWrite_cases v allowed username sentenceIndex with
    ⟨refused, _⟩ | ⟨document, locked, loaded, grantedLock, rfl, granted⟩
  · rw [refused] at opened
    cases opened
  · rw [granted] at opened
    have content :=
      Document.content_lockSentence document sentenceIndex username
    obtain ⟨nonnegative, inRange, _⟩ :=
      Document.lockSentence_granted grantedLock
    refine ⟨document, ((document.lockSentence sentenceIndex
      username).1.unlockSentence sentenceIndex username).1,
      ⟨loaded, nonnegative, inRange, ?_, ?_, ?_⟩, ?_⟩
    · rw [← Document.wordCountAt_of_content content]
      exact (Option.some.inj opened).symm
    · exact (Document.content_unlockSentence _ _ _).trans content
    · exact (Document.sentenceCount_unlockSentence _ _ _).trans
        (Document.sentenceCount_lockSentence _ _ _)
    · obtain ⟨sameUser, sameIndex, _⟩ :=
        receiveCommands_fields session messages
      cases opened
      unfold write received
      rw [granted]
      simp only [rollback, ← Document.undoBackupText_of_content content]
      generalize receiveCommands _ messages = result
        at sameUser sameIndex ⊢
      obtain ⟨final, completed, responses⟩ := result
      simp only [newSession] at sameUser sameIndex ⊢
      cases completed with
      | true => simp [unlock, FileView.document, sameUser, sameIndex]
      | false => simp [unlock, FileView.document, sameUser, sameIndex]

/-- A session that gets to `ETIRW` commits and writes the file. -/
theorem write_of_completed (messages : List WriteMessage)
    (counted : ∀ document, v.document = some document → document.Counted)
    (opened : (v.openWrite allowed username sentenceIndex).2 = some session)
    (completed : (receiveCommands session messages).2.1 = true) :
    ∃ document unlocked committed,
      v.Granted username sentenceIndex session document unlocked ∧
      unlocked.commit (receiveCommands session messages).1 =
        some committed ∧
      v.write allowed username sentenceIndex messages =
        { v.received document unlocked with
          cached := some committed
          world := v.paths.sync (v.received document unlocked).world
            (writeLinkedListToFile committed.sentences) } := by
  obtain ⟨document, unlocked, granted, written⟩ :=
    write_of_granted messages opened
  have countedUnlocked := granted.counted (counted document granted.loaded)
  have index : (receiveCommands session messages).1.sentenceIndex =
      sentenceIndex := by
    rw [(receiveCommands_fields session messages).2.1, granted.opened]
    rfl
  have inRange : sentenceIndex ≤ unlocked.sentences.length := by
    have bound := granted.inRange
    rw [← granted.count, countedUnlocked] at bound
    exact bound
  obtain ⟨committed, done⟩ := Document.commit_isSome countedUnlocked
    (index ▸ granted.nonnegative) (index ▸ inRange)
  refine ⟨document, unlocked, committed, granted, done, ?_⟩
  rw [written, if_pos completed, commit_of_some rfl done]
  rfl

/-- The file has the text of the committed document if it can be written. -/
theorem disk_committed (committed : Document) :
    FileView.disk
      { v.received document unlocked with
        cached := some committed
        world := v.paths.sync (v.received document unlocked).world
          (writeLinkedListToFile committed.sentences) } =
      if v.Openable then some (writeLinkedListToFile committed.sentences)
      else (v.received document unlocked).disk := by
  have synced := FilePaths.load_sync v.paths
    (v.received document unlocked).world
    (writeLinkedListToFile committed.sentences)
  refine synced.trans (if_congr ?_ rfl rfl)
  rw [Openable, ← writable_received, ← swappable_received]
  exact and_comm

theorem document_saveBackup (v : FileView) :
    v.saveBackup.document = v.document := by
  unfold saveBackup
  cases loaded : v.document with
  | none => exact loaded
  | some document => rfl

theorem counted_restore
    (counted : ∀ document, v.document = some document → document.Counted) :
    ∀ document, v.restore.document = some document → document.Counted := by
  intro document loaded
  rcases restore_cases v with same | ⟨backup, _, _, _, restored⟩
  · exact counted document (same ▸ loaded)
  · rw [restored] at loaded
    cases loaded
    exact counted_loadDocument backup

theorem counted_write (messages : List WriteMessage)
    (counted : ∀ document, v.document = some document → document.Counted) :
    ∀ document, (v.write allowed username sentenceIndex messages).document =
      some document → document.Counted := by
  cases opened : (v.openWrite allowed username sentenceIndex).2 with
  | none =>
      rw [(write_of_refused messages opened).1]
      exact counted
  | some session =>
      cases completed : (receiveCommands session messages).2.1 with
      | true =>
          obtain ⟨document, unlocked, committed, granted, done, written⟩ :=
            write_of_completed messages counted opened completed
          intro last loaded
          rw [written] at loaded
          cases loaded
          exact Document.counted_commit
            (granted.counted (counted document granted.loaded)) done
      | false =>
          obtain ⟨document, unlocked, granted, written⟩ :=
            write_of_granted messages opened
          rw [written, if_neg (by simp [completed])]
          apply counted_restore
          intro last loaded
          cases loaded
          exact granted.counted (counted document granted.loaded)

end FileView

/-- The state after `create_file_ll` made the file at this place. -/
structure Created (filename : Filename) (place : Location)
    (s t : FileHandler) : Prop where
  opens : s.disk.target (filePaths s.storage filename).file = some place
  storage : t.storage = s.storage
  disk : t.disk = s.disk.put place []
  names : t.names = s.names ++ [filename]
  fileCache : t.fileCache = s.fileCache

/-- The view of a file that was made at this place. -/
def FileView.emptied (v : FileView) (place : Location) : FileView :=
  { v with world := v.world.put place [] }

section

variable {s t : FileHandler} {filename : Filename} {place : Location}

theorem Created.view (created : Created filename place s t) :
    view t filename = (view s filename).emptied place := by
  rw [StorageServer.view, created.storage, created.disk, created.fileCache]
  rfl

theorem Created.stable {other : Filename}
    (created : Created filename place s t) (stable : Stable s other) :
    Stable t other := by
  intro file found
  exact stable file (created.fileCache ▸ found)

theorem FileView.disk_emptied {v : FileView}
    (opens : v.world.target v.paths.file = some place) :
    (v.emptied place).disk = some [] :=
  FileSystem.load_put opens

theorem createFileLl_of_open {username : Username} {now : TimeText}
    (unknown : filename ∉ s.names) (room : s.metadataList.length < maxFiles)
    (opens : s.disk.target (filePaths s.storage filename).file =
      some place) :
    (createFileLl s filename username now).2 = 0 ∧
      Created filename place s (createFileLl s filename username now).1 := by
  have written := @FileSystem.write_of_target s.disk
    (filePaths s.storage filename).file place [] opens
  simp only [createFileLl, findMetadata_eq_none_iff.mpr unknown,
    Option.isSome_none, Bool.false_eq_true, ↓reduceIte, ge_iff_le,
    Nat.not_le.mpr room, getFilePath_eq, written]
  exact ⟨trivial, opens, rfl, rfl,
    by simp [FileHandler.names, saveMetadataLl, newMetadata], rfl⟩

/-- A CREATE request saves a backup of a file that exists, fails, or makes
the file and saves its backup. -/
theorem nmCreateFile_cases (s : FileHandler) (filename : Filename)
    (username : Username) (now : TimeText) :
    (filename ∈ s.names ∧
        (nmCreateFile s filename username now).1 =
          (saveUndoBackupLl s filename).1) ∨
      (filename ∉ s.names ∧ (nmCreateFile s filename username now).1 = s ∧
        (nmCreateFile s filename username now).2.errorCode ≠ errSuccess) ∨
      filename ∉ s.names ∧
        ∃ place t, Created filename place s t ∧
          (nmCreateFile s filename username now).1 =
            (saveUndoBackupLl t filename).1 := by
  have failure : errServerError ≠ errSuccess := by decide
  have different : (-1 : Int) ≠ errFileExists := by decide
  by_cases known : filename ∈ s.names
  · have recorded : (findMetadata s filename).isSome = true := by
      by_contra absent
      have none := Option.not_isSome_iff_eq_none.mp absent
      exact findMetadata_eq_none_iff.mp none known
    refine .inl ⟨known, ?_⟩
    have accepted : ¬errFileExists < 0 := by decide
    simp [nmCreateFile, createFileLl, recorded, accepted]
  · have unrecorded : (findMetadata s filename).isSome = false := by
      rw [findMetadata_eq_none_iff.mpr known]
      rfl
    refine .inr ?_
    by_cases full : maxFiles ≤ s.metadataList.length
    · refine .inl ⟨known, ?_, ?_⟩
      · simp [nmCreateFile, createFileLl, unrecorded, full]
      · simpa [nmCreateFile, createFileLl, unrecorded, full, nmResponse,
          different] using failure
    · cases opens : s.disk.target (filePaths s.storage filename).file with
      | none =>
          have blocked := @FileSystem.write_eq_none s.disk
            (filePaths s.storage filename).file [] opens
          refine .inl ⟨known, ?_, ?_⟩
          · simp [nmCreateFile, createFileLl, unrecorded, full,
              getFilePath_eq, blocked]
          · simpa [nmCreateFile, createFileLl, unrecorded, full,
              getFilePath_eq, blocked, nmResponse, different] using failure
      | some place =>
          obtain ⟨success, created⟩ := @createFileLl_of_open s filename place
            username now known (Nat.not_le.mp full) opens
          refine .inr ⟨known, place, _, created, ?_⟩
          unfold nmCreateFile
          generalize createFileLl s filename username now = result
            at success ⊢
          obtain ⟨t, code⟩ := result
          cases success
          rfl

/-- What a CREATE request does to the view of its file. -/
theorem view_nmCreateFile (stable : Stable s filename) (username : Username)
    (now : TimeText) :
    Stable (nmCreateFile s filename username now).1 filename ∧
      ((filename ∈ s.names ∧
          (nmCreateFile s filename username now).1.names = s.names ∧
          view (nmCreateFile s filename username now).1 filename =
            (view s filename).saveBackup) ∨
        (filename ∉ s.names ∧ (nmCreateFile s filename username now).1 = s ∧
          (nmCreateFile s filename username now).2.errorCode ≠
            errSuccess) ∨
        filename ∉ s.names ∧
          (nmCreateFile s filename username now).1.names =
            s.names ++ [filename] ∧
          ∃ place,
            (view s filename).world.target (view s filename).paths.file =
              some place ∧
            view (nmCreateFile s filename username now).1 filename =
              ((view s filename).emptied place).saveBackup) := by
  rcases nmCreateFile_cases s filename username now with
    ⟨known, result⟩ | ⟨unknown, result, failed⟩ |
    ⟨unknown, place, t, created, result⟩
  · have saved := view_saveUndoBackupLl stable
    rw [result]
    exact ⟨saved.2, .inl ⟨known, frame_saveUndoBackupLl.names, saved.1⟩⟩
  · rw [result]
    exact ⟨stable, .inr (.inl ⟨unknown, rfl, failed⟩)⟩
  · have saved := view_saveUndoBackupLl (created.stable stable)
    rw [result]
    refine ⟨saved.2, .inr (.inr ⟨unknown, ?_, place, created.opens, ?_⟩)⟩
    · rw [frame_saveUndoBackupLl.names, created.names]
    · rw [saved.1, created.view]

end

/-- A storage server that was just started: nothing is cached. -/
structure FileHandler.Started (s : FileHandler) : Prop where
  nodup : s.names.Nodup
  cache : ∀ filename, s.fileCache.get filename = none

theorem started_initFileHandlerLl (storage : StorageDir)
    (disk : FileSystem) : (initFileHandlerLl storage disk).Started :=
  ⟨List.nodup_nil, fun _ => rfl⟩

theorem started_freshServer : freshServer.Started :=
  started_initFileHandlerLl _ _

/-- A file without a record has no backup. -/
def FileHandler.Unsaved (s : FileHandler) (filename : Filename) : Prop :=
  filename ∉ s.names → (view s filename).backup = none

/-- The server after a list of complete requests. -/
def runRequests : FileHandler → List Request → FileHandler :=
  StepRun.run handleRequest

theorem hasWriteAccessLl_of_unknown {s : FileHandler} {filename : Filename}
    (unknown : filename ∉ s.names) (username : Username) :
    (hasWriteAccessLl s filename username).1 = false := by
  simp [hasWriteAccessLl, hasAccessLl, findMetadata_eq_none_iff.mpr unknown]

/-- Without a record a WRITE is denied before it touches the file. -/
theorem view_handleWriteRequest_of_unknown {s : FileHandler}
    {filename : Filename} (stable : Stable s filename)
    (unknown : filename ∉ s.names) (username : Username)
    (sentenceIndex : Int) (messages : List WriteMessage) (now : TimeText) :
    view (handleWriteRequest s filename username sentenceIndex messages
      now).1 filename = view s filename := by
  have written := (view_handleWriteRequest stable username sentenceIndex
    messages now).1
  rw [written, hasWriteAccessLl_of_unknown unknown]
  simp [FileView.write, FileView.openWrite]

def sampleCreate : Request :=
  .createFile sampleFile sampleUser sampleTime

/-- A session that sends the words for the front of a sentence and ends. -/
def sampleMessages (words : Text) : List WriteMessage :=
  [⟨0, CString.copy 4095 words⟩, ⟨0, CString.copy 4095 etirw⟩]

def sampleWrite (sentenceIndex : Int) (words : Text) : Request :=
  .write sampleFile sampleUser sentenceIndex (sampleMessages words) sampleTime

end Dfs.StorageServer
