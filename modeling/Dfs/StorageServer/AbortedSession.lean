import Dfs.StorageServer.UndoInverse
import Dfs.StorageServer.DocumentAgreement

/-!
# A session that is given up

Opening a WRITE overwrites the only backup of the file, and a lost connection
restores the file from it.  Nothing has happened exactly when the backup
already was the file, the file is the backup text of its document, and reading
that text gives the document back.
-/

namespace Dfs.StorageServer

/-- The file, the sentences of its document and its backup are the same in
both states, and so is what UNDO makes of them. -/
structure Unchanged (filename : Filename) (s t : FileHandler) : Prop where
  disk : t.diskText filename = s.diskText filename
  words : (view t filename).document.map Document.wordLists =
    (view s filename).document.map Document.wordLists
  backup : (view t filename).backup = (view s filename).backup
  answer : (handleUndoRequest t filename).2 = (handleUndoRequest s filename).2
  undone : (handleUndoRequest t filename).1.diskText filename =
    (handleUndoRequest s filename).1.diskText filename
  undoneWords :
    (view (handleUndoRequest t filename).1 filename).document.map
        Document.wordLists =
      (view (handleUndoRequest s filename).1 filename).document.map
        Document.wordLists

/-- A document is read back from its backup text exactly when it is tidy. -/
theorem wordLists_backup_iff (document : Document) :
    (loadDocument (undoBackupText document.sentences)).wordLists =
        document.wordLists ↔
      TidyText document.wordLists := by
  constructor
  · intro same
    rw [← same]
    exact tidyText_loadDocument _
  · intro tidy
    have text : undoBackupText document.sentences =
        wordsText document.wordLists.flatten :=
      undoBackupText_eq_wordsText tidy.inhabited
    rw [text]
    exact wordLists_loadDocument_of_tidy tidy

namespace FileView

variable {v : FileView} {allowed : Bool} {username : Username}
  {sentenceIndex : Int} {session : WriteSession}
  {messages : List WriteMessage} {document : Document} {content : Text}

/-- What the roll-back of a session finds is what was there before. -/
def AbortsToItself (v : FileView) (document : Document) (text : Text) :
    Prop :=
  if v.savable = true then
    v.backup = some (undoBackupText document.sentences) ∧
      (v.made.writable = true →
        undoBackupText document.sentences = text ∧
          TidyText document.wordLists)
  else
    v.made.backup = v.backup ∧
      (v.made.writable = true → ∀ other, v.backup = some other →
        other = text ∧ (loadDocument other).wordLists = document.wordLists)

theorem abortsToItself_iff :
    v.AbortsToItself document content ↔
      v.sessionBackup document = v.backup ∧
        (v.made.writable = true → ∀ text, v.backup = some text →
          text = content ∧
            (loadDocument text).wordLists = document.wordLists) := by
  unfold AbortsToItself sessionBackup
  cases savable : v.savable with
  | true =>
      simp only [↓reduceIte]
      rw [eq_comm]
      refine and_congr_right fun same => imp_congr_right fun _ => ?_
      rw [← same, ← wordLists_backup_iff]
      simp
  | false => simp

/-- An aborted session puts its backup in the place of file and document. -/
theorem write_of_aborted (stored : v.disk = some content)
    (loaded : v.document = some document)
    (opened : (v.openWrite allowed username sentenceIndex).2 = some session)
    (aborted : (receiveCommands session messages).2.1 = false) :
    ∃ w, v.write allowed username sentenceIndex messages = w ∧
      w.backup = v.sessionBackup document ∧
      w.writable = v.made.writable ∧
      w.disk =
        (if v.made.writable then
          (v.sessionBackup document).or (some content)
        else some content) ∧
      w.document.map Document.wordLists =
        if v.made.writable then
          ((v.sessionBackup document).map fun text =>
            (loadDocument text).wordLists).or (some document.wordLists)
        else some document.wordLists := by
  obtain ⟨found, unlocked, granted, written⟩ :=
    write_of_granted messages opened
  have same := granted.loaded
  rw [loaded] at same
  cases same
  rw [if_neg (by simp [aborted])] at written
  have backup : (v.received document unlocked).backup =
      v.sessionBackup document := backup_received
  have writable := @writable_received v document unlocked
  have lists : unlocked.wordLists = document.wordLists :=
    Document.wordLists_of_content granted.content
  refine ⟨_, written, ?_, ?_, ?_, ?_⟩
  · rw [backup_restore, backup]
  · rw [writable_restore, writable]
  · rw [disk_restore, backup, writable, disk_received, disk_made stored]
  · have found : (v.received document unlocked).document =
        some unlocked := rfl
    rw [document_restore, backup, writable, found, ← lists]
    cases v.made.writable with
    | false => rfl
    | true =>
        cases v.sessionBackup document with
        | none => rfl
        | some text => rfl

end FileView

theorem undoFileChangeLl_result (s : FileHandler) (filename : Filename) :
    (undoFileChangeLl s filename).2 =
      if (view s filename).backup.isSome ∧
        (view s filename).writable = true then 0 else -1 := by
  have copies := @FileSystem.copy_isSome_iff s.disk
    (filePaths s.storage filename).file (filePaths s.storage filename).backup
  rw [← FileSystem.read_isSome_iff] at copies
  have saved : (view s filename).backup.isSome =
      (s.disk.read (filePaths s.storage filename).backup).isSome := rfl
  have opens : (view s filename).writable =
      (s.disk.target (filePaths s.storage filename).file).isSome := rfl
  simp only [saved, opens]
  rw [undoFileChangeLl_eq]
  cases copied : s.disk.copy (filePaths s.storage filename).backup
      (filePaths s.storage filename).file with
  | none =>
      rw [copied] at copies
      rw [if_neg (copies.not.mp (by simp))]
  | some disk =>
      rw [copied] at copies
      rw [if_pos (copies.mp rfl)]

theorem handleUndoRequest_answer {s t : FileHandler} {filename : Filename}
    (backup : (view t filename).backup = (view s filename).backup)
    (writable : (view t filename).writable = (view s filename).writable) :
    (handleUndoRequest t filename).2 = (handleUndoRequest s filename).2 := by
  have same : (undoFileChangeLl t filename).2 =
      (undoFileChangeLl s filename).2 := by
    rw [undoFileChangeLl_result, undoFileChangeLl_result, backup, writable]
  simp only [handleUndoRequest, same]
  split
  · rfl
  · rfl

/-- What UNDO leaves depends on the backup only. -/
theorem unchanged_of_view {s t : FileHandler} {filename : Filename}
    (stable : Stable s filename) (stableAfter : Stable t filename)
    (disk : (view t filename).disk = (view s filename).disk)
    (words : (view t filename).document.map Document.wordLists =
      (view s filename).document.map Document.wordLists)
    (backup : (view t filename).backup = (view s filename).backup)
    (writable : (view t filename).writable = (view s filename).writable) :
    Unchanged filename s t := by
  have before := (view_handleUndoRequest stable).1
  have after := (view_handleUndoRequest stableAfter).1
  refine ⟨?_, words, backup, handleUndoRequest_answer backup writable, ?_, ?_⟩
  · rw [← view_disk, ← view_disk, disk]
  · rw [← view_disk, ← view_disk, before, after, FileView.disk_restore,
      FileView.disk_restore, disk, backup, writable]
  · rw [before, after, FileView.document_restore, FileView.document_restore,
      backup, writable]
    split
    · cases (view s filename).backup with
      | none => exact words
      | some text => rfl
    · exact words

/-- In every state that complete requests reach, a session that opens and
loses its connection changes nothing if and only if its roll-back finds what
was there before.  In runs of CREATE, WRITE and UNDO on the file whose commits
reach the disk, the backup of the document is the text exactly if it is
restorable. -/
theorem aborted_session_unchanged_iff {start : FileHandler}
    (started : start.Started) {filename : Filename}
    {requests : List Request} {username : Username} {sentenceIndex : Int}
    {session : WriteSession} {messages : List WriteMessage} (now : TimeText)
    (opened : (openWrite (runRequests start requests) filename username
      sentenceIndex).2.2 = some session)
    (aborted : (receiveCommands session messages).2.1 = false)
    {content : Text}
    (stored : (runRequests start requests).diskText filename =
      some content)
    {document : Document}
    (loaded : (view (runRequests start requests) filename).document =
      some document)
    (_spared : SparesMetadata start.storage
      (getFilePath start.storage filename)) :
    (Unchanged filename (runRequests start requests)
        (handleWriteRequest (runRequests start requests) filename username
          sentenceIndex messages now).1 ↔
      (view (runRequests start requests) filename).AbortsToItself document
        content) ∧
      (start.Unsaved filename →
        StepRun.AllSteps handleRequest
          (fun s request =>
            request.OnFile filename ∧ SyncsCommit filename s request)
          start requests →
        (undoBackupText document.sentences = content ↔
          Restorable document content)) := by
  rw [← view_disk] at stored
  refine ⟨?_, ?_⟩
  · have holds := orderly_run started filename requests
    obtain ⟨written, stable⟩ := view_handleWriteRequest holds.stable username
      sentenceIndex messages now
    rw [(view_openWrite holds.stable username sentenceIndex).2.1] at opened
    obtain ⟨w, same, backup, writable, disk, words⟩ :=
      FileView.write_of_aborted stored loaded opened aborted
    rw [same] at written
    rw [FileView.abortsToItself_iff]
    constructor
    · intro unchanged
      have diskSame := unchanged.disk
      have wordsSame := unchanged.words
      have backupSame := unchanged.backup
      rw [← view_disk, ← view_disk, written, stored, disk] at diskSame
      rw [written, words, loaded] at wordsSame
      rw [written, backup] at backupSame
      refine ⟨backupSame, ?_⟩
      intro opens text saved
      rw [if_pos opens, backupSame, saved] at diskSame wordsSame
      exact ⟨Option.some.inj diskSame, Option.some.inj wordsSame⟩
    · rintro ⟨backupSame, restored⟩
      rw [backupSame] at backup disk words
      apply unchanged_of_view holds.stable stable
      · rw [written, disk, stored]
        split
        · rename_i opens
          cases saved : (view (runRequests start requests) filename).backup
            with
          | none => rfl
          | some text => rw [(restored opens text saved).1]; rfl
        · rfl
      · rw [written, words, loaded]
        split
        · rename_i opens
          cases saved : (view (runRequests start requests) filename).backup
            with
          | none => rfl
          | some text => exact congrArg some (restored opens text saved).2
        · rfl
      · rw [written, backup]
      · rw [written, writable, FileView.writable_made stored]
  · intro unsaved steps
    exact undoBackupText_eq_iff_of_run started unsaved steps loaded stored

/-- A new file whose backup was taken by CREATE. -/
theorem aborted_session_on_new_file :
    Unchanged sampleFile (runRequests freshServer [sampleCreate])
      (handleWriteRequest (runRequests freshServer [sampleCreate])
        sampleFile sampleUser 0 [⟨0, CString.copy 4095 "Hi".toList⟩]
        sampleTime).1 := by
  have opened : (openWrite (runRequests freshServer [sampleCreate])
      sampleFile sampleUser 0).2.2 = some (newSession sampleUser 0 0) := by
    decide +kernel
  have stored : (runRequests freshServer [sampleCreate]).diskText
      sampleFile = some [] := by
    decide +kernel
  have loaded : (view (runRequests freshServer [sampleCreate])
      sampleFile).document = some ⟨[], 0⟩ := by
    decide +kernel
  have aborted : (receiveCommands (newSession sampleUser 0 0)
      [⟨0, CString.copy 4095 "Hi".toList⟩]).2.1 = false := by
    decide +kernel
  obtain ⟨unchanged, backup⟩ := aborted_session_unchanged_iff
    started_freshServer sampleTime opened aborted stored loaded
    (by decide +kernel)
  have savable : (view (runRequests freshServer [sampleCreate])
      sampleFile).savable = true := by
    decide +kernel
  refine unchanged.mpr ?_
  rw [FileView.AbortsToItself, if_pos savable]
  refine ⟨?_, fun _ => ⟨(backup ?_ ?_).mpr (.inl ⟨?_, ?_, .inl rfl⟩), ?_⟩⟩
  · decide +kernel
  · unfold FileHandler.Unsaved
    decide +kernel
  · exact ⟨⟨rfl, trivial⟩, trivial⟩
  · decide +kernel
  · simp
  · exact ⟨by simp [Document.wordLists], by simp [Document.wordLists]⟩

/-- After a WRITE the session takes the backup of the text before it away. -/
theorem aborted_session_after_write :
    let before := runRequests freshServer
      [sampleCreate, sampleWrite 0 "Hello.".toList]
    (openWrite before sampleFile sampleUser 0).2.2 =
        some (newSession sampleUser 0 1) ∧
      ¬ Unchanged sampleFile before
        (handleWriteRequest before sampleFile sampleUser 0
          [⟨0, CString.copy 4095 "Oh".toList⟩] sampleTime).1 := by
  intro before
  refine ⟨by decide +kernel, ?_⟩
  intro unchanged
  exact absurd unchanged.backup (by decide +kernel)

end Dfs.StorageServer
