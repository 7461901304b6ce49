import Dfs.StorageServer.DiskFrames
import Dfs.StorageServer.RequestEffects

/-!
# The statistics of a file

WRITE, UNDO and REVERT rewrite a file, and each treats the statistics in the
record in its own way.  A commit counts words between blanks, tabs and
newlines; UNDO counts them between all white space and delimiters; REVERT and
the rollback of a lost session keep the old numbers.  So the statistics are a
function of the file along a run exactly when every text that is put back is
one for which this makes no difference.
-/

namespace Dfs.StorageServer

/-- The statistics are those of a text whose words are counted by
`wordsOf`. -/
structure FileMetadata.Describes (wordsOf : Text → Int)
    (record : FileMetadata) (content : Text) : Prop where
  fileSize : record.fileSize = content.length
  charCount : record.charCount = content.length
  wordCount : record.wordCount = wordsOf content

instance (wordsOf : Text → Int) (record : FileMetadata) (content : Text) :
    Decidable (record.Describes wordsOf content) :=
  decidable_of_iff
    (record.fileSize = content.length ∧ record.charCount = content.length ∧
      record.wordCount = wordsOf content)
    ⟨fun ⟨size, chars, words⟩ => ⟨size, chars, words⟩,
      fun ⟨size, chars, words⟩ => ⟨size, chars, words⟩⟩

/-- What INFO reports of the file describes this text. -/
def RecordDescribes (wordsOf : Text → Int) (s : FileHandler)
    (filename : Filename) (content : Text) : Prop :=
  ∀ record ∈ findMetadata s filename, record.Describes wordsOf content

instance (wordsOf : Text → Int) (s : FileHandler) (filename : Filename)
    (content : Text) : Decidable (RecordDescribes wordsOf s filename content) :=
  inferInstanceAs (Decidable (∀ record ∈ findMetadata s filename, _))

/-- The words of a text as a commit counts them. -/
def committedWords (content : Text) : Int :=
  countWords writeStatsBreak false content

/-- WRITE, UNDO, CHECKPOINT and REVERT of one file. -/
def Request.OnContent (filename : Filename) : Request → Prop
  | .write name _ _ _ _ => name = filename
  | .undo name => name = filename
  | .checkpoint name _ => name = filename
  | .revert name _ _ => name = filename
  | _ => False

instance (filename : Filename) : ∀ request : Request,
    Decidable (request.OnContent filename)
  | .write name _ _ _ _ => inferInstanceAs (Decidable (name = filename))
  | .undo name => inferInstanceAs (Decidable (name = filename))
  | .checkpoint name _ => inferInstanceAs (Decidable (name = filename))
  | .revert name _ _ => inferInstanceAs (Decidable (name = filename))
  | .createFile _ _ _ => inferInstanceAs (Decidable False)
  | .deleteFile _ => inferInstanceAs (Decidable False)
  | .addaccess _ _ _ => inferInstanceAs (Decidable False)
  | .remaccess _ _ => inferInstanceAs (Decidable False)
  | .createfolder _ _ _ => inferInstanceAs (Decidable False)
  | .move _ _ => inferInstanceAs (Decidable False)
  | .transfer _ _ _ => inferInstanceAs (Decidable False)
  | .query => inferInstanceAs (Decidable False)

/-- The text of the file on disk; a folder has none. -/
def FileView.text (v : FileView) : Option Text :=
  if v.writable then v.disk else none

/-- If the request changed the file, INFO now describes the new content. -/
def ReportsContent (wordsOf : Text → Int) (filename : Filename)
    (s : FileHandler) (request : Request) : Prop :=
  ∀ content,
    (view (handleRequest s request) filename).text = some content →
    (view s filename).text ≠ some content →
    RecordDescribes wordsOf (handleRequest s request) filename content

/-- Putting this text back changes the file. -/
def Changes (s : FileHandler) (filename : Filename) (content : Text) : Prop :=
  (view s filename).writable = true ∧ (view s filename).text ≠ some content

instance (s : FileHandler) (filename : Filename) (content : Text) :
    Decidable (Changes s filename content) :=
  inferInstanceAs (Decidable (_ ∧ _))

/-- The client of a WRITE goes away in an open session. -/
def lostSession (s : FileHandler) (filename : Filename) (username : Username)
    (sentenceIndex : Int) (messages : List WriteMessage) : Bool :=
  (openWrite s filename username sentenceIndex).2.2.any fun session =>
    !(receiveCommands session messages).2.1

/-- What a lost session on the document leaves in the file. -/
def FileView.lostText (v : FileView) (document : Document) : Option Text :=
  if v.made.writable then (v.sessionBackup document).or v.made.disk else none

/-- What a CHECKPOINT leaves in the file.  A tag can lead back to the file,
which is then copied over itself. -/
def checkpointText (s : FileHandler) (filename tag : Filename) :
    Option Text :=
  let made := { view s filename with world := checkpointDisk s }
  if made.world.target made.paths.file =
      made.world.target (checkpointPath s.storage filename tag) then
    made.text.map fun _ => []
  else made.text

/-- What a REVERT leaves in the file if it can be opened. -/
def revertText (s : FileHandler) (filename tag : Filename) : Option Text :=
  (s.disk.read (checkpointPath s.storage filename tag)).map fun content =>
    if s.disk.locate (checkpointPath s.storage filename tag) =
        s.disk.target (filePaths s.storage filename).file then []
    else content

/-- A text that is put back is described already when the old numbers stay,
and both counters agree on it when UNDO counts. -/
def CountsAgree (filename : Filename) (s : FileHandler) : Request → Prop
  | .write _ username sentenceIndex messages _ =>
      lostSession s filename username sentenceIndex messages = true →
      ∀ document ∈ (view s filename).document,
        ∀ content ∈ (view s filename).lostText document,
          (view s filename).text ≠ some content →
          RecordDescribes committedWords s filename content
  | .undo _ =>
      ∀ backup ∈ (view s filename).backup, Changes s filename backup →
        (findMetadata s filename).isSome = true →
        countWords statisticsBreak false backup =
          countWords writeStatsBreak false backup
  | .checkpoint _ tag =>
      ∀ content ∈ checkpointText s filename tag,
        (view s filename).text ≠ some content →
        RecordDescribes committedWords s filename content
  | .revert _ tag _ =>
      ∀ content ∈ revertText s filename tag, Changes s filename content →
        RecordDescribes committedWords s filename content
  | _ => True

instance (filename : Filename) (s : FileHandler) : ∀ request : Request,
    Decidable (CountsAgree filename s request)
  | .write _ username sentenceIndex messages _ =>
      inferInstanceAs (Decidable
        (lostSession s filename username sentenceIndex messages = true →
          ∀ document ∈ (view s filename).document, _))
  | .undo _ =>
      inferInstanceAs (Decidable (∀ backup ∈ (view s filename).backup, _))
  | .checkpoint _ tag =>
      inferInstanceAs (Decidable
        (∀ content ∈ checkpointText s filename tag, _))
  | .revert _ tag _ =>
      inferInstanceAs (Decidable (∀ content ∈ revertText s filename tag, _))
  | .createFile _ _ _ => inferInstanceAs (Decidable True)
  | .deleteFile _ => inferInstanceAs (Decidable True)
  | .addaccess _ _ _ => inferInstanceAs (Decidable True)
  | .remaccess _ _ => inferInstanceAs (Decidable True)
  | .createfolder _ _ _ => inferInstanceAs (Decidable True)
  | .move _ _ => inferInstanceAs (Decidable True)
  | .transfer _ _ _ => inferInstanceAs (Decidable True)
  | .query => inferInstanceAs (Decidable True)

namespace FileView

variable {v : FileView} {content : Text}

theorem text_restore (v : FileView) :
    v.restore.text =
      if v.writable then v.backup.or v.disk else none := by
  rw [text, writable_restore, disk_restore]
  cases v.writable with
  | false => rfl
  | true => rfl

/-- A write to some path is a write to the file or leaves it alone. -/
theorem text_put (place : Location) (content : Text) :
    FileView.text { v with world := v.world.put place content } =
      if v.world.target v.paths.file = some place then some content
      else v.text := by
  unfold text writable disk
  simp only [FileSystem.target_put]
  rcases Option.eq_none_or_eq_some (v.world.target v.paths.file) with
    opens | ⟨goal, opens⟩
  · simp [opens]
  · simp only [opens, Option.isSome_some, ↓reduceIte, Option.some.injEq]
    split
    · rename_i same
      exact FileSystem.load_put (same ▸ opens)
    · rename_i different
      rw [FileSystem.load_of_target opens,
        FileSystem.load_of_target (by exact opens)]
      exact Store.get_set_of_ne _ different content

end FileView

section

variable {s : FileHandler} {filename : Filename} {content : Text}

theorem describes_of_records {wordsOf : Text → Int} {t : FileHandler}
    (same : findMetadata t filename = findMetadata s filename) :
    RecordDescribes wordsOf t filename content ↔
      RecordDescribes wordsOf s filename content := by
  unfold RecordDescribes
  rw [same]

theorem RecordDescribes.wordsOf_eq {wordsOf : Text → Int} {count : Int}
    (described : RecordDescribes wordsOf s filename content)
    (reported : (findMetadata s filename).map (·.wordCount) = some count) :
    wordsOf content = count := by
  obtain ⟨record, found, rfl⟩ := Option.map_eq_some_iff.mp reported
  exact (described record found).wordCount.symm

theorem describes_updateMetadata {wordsOf : Text → Int}
    {change : FileMetadata → FileMetadata}
    (named : ∀ record, (change record).filename = record.filename) :
    RecordDescribes wordsOf (saveMetadataLl (updateMetadata s filename change))
        filename content ↔
      ∀ record ∈ findMetadata s filename,
        (change record).Describes wordsOf content := by
  have changed := @findMetadata_updateMetadata filename s change named
  have saved : findMetadata (saveMetadataLl (updateMetadata s filename
      change)) filename = (findMetadata s filename).map change := changed
  unfold RecordDescribes
  rw [saved]
  cases findMetadata s filename with
  | none => simp
  | some record => simp

theorem file_of_text (stored : (view s filename).text = some content) :
    ∃ place,
      s.disk.target (filePaths s.storage filename).file = some place ∧
      s.disk.files.get place = some content := by
  unfold FileView.text at stored
  split at stored
  · rename_i writable
    obtain ⟨place, opens⟩ := FileView.writable_iff.mp writable
    refine ⟨place, opens, ?_⟩
    exact (FileSystem.load_of_target opens).symm.trans stored
  · cases stored

theorem reports_of_kept {wordsOf : Text → Int} {request : Request}
    (kept : (view (handleRequest s request) filename).text =
      (view s filename).text) :
    ReportsContent wordsOf filename s request := by
  intro content stored changed
  rw [kept] at stored
  exact absurd stored changed

/-- A request that keeps the record is judged by the text it leaves. -/
theorem reports_iff_of_records {wordsOf : Text → Int} {request : Request}
    {left : Option Text}
    (text : (view (handleRequest s request) filename).text = left)
    (records : ∀ content,
      RecordDescribes wordsOf (handleRequest s request) filename content ↔
        RecordDescribes wordsOf s filename content) :
    ReportsContent wordsOf filename s request ↔
      ∀ content ∈ left, (view s filename).text ≠ some content →
        RecordDescribes wordsOf s filename content := by
  unfold ReportsContent
  rw [text]
  refine forall_congr' fun content => ?_
  rw [records content]
  rfl

/-- A request that puts a text back is judged by that text. -/
theorem reports_iff_of_restored {wordsOf : Text → Int} {request : Request}
    (writable : (view s filename).writable = true)
    (restored : (view (handleRequest s request) filename).text =
      some content) :
    ReportsContent wordsOf filename s request ↔
      (Changes s filename content →
        RecordDescribes wordsOf (handleRequest s request) filename
          content) := by
  unfold ReportsContent Changes
  rw [restored]
  simp [writable]

theorem describes_updateFileWriteStatsLl (now : TimeText)
    (stored : (view s filename).text = some content) :
    RecordDescribes committedWords (updateFileWriteStatsLl s filename now).1
      filename content := by
  obtain ⟨place, opens, kept⟩ := file_of_text stored
  rw [updateFileWriteStatsLl, getFilePath_eq]
  simp only [FileSystem.statSize_of_target opens,
    FileSystem.read_of_target opens, kept, Option.map_some, Option.getD_some]
  cases found : findMetadata s filename with
  | none =>
      intro record member
      simp only [found, Option.mem_def] at member
      cases member
  | some record =>
      apply (describes_updateMetadata (by exact fun _ => rfl)).mpr
      intro _ _
      exact ⟨rfl, rfl, rfl⟩

/-- A commit counts what it wrote. -/
theorem commitWrite_describes (stable : Stable s filename)
    {document committed : Document} {session : WriteSession} {now : TimeText}
    (loaded : (view s filename).document = some document)
    (done : document.commit session = some committed)
    (stored : (view (commitWrite s filename session now).1 filename).text =
      some content) :
    RecordDescribes committedWords (commitWrite s filename session now).1
      filename content := by
  obtain ⟨file, same, _, got⟩ := getFileFromCache_eq_some loaded stable
  unfold commitWrite at stored ⊢
  rw [← same] at done
  simp only [got, done] at stored ⊢
  apply describes_updateFileWriteStatsLl
  rw [← stored, (sameFiles_updateFileWriteStatsLl now).view]

/-- A session that gets to `ETIRW` ends in a commit of its document. -/
theorem handleWriteRequest_of_completed (stable : Stable s filename)
    (counted : ∀ document, (view s filename).document = some document →
      document.Counted)
    {username : Username} {sentenceIndex : Int} {session : WriteSession}
    {messages : List WriteMessage} (now : TimeText)
    (opened : (openWrite s filename username sentenceIndex).2.2 =
      some session)
    (completed : (receiveCommands session messages).2.1 = true) :
    ∃ t document committed, Stable t filename ∧
      (view t filename).document = some document ∧
      document.commit (receiveCommands session messages).1 =
        some committed ∧
      (handleWriteRequest s filename username sentenceIndex messages now).1 =
        (commitWrite t filename (receiveCommands session messages).1
          now).1 := by
  obtain ⟨viewed, answered, openedStable⟩ :=
    view_openWrite stable username sentenceIndex
  obtain ⟨sameUser, sameIndex, _⟩ := receiveCommands_fields session messages
  rcases FileView.openWrite_cases (view s filename)
      (hasWriteAccessLl s filename username).1 username sentenceIndex with
    ⟨refused, _⟩ | ⟨document, locked, loaded, granted, rfl, result⟩
  · rw [answered, refused] at opened
    cases opened
  · obtain ⟨nonnegative, inRange, _⟩ :=
      Document.lockSentence_granted granted
    have unlocked := view_unlockSentenceLl openedStable
      (receiveCommands session messages).1.sentenceIndex
      (receiveCommands session messages).1.username
    rw [viewed, result] at unlocked
    have index : (receiveCommands session messages).1.sentenceIndex =
        sentenceIndex := by
      rw [sameIndex]
      rw [answered, result] at opened
      cases opened
      rfl
    have held := ((counted document loaded).lockSentence sentenceIndex
      username).unlockSentence
        (receiveCommands session messages).1.sentenceIndex
        (receiveCommands session messages).1.username
    have length := held
    unfold Document.Counted at length
    rw [Document.sentenceCount_unlockSentence,
      Document.sentenceCount_lockSentence] at length
    obtain ⟨committed, done⟩ := Document.commit_isSome held
      (index ▸ nonnegative)
      (le_of_eq_of_le index (by rw [← length]; exact inRange))
    refine ⟨_, _, committed, unlocked.2, ?_, done, ?_⟩
    · rw [unlocked.1]
      rfl
    · unfold handleWriteRequest
      generalize openWrite s filename username sentenceIndex = outcome
        at opened
      obtain ⟨t, response, other⟩ := outcome
      cases opened
      simp only [completed, ↓reduceIte]

theorem write_reports_of_kept (orderly : Orderly filename s)
    {username : Username} {sentenceIndex : Int}
    {messages : List WriteMessage} {now : TimeText}
    (kept : lostSession s filename username sentenceIndex messages = false) :
    ReportsContent committedWords filename s
      (.write filename username sentenceIndex messages now) := by
  cases opened : (openWrite s filename username sentenceIndex).2.2 with
  | none =>
      apply reports_of_kept
      have viewed := (view_handleWriteRequest orderly.stable username
        sentenceIndex messages now).1
      rw [(view_openWrite orderly.stable username sentenceIndex).2.1]
        at opened
      obtain ⟨_, _, storage⟩ :=
        FileView.write_of_refused messages opened
      rw [handleRequest, viewed]
      unfold FileView.text FileView.writable FileView.disk
      rw [storage.world, storage.paths]
  | some session =>
      have completed : (receiveCommands session messages).2.1 = true := by
        simpa [lostSession, opened] using kept
      obtain ⟨t, document, committed, stable, loaded, done, result⟩ :=
        handleWriteRequest_of_completed orderly.stable orderly.counted now
          opened completed
      intro content stored _
      rw [handleRequest, result] at stored ⊢
      exact commitWrite_describes stable loaded done stored

theorem records_undoFileChangeLl :
    (undoFileChangeLl s filename).1.metadataList = s.metadataList := by
  rw [undoFileChangeLl_eq]
  split
  · rfl
  · exact ((sameDisk_moves filename).reloadFileFromDisk _).records

/-- A lost session puts its backup back and counts nothing. -/
theorem handleWriteRequest_of_lost (stable : Stable s filename)
    {username : Username} {sentenceIndex : Int}
    {messages : List WriteMessage} (now : TimeText)
    (lost : lostSession s filename username sentenceIndex messages = true) :
    (handleWriteRequest s filename username sentenceIndex messages
        now).1.metadataList = s.metadataList ∧
      ∃ document, (view s filename).document = some document ∧
        (view (handleWriteRequest s filename username sentenceIndex messages
          now).1 filename).text = (view s filename).lostText document := by
  obtain ⟨session, started, incomplete⟩ :
      ∃ session, (openWrite s filename username sentenceIndex).2.2 =
        some session ∧ (receiveCommands session messages).2.1 = false := by
    simpa [lostSession, Option.any_eq_true] using lost
  constructor
  · have opened := (records_moves filename).openWrite s username
      sentenceIndex
    unfold handleWriteRequest
    generalize openWrite s filename username sentenceIndex = result
      at started opened ⊢
    obtain ⟨t, response, other⟩ := result
    cases started
    simp only [incomplete, Bool.false_eq_true, ↓reduceIte, rollbackWrite]
    rw [records_undoFileChangeLl]
    exact ((sameDisk_moves filename).unlockSentenceLl t _ _).records.trans
      opened
  · have same := (view_openWrite stable username sentenceIndex).2.1
    rw [started] at same
    obtain ⟨document, unlocked, granted, written⟩ :=
      FileView.write_of_granted messages same.symm
    refine ⟨document, granted.loaded, ?_⟩
    rw [(view_handleWriteRequest stable username sentenceIndex messages
      now).1, written, if_neg (by simp [incomplete]), FileView.text_restore,
      FileView.writable_received, FileView.backup_received,
      FileView.disk_received]
    rfl

theorem write_reports_iff (orderly : Orderly filename s)
    {username : Username} {sentenceIndex : Int}
    {messages : List WriteMessage} {now : TimeText} :
    ReportsContent committedWords filename s
        (.write filename username sentenceIndex messages now) ↔
      CountsAgree filename s
        (.write filename username sentenceIndex messages now) := by
  cases lost : lostSession s filename username sentenceIndex messages with
  | false =>
      refine iff_of_true (write_reports_of_kept orderly lost) ?_
      intro impossible
      rw [lost] at impossible
      cases impossible
  | true =>
      obtain ⟨records, document, loaded, text⟩ :=
        handleWriteRequest_of_lost orderly.stable now lost
      have found : findMetadata (handleRequest s (.write filename username
          sentenceIndex messages now)) filename =
            findMetadata s filename := by
        rw [handleRequest, findMetadata, records]
        rfl
      rw [@reports_iff_of_records s filename committedWords
        (.write filename username sentenceIndex messages now) _ text
        fun _ => describes_of_records found]
      simp only [CountsAgree, lost, loaded, forall_const, Option.mem_def,
        Option.some.injEq, forall_eq']

theorem describes_updateFileStatisticsLl_iff
    (stored : (view s filename).text = some content) :
    RecordDescribes committedWords (updateFileStatisticsLl s filename).1
        filename content ↔
      ((findMetadata s filename).isSome = true →
        countWords statisticsBreak false content =
          countWords writeStatsBreak false content) := by
  obtain ⟨place, opens, kept⟩ := file_of_text stored
  rw [updateFileStatisticsLl, getFilePath_eq]
  simp only [FileSystem.openRead_of_target opens, kept, Option.map_some]
  cases found : findMetadata s filename with
  | none => simp [RecordDescribes, found]
  | some record =>
      simp only
      rw [describes_updateMetadata (by exact fun _ => rfl), found]
      simp only [Option.mem_def, Option.some.injEq, forall_eq',
        Option.isSome_some, forall_const]
      constructor
      · intro described
        exact Int.ofNat.inj described.wordCount
      · intro same
        exact ⟨rfl, rfl, congrArg Int.ofNat same⟩

theorem undo_reports_iff (stable : Stable s filename) :
    ReportsContent committedWords filename s (.undo filename) ↔
      CountsAgree filename s (.undo filename) := by
  have viewed := (view_handleUndoRequest stable).1
  cases writable : (view s filename).writable with
  | false =>
      refine iff_of_true (reports_of_kept ?_) ?_
      · rw [handleRequest, viewed, FileView.restore_of_unwritable writable]
      · simp [CountsAgree, Changes, writable]
  | true =>
      cases saved : (view s filename).backup with
      | none =>
          refine iff_of_true (reports_of_kept ?_) ?_
          · rw [handleRequest, viewed, FileView.restore_of_none saved]
          · simp [CountsAgree, saved]
      | some backup =>
          obtain ⟨place, opens⟩ := FileView.writable_iff.mp writable
          have copied := FileSystem.copy_apart opens
            (FilePaths.file_apart_backup opens) saved
          unfold view at copied
          have request : handleRequest s (.undo filename) =
              (updateFileStatisticsLl (reloadFileFromDisk
                { s with disk := s.disk.put place backup }
                filename).1 filename).1 := by
            simp [handleRequest, handleUndoRequest, undoFileChangeLl_eq,
              copied]
          have restored : (view (handleRequest s (.undo filename))
              filename).text = some backup := by
            rw [handleRequest, viewed, FileView.text_restore, writable,
              saved]
            rfl
          have stored : (view (reloadFileFromDisk
              { s with disk := s.disk.put place backup } filename).1
              filename).text = some backup := by
            rw [← restored, request, sameFiles_updateFileStatisticsLl.view]
          have records : findMetadata (reloadFileFromDisk
              { s with disk := s.disk.put place backup } filename).1
              filename = findMetadata s filename :=
            ((sameDisk_moves filename).reloadFileFromDisk _).findMetadata
              filename
          rw [reports_iff_of_restored writable restored, request,
            describes_updateFileStatisticsLl_iff stored, records]
          simp only [CountsAgree, saved, Option.mem_def, Option.some.injEq,
            forall_eq']

theorem describes_updateFileModifiedTimeLl {wordsOf : Text → Int}
    (now : TimeText) :
    RecordDescribes wordsOf (updateFileModifiedTimeLl s filename now).1 filename
        content ↔
      RecordDescribes wordsOf s filename content := by
  unfold updateFileModifiedTimeLl
  cases found : findMetadata s filename with
  | none => rfl
  | some record =>
      simp only
      rw [describes_updateMetadata (by exact fun _ => rfl)]
      constructor
      · intro described other member
        obtain ⟨size, chars, words⟩ := described other member
        exact ⟨size, chars, words⟩
      · intro described other member
        obtain ⟨size, chars, words⟩ := described other member
        exact ⟨size, chars, words⟩

theorem view_updateFileModifiedTimeLl (now : TimeText) :
    view (updateFileModifiedTimeLl s filename now).1 filename =
      view s filename := by
  unfold updateFileModifiedTimeLl
  split
  · rfl
  · rfl

theorem revert_reports_iff {tag : Filename} {now : TimeText} :
    ReportsContent committedWords filename s (.revert filename tag now) ↔
      CountsAgree filename s (.revert filename tag now) := by
  cases saved : s.disk.read (checkpointPath s.storage filename tag) with
  | none =>
      refine iff_of_true (reports_of_kept ?_) ?_
      · have missing : ¬s.disk.PathExists
            (checkpointPath s.storage filename tag) := by
          rw [← FileSystem.read_isSome_iff, saved]
          simp
        simp [handleRequest, nmRevert, missing]
      · simp [CountsAgree, revertText, saved]
  | some checkpoint =>
      cases writable : (view s filename).writable with
      | false =>
          refine iff_of_true (reports_of_kept ?_) ?_
          · have blocked : s.disk.target
                (filePaths s.storage filename).file = none := by
              simpa [FileView.writable, view] using writable
            have uncopied := @FileSystem.copy_eq_none s.disk
              (filePaths s.storage filename).file
              (checkpointPath s.storage filename tag) (.inl blocked)
            rw [handleRequest, nmRevert, getFilePath_eq]
            simp only [uncopied]
            split
            · rfl
            · rfl
          · simp [CountsAgree, Changes, writable]
      | true =>
          obtain ⟨place, opens⟩ := FileView.writable_iff.mp writable
          have copied := FileSystem.copy_of_target opens saved
          have found : s.disk.PathExists
              (checkpointPath s.storage filename tag) := by
            rw [← FileSystem.read_isSome_iff, saved]
            rfl
          unfold view at opens copied
          simp only at opens copied
          generalize reverted : (if s.disk.locate
            (checkpointPath s.storage filename tag) = some place then []
              else checkpoint) = text at copied
          have request : handleRequest s (.revert filename tag now) =
              (updateFileModifiedTimeLl
                { s with disk := s.disk.put place text } filename now).1 := by
            simp [handleRequest, nmRevert, getFilePath_eq, found, copied]
          have restored : (view (handleRequest s (.revert filename tag
              now)) filename).text = some text := by
            rw [request, view_updateFileModifiedTimeLl]
            have put := @FileView.text_put (view s filename) place text
            exact put.trans (if_pos opens)
          have records : findMetadata
              { s with disk := s.disk.put place text } filename =
              findMetadata s filename := rfl
          rw [reports_iff_of_restored writable restored, request,
            describes_updateFileModifiedTimeLl,
            describes_of_records records]
          simp only [CountsAgree, revertText, saved, opens, reverted,
            Option.map_some, Option.mem_def, Option.some.injEq, forall_eq']

/-- What a CHECKPOINT does to the file itself. -/
theorem text_nmCheckpoint (s : FileHandler) (filename tag : Filename) :
    (view (nmCheckpoint s filename tag).1 filename).text =
      checkpointText s filename tag := by
  generalize made : ({ view s filename with world := checkpointDisk s } :
    FileView) = v
  have paths : v.paths = filePaths s.storage filename := by
    rw [← made]
    rfl
  have world : v.world = s.disk.tryMkdir (checkpointDir s.storage) := by
    rw [← made]
    rfl
  have left : checkpointText s filename tag =
      if v.world.target v.paths.file =
          v.world.target (checkpointPath s.storage filename tag) then
        v.text.map fun _ => []
      else v.text := by
    rw [← made]
    rfl
  have kept : ∀ disk, (view { s with disk := disk } filename).text =
      FileView.text { v with world := disk } := by
    intro disk
    rw [← made]
    rfl
  rw [left, nmCheckpoint, getFilePath_eq, ← world, ← paths]
  simp only
  cases opened : v.world.openRead v.paths.file with
  | none =>
      have missing : v.text = none := by
        rcases Option.eq_none_or_eq_some (v.world.target v.paths.file) with
          opens | ⟨place, opens⟩
        · simp [FileView.text, FileView.writable, opens]
        · rw [FileSystem.openRead_of_target opens,
            Option.map_eq_none_iff] at opened
          simp [FileView.text, FileView.disk,
            FileSystem.load_of_target opens, opened]
      simp [kept, missing]
  | some file =>
      have readable : v.world.read v.paths.file = some file.bytes := by
        rw [FileSystem.read, opened]
        rfl
      rcases Option.eq_none_or_eq_some
          (v.world.target (checkpointPath s.storage filename tag)) with
        opens | ⟨place, opens⟩
      · have uncopied := @FileSystem.copy_eq_none v.world
          (checkpointPath s.storage filename tag) v.paths.file (.inl opens)
        simp only [uncopied, kept, opens]
        split
        · rename_i closed
          simp [FileView.text, FileView.writable, closed]
        · rfl
      · simp only [FileSystem.copy_of_target opens readable, kept,
          FileView.text_put, opens]
        by_cases same : v.world.target v.paths.file = some place
        · have stored : v.text = some file.bytes := by
            rw [FileSystem.read_of_target same] at readable
            simp [FileView.text, FileView.writable, FileView.disk, same,
              FileSystem.load_of_target same, readable]
          simp [same, FileSystem.locate_of_target same, stored]
        · simp [same]

theorem checkpoint_reports_iff {tag : Filename} :
    ReportsContent committedWords filename s (.checkpoint filename tag) ↔
      CountsAgree filename s (.checkpoint filename tag) := by
  have found : findMetadata (handleRequest s (.checkpoint filename tag))
      filename = findMetadata s filename := by
    obtain ⟨disk, same⟩ := nmCheckpoint_eq s filename tag
    rw [handleRequest, same]
    rfl
  exact reports_iff_of_records (text_nmCheckpoint s filename tag)
    fun _ => describes_of_records found

/-- One request leaves true statistics exactly when its counts agree. -/
theorem reportsContent_iff (orderly : Orderly filename s) {request : Request}
    (onFile : request.OnContent filename) :
    ReportsContent committedWords filename s request ↔
      CountsAgree filename s request := by
  cases request with
  | write name username sentenceIndex messages now =>
      cases onFile
      exact write_reports_iff orderly
  | undo name =>
      cases onFile
      exact undo_reports_iff orderly.stable
  | checkpoint name tag =>
      cases onFile
      exact checkpoint_reports_iff
  | revert name tag now =>
      cases onFile
      exact revert_reports_iff
  | _ => cases onFile

end

/-- Along a run of requests on a file, INFO describes every content that a
request left exactly when the counts of all requests agree. -/
theorem statistics_of_content_iff {start : FileHandler}
    (started : start.Started) (filename : Filename)
    (before requests : List Request)
    (each : ∀ request ∈ requests, request.OnContent filename)
    (_spared : SparesMetadata start.storage
      (getFilePath start.storage filename)) :
    StepRun.AllSteps handleRequest (ReportsContent committedWords filename)
        (runRequests start before) requests ↔
      StepRun.AllSteps handleRequest (CountsAgree filename)
        (runRequests start before) requests := by
  have reached := orderly_run started filename before
  exact @StepRun.allSteps_iff_of_invariant _ _ handleRequest
    (CountsAgree filename) (Orderly filename) (Request.OnContent filename)
    (ReportsContent committedWords filename)
    (fun _ request orderly _ _ => orderly_step orderly request)
    (fun _ _ orderly onFile => reportsContent_iff orderly onFile)
    _ _ reached each

/-- Blanks are breaks for both counters. -/
private def plainRequests : List Request :=
  [sampleWrite 0 "red sky".toList,
    .checkpoint sampleFile (CString.copy 255 "t".toList),
    sampleWrite 0 "big".toList, .undo sampleFile]

theorem statistics_of_plain_text :
    StepRun.AllSteps handleRequest (CountsAgree sampleFile)
        (runRequests freshServer [sampleCreate]) plainRequests ∧
      StepRun.AllSteps handleRequest
        (ReportsContent committedWords sampleFile)
        (runRequests freshServer [sampleCreate]) plainRequests :=
  have agree : StepRun.AllSteps handleRequest (CountsAgree sampleFile)
      (runRequests freshServer [sampleCreate]) plainRequests := by
    decide +kernel
  ⟨agree, (statistics_of_content_iff started_freshServer sampleFile
    [sampleCreate] plainRequests (by decide) (by decide +kernel)).mpr agree⟩

/-- The word `a.b` is one word to WRITE and two words to UNDO. -/
private def dottedWrites : List Request :=
  [sampleWrite 0 "a.b".toList, sampleWrite 0 "x".toList]

/-- No count of words fits what a WRITE and an UNDO report of one content. -/
theorem statistics_depend_on_request :
    ¬∃ wordsOf : Text → Int, ∀ (start : FileHandler), start.Started →
      ∀ (filename : Filename) (before requests : List Request),
        (∀ request ∈ requests, request.OnContent filename) →
        StepRun.AllSteps handleRequest (ReportsContent wordsOf filename)
          (runRequests start before) requests := by
  rintro ⟨wordsOf, reports⟩
  have runs := reports freshServer started_freshServer sampleFile
    [sampleCreate] (dottedWrites ++ [.undo sampleFile]) (by decide)
  have written := runs.1 "a.b".toList (by decide +kernel) (by decide +kernel)
  have undone := runs.2.2.1 "a.b".toList (by decide +kernel)
    (by decide +kernel)
  have once : wordsOf "a.b".toList = 1 :=
    written.wordsOf_eq (by decide +kernel)
  have twice : wordsOf "a.b".toList = 2 :=
    undone.wordsOf_eq (by decide +kernel)
  omega

end Dfs.StorageServer
