import Dfs.StorageServer.Parsing
import Dfs.StorageServer.RequestEffects
import Dfs.StorageServer.SavedFiles

/-!
# Undoing the last WRITE

The backup that a WRITE takes is not a copy of the file but the cached
document, written by a routine that leaves the delimiter fields out.  UNDO
brings the file back exactly when that text is the file: the document was read
from a file of single-spaced tidy words, or the file was written from a
document without delimiter fields.
-/

namespace Dfs.StorageServer

theorem length_joinSpaces_append {α : Type} (items : List α)
    (body suffix : α → Text) :
    (CText.joinSpaces
        (items.map fun item => body item ++ suffix item)).length =
      (CText.joinSpaces (items.map body)).length +
        (items.map suffix).flatten.length := by
  induction items with
  | nil => rfl
  | cons item items ih =>
      cases items with
      | nil => simp [CText.joinSpaces_singleton]
      | cons next items =>
          calc
            (CText.joinSpaces ((item :: next :: items).map fun item =>
                body item ++ suffix item)).length =
              ((body item).length + (suffix item).length) +
                ((CText.joinSpaces ((next :: items).map fun item =>
                  body item ++ suffix item)).length + 1) := by
              rw [List.map_cons, CText.joinSpaces_cons (by simp),
                List.length_append, List.length_append, List.length_cons]
            _ = ((body item).length +
                  ((CText.joinSpaces ((next :: items).map body)).length + 1)) +
                ((suffix item).length +
                  ((next :: items).map suffix).flatten.length) := by
              rw [ih]
              omega
            _ = (CText.joinSpaces ((item :: next :: items).map body)).length +
                ((item :: next :: items).map suffix).flatten.length := by
              have bodies : (item :: next :: items).map body =
                  body item :: (next :: items).map body := rfl
              have suffixes : (item :: next :: items).map suffix =
                  suffix item :: (next :: items).map suffix := rfl
              rw [bodies, suffixes, CText.joinSpaces_cons (by simp),
                List.flatten_cons, List.length_append, List.length_append,
                List.length_cons]

/-- File and backup text are the same only without delimiter fields. -/
theorem writeLinkedListToFile_eq_iff {sentences : List SentenceNode} :
    writeLinkedListToFile sentences = undoBackupText sentences ↔
      ∀ sentence ∈ sentences, sentence.delimiter = CText.nul := by
  constructor
  · intro same sentence member
    have lengths := length_joinSpaces_append sentences
      (fun sentence => wordsText sentence.words) delimiterText
    have equal := congrArg List.length same
    unfold writeLinkedListToFile undoBackupText at equal
    rw [equal] at lengths
    have nothing : (sentences.map delimiterText).flatten = [] := by
      apply List.eq_nil_of_length_eq_zero
      omega
    have empty : delimiterText sentence = [] :=
      List.flatten_eq_nil_iff.mp nothing _
        (List.mem_map.mpr ⟨sentence, member, rfl⟩)
    unfold delimiterText at empty
    split at empty
    · assumption
    · cases empty
  · exact writeLinkedListToFile_eq_undoBackupText

/-- Tidy words with one space between them, and no NUL byte. -/
def SingleSpaced (text : Text) : Prop :=
  CText.nul ∉ text ∧
    (text = [] ∨ ∀ piece ∈ text.splitOn ' ', TidyWord piece)

theorem undoBackupText_loadDocument (text : Text) :
    undoBackupText (loadDocument text).sentences =
      CText.joinSpaces (textParts (CText.terminated text)) := by
  have inhabited := (tidyText_loadDocument text).inhabited
  have stored : ∀ part ∈ textParts (CText.terminated text),
      (createWordNode part).chars = part := fun part member =>
    createWordNode_chars (tidy_of_mem_textParts member).short
      (nul_not_mem_textParts (CText.nul_not_mem_terminated text) member)
  have parts : ((textParts (CText.terminated text)).map createWordNode).map
      CString.chars = textParts (CText.terminated text) := by
    rw [List.map_map]
    exact (List.map_congr_left stored).trans (List.map_id _)
  rw [undoBackupText_eq_wordsText inhabited, wordLists_loadDocument,
    flatten_groupWords, List.nil_append, wordsText, parts]

theorem undoBackupText_loadDocument_eq_iff {text : Text} :
    undoBackupText (loadDocument text).sentences = text ↔
      SingleSpaced text := by
  rw [undoBackupText_loadDocument]
  constructor
  · intro same
    have nulFree : CText.nul ∉ text := by
      rw [← same]
      apply CText.not_mem_joinSpaces (by decide)
      intro part member
      exact nul_not_mem_textParts (CText.nul_not_mem_terminated text) member
    refine ⟨nulFree, ?_⟩
    by_cases empty : textParts (CText.terminated text) = []
    · rw [empty] at same
      exact .inl same.symm
    · refine .inr ?_
      have solid : ∀ part ∈ textParts (CText.terminated text),
          ' ' ∉ part := by
        intro part member inside
        have space := (tidy_of_mem_textParts member).solid ' ' inside
        exact absurd space (by decide)
      have pieces : text.splitOn ' ' =
          textParts (CText.terminated text) := by
        nth_rewrite 1 [← same]
        exact List.splitOn_intercalate ' ' solid empty
      intro piece member
      rw [pieces] at member
      exact tidy_of_mem_textParts member
  · rintro ⟨nulFree, empty | tidy⟩
    · subst empty
      rfl
    · rw [CText.terminated_eq_self nulFree]
      calc
        CText.joinSpaces (textParts text) =
            CText.joinSpaces
              (textParts (CText.joinSpaces (text.splitOn ' '))) := by
          rw [CText.joinSpaces_splitOn]
        _ = CText.joinSpaces (text.splitOn ' ') := by
          rw [textParts_joinSpaces_of_tidy tidy]
        _ = text := CText.joinSpaces_splitOn text

/-- The document was read from the text, or the text was written from it. -/
def ReadOrWritten (document : Document) (text : Text) : Prop :=
  document.content = (loadDocument text).content ∨
    text = writeLinkedListToFile document.sentences

theorem describes_readOrWritten : Describes ReadOrWritten := by
  refine ⟨fun _ => .inl rfl, ?_⟩
  rintro left right text same (read | written)
  · exact .inl (same.trans read)
  · refine .inr ?_
    rw [Document.writeLinkedListToFile_of_content same]
    exact written

/-- The document was read from this text, whose words stand apart by single
spaces, or was written to it, and no sentence carries a delimiter field. -/
def Restorable (document : Document) (text : Text) : Prop :=
  (document.content = (loadDocument text).content ∧ SingleSpaced text) ∨
    text = writeLinkedListToFile document.sentences ∧
      ∀ sentence ∈ document.sentences, sentence.delimiter = CText.nul

theorem undoBackupText_eq_iff {document : Document} {text : Text}
    (related : ReadOrWritten document text) :
    undoBackupText document.sentences = text ↔ Restorable document text := by
  constructor
  · intro same
    rcases related with read | written
    · refine .inl ⟨read, undoBackupText_loadDocument_eq_iff.mp ?_⟩
      rw [← Document.undoBackupText_of_content read]
      exact same
    · refine .inr ⟨written, writeLinkedListToFile_eq_iff.mp ?_⟩
      rw [← written, same]
  · rintro (⟨read, spaced⟩ | ⟨written, unmarked⟩)
    · rw [Document.undoBackupText_of_content read]
      exact undoBackupText_loadDocument_eq_iff.mpr spaced
    · rw [written, writeLinkedListToFile_eq_iff.mpr unmarked]

/-- The file after a committed WRITE and the UNDO after it. -/
theorem FileView.disk_restore_write {v : FileView} {allowed : Bool}
    {username : Username} {sentenceIndex : Int} {session : WriteSession}
    {messages : List WriteMessage} {document : Document} {content : Text}
    (counted : ∀ document, v.document = some document → document.Counted)
    (stored : v.disk = some content) (loaded : v.document = some document)
    (opened : (v.openWrite allowed username sentenceIndex).2 = some session)
    (completed : (receiveCommands session messages).2.1 = true) :
    ∃ committed,
      document.commit (receiveCommands session messages).1 =
        some committed ∧
      (v.write allowed username sentenceIndex messages).restore.disk =
        if v.made.writable then
          (if v.savable then some (undoBackupText document.sentences)
            else v.made.backup).or
            (if v.made.swappable then
              some (writeLinkedListToFile committed.sentences)
            else some content)
        else some content := by
  obtain ⟨found, unlocked, done, granted, finished, written⟩ :=
    write_of_completed messages counted opened completed
  have same := granted.loaded
  rw [loaded] at same
  cases same
  obtain ⟨committed, ready, contents⟩ :=
    Document.commit_of_content granted.content granted.count finished
  refine ⟨committed, ready, ?_⟩
  generalize outcome : v.write allowed username sentenceIndex messages =
    w at written ⊢
  have disk : w.disk =
      if v.Openable then some (writeLinkedListToFile committed.sentences)
      else some content := by
    rw [written, disk_committed, disk_received, disk_made stored,
      Document.writeLinkedListToFile_of_content contents]
  have backup : w.backup = (v.received document unlocked).backup := by
    rw [written]
    exact (FilePaths.sameAt_sync_backup _ _ _).read
  have writable : w.writable = v.made.writable := by
    rw [← @writable_received v document unlocked, written]
    exact congrArg Option.isSome
      (target_congr (FilePaths.folders_sync _ _ _) _)
  rw [FileView.disk_restore, disk, backup, writable, backup_received]
  unfold Openable sessionBackup
  by_cases opens : v.made.writable = true
  · simp [opens]
  · simp [opens]

/-- The commit writes the text that is there. -/
def Document.Rewrites (document : Document) (session : WriteSession)
    (text : Text) : Prop :=
  ∀ committed, document.commit session = some committed →
    writeLinkedListToFile committed.sentences = text

/-- UNDO after a WRITE that commits the session brings the text back: the
file cannot be opened and never changes, the backup of the document is the
text, or the text is what is left where no backup can be saved. -/
def FileView.Undoes (v : FileView) (document : Document)
    (session : WriteSession) (text : Text) : Prop :=
  v.made.writable = true →
    if v.savable = true then undoBackupText document.sentences = text
    else
      match v.made.backup with
      | some other => other = text
      | none => v.made.swappable = true → document.Rewrites session text

/-- Every run of complete requests whose commits reach the disk keeps document
and text related so. -/
theorem readOrWritten_run {start : FileHandler} (started : start.Started)
    {filename : Filename} (unsaved : start.Unsaved filename)
    {requests : List Request}
    (steps : StepRun.AllSteps handleRequest
      (fun s request =>
        request.OnFile filename ∧ SyncsCommit filename s request)
      start requests) :
    SavedFile ReadOrWritten filename (runRequests start requests) := by
  refine savedFile_run describes_readOrWritten (fun _ _ met => met.1)
    (fun _ _ met => met.2) ?_
    (savedFile_of_started describes_readOrWritten started unsaved) steps
  intro s username sentenceIndex messages now session document unlocked
    committed _ _ _ _ _ _
  exact .inr rfl

theorem undoBackupText_eq_iff_of_run {start : FileHandler}
    (started : start.Started) {filename : Filename}
    (unsaved : start.Unsaved filename) {requests : List Request}
    (steps : StepRun.AllSteps handleRequest
      (fun s request =>
        request.OnFile filename ∧ SyncsCommit filename s request)
      start requests)
    {document : Document}
    (loaded : (view (runRequests start requests) filename).document =
      some document)
    {content : Text}
    (stored : (view (runRequests start requests) filename).disk =
      some content) :
    undoBackupText document.sentences = content ↔
      Restorable document content := by
  obtain ⟨text, onDisk, related⟩ :=
    (readOrWritten_run started unsaved steps).file.related document loaded
  have sameText : some text = some content := onDisk.symm.trans stored
  cases sameText
  exact undoBackupText_eq_iff related

/-- After every run of complete requests, UNDO right after a committed WRITE
restores the file as it was when the session opened if and only if what it
brings back is that text.  In runs of CREATE, WRITE and UNDO on the file whose
commits reach the disk, the backup of the document is the text exactly if it is
restorable. -/
theorem undo_restores_file_iff {start : FileHandler}
    (started : start.Started) {filename : Filename}
    {requests : List Request} {username : Username} {sentenceIndex : Int}
    {session : WriteSession} {messages : List WriteMessage} (now : TimeText)
    (opened : (openWrite (runRequests start requests) filename username
      sentenceIndex).2.2 = some session)
    (completed : (receiveCommands session messages).2.1 = true)
    {content : Text}
    (stored : (runRequests start requests).diskText filename =
      some content)
    {document : Document}
    (loaded : (view (runRequests start requests) filename).document =
      some document)
    (_spared : SparesMetadata start.storage
      (getFilePath start.storage filename)) :
    ((runRequests start (requests ++
        [.write filename username sentenceIndex messages now,
          .undo filename])).diskText filename = some content ↔
      (view (runRequests start requests) filename).Undoes document
        (receiveCommands session messages).1 content) ∧
      (start.Unsaved filename →
        StepRun.AllSteps handleRequest
          (fun s request =>
            request.OnFile filename ∧ SyncsCommit filename s request)
          start requests →
        (undoBackupText document.sentences = content ↔
          Restorable document content)) := by
  rw [← view_disk] at stored
  refine ⟨?_, ?_⟩
  · have holds := orderly_run started filename requests
    obtain ⟨written, stable⟩ := view_handleWriteRequest holds.stable username
      sentenceIndex messages now
    have undone := (view_handleUndoRequest stable).1
    rw [(view_openWrite holds.stable username sentenceIndex).2.1] at opened
    have after : (runRequests start (requests ++
        [.write filename username sentenceIndex messages now,
          .undo filename])).diskText filename =
        ((view (runRequests start requests) filename).write
          (hasWriteAccessLl (runRequests start requests) filename
            username).1 username sentenceIndex messages).restore.disk := by
      rw [← written, ← undone, view_disk]
      unfold runRequests
      rw [StepRun.run_append]
      rfl
    obtain ⟨committed, done, disk⟩ := FileView.disk_restore_write
      holds.counted stored loaded opened completed
    rw [after, disk, FileView.Undoes]
    generalize view (runRequests start requests) filename = v
    cases writable : v.made.writable with
    | false => simp
    | true =>
        cases savable : v.savable with
        | true => simp
        | false =>
            cases backup : v.made.backup with
            | some other => simp
            | none =>
                cases swappable : v.made.swappable with
                | false => simp
                | true => simp [Document.Rewrites, done]
  · intro unsaved steps
    exact undoBackupText_eq_iff_of_run started unsaved steps loaded stored

/-- The document after the first WRITE to a new file. -/
private def firstDocument : Document :=
  { sentences :=
      [{ createSentenceNode CText.nul with
         words := [createWordNode "Hello.".toList] }]
    sentenceCount := 1 }

theorem undo_restores_first_word :
    (runRequests freshServer
      ([sampleCreate, sampleWrite 0 "Hello.".toList] ++
        [.write sampleFile sampleUser 0 (sampleMessages "Oh".toList)
          sampleTime, .undo sampleFile])).diskText sampleFile =
      some "Hello.".toList := by
  have opened : (openWrite (runRequests freshServer
      [sampleCreate, sampleWrite 0 "Hello.".toList]) sampleFile sampleUser
      0).2.2 = some (newSession sampleUser 0 1) := by
    decide +kernel
  have completed : (receiveCommands (newSession sampleUser 0 1)
      (sampleMessages "Oh".toList)).2.1 = true := by
    decide +kernel
  have stored : (runRequests freshServer
      [sampleCreate, sampleWrite 0 "Hello.".toList]).diskText sampleFile =
      some "Hello.".toList := by
    decide +kernel
  have loaded : (view (runRequests freshServer
      [sampleCreate, sampleWrite 0 "Hello.".toList]) sampleFile).document =
      some firstDocument := by
    decide +kernel
  obtain ⟨restores, backup⟩ := undo_restores_file_iff started_freshServer
    sampleTime opened completed stored loaded (by decide +kernel)
  have savable : (view (runRequests freshServer
      [sampleCreate, sampleWrite 0 "Hello.".toList]) sampleFile).savable =
      true := by
    decide +kernel
  refine restores.mpr fun _ => ?_
  rw [if_pos savable]
  refine (backup ?_ ?_).mpr (.inr ⟨?_, ?_⟩)
  · unfold FileHandler.Unsaved
    decide +kernel
  · refine ⟨⟨rfl, trivial⟩, ⟨rfl, ?_⟩, trivial⟩
    unfold SyncsCommit sampleWrite
    decide +kernel
  · decide +kernel
  · decide +kernel

/-- The document that UNDO reads back carries a delimiter field; the next
commit doubles the delimiter on disk, and the backup does not. -/
theorem undo_loses_delimiter :
    (runRequests freshServer
        [sampleCreate, sampleWrite 0 "Hello.".toList,
          sampleWrite 0 "a".toList, .undo sampleFile,
          sampleWrite 0 "X".toList]).diskText sampleFile =
        some "X Hello..".toList ∧
      (runRequests freshServer
        [sampleCreate, sampleWrite 0 "Hello.".toList,
          sampleWrite 0 "a".toList, .undo sampleFile,
          sampleWrite 0 "X".toList, sampleWrite 0 "Y".toList]).diskText
        sampleFile = some "Y X Hello..".toList ∧
      (runRequests freshServer
        [sampleCreate, sampleWrite 0 "Hello.".toList,
          sampleWrite 0 "a".toList, .undo sampleFile,
          sampleWrite 0 "X".toList, sampleWrite 0 "Y".toList,
          .undo sampleFile]).diskText sampleFile =
        some "X Hello.".toList := by
  refine ⟨?_, ?_, ?_⟩
  · decide +kernel
  · decide +kernel
  · decide +kernel

end Dfs.StorageServer
