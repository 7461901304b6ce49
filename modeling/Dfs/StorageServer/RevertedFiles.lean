import Dfs.StorageServer.Acknowledgements
import Dfs.StorageServer.Checkpoints
import Dfs.StorageServer.DocumentAgreement

/-!
# Writing after a REVERT

REVERT writes the checkpoint to the disk file and leaves the cached document
alone, and the next WRITE edits that document.  The words of the file are
those of the checkpoint with the queue inserted only if the cached document,
where there is one, has the same words.
-/

namespace Dfs.StorageServer

section

variable {document : Document}

/-- Tidy words without delimiter fields are read back, also around empty
sentences. -/
theorem words_written
    (unmarked : ∀ sentence ∈ document.sentences,
      sentence.delimiter = CText.nul)
    (tidy : ∀ word ∈ document.words, TidyWord word.chars) :
    (loadDocument (writeLinkedListToFile document.sentences)).words =
      document.words := by
  have parts : textParts (undoBackupText document.sentences) =
      document.words.map CString.chars := by
    have sentenceParts : ∀ sentence ∈ document.sentences,
        textParts (wordsText sentence.words) =
          sentence.words.map CString.chars := by
      intro sentence member
      apply textParts_joinSpaces_of_tidy
      intro piece inside
      obtain ⟨word, found, rfl⟩ := List.mem_map.mp inside
      exact tidy word (List.mem_flatten.mpr ⟨sentence.words,
        List.mem_map_of_mem member, found⟩)
    unfold undoBackupText Document.words
    rw [textParts_joinSpaces, List.flatMap_map, List.map_flatten,
      List.map_map, ← List.flatMap_def]
    exact List.flatMap_congr sentenceParts
  have restored : (document.words.map CString.chars).map createWordNode =
      document.words := by
    simp [createWordNode, Function.comp_def]
  rw [writeLinkedListToFile_eq_undoBackupText unmarked]
  unfold Document.words at restored ⊢
  rw [wordLists_loadDocument, flatten_groupWords, List.nil_append,
    CText.terminated_eq_self (nul_not_mem_undoBackupText _), parts]
  exact restored

end

theorem tidy_of_mem_loadDocument {content : Text} {word : WordText}
    (member : word ∈ (loadDocument content).words) :
    TidyWord word.chars := by
  obtain ⟨words, sentence, inside⟩ := List.mem_flatten.mp member
  exact ((tidyText_loadDocument content).tidy words sentence).tidy word inside

/-- The document that the next WRITE edits after a REVERT to `content`. -/
def FileHandler.revertedDocument (s : FileHandler) (filename : Filename)
    (content : Text) : Document :=
  match s.fileCache.get filename with
  | some file => file.toDocument
  | none => loadDocument content

/-- The cached document, where there is one, has the words of the checkpoint,
and no sentence carries a delimiter field. -/
structure TakesHold (s : FileHandler) (filename : Filename)
    (content : Text) : Prop where
  words : (s.revertedDocument filename content).words =
    (loadDocument content).words
  unmarked : ∀ part ∈ (s.revertedDocument filename content).content,
    part.2 = CText.nul

section

variable {s : FileHandler} {filename tag : Filename} {content : Text}

theorem storage_run (s : FileHandler) (requests : List Request) :
    (runRequests s requests).storage = s.storage :=
  @StepRun.kept _ _ handleRequest (fun _ _ => True) _ FileHandler.storage
    (fun t request _ => storage_handleRequest t request) s requests
    (StepRun.allSteps_of_forall (fun _ _ => trivial) s requests)

/-- A REVERT that succeeds leaves its checkpoint in the file. -/
theorem disk_nmRevert {now : TimeText}
    (apart : (checkpointPath s.storage filename tag).resolve ≠
      (filePaths s.storage filename).file.resolve)
    (saved : s.disk.read (checkpointPath s.storage filename tag) =
      some content)
    (success : (nmRevert s filename tag now).2.errorCode = errSuccess) :
    (nmRevert s filename tag now).1.diskText filename = some content := by
  obtain ⟨stands, opened⟩ := (nmRevert_success_iff tag now).mp success
  rw [getFilePath_eq] at opened
  obtain ⟨place, opens⟩ := Option.isSome_iff_exists.mp opened
  have elsewhere : s.disk.locate (checkpointPath s.storage filename tag) ≠
      some place := by
    intro reached
    exact apart ((FileSystem.resolve_of_locate reached).trans
      (FileSystem.resolve_of_target opens).symm)
  have copied := FileSystem.copy_apart opens elsewhere saved
  rw [← view_disk]
  unfold nmRevert
  rw [getFilePath_eq, if_neg (not_not_intro stands), copied]
  simp only
  unfold updateFileModifiedTimeLl
  split
  · exact FileSystem.load_put opens
  · exact FileSystem.load_put opens

theorem document_nmRevert {now : TimeText}
    (reverted : (nmRevert s filename tag now).1.diskText filename =
      some content) :
    (view (nmRevert s filename tag now).1 filename).document =
      some (s.revertedDocument filename content) := by
  have cache : (nmRevert s filename tag now).1.fileCache.get filename =
      s.fileCache.get filename := by
    rw [(silent_nmRevert tag now).cache]
  rw [← view_disk] at reverted
  unfold FileView.document FileHandler.revertedDocument
  rw [reverted]
  simp only [view, cache]
  cases s.fileCache.get filename with
  | none => rfl
  | some file => rfl

/-- The request leaves document and record of the file alone, and the file
too if it is not cached. -/
def Request.Spares (s : FileHandler) (filename : Filename)
    (request : Request) : Prop :=
  ¬request.Touches filename ∧
    (s.fileCache.get filename = none →
      request.Leaves s.storage (filePaths s.storage filename).file)

theorem document_run_of_spares {requests : List Request}
    {document : Document}
    (loaded : (view s filename).document = some document)
    (spares : ∀ request ∈ requests, request.Spares s filename) :
    (view (runRequests s requests) filename).document = some document := by
  cases cached : s.fileCache.get filename with
  | some file =>
      have kept : (runRequests s requests).fileCache.get filename =
          s.fileCache.get filename :=
        @StepRun.kept _ _ handleRequest
          (fun _ request => request.Spares s filename) _
          (fun t => t.fileCache.get filename)
          (fun _ _ spared => (untouched_handleRequest spared.1).cache) s
          requests (StepRun.allSteps_of_mem s spares)
      unfold FileView.document view at loaded ⊢
      rw [kept]
      rw [cached] at loaded ⊢
      exact loaded
  | none =>
      have stands : s.disk.PathExists (filePaths s.storage filename).file := by
        have stored : ((view s filename).disk).isSome := by
          unfold FileView.document at loaded
          simp only [view, cached, Option.map_none] at loaded
          obtain ⟨text, stored, _⟩ := Option.map_eq_some_iff.mp loaded
          exact Option.isSome_iff_exists.mpr ⟨text, stored⟩
        obtain ⟨text, stored⟩ := Option.isSome_iff_exists.mp stored
        exact FileSystem.pathExists_of_load stored
      have held : (runRequests s requests).fileCache.get filename = none ∧
          FileSystem.SameAt s.disk (runRequests s requests).disk
            (filePaths s.storage filename).file := by
        refine And.imp_right And.right (@StepRun.invariant _ _ handleRequest
          (fun _ request => request.Spares s filename)
          (fun t => t.fileCache.get filename = none ∧
            t.storage = s.storage ∧
            FileSystem.SameAt s.disk t.disk
              (filePaths s.storage filename).file) ?_ s requests
          ⟨cached, rfl, .refl⟩ (StepRun.allSteps_of_mem s spares))
        rintro t request ⟨uncached, storage, same⟩ spared
        refine ⟨(untouched_handleRequest spared.1).cache.trans uncached,
          (storage_handleRequest t request).trans storage, ?_⟩
        exact same.trans (sameAt_handleRequest (same.pathExists stands)
          (storage ▸ spared.2 cached))
      have storage := storage_run s requests
      unfold FileView.document view at loaded ⊢
      rw [cached] at loaded
      rw [held.1, storage]
      exact (congrArg (Option.map loadDocument) held.2.load).trans loaded

/-- One WRITE on a document that stands for the checkpoint. -/
theorem words_of_write (orderly : Orderly filename s)
    {document : Document}
    (loaded : (view s filename).document = some document)
    (words : document.words = (loadDocument content).words)
    (unmarked : ∀ part ∈ document.content, part.2 = CText.nul)
    {username : Username} {sentenceIndex : Int} {session : WriteSession}
    {messages : List WriteMessage}
    (opened : (openWrite s filename username sentenceIndex).2.2 =
      some session)
    (completed : (receiveCommands session messages).2.1 = true)
    (tidy : ∀ word ∈ (receiveCommands session messages).1.queue,
      TidyWord word.chars)
    (opens : (view s filename).Openable) (now : TimeText) :
    ∃ text,
      (handleWriteRequest s filename username sentenceIndex messages
        now).1.diskText filename = some text ∧
      (loadDocument content).words.Sublist (loadDocument text).words ∧
      (loadDocument text).words.Perm ((loadDocument content).words ++
        (receiveCommands session messages).1.queue) := by
  rw [(view_openWrite orderly.stable username sentenceIndex).2.1] at opened
  obtain ⟨found, unlocked, committed, granted, done, written⟩ :=
    FileView.write_of_completed messages orderly.counted opened completed
  have same : found = document :=
    Option.some.inj (granted.loaded.symm.trans loaded)
  subst same
  have unlockedWords : unlocked.words = (loadDocument content).words :=
    (Document.words_of_content granted.content).trans words
  have plain := unmarked_commit (granted.content ▸ unmarked) done
  have added := Document.words_commit done
  have kept := Document.words_sublist_commit done
  rw [unlockedWords] at added kept
  have tidyWords : ∀ word ∈ committed.words, TidyWord word.chars := by
    intro word member
    rcases List.mem_append.mp (added.mem_iff.mp member) with before | queued
    · exact tidy_of_mem_loadDocument before
    · exact tidy word queued
  refine ⟨writeLinkedListToFile committed.sentences, ?_, ?_, ?_⟩
  · rw [← view_disk, (view_handleWriteRequest orderly.stable username
      sentenceIndex messages now).1, written, FileView.disk_committed,
      if_pos opens]
  · rw [words_written plain tidyWords]
    exact kept
  · rw [words_written plain tidyWords]
    exact added

end

/-- A run in which the content of a file was saved, anything was done, the
file was reverted, and only then the requests `others` came. -/
structure RevertHistory (start : FileHandler) (filename tag : Filename) where
  earlier : List Request
  content : Text
  later : List Request
  now : TimeText
  others : List Request
  stored : (runRequests start earlier).diskText filename = some content
  made : (nmCheckpoint (runRequests start earlier) filename
    tag).2.errorCode = errSuccess
  success : (nmRevert (runRequests start
    (earlier ++ .checkpoint filename tag :: later)) filename tag
      now).2.errorCode = errSuccess

namespace RevertHistory

variable {start : FileHandler} {filename tag : Filename}

/-- The server that the REVERT finds. -/
def unreverted (history : RevertHistory start filename tag) : FileHandler :=
  runRequests start
    (history.earlier ++ .checkpoint filename tag :: history.later)

/-- The server that the WRITE finds. -/
def reverted (history : RevertHistory start filename tag) : FileHandler :=
  runRequests history.unreverted
    (.revert filename tag history.now :: history.others)

/-- The checkpoint is on disk as long as no later request writes it. -/
theorem saved (history : RevertHistory start filename tag)
    (apart : (checkpointPath start.storage filename tag).resolve ≠
      (filePaths start.storage filename).file.resolve)
    (leaves : ∀ request ∈ history.later,
      request.Leaves start.storage
        (checkpointPath start.storage filename tag)) :
    history.unreverted.disk.read
        (checkpointPath start.storage filename tag) =
      some history.content := by
  have before := storage_run start history.earlier
  have first : (nmCheckpoint (runRequests start history.earlier) filename
      tag).1.disk.read (checkpointPath start.storage filename tag) =
        some history.content := by
    rw [← before] at apart ⊢
    have stands := FileSystem.pathExists_of_load
      (view_disk.trans history.stored)
    have made : FileSystem.ChangedAt []
        (runRequests start history.earlier).disk
        (checkpointDisk (runRequests start history.earlier)) :=
      .tryMkdir _
    have kept := made.sameAt stands (by simp)
    rcases nmCheckpoint_cases fun place opens reached =>
        apart ((FileSystem.resolve_of_target opens).trans
          (FileSystem.resolve_of_locate reached).symm) with
      ⟨_, failed⟩ | ⟨content, place, readable, opens, _, written⟩
    · exact (failed history.made).elim
    · rw [written]
      refine (FileSystem.read_put opens).trans ?_
      rw [← readable]
      exact kept.read.trans
        (FileSystem.read_of_load (view_disk.trans history.stored))
  unfold unreverted runRequests
  rw [StepRun.run_append, StepRun.run_cons]
  refine (@StepRun.invariant _ _ handleRequest
    (fun _ request => request.Leaves start.storage
      (checkpointPath start.storage filename tag))
    (fun s => s.storage = start.storage ∧
      s.disk.read (checkpointPath start.storage filename tag) =
        some history.content) ?_ _ history.later ?_
    (StepRun.allSteps_of_mem _ leaves)).2
  · rintro s request ⟨storage, holds⟩ spared
    refine ⟨(storage_handleRequest s request).trans storage, ?_⟩
    have stands : s.disk.PathExists
        (checkpointPath start.storage filename tag) := by
      rw [← FileSystem.read_isSome_iff, holds]
      rfl
    exact (sameAt_handleRequest stands (storage ▸ spared)).read.trans holds
  · exact ⟨(storage_handleRequest _ _).trans before, first⟩

theorem reverted_eq_run (history : RevertHistory start filename tag) :
    history.reverted = runRequests start
      ((history.earlier ++ .checkpoint filename tag :: history.later) ++
        .revert filename tag history.now :: history.others) := by
  unfold reverted unreverted runRequests
  exact (StepRun.run_append _ _ _).symm

theorem document_reverted (history : RevertHistory start filename tag)
    (apart : (checkpointPath start.storage filename tag).resolve ≠
      (filePaths start.storage filename).file.resolve)
    (leaves : ∀ request ∈ history.later,
      request.Leaves start.storage
        (checkpointPath start.storage filename tag))
    (spares : ∀ request ∈ history.others,
      request.Spares history.unreverted filename) :
    (view history.reverted filename).document =
      some (history.unreverted.revertedDocument filename
        history.content) := by
  have saved := history.saved apart leaves
  have storage : history.unreverted.storage = start.storage :=
    storage_run start _
  rw [← storage] at apart saved
  have loaded := document_nmRevert
    (disk_nmRevert apart saved history.success)
  apply document_run_of_spares loaded
  intro request member
  obtain ⟨untouched, left⟩ := spares request member
  have silent := @silent_nmRevert filename history.unreverted tag history.now
  refine ⟨untouched, fun uncached => ?_⟩
  rw [silent.storage]
  exact left (silent.cache ▸ uncached)

end RevertHistory

private def sampleTag : Filename := CString.copy 255 "t".toList

/-- The word `old` is saved, the requests of `later` are carried out, and the
file is reverted. -/
private def sampleRevert (later : List Request)
    (success : (nmRevert (runRequests freshServer
      ([sampleCreate, sampleWrite 0 "old".toList] ++
        .checkpoint sampleFile sampleTag :: later)) sampleFile sampleTag
          sampleTime).2.errorCode = errSuccess) :
    RevertHistory freshServer sampleFile sampleTag where
  earlier := [sampleCreate, sampleWrite 0 "old".toList]
  content := "old".toList
  later := later
  now := sampleTime
  others := []
  stored := by decide +kernel
  made := by decide +kernel
  success := success

private def freshRevert : RevertHistory freshServer sampleFile sampleTag :=
  sampleRevert [] (by decide +kernel)

private def staleRevert : RevertHistory freshServer sampleFile sampleTag :=
  sampleRevert [sampleWrite 0 "new".toList] (by decide +kernel)

end Dfs.StorageServer
