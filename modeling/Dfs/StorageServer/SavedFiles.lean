import Dfs.StorageServer.CompleteRequests

/-!
# Documents and their files over runs of complete requests

CREATE, WRITE and UNDO requests on one file keep its document and its text on
disk related in one of three ways: the document was just loaded from the text,
nothing but locks changed, or a commit wrote the text from the document.  A
relation that holds of loaded documents, ignores locks and is brought about by
every commit holds in all states that such requests reach.
-/

namespace Dfs.StorageServer

/-- The CREATE, WRITE and UNDO requests on one file. -/
def Request.OnFile (filename : Filename) : Request → Prop
  | .createFile target _ _ => target = filename
  | .write target _ _ _ _ => target = filename
  | .undo target => target = filename
  | _ => False

/-- If a session commits, the file and its swap file can be opened. -/
def SyncsCommit (filename : Filename) (s : FileHandler) : Request → Prop
  | .write _ username sentenceIndex messages _ =>
      ∀ session ∈ (openWrite s filename username sentenceIndex).2.2,
        (receiveCommands session messages).2.1 = true →
        (view s filename).Openable
  | _ => True

/-- The document and the text of the file are related. -/
structure FileView.Saved (Related : Document → Text → Prop) (v : FileView) :
    Prop where
  counted : ∀ document, v.document = some document → document.Counted
  related : ∀ document, v.document = some document →
    ∃ text, v.disk = some text ∧ Related document text

/-- A file without a record has no backup and is not cached. -/
structure SavedFile (Related : Document → Text → Prop) (filename : Filename)
    (s : FileHandler) : Prop where
  stable : Stable s filename
  file : (view s filename).Saved Related
  gone : filename ∉ s.names →
    (view s filename).backup = none ∧ (view s filename).cached = none

/-- Loaded documents are related to their text, and locks do not matter. -/
structure Describes (Related : Document → Text → Prop) : Prop where
  loaded : ∀ text, Related (loadDocument text) text
  content : ∀ {left right text}, left.content = right.content →
    Related right text → Related left text

section

variable {Related : Document → Text → Prop}

namespace FileView

variable {v : FileView}

theorem saved_of_uncached (describes : Describes Related)
    (uncached : v.cached = none) : v.Saved Related := by
  refine ⟨?_, ?_⟩
  · intro document loaded
    unfold FileView.document at loaded
    rw [uncached] at loaded
    obtain ⟨text, _, rfl⟩ := Option.map_eq_some_iff.mp loaded
    exact counted_loadDocument text
  · intro document loaded
    unfold FileView.document at loaded
    rw [uncached] at loaded
    obtain ⟨text, stored, rfl⟩ := Option.map_eq_some_iff.mp loaded
    exact ⟨text, stored, describes.loaded text⟩

theorem Saved.saveBackup (saved : v.Saved Related) :
    v.saveBackup.Saved Related := by
  unfold FileView.saveBackup
  cases loaded : v.document with
  | none => exact saved
  | some document =>
      refine ⟨?_, ?_⟩
      · intro found same
        exact saved.counted found (loaded.trans same)
      · intro found same
        obtain ⟨text, stored, related⟩ :=
          saved.related found (loaded.trans same)
        exact ⟨text, disk_saved stored _ _, related⟩

theorem Saved.restore (describes : Describes Related)
    (saved : v.Saved Related) : v.restore.Saved Related := by
  have counted := counted_restore saved.counted
  rcases restore_cases v with same | ⟨backup, place, _, opens, restored⟩
  · rw [same]
    exact saved
  · rw [restored] at counted ⊢
    refine ⟨counted, ?_⟩
    intro document loaded
    cases loaded
    exact ⟨backup, FileSystem.load_put opens, describes.loaded backup⟩

/-- A WRITE keeps the relation if its commit brings it about. -/
theorem Saved.write (describes : Describes Related) (saved : v.Saved Related)
    {allowed : Bool} {username : Username} {sentenceIndex : Int}
    {messages : List WriteMessage}
    (opens : ∀ session,
      (v.openWrite allowed username sentenceIndex).2 = some session →
      (receiveCommands session messages).2.1 = true → v.Openable)
    (commits : ∀ session document unlocked committed,
      (v.openWrite allowed username sentenceIndex).2 = some session →
      (receiveCommands session messages).2.1 = true →
      v.Granted username sentenceIndex session document unlocked →
      unlocked.commit (receiveCommands session messages).1 =
        some committed →
      Related committed (writeLinkedListToFile committed.sentences)) :
    (v.write allowed username sentenceIndex messages).Saved Related := by
  have counted := @counted_write v allowed username sentenceIndex messages
    saved.counted
  cases opened : (v.openWrite allowed username sentenceIndex).2 with
  | none =>
      obtain ⟨document, _, storage⟩ := write_of_refused messages opened
      refine ⟨counted, ?_⟩
      rw [document, storage.disk]
      exact saved.related
  | some session =>
      cases completed : (receiveCommands session messages).2.1 with
      | false =>
          obtain ⟨document, unlocked, granted, written⟩ :=
            write_of_granted messages opened
          have received : (v.received document unlocked).Saved Related := by
            refine ⟨?_, ?_⟩
            · intro found loaded
              cases loaded
              exact granted.counted (saved.counted document granted.loaded)
            · intro found loaded
              cases loaded
              obtain ⟨text, stored, related⟩ :=
                saved.related document granted.loaded
              exact ⟨text, disk_received.trans (disk_made stored),
                describes.content granted.content related⟩
          rw [written, if_neg (by simp [completed])]
          exact received.restore describes
      | true =>
          obtain ⟨document, unlocked, committed, granted, done, written⟩ :=
            write_of_completed messages saved.counted opened completed
          rw [written] at counted ⊢
          refine ⟨counted, ?_⟩
          intro found loaded
          cases loaded
          refine ⟨writeLinkedListToFile committed.sentences, ?_,
            commits session document unlocked committed opened completed
              granted done⟩
          rw [disk_committed, if_pos (opens session opened completed)]

end FileView

variable {s : FileHandler} {filename : Filename}

theorem savedFile_of_started (describes : Describes Related)
    (started : s.Started) (unsaved : s.Unsaved filename) :
    SavedFile Related filename s := by
  have uncached : (view s filename).cached = none := by
    simp [view, started.cache filename]
  refine ⟨?_, FileView.saved_of_uncached describes uncached, ?_⟩
  · intro file found
    rw [started.cache filename] at found
    cases found
  · intro unknown
    exact ⟨unsaved unknown, uncached⟩

theorem savedFile_nmCreateFile (describes : Describes Related)
    (saved : SavedFile Related filename s) (username : Username)
    (now : TimeText) :
    SavedFile Related filename (nmCreateFile s filename username now).1 := by
  obtain ⟨stable, cases⟩ := view_nmCreateFile saved.stable username now
  rcases cases with
    ⟨known, names, viewed⟩ | ⟨_, same, _⟩ |
    ⟨unknown, names, place, opens, viewed⟩
  · refine ⟨stable, viewed ▸ saved.file.saveBackup, ?_⟩
    intro absent
    exact (absent (names ▸ known)).elim
  · rw [same]
    exact saved
  · have blank : ((view s filename).emptied place).Saved Related :=
      FileView.saved_of_uncached describes (saved.gone unknown).2
    refine ⟨stable, viewed ▸ blank.saveBackup, ?_⟩
    intro absent
    simp [names] at absent

theorem savedFile_handleWriteRequest (saved : SavedFile Related filename s)
    {username : Username} {sentenceIndex : Int}
    {messages : List WriteMessage} {now : TimeText}
    (written : ((view s filename).write
      (hasWriteAccessLl s filename username).1 username sentenceIndex
      messages).Saved Related) :
    SavedFile Related filename (handleWriteRequest s filename username
      sentenceIndex messages now).1 := by
  obtain ⟨viewed, stable⟩ := view_handleWriteRequest saved.stable username
    sentenceIndex messages now
  have names := (@frame_handleWriteRequest filename s username sentenceIndex
    messages now).names
  refine ⟨stable, viewed ▸ written, ?_⟩
  intro absent
  have unknown : filename ∉ s.names := names ▸ absent
  rw [view_handleWriteRequest_of_unknown saved.stable unknown]
  exact saved.gone unknown

theorem savedFile_handleUndoRequest (describes : Describes Related)
    (saved : SavedFile Related filename s) :
    SavedFile Related filename (handleUndoRequest s filename).1 := by
  obtain ⟨viewed, stable⟩ := view_handleUndoRequest saved.stable
  have names := (@frame_handleUndoRequest filename s).names
  refine ⟨stable, viewed ▸ saved.file.restore describes, ?_⟩
  intro absent
  have gone := saved.gone (names ▸ absent)
  rw [viewed, FileView.restore_of_none gone.1]
  exact gone

/-- A relation that every commit of a run brings about holds at its end. -/
theorem savedFile_run (describes : Describes Related)
    {condition : FileHandler → Request → Prop}
    (onFile : ∀ s request, condition s request → request.OnFile filename)
    (syncs : ∀ s request, condition s request →
      SyncsCommit filename s request)
    (commits : ∀ s username sentenceIndex messages now session document
      unlocked committed, SavedFile Related filename s →
      condition s (.write filename username sentenceIndex messages now) →
      (openWrite s filename username sentenceIndex).2.2 = some session →
      (receiveCommands session messages).2.1 = true →
      (view s filename).Granted username sentenceIndex session document
        unlocked →
      unlocked.commit (receiveCommands session messages).1 =
        some committed →
      Related committed (writeLinkedListToFile committed.sentences))
    {requests : List Request} (saved : SavedFile Related filename s)
    (steps : StepRun.AllSteps handleRequest condition s requests) :
    SavedFile Related filename (runRequests s requests) := by
  apply @StepRun.invariant _ _ handleRequest condition
    (SavedFile Related filename) _ s requests saved steps
  intro t request holds met
  have target := onFile t request met
  cases request with
  | createFile _ username now =>
      cases target
      exact savedFile_nmCreateFile describes holds username now
  | write _ username sentenceIndex messages now =>
      cases target
      apply savedFile_handleWriteRequest holds
      have viewed := (view_openWrite holds.stable username sentenceIndex).2.1
      apply holds.file.write describes
      · intro session opened
        exact syncs t _ met session (viewed.trans opened)
      · intro session document unlocked committed opened
        exact commits t username sentenceIndex messages now session document
          unlocked committed holds met (viewed.trans opened)
  | undo _ =>
      cases target
      exact savedFile_handleUndoRequest describes holds
  | deleteFile _ => exact target.elim
  | addaccess _ _ _ => exact target.elim
  | remaccess _ _ => exact target.elim
  | createfolder _ _ _ => exact target.elim
  | move _ _ => exact target.elim
  | checkpoint _ _ => exact target.elim
  | revert _ _ _ => exact target.elim
  | transfer _ _ _ => exact target.elim
  | query => exact target.elim

end

end Dfs.StorageServer
