import Mathlib.Data.List.InsertIdx
import Mathlib.Data.List.Perm.Basic
import Dfs.StorageServer.SentenceLocks

/-!
# Committing sessions lose no word

Sessions that end with `ETIRW` insert their queues into the sentence they were
opened for, one commit after the other and at positions that may be stale.
Each commit adds its words to the sentence and keeps those already there, and
all committed words are in the document at the end of every interleaving.
-/

namespace Dfs.StorageServer

def WriteSession.queue (session : WriteSession) : List WordText :=
  session.editOps.map EditOperation.word

private theorem applyEdit_spec (wordOffset : Int) (words : List WordText)
    (edit : EditOperation) :
    words.Sublist (applyEdit wordOffset words edit) ∧
      (applyEdit wordOffset words edit).Perm (edit.word :: words) := by
  unfold applyEdit
  simp only [createWordNode, CString.copy_chars]
  constructor
  · exact List.sublist_insertIdx words _ edit.word
  · apply List.perm_insertIdx
    split
    · split
      · omega
      · omega
    · split
      · omega
      · omega

/-- Queued words are inserted around the words of the sentence. -/
theorem foldl_applyEdit_spec (wordOffset : Int) (edits : List EditOperation)
    (words : List WordText) :
    words.Sublist (edits.foldl (applyEdit wordOffset) words) ∧
      (edits.foldl (applyEdit wordOffset) words).Perm
        (words ++ edits.map EditOperation.word) := by
  induction edits generalizing words with
  | nil => simp
  | cons edit edits ih =>
      obtain ⟨kept, added⟩ := applyEdit_spec wordOffset words edit
      obtain ⟨keptRest, addedRest⟩ := ih (applyEdit wordOffset words edit)
      constructor
      · exact kept.trans keptRest
      · calc
          (edits.foldl (applyEdit wordOffset)
              (applyEdit wordOffset words edit)).Perm
            (applyEdit wordOffset words edit ++
              edits.map EditOperation.word) := addedRest
          _ |>.Perm ((edit.word :: words) ++ edits.map EditOperation.word) :=
            added.append_right _
          _ |>.Perm (words ++ (edit :: edits).map EditOperation.word) := by
            rw [List.map_cons]
            exact List.perm_middle.symm

/-- The words a session finds in its sentence, none if the sentence is new. -/
def Document.wordsAt (document : Document) (position : Nat) :
    List WordText :=
  match document.sentences[position]? with
  | some sentence => sentence.words
  | none => []

/-- What a commit does to the document: the target keeps its words in order
and gains the queue, the other sentences stay. -/
structure AddsQueue (document committed : Document)
    (session : WriteSession) : Prop where
  present : session.sentenceIndex.toNat < committed.sentences.length
  kept : (document.wordsAt session.sentenceIndex.toNat).Sublist
    (committed.wordsAt session.sentenceIndex.toNat)
  length : (committed.wordsAt session.sentenceIndex.toNat).length =
    (document.wordsAt session.sentenceIndex.toNat).length +
      session.editOps.length
  added : (committed.wordsAt session.sentenceIndex.toNat).Perm
    (document.wordsAt session.sentenceIndex.toNat ++ session.queue)
  others : ∀ position, position ≠ session.sentenceIndex.toNat →
    committed.sentences[position]? = document.sentences[position]?

namespace Document

variable {document committed : Document} {session : WriteSession}

/-- The target of a commit ends up with its words and the queue applied. -/
theorem wordsAt_commit (counted : document.Counted)
    (done : document.commit session = some committed) :
    session.sentenceIndex.toNat < committed.sentences.length ∧
      committed.wordsAt session.sentenceIndex.toNat =
        applyEdits session
          (document.wordsAt session.sentenceIndex.toNat) := by
  rcases commit_cases done with ⟨sentence, found, rfl⟩ | ⟨absent, next, rfl⟩
  · unfold sentenceAt at found
    have inRange := (List.getElem?_eq_some_iff.mp found).1
    refine ⟨by simpa [setSentence] using inRange, ?_⟩
    simp [wordsAt, setSentence, found, List.getElem?_set_self inRange]
  · unfold sentenceAt at absent
    have index : session.sentenceIndex.toNat = document.sentences.length := by
      unfold Counted at counted
      omega
    refine ⟨by simp [index], ?_⟩
    simp [wordsAt, index]

theorem addsQueue_commit (counted : document.Counted)
    (done : document.commit session = some committed) :
    AddsQueue document committed session := by
  obtain ⟨present, words⟩ := wordsAt_commit counted done
  obtain ⟨kept, added⟩ := foldl_applyEdit_spec
    ((document.wordsAt session.sentenceIndex.toNat).length -
      session.originalWordCount) session.editOps
    (document.wordsAt session.sentenceIndex.toNat)
  refine ⟨present, ?_, ?_, ?_, ?_⟩
  · rw [words]
    exact kept
  · rw [words]
    have lengths := added.length_eq
    simpa [applyEdits] using lengths
  · rw [words]
    exact added
  · intro position elsewhere
    exact getElem?_commit_of_ne counted done elsewhere

/-- Replacing a sentence replaces its words among all words. -/
theorem words_setSentence {sentenceIndex : Int} {sentence : SentenceNode}
    (found : document.sentenceAt sentenceIndex = some sentence)
    (changed : SentenceNode) :
    ∃ before after, document.words = before ++ (sentence.words ++ after) ∧
      (document.setSentence sentenceIndex changed).words =
        before ++ (changed.words ++ after) := by
  unfold sentenceAt at found
  have inRange := (List.getElem?_eq_some_iff.mp found).1
  have value := (List.getElem?_eq_some_iff.mp found).2
  have split : document.sentences =
      document.sentences.take sentenceIndex.toNat ++
        sentence :: document.sentences.drop (sentenceIndex.toNat + 1) := by
    rw [← value, List.getElem_cons_drop, List.take_append_drop]
  refine ⟨((document.sentences.take sentenceIndex.toNat).map
    SentenceNode.words).flatten, ((document.sentences.drop
      (sentenceIndex.toNat + 1)).map SentenceNode.words).flatten, ?_, ?_⟩
  · unfold words
    rw [congrArg (fun sentences => (sentences.map SentenceNode.words).flatten)
      split]
    simp
  · unfold words setSentence
    simp [List.set_eq_take_append_cons_drop, inRange]

/-- The whole document gains exactly the queue. -/
theorem words_commit (done : document.commit session = some committed) :
    committed.words.Perm (document.words ++ session.queue) := by
  rcases commit_cases done with ⟨sentence, found, rfl⟩ | ⟨_, _, rfl⟩
  · obtain ⟨before, after, whole, changed⟩ := words_setSentence found
      { sentence with words := applyEdits session sentence.words }
    have inserted := (foldl_applyEdit_spec
      ((sentence.words.length : Int) - session.originalWordCount)
      session.editOps sentence.words).2
    rw [whole, changed, List.append_assoc]
    apply List.Perm.append_left
    calc
      (applyEdits session sentence.words ++ after).Perm
        (sentence.words ++ session.queue ++ after) :=
          inserted.append_right after
      _ |>.Perm (sentence.words ++ after ++ session.queue) := by
        rw [List.append_assoc, List.append_assoc]
        exact List.perm_append_comm.append_left sentence.words
  · have inserted := (foldl_applyEdit_spec (([] : List WordText).length -
      session.originalWordCount) session.editOps []).2
    simp only [words, List.map_append, List.map_cons, List.map_nil,
      List.flatten_append, List.flatten_cons, List.flatten_nil,
      List.append_nil]
    apply List.Perm.append_left
    simpa [applyEdits, WriteSession.queue] using inserted

/-- The words already there stay in their order. -/
theorem words_sublist_commit
    (done : document.commit session = some committed) :
    document.words.Sublist committed.words := by
  rcases commit_cases done with ⟨sentence, found, rfl⟩ | ⟨_, _, rfl⟩
  · obtain ⟨before, after, whole, changed⟩ := words_setSentence found
      { sentence with words := applyEdits session sentence.words }
    have kept := (foldl_applyEdit_spec
      ((sentence.words.length : Int) - session.originalWordCount)
      session.editOps sentence.words).1
    rw [whole, changed]
    exact (kept.append_right after).append_left before
  · simp [words]

end Document

theorem commitWrite_errorCode {s : FileHandler} {filename : Filename}
    (stable : Stable s filename) {document committed : Document}
    {session : WriteSession} (now : TimeText)
    (loaded : (view s filename).document = some document)
    (done : document.commit session = some committed) :
    (commitWrite s filename session now).2.errorCode = errSuccess := by
  obtain ⟨file, rfl, held, got⟩ := getFileFromCache_eq_some loaded stable
  unfold commitWrite
  rw [got]
  simp only [done]

/-- The events of sessions that end with `ETIRW`. -/
def WriteEvent.Forward : WriteEvent → Prop
  | .openWrite _ _ _ => True
  | .message _ _ => True
  | .commit _ _ => True
  | .disconnect _ => False
  | .undo => False

namespace FileSessions

/-- The session that an event commits. -/
def committed (c : FileSessions) : WriteEvent → Option WriteSession
  | .commit connection _ =>
      match c.sessions connection with
      | some session => if session.committing then some session else none
      | none => none
  | _ => none

/-- The document is loaded, and every open session is on one of its sentences
or on the next one. -/
structure Committable (c : FileSessions) (document : Document) : Prop where
  cached : c.file.cached = some document
  counted : document.Counted
  inRange : ∀ connection session, c.sessions connection = some session →
    0 ≤ session.sentenceIndex ∧
      session.sentenceIndex ≤ document.sentences.length

variable {c : FileSessions} {document : Document}

theorem Committable.loaded (holds : c.Committable document) :
    c.file.document = some document := by
  unfold FileView.document
  rw [holds.cached]

/-- A commit succeeds and writes the document to disk. -/
theorem Committable.commit (holds : c.Committable document)
    {event : WriteEvent} {session : WriteSession}
    (commits : c.committed event = some session)
    (allowed : Username → Bool) :
    ∃ next, document.commit session = some next ∧
      (c.step allowed event).Committable next ∧
      (c.step allowed event).file.disk =
        if c.file.swappable ∧ c.file.writable then
          some (writeLinkedListToFile next.sentences)
        else c.file.disk := by
  cases event with
  | commit connection now =>
      cases busy : c.sessions connection with
      | none => simp [committed, busy] at commits
      | some held =>
          simp only [committed, busy] at commits
          split at commits
          · rename_i committing
            cases commits
            obtain ⟨nonnegative, bound⟩ := holds.inRange connection _ busy
            obtain ⟨next, done⟩ :=
              Document.commit_isSome holds.counted nonnegative bound
            have grown : document.sentences.length ≤ next.sentences.length := by
              rcases Document.commit_cases done with
                ⟨_, _, rfl⟩ | ⟨_, _, rfl⟩
              · simp [Document.setSentence]
              · simp
            have stepped : c.step allowed (.commit connection now) =
                ⟨c.file.commit session,
                  Function.update c.sessions connection none⟩ := by
              simp [step, busy, committing]
            rw [stepped]
            have disk := FileView.disk_commit holds.loaded done
            refine ⟨next, done, ⟨?_, ?_, ?_⟩, disk⟩
            · rw [FileView.commit_of_some holds.loaded done]
            · exact Document.counted_commit holds.counted done
            · intro other kept found
              rcases update_eq_some found with ⟨_, absent⟩ | ⟨_, before⟩
              · cases absent
              · have bounds := holds.inRange other kept before
                omega
          · cases commits
  | openWrite _ _ _ => cases commits
  | message _ _ => cases commits
  | disconnect _ => cases commits
  | undo => cases commits

/-- Any other step keeps words, delimiters and what is on disk. -/
theorem Committable.other (holds : c.Committable document)
    {event : WriteEvent} (forward : event.Forward)
    (commits : c.committed event = none) (allowed : Username → Bool) :
    ∃ next, next.content = document.content ∧
      (c.step allowed event).Committable next ∧
      ∀ text, c.file.disk = some text →
        (c.step allowed event).file.disk = some text := by
  have transition := transition_step allowed c event
  generalize c.step allowed event = next at transition
  cases transition with
  | idle => exact ⟨document, rfl, holds, fun _ stored => stored⟩
  | refused _ keepsCached sameStorage =>
      exact ⟨document, rfl,
        ⟨keepsCached document holds.cached, holds.counted, holds.inRange⟩,
        fun _ stored => sameStorage.disk.trans stored⟩
  | @granted connection username sentenceIndex before locked free found
      grantedLock lockedDocument =>
      rw [holds.loaded] at found
      cases found
      subst lockedDocument
      have content :=
        Document.content_lockSentence document sentenceIndex username
      have length := Document.length_sentences_of_content content
      obtain ⟨nonnegative, bound, _⟩ :=
        Document.lockSentence_granted grantedLock
      have counted := holds.counted
      unfold Document.Counted at counted
      refine ⟨_, content, ⟨rfl, ?_, ?_⟩,
        fun _ stored => FileView.disk_saved stored _ _⟩
      · exact holds.counted.lockSentence sentenceIndex username
      · intro other session opened
        rw [length]
        rcases update_eq_some opened with ⟨_, same⟩ | ⟨_, earlier⟩
        · cases same
          simp only [newSession]
          omega
        · exact holds.inRange other session earlier
  | @queued connection message session busy writing =>
      refine ⟨document, rfl, ⟨holds.cached, holds.counted, ?_⟩,
        fun _ stored => stored⟩
      intro other kept found
      rcases update_eq_some found with ⟨_, same⟩ | ⟨_, before⟩
      · cases same
        rw [(writeCommand_fields session message).2.1]
        exact holds.inRange connection session busy
      · exact holds.inRange other kept before
  | @ended connection message session busy writing =>
      have content := Document.content_unlockSentence document
        session.sentenceIndex session.username
      have length := Document.length_sentences_of_content content
      have storage := FileView.sameStorage_unlock c.file
        session.sentenceIndex session.username
      refine ⟨_, content, ⟨?_, ?_, ?_⟩,
        fun _ stored => storage.disk.trans stored⟩
      · simp only [FileView.unlock]
        rw [holds.loaded]
      · exact holds.counted.unlockSentence _ _
      · intro other kept found
        rw [length]
        rcases update_eq_some found with ⟨_, same⟩ | ⟨_, before⟩
        · cases same
          exact holds.inRange connection session busy
        · exact holds.inRange other kept before
  | committed busy committing =>
      simp [FileSessions.committed, busy, committing] at commits
  | dropped busy writing => exact forward.elim
  | restored => exact forward.elim

end FileSessions

namespace WriteSystem

/-- The words an event commits, if the client is told of success. -/
def acknowledged (filename : Filename) (c : WriteSystem) :
    WriteEvent → List WordText
  | .commit connection now =>
      match c.sessions connection with
      | some session =>
          if session.committing ∧
              (commitWrite c.server filename session now).2.errorCode =
                errSuccess then
            session.queue
          else []
      | none => []
  | _ => []

/-- All words committed in a run, in the order of the commits. -/
def committedWords (filename : Filename) :
    WriteSystem → List WriteEvent → List WordText
  | _, [] => []
  | c, event :: events =>
      c.acknowledged filename event ++
        committedWords filename (c.step filename event) events

/-- Some commit of the run succeeds. -/
def Commits (filename : Filename) (start : WriteSystem)
    (events : List WriteEvent) : Prop :=
  ∃ before event after, events = before ++ event :: after ∧
    ((start.run filename before).view filename).committed event ≠ none

/-- Whenever a session commits, the file and its swap file can be opened. -/
def OpensAtCommits (filename : Filename) (start : WriteSystem)
    (events : List WriteEvent) : Prop :=
  StepRun.AllSteps (WriteSystem.step filename)
    (fun c event => (c.view filename).committed event ≠ none →
      (c.view filename).file.swappable = true ∧
        (c.view filename).file.writable = true) start events

/-- Nothing that a session committed is lost in a run that started with the
document `initial` and ended with `document`. -/
structure KeepsUpdates (filename : Filename) (start : WriteSystem)
    (events : List WriteEvent) (initial document : Document) : Prop where
  cached : ((start.run filename events).view filename).file.cached =
    some document
  counted : document.Counted
  words : document.words.Perm
    (initial.words ++ start.committedWords filename events)
  disk : start.Commits filename events →
    start.OpensAtCommits filename events →
    ((start.run filename events).view filename).file.disk =
      some (writeLinkedListToFile document.sentences)
  commits : ∀ connection session now,
    (start.run filename events).sessions connection = some session →
    session.committing = true →
    (commitWrite (start.run filename events).server filename session
        now).2.errorCode = errSuccess ∧
      ∃ committed,
        (((start.run filename events).step filename
          (.commit connection now)).view filename).file.cached =
            some committed ∧
        AddsQueue document committed session

variable {filename : Filename} {c : WriteSystem} {document : Document}

theorem acknowledged_eq (stable : Stable c.server filename)
    (holds : (c.view filename).Committable document) (event : WriteEvent) :
    c.acknowledged filename event =
      match (c.view filename).committed event with
      | some session => session.queue
      | none => [] := by
  cases event with
  | commit connection now =>
      simp only [acknowledged, FileSessions.committed, WriteSystem.view]
      cases busy : c.sessions connection with
      | none => rfl
      | some session =>
          by_cases committing : session.committing = true
          · obtain ⟨nonnegative, bound⟩ :=
              holds.inRange connection session busy
            obtain ⟨next, done⟩ :=
              Document.commit_isSome holds.counted nonnegative bound
            have success :=
              commitWrite_errorCode stable now holds.loaded done
            simp [committing, success]
          · simp [committing]
  | openWrite _ _ _ => rfl
  | message _ _ => rfl
  | disconnect _ => rfl
  | undo => rfl

/-- The disk file is the text of the document. -/
def Saved (filename : Filename) (c : WriteSystem) (document : Document) :
    Prop :=
  (c.view filename).file.disk =
    some (writeLinkedListToFile document.sentences)

/-- The document can be committed to. -/
structure Ready (filename : Filename) (c : WriteSystem)
    (document : Document) : Prop where
  stable : Stable c.server filename
  committable : (c.view filename).Committable document

/-- One step adds the acknowledged words to the document, and a commit writes
it to disk. -/
theorem Ready.step (ready : c.Ready filename document) {event : WriteEvent}
    (forward : event.Forward) :
    ∃ next, (c.step filename event).Ready filename next ∧
      next.words.Perm (document.words ++ c.acknowledged filename event) ∧
      (((c.view filename).committed event ≠ none →
          (c.view filename).file.swappable = true ∧
            (c.view filename).file.writable = true) →
        c.Saved filename document ∨
          (c.view filename).committed event ≠ none →
        (c.step filename event).Saved filename next) := by
  obtain ⟨stable, committable⟩ := ready
  have simulated := view_step stable event
  rw [acknowledged_eq stable committable event]
  cases commits : (c.view filename).committed event with
  | some session =>
      obtain ⟨next, done, kept, disk⟩ :=
        committable.commit commits (c.allowed filename)
      rw [← simulated.1] at kept disk
      refine ⟨next, ⟨simulated.2, kept⟩, Document.words_commit done, ?_⟩
      intro opens _
      rw [Saved, disk, if_pos (opens (by simp))]
  | none =>
      obtain ⟨next, content, kept, keepsDisk⟩ :=
        committable.other forward commits (c.allowed filename)
      rw [← simulated.1] at kept keepsDisk
      refine ⟨next, ⟨simulated.2, kept⟩, ?_, ?_⟩
      · rw [List.append_nil, Document.words_of_content content]
      · rintro _ (saved | other)
        · rw [Saved, Document.writeLinkedListToFile_of_content content]
          exact keepsDisk _ saved
        · exact (other rfl).elim

theorem commits_cons {event : WriteEvent} {events : List WriteEvent}
    (commits : c.Commits filename (event :: events)) :
    (c.view filename).committed event ≠ none ∨
      (c.step filename event).Commits filename events := by
  obtain ⟨before, done, after, split, found⟩ := commits
  cases before with
  | nil =>
      obtain ⟨rfl, rfl⟩ := List.cons_eq_cons.mp split
      exact .inl found
  | cons first before =>
      obtain ⟨rfl, rfl⟩ := List.cons_eq_cons.mp split
      exact .inr ⟨before, done, after, rfl, found⟩

/-- A whole run adds the committed words. -/
theorem Ready.run {events : List WriteEvent}
    (forward : ∀ event ∈ events, event.Forward)
    (ready : c.Ready filename document) :
    ∃ last, (c.run filename events).Ready filename last ∧
      last.words.Perm
        (document.words ++ c.committedWords filename events) ∧
      (c.OpensAtCommits filename events →
        c.Saved filename document ∨ c.Commits filename events →
        (c.run filename events).Saved filename last) := by
  induction events generalizing c document with
  | nil =>
      refine ⟨document, ready, by simp [committedWords], ?_⟩
      rintro _ (saved | ⟨before, event, after, split, _⟩)
      · exact saved
      · simp at split
  | cons event events ih =>
      obtain ⟨next, readyNext, added, savedNext⟩ :=
        ready.step (forward event (by simp))
      obtain ⟨last, readyLast, addedRest, savedLast⟩ :=
        ih (fun other member => forward other (by simp [member])) readyNext
      refine ⟨last, readyLast, ?_, ?_⟩
      · rw [committedWords, ← List.append_assoc]
        exact addedRest.trans (added.append_right _)
      · rintro ⟨opens, opensLater⟩ (saved | commits)
        · exact savedLast opensLater (.inl (savedNext opens (.inl saved)))
        · rcases commits_cons commits with now | later
          · exact savedLast opensLater (.inl (savedNext opens (.inr now)))
          · exact savedLast opensLater (.inr later)

end WriteSystem

private def loadedSystem : WriteSystem :=
  ⟨(saveUndoBackupLl (sampleServer "Hi.".toList) sampleFile).1, fun _ => none⟩

private def oneWord : List WriteEvent :=
  [.openWrite 0 sampleUser 0,
    .message 0 ⟨0, CString.copy 4095 "Oh".toList⟩,
    .message 0 ⟨0, CString.copy 4095 etirw⟩,
    .commit 0 sampleTime]

/-- The swap file of this name cannot be opened. -/
private def unswappedFile : Filename :=
  CString.copy 255 (List.replicate 252 'f')

private def unswappedSystem : WriteSystem :=
  ⟨(saveUndoBackupLl (serverWith unswappedFile "Hi.".toList)
    unswappedFile).1, fun _ => none⟩

end Dfs.StorageServer
