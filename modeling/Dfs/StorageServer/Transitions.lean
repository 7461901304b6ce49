import Dfs.StorageServer.Interleaving

/-!
# What one step of the sessions can do

Locking, unlocking and committing are described by what they do to the
sentences of a document, the operations on a view by the document they leave,
and every step of the interleaved sessions by one of eight transitions.  The
invariants of the system are proved from these descriptions.
-/

namespace Dfs.StorageServer

namespace Document

variable {document : Document} {sentenceIndex : Int} {username : Username}

/-- Words and delimiters, without the locks. -/
def content (document : Document) : List (List WordText × Char) :=
  document.sentences.map fun sentence => (sentence.words, sentence.delimiter)

def Counted (document : Document) : Prop :=
  document.sentenceCount = document.sentences.length

/-- All words in order. -/
def words (document : Document) : List WordText :=
  (document.sentences.map SentenceNode.words).flatten

theorem lockSentence_refused
    (refused : (document.lockSentence sentenceIndex username).2 ≠ 0) :
    (document.lockSentence sentenceIndex username).1 = document := by
  unfold lockSentence at *
  split
  · rfl
  · split
    · rfl
    · cases found : document.sentenceAt sentenceIndex with
      | none => rfl
      | some sentence =>
          by_cases locked : sentence.isLocked = true
          · simp [locked]
          · simp_all

theorem lockSentence_granted
    (granted : (document.lockSentence sentenceIndex username).2 = 0) :
    0 ≤ sentenceIndex ∧ sentenceIndex ≤ document.sentenceCount ∧
      ((document.sentenceAt sentenceIndex = none ∧
          (document.lockSentence sentenceIndex username).1 = document) ∨
        ∃ sentence, document.sentenceAt sentenceIndex = some sentence ∧
          sentence.isLocked = false ∧
          (document.lockSentence sentenceIndex username).1 =
            document.setSentence sentenceIndex
              { sentence with isLocked := true, lockedBy := username }) := by
  unfold lockSentence at *
  by_cases negative : sentenceIndex < 0
  · simp [negative, errSentenceOutOfRange] at granted
  · by_cases beyond : sentenceIndex > document.sentenceCount
    · simp [negative, beyond, errSentenceOutOfRange] at granted
    · refine ⟨by omega, by omega, ?_⟩
      simp only [negative, beyond, ↓reduceIte] at granted ⊢
      cases found : document.sentenceAt sentenceIndex with
      | none => exact .inl ⟨rfl, rfl⟩
      | some sentence =>
          by_cases locked : sentence.isLocked = true
          · simp [found, locked, errSentenceLocked] at granted
          · exact .inr ⟨sentence, rfl, by simpa using locked,
              by simp [locked]⟩

theorem unlockSentence_cases (document : Document) (sentenceIndex : Int)
    (username : Username) :
    ((document.unlockSentence sentenceIndex username).1 = document ∧
        ∀ sentence, 0 ≤ sentenceIndex →
          document.sentenceAt sentenceIndex = some sentence →
          sentence.isLocked = true → sentence.lockedBy ≠ username) ∨
      ∃ sentence, 0 ≤ sentenceIndex ∧
        document.sentenceAt sentenceIndex = some sentence ∧
        sentence.isLocked = true ∧ sentence.lockedBy = username ∧
        (document.unlockSentence sentenceIndex username).1 =
          document.setSentence sentenceIndex
            { sentence with isLocked := false, lockedBy := nobody } := by
  unfold unlockSentence
  by_cases negative : sentenceIndex < 0
  · refine .inl ⟨by simp [negative], ?_⟩
    intro sentence nonnegative
    omega
  · cases found : document.sentenceAt sentenceIndex with
    | none => exact .inl ⟨by simp [negative], by simp⟩
    | some sentence =>
        by_cases own : sentence.isLocked = true ∧ sentence.lockedBy = username
        · exact .inr ⟨sentence, by omega, rfl, own.1, own.2,
            by simp [negative, own.1, own.2]⟩
        · refine .inl ⟨by simp [negative, own], ?_⟩
          intro other _ same locked sameUser
          cases same
          exact own ⟨locked, sameUser⟩

theorem content_setSentence {sentence changed : SentenceNode}
    (found : document.sentenceAt sentenceIndex = some sentence)
    (sameWords : changed.words = sentence.words)
    (sameDelimiter : changed.delimiter = sentence.delimiter) :
    (document.setSentence sentenceIndex changed).content =
      document.content := by
  unfold content setSentence sentenceAt at *
  apply List.ext_getElem?
  intro position
  rw [List.getElem?_map, List.getElem?_map, List.getElem?_set]
  by_cases same : sentenceIndex.toNat = position
  · subst same
    obtain ⟨inRange, value⟩ := List.getElem?_eq_some_iff.mp found
    simp [inRange, value, sameWords, sameDelimiter]
  · simp [same]

theorem content_lockSentence (document : Document) (sentenceIndex : Int)
    (username : Username) :
    (document.lockSentence sentenceIndex username).1.content =
      document.content := by
  by_cases granted : (document.lockSentence sentenceIndex username).2 = 0
  · obtain ⟨_, _, ⟨_, same⟩ | ⟨sentence, found, _, changed⟩⟩ :=
      lockSentence_granted granted
    · rw [same]
    · rw [changed]
      exact content_setSentence found rfl rfl
  · rw [lockSentence_refused granted]

theorem content_unlockSentence (document : Document) (sentenceIndex : Int)
    (username : Username) :
    (document.unlockSentence sentenceIndex username).1.content =
      document.content := by
  rcases unlockSentence_cases document sentenceIndex username with
    ⟨same, _⟩ | ⟨sentence, _, found, _, _, changed⟩
  · rw [same]
  · rw [changed]
    exact content_setSentence found rfl rfl

theorem sentenceCount_lockSentence (document : Document)
    (sentenceIndex : Int) (username : Username) :
    (document.lockSentence sentenceIndex username).1.sentenceCount =
      document.sentenceCount := by
  by_cases granted : (document.lockSentence sentenceIndex username).2 = 0
  · obtain ⟨_, _, ⟨_, same⟩ | ⟨sentence, _, _, changed⟩⟩ :=
      lockSentence_granted granted
    · rw [same]
    · rw [changed]
      rfl
  · rw [lockSentence_refused granted]

theorem sentenceCount_unlockSentence (document : Document)
    (sentenceIndex : Int) (username : Username) :
    (document.unlockSentence sentenceIndex username).1.sentenceCount =
      document.sentenceCount := by
  rcases unlockSentence_cases document sentenceIndex username with
    ⟨same, _⟩ | ⟨sentence, _, _, _, _, changed⟩
  · rw [same]
  · rw [changed]
    rfl

theorem length_sentences_of_content {left right : Document}
    (same : left.content = right.content) :
    left.sentences.length = right.sentences.length := by
  have lengths := congrArg List.length same
  simpa [content] using lengths

theorem Counted.of_content {left right : Document} (counted : right.Counted)
    (same : left.content = right.content)
    (count : left.sentenceCount = right.sentenceCount) : left.Counted := by
  unfold Counted at *
  rw [count, counted, length_sentences_of_content same]

theorem Counted.lockSentence (counted : document.Counted)
    (sentenceIndex : Int) (username : Username) :
    (document.lockSentence sentenceIndex username).1.Counted :=
  counted.of_content (content_lockSentence document sentenceIndex username)
    (sentenceCount_lockSentence document sentenceIndex username)

theorem Counted.unlockSentence (counted : document.Counted)
    (sentenceIndex : Int) (username : Username) :
    (document.unlockSentence sentenceIndex username).1.Counted :=
  counted.of_content (content_unlockSentence document sentenceIndex username)
    (sentenceCount_unlockSentence document sentenceIndex username)

theorem getElem?_lockSentence_of_ne {position : Nat}
    (elsewhere : position ≠ sentenceIndex.toNat) (username : Username) :
    (document.lockSentence sentenceIndex username).1.sentences[position]? =
      document.sentences[position]? := by
  by_cases granted : (document.lockSentence sentenceIndex username).2 = 0
  · obtain ⟨_, _, ⟨_, same⟩ | ⟨sentence, _, _, changed⟩⟩ :=
      lockSentence_granted granted
    · rw [same]
    · rw [changed, setSentence, List.getElem?_set_ne elsewhere.symm]
  · rw [lockSentence_refused granted]

theorem getElem?_unlockSentence_of_ne {position : Nat}
    (elsewhere : position ≠ sentenceIndex.toNat) (username : Username) :
    (document.unlockSentence sentenceIndex username).1.sentences[position]? =
      document.sentences[position]? := by
  rcases unlockSentence_cases document sentenceIndex username with
    ⟨same, _⟩ | ⟨sentence, _, _, _, _, changed⟩
  · rw [same]
  · rw [changed, setSentence, List.getElem?_set_ne elsewhere.symm]

theorem isLocked_lockSentence {sentence : SentenceNode}
    (granted : (document.lockSentence sentenceIndex username).2 = 0)
    (found : (document.lockSentence sentenceIndex username).1.sentenceAt
      sentenceIndex = some sentence) : sentence.isLocked = true := by
  obtain ⟨_, _, ⟨absent, same⟩ | ⟨target, before, _, changed⟩⟩ :=
    lockSentence_granted granted
  · rw [same, absent] at found
    cases found
  · have inRange := (List.getElem?_eq_some_iff.mp before).1
    rw [changed, sentenceAt, setSentence,
      List.getElem?_set_self inRange] at found
    cases found
    rfl

theorem words_of_content {left right : Document}
    (same : left.content = right.content) : left.words = right.words := by
  have projected := congrArg (fun parts => (parts.map Prod.fst).flatten) same
  simpa [content, words, Function.comp_def] using projected

theorem wordLists_of_content {left right : Document}
    (same : left.content = right.content) :
    left.sentences.map SentenceNode.words =
      right.sentences.map SentenceNode.words := by
  have projected := congrArg (fun parts => parts.map Prod.fst) same
  simpa [content, Function.comp_def] using projected

theorem writeLinkedListToFile_of_content {left right : Document}
    (same : left.content = right.content) :
    writeLinkedListToFile left.sentences =
      writeLinkedListToFile right.sentences := by
  have rendered := congrArg (fun parts => CText.joinSpaces (parts.map
    fun part : List WordText × Char =>
      wordsText part.1 ++ if part.2 = CText.nul then [] else [part.2])) same
  simpa [content, writeLinkedListToFile, delimiterText, Function.comp_def]
    using rendered

theorem undoBackupText_of_content {left right : Document}
    (same : left.content = right.content) :
    undoBackupText left.sentences = undoBackupText right.sentences := by
  have rendered := congrArg (fun parts => CText.joinSpaces (parts.map
    fun part : List WordText × Char => wordsText part.1)) same
  simpa [content, undoBackupText, Function.comp_def] using rendered

section

variable {session : WriteSession} {committed : Document}

/-- A commit rewrites the words of one sentence or appends one. -/
theorem commit_cases (done : document.commit session = some committed) :
    (∃ sentence,
        document.sentenceAt session.sentenceIndex = some sentence ∧
        committed = document.setSentence session.sentenceIndex
          { sentence with words := applyEdits session sentence.words }) ∨
      document.sentenceAt session.sentenceIndex = none ∧
        session.sentenceIndex = document.sentenceCount ∧
        committed =
          { sentences := document.sentences ++
              [{ createSentenceNode CText.nul with
                 words := applyEdits session [] }]
            sentenceCount := document.sentenceCount + 1 } := by
  unfold commit at done
  cases found : document.sentenceAt session.sentenceIndex with
  | some sentence =>
      rw [found] at done
      exact .inl ⟨sentence, rfl, (Option.some.inj done).symm⟩
  | none =>
      rw [found] at done
      simp only at done
      split at done
      · rename_i next
        exact .inr ⟨rfl, next, (Option.some.inj done).symm⟩
      · cases done

/-- A commit does not look at the locks. -/
theorem commit_of_content {left right : Document}
    (same : left.content = right.content)
    (count : left.sentenceCount = right.sentenceCount)
    (done : left.commit session = some committed) :
    ∃ other, right.commit session = some other ∧
      committed.content = other.content := by
  have parts := congrArg
    (fun parts => parts[session.sentenceIndex.toNat]?) same
  simp only [content, List.getElem?_map] at parts
  rcases commit_cases done with ⟨sentence, found, rfl⟩ | ⟨absent, next, rfl⟩
  · unfold sentenceAt at found
    rw [found] at parts
    obtain ⟨other, otherFound, equal⟩ :=
      Option.map_eq_some_iff.mp parts.symm
    obtain ⟨words, delimiter⟩ := Prod.mk.inj equal
    refine ⟨right.setSentence session.sentenceIndex
      { other with words := applyEdits session other.words },
      by rw [commit, sentenceAt, otherFound], ?_⟩
    unfold content at same
    simp [content, setSentence, List.map_set, same, words, delimiter]
  · unfold sentenceAt at absent
    rw [absent] at parts
    have otherAbsent := Option.map_eq_none_iff.mp parts.symm
    have otherDone : right.commit session =
        some
          { sentences := right.sentences ++
              [{ createSentenceNode CText.nul with
                 words := applyEdits session [] }]
            sentenceCount := right.sentenceCount + 1 } := by
      rw [commit, sentenceAt, otherAbsent]
      exact if_pos (next.trans (congrArg _ count))
    refine ⟨_, otherDone, ?_⟩
    unfold content at same
    simp [content, same]

theorem counted_commit (counted : document.Counted)
    (done : document.commit session = some committed) :
    committed.Counted := by
  unfold Counted at *
  rcases commit_cases done with ⟨sentence, _, rfl⟩ | ⟨_, _, rfl⟩
  · simpa [setSentence] using counted
  · simpa using counted

theorem commit_isSome (counted : document.Counted)
    (nonnegative : 0 ≤ session.sentenceIndex)
    (inRange : session.sentenceIndex ≤ document.sentences.length) :
    ∃ committed, document.commit session = some committed := by
  unfold commit
  cases found : document.sentenceAt session.sentenceIndex with
  | some sentence => exact ⟨_, rfl⟩
  | none =>
      have beyond := List.getElem?_eq_none_iff.mp found
      have next : session.sentenceIndex = document.sentenceCount := by
        unfold Counted at counted
        omega
      exact ⟨_, if_pos next⟩

/-- Sentences other than the target are not touched. -/
theorem getElem?_commit_of_ne (counted : document.Counted)
    (done : document.commit session = some committed) {position : Nat}
    (elsewhere : position ≠ session.sentenceIndex.toNat) :
    committed.sentences[position]? = document.sentences[position]? := by
  rcases commit_cases done with ⟨sentence, _, rfl⟩ | ⟨_, next, rfl⟩
  · simp [setSentence, elsewhere.symm]
  · have different : position ≠ document.sentences.length := by
      unfold Counted at counted
      omega
    by_cases before : position < document.sentences.length
    · simp [List.getElem?_append_left before]
    · have after : document.sentences.length < position := by omega
      rw [List.getElem?_eq_none (by simp; omega),
        List.getElem?_eq_none (by omega)]

/-- The target keeps its lock, and a new sentence has none. -/
theorem locked_commit (done : document.commit session = some committed)
    {position : Nat} {sentence : SentenceNode}
    (found : committed.sentences[position]? = some sentence)
    (locked : sentence.isLocked = true) :
    ∃ previous, document.sentences[position]? = some previous ∧
      previous.isLocked = true ∧ previous.lockedBy = sentence.lockedBy := by
  rcases commit_cases done with ⟨target, targeted, rfl⟩ | ⟨_, _, rfl⟩
  · by_cases same : session.sentenceIndex.toNat = position
    · subst same
      unfold sentenceAt at targeted
      obtain ⟨inRange, _⟩ := List.getElem?_eq_some_iff.mp targeted
      simp only [setSentence, List.getElem?_set_self inRange,
        Option.some.injEq] at found
      subst found
      exact ⟨target, targeted, locked, rfl⟩
    · simp only [setSentence, List.getElem?_set_ne same] at found
      exact ⟨sentence, found, locked, rfl⟩
  · by_cases before : position < document.sentences.length
    · rw [List.getElem?_append_left before] at found
      exact ⟨sentence, found, locked, rfl⟩
    · rw [List.getElem?_append_right (by omega)] at found
      have member := List.mem_of_getElem? found
      simp only [List.mem_singleton] at member
      subst member
      cases locked

end

end Document

namespace FileView

variable {v : FileView}

/-- Everything but the document agrees. -/
structure SameStorage (v w : FileView) : Prop where
  world : v.world = w.world
  paths : v.paths = w.paths

namespace SameStorage

variable {w : FileView} (same : SameStorage v w)

include same

theorem disk : v.disk = w.disk := by
  rw [FileView.disk, same.world, same.paths, ← FileView.disk]

theorem backup : v.backup = w.backup := by
  rw [FileView.backup, same.world, same.paths, ← FileView.backup]

theorem writable : v.writable = w.writable := by
  rw [FileView.writable, same.world, same.paths, ← FileView.writable]

theorem swappable : v.swappable = w.swappable := by
  rw [FileView.swappable, same.world, same.paths, ← FileView.swappable]

end SameStorage

theorem document_unlock (v : FileView) (sentenceIndex : Int)
    (username : Username) :
    (v.unlock sentenceIndex username).document =
      v.document.map fun document =>
        (document.unlockSentence sentenceIndex username).1 := by
  unfold unlock
  cases loaded : v.document with
  | none => simpa using loaded
  | some document => rfl

theorem sameStorage_unlock (v : FileView) (sentenceIndex : Int)
    (username : Username) :
    SameStorage (v.unlock sentenceIndex username) v := by
  unfold unlock
  split
  · exact ⟨rfl, rfl⟩
  · exact ⟨rfl, rfl⟩

theorem document_sync {document : Document}
    (loaded : v.document = some document) :
    v.sync.document = some document := by
  unfold sync
  rw [loaded]
  rfl

/-- The document a commit leaves; one that finds no sentence leaves it as it
was. -/
theorem document_commit (v : FileView) (session : WriteSession) :
    (v.commit session).document =
      v.document.map fun document =>
        (document.commit session).getD document := by
  unfold FileView.commit
  cases loaded : v.document with
  | none => simpa using loaded
  | some document =>
      cases committed : document.commit session with
      | none => simp [FileView.document, committed]
      | some changed =>
          have loadedChanged :
              { v with cached := some changed }.document = some changed := rfl
          simp [document_sync loadedChanged, committed]

theorem commit_of_some {document changed : Document} {session : WriteSession}
    (loaded : v.document = some document)
    (committed : document.commit session = some changed) :
    v.commit session =
      { v with
        cached := some changed
        world := v.paths.sync v.world
          (writeLinkedListToFile changed.sentences) } := by
  unfold FileView.commit
  rw [loaded]
  simp only [committed]
  rfl

theorem disk_commit {document changed : Document} {session : WriteSession}
    (loaded : v.document = some document)
    (committed : document.commit session = some changed) :
    (v.commit session).disk =
      if v.swappable ∧ v.writable then
        some (writeLinkedListToFile changed.sentences)
      else v.disk := by
  rw [commit_of_some loaded committed]
  exact FilePaths.load_sync v.paths v.world _

theorem backup_commit (v : FileView) (session : WriteSession) :
    (v.commit session).backup = v.backup := by
  unfold FileView.commit
  split
  · rfl
  · split
    · rfl
    · exact backup_sync _

/-- An open that is refused at most loads the document; one that is granted
locks it, saves the backup and counts the words. -/
theorem openWrite_cases (v : FileView) (allowed : Bool) (username : Username)
    (sentenceIndex : Int) :
    ((v.openWrite allowed username sentenceIndex).2 = none ∧
        (v.openWrite allowed username sentenceIndex).1.document =
          v.document ∧
        (∀ document, v.cached = some document →
          (v.openWrite allowed username sentenceIndex).1.cached =
            some document) ∧
        SameStorage (v.openWrite allowed username sentenceIndex).1 v) ∨
      ∃ document locked, v.document = some document ∧
        (document.lockSentence sentenceIndex username).2 = 0 ∧
        locked = (document.lockSentence sentenceIndex username).1 ∧
        v.openWrite allowed username sentenceIndex =
          ({ v with
              cached := some locked
              world := v.paths.saveBackup v.world
                (undoBackupText locked.sentences) },
            some (newSession username sentenceIndex
              (locked.wordCountAt sentenceIndex))) := by
  unfold openWrite
  split
  · exact .inl ⟨rfl, rfl, fun _ held => held, rfl, rfl⟩
  · cases loaded : v.document with
    | none =>
        have missing : v.lock sentenceIndex username =
            (v, errFileNotFound) := by
          simp [lock, loaded]
        have failed : errFileNotFound ≠ 0 := by decide
        simp only [missing, failed, ne_eq, not_false_eq_true, ↓reduceIte]
        exact .inl ⟨trivial, loaded, fun _ held => held, rfl, rfl⟩
    | some document =>
        have attempted : v.lock sentenceIndex username =
            ({ v with
                cached :=
                  some (document.lockSentence sentenceIndex username).1 },
              (document.lockSentence sentenceIndex username).2) := by
          simp [lock, loaded]
        simp only [attempted]
        by_cases granted :
            (document.lockSentence sentenceIndex username).2 = 0
        · refine .inr ⟨document, _, rfl, granted, rfl, ?_⟩
          simp [granted, FileView.document, saveBackup]
        · refine .inl ?_
          simp only [granted, ne_eq, not_false_eq_true, ↓reduceIte,
            Document.lockSentence_refused granted]
          refine ⟨trivial, rfl, ?_, rfl, rfl⟩
          intro held cached
          rw [FileView.document, cached] at loaded
          exact loaded.symm

end FileView

namespace FileSessions

/-- What a step of the sessions can be. -/
inductive Transition (c : FileSessions) : WriteEvent → FileSessions → Prop
  | idle (event : WriteEvent) : Transition c event c
  | refused {connection username sentenceIndex} {file : FileView}
      (sameDocument : file.document = c.file.document)
      (keepsCached : ∀ document, c.file.cached = some document →
        file.cached = some document)
      (sameStorage : file.SameStorage c.file) :
      Transition c (.openWrite connection username sentenceIndex)
        ⟨file, c.sessions⟩
  | granted {connection username sentenceIndex} {document locked : Document}
      (free : c.sessions connection = none)
      (loaded : c.file.document = some document)
      (grantedLock : (document.lockSentence sentenceIndex username).2 = 0)
      (lockedDocument :
        locked = (document.lockSentence sentenceIndex username).1) :
      Transition c (.openWrite connection username sentenceIndex)
        ⟨{ c.file with
            cached := some locked
            world := c.file.paths.saveBackup c.file.world
              (undoBackupText locked.sentences) },
          Function.update c.sessions connection
            (some (newSession username sentenceIndex
              (locked.wordCountAt sentenceIndex)))⟩
  | queued {connection message session}
      (busy : c.sessions connection = some session)
      (writing : session.committing = false) :
      Transition c (.message connection message)
        ⟨c.file, Function.update c.sessions connection
          (some (writeCommand session message).1)⟩
  | ended {connection message session}
      (busy : c.sessions connection = some session)
      (writing : session.committing = false) :
      Transition c (.message connection message)
        ⟨c.file.unlock session.sentenceIndex session.username,
          Function.update c.sessions connection
            (some { session with committing := true })⟩
  | committed {connection now session}
      (busy : c.sessions connection = some session)
      (committing : session.committing = true) :
      Transition c (.commit connection now)
        ⟨c.file.commit session, Function.update c.sessions connection none⟩
  | dropped {connection session}
      (busy : c.sessions connection = some session)
      (writing : session.committing = false) :
      Transition c (.disconnect connection)
        ⟨c.file.rollback session, Function.update c.sessions connection none⟩
  | restored : Transition c .undo ⟨c.file.restore, c.sessions⟩

theorem transition_step (allowed : Username → Bool) (c : FileSessions)
    (event : WriteEvent) : c.Transition event (c.step allowed event) := by
  cases event with
  | openWrite connection username sentenceIndex =>
      simp only [step]
      cases free : c.sessions connection with
      | some session => exact .idle _
      | none =>
          rcases FileView.openWrite_cases c.file (allowed username) username
              sentenceIndex with
            ⟨refused, sameDocument, keepsCached, sameStorage⟩ |
            ⟨document, locked, loaded, granted, lockedDocument, opened⟩
          · have unchanged : Function.update c.sessions connection none =
                c.sessions := by
              rw [← free]
              exact Function.update_eq_self connection c.sessions
            simp only [refused, unchanged]
            exact .refused sameDocument keepsCached sameStorage
          · simp only [opened]
            exact .granted free loaded granted lockedDocument
  | message connection message =>
      simp only [step]
      cases busy : c.sessions connection with
      | none => exact .idle _
      | some session =>
          cases writing : session.committing with
          | true =>
              simp only [writing, ↓reduceIte]
              exact .idle _
          | false =>
              simp only [writing, Bool.false_eq_true, ↓reduceIte]
              split
              · exact .ended busy writing
              · exact .queued busy writing
  | commit connection now =>
      simp only [step]
      cases busy : c.sessions connection with
      | none => exact .idle _
      | some session =>
          cases committing : session.committing with
          | true =>
              simp only [committing, ↓reduceIte]
              exact .committed busy committing
          | false =>
              simp only [committing, Bool.false_eq_true, ↓reduceIte]
              exact .idle _
  | disconnect connection =>
      simp only [step]
      cases busy : c.sessions connection with
      | none => exact .idle _
      | some session =>
          cases writing : session.committing with
          | true =>
              simp only [writing, ↓reduceIte]
              exact .idle _
          | false =>
              simp only [writing, Bool.false_eq_true, ↓reduceIte]
              exact .dropped busy writing
  | undo => exact .restored

end FileSessions

end Dfs.StorageServer
