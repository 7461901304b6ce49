import Dfs.StorageServer.Parsing
import Dfs.StorageServer.CommittedWords

/-!
# Lost connections and the shared backup

All sessions of a file share one undo backup, taken at the latest open, and a
lost connection restores it whole.  Committed words survive as long as no
connection is lost between a commit and the next open, and as long as the
committed words are tidy, so that the parser reads them back.
-/

namespace Dfs.StorageServer

theorem mem_undoBackupText {document : Document} {word : WordText}
    (member : word ∈ document.words) (tidy : TidyWord word.chars) :
    word.chars ∈ (undoBackupText document.sentences).splitOn ' ' := by
  unfold Document.words at member
  obtain ⟨words, list, inside⟩ := List.mem_flatten.mp member
  obtain ⟨sentence, found, rfl⟩ := List.mem_map.mp list
  have solid : ' ' ∉ word.chars := by
    intro space
    have blank := tidy.solid ' ' space
    revert blank
    decide
  have token : word.chars ∈ word.chars.splitOn ' ' := by
    rw [List.splitOn_eq_singleton solid]
    simp
  apply CText.mem_splitOn_joinSpaces (List.mem_map_of_mem found)
  exact CText.mem_splitOn_joinSpaces (List.mem_map_of_mem inside) token

theorem mem_words_loadDocument {text : Text} {word : WordText}
    (nulFree : CText.nul ∉ text) (tidy : TidyWord word.chars)
    (member : word.chars ∈ text.splitOn ' ') :
    word ∈ (loadDocument text).words := by
  have part : word.chars ∈ textParts text := by
    rw [← CText.joinSpaces_splitOn text, textParts_joinSpaces]
    exact List.mem_flatMap.mpr ⟨word.chars, member, by simp [tidy.textParts]⟩
  unfold Document.words
  rw [wordLists_loadDocument, flatten_groupWords,
    CText.terminated_eq_self nulFree, List.nil_append]
  exact List.mem_map.mpr ⟨word.chars, part, by simp [createWordNode]⟩

theorem commitWrite_success {s : FileHandler} {filename : Filename}
    (stable : Stable s filename) {session : WriteSession} {now : TimeText}
    (success : (commitWrite s filename session now).2.errorCode =
      errSuccess) :
    ∃ document committed, (view s filename).document = some document ∧
      document.commit session = some committed := by
  unfold commitWrite at success
  cases loaded : (view s filename).document with
  | none =>
      rw [getFileFromCache_eq_none loaded] at success
      cases success
  | some document =>
      obtain ⟨file, rfl, held, got⟩ := getFileFromCache_eq_some loaded stable
      rw [got] at success
      cases done : file.commit session with
      | none =>
          simp only [done] at success
          cases success
      | some committed => exact ⟨file.toDocument, committed, rfl, done⟩

/-- The system, and whether words were committed since the latest open. -/
structure Audit where
  system : WriteSystem
  outdated : Bool

namespace Audit

/-- The event opens a session. -/
def grants (filename : Filename) (c : WriteSystem) : WriteEvent → Bool
  | .openWrite connection username sentenceIndex =>
      (c.sessions connection).isNone &&
        ((c.step filename
            (.openWrite connection username sentenceIndex)).sessions
          connection).isSome
  | _ => false

def step (filename : Filename) (a : Audit) (event : WriteEvent) : Audit :=
  { system := a.system.step filename event
    outdated :=
      if grants filename a.system event then false
      else if a.system.acknowledged filename event ≠ [] then true
      else a.outdated }

/-- No UNDO, the backup can be opened whenever a session opens, only tidy
words are committed, and when a session is rolled back the file can be opened
and no words were committed since the latest open. -/
def Preserving (filename : Filename) (a : Audit) : WriteEvent → Prop
  | .openWrite _ _ _ => (a.system.view filename).file.savable = true
  | .message _ _ => True
  | .commit connection _ =>
      ∀ session, a.system.sessions connection = some session →
        ∀ word ∈ session.queue, TidyWord word.chars
  | .disconnect connection =>
      ∀ session, a.system.sessions connection = some session →
        session.committing = false →
          a.outdated = false ∧ (a.system.view filename).file.writable = true
  | .undo => False

/-- The words are tidy and in the document; while a session is open and the
backup is not outdated, they are in the backup too. -/
structure Keeps (filename : Filename) (a : Audit) (words : List WordText) :
    Prop where
  stable : Stable a.system.server filename
  tidy : ∀ word ∈ words, TidyWord word.chars
  document : ∀ word ∈ words, ∃ document,
    (a.system.view filename).file.document = some document ∧
      word ∈ document.words
  backup : a.outdated = false →
    (∃ connection session, a.system.sessions connection = some session) →
    ∃ backup, (a.system.view filename).file.backup = some backup ∧
      CText.nul ∉ backup ∧ ∀ word ∈ words, word.chars ∈ backup.splitOn ' '

variable {filename : Filename} {a : Audit} {words : List WordText}

/-- A step that keeps words, backup and the flag. -/
theorem Keeps.same (keeps : a.Keeps filename words) {next : Audit}
    (stable : Stable next.system.server filename)
    (flag : next.outdated = false → a.outdated = false)
    (document : ∀ document,
      (a.system.view filename).file.document = some document →
      ∃ kept, (next.system.view filename).file.document = some kept ∧
        ∀ word ∈ document.words, word ∈ kept.words)
    (backup : (next.system.view filename).file.backup =
      (a.system.view filename).file.backup)
    (sessions : (∃ connection session,
        next.system.sessions connection = some session) →
      ∃ connection session, a.system.sessions connection = some session) :
    next.Keeps filename words := by
  refine ⟨stable, keeps.tidy, ?_, ?_⟩
  · intro word member
    obtain ⟨before, loaded, inside⟩ := keeps.document word member
    obtain ⟨kept, loadedKept, same⟩ := document before loaded
    exact ⟨kept, loadedKept, same word inside⟩
  · intro current opened
    obtain ⟨saved, found, nulFree, tokens⟩ :=
      keeps.backup (flag current) (sessions opened)
    exact ⟨saved, backup.trans found, nulFree, tokens⟩

theorem grants_eq_false {c : WriteSystem} {connection : Nat}
    {username : Username} {sentenceIndex : Int}
    (same : (c.step filename
      (.openWrite connection username sentenceIndex)).sessions = c.sessions) :
    grants filename c (.openWrite connection username sentenceIndex) =
      false := by
  simp only [grants, same]
  cases c.sessions connection with
  | none => rfl
  | some session => rfl

theorem Keeps.openWrite (keeps : a.Keeps filename words)
    (savable : (a.system.view filename).file.savable = true)
    (connection : Nat) (username : Username) (sentenceIndex : Int) :
    (a.step filename
      (.openWrite connection username sentenceIndex)).Keeps filename words := by
  have simulated := view_step keeps.stable
    (.openWrite connection username sentenceIndex)
  have transition := FileSessions.transition_step (a.system.allowed filename)
    (a.system.view filename) (.openWrite connection username sentenceIndex)
  rw [← simulated.1] at transition
  generalize after : (a.system.step filename
    (.openWrite connection username sentenceIndex)).view filename = next
    at transition
  have sessionsAfter : (a.system.step filename
      (.openWrite connection username sentenceIndex)).sessions =
      next.sessions := congrArg FileSessions.sessions after
  cases transition with
  | idle =>
      have unchanged : (a.system.step filename
          (.openWrite connection username sentenceIndex)).sessions =
          a.system.sessions := sessionsAfter
      apply keeps.same simulated.2
      · simp [step, grants_eq_false unchanged, WriteSystem.acknowledged]
      · intro document loaded
        exact ⟨document, by simpa [step, after] using loaded,
          fun _ inside => inside⟩
      · simp [step, after]
      · simp [step, unchanged]
  | @refused _ _ _ file sameDocument _ sameStorage =>
      have unchanged : (a.system.step filename
          (.openWrite connection username sentenceIndex)).sessions =
          a.system.sessions := sessionsAfter
      apply keeps.same simulated.2
      · simp [step, grants_eq_false unchanged, WriteSystem.acknowledged]
      · intro document loaded
        exact ⟨document, by simpa [step, after] using
          sameDocument.trans loaded, fun _ inside => inside⟩
      · simpa [step, after] using sameStorage.backup
      · simp [step, unchanged]
  | @granted _ _ _ document locked free loaded grantedLock lockedDocument =>
      have sameWords : locked.words = document.words := by
        rw [lockedDocument]
        exact Document.words_of_content
          (Document.content_lockSentence document sentenceIndex username)
      have wordsLocked : ∀ word ∈ words, word ∈ locked.words := by
        intro word member
        obtain ⟨held, loadedHeld, inside⟩ := keeps.document word member
        rw [loaded] at loadedHeld
        cases loadedHeld
        exact sameWords ▸ inside
      obtain ⟨place, opens⟩ := Option.isSome_iff_exists.mp savable
      refine ⟨simulated.2, keeps.tidy, ?_, ?_⟩
      · intro word member
        exact ⟨locked, by simp [step, after, FileView.document],
          wordsLocked word member⟩
      · intro _ _
        refine ⟨undoBackupText locked.sentences, ?_,
          nul_not_mem_undoBackupText _, ?_⟩
        · simp only [step, after]
          exact FilePaths.read_saveBackup opens
        intro word member
        exact mem_undoBackupText (wordsLocked word member)
          (keeps.tidy word member)

theorem Keeps.message (keeps : a.Keeps filename words) (connection : Nat)
    (message : WriteMessage) :
    (a.step filename (.message connection message)).Keeps filename words := by
  have simulated := view_step keeps.stable (.message connection message)
  have transition := FileSessions.transition_step (a.system.allowed filename)
    (a.system.view filename) (.message connection message)
  rw [← simulated.1] at transition
  generalize after : (a.system.step filename
    (.message connection message)).view filename = next at transition
  have sessionsAfter : (a.system.step filename
      (.message connection message)).sessions = next.sessions :=
    congrArg FileSessions.sessions after
  have flag : (a.step filename (.message connection message)).outdated =
      a.outdated := by
    simp [step, grants, WriteSystem.acknowledged]
  cases transition with
  | idle =>
      apply keeps.same simulated.2 (fun current => flag.symm.trans current)
      · intro document loaded
        exact ⟨document, by simpa [step, after] using loaded,
          fun _ inside => inside⟩
      · simp [step, after]
      · intro opened
        rw [step, sessionsAfter] at opened
        exact opened
  | @queued _ _ session busy writing =>
      apply keeps.same simulated.2 (fun current => flag.symm.trans current)
      · intro document loaded
        exact ⟨document, by simpa [step, after] using loaded,
          fun _ inside => inside⟩
      · simp [step, after]
      · intro _
        exact ⟨connection, session, busy⟩
  | @ended _ _ session busy writing =>
      have storage := FileView.sameStorage_unlock
        (a.system.view filename).file session.sentenceIndex session.username
      apply keeps.same simulated.2 (fun current => flag.symm.trans current)
      · intro document loaded
        have sameWords := Document.words_of_content
          (Document.content_unlockSentence document session.sentenceIndex
            session.username)
        refine ⟨_, ?_, fun word inside => sameWords ▸ inside⟩
        simp [step, after, FileView.document_unlock, loaded]
      · simpa [step, after] using storage.backup
      · intro _
        exact ⟨connection, session, busy⟩

/-- A commit without a session that sent ETIRW does nothing. -/
theorem step_commit_of_idle {connection : Nat}
    (idle : ∀ session, a.system.sessions connection = some session →
      session.committing = false) (now : TimeText) :
    a.step filename (.commit connection now) = a ∧
      a.system.acknowledged filename (.commit connection now) = [] := by
  cases busy : a.system.sessions connection with
  | none =>
      simp [step, grants, WriteSystem.step, WriteSystem.acknowledged, busy]
  | some session =>
      have writing := idle session busy
      simp [step, grants, WriteSystem.step, WriteSystem.acknowledged, busy,
        writing]

theorem view_commit (stable : Stable a.system.server filename)
    {connection : Nat} {session : WriteSession}
    (busy : a.system.sessions connection = some session)
    (committing : session.committing = true) (now : TimeText) :
    (a.system.step filename (.commit connection now)).view filename =
      ⟨(a.system.view filename).file.commit session,
        Function.update a.system.sessions connection none⟩ := by
  have found : (a.system.view filename).sessions connection =
      some session := busy
  rw [(view_step stable (.commit connection now)).1]
  simp only [FileSessions.step, found, committing, ↓reduceIte]
  rfl

/-- A commit that acknowledges nothing still keeps the words. -/
theorem Keeps.unacknowledged (keeps : a.Keeps filename words)
    {connection : Nat} {session : WriteSession} {now : TimeText}
    (busy : a.system.sessions connection = some session)
    (committing : session.committing = true)
    (nothing : a.system.acknowledged filename (.commit connection now) = []) :
    (a.step filename (.commit connection now)).Keeps filename words := by
  have after := view_commit keeps.stable busy committing now
  apply keeps.same (view_step keeps.stable (.commit connection now)).2
  · simp [step, grants, nothing]
  · intro document loaded
    simp only [step, after, FileView.document_commit, loaded, Option.map_some]
    refine ⟨_, rfl, ?_⟩
    intro word inside
    cases done : document.commit session with
    | none => exact inside
    | some changed =>
        exact (Document.words_commit done).mem_iff.mpr
          (List.mem_append_left _ inside)
  · simpa [step, after] using FileView.backup_commit
      (a.system.view filename).file session
  · intro _
    exact ⟨connection, session, busy⟩

theorem Keeps.acknowledged (keeps : a.Keeps filename words)
    {connection : Nat} {session : WriteSession} {now : TimeText}
    (preserving : a.Preserving filename (.commit connection now))
    (busy : a.system.sessions connection = some session)
    (committing : session.committing = true)
    (acknowledges :
      a.system.acknowledged filename (.commit connection now) ≠ []) :
    (a.step filename (.commit connection now)).Keeps filename
      (words ++ a.system.acknowledged filename (.commit connection now)) := by
  have after := view_commit keeps.stable busy committing now
  have success : (commitWrite a.system.server filename session
      now).2.errorCode = errSuccess := by
    by_contra failed
    simp [WriteSystem.acknowledged, busy, failed] at acknowledges
  have queue : a.system.acknowledged filename (.commit connection now) =
      session.queue := by
    simp [WriteSystem.acknowledged, busy, committing, success]
  obtain ⟨document, changed, loaded, done⟩ :=
    commitWrite_success keeps.stable success
  have before : (a.system.view filename).file.document = some document :=
    loaded
  have loadedAfter : ((a.system.step filename
      (.commit connection now)).view filename).file.document =
      some changed := by
    rw [after]
    simp [FileView.document_commit, before, done]
  rw [queue]
  refine ⟨(view_step keeps.stable (.commit connection now)).2,
    ?_, ?_, ?_⟩
  · intro word member
    rcases List.mem_append.mp member with earlier | queued
    · exact keeps.tidy word earlier
    · exact preserving session busy word queued
  · intro word member
    refine ⟨changed, loadedAfter, ?_⟩
    apply (Document.words_commit done).mem_iff.mpr
    rcases List.mem_append.mp member with earlier | queued
    · obtain ⟨held, loadedHeld, inside⟩ := keeps.document word earlier
      rw [before] at loadedHeld
      cases loadedHeld
      exact List.mem_append_left _ inside
    · exact List.mem_append_right _ queued
  · intro current
    simp [step, grants, acknowledges] at current

/-- A commit adds its acknowledged words. -/
theorem Keeps.commit (keeps : a.Keeps filename words) {connection : Nat}
    {now : TimeText}
    (preserving : a.Preserving filename (.commit connection now)) :
    (a.step filename (.commit connection now)).Keeps filename
      (words ++ a.system.acknowledged filename (.commit connection now)) := by
  by_cases idle : ∀ session, a.system.sessions connection = some session →
      session.committing = false
  · obtain ⟨same, nothing⟩ :=
      @step_commit_of_idle filename a connection idle now
    rw [same, nothing, List.append_nil]
    exact keeps
  · push Not at idle
    obtain ⟨session, busy, committing⟩ := idle
    have sent : session.committing = true := by simpa using committing
    by_cases nothing : a.system.acknowledged filename
        (.commit connection now) = []
    · rw [nothing, List.append_nil]
      exact keeps.unacknowledged busy sent nothing
    · exact keeps.acknowledged preserving busy sent nothing

/-- What a rolled back session leaves: the backup, on disk and loaded. -/
theorem Keeps.rollback (keeps : a.Keeps filename words) {connection : Nat}
    {session : WriteSession}
    (busy : a.system.sessions connection = some session)
    (writing : session.committing = false) (current : a.outdated = false)
    (writable : (a.system.view filename).file.writable = true) :
    ∃ backup place, CText.nul ∉ backup ∧
      (∀ word ∈ words, word.chars ∈ backup.splitOn ' ') ∧
      (a.system.view filename).file.world.target
        (a.system.view filename).file.paths.file = some place ∧
      ((a.system.step filename (.disconnect connection)).view filename) =
        ⟨{ (a.system.view filename).file with
            world := (a.system.view filename).file.world.put place backup
            cached := some (loadDocument backup) },
          Function.update a.system.sessions connection none⟩ := by
  obtain ⟨backup, saved, nulFree, tokens⟩ :=
    keeps.backup current ⟨connection, session, busy⟩
  obtain ⟨place, opens⟩ := FileView.writable_iff.mp writable
  refine ⟨backup, place, nulFree, tokens, opens, ?_⟩
  have found : (a.system.view filename).sessions connection =
      some session := busy
  have storage := FileView.sameStorage_unlock (a.system.view filename).file
    session.sentenceIndex session.username
  have opensAfter : ((a.system.view filename).file.unlock
      session.sentenceIndex session.username).world.target
      ((a.system.view filename).file.unlock session.sentenceIndex
        session.username).paths.file = some place := by
    rw [storage.world, storage.paths]
    exact opens
  have restored := FileView.restore_of_some (storage.backup.trans saved)
    opensAfter
  rw [(view_step keeps.stable (.disconnect connection)).1]
  simp only [FileSessions.step, found, writing, Bool.false_eq_true,
    ↓reduceIte, FileView.rollback, restored, storage.world, storage.paths]
  rfl

theorem Keeps.disconnect (keeps : a.Keeps filename words) {connection : Nat}
    (preserving : a.Preserving filename (.disconnect connection)) :
    (a.step filename (.disconnect connection)).Keeps filename words := by
  have simulated := view_step keeps.stable (.disconnect connection)
  cases busy : a.system.sessions connection with
  | none =>
      have idle : a.step filename (.disconnect connection) = a := by
        simp [step, grants, WriteSystem.step, WriteSystem.acknowledged, busy]
      rw [idle]
      exact keeps
  | some session =>
      cases writing : session.committing with
      | true =>
          have idle : a.step filename (.disconnect connection) = a := by
            simp [step, grants, WriteSystem.step, WriteSystem.acknowledged,
              busy, writing]
          rw [idle]
          exact keeps
      | false =>
          obtain ⟨current, writable⟩ := preserving session busy writing
          obtain ⟨saved, found, nulFree, tokens⟩ :=
            keeps.backup current ⟨connection, session, busy⟩
          obtain ⟨backup, place, backupFree, backupTokens, opens, after⟩ :=
            keeps.rollback busy writing current writable
          refine ⟨simulated.2, keeps.tidy, ?_, ?_⟩
          · intro word member
            refine ⟨loadDocument backup, ?_, mem_words_loadDocument backupFree
              (keeps.tidy word member) (backupTokens word member)⟩
            simp [step, after, FileView.document]
          · intro _ _
            refine ⟨saved, ?_, nulFree, tokens⟩
            simp only [step, after]
            exact (FileSystem.sameAt_put
              (FilePaths.file_apart_backup opens)).read.trans found

theorem Keeps.step (keeps : a.Keeps filename words) {event : WriteEvent}
    (preserving : a.Preserving filename event) :
    (a.step filename event).Keeps filename
      (words ++ a.system.acknowledged filename event) := by
  cases event with
  | commit connection now => exact keeps.commit preserving
  | openWrite connection username sentenceIndex =>
      simpa [WriteSystem.acknowledged] using
        keeps.openWrite preserving connection username sentenceIndex
  | message connection message =>
      simpa [WriteSystem.acknowledged] using
        keeps.message connection message
  | disconnect connection =>
      simpa [WriteSystem.acknowledged] using keeps.disconnect preserving
  | undo => exact preserving.elim

theorem Keeps.run {events : List WriteEvent}
    (keeps : a.Keeps filename words)
    (preserving : StepRun.AllSteps (Audit.step filename)
      (Audit.Preserving filename) a events) :
    (StepRun.run (Audit.step filename) a events).Keeps filename
      (words ++ a.system.committedWords filename events) := by
  induction events generalizing a words with
  | nil => simpa [WriteSystem.committedWords] using keeps
  | cons event events ih =>
      rw [WriteSystem.committedWords, ← List.append_assoc]
      exact ih (keeps.step preserving.1) preserving.2

theorem system_run (filename : Filename) (a : Audit)
    (events : List WriteEvent) :
    (StepRun.run (Audit.step filename) a events).system =
      a.system.run filename events := by
  induction events generalizing a with
  | nil => rfl
  | cons event events ih => exact ih (a.step filename event)

end Audit

private def twoSentences : WriteSystem := sampleSystem "A. B.".toList

/-- The second connection commits one word to the second sentence. -/
private def secondCommits : List WriteEvent :=
  [.openWrite 1 sampleUser 1,
    .message 1 ⟨0, CString.copy 4095 "hi".toList⟩,
    .message 1 ⟨0, CString.copy 4095 etirw⟩,
    .commit 1 sampleTime]

private def sampleWord : WordText := createWordNode "hi".toList

end Dfs.StorageServer
