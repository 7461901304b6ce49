import Dfs.StorageServer.CommittedWords

/-!
# Commits to different sentences commute

The end of a session unlocks its sentence and inserts its queue, and both act
on one position of the document only: on the sentence found there, or on the
end of the list when the session appends.  Two such ends at different
positions lead to the same document in either order, and to the same text on
disk.
-/

namespace Dfs.StorageServer

/-- The documents differ at one position, by the given change. -/
structure ActsAt (position : Nat)
    (change : Option SentenceNode → Option SentenceNode)
    (document next : Document) : Prop where
  counted : next.Counted
  grown : document.sentences.length ≤ next.sentences.length
  target : next.sentences[position]? = change document.sentences[position]?
  others : ∀ other, other ≠ position →
    next.sentences[other]? = document.sentences[other]?

namespace ActsAt

variable {position : Nat}
variable {change : Option SentenceNode → Option SentenceNode}
variable {document next : Document}

/-- Two operations on one position in a row. -/
theorem trans {later : Option SentenceNode → Option SentenceNode}
    {final : Document} (first : ActsAt position change document next)
    (second : ActsAt position later next final) :
    ActsAt position (later ∘ change) document final := by
  refine ⟨second.counted, Nat.le_trans first.grown second.grown, ?_, ?_⟩
  · rw [second.target, first.target]
    rfl
  · intro other elsewhere
    rw [second.others other elsewhere, first.others other elsewhere]

/-- Operations on different positions lead to one document. -/
theorem comm {otherPosition : Nat}
    {otherChange : Option SentenceNode → Option SentenceNode}
    {left right leftFinal rightFinal : Document}
    (different : position ≠ otherPosition)
    (first : ActsAt position change document left)
    (thenSecond : ActsAt otherPosition otherChange left leftFinal)
    (second : ActsAt otherPosition otherChange document right)
    (thenFirst : ActsAt position change right rightFinal) :
    leftFinal = rightFinal := by
  have sentences : leftFinal.sentences = rightFinal.sentences := by
    apply List.ext_getElem?
    intro index
    by_cases here : index = position
    · subst here
      rw [thenSecond.others index different, first.target, thenFirst.target,
        second.others index different]
    · by_cases there : index = otherPosition
      · subst there
        rw [thenSecond.target, first.others index here,
          thenFirst.others index here, second.target]
      · rw [thenSecond.others index there, first.others index here,
          thenFirst.others index here, second.others index there]
  have counts : leftFinal.sentenceCount = rightFinal.sentenceCount := by
    rw [thenSecond.counted, thenFirst.counted, sentences]
  cases leftFinal
  cases rightFinal
  cases sentences
  cases counts
  rfl

end ActsAt

/-- The change of `unlock_sentence_ll`. -/
def unlockChange (username : Username) :
    Option SentenceNode → Option SentenceNode :=
  Option.map fun sentence =>
    if sentence.isLocked && sentence.lockedBy = username then
      { sentence with isLocked := false, lockedBy := nobody }
    else sentence

/-- The change of a commit, which creates a sentence that is not there. -/
def commitChange (session : WriteSession) :
    Option SentenceNode → Option SentenceNode
  | some sentence =>
      some { sentence with words := applyEdits session sentence.words }
  | none =>
      some { createSentenceNode CText.nul with words := applyEdits session [] }

namespace Document

variable {document : Document} {session : WriteSession}

theorem actsAt_unlockSentence (counted : document.Counted)
    {sentenceIndex : Int} (nonnegative : 0 ≤ sentenceIndex)
    (username : Username) :
    ActsAt sentenceIndex.toNat (unlockChange username) document
      (document.unlockSentence sentenceIndex username).1 := by
  have lengths := length_sentences_of_content
    (content_unlockSentence document sentenceIndex username)
  refine ⟨counted.unlockSentence sentenceIndex username, by omega, ?_, ?_⟩
  · have forward : ¬ sentenceIndex < 0 := by omega
    simp only [unlockSentence, forward, ↓reduceIte, sentenceAt]
    cases found : document.sentences[sentenceIndex.toNat]? with
    | none => simpa [unlockChange] using found
    | some sentence =>
        have inRange := (List.getElem?_eq_some_iff.mp found).1
        by_cases own :
            (sentence.isLocked && sentence.lockedBy = username) = true
        · simp only [own, ↓reduceIte, setSentence, unlockChange,
            Option.map_some]
          rw [List.getElem?_set_self inRange]
        · simp only [own, unlockChange, Option.map_some]
          exact found
  · intro other elsewhere
    exact getElem?_unlockSentence_of_ne elsewhere username

theorem actsAt_commit (counted : document.Counted)
    (nonnegative : 0 ≤ session.sentenceIndex)
    (inRange : session.sentenceIndex ≤ document.sentenceCount) :
    ∃ committed, document.commit session = some committed ∧
      ActsAt session.sentenceIndex.toNat (commitChange session) document
        committed := by
  have bound : session.sentenceIndex ≤ document.sentences.length := by
    rw [← counted]
    exact inRange
  obtain ⟨committed, done⟩ := commit_isSome counted nonnegative bound
  refine ⟨committed, done, counted_commit counted done, ?_, ?_, ?_⟩
  · rcases commit_cases done with ⟨_, _, rfl⟩ | ⟨_, _, rfl⟩
    · simp [setSentence]
    · simp
  · rcases commit_cases done with ⟨sentence, found, rfl⟩ | ⟨absent, next, rfl⟩
    · unfold sentenceAt at found
      have here := (List.getElem?_eq_some_iff.mp found).1
      rw [found]
      exact List.getElem?_set_self here
    · unfold sentenceAt at absent
      have last : session.sentenceIndex.toNat =
          document.sentences.length := by
        unfold Counted at counted
        omega
      rw [absent, last]
      simp [commitChange]
  · intro other elsewhere
    exact getElem?_commit_of_ne counted done elsewhere

end Document

/-- The handler from `ETIRW` on; the sentence of a session that is past it is
unlocked already. -/
def FileView.endWrite (v : FileView) (session : WriteSession) : FileView :=
  if session.committing then v.commit session
  else (v.unlock session.sentenceIndex session.username).commit session

def endChange (session : WriteSession) :
    Option SentenceNode → Option SentenceNode :=
  if session.committing then commitChange session
  else commitChange session ∘ unlockChange session.username

/-- A file whose cached document was replaced and written to disk. -/
def FileView.synced (v : FileView) (document : Document) : FileView :=
  { v with
    cached := some document
    world := v.paths.sync v.world
      (writeLinkedListToFile document.sentences) }

theorem FileView.synced_synced (v : FileView) (first second : Document) :
    (v.synced first).synced second = v.synced second := by
  simp only [synced, FilePaths.sync_sync]

/-- The end of a session acts on its sentence and writes the document. -/
theorem FileView.endWrite_of_loaded {v : FileView} {document : Document}
    {session : WriteSession} (loaded : v.document = some document)
    (counted : document.Counted) (nonnegative : 0 ≤ session.sentenceIndex)
    (inRange : session.sentenceIndex ≤ document.sentenceCount) :
    ∃ next, ActsAt session.sentenceIndex.toNat (endChange session) document
        next ∧
      v.endWrite session = v.synced next := by
  cases past : session.committing with
  | true =>
      obtain ⟨next, done, acts⟩ :=
        Document.actsAt_commit counted nonnegative inRange
      refine ⟨next, by simpa [endChange, past] using acts, ?_⟩
      simp only [endWrite, past, ↓reduceIte]
      exact commit_of_some loaded done
  | false =>
      have unlocked := Document.actsAt_unlockSentence counted nonnegative
        session.username
      have counts := Document.sentenceCount_unlockSentence document
        session.sentenceIndex session.username
      obtain ⟨next, done, acts⟩ :=
        Document.actsAt_commit unlocked.counted nonnegative
          (by rw [counts]; exact inRange)
      have loadedUnlocked :
          (v.unlock session.sentenceIndex session.username).document =
            some (document.unlockSentence session.sentenceIndex
              session.username).1 := by
        rw [document_unlock, loaded]
        rfl
      have storage := sameStorage_unlock v session.sentenceIndex
        session.username
      refine ⟨next, by simpa [endChange, past] using unlocked.trans acts, ?_⟩
      simp only [endWrite, past, Bool.false_eq_true, ↓reduceIte]
      rw [commit_of_some loadedUnlocked done, storage.world, storage.paths,
        synced]

namespace WriteSystem

variable {filename : Filename} {c : WriteSystem} {connection : Nat}
variable {session : WriteSession} {closing : WriteMessage}

/-- The events by which a connection ends its session. -/
def ending (connection : Nat) (closing : WriteMessage) (now : TimeText) :
    List WriteEvent :=
  [.message connection closing, .commit connection now]

theorem view_ending (stable : Stable c.server filename)
    (busy : c.sessions connection = some session)
    (ends : closing.data.chars = etirw) (now : TimeText) :
    (c.run filename (ending connection closing now)).view filename =
        ⟨(c.view filename).file.endWrite session,
          Function.update c.sessions connection none⟩ ∧
      Stable (c.run filename (ending connection closing now)).server
        filename := by
  have received := view_step stable (.message connection closing)
  have done := view_step received.2 (.commit connection now)
  refine ⟨?_, done.2⟩
  have busyView : (c.view filename).sessions connection = some session :=
    busy
  have moved := done.1
  rw [received.1] at moved
  refine moved.trans ?_
  cases past : session.committing with
  | true =>
      simp only [FileSessions.step, busyView, past, ↓reduceIte,
        FileView.endWrite]
      rfl
  | false =>
      simp only [FileSessions.step, busyView, past, Bool.false_eq_true, ends,
        ↓reduceIte, Function.update_self, Function.update_idem,
        FileView.endWrite]
      rfl

/-- The sentence index of every open session is one that a lock was granted
for. -/
def IndexedSessions (c : FileSessions) : Prop :=
  ∀ connection session, c.sessions connection = some session →
    0 ≤ session.sentenceIndex

theorem IndexedSessions.update {c : FileSessions} (holds : IndexedSessions c)
    {entry : Option WriteSession}
    (entered : ∀ session, entry = some session → 0 ≤ session.sentenceIndex)
    (file : FileView) :
    IndexedSessions ⟨file, Function.update c.sessions connection entry⟩ := by
  intro other opened found
  rcases update_eq_some found with ⟨_, same⟩ | ⟨_, before⟩
  · exact entered opened same
  · exact holds other opened before

theorem IndexedSessions.step (allowed : Username → Bool) {c : FileSessions}
    (event : WriteEvent) (holds : IndexedSessions c) :
    IndexedSessions (c.step allowed event) := by
  have transition := FileSessions.transition_step allowed c event
  generalize c.step allowed event = next at transition
  cases transition with
  | idle => exact holds
  | refused => exact holds
  | granted _ _ granted _ =>
      apply holds.update
      rintro opened ⟨⟩
      exact (Document.lockSentence_granted granted).1
  | @queued connection message session busy _ =>
      apply holds.update
      rintro opened ⟨⟩
      rw [(writeCommand_fields session message).2.1]
      exact holds connection session busy
  | @ended connection _ session busy _ =>
      apply holds.update
      rintro opened ⟨⟩
      exact holds connection session busy
  | committed _ _ => exact holds.update (by simp) _
  | dropped _ _ => exact holds.update (by simp) _
  | restored => exact holds

/-- Open sessions are on a sentence that exists or may be appended. -/
theorem sentenceIndex_nonneg {start : WriteSystem}
    (idle : start.Idle filename) (events : List WriteEvent)
    (busy : (start.run filename events).sessions connection =
      some session) : 0 ≤ session.sentenceIndex := by
  have steps := @StepRun.allSteps_of_forall _ _ (WriteSystem.step filename)
    (fun _ _ => True) (fun _ _ => trivial) start events
  have initially : IndexedSessions (start.view filename) := by
    intro other opened found
    rw [show (start.view filename).sessions other = none from
      idle.sessions other] at found
    cases found
  have invariant := @WriteSystem.invariant filename IndexedSessions
    (fun _ _ => True) (fun allowed _ event holds _ =>
      holds.step allowed event) start events idle.stable initially steps
  exact invariant.1 connection session busy

/-- A session that ends, seen as an operation on the document. -/
theorem exists_ending {document : Document}
    (stable : Stable c.server filename)
    (loaded : (c.view filename).file.document = some document)
    (counted : document.Counted)
    (busy : c.sessions connection = some session)
    (nonnegative : 0 ≤ session.sentenceIndex)
    (inRange : session.sentenceIndex ≤ document.sentenceCount)
    (ends : closing.data.chars = etirw) (now : TimeText) :
    ∃ next, ActsAt session.sentenceIndex.toNat (endChange session) document
        next ∧
      ((c.run filename (ending connection closing now)).view filename).file =
        (c.view filename).file.synced next ∧
      (c.run filename (ending connection closing now)).sessions =
        Function.update c.sessions connection none ∧
      Stable (c.run filename (ending connection closing now)).server
        filename := by
  obtain ⟨ended, endedStable⟩ := view_ending stable busy ends now
  obtain ⟨next, acts, file⟩ :=
    FileView.endWrite_of_loaded loaded counted nonnegative inRange
  refine ⟨next, acts, ?_, congrArg FileSessions.sessions ended, endedStable⟩
  exact (congrArg FileSessions.file ended).trans file

/-- Two sessions that end one after the other, seen as two operations on the
document. -/
theorem view_endings {document : Document} {other : Nat}
    {second : WriteSession} {otherClosing : WriteMessage}
    (stable : Stable c.server filename)
    (loaded : (c.view filename).file.document = some document)
    (counted : document.Counted)
    (busy : c.sessions connection = some session)
    (otherBusy : c.sessions other = some second)
    (nonnegative : 0 ≤ session.sentenceIndex)
    (inRange : session.sentenceIndex ≤ document.sentenceCount)
    (otherNonnegative : 0 ≤ second.sentenceIndex)
    (otherInRange : second.sentenceIndex ≤ document.sentenceCount)
    (different : session.sentenceIndex ≠ second.sentenceIndex)
    (ends : closing.data.chars = etirw)
    (otherEnds : otherClosing.data.chars = etirw) (now later : TimeText) :
    ∃ next final,
      ActsAt session.sentenceIndex.toNat (endChange session) document
        next ∧
      ActsAt second.sentenceIndex.toNat (endChange second) next final ∧
      ((c.run filename (ending connection closing now ++
          ending other otherClosing later)).view filename).file =
        (c.view filename).file.synced final := by
  obtain ⟨next, acts, file, sessions, endedStable⟩ :=
    exists_ending stable loaded counted busy nonnegative inRange ends now
  have apart : other ≠ connection := by
    intro same
    rw [same, busy] at otherBusy
    cases otherBusy
    exact different rfl
  have stillBusy : (c.run filename (ending connection closing now)).sessions
      other = some second := by
    rw [sessions, Function.update_of_ne apart, otherBusy]
  have loadedNext : ((c.run filename
      (ending connection closing now)).view filename).file.document =
        some next := by
    rw [file]
    rfl
  have grownRange : second.sentenceIndex ≤ next.sentenceCount := by
    have bigger := acts.grown
    have nextCounted := acts.counted
    unfold Document.Counted at counted nextCounted
    omega
  obtain ⟨final, thenActs, finalFile, _⟩ :=
    exists_ending endedStable loadedNext acts.counted stillBusy
      otherNonnegative grownRange otherEnds later
  refine ⟨next, final, acts, thenActs, ?_⟩
  rw [file, FileView.synced_synced] at finalFile
  unfold run at finalFile ⊢
  rwa [StepRun.run_append]

/-- Sessions on different sentences may end in either order: the cached
document, its count and the text on disk are the same. -/
theorem commits_commute {start : WriteSystem} (idle : start.Idle filename)
    (events : List WriteEvent) {document : Document} {other : Nat}
    {second : WriteSession} {otherClosing : WriteMessage}
    (busy : (start.run filename events).sessions connection = some session)
    (otherBusy : (start.run filename events).sessions other = some second)
    (loaded : (StorageServer.view (start.run filename events).server
      filename).document = some document)
    (counted : document.sentenceCount = document.sentences.length)
    (inRange : session.sentenceIndex ≤ document.sentenceCount)
    (otherInRange : second.sentenceIndex ≤ document.sentenceCount)
    (different : session.sentenceIndex ≠ second.sentenceIndex)
    (ends : closing.data.chars = etirw)
    (otherEnds : otherClosing.data.chars = etirw)
    (firstTime secondTime thirdTime fourthTime : TimeText) :
    let c := start.run filename events
    let ab := c.run filename
      (ending connection closing firstTime ++
        ending other otherClosing secondTime)
    let ba := c.run filename
      (ending other otherClosing thirdTime ++
        ending connection closing fourthTime)
    ∃ final : Document, final.sentenceCount = final.sentences.length ∧
      (ab.server.fileCache.get filename).map LoadedFile.toDocument =
        some final ∧
      (ba.server.fileCache.get filename).map LoadedFile.toDocument =
        some final ∧
      ab.server.diskText filename =
        (if (c.server.disk.target (swapPath c.server.storage
              filename)).isSome ∧
            (c.server.disk.target (getFilePath c.server.storage
              filename)).isSome then
          some (writeLinkedListToFile final.sentences)
        else c.server.diskText filename) ∧
      ba.server.diskText filename = ab.server.diskText filename := by
  have stable : Stable (start.run filename events).server filename :=
    (@WriteSystem.invariant filename (fun _ => True) (fun _ _ => True)
      (fun _ _ _ _ _ => trivial) start events idle.stable trivial
      (StepRun.allSteps_of_forall (fun _ _ => trivial) start events)).2
  have nonnegative := sentenceIndex_nonneg idle events busy
  have otherNonnegative := sentenceIndex_nonneg idle events otherBusy
  have positions : session.sentenceIndex.toNat ≠
      second.sentenceIndex.toNat := by omega
  obtain ⟨left, leftFinal, actsLeft, thenLeft, leftFile⟩ :=
    view_endings stable loaded counted busy otherBusy nonnegative inRange
      otherNonnegative otherInRange different ends otherEnds firstTime
      secondTime
  obtain ⟨right, rightFinal, actsRight, thenRight, rightFile⟩ :=
    view_endings stable loaded counted otherBusy busy otherNonnegative
      otherInRange nonnegative inRange different.symm otherEnds ends thirdTime
      fourthTime
  have same : rightFinal = leftFinal :=
    (actsLeft.comm positions thenLeft actsRight thenRight).symm
  subst same
  have leftCached := congrArg FileView.cached leftFile
  have rightCached := congrArg FileView.cached rightFile
  have leftDisk := view_disk.symm.trans (congrArg FileView.disk leftFile)
  have rightDisk := view_disk.symm.trans (congrArg FileView.disk rightFile)
  refine ⟨rightFinal, thenLeft.counted, leftCached, rightCached, ?_,
    rightDisk.trans leftDisk.symm⟩
  refine leftDisk.trans ((FilePaths.load_sync _ _ _).trans ?_)
  rw [swapPath_eq, getFilePath_eq, ← view_disk]
  rfl

private def twoWriters : List WriteEvent :=
  [.openWrite 0 sampleUser 0, .openWrite 1 sampleUser 1,
    .message 0 ⟨0, CString.copy 4095 "Oh".toList⟩,
    .message 1 ⟨0, CString.copy 4095 "new words".toList⟩]

private def lastMessage : WriteMessage := ⟨0, CString.copy 4095 etirw⟩

/-- One session writes to the only sentence, the other appends one. -/
theorem commits_commute_appending :
    let c := (sampleSystem "Hi.".toList).run sampleFile twoWriters
    let ab := c.run sampleFile
      (ending 0 lastMessage sampleTime ++ ending 1 lastMessage sampleTime)
    let ba := c.run sampleFile
      (ending 1 lastMessage sampleTime ++ ending 0 lastMessage sampleTime)
    ab.server.diskText sampleFile = ba.server.diskText sampleFile ∧
      ab.server.diskText sampleFile = some "Oh Hi.. new words".toList := by
  have locked : (StorageServer.view ((sampleSystem "Hi.".toList).run
      sampleFile twoWriters).server sampleFile).document =
        some ((loadDocument "Hi.".toList).lockSentence 0 sampleUser).1 := by
    decide +kernel
  have opened : ((sampleSystem "Hi.".toList).run sampleFile
      twoWriters).sessions 0 = some
        { newSession sampleUser 0 1 with
          editOps := [⟨0, createWordNode "Oh".toList⟩] } := by
    decide +kernel
  have appending : ((sampleSystem "Hi.".toList).run sampleFile
      twoWriters).sessions 1 = some
        { newSession sampleUser 1 0 with
          editOps := [⟨0, createWordNode "new".toList⟩,
            ⟨1, createWordNode "words".toList⟩] } := by
    decide +kernel
  have commute := @commits_commute sampleFile 0 _ lastMessage _
    (idle_sampleSystem "Hi.".toList) twoWriters _ 1 _ lastMessage opened
    appending locked (by decide +kernel) (by decide +kernel)
    (by decide +kernel) (by decide +kernel) (by decide +kernel)
    (by decide +kernel) sampleTime sampleTime sampleTime sampleTime
  obtain ⟨_, _, _, _, _, disks⟩ := commute
  exact ⟨disks.symm, by decide +kernel⟩

end WriteSystem

end Dfs.StorageServer
