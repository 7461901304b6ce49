import Dfs.StorageServer.Transitions

/-!
# Sentence locks of interleaved sessions

Locks live in the sentences of the cached document.  Every locked sentence
belongs to a session that is still writing, so no lock is orphaned.  Two
sessions of one sentence exclude each other as long as nobody opens a sentence
that does not exist yet, or one that its session has already unlocked, while a
session is open on it.  UNDO and the loss of a connection rebuild the document
from the backup and with it drop every lock of the sentences the backup has.
-/

namespace Dfs.StorageServer

def Document.Unlocked (document : Document) : Prop :=
  ∀ sentence ∈ document.sentences, sentence.isLocked = false

private def ParseState.Unlocked (state : ParseState) : Prop :=
  (∀ sentence ∈ state.closed, sentence.isLocked = false) ∧
    state.current.isLocked = false

private theorem unlocked_processWord {state : ParseState}
    (unlocked : state.Unlocked) (part word : Text) :
    (processWord state part word).Unlocked := by
  induction word generalizing state part with
  | nil =>
      unfold processWord
      split
      · exact unlocked
      · exact unlocked
  | cons byte rest ih =>
      unfold processWord
      split
      · apply ih
        refine ⟨?_, rfl⟩
        intro sentence member
        rcases List.mem_append.mp member with earlier | last
        · exact unlocked.1 sentence earlier
        · rw [List.mem_singleton.mp last]
          exact unlocked.2
      · exact ih unlocked _

theorem unlocked_loadDocument (content : Text) :
    (loadDocument content).Unlocked := by
  have folded : ∀ (words : List Text) (state : ParseState), state.Unlocked →
      (words.foldl (fun state word => processWord state [] word)
        state).Unlocked := by
    intro words
    induction words with
    | nil =>
        intro state unlocked
        exact unlocked
    | cons word words ih =>
        intro state unlocked
        exact ih _ (unlocked_processWord unlocked [] word)
  have parsed := folded (readWords [] (CText.terminated content))
    ⟨[], createSentenceNode CText.nul⟩ ⟨by simp, rfl⟩
  intro sentence member
  simp only [loadDocument, parseFileToLinkedList] at member
  split at member
  · exact parsed.1 sentence member
  · rcases List.mem_append.mp member with earlier | last
    · exact parsed.1 sentence earlier
    · rw [List.mem_singleton.mp last]
      exact parsed.2

theorem storeWords_fields (base : Int) (session : WriteSession)
    (offset : Nat) (tokens : List Text) :
    (storeWords base session offset tokens).username = session.username ∧
      (storeWords base session offset tokens).sentenceIndex =
        session.sentenceIndex ∧
      (storeWords base session offset tokens).originalWordCount =
        session.originalWordCount ∧
      (storeWords base session offset tokens).committing =
        session.committing := by
  induction tokens generalizing session offset with
  | nil => exact ⟨rfl, rfl, rfl, rfl⟩
  | cons token tokens ih => exact ih _ _

/-- A word command changes the queue and the delimiter position only. -/
theorem writeCommand_fields (session : WriteSession)
    (message : WriteMessage) :
    (writeCommand session message).1.username = session.username ∧
      (writeCommand session message).1.sentenceIndex =
        session.sentenceIndex ∧
      (writeCommand session message).1.originalWordCount =
        session.originalWordCount ∧
      (writeCommand session message).1.committing = session.committing := by
  have stored := storeWords_fields message.wordIndex session 0
    (CText.strtok ' ' message.data.chars)
  unfold writeCommand
  simp only
  split
  · exact ⟨rfl, rfl, rfl, rfl⟩
  · split
    · exact stored
    · exact stored

/-- A state of the server without open sessions. -/
structure WriteSystem.Idle (filename : Filename) (c : WriteSystem) :
    Prop where
  sessions : ∀ connection, c.sessions connection = none
  stable : Stable c.server filename
  counted : ∀ document, (c.view filename).file.cached = some document →
    document.Counted

theorem counted_loadDocument (content : Text) :
    (loadDocument content).Counted := rfl

theorem idle_sampleSystem (content : Text) :
    (sampleSystem content).Idle sampleFile :=
  ⟨fun _ => rfl, stable_sampleServer content, by
    intro document cached
    cases cached⟩

/-- What holds of the cached document and of everything that can be loaded
holds of the document of a view. -/
theorem FileView.document_holds {Holds : Document → Prop} {v : FileView}
    (held : ∀ document, v.cached = some document → Holds document)
    (fresh : ∀ content, Holds (loadDocument content)) (document : Document)
    (loaded : v.document = some document) : Holds document := by
  unfold FileView.document at loaded
  cases cached : v.cached with
  | some kept =>
      rw [cached] at loaded
      cases loaded
      exact held document cached
  | none =>
      rw [cached] at loaded
      obtain ⟨content, _, rfl⟩ := Option.map_eq_some_iff.mp loaded
      exact fresh content

/-- A session after one connection was updated is the new one of that
connection or an old one of another. -/
theorem update_eq_some {sessions : Nat → Option WriteSession}
    {connection other : Nat} {replacement : Option WriteSession}
    {session : WriteSession}
    (busy : Function.update sessions connection replacement other =
      some session) :
    (other = connection ∧ replacement = some session) ∨
      (other ≠ connection ∧ sessions other = some session) := by
  by_cases same : other = connection
  · subst same
    rw [Function.update_self] at busy
    exact .inl ⟨rfl, busy⟩
  · rw [Function.update_of_ne same] at busy
    exact .inr ⟨same, busy⟩

/-- Every locked sentence belongs to a session that is still writing it. -/
def FileSessions.LocksOwned (c : FileSessions) : Prop :=
  ∀ document, c.file.document = some document →
    ∀ (position : Nat) (sentence : SentenceNode),
      document.sentences[position]? = some sentence →
      sentence.isLocked = true →
      ∃ connection session, c.sessions connection = some session ∧
        session.committing = false ∧
        session.username = sentence.lockedBy ∧
        session.sentenceIndex = position

namespace FileSessions

variable {c : FileSessions}

theorem locksOwned_of_unlocked {file : FileView} {sessions}
    (unlocked : ∀ document, file.document = some document →
      document.Unlocked) :
    LocksOwned ⟨file, sessions⟩ := by
  intro document loaded position sentence found locked
  have free := unlocked document loaded sentence (List.mem_of_getElem? found)
  rw [free] at locked
  cases locked

/-- Unlocking for a session leaves the locks of the other ones. -/
theorem locksOwned_unlock (owned : c.LocksOwned) {connection : Nat}
    {session : WriteSession} (busy : c.sessions connection = some session)
    (replacement : Option WriteSession) :
    LocksOwned
      ⟨c.file.unlock session.sentenceIndex session.username,
        Function.update c.sessions connection replacement⟩ := by
  intro document loaded position sentence found locked
  rw [FileView.document_unlock] at loaded
  obtain ⟨previous, loadedBefore, rfl⟩ := Option.map_eq_some_iff.mp loaded
  have elsewhere : ∀ other held, c.sessions other = some held →
      held.username = sentence.lockedBy → held.sentenceIndex = position →
      previous.sentences[position]? = some sentence → other ≠ connection := by
    intro other held heldBusy sameUser sameIndex kept same
    subst same
    rw [busy] at heldBusy
    cases heldBusy
    have target : previous.sentenceAt session.sentenceIndex =
        some sentence := by
      rw [sameIndex]
      simpa [Document.sentenceAt] using kept
    rcases Document.unlockSentence_cases previous session.sentenceIndex
        session.username with
      ⟨_, foreign⟩ | ⟨own, _, ownFound, _, _, changed⟩
    · exact foreign sentence (by omega) target locked sameUser.symm
    · rw [changed, Document.setSentence] at found
      have index : session.sentenceIndex.toNat = position := by omega
      rw [index, List.getElem?_set_self
        (List.getElem?_eq_some_iff.mp kept).1] at found
      cases found
      cases locked
  have kept : previous.sentences[position]? = some sentence := by
    rcases Document.unlockSentence_cases previous session.sentenceIndex
        session.username with
      ⟨same, _⟩ | ⟨own, _, ownFound, _, _, changed⟩
    · rw [same] at found
      exact found
    · rw [changed, Document.setSentence, List.getElem?_set] at found
      split at found
      · split at found
        · cases found
          cases locked
        · cases found
      · exact found
  obtain ⟨other, held, heldBusy, writing, sameUser, sameIndex⟩ :=
    owned previous loadedBefore position sentence kept locked
  have different := elsewhere other held heldBusy sameUser sameIndex kept
  exact ⟨other, held, by simp [different, heldBusy], writing, sameUser,
    sameIndex⟩

theorem locksOwned_restore {file : FileView} {sessions}
    (owned : LocksOwned ⟨file, sessions⟩) :
    LocksOwned ⟨file.restore, sessions⟩ := by
  rcases FileView.restore_cases file with same | ⟨backup, _, _, _, restored⟩
  · rw [same]
    exact owned
  · rw [restored]
    apply locksOwned_of_unlocked
    intro document loaded
    cases loaded
    exact unlocked_loadDocument backup

theorem locksOwned_granted (owned : c.LocksOwned) {connection : Nat}
    {username : Username} {sentenceIndex : Int} {document : Document}
    {world : FileSystem} {words : Nat}
    (free : c.sessions connection = none)
    (loaded : c.file.document = some document)
    (granted : (document.lockSentence sentenceIndex username).2 = 0) :
    LocksOwned
      ⟨{ c.file with
          cached := some (document.lockSentence sentenceIndex username).1
          world := world },
        Function.update c.sessions connection
          (some (newSession username sentenceIndex words))⟩ := by
  intro locked same position sentence found isLocked
  cases same
  have earlier : document.sentences[position]? = some sentence →
      ∃ other session,
        Function.update c.sessions connection
          (some (newSession username sentenceIndex words)) other =
            some session ∧
        session.committing = false ∧
        session.username = sentence.lockedBy ∧
        session.sentenceIndex = position := by
    intro kept
    obtain ⟨other, session, busy, fields⟩ :=
      owned document loaded position sentence kept isLocked
    have different : other ≠ connection := by
      intro same
      rw [same, free] at busy
      cases busy
    exact ⟨other, session, by simp [different, busy], fields⟩
  obtain ⟨nonnegative, _, ⟨_, kept⟩ | ⟨target, _, _, changed⟩⟩ :=
    Document.lockSentence_granted granted
  · rw [kept] at found
    exact earlier found
  · rw [changed, Document.setSentence, List.getElem?_set] at found
    split at found
    · rename_i index
      split at found
      · cases found
        exact ⟨connection, newSession username sentenceIndex words,
          by simp, rfl, rfl, by simp only [newSession]; omega⟩
      · cases found
    · exact earlier found

theorem locksOwned_step (owned : c.LocksOwned)
    (allowed : Username → Bool) (event : WriteEvent) :
    (c.step allowed event).LocksOwned := by
  have transition := transition_step allowed c event
  generalize c.step allowed event = next at transition
  cases transition with
  | idle => exact owned
  | refused sameDocument _ _ =>
      intro document loaded
      exact owned document (sameDocument.symm.trans loaded)
  | granted free loaded grantedLock lockedDocument =>
      subst lockedDocument
      exact locksOwned_granted owned free loaded grantedLock
  | @queued connection message session busy writing =>
      obtain ⟨sameUser, sameIndex, _, sameCommitting⟩ :=
        writeCommand_fields session message
      intro document loaded position sentence found locked
      obtain ⟨other, held, heldBusy, fields⟩ :=
        owned document loaded position sentence found locked
      by_cases same : other = connection
      · subst same
        rw [busy] at heldBusy
        cases heldBusy
        refine ⟨other, (writeCommand session message).1, by simp, ?_, ?_, ?_⟩
        · exact sameCommitting.trans fields.1
        · exact sameUser.trans fields.2.1
        · exact sameIndex.trans fields.2.2
      · exact ⟨other, held, by simp [same, heldBusy], fields⟩
  | ended busy writing => exact locksOwned_unlock owned busy _
  | @committed connection now session busy committing =>
      intro document loaded position sentence found locked
      rw [FileView.document_commit] at loaded
      obtain ⟨previous, loadedBefore, rfl⟩ :=
        Option.map_eq_some_iff.mp loaded
      have kept : ∃ earlier,
          previous.sentences[position]? = some earlier ∧
          earlier.isLocked = true ∧
          earlier.lockedBy = sentence.lockedBy := by
        cases done : previous.commit session with
        | none =>
            rw [done] at found
            exact ⟨sentence, found, locked, rfl⟩
        | some changed =>
            rw [done] at found
            exact Document.locked_commit done found locked
      obtain ⟨earlier, foundEarlier, lockedEarlier, sameUser⟩ := kept
      obtain ⟨other, held, heldBusy, writing, fields⟩ :=
        owned previous loadedBefore position earlier foundEarlier
          lockedEarlier
      have different : other ≠ connection := by
        intro same
        rw [same, busy] at heldBusy
        cases heldBusy
        rw [committing] at writing
        cases writing
      exact ⟨other, held, by simp [different, heldBusy], writing,
        fields.1.trans sameUser, fields.2⟩
  | dropped busy writing =>
      exact locksOwned_restore (locksOwned_unlock owned busy none)
  | restored => exact locksOwned_restore owned

end FileSessions

/-- The one sentence of the small server, locked by its user. -/
private def sampleLocked : SentenceNode :=
  { words := [createWordNode "Hi.".toList]
    delimiter := '.'
    isLocked := true
    lockedBy := sampleUser }

namespace FileSessions

/-- No two open sessions have one sentence. -/
def Exclusive (c : FileSessions) : Prop :=
  ∀ first second (left right : WriteSession),
    c.sessions first = some left → c.sessions second = some right →
    left.sentenceIndex = right.sentenceIndex → first = second

/-- Only opens, messages and commits happen, and a sentence on which a session
is open is opened again only if it exists and that session still writes. -/
def OpensLocked (c : FileSessions) : WriteEvent → Prop
  | .openWrite _ _ sentenceIndex =>
      ∀ connection session, c.sessions connection = some session →
        session.sentenceIndex = sentenceIndex →
        session.committing = false ∧
          ∀ document, c.file.document = some document →
            sentenceIndex < document.sentences.length
  | .message _ _ => True
  | .commit _ _ => True
  | .disconnect _ => False
  | .undo => False

/-- The sessions exclude each other, and one that still writes holds the lock
of its sentence as soon as that exists. -/
structure LocksHeld (c : FileSessions) : Prop where
  exclusive : c.Exclusive
  counted : ∀ document, c.file.document = some document → document.Counted
  nonnegative : ∀ connection session, c.sessions connection = some session →
    0 ≤ session.sentenceIndex
  held : ∀ connection session, c.sessions connection = some session →
    session.committing = false →
    ∀ document sentence, c.file.document = some document →
      document.sentenceAt session.sentenceIndex = some sentence →
      sentence.isLocked = true

variable {c : FileSessions}

/-- A lock is granted only where no session is open. -/
theorem LocksHeld.alone (holds : c.LocksHeld) {username : Username}
    {sentenceIndex : Int} {document : Document}
    (opens : ∀ other session, c.sessions other = some session →
      session.sentenceIndex = sentenceIndex →
      session.committing = false ∧
        ∀ document, c.file.document = some document →
          sentenceIndex < document.sentences.length)
    (loaded : c.file.document = some document)
    (granted : (document.lockSentence sentenceIndex username).2 = 0)
    {other : Nat} {session : WriteSession}
    (busy : c.sessions other = some session) :
    session.sentenceIndex ≠ sentenceIndex := by
  intro same
  obtain ⟨writing, inRange⟩ := opens other session busy same
  have bound := inRange document loaded
  obtain ⟨nonnegative, _, cases⟩ := Document.lockSentence_granted granted
  have present : document.sentenceAt sentenceIndex =
      some (document.sentences.get ⟨sentenceIndex.toNat, by omega⟩) := by
    simp [Document.sentenceAt]
  have locked := holds.held other session busy writing document _ loaded
    (by rw [same]; exact present)
  rcases cases with ⟨absent, _⟩ | ⟨sentence, found, unlocked, _⟩
  · rw [absent] at present
    cases present
  · rw [found] at present
    cases present
    rw [unlocked] at locked
    cases locked

theorem LocksHeld.granted (holds : c.LocksHeld) {connection : Nat}
    {username : Username} {sentenceIndex : Int} {document : Document}
    {world : FileSystem} {words : Nat}
    (opens : ∀ other session, c.sessions other = some session →
      session.sentenceIndex = sentenceIndex →
      session.committing = false ∧
        ∀ document, c.file.document = some document →
          sentenceIndex < document.sentences.length)
    (loaded : c.file.document = some document)
    (granted : (document.lockSentence sentenceIndex username).2 = 0) :
    LocksHeld
      ⟨{ c.file with
          cached := some (document.lockSentence sentenceIndex username).1
          world := world },
        Function.update c.sessions connection
          (some (newSession username sentenceIndex words))⟩ := by
  have nonnegative := (Document.lockSentence_granted granted).1
  have sessionCases : ∀ other session,
      Function.update c.sessions connection
        (some (newSession username sentenceIndex words)) other =
          some session →
      (other = connection ∧
          session = newSession username sentenceIndex words) ∨
        c.sessions other = some session := by
    intro other session busy
    rcases update_eq_some busy with ⟨same, replaced⟩ | ⟨_, before⟩
    · exact .inl ⟨same, (Option.some.inj replaced).symm⟩
    · exact .inr before
  refine ⟨?_, ?_, ?_, ?_⟩
  · intro first second left right leftBusy rightBusy sameIndex
    rcases sessionCases first left leftBusy with
      ⟨rfl, rfl⟩ | leftBefore
    · rcases sessionCases second right rightBusy with
        ⟨rfl, rfl⟩ | rightBefore
      · rfl
      · exact (holds.alone opens loaded granted rightBefore
          sameIndex.symm).elim
    · rcases sessionCases second right rightBusy with
        ⟨rfl, rfl⟩ | rightBefore
      · exact (holds.alone opens loaded granted leftBefore sameIndex).elim
      · exact holds.exclusive first second left right leftBefore rightBefore
          sameIndex
  · intro locked same
    cases same
    exact (holds.counted document loaded).lockSentence sentenceIndex username
  · intro other session busy
    rcases sessionCases other session busy with ⟨_, rfl⟩ | before
    · exact nonnegative
    · exact holds.nonnegative other session before
  · intro other session busy writing locked sentence same found
    cases same
    rcases sessionCases other session busy with ⟨_, rfl⟩ | before
    · exact Document.isLocked_lockSentence granted found
    · have different := holds.alone opens loaded granted before
      have bound := holds.nonnegative other session before
      apply holds.held other session before writing document sentence loaded
      unfold Document.sentenceAt at *
      rw [Document.getElem?_lockSentence_of_ne (by omega)] at found
      exact found

/-- A step that gives no session a sentence and leaves the sentences of the
other sessions alone. -/
theorem LocksHeld.shrink (holds : c.LocksHeld) {connection : Nat}
    {session : WriteSession} (busy : c.sessions connection = some session)
    {file : FileView} {replacement : Option WriteSession}
    (counted : ∀ document, file.document = some document → document.Counted)
    (index : ∀ kept, replacement = some kept →
      kept.sentenceIndex = session.sentenceIndex)
    (held : ∀ kept, replacement = some kept → kept.committing = false →
      ∀ document sentence, file.document = some document →
        document.sentenceAt session.sentenceIndex = some sentence →
        sentence.isLocked = true)
    (others : ∀ document position, file.document = some document →
      position ≠ session.sentenceIndex.toNat →
      ∃ previous, c.file.document = some previous ∧
        document.sentences[position]? = previous.sentences[position]?) :
    LocksHeld ⟨file, Function.update c.sessions connection replacement⟩ := by
  have origin : ∀ other kept,
      Function.update c.sessions connection replacement other = some kept →
      ∃ previous, c.sessions other = some previous ∧
        kept.sentenceIndex = previous.sentenceIndex := by
    intro other kept found
    rcases update_eq_some found with ⟨rfl, replaced⟩ | ⟨_, before⟩
    · exact ⟨session, busy, index kept replaced⟩
    · exact ⟨kept, before, rfl⟩
  refine ⟨?_, counted, ?_, ?_⟩
  · intro first second left right leftBusy rightBusy sameIndex
    obtain ⟨leftBefore, leftFound, leftIndex⟩ := origin first left leftBusy
    obtain ⟨rightBefore, rightFound, rightIndex⟩ :=
      origin second right rightBusy
    exact holds.exclusive first second leftBefore rightBefore leftFound
      rightFound (leftIndex.symm.trans (sameIndex.trans rightIndex))
  · intro other kept found
    obtain ⟨previous, before, sameIndex⟩ := origin other kept found
    rw [sameIndex]
    exact holds.nonnegative other previous before
  · intro other kept found writing document sentence loaded target
    rcases update_eq_some found with ⟨_, replaced⟩ | ⟨different, before⟩
    · rw [index kept replaced] at target
      exact held kept replaced writing document sentence loaded target
    · have apart : kept.sentenceIndex ≠ session.sentenceIndex := fun same =>
        different (holds.exclusive other connection kept session before busy
          same)
      have bound := holds.nonnegative other kept before
      have ownBound := holds.nonnegative connection session busy
      obtain ⟨previous, loadedBefore, samePosition⟩ :=
        others document kept.sentenceIndex.toNat loaded (by omega)
      apply holds.held other kept before writing previous sentence loadedBefore
      unfold Document.sentenceAt at *
      rw [← samePosition]
      exact target

theorem locksHeld_step (holds : c.LocksHeld) (allowed : Username → Bool)
    {event : WriteEvent} (opens : c.OpensLocked event) :
    (c.step allowed event).LocksHeld := by
  have transition := transition_step allowed c event
  generalize c.step allowed event = next at transition
  cases transition with
  | idle => exact holds
  | refused sameDocument _ _ =>
      refine ⟨holds.exclusive, ?_, holds.nonnegative, ?_⟩
      · intro document loaded
        exact holds.counted document (sameDocument.symm.trans loaded)
      · intro other session busy writing document sentence loaded
        exact holds.held other session busy writing document sentence
          (sameDocument.symm.trans loaded)
  | granted free loaded grantedLock lockedDocument =>
      subst lockedDocument
      exact holds.granted opens loaded grantedLock
  | @queued connection message session busy writing =>
      obtain ⟨_, sameIndex, _, sameCommitting⟩ :=
        writeCommand_fields session message
      apply holds.shrink busy holds.counted
      · intro kept replaced
        cases replaced
        exact sameIndex
      · intro kept replaced _ document sentence loaded
        exact holds.held connection session busy writing document sentence
          loaded
      · intro document position loaded _
        exact ⟨document, loaded, rfl⟩
  | @ended connection message session busy writing =>
      apply holds.shrink busy
      · intro document loaded
        rw [FileView.document_unlock] at loaded
        obtain ⟨previous, before, rfl⟩ := Option.map_eq_some_iff.mp loaded
        exact (holds.counted previous before).unlockSentence _ _
      · intro kept replaced
        cases replaced
        rfl
      · intro kept replaced kept_writing
        cases replaced
        cases kept_writing
      · intro document position loaded elsewhere
        rw [FileView.document_unlock] at loaded
        obtain ⟨previous, before, rfl⟩ := Option.map_eq_some_iff.mp loaded
        exact ⟨previous, before,
          Document.getElem?_unlockSentence_of_ne elsewhere session.username⟩
  | @committed connection now session busy committing =>
      apply holds.shrink busy
      · intro document loaded
        rw [FileView.document_commit] at loaded
        obtain ⟨previous, before, rfl⟩ := Option.map_eq_some_iff.mp loaded
        have counted := holds.counted previous before
        cases done : previous.commit session with
        | none => exact counted
        | some changed => exact Document.counted_commit counted done
      · intro kept replaced
        cases replaced
      · intro kept replaced
        cases replaced
      · intro document position loaded elsewhere
        rw [FileView.document_commit] at loaded
        obtain ⟨previous, before, rfl⟩ := Option.map_eq_some_iff.mp loaded
        refine ⟨previous, before, ?_⟩
        cases done : previous.commit session with
        | none => rfl
        | some changed =>
            exact Document.getElem?_commit_of_ne
              (holds.counted previous before) done elsewhere
  | dropped busy writing => exact opens.elim
  | restored => exact opens.elim

end FileSessions

/-- The sentence, if it is there, is locked by the user, and no one else gets
the lock. -/
def FileView.StaysLocked (v : FileView) (position : Nat)
    (username : Username) : Prop :=
  ∀ document sentence, v.cached = some document →
    document.sentences[position]? = some sentence →
    sentence.isLocked = true ∧ sentence.lockedBy = username ∧
      ∀ other, (v.lock position other).2 = errSentenceLocked

/-- Restoring the backup would bring the sentence back. -/
def FileView.Revives (v : FileView) (position : Nat) : Prop :=
  ∃ backup, v.backup = some backup ∧ v.writable = true ∧
    position < (loadDocument backup).sentences.length

/-- Restoring the backup would change nothing. -/
def FileView.KeepsDocument (v : FileView) : Prop :=
  v.backup = none ∨ v.writable = false

namespace FileView

variable {v : FileView} {position : Nat} {username : Username}

theorem lock_of_locked {document : Document} {sentence : SentenceNode}
    (cached : v.cached = some document) (counted : document.Counted)
    (found : document.sentences[position]? = some sentence)
    (locked : sentence.isLocked = true) (other : Username) :
    (v.lock position other).2 = errSentenceLocked := by
  have loaded : v.document = some document := by
    unfold FileView.document
    rw [cached]
  have inRange := (List.getElem?_eq_some_iff.mp found).1
  have bound : ¬((position : Int) > document.sentenceCount) := by
    unfold Document.Counted at counted
    omega
  have nonnegative : ¬((position : Int) < 0) := by omega
  have target : document.sentenceAt position = some sentence := by
    simpa [Document.sentenceAt] using found
  unfold lock
  rw [loaded]
  simp [Document.lockSentence, nonnegative, bound, target, locked]

theorem staysLocked_restored {backup : Text} (saved : v.backup = some backup)
    (writable : v.writable = true) :
    v.restore.StaysLocked position username ↔ ¬v.Revives position := by
  obtain ⟨place, opens⟩ := writable_iff.mp writable
  rw [restore_of_some saved opens]
  constructor
  · rintro stays ⟨_, same, _, inRange⟩
    rw [saved] at same
    cases same
    have found := List.getElem?_eq_getElem inRange
    have locked := (stays _ _ rfl found).1
    rw [unlocked_loadDocument backup _ (List.getElem_mem inRange)] at locked
    cases locked
  · intro lost document sentence cached found
    cases cached
    have inRange := (List.getElem?_eq_some_iff.mp found).1
    exact (lost ⟨backup, saved, writable, inRange⟩).elim

theorem not_revives (kept : v.KeepsDocument) : ¬v.Revives position := by
  rintro ⟨backup, saved, writable, _⟩
  rcases kept with absent | closed
  · rw [absent] at saved
    cases saved
  · rw [closed] at writable
    cases writable

theorem restore_of_keepsDocument (kept : v.KeepsDocument) :
    v.restore = v := by
  rcases kept with absent | closed
  · exact restore_of_none absent
  · exact restore_of_unwritable closed

theorem saved_of_not_keepsDocument (lost : ¬v.KeepsDocument) :
    ∃ backup, v.backup = some backup ∧ v.writable = true := by
  unfold KeepsDocument at lost
  push Not at lost
  obtain ⟨backup, saved⟩ := Option.ne_none_iff_exists'.mp lost.1
  exact ⟨backup, saved, by simpa using lost.2⟩

end FileView

/-- A session that holds the lock of an existing sentence. -/
structure WriteSystem.HoldsLock (filename : Filename) (c : WriteSystem)
    (connection : Nat) (session : WriteSession) (position : Nat)
    (document : Document) (sentence : SentenceNode) : Prop where
  stable : Stable c.server filename
  busy : c.sessions connection = some session
  index : session.sentenceIndex = position
  cached : (c.view filename).file.cached = some document
  counted : document.Counted
  found : document.sentences[position]? = some sentence
  locked : sentence.isLocked = true
  lockedBy : sentence.lockedBy = session.username

/-- What the lock of a user on a sentence needs to survive an event. -/
def FileSessions.LockSurvives (c : FileSessions) (position : Nat)
    (username : Username) : WriteEvent → Prop
  | .undo => ¬c.file.Revives position
  | .disconnect other =>
      ∀ leaving, c.sessions other = some leaving →
        leaving.committing = false →
        ¬c.file.Revives position ∧
          (c.file.KeepsDocument → leaving.sentenceIndex = position →
            leaving.username ≠ username)
  | _ => True

theorem FileView.staysLocked_unlock {v : FileView} {document : Document}
    {sentence : SentenceNode} {position : Nat}
    (cached : v.cached = some document) (counted : document.Counted)
    (found : document.sentences[position]? = some sentence)
    (locked : sentence.isLocked = true) (index : Int)
    (username : Username) :
    (v.unlock index username).StaysLocked position sentence.lockedBy ↔
      (index = position → username ≠ sentence.lockedBy) := by
  have unlocked : (v.unlock index username).cached =
      some (document.unlockSentence index username).1 := by
    have loaded : v.document = some document := by
      unfold FileView.document
      rw [cached]
    unfold FileView.unlock
    rw [loaded]
  have inRange := (List.getElem?_eq_some_iff.mp found).1
  have countedAfter := counted.unlockSentence index username
  have keeps : (document.unlockSentence index username).1.sentences[position]? =
      some sentence →
      (v.unlock index username).StaysLocked position sentence.lockedBy := by
    intro kept after other same foundAfter
    rw [unlocked] at same
    cases same
    rw [kept] at foundAfter
    cases foundAfter
    exact ⟨locked, rfl,
      FileView.lock_of_locked unlocked countedAfter kept locked⟩
  rcases Document.unlockSentence_cases document index username with
    ⟨same, foreign⟩ | ⟨own, nonnegative, ownFound, _, ownUser, changed⟩
  · constructor
    · rintro _ rfl sameUser
      exact foreign sentence (by omega)
        (by simpa [Document.sentenceAt] using found) locked sameUser.symm
    · intro _
      apply keeps
      rw [same]
      exact found
  · by_cases here : index = position
    · subst here
      have sameSentence : own = sentence := by
        rw [Document.sentenceAt, Int.toNat_natCast, found] at ownFound
        exact (Option.some.inj ownFound).symm
      subst sameSentence
      constructor
      · intro stays
        have freed : (document.unlockSentence position username).1.sentences[
            position]? =
            some { own with isLocked := false, lockedBy := nobody } := by
          rw [changed, Document.setSentence, Int.toNat_natCast,
            List.getElem?_set_self inRange]
        have stillLocked := (stays _ _ unlocked freed).1
        cases stillLocked
      · intro foreign
        exact (foreign rfl ownUser.symm).elim
    · constructor
      · intro _ same
        exact (here same).elim
      · intro _
        apply keeps
        have elsewhere : index.toNat ≠ position := by omega
        rw [changed, Document.setSentence, List.getElem?_set_ne elsewhere]
        exact found

theorem FileView.staysLocked_rollback {v : FileView} {document : Document}
    {sentence : SentenceNode} {position : Nat}
    (cached : v.cached = some document) (counted : document.Counted)
    (found : document.sentences[position]? = some sentence)
    (locked : sentence.isLocked = true) (leaving : WriteSession) :
    (v.rollback leaving).StaysLocked position sentence.lockedBy ↔
      ¬v.Revives position ∧
        (v.KeepsDocument → leaving.sentenceIndex = position →
          leaving.username ≠ sentence.lockedBy) := by
  have storage := FileView.sameStorage_unlock v leaving.sentenceIndex
    leaving.username
  unfold FileView.rollback
  by_cases kept : v.KeepsDocument
  · have keptAfter : (v.unlock leaving.sentenceIndex
        leaving.username).KeepsDocument := by
      unfold FileView.KeepsDocument at *
      rw [storage.backup, storage.writable]
      exact kept
    rw [FileView.restore_of_keepsDocument keptAfter,
      FileView.staysLocked_unlock cached counted found locked]
    constructor
    · intro apart
      exact ⟨FileView.not_revives kept, fun _ => apart⟩
    · intro survives
      exact survives.2 kept
  · obtain ⟨backup, saved, writable⟩ :=
      FileView.saved_of_not_keepsDocument kept
    have revives : (v.unlock leaving.sentenceIndex
        leaving.username).Revives position ↔ v.Revives position := by
      unfold FileView.Revives
      rw [storage.backup, storage.writable]
    rw [FileView.staysLocked_restored (storage.backup.trans saved)
      (storage.writable.trans writable), revives]
    constructor
    · intro lost
      exact ⟨lost, fun keeps => (kept keeps).elim⟩
    · intro survives
      exact survives.1

/-- The same of the system, where the lock is asked for by its handler. -/
def WriteSystem.StaysLocked (filename : Filename) (c : WriteSystem)
    (position : Nat) (username : Username) : Prop :=
  ∀ document sentence, (c.view filename).file.cached = some document →
    document.sentences[position]? = some sentence →
    sentence.isLocked = true ∧ sentence.lockedBy = username ∧
      ∀ other, (lockSentenceLl c.server filename position other).2 =
        errSentenceLocked

theorem WriteSystem.staysLocked_iff_view {filename : Filename}
    {c : WriteSystem} (stable : Stable c.server filename) (position : Nat)
    (username : Username) :
    c.StaysLocked filename position username ↔
      (c.view filename).file.StaysLocked position username := by
  unfold WriteSystem.StaysLocked FileView.StaysLocked
  have asked := fun other =>
    (view_lockSentenceLl stable position other).2.1
  simp only [asked]
  rfl

private theorem sample_holdsLock :
    ((sampleSystem "Hi.".toList).step sampleFile
      (.openWrite 0 sampleUser 0)).HoldsLock sampleFile 0
        (newSession sampleUser 0 1) 0 ⟨[sampleLocked], 1⟩ sampleLocked := by
  refine ⟨?_, ?_, rfl, ?_, rfl, rfl, rfl, rfl⟩
  · exact (@view_step sampleFile (sampleSystem "Hi.".toList)
      (stable_sampleServer _) _).2
  · decide +kernel
  · decide +kernel

/-- The name is too long for a backup, so the session that leaves restores
nothing. -/
private def unsavedFile : Filename :=
  CString.copy 255 (List.replicate 251 'f')

private def unsavedSystem : WriteSystem :=
  ⟨serverWith unsavedFile "Hi. A.".toList, fun _ => none⟩

private def twoSessions : WriteSystem :=
  unsavedSystem.run unsavedFile
    [.openWrite 0 sampleUser 0, .openWrite 1 sampleUser 1]

private theorem stable_twoSessions :
    Stable twoSessions.server unsavedFile :=
  (@WriteSystem.invariant unsavedFile (fun _ => True) (fun _ _ => True)
    (fun _ _ _ _ _ => trivial) unsavedSystem _
    (stable_serverWith unsavedFile _) trivial
    (StepRun.allSteps_of_forall (fun _ _ => trivial) _ _)).2

end Dfs.StorageServer
