import Dfs.Library.StepRun
import Dfs.StorageServer.FileView

/-!
# Interleaved WRITE sessions on one file

Any number of connections run the WRITE handler on one file.  The atomic steps
are the opening of a session, the receipt of one message, the commit under the
commit lock, the loss of a connection, and an UNDO request.  `ETIRW` unlocks
the sentence at once, and the commit follows as a later step of its own.

`WriteSystem` runs the handlers on the storage server and `FileSessions` the
same steps on the view of the file; `view_step` connects them.
-/

namespace Dfs.StorageServer

/-- The sessions that were answered `WRITE_MODE` and have not ended, by
connection. -/
structure WriteSystem where
  server : FileHandler
  sessions : Nat → Option WriteSession

inductive WriteEvent where
  | openWrite (connection : Nat) (username : Username) (sentenceIndex : Int)
  | message (connection : Nat) (message : WriteMessage)
  | commit (connection : Nat) (now : TimeText)
  | disconnect (connection : Nat)
  | undo
  deriving DecidableEq, Repr

/-- A connection in use opens no second session, a session past `ETIRW` reads
no message, and only such a session commits. -/
def WriteSystem.step (filename : Filename) (c : WriteSystem) :
    WriteEvent → WriteSystem
  | .openWrite connection username sentenceIndex =>
      match c.sessions connection with
      | some _ => c
      | none =>
          let (server, _, session) :=
            StorageServer.openWrite c.server filename username sentenceIndex
          ⟨server, Function.update c.sessions connection session⟩
  | .message connection message =>
      match c.sessions connection with
      | none => c
      | some session =>
          if session.committing then c
          else if message.data.chars = etirw then
            ⟨(unlockSentenceLl c.server filename session.sentenceIndex
                session.username).1,
              Function.update c.sessions connection
                (some { session with committing := true })⟩
          else
            ⟨c.server, Function.update c.sessions connection
              (some (writeCommand session message).1)⟩
  | .commit connection now =>
      match c.sessions connection with
      | none => c
      | some session =>
          if session.committing then
            ⟨(commitWrite c.server filename session now).1,
              Function.update c.sessions connection none⟩
          else c
  | .disconnect connection =>
      match c.sessions connection with
      | none => c
      | some session =>
          if session.committing then c
          else
            ⟨rollbackWrite c.server filename session,
              Function.update c.sessions connection none⟩
  | .undo => ⟨(handleUndoRequest c.server filename).1, c.sessions⟩

def WriteSystem.run (filename : Filename) :
    WriteSystem → List WriteEvent → WriteSystem :=
  StepRun.run (WriteSystem.step filename)

/-- The view of the file together with the open sessions. -/
structure FileSessions where
  file : FileView
  sessions : Nat → Option WriteSession

/-- The steps on the view; `allowed` answers the access check. -/
def FileSessions.step (allowed : Username → Bool) (c : FileSessions) :
    WriteEvent → FileSessions
  | .openWrite connection username sentenceIndex =>
      match c.sessions connection with
      | some _ => c
      | none =>
          let (file, session) :=
            c.file.openWrite (allowed username) username sentenceIndex
          ⟨file, Function.update c.sessions connection session⟩
  | .message connection message =>
      match c.sessions connection with
      | none => c
      | some session =>
          if session.committing then c
          else if message.data.chars = etirw then
            ⟨c.file.unlock session.sentenceIndex session.username,
              Function.update c.sessions connection
                (some { session with committing := true })⟩
          else
            ⟨c.file, Function.update c.sessions connection
              (some (writeCommand session message).1)⟩
  | .commit connection _ =>
      match c.sessions connection with
      | none => c
      | some session =>
          if session.committing then
            ⟨c.file.commit session,
              Function.update c.sessions connection none⟩
          else c
  | .disconnect connection =>
      match c.sessions connection with
      | none => c
      | some session =>
          if session.committing then c
          else
            ⟨c.file.rollback session,
              Function.update c.sessions connection none⟩
  | .undo => ⟨c.file.restore, c.sessions⟩

def WriteSystem.view (filename : Filename) (c : WriteSystem) : FileSessions :=
  ⟨StorageServer.view c.server filename, c.sessions⟩

def WriteSystem.allowed (filename : Filename) (c : WriteSystem)
    (username : Username) : Bool :=
  (hasWriteAccessLl c.server filename username).1

/-- Each step of the system is the same step on the view. -/
theorem view_step {filename : Filename} {c : WriteSystem}
    (stable : Stable c.server filename) (event : WriteEvent) :
    (c.step filename event).view filename =
        (c.view filename).step (c.allowed filename) event ∧
      Stable (c.step filename event).server filename := by
  cases event with
  | openWrite connection username sentenceIndex =>
      cases busy : c.sessions connection with
      | some session =>
          simp [WriteSystem.step, FileSessions.step, WriteSystem.view, busy,
            stable]
      | none =>
          have opened := view_openWrite stable username sentenceIndex
          simp only [WriteSystem.step, FileSessions.step, WriteSystem.view,
            busy, WriteSystem.allowed, opened.1, opened.2.1]
          exact ⟨trivial, opened.2.2⟩
  | message connection message =>
      cases busy : c.sessions connection with
      | none =>
          simp [WriteSystem.step, FileSessions.step, WriteSystem.view, busy,
            stable]
      | some session =>
          have unlocked := view_unlockSentenceLl stable session.sentenceIndex
            session.username
          simp only [WriteSystem.step, FileSessions.step, WriteSystem.view,
            busy]
          split
          · exact ⟨rfl, stable⟩
          · split
            · exact ⟨by simp [unlocked.1], unlocked.2⟩
            · exact ⟨rfl, stable⟩
  | commit connection now =>
      cases busy : c.sessions connection with
      | none =>
          simp [WriteSystem.step, FileSessions.step, WriteSystem.view, busy,
            stable]
      | some session =>
          have committed := view_commitWrite stable session now
          simp only [WriteSystem.step, FileSessions.step, WriteSystem.view,
            busy]
          split
          · exact ⟨by simp [committed.1], committed.2⟩
          · exact ⟨rfl, stable⟩
  | disconnect connection =>
      cases busy : c.sessions connection with
      | none =>
          simp [WriteSystem.step, FileSessions.step, WriteSystem.view, busy,
            stable]
      | some session =>
          have rolledBack := view_rollbackWrite stable session
          simp only [WriteSystem.step, FileSessions.step, WriteSystem.view,
            busy]
          split
          · exact ⟨rfl, stable⟩
          · exact ⟨by simp [rolledBack.1], rolledBack.2⟩
  | undo =>
      have undone := view_handleUndoRequest stable
      exact ⟨by simp [WriteSystem.step, FileSessions.step, WriteSystem.view,
        undone.1], undone.2⟩

/-- An invariant of the steps on the view, under a condition on each of them,
holds at the end of every run of the system that meets the condition. -/
theorem WriteSystem.invariant {filename : Filename}
    {Inv : FileSessions → Prop} {condition : FileSessions → WriteEvent → Prop}
    (preserved : ∀ allowed c event, Inv c → condition c event →
      Inv (c.step allowed event))
    {start : WriteSystem} {events : List WriteEvent}
    (stable : Stable start.server filename)
    (initially : Inv (start.view filename))
    (steps : StepRun.AllSteps (WriteSystem.step filename)
      (fun c event => condition (c.view filename) event) start events) :
    Inv ((start.run filename events).view filename) ∧
      Stable (start.run filename events).server filename := by
  apply @StepRun.invariant _ _ (WriteSystem.step filename)
    (fun c event => condition (c.view filename) event)
    (fun c => Inv (c.view filename) ∧ Stable c.server filename) _ start events
    ⟨initially, stable⟩ steps
  rintro c event ⟨holds, kept⟩ met
  have simulated := view_step kept event
  exact ⟨simulated.1 ▸ preserved _ _ event holds met, simulated.2⟩

def sampleFile : Filename := CString.copy 255 "f".toList

def sampleUser : Username := CString.copy 63 "alice".toList

def sampleTime : TimeText := CString.copy 63 "2025-01-01 00:00:00".toList

/-- A storage server started on a directory with one file. -/
def serverWith (filename : Filename) (content : Text) : FileHandler :=
  let metadataList := [newMetadata filename sampleUser sampleTime]
  { freshServer with
    disk := freshServer.disk.put
      ["ss".toList, "files".toList, filename.chars] content
    metadataList := metadataList
    metadataFile := some metadataList }

def sampleServer (content : Text) : FileHandler :=
  serverWith sampleFile content

def sampleSystem (content : Text) : WriteSystem :=
  ⟨sampleServer content, fun _ => none⟩

theorem stable_serverWith (filename : Filename) (content : Text) :
    Stable (serverWith filename content) filename := by
  intro file found
  cases found

theorem stable_sampleServer (content : Text) :
    Stable (sampleServer content) sampleFile :=
  stable_serverWith sampleFile content

end Dfs.StorageServer
