import Dfs.NameServer.SystemRuns
import Dfs.StorageServer.StoredContents

/-!
# What is stored, along runs of the whole system

A file on the disk of a storage server is written by CREATE, DELETE, MOVE and
REVERT through the name server, which asks for a new name or for the owner, by
CHECKPOINT, which it passes on for everybody, and by WRITE and UNDO at the
client port.  What counts is the place that a path leads to: names that mean
one file, and names that lead to a backup or a checkpoint, are no exception.
-/

namespace Dfs.NameServer

open Dfs.StorageServer

/-- The events that may change what stands at a place on the disk of a storage
server. -/
inductive ChangesContent (sys : System) (server : Nat) (place : Location) :
    SystemEvent → Prop where
  | creates {call : Call} {filename : Filename}
      (command : call.command = .create filename)
      (unknown : findFile sys.nm.toNameServerState filename = none)
      (here : place =
          (filePaths (sys.stores server).storage filename).file.resolve ∧
            findMetadata (sys.stores server) filename = none ∨
        place =
          (filePaths (sys.stores server).storage filename).backup.resolve) :
      ChangesContent sys server place (.call call)
  | deletes {call : Call} {filename : Filename}
      (command : call.command = .delete filename)
      (here : place =
          (filePaths (sys.stores server).storage filename).file.resolve ∨
        place =
          (filePaths (sys.stores server).storage filename).backup.resolve)
      (owner : Owns sys call.username filename) :
      ChangesContent sys server place (.call call)
  | moves {call : Call} {filename : Filename} {targetPath : PathText}
      (command : call.command = .move filename targetPath)
      (here :
        (filePaths (sys.stores server).storage filename).file.resolve <+:
            place ∨
          moveGoal (sys.stores server).storage filename targetPath <+: place)
      (owner : Owns sys call.username filename) :
      ChangesContent sys server place (.call call)
  | checkpoints {call : Call} {filename tag : Filename}
      (command : call.command = .checkpoint filename tag)
      (here : place =
        (checkpointPath (sys.stores server).storage filename tag).resolve) :
      ChangesContent sys server place (.call call)
  | reverts {call : Call} {filename tag : Filename}
      (command : call.command = .revert filename tag)
      (here : place =
        (filePaths (sys.stores server).storage filename).file.resolve)
      (owner : Owns sys call.username filename) :
      ChangesContent sys server place (.call call)
  | direct {username : Username} {now : TimeText} {request : ClientRequest}
      (sets : request.SetsContent (sys.stores server) username place) :
      ChangesContent sys server place (.direct server username now request)
  -- every request that changes a record saves them all
  | saves {event : SystemEvent}
      (here : place = (metadataPath (sys.stores server).storage).resolve) :
      ChangesContent sys server place event

def contentWatch (place : Location) :
    Watch (StorageDir × Option Text) where
  view := fun s => (s.storage, s.disk.files.get place)
  Sets := fun request seen => request.SetsContent seen.1 place
  kept := fun context s request others =>
    Prod.ext (storage_handleNmConnection context s request)
      (files_handleNmConnection others)

/-- CREATE writes the file itself only together with its record; the other
requests are left to `contentWatch`. -/
def createWatch (filename : Filename) (place : Location) :
    Watch (StorageDir × Option Text × Bool) where
  view := fun s =>
    (s.storage, s.disk.files.get place, (findMetadata s filename).isSome)
  Sets := fun request seen =>
    ¬ ∃ username, request = .createFile filename username ∧
      seen.2.2 = true ∧ place ≠ (filePaths seen.1 filename).backup.resolve
  kept := by
    intro context s request others
    obtain ⟨username, rfl, recorded, elsewhere⟩ := not_not.mp others
    have content := @files_nmCreateFile_of_recorded s filename username place
      recorded elsewhere context.now
    have rights := @AddsAtMost.rightsOf _ _ _ _
      (@records_createFile s filename username context.now) filename
      (.inr recorded)
    have record := congrArg Option.isSome rights
    simp only [rightsOf, Option.isSome_map] at record
    exact Prod.ext
      (storage_handleNmConnection context s (.createFile filename username))
      (Prod.ext content record)

section

variable {sys : System} {server : Nat} {place : Location}
  {event : SystemEvent}

/-- CREATE empties no file that has a record. -/
theorem unrecorded_of_create {call : Call} {filename : Filename}
    (command : call.command = .create filename)
    (elsewhere : place ≠
      (filePaths (sys.stores server).storage filename).backup.resolve)
    (changed : ((systemStep sys (.call call)).stores server).disk.files.get
        place ≠ (sys.stores server).disk.files.get place) :
    findMetadata (sys.stores server) filename = none := by
  rcases (createWatch filename place).sends_of_changed
      (fun same => changed (congrArg (fun seen => seen.2.1) same)) with
    ⟨request, sends, sets⟩ | ⟨username, now, request, direct, served⟩
  · have only : request = .createFile filename call.username := by
      cases sends with
      | createFile known unknown =>
          cases command.symm.trans known
          rfl
      | createfolder known unknown => cases command.symm.trans known
      | deleteFile known owner => cases command.symm.trans known
      | addaccess known owner => cases command.symm.trans known
      | approved known pending => cases command.symm.trans known
      | move known owner => cases command.symm.trans known
      | checkpoint known => cases command.symm.trans known
      | viewcheckpoint known => cases command.symm.trans known
      | revert known owner => cases command.symm.trans known
    by_contra recorded
    apply sets
    exact ⟨call.username, only, Option.isSome_iff_ne_none.mpr recorded,
      elsewhere⟩
  · cases direct

/-- One event changes what is stored only if it may. -/
theorem changesContent_of_changed
    (changed : ((systemStep sys event).stores server).disk.files.get place ≠
      (sys.stores server).disk.files.get place) :
    ChangesContent sys server place event := by
  rcases (contentWatch place).sends_of_changed
      (fun same => changed (congrArg Prod.snd same)) with
    ⟨request, sends, sets⟩ | ⟨username, now, request, rfl, served⟩
  · cases sends with
    | createFile command unknown =>
        rename_i call filename
        by_cases backup : place =
            (filePaths (sys.stores server).storage filename).backup.resolve
        · exact .creates command unknown (.inr backup)
        · have unrecorded := unrecorded_of_create command backup changed
          exact .creates command unknown
            (.inl ⟨sets.resolve_right backup, unrecorded⟩)
    | createfolder command unknown => exact sets.elim
    | deleteFile command owner => exact .deletes command sets owner
    | addaccess command owner => exact sets.elim
    | approved command pending => exact sets.elim
    | move command owner => exact .moves command sets owner
    | checkpoint command => exact .checkpoints command sets
    | viewcheckpoint command => exact sets.elim
    | revert command owner => exact .reverts command sets owner
    | remaccess owner => exact sets.elim
    | info => exact sets.elim
    | listcheckpoints => exact sets.elim
  · apply ChangesContent.direct
    by_contra others
    apply served
    exact Prod.ext (storage_handleClientConnection _ username now request)
      (files_handleClientConnection others now)

end

/-- `alice` has written to her file. -/
private def aliceNotes : System :=
  StepRun.run systemStep askServer
    [.call (askCall "alice" 0 (.create askFile)),
      .direct 0 (askUser "alice") (CString.copy 63 [])
        (.write askFile 0 (sampleMessages "hi".toList))]

private def notesPlace : Location :=
  ["ss".toList, "files".toList, "notes".toList]

/-- `bob` tries everything that asks for her rights, and empties a file of his
own. -/
private def intrusions : List SystemEvent :=
  [.direct 0 (askUser "bob") (CString.copy 63 [])
      (.write askFile 0 (sampleMessages "bye".toList)),
    .call (askCall "bob" 1 (.create askFile)),
    .call (askCall "bob" 2 (.delete askFile)),
    .call (askCall "bob" 3 (.move askFile (CString.copy 1023 []))),
    .call (askCall "bob" 4 (.create (CString.copy 255 "/other".toList)))]

end Dfs.NameServer
