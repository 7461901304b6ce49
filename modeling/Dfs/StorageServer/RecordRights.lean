import Dfs.StorageServer.ClientPort
import Dfs.StorageServer.RequestEffects

/-!
# Who may change rights at the storage server

The rights of a record are its name, its owner and its access list.  No
request at the client port changes them.  At the port of the name server five
requests can, each for the file that it names, and the two that create do not
touch a record that is there.
-/

namespace Dfs.StorageServer

def FileHandler.rights (s : FileHandler) :
    List (Filename × Username × DataText) :=
  s.metadataList.map FileMetadata.rights

/-- The rights on one file. -/
def rightsOf (s : FileHandler) (filename : Filename) :
    Option (Filename × Username × DataText) :=
  (findMetadata s filename).map FileMetadata.rights

/-- All records keep their rights. -/
def SameRights (s t : FileHandler) : Prop := t.rights = s.rights

section

variable {s t u : FileHandler} {filename : Filename} {username : Username}

theorem SameRights.refl (s : FileHandler) : SameRights s s := rfl

theorem SameRights.trans (first : SameRights s t) (second : SameRights t u) :
    SameRights s u :=
  Eq.trans second first

theorem sameRights_of_records (same : t.metadataList = s.metadataList) :
    SameRights s t := by
  rw [SameRights, FileHandler.rights, same]
  rfl

theorem SameRights.rightsOf (same : SameRights s t) (filename : Filename) :
    rightsOf t filename = rightsOf s filename := by
  have found : ∀ records : List FileMetadata,
      (records.find? fun record => record.filename = filename).map
        FileMetadata.rights =
      (records.map FileMetadata.rights).find? fun rights =>
        rights.1 = filename := by
    intro records
    rw [List.find?_map]
    rfl
  unfold StorageServer.rightsOf findMetadata
  rw [found, found]
  exact congrArg _ same

/-- What a change keeps of every record it keeps of the table. -/
theorem map_updateMetadata {β : Type} {key : FileMetadata → β}
    {change : FileMetadata → FileMetadata}
    (kept : ∀ record, key (change record) = key record) :
    (updateMetadata s filename change).metadataList.map key =
      s.metadataList.map key := by
  unfold updateMetadata
  apply List.ext_getElem?
  intro position
  simp only [List.getElem?_map, List.getElem?_modify]
  cases s.metadataList[position]? with
  | none => simp
  | some record =>
      by_cases here : s.metadataList.findIdx
          (fun record => decide (record.filename = filename)) = position
      · simp [here, kept]
      · simp [here]

theorem sameRights_updateMetadata {change : FileMetadata → FileMetadata}
    (kept : ∀ record, (change record).rights = record.rights) :
    SameRights s (saveMetadataLl (updateMetadata s filename change)) :=
  map_updateMetadata kept

theorem sameRights_moves (filename : Filename) :
    SessionMoves filename SameRights where
  refl := .refl
  trans := .trans
  cache := fun _ _ => rfl
  uncache := fun _ => rfl
  accessCache := fun _ _ => rfl
  folders := fun _ => rfl
  backup := fun _ _ _ _ => rfl
  write := fun _ _ _ _ => rfl
  swap := fun _ _ _ => rfl
  record := fun _ _ kept => sameRights_updateMetadata kept

theorem sameRights_handleTransferRequest (now : TimeText) :
    SameRights s (handleTransferRequest s filename username now).1 := by
  have checked : SameRights s (hasReadAccessLl s filename username).2 :=
    (sameRights_moves filename).hasAccessLl 1 s username
  unfold handleTransferRequest
  generalize hasReadAccessLl s filename username = access at checked ⊢
  obtain ⟨allowed, t⟩ := access
  simp only at checked ⊢
  split
  · exact checked
  · split
    · exact checked
    · apply checked.trans
      unfold updateFileAccessedTimeLl
      split
      · exact .refl t
      · exact sameRights_updateMetadata fun _ => rfl

/-- No user changes any rights at the client port. -/
theorem sameRights_handleClientConnection (now : TimeText)
    (request : ClientRequest) :
    SameRights s (handleClientConnection s username now request).1 := by
  cases request with
  | read filename =>
      rw [handleClientConnection, handleReadRequest_server]
      exact sameRights_handleTransferRequest now
  | stream filename =>
      rw [handleClientConnection, handleStreamRequest_server]
      exact sameRights_handleTransferRequest now
  | write filename sentenceIndex messages =>
      exact (sameRights_moves filename).handleWriteRequest s username
        sentenceIndex messages now
  | undo filename => exact (sameRights_moves filename).handleUndoRequest s
  | unknown => exact .refl s

/-- At most a record of this name is added at the end, if there was none. -/
def AddsAtMost (s : FileHandler) (filename : Filename) (username : Username)
    (t : FileHandler) : Prop :=
  t.metadataList = s.metadataList ∨
    findMetadata s filename = none ∧
      ∃ record : FileMetadata, record.filename = filename ∧
        record.owner = username ∧
        t.metadataList = s.metadataList ++ [record]

theorem records_createFile (now : TimeText) :
    AddsAtMost s filename username
      (nmCreateFile s filename username now).1 := by
  have saved : ∀ t : FileHandler,
      (saveUndoBackupLl t filename).1.metadataList = t.metadataList :=
    fun t => records_saveUndoBackupLl
  have created : AddsAtMost s filename username
      (createFileLl s filename username now).1 := by
    unfold createFileLl
    split
    · exact .inl rfl
    · rename_i unrecorded
      split
      · exact .inl rfl
      · split
        · exact .inl rfl
        · exact .inr ⟨Option.not_isSome_iff_eq_none.mp unrecorded,
            newMetadata filename username now, rfl, rfl, rfl⟩
  unfold nmCreateFile
  generalize createFileLl s filename username now = result at created ⊢
  obtain ⟨t, code⟩ := result
  simp only
  split
  · exact created
  · unfold AddsAtMost
    rw [saved]
    exact created

theorem records_createfolder (now : TimeText) :
    AddsAtMost s filename username
      (nmCreatefolder s filename username now).1 := by
  unfold nmCreatefolder
  split
  · exact .inl rfl
  · exact .inl rfl
  · simp only [addMetadataLl]
    split
    · exact .inl rfl
    · rename_i unrecorded
      split
      · exact .inl rfl
      · exact .inr ⟨Option.not_isSome_iff_eq_none.mp unrecorded,
          folderMetadata filename username now, rfl, rfl, rfl⟩

/-- Only a file without a record is given one. -/
theorem AddsAtMost.rightsOf (created : AddsAtMost s filename username t)
    {other : Filename}
    (kept : other ≠ filename ∨ (findMetadata s filename).isSome) :
    rightsOf t other = rightsOf s other := by
  rcases created with same | ⟨unrecorded, record, named, -, added⟩
  · exact (sameRights_of_records same).rightsOf other
  · have different : other ≠ filename := kept.resolve_right (by
      simp [unrecorded])
    have passed : findMetadata t other = findMetadata s other := by
      rw [findMetadata, added, List.find?_append]
      have notThis : ¬ record.filename = other := fun same =>
        different (same.symm.trans named)
      simp [findMetadata, notThis]
    rw [StorageServer.rightsOf, passed]
    rfl

/-- A change of one record is not seen by the others. -/
theorem rightsOf_updateMetadata {change : FileMetadata → FileMetadata}
    (named : ∀ record, (change record).filename = record.filename)
    {other : Filename} (different : other ≠ filename) :
    rightsOf (updateMetadata s filename change) other = rightsOf s other :=
  congrArg (Option.map FileMetadata.rights)
    (find?_modifyRecord s.metadataList named different)

theorem rightsOf_nmDeleteFile {other : Filename}
    (different : other ≠ filename) :
    rightsOf (nmDeleteFile s filename).1 other = rightsOf s other := by
  obtain ⟨fileCache, marked⟩ := markForDeletion_eq s filename
  unfold nmDeleteFile deleteFileLl
  rw [marked]
  simp only
  split
  · rfl
  · split
    · rfl
    · exact congrArg (Option.map FileMetadata.rights)
        (find?_eraseRecord s.metadataList different)

theorem rightsOf_nmAddaccess (data : DataText) (accessType : Int)
    {other : Filename} (different : other ≠ filename) :
    rightsOf (nmAddaccess s filename data accessType).1 other =
      rightsOf s other := by
  have added : rightsOf (addUserAccessLl s filename
      (CString.copy 63 data.chars) accessType).1 other = rightsOf s other := by
    unfold addUserAccessLl
    split
    · rfl
    · exact rightsOf_updateMetadata (by exact fun _ => rfl) different
  unfold nmAddaccess
  generalize addUserAccessLl s filename (CString.copy 63 data.chars)
    accessType = result at added ⊢
  simp only
  split
  · exact added
  · exact added

theorem rightsOf_nmRemaccess (data : DataText) {other : Filename}
    (different : other ≠ filename) :
    rightsOf (nmRemaccess s filename data).1 other = rightsOf s other := by
  have removed : rightsOf (removeUserAccessLl s filename
      (CString.copy 63 data.chars)).1 other = rightsOf s other := by
    unfold removeUserAccessLl
    split
    · rfl
    · exact rightsOf_updateMetadata (by exact fun _ => rfl) different
  unfold nmRemaccess
  generalize removeUserAccessLl s filename (CString.copy 63 data.chars) =
    result at removed ⊢
  simp only
  split
  · exact removed
  · exact removed

theorem sameRights_nmCheckpoint (tag : Filename) :
    SameRights s (nmCheckpoint s filename tag).1 := by
  obtain ⟨disk, saved⟩ := nmCheckpoint_eq s filename tag
  rw [saved]
  exact sameRights_of_records rfl

theorem sameRights_nmRevert (tag : Filename) (now : TimeText) :
    SameRights s (nmRevert s filename tag now).1 := by
  unfold nmRevert
  simp only
  split
  · exact .refl s
  · split
    · exact .refl s
    · unfold updateFileModifiedTimeLl
      split
      · exact sameRights_of_records rfl
      · exact sameRights_updateMetadata fun _ => rfl

theorem sameRights_nmMove (targetPath : PathText) :
    SameRights s (nmMove s filename targetPath).1 := by
  obtain ⟨disk, moved⟩ := nmMove_eq s filename targetPath
  rw [moved]
  exact .refl _

end

/-- The request may change the rights on the file, which are these before. -/
def NmRequest.SetsRights (request : NmRequest) (filename : Filename)
    (rights : Option (Filename × Username × DataText)) : Prop :=
  match request with
  | .createFile target _ => target = filename ∧ rights = none
  | .createfolder target _ => target = filename ∧ rights = none
  | .deleteFile target _ => target = filename
  | .addaccess target _ _ _ => target = filename
  | .remaccess target _ _ => target = filename
  | _ => False

/-- The other requests leave them. -/
theorem rightsOf_handleNmConnection {context : NmContext} {s : FileHandler}
    {request : NmRequest} {filename : Filename}
    (others : ¬ request.SetsRights filename (rightsOf s filename)) :
    rightsOf (handleNmConnection context s request).1 filename =
      rightsOf s filename := by
  have created : ∀ target : Filename,
      ¬(target = filename ∧ rightsOf s filename = none) →
        filename ≠ target ∨ (findMetadata s target).isSome := by
    intro target others
    by_cases same : target = filename
    · subst same
      refine .inr (Option.isSome_iff_ne_none.mpr fun none => others ⟨rfl, ?_⟩)
      rw [rightsOf, none]
      rfl
    · exact .inl (Ne.symm same)
  cases request with
  | createFile target username =>
      exact (records_createFile context.now).rightsOf (created target others)
  | createfolder target username =>
      exact (records_createfolder context.now).rightsOf
        (created target others)
  | deleteFile target username => exact rightsOf_nmDeleteFile (Ne.symm others)
  | addaccess target username data accessType =>
      exact rightsOf_nmAddaccess data accessType (Ne.symm others)
  | remaccess target username data =>
      exact rightsOf_nmRemaccess data (Ne.symm others)
  | info target username => rfl
  | move target targetPath username =>
      exact (sameRights_nmMove targetPath).rightsOf filename
  | checkpoint target tag username =>
      exact (sameRights_nmCheckpoint tag).rightsOf filename
  | viewcheckpoint target tag username => rfl
  | revert target tag username =>
      exact (sameRights_nmRevert tag context.now).rightsOf filename
  | listcheckpoints target username => rfl

end Dfs.StorageServer
