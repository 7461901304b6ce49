import Dfs.StorageServer.FileView
import Dfs.StorageServer.Requests
import Dfs.StorageServer.SessionMoves

/-!
# What a request leaves alone

An operation on one file keeps the names of all metadata records and does not
touch the cached documents of other files.  Creation and deletion, which
change the records, are described by themselves.
-/

namespace Dfs.StorageServer

/-- The names of all records. -/
def FileHandler.names (s : FileHandler) : List Filename :=
  s.metadataList.map FileMetadata.filename

theorem findMetadata_eq_none_iff {s : FileHandler} {filename : Filename} :
    findMetadata s filename = none ↔ filename ∉ s.names := by
  simp only [findMetadata, FileHandler.names, List.find?_eq_none,
    decide_eq_true_eq, List.mem_map, not_exists, not_and]

section

variable {filename other : Filename}

private theorem findIdx_here {record : FileMetadata}
    (same : record.filename = filename) (records : List FileMetadata) :
    (record :: records).findIdx (fun record => record.filename = filename) =
      0 := by
  simp [List.findIdx_cons, same]

private theorem findIdx_later {record : FileMetadata}
    (different : record.filename ≠ filename) (records : List FileMetadata) :
    (record :: records).findIdx (fun record => record.filename = filename) =
      records.findIdx (fun record => record.filename = filename) + 1 := by
  simp [List.findIdx_cons, different]

theorem find?_modifyRecord (records : List FileMetadata)
    {change : FileMetadata → FileMetadata}
    (named : ∀ record, (change record).filename = record.filename)
    (different : other ≠ filename) :
    (records.modify (records.findIdx fun record =>
        record.filename = filename) change).find?
      (fun record => record.filename = other) =
      records.find? fun record => record.filename = other := by
  induction records with
  | nil => rfl
  | cons record records ih =>
      by_cases same : record.filename = filename
      · have unequal : record.filename ≠ other := fun equal =>
          different (equal.symm.trans same)
        have unequalChanged : (change record).filename ≠ other := by
          rw [named]
          exact unequal
        rw [findIdx_here same, List.modify_zero_cons,
          List.find?_cons_of_neg (by simpa using unequalChanged),
          List.find?_cons_of_neg (by simpa using unequal)]
      · rw [findIdx_later same, List.modify_succ_cons, List.find?_cons,
          List.find?_cons, ih]

theorem find?_eraseRecord (records : List FileMetadata)
    (different : other ≠ filename) :
    (records.eraseIdx (records.findIdx fun record =>
        record.filename = filename)).find?
      (fun record => record.filename = other) =
      records.find? fun record => record.filename = other := by
  induction records with
  | nil => rfl
  | cons record records ih =>
      by_cases same : record.filename = filename
      · have unequal : record.filename ≠ other := fun equal =>
          different (equal.symm.trans same)
        rw [findIdx_here same, List.eraseIdx_cons_zero,
          List.find?_cons_of_neg (by simpa using unequal)]
      · rw [findIdx_later same, List.eraseIdx_cons_succ, List.find?_cons,
          List.find?_cons, ih]

theorem find?_modifyRecord_self (records : List FileMetadata)
    {change : FileMetadata → FileMetadata}
    (named : ∀ record, (change record).filename = record.filename) :
    (records.modify (records.findIdx fun record =>
        record.filename = filename) change).find?
      (fun record => record.filename = filename) =
      (records.find? fun record => record.filename = filename).map change := by
  induction records with
  | nil => rfl
  | cons record records ih =>
      by_cases same : record.filename = filename
      · have changed : (change record).filename = filename := by
          rw [named]
          exact same
        rw [findIdx_here same, List.modify_zero_cons,
          List.find?_cons_of_pos (by simpa using changed),
          List.find?_cons_of_pos (by simpa using same)]
        rfl
      · rw [findIdx_later same, List.modify_succ_cons,
          List.find?_cons_of_neg (by simpa using same),
          List.find?_cons_of_neg (by simpa using same), ih]

end

/-- The directory, the names and the documents of other files are kept. -/
structure Frame (filename : Filename) (s t : FileHandler) : Prop where
  storage : t.storage = s.storage
  names : t.names = s.names
  cache : ∀ other, other ≠ filename →
    t.fileCache.get other = s.fileCache.get other

section

variable {filename : Filename} {s t u : FileHandler}

theorem Frame.refl (filename : Filename) (s : FileHandler) :
    Frame filename s s :=
  ⟨rfl, rfl, fun _ _ => rfl⟩

theorem Frame.trans (first : Frame filename s t)
    (second : Frame filename t u) : Frame filename s u :=
  ⟨second.storage.trans first.storage, second.names.trans first.names,
    fun other different =>
      (second.cache other different).trans (first.cache other different)⟩

/-- The directory, the names and all documents are kept. -/
structure Silent (s t : FileHandler) : Prop where
  storage : t.storage = s.storage
  names : t.names = s.names
  cache : t.fileCache = s.fileCache

theorem Silent.refl (s : FileHandler) : Silent s s :=
  ⟨rfl, rfl, rfl⟩

theorem Silent.trans (first : Silent s t) (second : Silent t u) :
    Silent s u :=
  ⟨second.storage.trans first.storage, second.names.trans first.names,
    second.cache.trans first.cache⟩

theorem Silent.frame (silent : Silent s t) (filename : Filename) :
    Frame filename s t :=
  ⟨silent.storage, silent.names, fun _ _ => by rw [silent.cache]⟩

theorem frame_cache (file : LoadedFile) :
    Frame filename s (s.cache filename file) := by
  refine ⟨rfl, rfl, ?_⟩
  intro other different
  exact Store.get_set_of_ne s.fileCache different file

theorem frame_uncache : Frame filename s (s.uncache filename) := by
  refine ⟨rfl, rfl, ?_⟩
  intro other different
  exact Store.get_erase_of_ne s.fileCache different

theorem names_updateMetadata {change : FileMetadata → FileMetadata}
    (named : ∀ record, (change record).filename = record.filename) :
    (updateMetadata s filename change).names = s.names := by
  unfold updateMetadata FileHandler.names
  apply List.ext_getElem?
  intro position
  simp only [List.getElem?_map, List.getElem?_modify]
  cases s.metadataList[position]? with
  | none => simp
  | some record =>
      by_cases here : s.metadataList.findIdx
          (fun record => decide (record.filename = filename)) = position
      · simp [here, named]
      · simp [here]

/-- The record of the file is changed as asked. -/
theorem findMetadata_updateMetadata {change : FileMetadata → FileMetadata}
    (named : ∀ record, (change record).filename = record.filename) :
    findMetadata (updateMetadata s filename change) filename =
      (findMetadata s filename).map change :=
  find?_modifyRecord_self s.metadataList named

theorem silent_updateMetadata {change : FileMetadata → FileMetadata}
    (named : ∀ record, (change record).filename = record.filename) :
    Silent s (saveMetadataLl (updateMetadata s filename change)) :=
  ⟨rfl, names_updateMetadata named, rfl⟩

theorem silent_hasAccessLl (requiredAccess : Nat) (username : Username) :
    Silent s (hasAccessLl requiredAccess s filename username).2 := by
  obtain ⟨accessCache, checked⟩ :=
    hasAccessLl_server requiredAccess s filename username
  rw [checked]
  exact ⟨rfl, rfl, rfl⟩

theorem silent_nmAddaccess (data : DataText) (accessType : Int) :
    Silent s (nmAddaccess s filename data accessType).1 := by
  have added : Silent s (addUserAccessLl s filename
      (CString.copy 63 data.chars) accessType).1 := by
    unfold addUserAccessLl
    split
    · exact .refl s
    · exact ⟨rfl, names_updateMetadata fun _ => rfl, rfl⟩
  unfold nmAddaccess
  generalize addUserAccessLl s filename (CString.copy 63 data.chars)
    accessType = result at added ⊢
  simp only
  split
  · exact added
  · exact added

theorem silent_nmRemaccess (data : DataText) :
    Silent s (nmRemaccess s filename data).1 := by
  have removed : Silent s (removeUserAccessLl s filename
      (CString.copy 63 data.chars)).1 := by
    unfold removeUserAccessLl
    split
    · exact .refl s
    · exact ⟨rfl, names_updateMetadata fun _ => rfl, rfl⟩
  unfold nmRemaccess
  generalize removeUserAccessLl s filename (CString.copy 63 data.chars) =
    result at removed ⊢
  simp only
  split
  · exact removed
  · exact removed

theorem silent_handleTransferRequest (username : Username)
    (now : TimeText) :
    Silent s (handleTransferRequest s filename username now).1 := by
  have checked := @silent_hasAccessLl filename s 1 username
  unfold handleTransferRequest hasReadAccessLl
  generalize hasAccessLl 1 s filename username = access at checked ⊢
  obtain ⟨allowed, t⟩ := access
  simp only at checked ⊢
  split
  · exact checked
  · split
    · exact checked
    · apply checked.trans
      unfold updateFileAccessedTimeLl
      split
      · exact .refl t
      · exact silent_updateMetadata fun _ => rfl

/-- CREATEFOLDER adds at most a record. -/
theorem nmCreatefolder_cases (s : FileHandler) (target : Filename)
    (username : Username) (now : TimeText) :
    (nmCreatefolder s target username now).1.storage = s.storage ∧
      (nmCreatefolder s target username now).1.fileCache = s.fileCache ∧
      ((nmCreatefolder s target username now).1.names = s.names ∨
        target ∉ s.names ∧
          (nmCreatefolder s target username now).1.names =
            s.names ++ [target]) := by
  unfold nmCreatefolder
  split
  · exact ⟨rfl, rfl, .inl rfl⟩
  · exact ⟨rfl, rfl, .inl rfl⟩
  · simp only [addMetadataLl]
    split
    · exact ⟨rfl, rfl, .inl rfl⟩
    · rename_i unrecorded
      split
      · exact ⟨rfl, rfl, .inl rfl⟩
      · refine ⟨rfl, rfl, .inr ⟨?_, ?_⟩⟩
        · apply findMetadata_eq_none_iff.mp
          exact Option.not_isSome_iff_eq_none.mp unrecorded
        · simp [FileHandler.names, saveMetadataLl, folderMetadata]

theorem silent_disk (disk : FileSystem) : Silent s { s with disk := disk } :=
  ⟨rfl, rfl, rfl⟩

/-- MOVE changes nothing but the disk. -/
theorem nmMove_eq (s : FileHandler) (filename : Filename)
    (targetPath : PathText) :
    ∃ disk, (nmMove s filename targetPath).1 = { s with disk := disk } := by
  unfold nmMove
  simp only
  split
  · exact ⟨s.disk, rfl⟩
  · split
    · exact ⟨s.disk, rfl⟩
    · split
      · exact ⟨s.disk, rfl⟩
      · exact ⟨_, rfl⟩

theorem silent_nmMove (targetPath : PathText) :
    Silent s (nmMove s filename targetPath).1 := by
  obtain ⟨disk, moved⟩ := nmMove_eq s filename targetPath
  rw [moved]
  exact silent_disk disk

/-- CHECKPOINT changes nothing but the disk. -/
theorem nmCheckpoint_eq (s : FileHandler) (filename tag : Filename) :
    ∃ disk, (nmCheckpoint s filename tag).1 = { s with disk := disk } := by
  unfold nmCheckpoint
  simp only
  split
  · exact ⟨_, rfl⟩
  · split
    · exact ⟨_, rfl⟩
    · exact ⟨_, rfl⟩

theorem silent_nmCheckpoint (tag : Filename) :
    Silent s (nmCheckpoint s filename tag).1 := by
  obtain ⟨disk, saved⟩ := nmCheckpoint_eq s filename tag
  rw [saved]
  exact silent_disk disk

theorem silent_nmRevert (tag : Filename) (now : TimeText) :
    Silent s (nmRevert s filename tag now).1 := by
  unfold nmRevert
  simp only
  split
  · exact .refl s
  · split
    · exact .refl s
    · apply (silent_disk _).trans
      unfold updateFileModifiedTimeLl
      split
      · exact .refl _
      · exact silent_updateMetadata fun _ => rfl

theorem frame_moves (filename : Filename) :
    SessionMoves filename (Frame filename) where
  refl := .refl filename
  trans := .trans
  cache := fun _ file => frame_cache file
  uncache := fun _ => frame_uncache
  accessCache := fun _ _ => ⟨rfl, rfl, fun _ _ => rfl⟩
  folders := fun _ => (silent_disk _).frame filename
  backup := fun _ _ _ _ => (silent_disk _).frame filename
  write := fun _ _ _ _ => (silent_disk _).frame filename
  swap := fun _ _ _ => (silent_disk _).frame filename
  record := fun _ _ kept => (silent_updateMetadata fun record =>
    congrArg Prod.fst (kept record)).frame filename

theorem frame_saveUndoBackupLl :
    Frame filename s (saveUndoBackupLl s filename).1 :=
  (frame_moves filename).saveUndoBackupLl s

theorem frame_handleWriteRequest (username : Username) (sentenceIndex : Int)
    (messages : List WriteMessage) (now : TimeText) :
    Frame filename s (handleWriteRequest s filename username sentenceIndex
      messages now).1 :=
  (frame_moves filename).handleWriteRequest s username sentenceIndex messages
    now

theorem frame_handleUndoRequest :
    Frame filename s (handleUndoRequest s filename).1 :=
  (frame_moves filename).handleUndoRequest s

end

end Dfs.StorageServer
