import Dfs.Library.StepRun
import Dfs.StorageServer.RequestEffects

/-!
# The metadata records as a persistent map

`metadata_list` is an array with a count, changed by a handful of calls and
written to `metadata.txt` after each change.  Over every history of calls and
restarts the records behave as a finite map from file names: no name twice, no
more than `MAX_FILES`, every call on its own record only, and the file always
equal to the list in memory.
-/

namespace Dfs.StorageServer

/-- Records are read until the file ends or the array is full. -/
def loadMetadataLl (s : FileHandler) : FileHandler × Int :=
  match s.metadataFile with
  | none => (s, -1)
  | some records => ({ s with metadataList := records.take maxFiles }, 0)

/-- A new process on the same directory: nothing in memory, then
`load_metadata_ll`. -/
def restart (s : FileHandler) : FileHandler :=
  (loadMetadataLl
    { s with
      fileCache := Store.empty
      metadataList := []
      accessCache := fun _ => ⟨[], 0, false⟩ }).1

/-- The loop of `delete_file_ll` that moves the later records one slot down;
the last slot is given up afterwards. -/
def shiftSlots (slots : List FileMetadata) (index : Nat) :
    List FileMetadata :=
  (List.range' index (slots.length - 1 - index)).foldl
    (fun slots i =>
      match slots[i + 1]? with
      | some next => slots.set i next
      | none => slots)
    slots

/-- The slots after the loop ran from `index` for `steps` turns. -/
private theorem getElem?_shift (slots : List FileMetadata)
    (index steps : Nat) (inRange : index + steps < slots.length)
    (position : Nat) :
    ((List.range' index steps).foldl
      (fun slots i =>
        match slots[i + 1]? with
        | some next => slots.set i next
        | none => slots)
      slots)[position]? =
      if index ≤ position ∧ position < index + steps then
        slots[position + 1]?
      else slots[position]? := by
  induction steps generalizing slots index with
  | zero =>
      rw [if_neg (by omega)]
      rfl
  | succ steps ih =>
      have nextInRange : index + 1 < slots.length := by omega
      rw [List.range'_succ, List.foldl_cons,
        List.getElem?_eq_getElem nextInRange]
      simp only
      rw [ih _ _ (by simpa using by omega)]
      by_cases here : position = index
      · subst here
        simp [List.getElem?_set_self (Nat.lt_of_succ_lt nextInRange),
          List.getElem?_eq_getElem nextInRange]
      · by_cases later : index + 1 ≤ position ∧
            position < index + 1 + steps
        · rw [if_pos later, if_pos (by omega),
            List.getElem?_set_ne (by omega)]
        · rw [if_neg later, if_neg (by omega),
            List.getElem?_set_ne (by omega)]

/-- The shift takes one record out and keeps the others in order. -/
theorem dropLast_shiftSlots {slots : List FileMetadata} {index : Nat}
    (inRange : index < slots.length) :
    (shiftSlots slots index).dropLast = slots.eraseIdx index := by
  have lengths : (shiftSlots slots index).length = slots.length := by
    unfold shiftSlots
    generalize List.range' index (slots.length - 1 - index) = indices
    induction indices generalizing slots with
    | nil => rfl
    | cons i indices ih =>
        rw [List.foldl_cons]
        split
        · exact (ih (by simpa using inRange)).trans (by simp)
        · exact ih inRange
  apply List.ext_getElem?
  intro position
  rw [List.getElem?_dropLast, lengths, List.getElem?_eraseIdx]
  unfold shiftSlots
  rw [getElem?_shift slots index _ (by omega)]
  by_cases before : position < index
  · rw [if_pos (by omega), if_neg (by omega), if_pos before]
  · rw [if_neg before]
    by_cases inside : position < slots.length - 1
    · rw [if_pos inside, if_pos (by omega)]
    · rw [if_neg inside, List.getElem?_eq_none (by omega)]

section

variable {filename : Filename}

private theorem filename_ne_of_absent {record : FileMetadata}
    {records : List FileMetadata} (same : record.filename = filename)
    (absent : record.filename ∉ records.map FileMetadata.filename) :
    ∀ other ∈ records, other.filename ≠ filename := by
  intro other member equal
  apply absent
  rw [same, ← equal]
  exact List.mem_map_of_mem member

theorem eraseRecord_eq_filter {records : List FileMetadata}
    (distinct : (records.map FileMetadata.filename).Nodup) :
    records.eraseIdx (records.findIdx
        fun record => record.filename = filename) =
      records.filter fun record => !decide (record.filename = filename) := by
  induction records with
  | nil => rfl
  | cons record records ih =>
      obtain ⟨absent, rest⟩ := List.nodup_cons.mp distinct
      by_cases same : record.filename = filename
      · have kept : records.filter
            (fun record => !decide (record.filename = filename)) =
              records := by
          apply List.filter_eq_self.mpr
          intro other member
          simpa using filename_ne_of_absent same absent other member
        simp [List.findIdx_cons, same, kept]
      · simp [List.findIdx_cons, same, ih rest]

theorem modifyRecord_eq_map {records : List FileMetadata}
    (distinct : (records.map FileMetadata.filename).Nodup)
    (change : FileMetadata → FileMetadata) :
    records.modify (records.findIdx
        fun record => record.filename = filename) change =
      records.map fun record =>
        if record.filename = filename then change record else record := by
  induction records with
  | nil => rfl
  | cons record records ih =>
      obtain ⟨absent, rest⟩ := List.nodup_cons.mp distinct
      by_cases same : record.filename = filename
      · have kept : (records.map fun record =>
            if record.filename = filename then change record
            else record) = records := by
          apply (List.map_congr_left _).trans (List.map_id' records)
          intro other member
          rw [if_neg (filename_ne_of_absent same absent other member)]
        simp [List.findIdx_cons, same, kept]
      · simp [List.findIdx_cons, same, ih rest]

end

/-- The calls that change the records, and a restart of the server. -/
inductive StoreCall where
  | createFile (filename : Filename) (owner : Username) (now : TimeText)
  | addMetadata (metadata : FileMetadata)
  | deleteFile (filename : Filename)
  | updateFileWriteStats (filename : Filename) (now : TimeText)
  | updateFileAccessedTime (filename : Filename) (username : Username)
      (now : TimeText)
  | addUserAccess (filename : Filename) (username : Username)
      (accessType : Int)
  | removeUserAccess (filename : Filename) (username : Username)
  | restart
  deriving DecidableEq, Repr

def storeStep (s : FileHandler) : StoreCall → FileHandler
  | .createFile filename owner now => (createFileLl s filename owner now).1
  | .addMetadata metadata => (addMetadataLl s metadata).1
  | .deleteFile filename => (deleteFileLl s filename).1
  | .updateFileWriteStats filename now =>
      (updateFileWriteStatsLl s filename now).1
  | .updateFileAccessedTime filename username now =>
      (updateFileAccessedTimeLl s filename username now).1
  | .addUserAccess filename username accessType =>
      (addUserAccessLl s filename username accessType).1
  | .removeUserAccess filename username =>
      (removeUserAccessLl s filename username).1
  | .restart => StorageServer.restart s

/-- The file that a call opens, removes or inspects is there for it. -/
def StoreCall.IoSucceeds (s : FileHandler) : StoreCall → Prop
  | .createFile filename _ _ =>
      (s.disk.target (getFilePath s.storage filename)).isSome = true
  | .deleteFile filename =>
      (s.disk.unlink (getFilePath s.storage filename)).isSome = true
  | .updateFileWriteStats filename _ =>
      (s.disk.statSize (getFilePath s.storage filename)).isSome = true
  | _ => True

/-- The record joins at the end exactly when its name is new and there is
room. -/
def AddsRecord (record : FileMetadata) (s t : FileHandler) : Prop :=
  (record.filename ∉ s.names ∧ s.metadataList.length < maxFiles →
      t.metadataList = s.metadataList ++ [record]) ∧
    (¬ (record.filename ∉ s.names ∧ s.metadataList.length < maxFiles) →
      t = s)

/-- Only the record of this file may differ, and it keeps its name. -/
def ChangesRecord (filename : Filename) (s t : FileHandler) : Prop :=
  ∃ change : FileMetadata → FileMetadata,
    (∀ record, (change record).filename = record.filename) ∧
      t.metadataList = s.metadataList.map fun record =>
        if record.filename = filename then change record else record

/-- What a call does to the records. -/
def StoreCall.Meaning (s t : FileHandler) : StoreCall → Prop
  | .createFile filename owner now =>
      AddsRecord (newMetadata filename owner now) s t
  | .addMetadata metadata => AddsRecord metadata s t
  | .deleteFile filename =>
      t.metadataList = s.metadataList.filter
          (fun record => !decide (record.filename = filename)) ∧
        (filename ∈ s.names → t.metadataList = (shiftSlots s.metadataList
          (s.metadataList.findIdx
            fun record => record.filename = filename)).dropLast)
  | .updateFileWriteStats filename _ => ChangesRecord filename s t
  | .updateFileAccessedTime filename _ _ => ChangesRecord filename s t
  | .addUserAccess filename _ _ => ChangesRecord filename s t
  | .removeUserAccess filename _ => ChangesRecord filename s t
  | .restart => t.metadataList = s.metadataList

/-- No name twice, room for all, and the file is up to date. -/
structure StoreInvariant (s : FileHandler) : Prop where
  distinct : s.names.Nodup
  bounded : s.metadataList.length ≤ maxFiles
  saved : s.metadataFile.getD [] = s.metadataList

namespace StoreInvariant

variable {s t : FileHandler} {filename : Filename} {record : FileMetadata}

theorem of_kept (inv : StoreInvariant s)
    (list : t.metadataList = s.metadataList)
    (file : t.metadataFile = s.metadataFile) : StoreInvariant t :=
  ⟨by rw [FileHandler.names, list]; exact inv.distinct,
    by rw [list]; exact inv.bounded,
    by rw [file, list]; exact inv.saved⟩

theorem of_added (inv : StoreInvariant s)
    (absent : record.filename ∉ s.names)
    (room : s.metadataList.length < maxFiles)
    (list : t.metadataList = s.metadataList ++ [record])
    (file : t.metadataFile = some t.metadataList) : StoreInvariant t := by
  refine ⟨?_, ?_, by rw [file]; rfl⟩
  · rw [FileHandler.names, list, List.map_append]
    apply List.nodup_append.mpr
    refine ⟨inv.distinct, by simp, ?_⟩
    intro name member other single same
    rw [List.map_singleton, List.mem_singleton] at single
    exact absent (single ▸ same ▸ member)
  · rw [list, List.length_append]
    exact room

theorem of_erased (inv : StoreInvariant s)
    (list : t.metadataList = s.metadataList.filter
      fun record => !decide (record.filename = filename))
    (file : t.metadataFile = some t.metadataList) : StoreInvariant t := by
  refine ⟨?_, ?_, by rw [file]; rfl⟩
  · rw [FileHandler.names, list]
    exact inv.distinct.sublist (List.filter_sublist.map _)
  · rw [list]
    exact Nat.le_trans (List.length_filter_le _ _) inv.bounded

theorem of_changed (inv : StoreInvariant s)
    (changes : ChangesRecord filename s t)
    (file : t.metadataFile = some t.metadataList) : StoreInvariant t := by
  obtain ⟨change, named, list⟩ := changes
  refine ⟨?_, ?_, by rw [file]; rfl⟩
  · have names : t.names = s.names := by
      rw [FileHandler.names, list, List.map_map]
      apply List.map_congr_left
      intro other _
      by_cases same : other.filename = filename
      · simp [same, named]
      · simp [same]
    rw [names]
    exact inv.distinct
  · rw [list, List.length_map]
    exact inv.bounded

end StoreInvariant

section

variable {s : FileHandler} {filename : Filename}

theorem findMetadata_isSome_iff :
    (findMetadata s filename).isSome = true ↔ filename ∈ s.names := by
  rw [Option.isSome_iff_ne_none, ne_eq, findMetadata_eq_none_iff,
    not_not]

/-- An update that was saved changes one record. -/
theorem changesRecord_updateMetadata (inv : StoreInvariant s)
    {change : FileMetadata → FileMetadata}
    (named : ∀ record, (change record).filename = record.filename)
    {t : FileHandler}
    (list : t.metadataList = (updateMetadata s filename change).metadataList) :
    ChangesRecord filename s t :=
  ⟨change, named, list.trans (modifyRecord_eq_map inv.distinct change)⟩

theorem changesRecord_refl (filename : Filename) (s : FileHandler) :
    ChangesRecord filename s s := by
  refine ⟨id, fun _ => rfl, ?_⟩
  simp

/-- The state after `create_file_ll`. -/
theorem storeInvariant_createFileLl (inv : StoreInvariant s)
    (owner : Username) (now : TimeText) :
    StoreInvariant (createFileLl s filename owner now).1 ∧
      ((s.disk.target (getFilePath s.storage filename)).isSome = true →
        AddsRecord (newMetadata filename owner now) s
          (createFileLl s filename owner now).1) := by
  unfold createFileLl AddsRecord
  have named : (newMetadata filename owner now).filename = filename := rfl
  rw [named]
  by_cases present : filename ∈ s.names
  · rw [if_pos (findMetadata_isSome_iff.mpr present)]
    exact ⟨inv, fun _ => ⟨fun absent => (absent.1 present).elim,
      fun _ => rfl⟩⟩
  · rw [if_neg (fun found => present (findMetadata_isSome_iff.mp found))]
    by_cases full : s.metadataList.length ≥ maxFiles
    · rw [if_pos full]
      exact ⟨inv, fun _ => ⟨fun room => absurd room.2 (by omega),
        fun _ => rfl⟩⟩
    · rw [if_neg full]
      cases opens : s.disk.target (getFilePath s.storage filename) with
      | some place =>
          rw [FileSystem.write_of_target opens]
          refine ⟨?_, fun _ => ⟨fun _ => rfl, fun blocked => ?_⟩⟩
          · exact @StoreInvariant.of_added s _
              (newMetadata filename owner now) inv present (by omega) rfl rfl
          · exact (blocked ⟨present, by omega⟩).elim
      | none =>
          rw [FileSystem.write_eq_none opens]
          exact ⟨inv, fun opened => by cases opened⟩

theorem storeInvariant_addMetadataLl (inv : StoreInvariant s)
    (metadata : FileMetadata) :
    StoreInvariant (addMetadataLl s metadata).1 ∧
      AddsRecord metadata s (addMetadataLl s metadata).1 := by
  unfold addMetadataLl AddsRecord
  by_cases present : metadata.filename ∈ s.names
  · rw [if_pos (findMetadata_isSome_iff.mpr present)]
    exact ⟨inv, fun absent => (absent.1 present).elim, fun _ => rfl⟩
  · rw [if_neg (fun found => present (findMetadata_isSome_iff.mp found))]
    by_cases full : s.metadataList.length ≥ maxFiles
    · rw [if_pos full]
      exact ⟨inv, fun room => absurd room.2 (by omega), fun _ => rfl⟩
    · rw [if_neg full]
      refine ⟨?_, fun _ => rfl, fun blocked => ?_⟩
      · exact inv.of_added present (by omega) rfl rfl
      · exact (blocked ⟨present, by omega⟩).elim

theorem metadata_markForDeletion :
    (markForDeletion s filename).metadataList = s.metadataList ∧
      (markForDeletion s filename).metadataFile = s.metadataFile ∧
      (markForDeletion s filename).disk = s.disk ∧
      (markForDeletion s filename).storage = s.storage := by
  unfold markForDeletion
  split
  · exact ⟨rfl, rfl, rfl, rfl⟩
  · split
    · exact ⟨rfl, rfl, rfl, rfl⟩
    · exact ⟨rfl, rfl, rfl, rfl⟩

theorem storeInvariant_deleteFileLl (inv : StoreInvariant s) :
    StoreInvariant (deleteFileLl s filename).1 ∧
      ((s.disk.unlink (getFilePath s.storage filename)).isSome = true →
        StoreCall.Meaning s (deleteFileLl s filename).1
          (.deleteFile filename)) := by
  obtain ⟨list, file, disk, storage⟩ := @metadata_markForDeletion s filename
  unfold deleteFileLl
  cases found : findMetadata s filename with
  | none =>
      have absent := findMetadata_eq_none_iff.mp found
      refine ⟨inv, fun _ => ⟨?_, fun present => (absent present).elim⟩⟩
      symm
      apply List.filter_eq_self.mpr
      intro record member
      have different : record.filename ≠ filename := by
        intro same
        exact absent (same ▸ List.mem_map_of_mem member)
      simpa using different
  | some record =>
      have present : filename ∈ s.names := by
        apply findMetadata_isSome_iff.mp
        rw [found]
        rfl
      simp only [disk, storage]
      cases unlinked : s.disk.unlink (getFilePath s.storage filename) with
      | none => exact ⟨inv.of_kept list file, by simp⟩
      | some left =>
          have erased := @eraseRecord_eq_filter filename s.metadataList
            inv.distinct
          have inRange : s.metadataList.findIdx
              (fun record => record.filename = filename) <
                s.metadataList.length := by
            obtain ⟨kept, member, named⟩ := List.mem_map.mp present
            exact List.findIdx_lt_length_of_exists
              ⟨kept, member, by simpa using named⟩
          have shifted := dropLast_shiftSlots inRange
          simp only [saveMetadataLl, list]
          refine ⟨?_, fun _ => ⟨erased, fun _ => shifted.symm⟩⟩
          exact inv.of_erased erased rfl

/-- The calls that update one record, with and without a record to update. -/
theorem storeInvariant_update (inv : StoreInvariant s)
    {call : StoreCall}
    (effect : storeStep s call = s ∨
      ∃ change : FileMetadata → FileMetadata,
        (storeStep s call).metadataList =
            (updateMetadata s filename change).metadataList ∧
          (∀ record, (change record).filename = record.filename) ∧
          (storeStep s call).metadataFile =
            some (storeStep s call).metadataList) :
    StoreInvariant (storeStep s call) ∧
      ChangesRecord filename s (storeStep s call) := by
  rcases effect with same | ⟨change, list, named, file⟩
  · rw [same]
    exact ⟨inv, changesRecord_refl filename s⟩
  · have changes := changesRecord_updateMetadata inv named list
    exact ⟨inv.of_changed changes file, changes⟩

theorem storeInvariant_restart (inv : StoreInvariant s) :
    StoreInvariant (restart s) ∧
      (restart s).metadataList = s.metadataList := by
  have same : (restart s).metadataList = s.metadataList ∧
      (restart s).metadataFile = s.metadataFile := by
    have saved := inv.saved
    cases file : s.metadataFile with
    | none =>
        rw [file] at saved
        simp only [restart, loadMetadataLl, file]
        exact ⟨saved, trivial⟩
    | some records =>
        rw [file] at saved
        have read : records = s.metadataList := saved
        simp only [restart, loadMetadataLl, file, read]
        exact ⟨List.take_of_length_le inv.bounded, trivial⟩
  exact ⟨inv.of_kept same.1 same.2, same.1⟩

/-- One call keeps the invariant, and means what it should when its file
operations succeed. -/
theorem storeInvariant_step (inv : StoreInvariant s) (call : StoreCall) :
    StoreInvariant (storeStep s call) ∧
      (call.IoSucceeds s → call.Meaning s (storeStep s call)) := by
  cases call with
  | createFile filename owner now =>
      exact storeInvariant_createFileLl inv owner now
  | addMetadata metadata =>
      obtain ⟨kept, adds⟩ := storeInvariant_addMetadataLl inv metadata
      exact ⟨kept, fun _ => adds⟩
  | deleteFile filename => exact storeInvariant_deleteFileLl inv
  | updateFileWriteStats filename now =>
      have both := @storeInvariant_update s filename inv
        (.updateFileWriteStats filename now) (by
          simp only [storeStep, updateFileWriteStatsLl]
          split
          · exact .inl rfl
          · exact .inl rfl
          · exact .inr ⟨_, rfl, fun _ => rfl, rfl⟩)
      exact ⟨both.1, fun _ => both.2⟩
  | updateFileAccessedTime filename username now =>
      have both := @storeInvariant_update s filename inv
        (.updateFileAccessedTime filename username now) (by
          simp only [storeStep, updateFileAccessedTimeLl]
          split
          · exact .inl rfl
          · exact .inr ⟨_, rfl, fun _ => rfl, rfl⟩)
      exact ⟨both.1, fun _ => both.2⟩
  | addUserAccess filename username accessType =>
      have both := @storeInvariant_update s filename inv
        (.addUserAccess filename username accessType) (by
          simp only [storeStep, addUserAccessLl]
          split
          · exact .inl rfl
          · exact .inr ⟨_, rfl, fun _ => rfl, rfl⟩)
      exact ⟨both.1, fun _ => both.2⟩
  | removeUserAccess filename username =>
      have both := @storeInvariant_update s filename inv
        (.removeUserAccess filename username) (by
          simp only [storeStep, removeUserAccessLl]
          split
          · exact .inl rfl
          · exact .inr ⟨_, rfl, fun _ => rfl, rfl⟩)
      exact ⟨both.1, fun _ => both.2⟩
  | restart =>
      obtain ⟨kept, same⟩ := storeInvariant_restart inv
      exact ⟨kept, fun _ => same⟩

end

/-- Over every history of calls and restarts the records are a finite map, and
the next call changes it as it should. -/
theorem metadata_store {start : FileHandler}
    (unlisted : start.metadataList = []) (unsaved : start.metadataFile = none)
    (calls : List StoreCall) :
    let s := StepRun.run storeStep start calls
    (s.metadataList.map FileMetadata.filename).Nodup ∧
      s.metadataList.length ≤ maxFiles ∧
      (restart s).metadataList = s.metadataList ∧
      ∀ call : StoreCall, call.IoSucceeds s →
        call.Meaning s (storeStep s call) := by
  have initially : StoreInvariant start := by
    refine ⟨?_, ?_, ?_⟩
    · rw [FileHandler.names, unlisted]
      exact List.nodup_nil
    · rw [unlisted]
      exact Nat.zero_le _
    · rw [unsaved, unlisted]
      rfl
  have inv : StoreInvariant (StepRun.run storeStep start calls) := by
    apply @StepRun.invariant _ _ storeStep (fun _ _ => True) StoreInvariant
      _ start calls initially
    · exact StepRun.allSteps_of_forall (fun _ _ => trivial) start calls
    · exact fun s call holds _ => (storeInvariant_step holds call).1
  exact ⟨inv.distinct, inv.bounded, (storeInvariant_restart inv).2,
    fun call => (storeInvariant_step inv call).2⟩

private def ledgerName : Filename := CString.copy 255 "ledger".toList

private def ledgerOwner : Username := CString.copy 63 "ann".toList

private def ledgerTime : TimeText := CString.copy 63 "2025-01-01".toList

/-- A record that was created is there after a restart. -/
theorem metadata_store_restarted :
    let calls : List StoreCall :=
      [.createFile ledgerName ledgerOwner ledgerTime, .restart]
    let s := StepRun.run storeStep freshServer calls
    (s.metadataList.map FileMetadata.filename).Nodup ∧
      s.metadataList = [newMetadata ledgerName ledgerOwner ledgerTime] ∧
      (storeStep s (.deleteFile ledgerName)).metadataList = [] := by
  have holds := @metadata_store freshServer rfl rfl
    [.createFile ledgerName ledgerOwner ledgerTime, .restart]
  refine ⟨holds.1, by decide +kernel, ?_⟩
  have onDisk : StoreCall.IoSucceeds (StepRun.run storeStep freshServer
      [.createFile ledgerName ledgerOwner ledgerTime, .restart])
      (.deleteFile ledgerName) := by
    show Option.isSome _ = true
    decide +kernel
  have deleted := holds.2.2.2 (.deleteFile ledgerName) onDisk
  rw [deleted.1]
  decide +kernel

/-- One turn of the loop of `get_file_list_ll`: a comma after the first turn,
then name, colon and owner, each into what is left of the buffer. -/
def appendFileEntry (maxSize : Nat) (fileList : Text) (first : Bool)
    (record : FileMetadata) : Text :=
  let fileList :=
    if first then fileList
    else CText.strncat fileList [','] (maxSize - fileList.length - 1)
  let fileList := CText.strncat fileList record.filename.chars
    (maxSize - fileList.length - 1)
  let fileList := CText.strncat fileList [':'] (maxSize - fileList.length - 1)
  CText.strncat fileList record.owner.chars (maxSize - fileList.length - 1)

def getFileListLl (records : List FileMetadata) (maxSize : Nat) : Text :=
  (records.foldl
    (fun (fileList, first) record =>
      (appendFileEntry maxSize fileList first record, false))
    ([], true)).1

/-- `filename:owner`. -/
def fileEntry (record : FileMetadata) : Text :=
  record.filename.chars ++ ':' :: record.owner.chars

/-- The catalogue in full, whatever its size. -/
def fileCatalogue (records : List FileMetadata) : Text :=
  [','].intercalate (records.map fileEntry)

theorem appendFileEntry_eq_take {limit : Nat} {written : Text}
    (first : Bool) (record : FileMetadata) :
    appendFileEntry (limit + 1) (written.take limit) first record =
      ((written ++ if first then [] else [',']) ++
        fileEntry record).take limit := by
  have comma : CText.nul ∉ [','] := by decide
  have colon : CText.nul ∉ [':'] := by decide
  have room : ∀ length, limit + 1 - length - 1 = limit - length := by omega
  unfold appendFileEntry fileEntry
  simp only [room]
  cases first with
  | true =>
      simp only [↓reduceIte, CText.strncat_eq_take record.filename.nulFree,
        CText.strncat_eq_take colon,
        CText.strncat_eq_take record.owner.nulFree]
      simp
  | false =>
      simp only [Bool.false_eq_true, ↓reduceIte, CText.strncat_eq_take comma,
        CText.strncat_eq_take record.filename.nulFree,
        CText.strncat_eq_take colon,
        CText.strncat_eq_take record.owner.nulFree]
      simp

theorem fileCatalogue_cons (record : FileMetadata)
    (records : List FileMetadata) :
    fileCatalogue (record :: records) =
      fileEntry record ++ records.flatMap fun record =>
        ',' :: fileEntry record := by
  induction records generalizing record with
  | nil => simp [fileCatalogue]
  | cons next records ih =>
      have tail := ih next
      unfold fileCatalogue at tail ⊢
      rw [List.map_cons, List.intercalate_cons_of_ne_nil (by simp), tail]
      simp

private theorem foldl_appendFileEntry {limit : Nat}
    (records : List FileMetadata) (written : Text) :
    (records.foldl
      (fun (fileList, first) record =>
        (appendFileEntry (limit + 1) fileList first record, false))
      (written.take limit, false)).1 =
      (written ++ records.flatMap fun record =>
        ',' :: fileEntry record).take limit := by
  induction records generalizing written with
  | nil => simp
  | cons record records ih =>
      rw [List.foldl_cons]
      simp only
      rw [appendFileEntry_eq_take false record, ih]
      simp

/-- The list sent is the catalogue, cut at the size of the buffer. -/
theorem getFileListLl_eq_take (records : List FileMetadata) (limit : Nat) :
    getFileListLl records (limit + 1) =
      (fileCatalogue records).take limit := by
  cases records with
  | nil => simp [getFileListLl, fileCatalogue]
  | cons record records =>
      have start := @appendFileEntry_eq_take limit [] true record
      simp only [List.take_nil, ↓reduceIte, List.append_nil,
        List.nil_append] at start
      unfold getFileListLl
      rw [List.foldl_cons]
      simp only
      rw [start, foldl_appendFileEntry, fileCatalogue_cons]

theorem nul_not_mem_fileEntry (record : FileMetadata) :
    CText.nul ∉ fileEntry record := by
  have colon : CText.nul ≠ ':' := by decide
  simp [fileEntry, record.filename.nulFree, record.owner.nulFree, colon]

/-- The list fits the data field of a message. -/
theorem copy_getFileListLl (records : List FileMetadata) (limit : Nat) :
    (CString.copy limit (getFileListLl records (limit + 1))).chars =
      getFileListLl records (limit + 1) := by
  have nulFree : CText.nul ∉ fileCatalogue records := by
    cases records with
    | nil => simp [fileCatalogue]
    | cons record records =>
        have comma : CText.nul ≠ ',' := by decide
        rw [fileCatalogue_cons]
        simp [nul_not_mem_fileEntry, comma]
  have cutFree : CText.nul ∉ (fileCatalogue records).take limit :=
    fun member => nulFree (List.mem_of_mem_take member)
  have short : ((fileCatalogue records).take limit).length ≤ limit :=
    List.length_take_le _ _
  rw [getFileListLl_eq_take]
  simp only [CString.copy, CText.terminated_eq_self cutFree,
    List.take_of_length_le short]

theorem length_fileCatalogue (record : FileMetadata)
    (records : List FileMetadata) :
    (fileCatalogue (record :: records)).length =
      (fileEntry record).length +
        records.foldr (fun record rest => (fileEntry record).length + 1 + rest)
          0 := by
  rw [fileCatalogue_cons, List.length_append]
  congr 1
  induction records with
  | nil => rfl
  | cons record records ih =>
      rw [List.flatMap_cons, List.length_append, ih, List.foldr_cons]
      rfl

end Dfs.StorageServer
