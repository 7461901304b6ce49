import Dfs.Library.StepRun
import Dfs.NameServer.FileLists
import Dfs.NameServer.ForwardedRequests
import Dfs.NameServer.Placement
import Dfs.StorageServer.DiskFrames
import Dfs.StorageServer.RequestEffects

/-!
# The files of the two servers

With one storage server the file list of the name server and the records of
the storage server are two copies of one table.  CREATE and DELETE change
both.  CREATEFOLDER changes the list even when the storage server refuses, and
MOVE never changes the records.
-/

namespace Dfs.NameServer

open Dfs.StorageServer

/-- The only registered server. -/
structure OnlyServer (nm : NameServerState) (ss : StorageServerInfo) :
    Prop where
  servers : nm.storageServers = [ss]
  online : ss.status = .online
  placed : Placed nm

namespace OnlyServer

variable {nm : NameServerState} {ss : StorageServerInfo}
  {filename : Filename}

theorem getElem?_zero (only : OnlyServer nm ss) :
    nm.storageServers[0]? = some ss := by
  simp [only.servers]

theorem serverFiles_zero (only : OnlyServer nm ss) :
    serverFiles nm 0 = liveFiles ss :=
  serverFiles_of_getElem? only.getElem?_zero

theorem findStorageServer_self (only : OnlyServer nm ss) :
    findStorageServer nm ss.ssId = some 0 := by
  simp [findStorageServer, only.servers, List.findIdx?_cons]

theorem onlineServer_self (only : OnlyServer nm ss) :
    onlineServer nm ss.ssId = some 0 := by
  simp [onlineServer, only.findStorageServer_self, isOnline, only.servers,
    only.online]

theorem pointed (only : OnlyServer nm ss) {file : FilePtr}
    (member : file ∈ nm.fileIndex.stack hashFilename filename) :
    file.server = 0 ∧ (ss.files file.slot).ssId = ss.ssId := by
  obtain ⟨owner, located, owned⟩ := only.placed.pointed filename file member
  rw [only.servers] at located
  have first : file.server = 0 := by
    have bound := (List.getElem?_eq_some_iff.mp located).1
    simpa using bound
  rw [first, List.getElem?_cons_zero] at located
  cases located
  exact ⟨first, owned⟩

theorem isSome_findFile_iff (only : OnlyServer nm ss) :
    (findFile nm filename).isSome ↔
      filename ∈ (liveFiles ss).map (·.filename) := by
  have counted := only.placed.counted filename 0
  rw [only.serverFiles_zero] at counted
  rw [← List.count_pos_iff, ← counted, List.countP_pos_iff, findFile,
    hashFindFile, ChainedIndex.find_eq_head?, List.isSome_head?]
  constructor
  · intro inhabited
    obtain ⟨file, member⟩ := List.exists_mem_of_ne_nil _ inhabited
    exact ⟨file, member, by simp [(only.pointed member).1]⟩
  · rintro ⟨file, member, -⟩
    exact List.ne_nil_of_mem member

/-- A record that the index leads to belongs to the server. -/
theorem ssId_of_findRecord (only : OnlyServer nm ss) {file : FileInfo}
    (found : findRecord nm filename = some file) : file.ssId = ss.ssId := by
  obtain ⟨pointer, indexed, rfl⟩ := Option.map_eq_some_iff.mp found
  rw [findFile, hashFindFile, ChainedIndex.find_eq_head?] at indexed
  obtain ⟨server, owned⟩ := only.pointed (List.mem_of_head? indexed)
  rw [readFile, server, only.getElem?_zero]
  exact owned

theorem appendFile (only : OnlyServer nm ss) {file : FileInfo}
    (owned : file.ssId = ss.ssId) :
    ∃ ss', OnlyServer (appendFile nm 0 file) ss' ∧ ss'.ssId = ss.ssId ∧
      liveFiles ss' = liveFiles ss ++ [file] := by
  refine ⟨{ ss with
    files := Function.update ss.files ss.fileCount file
    fileCount := ss.fileCount + 1 }, ⟨?_, only.online,
    only.placed.appendFile only.getElem?_zero owned⟩, rfl,
    liveFiles_fill file⟩
  simp [NameServer.appendFile, only.servers, modifyServer, hashInsertFile]

theorem dropSlot (only : OnlyServer nm ss) {slot : Nat}
    (inSlot : findSlot ss filename = some slot) :
    OnlyServer (dropSlot nm filename 0 slot) (shiftFiles ss slot) := by
  refine ⟨?_, only.online,
    only.placed.dropSlot only.getElem?_zero inSlot ?_⟩
  · simp [NameServer.dropSlot, only.servers, modifyServer, hashRemoveFile]
  · intro file indexed
    rw [findFile, hashFindFile, ChainedIndex.find_eq_head?] at indexed
    exact (only.pointed (List.mem_of_head? indexed)).1

/-- An addition fails on a full list or a name it has; otherwise the list has
one more file at its end. -/
theorem addFile (only : OnlyServer nm ss) (now : Int) (filename : Filename)
    (owner : Username) :
    ((addFileToServer now nm ss.ssId filename owner).2 ≠ errSuccess ∧
      (addFileToServer now nm ss.ssId filename owner).1 = nm ∧
      (ss.fileCount < maxFilesPerServer →
        filename ∈ (liveFiles ss).map (·.filename))) ∨
    ((addFileToServer now nm ss.ssId filename owner).2 = errSuccess ∧
      ss.fileCount < maxFilesPerServer ∧
      ∃ ss', OnlyServer (addFileToServer now nm ss.ssId filename owner).1
          ss' ∧ ss'.ssId = ss.ssId ∧
        liveFiles ss' =
          liveFiles ss ++ [⟨filename, owner, ss.ssId, now, now⟩]) := by
  rcases addFileToServer_cases now nm ss.ssId filename owner with
    ⟨result, failed, refused, reason⟩ | ⟨server, other, known, found, room,
      -, added⟩
  · rw [refused]
    exact .inl ⟨failed, rfl,
      reason 0 ss only.findStorageServer_self only.getElem?_zero⟩
  · cases only.findStorageServer_self.symm.trans known
    cases only.getElem?_zero.symm.trans found
    rw [added]
    exact .inr ⟨rfl, room, only.appendFile rfl⟩

/-- A removal erases the first record of the name, if there is one. -/
theorem removeFile (only : OnlyServer nm ss) (filename : Filename) :
    ∃ ss', OnlyServer (removeFileFromServer nm ss.ssId filename).1 ss' ∧
      ss'.ssId = ss.ssId ∧
      liveFiles ss' =
        (liveFiles ss).eraseP fun file => file.filename = filename := by
  rcases removeFileFromServer_cases nm ss.ssId filename with
    ⟨result, -, unchanged, absent⟩ | ⟨server, other, slot, known, found,
      inSlot, dropped⟩
  · refine ⟨ss, by rwa [unchanged], rfl, ?_⟩
    have unlisted := absent 0 only.findStorageServer_self
    rw [only.serverFiles_zero] at unlisted
    refine (List.eraseP_of_forall_not fun file member named => ?_).symm
    exact unlisted (List.mem_map.mpr ⟨file, member, by simpa using named⟩)
  · cases only.findStorageServer_self.symm.trans known
    cases only.getElem?_zero.symm.trans found
    rw [dropped]
    exact ⟨shiftFiles ss slot, only.dropSlot inSlot, rfl,
      liveFiles_erased inSlot⟩

end OnlyServer

section

variable {s : FileHandler} {filename : Filename}

/-- Of a name it does not know, CREATE adds a record or reports a failure. -/
theorem records_nmCreateFile (username : Username) (now : TimeText)
    (unknown : filename ∉ s.names) (room : s.metadataList.length < maxFiles) :
    ((nmCreateFile s filename username now).2.errorCode = errSuccess ∧
      (nmCreateFile s filename username now).1.metadataList =
        s.metadataList ++ [newMetadata filename username now]) ∨
    ((nmCreateFile s filename username now).2.errorCode ≠ errSuccess ∧
      (nmCreateFile s filename username now).1.metadataList =
        s.metadataList) := by
  have unrecorded := findMetadata_eq_none_iff.mpr unknown
  have space : ¬s.metadataList.length ≥ maxFiles := Nat.not_le_of_lt room
  have failed : errServerError ≠ errSuccess := by decide
  have code : (-1 : Int) ≠ errFileExists := by decide
  unfold nmCreateFile createFileLl
  cases s.disk.write (getFilePath s.storage filename) [] with
  | none =>
      refine .inr ?_
      simpa [unrecorded, space, nmResponse, code] using failed
  | some disk =>
      refine .inl ?_
      simp only [unrecorded, Option.isSome_none, Bool.false_eq_true, space,
        ↓reduceIte, Int.lt_irrefl]
      exact ⟨rfl, records_saveUndoBackupLl⟩

/-- A DELETE that is acknowledged leaves no record of the name. -/
theorem records_nmDeleteFile :
    ((nmDeleteFile s filename).2.errorCode = errSuccess ∧
      (nmDeleteFile s filename).1.metadataList =
        s.metadataList.eraseP fun record => record.filename = filename) ∨
    ((nmDeleteFile s filename).2.errorCode ≠ errSuccess ∧
      (nmDeleteFile s filename).1.metadataList = s.metadataList) := by
  have failed : errFileNotFound ≠ errSuccess := by decide
  have accepted : ¬errFileNotFound < 0 := by decide
  obtain ⟨fileCache, marked⟩ := markForDeletion_eq s filename
  unfold nmDeleteFile deleteFileLl
  rw [marked]
  cases recorded : findMetadata s filename with
  | none =>
      refine .inl ⟨by simp [accepted, nmResponse], ?_⟩
      have absent := List.find?_eq_none.mp recorded
      exact (List.eraseP_of_forall_not absent).symm
  | some metadata =>
      cases stored : s.disk.unlink (getFilePath s.storage filename) with
      | none =>
          refine .inr ?_
          simpa [stored, nmResponse] using failed
      | some disk =>
          refine .inl ⟨by simp [stored, nmResponse], ?_⟩
          have named : metadata.filename = filename := by
            simpa using List.find?_some recorded
          have found : s.metadataList.findIdx?
              (fun record => record.filename = filename) =
              some (s.metadataList.findIdx
                fun record => record.filename = filename) := by
            rw [List.findIdx?_eq_some_iff_findIdx_eq]
            refine ⟨List.findIdx_lt_length_of_exists ?_, rfl⟩
            exact ⟨metadata, List.mem_of_find?_eq_some recorded,
              by simpa using named⟩
          rw [List.eraseP_eq_eraseIdx, found]
          simp [stored, saveMetadataLl]

/-- CREATEFOLDER adds a record when it creates the folder. -/
theorem records_nmCreatefolder (username : Username) (now : TimeText)
    (unknown : filename ∉ s.names) :
    (nmCreatefolder s filename username now).1.metadataList =
      if (s.disk.mkdir (getFilePath s.storage filename)).toBool = true ∧
          s.metadataList.length < maxFiles then
        s.metadataList ++ [folderMetadata filename username now]
      else s.metadataList := by
  have unrecorded : ∀ disk, findMetadata { s with disk := disk } filename =
      none := fun _ => findMetadata_eq_none_iff.mpr unknown
  unfold nmCreatefolder addMetadataLl
  cases s.disk.mkdir (getFilePath s.storage filename) with
  | error reason => cases reason <;> simp [Except.toBool]
  | ok disk =>
      by_cases full : maxFiles ≤ s.metadataList.length
      · simp [folderMetadata, unrecorded, full, Nat.not_lt_of_le full]
      · simp [folderMetadata, unrecorded, full, Nat.lt_of_not_le full,
          saveMetadataLl, Except.toBool]

theorem records_nmMove (targetPath : PathText) :
    (nmMove s filename targetPath).1.metadataList = s.metadataList := by
  obtain ⟨disk, moved⟩ := nmMove_eq s filename targetPath
  rw [moved]

end

/-- What the two tables have in common about a file. -/
def fileEntry (file : FileInfo) : Filename × Username :=
  (file.filename, file.owner)

def recordEntry (record : FileMetadata) : Filename × Username :=
  (record.filename, record.owner)

/-- The list of the name server and the records of the storage server have the
same names and owners. -/
def SameFiles (sys : System) : Prop :=
  ∀ entry, entry ∈ (serverFiles sys.nm.toNameServerState 0).map fileEntry ↔
    entry ∈ (sys.stores 0).metadataList.map recordEntry

/-- The two tables are permutations of each other, without a name twice. -/
structure Synced (sys : System) (ss : StorageServerInfo) : Prop where
  only : OnlyServer sys.nm.toNameServerState ss
  same : ((liveFiles ss).map fileEntry).Perm
    ((sys.stores 0).metadataList.map recordEntry)
  distinct : ((liveFiles ss).map (·.filename)).Nodup

namespace Synced

variable {sys : System} {ss : StorageServerInfo} {filename : Filename}
  {username : Username} {context : NmContext} {now : Int}

theorem sameFiles (synced : Synced sys ss) : SameFiles sys := by
  intro entry
  rw [synced.only.serverFiles_zero]
  exact synced.same.mem_iff

theorem names (synced : Synced sys ss) :
    ((liveFiles ss).map (·.filename)).Perm (sys.stores 0).names := by
  have names := synced.same.map Prod.fst
  simpa [FileHandler.names, fileEntry, recordEntry, Function.comp_def] using
    names

theorem length_records (synced : Synced sys ss) :
    (sys.stores 0).metadataList.length = ss.fileCount := by
  have lengths := synced.same.length_eq
  simpa using lengths.symm

theorem keep (synced : Synced sys ss) {other : System}
    {ss' : StorageServerInfo}
    (only : OnlyServer other.nm.toNameServerState ss')
    (listed : liveFiles ss' = liveFiles ss)
    (recorded : (other.stores 0).metadataList =
      (sys.stores 0).metadataList) : Synced other ss' :=
  ⟨only, by rw [listed, recorded]; exact synced.same,
    by rw [listed]; exact synced.distinct⟩

theorem congr (synced : Synced sys ss) {other : System}
    (files : other.nm.toNameServerState = sys.nm.toNameServerState)
    (recorded : (other.stores 0).metadataList =
      (sys.stores 0).metadataList) : Synced other ss :=
  synced.keep (files ▸ synced.only) rfl recorded

/-- A file that both servers add. -/
theorem add (synced : Synced sys ss) {other : System}
    {ss' : StorageServerInfo} {file : FileInfo} {record : FileMetadata}
    (only : OnlyServer other.nm.toNameServerState ss')
    (listed : liveFiles ss' = liveFiles ss ++ [file])
    (recorded : (other.stores 0).metadataList =
      (sys.stores 0).metadataList ++ [record])
    (entry : fileEntry file = recordEntry record)
    (new : file.filename ∉ (liveFiles ss).map (·.filename)) :
    Synced other ss' := by
  refine ⟨only, ?_, ?_⟩
  · rw [listed, recorded, List.map_append, List.map_append, List.map_cons,
      List.map_cons, entry]
    exact synced.same.append_right _
  · rw [listed, List.map_append]
    exact nodup_concat synced.distinct new

/-- A name that both servers erase. -/
theorem erase (synced : Synced sys ss) {other : System}
    {ss' : StorageServerInfo}
    (only : OnlyServer other.nm.toNameServerState ss')
    (listed : liveFiles ss' =
      (liveFiles ss).eraseP fun file => file.filename = filename)
    (recorded : (other.stores 0).metadataList =
      (sys.stores 0).metadataList.eraseP
        fun record => record.filename = filename) :
    Synced other ss' := by
  refine ⟨only, ?_, ?_⟩
  · have distinct : ((liveFiles ss).map fileEntry).Pairwise fun left right =>
        decide (left.1 = filename) = true →
          decide (right.1 = filename) = true → False := by
      have pairwise := synced.distinct
      rw [List.nodup_iff_pairwise_ne, List.pairwise_map] at pairwise
      rw [List.pairwise_map]
      refine pairwise.imp fun different first second => different ?_
      exact (of_decide_eq_true first).trans (of_decide_eq_true second).symm
    have erased := synced.same.eraseP
      (fun entry => decide (entry.1 = filename)) distinct
    rw [List.eraseP_map, List.eraseP_map] at erased
    rw [listed, recorded]
    exact erased
  · rw [listed, names_eraseP]
    exact synced.distinct.erase filename

/-- The round robin always ends at the only server. -/
theorem available (synced : Synced sys ss) :
    (getAvailableStorageServer sys.nm).2 = ss.ssId := by
  have online := synced.only.online
  simp [getAvailableStorageServer, synced.only.servers, isOnline, online,
    Nat.mod_one]

theorem create (synced : Synced sys ss) :
    ∃ ss', Synced (handleCreateFile sys context now .reliable filename
      username).1 ss' := by
  obtain ⟨files, -⟩ := getAvailableStorageServer_records sys.nm
  unfold handleCreateFile
  split
  · exact ⟨ss, synced⟩
  · rename_i unknown
    have unlisted : filename ∉ (liveFiles ss).map (·.filename) :=
      fun member => unknown (synced.only.isSome_findFile_iff.mpr member)
    simp only [synced.available]
    split
    · exact ⟨ss, synced.congr files rfl⟩
    · simp only [System.addFile, files]
      rcases synced.only.addFile now filename username with
        ⟨failed, unchanged, -⟩ | ⟨added, room, ss', only, ssId, listed⟩
      · rw [if_pos failed]
        exact ⟨ss, synced.congr unchanged rfl⟩
      · rw [if_neg (not_not.mpr added)]
        have located := only.findStorageServer_self
        rw [ssId] at located
        simp only [located, System.exchange, System.deliver,
          handleNmConnection]
        have unrecorded : filename ∉ (sys.stores 0).names :=
          fun member => unlisted (synced.names.mem_iff.mpr member)
        have space : (sys.stores 0).metadataList.length < maxFiles := by
          rw [synced.length_records]
          exact room
        rcases records_nmCreateFile username context.now unrecorded space with
          ⟨success, recorded⟩ | ⟨failure, unchanged⟩
        · rw [if_pos success]
          exact ⟨ss', synced.add only listed (by simpa using recorded) rfl
            unlisted⟩
        · rw [if_neg failure]
          obtain ⟨ss'', again, -, erased⟩ := only.removeFile filename
          rw [ssId] at again
          rw [listed] at erased
          have restored := erased.trans (eraseP_concat rfl unlisted)
          refine ⟨ss'', synced.keep again restored ?_⟩
          simpa [System.removeFile] using unchanged

theorem delete (synced : Synced sys ss) :
    ∃ ss', Synced (handleDeleteFile sys context .reliable filename
      username).1 ss' := by
  unfold handleDeleteFile
  split
  · exact ⟨ss, synced⟩
  · rename_i file found
    split
    · exact ⟨ss, synced⟩
    · simp only [synced.only.ssId_of_findRecord found,
        synced.only.findStorageServer_self, System.exchange, System.deliver,
        handleNmConnection]
      rcases @records_nmDeleteFile (sys.stores 0) filename with
        ⟨success, erased⟩ | ⟨failure, unchanged⟩
      · rw [if_pos success]
        obtain ⟨ss', only, -, listed⟩ := synced.only.removeFile filename
        refine ⟨ss', synced.erase only listed ?_⟩
        simpa [System.removeFile, System.invalidate] using erased
      · rw [if_neg failure]
        exact ⟨ss, synced.congr rfl (by simpa using unchanged)⟩

/-- CREATEFOLDER of an unknown name goes to both servers. -/
theorem createfolder_eq (synced : Synced sys ss)
    (unknown : (findFile sys.nm.toNameServerState filename).isSome = false)
    (found : ¬ss.ssId < 0) :
    (handleCreatefolder sys context now .reliable filename username).1 =
      ((({ sys with nm := (getAvailableStorageServer sys.nm).1 } :
        System).deliver context 0 (.createfolder filename username)).addFile
          now ss.ssId filename username).1 := by
  obtain ⟨files, -⟩ := getAvailableStorageServer_records sys.nm
  have online := synced.only.onlineServer_self
  rw [← files] at online
  have forwarded := @forward_of_reliable
    { sys with nm := (getAvailableStorageServer sys.nm).1 } context
    (.createfolder filename username) 0 opCreatefolder ss.ssId
  simp only [ForwardedRequest.nmRequest] at forwarded
  simp only [handleCreatefolder, unknown, Bool.false_eq_true, ↓reduceIte,
    synced.available, found, forwarded online]

/-- What CREATEFOLDER of an unknown name leaves in the two tables. -/
theorem tables_createfolder (synced : Synced sys ss)
    (unknown : (findFile sys.nm.toNameServerState filename).isSome = false)
    (found : ¬ss.ssId < 0) :
    (handleCreatefolder sys context now .reliable filename
        username).1.nm.toNameServerState =
      (addFileToServer now sys.nm.toNameServerState ss.ssId filename
        username).1 ∧
    ((handleCreatefolder sys context now .reliable filename
        username).1.stores 0).metadataList =
      (nmCreatefolder (sys.stores 0) filename username
        context.now).1.metadataList := by
  obtain ⟨files, -⟩ := getAvailableStorageServer_records sys.nm
  rw [synced.createfolder_eq unknown found]
  constructor
  · simp [System.addFile, System.deliver, files]
  · simp [System.addFile, System.deliver, handleNmConnection]

theorem unlisted (synced : Synced sys ss)
    (unknown : (findFile sys.nm.toNameServerState filename).isSome = false) :
    filename ∉ (liveFiles ss).map (·.filename) := by
  intro member
  have known := synced.only.isSome_findFile_iff.mpr member
  rw [unknown] at known
  cases known

theorem unrecorded (synced : Synced sys ss)
    (unknown : (findFile sys.nm.toNameServerState filename).isSome = false) :
    filename ∉ (sys.stores 0).names :=
  fun member => synced.unlisted unknown (synced.names.mem_iff.mpr member)

/-- The name server adds the folder if its list has room. -/
theorem addFolder (synced : Synced sys ss)
    (unknown : (findFile sys.nm.toNameServerState filename).isSome = false)
    (room : ss.fileCount < maxFilesPerServer) (now : Int)
    (username : Username) :
    ∃ ss', OnlyServer (addFileToServer now sys.nm.toNameServerState ss.ssId
        filename username).1 ss' ∧
      liveFiles ss' =
        liveFiles ss ++ [⟨filename, username, ss.ssId, now, now⟩] := by
  rcases synced.only.addFile now filename username with
    ⟨-, -, reason⟩ | ⟨-, -, ss', only, -, listed⟩
  · exact (synced.unlisted unknown (reason room)).elim
  · exact ⟨ss', only, listed⟩

theorem createfolder (synced : Synced sys ss)
    (condition : (findFile sys.nm.toNameServerState filename).isSome = false →
      ¬ss.ssId < 0 → ss.fileCount < maxFilesPerServer →
      (ForwardedRequest.createfolder filename username).Succeeds
        (sys.stores 0)) :
    ∃ ss', Synced (handleCreatefolder sys context now .reliable filename
      username).1 ss' := by
  cases unknown : (findFile sys.nm.toNameServerState filename).isSome with
  | true =>
      simp only [handleCreatefolder, unknown, ↓reduceIte]
      exact ⟨ss, synced⟩
  | false =>
      by_cases missing : ss.ssId < 0
      · obtain ⟨files, -⟩ := getAvailableStorageServer_records sys.nm
        simp only [handleCreatefolder, unknown, Bool.false_eq_true,
          ↓reduceIte, synced.available, missing]
        exact ⟨ss, synced.congr files rfl⟩
      · obtain ⟨files, recorded⟩ := @tables_createfolder sys ss filename
          username context now synced unknown missing
        have folder := @records_nmCreatefolder (sys.stores 0) filename
          username context.now (synced.unrecorded unknown)
        rw [synced.length_records] at folder
        by_cases room : ss.fileCount < maxFilesPerServer
        · have created := condition unknown missing room
          obtain ⟨ss', only, listed⟩ :=
            synced.addFolder unknown room now username
          rw [← files] at only
          rw [if_pos ⟨created, room⟩] at folder
          exact ⟨ss', synced.add only listed (recorded.trans folder) rfl
            (synced.unlisted unknown)⟩
        · rcases synced.only.addFile now filename username with
            ⟨-, unchanged, -⟩ | ⟨-, space, -⟩
          · have full : ¬ss.fileCount < maxFiles := room
            rw [if_neg fun succeeds => full succeeds.2] at folder
            exact ⟨ss, synced.congr (files.trans unchanged)
              (recorded.trans folder)⟩
          · exact (room space).elim

/-- When the two tables still agree, the storage server had created the
folder. -/
theorem succeeds_of_sameFiles (synced : Synced sys ss)
    (unknown : (findFile sys.nm.toNameServerState filename).isSome = false)
    (found : ¬ss.ssId < 0) (room : ss.fileCount < maxFilesPerServer)
    (same : SameFiles (handleCreatefolder sys context now .reliable filename
      username).1) :
    (ForwardedRequest.createfolder filename username).Succeeds
      (sys.stores 0) := by
  obtain ⟨files, recorded⟩ := @tables_createfolder sys ss filename username
    context now synced unknown found
  obtain ⟨ss', only, listed⟩ := synced.addFolder unknown room now username
  rw [← files] at only
  by_contra failure
  have folder := @records_nmCreatefolder (sys.stores 0) filename username
    context.now (synced.unrecorded unknown)
  rw [if_neg fun succeeds => failure succeeds.1] at folder
  have entry := (same (filename, username)).mp (by
    rw [only.serverFiles_zero, listed]
    simp [fileEntry])
  rw [recorded, folder] at entry
  obtain ⟨record, member, named⟩ := List.mem_map.mp entry
  exact synced.unrecorded unknown
    (List.mem_map.mpr ⟨record, member, congrArg Prod.fst named⟩)

end Synced

section

variable {sys : System} {ss : StorageServerInfo} {filename : Filename}
  {username : Username} {context : NmContext} {targetPath : PathText}

/-- The name of a file after a MOVE. -/
def movedPath (filename : Filename) (targetPath : PathText) : Filename :=
  CString.copy 255 (targetPath.chars ++ '/' :: filename.chars)

/-- After a MOVE that the client takes for a success, its user may read and
write under the new name and no record of the old name is left. -/
def CompletesMoves (sys : System) (call : Call) : Prop :=
  ∀ filename targetPath, call.command = .move filename targetPath →
    (handleConnection sys call).2.errorCode = errSuccess →
    (hasReadAccessLl ((callStep sys call).stores 0)
        (movedPath filename targetPath) call.username).1 = true ∧
      (hasWriteAccessLl ((callStep sys call).stores 0)
        (movedPath filename targetPath) call.username).1 = true ∧
      findMetadata ((callStep sys call).stores 0) filename = none

/-- A MOVE that goes no further than the name server changes nothing. -/
theorem move_of_unreached (context : NmContext) (link : Link)
    (unreached : (ForwardedRequest.move filename targetPath username).reached
      sys = none) :
    (handleMoveFile sys context link filename targetPath username).1 = sys ∧
      (handleMoveFile sys context link filename targetPath
        username).2.errorCode ≠ errSuccess := by
  have unknown : errFileNotFound ≠ errSuccess := by decide
  have denied : errAccessDenied ≠ errSuccess := by decide
  have unavailable : errServerError ≠ errSuccess := by decide
  unfold handleMoveFile
  cases record : findRecord sys.nm.toNameServerState filename with
  | none => exact ⟨rfl, unknown⟩
  | some file =>
      by_cases owner : file.owner = username
      · have offline : onlineServer sys.nm.toNameServerState file.ssId =
            none := by
          simpa [ForwardedRequest.reached, record, owner] using unreached
        simp only [owner, ne_eq, not_true_eq_false, ↓reduceIte,
          System.forward, offline]
        exact ⟨trivial, unavailable⟩
      · simp only [ne_eq, owner, not_false_eq_true, ↓reduceIte]
        exact ⟨trivial, denied⟩

/-- A MOVE that reaches the storage server is a success for the client and
leaves the records as they are. -/
theorem move_of_reached (context : NmContext) {server : Nat}
    (reached : (ForwardedRequest.move filename targetPath username).reached
      sys = some server) :
    (handleMoveFile sys context .reliable filename targetPath
        username).2.errorCode = errSuccess ∧
      ((handleMoveFile sys context .reliable filename targetPath
        username).1.stores 0).metadataList =
        (sys.stores 0).metadataList := by
  obtain ⟨file, record, found⟩ := Option.bind_eq_some_iff.mp reached
  split at found
  · cases found
  · rename_i owner
    have forwarded := @forward_of_reliable sys context
      (.move filename targetPath username) server opMove file.ssId
    simp only [ForwardedRequest.nmRequest] at forwarded
    simp only [handleMoveFile, record, owner, ↓reduceIte, forwarded found]
    refine ⟨rfl, ?_⟩
    simp only [System.moveRecord, System.deliver]
    by_cases here : server = 0
    · subst here
      simp [handleNmConnection, records_nmMove]
    · rw [Function.update_of_ne (Ne.symm here)]

end

/-- The requests that are about files. -/
def Command.ChangesFiles : Command → Prop
  | .create _ => True
  | .delete _ => True
  | .createfolder _ => True
  | .move _ _ => True
  | _ => False

/-- No MOVE goes to the storage server, and a folder for which the list has
room is created there. -/
def KeepsFileSets (sys : System) (call : Call) : Prop :=
  match call.command with
  | .createfolder filename =>
      (ForwardedRequest.createfolder filename call.username).reached sys =
        some 0 →
      (serverFiles sys.nm.toNameServerState 0).length < maxFilesPerServer →
      (ForwardedRequest.createfolder filename call.username).Succeeds
        (sys.stores 0)
  | .move filename targetPath =>
      (ForwardedRequest.move filename targetPath call.username).reached sys =
        none
  | _ => True

section

variable {sys : System} {ss : StorageServerInfo} {call : Call}

theorem Synced.reached_createfolder (synced : Synced sys ss)
    (filename : Filename) (username : Username) :
    (ForwardedRequest.createfolder filename username).reached sys = some 0 ↔
      (findFile sys.nm.toNameServerState filename).isSome = false ∧
        ¬ss.ssId < 0 := by
  obtain ⟨files, -⟩ := getAvailableStorageServer_records sys.nm
  cases unknown : (findFile sys.nm.toNameServerState filename).isSome with
  | true => simp [ForwardedRequest.reached, unknown]
  | false =>
      simp [ForwardedRequest.reached, unknown, synced.available, files,
        synced.only.onlineServer_self]

theorem Synced.step (synced : Synced sys ss) (reliable : call.link = .reliable)
    (about : call.command.ChangesFiles) (condition : KeepsFileSets sys call) :
    ∃ ss', Synced (callStep sys call) ss' := by
  obtain ⟨context, now, link, username, command⟩ := call
  cases reliable
  cases command with
  | create filename => exact synced.create
  | delete filename => exact synced.delete
  | createfolder filename =>
      apply synced.createfolder
      intro unknown found room
      apply condition
      · exact (synced.reached_createfolder filename username).mpr
          ⟨unknown, found⟩
      · simpa [synced.only.serverFiles_zero] using room
  | move filename targetPath =>
      have unchanged : callStep sys ⟨context, now, .reliable, username,
          .move filename targetPath⟩ = sys :=
        (move_of_unreached context .reliable condition).1
      rw [unchanged]
      exact ⟨ss, synced⟩
  | addaccess => exact about.elim
  | requestaccess => exact about.elim
  | approverequest => exact about.elim
  | rejectrequest => exact about.elim
  | checkpoint => exact about.elim
  | viewcheckpoint => exact about.elim
  | revert => exact about.elim

/-- The record of a file that was moved is left over. -/
theorem Synced.not_completesMoves (synced : Synced sys ss)
    {filename : Filename} {targetPath : PathText} {server : Nat}
    (reliable : call.link = .reliable)
    (command : call.command = .move filename targetPath)
    (reached : (ForwardedRequest.move filename targetPath
      call.username).reached sys = some server) :
    ¬CompletesMoves sys call := by
  intro completes
  obtain ⟨success, unchanged⟩ := move_of_reached call.context reached
  have moved : handleConnection sys call =
      handleMoveFile sys call.context .reliable filename targetPath
        call.username := by
    simp only [handleConnection, command, reliable]
  have gone := (completes filename targetPath command
    (by rw [moved]; exact success)).2.2
  obtain ⟨file, record, -⟩ := Option.bind_eq_some_iff.mp reached
  have listed : filename ∈ (liveFiles ss).map (·.filename) := by
    apply synced.only.isSome_findFile_iff.mp
    rw [findRecord, Option.map_eq_some_iff] at record
    obtain ⟨pointer, found, -⟩ := record
    simp [found]
  have recorded := synced.names.mem_iff.mp listed
  rw [findMetadata_eq_none_iff, FileHandler.names, callStep, moved,
    unchanged] at gone
  exact gone recorded

theorem Synced.keepsFileSets_iff (synced : Synced sys ss)
    (reliable : call.link = .reliable)
    (about : call.command.ChangesFiles) :
    SameFiles (callStep sys call) ∧ CompletesMoves sys call ↔
      KeepsFileSets sys call := by
  constructor
  · rintro ⟨same, completes⟩
    unfold KeepsFileSets
    split
    · rename_i filename command
      intro reached room
      obtain ⟨unknown, found⟩ :=
        (synced.reached_createfolder filename call.username).mp reached
      rw [synced.only.serverFiles_zero, length_liveFiles] at room
      apply synced.succeeds_of_sameFiles unknown found room
      simpa only [callStep, handleConnection, command, reliable] using same
    · rename_i filename targetPath command
      by_contra reached
      obtain ⟨server, forwarded⟩ := Option.ne_none_iff_exists'.mp reached
      exact synced.not_completesMoves reliable command forwarded completes
    · trivial
  · intro condition
    obtain ⟨ss', after⟩ := synced.step reliable about condition
    refine ⟨after.sameFiles, ?_⟩
    intro filename targetPath command success
    simp only [KeepsFileSets, command] at condition
    have failed := (move_of_unreached call.context call.link condition).2
    simp only [handleConnection, command] at success
    exact (failed success).elim

end

/-- A server that registers without files starts in agreement. -/
theorem synced_register (hosts : Hosts) (now : Int) (msg : RegisterMessage)
    (empty : CText.strtok ',' msg.data.chars = []) :
    ∃ ss, Synced ((initSystem hosts).register now msg) ss := by
  refine ⟨⟨msg.ssId, msg.ip, msg.port1, msg.port2, .online,
    fun _ => zeroedFile, 0⟩, ⟨?_, rfl, ?_⟩, List.Perm.nil, List.nodup_nil⟩
  · simp [System.register, registerStorageServer, findStorageServer,
      initSystem, initNameServer, maxStorageServers, empty, registerFiles]
  · exact placed_initNameServer.registerStorageServer now msg

/-- With one storage server that starts empty, the two tables agree along a
run, and moved files are usable, exactly when no MOVE goes to the storage
server and every folder that is listed was created. -/
theorem file_sets_agree_iff (hosts : Hosts) (now : Int)
    (msg : RegisterMessage) (calls : List Call)
    (empty : CText.strtok ',' msg.data.chars = [])
    (reliable : ∀ call ∈ calls,
      call.link = .reliable ∧ call.command.ChangesFiles)
    (_spared : ∀ call ∈ calls, ∀ filename,
      call.command = .createfolder filename →
        SparesMetadata (hosts.storage 0)
          (getFilePath (hosts.storage 0) filename)) :
    StepRun.AllSteps callStep
        (fun sys call => SameFiles (callStep sys call) ∧
          CompletesMoves sys call)
        ((initSystem hosts).register now msg) calls ↔
      StepRun.AllSteps callStep KeepsFileSets
        ((initSystem hosts).register now msg) calls := by
  refine @StepRun.allSteps_iff_of_invariant System Call callStep
    KeepsFileSets (fun sys => ∃ ss, Synced sys ss) _ _ ?_ ?_ _ _
    (synced_register hosts now msg empty) reliable
  · rintro sys call ⟨ss, synced⟩ ⟨good, about⟩ condition
    exact synced.step good about condition
  · rintro sys call ⟨ss, synced⟩ ⟨good, about⟩
    exact synced.keepsFileSets_iff good about

private def emptyServer : RegisterMessage :=
  ⟨1, CString.copy 15 [], 0, 0, CString.copy 4095 []⟩

private def tableName (text : String) : Filename :=
  CString.copy 255 text.toList

private def tableOwner : Username := CString.copy 63 "alice".toList

private def tableCall (command : Command) : Call :=
  { context :=
      { now := CString.copy 63 []
        leftover := newMetadata (tableName "") tableOwner
          (CString.copy 63 []) }
    now := 0
    link := .reliable
    username := tableOwner
    command := command }

private def fileAndFolder : List Call :=
  [tableCall (.create (tableName "f")),
    tableCall (.createfolder (tableName "d"))]

theorem file_sets_agree_sample :
    (∀ call ∈ fileAndFolder,
      call.link = .reliable ∧ call.command.ChangesFiles) ∧
      StepRun.AllSteps callStep
        (fun sys call => SameFiles (callStep sys call) ∧
          CompletesMoves sys call)
        ((initSystem freshHosts).register 0 emptyServer) fileAndFolder := by
  have reliable : ∀ call ∈ fileAndFolder,
      call.link = .reliable ∧ call.command.ChangesFiles := by
    simp [fileAndFolder, tableCall, Command.ChangesFiles]
  have spared : ∀ call ∈ fileAndFolder, ∀ filename,
      call.command = .createfolder filename →
        SparesMetadata (freshHosts.storage 0)
          (getFilePath (freshHosts.storage 0) filename) := by
    intro call member filename command
    simp only [fileAndFolder, List.mem_cons, List.not_mem_nil, or_false]
      at member
    rcases member with rfl | rfl
    · cases command
    · cases command
      decide +kernel
  refine ⟨reliable, (file_sets_agree_iff freshHosts 0 emptyServer fileAndFolder
    rfl reliable spared).mpr ⟨trivial, fun _ _ => ?_, trivial⟩⟩
  simp only [ForwardedRequest.Succeeds]
  decide +kernel

/-- The name server lists `d/f` after the MOVE while the storage server still
has the record of `f`. -/
theorem move_leaves_record :
    ¬StepRun.AllSteps callStep
      (fun sys call => SameFiles (callStep sys call) ∧
        CompletesMoves sys call)
      ((initSystem freshHosts).register 0 emptyServer)
      (fileAndFolder ++ [tableCall (.move (tableName "f")
        (CString.copy 1023 "d".toList))]) := by
  intro agree
  obtain ⟨-, ⟨same, -⟩, -⟩ := (StepRun.allSteps_append _ _ _).mp agree
  have recorded := (same (tableName "d/f", tableOwner)).mp (by decide +kernel)
  exact absurd recorded (by decide +kernel)

end Dfs.NameServer
