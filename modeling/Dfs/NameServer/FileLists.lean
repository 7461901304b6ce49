import Dfs.NameServer.FileIndex

/-!
# File arrays as lists

The live cells of a file array, read in order, form a list: a new file is
added at its end and a removal erases one entry, wherever the cells are moved
to.  What the servers are and where they listen does not change.
-/

namespace Dfs.NameServer

/-- The live records of a server, in order. -/
def liveFiles (ss : StorageServerInfo) : List FileInfo :=
  (List.range ss.fileCount).map ss.files

/-- The live records of the server at this position. -/
def serverFiles (nm : NameServerState) (server : Nat) : List FileInfo :=
  (nm.storageServers[server]?.map liveFiles).getD []

/-- The file list of the server contains the name. -/
def Lists (nm : NameServerState) (server : Nat) (filename : Filename) : Prop :=
  filename ∈ (serverFiles nm server).map (·.filename)

/-- What a registration says about a server. -/
def StorageServerInfo.address (ss : StorageServerInfo) :
    Int × IpText × Int × Int × SsStatus :=
  (ss.ssId, ss.ip, ss.nmPort, ss.clientPort, ss.status)

def addresses (nm : NameServerState) :
    List (Int × IpText × Int × Int × SsStatus) :=
  nm.storageServers.map StorageServerInfo.address

section

variable {ss : StorageServerInfo} {nm : NameServerState} {server slot : Nat}
  {filename : Filename}

@[simp] theorem length_liveFiles : (liveFiles ss).length = ss.fileCount := by
  simp [liveFiles]

theorem serverFiles_of_getElem?
    (found : nm.storageServers[server]? = some ss) :
    serverFiles nm server = liveFiles ss := by
  simp [serverFiles, found]

theorem findSlot_eq_findIdx? (ss : StorageServerInfo) (filename : Filename) :
    findSlot ss filename =
      (liveFiles ss).findIdx? fun file => file.filename = filename := by
  ext slot
  rw [findSlot, List.find?_range_eq_some, List.findIdx?_eq_some_iff_getElem]
  simp [liveFiles]

theorem findSlot_isSome_iff :
    (findSlot ss filename).isSome ↔
      filename ∈ (liveFiles ss).map (·.filename) := by
  rw [findSlot_eq_findIdx?, List.findIdx?_isSome]
  simp

theorem liveFiles_fill (file : FileInfo) :
    liveFiles
        { ss with
          files := Function.update ss.files ss.fileCount file
          fileCount := ss.fileCount + 1 } = liveFiles ss ++ [file] := by
  simp only [liveFiles, List.range_succ, List.map_append, List.map_cons,
    List.map_nil, Function.update_self, List.append_cancel_right_eq]
  apply List.map_congr_left
  intro slot inside
  have before : slot ≠ ss.fileCount := (List.mem_range.mp inside).ne
  exact Function.update_of_ne before file ss.files

theorem liveFiles_shiftFiles (inside : slot < ss.fileCount) :
    liveFiles (shiftFiles ss slot) = (liveFiles ss).eraseIdx slot := by
  apply List.ext_getElem
  · simp [shiftFiles, List.length_eraseIdx, inside]
  · intro cell first second
    have bound : cell < ss.fileCount - 1 := by
      simpa [liveFiles, shiftFiles] using first
    rw [List.getElem_eraseIdx]
    by_cases early : cell < slot
    · have stays : ¬slot ≤ cell := by omega
      simp [liveFiles, shiftFiles, early, stays]
    · have moves : slot ≤ cell ∧ cell + 1 < ss.fileCount := by omega
      simp [liveFiles, shiftFiles, early, moves]

/-- The removal of a name erases its first record. -/
theorem liveFiles_erased (inSlot : findSlot ss filename = some slot) :
    liveFiles (shiftFiles ss slot) =
      (liveFiles ss).eraseP fun file => file.filename = filename := by
  have inside : slot < ss.fileCount := by
    rw [findSlot, List.find?_range_eq_some] at inSlot
    exact List.mem_range.mp inSlot.2.1
  rw [findSlot_eq_findIdx?] at inSlot
  rw [liveFiles_shiftFiles inside, List.eraseP_eq_eraseIdx, inSlot]

theorem names_eraseP (files : List FileInfo) (filename : Filename) :
    (files.eraseP fun file => file.filename = filename).map (·.filename) =
      (files.map (·.filename)).erase filename := by
  induction files with
  | nil => rfl
  | cons file files ih =>
      by_cases same : file.filename = filename
      · simp [same]
      · simp [same, ih]

/-- A new name is taken out again. -/
theorem eraseP_concat {files : List FileInfo} {file : FileInfo}
    (named : file.filename = filename)
    (new : filename ∉ files.map (·.filename)) :
    ((files ++ [file]).eraseP fun other => other.filename = filename) =
      files := by
  rw [List.eraseP_append_right]
  · simp [named]
  · intro other member named
    exact new (List.mem_map.mpr ⟨other, member, by simpa using named⟩)

theorem getElem?_appendFile (found : nm.storageServers[server]? = some ss)
    (file : FileInfo) (other : Nat) :
    (appendFile nm server file).storageServers[other]? =
      if other = server then
        some { ss with
          files := Function.update ss.files ss.fileCount file
          fileCount := ss.fileCount + 1 }
      else nm.storageServers[other]? := by
  by_cases here : other = server
  · subst here
    simp [appendFile, found, modifyServer, hashInsertFile]
  · simp [appendFile, found, modifyServer, hashInsertFile, here,
      Ne.symm here]

theorem ssId_appendFile {ssId : Int} (file : FileInfo)
    (found : nm.storageServers[server]? = some ss) (owned : ss.ssId = ssId)
    (other : StorageServerInfo)
    (located : (appendFile nm server file).storageServers[server]? =
      some other) : other.ssId = ssId := by
  rw [getElem?_appendFile found, if_pos rfl] at located
  cases located
  exact owned

theorem serverFiles_appendFile
    (found : nm.storageServers[server]? = some ss) (file : FileInfo)
    (other : Nat) :
    serverFiles (appendFile nm server file) other =
      if other = server then serverFiles nm server ++ [file]
      else serverFiles nm other := by
  unfold serverFiles
  rw [getElem?_appendFile found]
  by_cases here : other = server
  · simp [here, found, liveFiles_fill]
  · simp [here]

theorem fileIndex_appendFile
    (found : nm.storageServers[server]? = some ss) (file : FileInfo) :
    (appendFile nm server file).fileIndex =
      nm.fileIndex.insert hashFilename file.filename
        ⟨server, ss.fileCount⟩ := by
  simp [appendFile, found, modifyServer, hashInsertFile]

theorem addresses_appendFile (file : FileInfo) :
    addresses (appendFile nm server file) = addresses nm := by
  unfold appendFile
  split
  · rfl
  · apply List.ext_getElem?
    intro position
    simp only [addresses, modifyServer, hashInsertFile, List.getElem?_map,
      List.getElem?_modify]
    cases nm.storageServers[position]? with
    | none => rfl
    | some ss =>
        by_cases here : server = position
        · simp [here, StorageServerInfo.address]
        · simp [here]

/-- What `add_file_to_server` does: it refuses a full list and a name the
list has, or it appends one record. -/
theorem addFileToServer_cases (now : Int) (nm : NameServerState) (ssId : Int)
    (filename : Filename) (owner : Username) :
    (∃ result, result ≠ errSuccess ∧
      addFileToServer now nm ssId filename owner = (nm, result) ∧
      ∀ server ss, findStorageServer nm ssId = some server →
        nm.storageServers[server]? = some ss →
        ss.fileCount < maxFilesPerServer →
        filename ∈ (liveFiles ss).map (·.filename)) ∨
    ∃ server ss, findStorageServer nm ssId = some server ∧
      nm.storageServers[server]? = some ss ∧
      ss.fileCount < maxFilesPerServer ∧
      filename ∉ (liveFiles ss).map (·.filename) ∧
      addFileToServer now nm ssId filename owner =
        (appendFile nm server ⟨filename, owner, ssId, now, now⟩,
          errSuccess) := by
  unfold addFileToServer
  cases known : findStorageServer nm ssId with
  | none => exact .inl ⟨errServerError, by decide, rfl, by simp⟩
  | some server =>
      cases found : nm.storageServers[server]? with
      | none =>
          refine .inl ⟨errServerError, by decide, by simp [found], ?_⟩
          rintro _ ss ⟨⟩ located
          cases found.symm.trans located
      | some ss =>
          by_cases full : ss.fileCount ≥ maxFilesPerServer
          · refine .inl ⟨errServerError, by decide, by simp [found, full], ?_⟩
            rintro _ _ ⟨⟩ located room
            cases found.symm.trans located
            exact (Nat.not_lt_of_ge full room).elim
          · by_cases taken : (findSlot ss filename).isSome
            · refine .inl ⟨errFileExists, by decide,
                by simp [found, full, taken], ?_⟩
              rintro _ _ ⟨⟩ located _
              cases found.symm.trans located
              exact findSlot_isSome_iff.mp taken
            · refine .inr ⟨server, ss, rfl, found, Nat.lt_of_not_ge full,
                fun member => taken (findSlot_isSome_iff.mpr member), ?_⟩
              simp [found, full, taken]

/-- The state after a removal at this place. -/
def dropSlot (nm : NameServerState) (filename : Filename)
    (server slot : Nat) : NameServerState :=
  modifyServer (hashRemoveFile nm filename) server fun ss =>
    shiftFiles ss slot

theorem getElem?_dropSlot (found : nm.storageServers[server]? = some ss)
    (other : Nat) :
    (dropSlot nm filename server slot).storageServers[other]? =
      if other = server then some (shiftFiles ss slot)
      else nm.storageServers[other]? := by
  by_cases here : other = server
  · subst here
    simp [dropSlot, found, modifyServer, hashRemoveFile]
  · simp [dropSlot, modifyServer, hashRemoveFile, here, Ne.symm here]

theorem serverFiles_dropSlot
    (found : nm.storageServers[server]? = some ss)
    (inSlot : findSlot ss filename = some slot) (other : Nat) :
    serverFiles (dropSlot nm filename server slot) other =
      if other = server then
        (serverFiles nm server).eraseP fun file => file.filename = filename
      else serverFiles nm other := by
  unfold serverFiles
  rw [getElem?_dropSlot found]
  by_cases here : other = server
  · simp [here, found, liveFiles_erased inSlot]
  · simp [here]

theorem fileIndex_dropSlot :
    (dropSlot nm filename server slot).fileIndex =
      nm.fileIndex.remove hashFilename filename :=
  rfl

theorem addresses_dropSlot :
    addresses (dropSlot nm filename server slot) = addresses nm := by
  apply List.ext_getElem?
  intro position
  simp only [addresses, dropSlot, modifyServer, hashRemoveFile,
    List.getElem?_map, List.getElem?_modify]
  cases nm.storageServers[position]? with
  | none => rfl
  | some ss =>
      by_cases here : server = position
      · simp [here, StorageServerInfo.address, shiftFiles]
      · simp [here]

/-- What `remove_file_from_server` does: nothing for a name that the server
does not have, and otherwise it erases the first record of the name. -/
theorem removeFileFromServer_cases (nm : NameServerState) (ssId : Int)
    (filename : Filename) :
    (∃ result, result ≠ errSuccess ∧
      removeFileFromServer nm ssId filename = (nm, result) ∧
      ∀ server, findStorageServer nm ssId = some server →
        filename ∉ (serverFiles nm server).map (·.filename)) ∨
    ∃ server ss slot, findStorageServer nm ssId = some server ∧
      nm.storageServers[server]? = some ss ∧
      findSlot ss filename = some slot ∧
      removeFileFromServer nm ssId filename =
        (dropSlot nm filename server slot, errSuccess) := by
  unfold removeFileFromServer
  cases known : findStorageServer nm ssId with
  | none => exact .inl ⟨errServerError, by decide, rfl, by simp⟩
  | some server =>
      cases held : nm.storageServers[server]?.bind (findSlot · filename) with
      | none =>
          refine .inl ⟨errFileNotFound, by decide, by simp [held], ?_⟩
          rintro _ ⟨⟩ member
          cases found : nm.storageServers[server]? with
          | none => simp [serverFiles, found] at member
          | some ss =>
              rw [serverFiles_of_getElem? found] at member
              have present := findSlot_isSome_iff.mpr member
              rw [found, Option.bind_some] at held
              simp [held] at present
      | some slot =>
          obtain ⟨ss, found, inSlot⟩ := Option.bind_eq_some_iff.mp held
          exact .inr ⟨server, ss, slot, rfl, found, inSlot,
            by simp [held, dropSlot]⟩

end

theorem findStorageServer_eq_of_addresses {nm other : NameServerState}
    (same : addresses nm = addresses other) (ssId : Int) :
    findStorageServer nm ssId = findStorageServer other ssId := by
  have mapped : ∀ nm : NameServerState, findStorageServer nm ssId =
      (addresses nm).findIdx? fun address => address.1 = ssId := by
    intro nm
    rw [addresses, List.findIdx?_map]
    rfl
  rw [mapped, mapped, same]

end Dfs.NameServer
