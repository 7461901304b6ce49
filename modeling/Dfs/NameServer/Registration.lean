import Dfs.NameServer.FileLists
import Dfs.StorageServer.MetadataStore

/-!
# Registration of a storage server

A storage server announces its catalogue as one string `name:owner,...` in the
data field of the registration message, and the name server cuts the string
into records again.  The string is built by bounded appends, so a catalogue
that does not fit the field loses its end; this module says exactly when the
name server still gets every record.
-/

namespace Dfs.NameServer

section

variable {nm : NameServerState} {ss : StorageServerInfo} {server : Nat}
variable {now ssId : Int}

theorem serverFiles_registerFiles {tokens : List Text}
    (found : nm.storageServers[server]? = some ss)
    (room : ss.fileCount + tokens.length ≤ maxFilesPerServer) :
    serverFiles (registerFiles now ssId server nm tokens) server =
      liveFiles ss ++ tokens.map (parseFileEntry now ssId) := by
  induction tokens generalizing nm ss with
  | nil => simpa [registerFiles] using serverFiles_of_getElem? found
  | cons token tokens ih =>
      rw [List.length_cons] at room
      have space : ss.fileCount < maxFilesPerServer := by omega
      have appended : (appendFile nm server
          (parseFileEntry now ssId token)).storageServers[server]? =
          some { ss with
            files := Function.update ss.files ss.fileCount
              (parseFileEntry now ssId token)
            fileCount := ss.fileCount + 1 } := by
        rw [getElem?_appendFile found, if_pos rfl]
      simp only [registerFiles, found, space, ↓reduceIte]
      rw [ih appended (by simp only; omega), liveFiles_fill]
      simp

theorem getElem?_registerFiles {other : Nat} (elsewhere : other ≠ server)
    (tokens : List Text) :
    (registerFiles now ssId server nm tokens).storageServers[other]? =
      nm.storageServers[other]? := by
  induction tokens generalizing nm with
  | nil => rfl
  | cons token tokens ih =>
      unfold registerFiles
      cases found : nm.storageServers[server]? with
      | none => rfl
      | some ss =>
          simp only
          split
          · rw [ih, getElem?_appendFile found, if_neg elsewhere]
          · rfl

end

/-- A name or owner that the format of the list can carry. -/
def Plain (text : Text) : Prop :=
  text ≠ [] ∧ ',' ∉ text ∧ ':' ∉ text

instance (text : Text) : Decidable (Plain text) :=
  inferInstanceAs (Decidable (_ ∧ _ ∧ _))

/-- What the name server keeps of an entry. -/
def filePair (file : FileInfo) : Filename × Username :=
  (file.filename, file.owner)

def recordPair (record : StorageServer.FileMetadata) :
    Filename × Username :=
  (record.filename, record.owner)

section

variable {record : StorageServer.FileMetadata} {now ssId : Int}

theorem takeWhile_colon {name rest : Text} (plain : ':' ∉ name) :
    (name ++ ':' :: rest).takeWhile (· ≠ ':') = name ∧
      (name ++ ':' :: rest).dropWhile (· ≠ ':') = ':' :: rest := by
  have all : ∀ byte ∈ name, (decide (byte ≠ ':')) = true := by
    intro byte member
    have different : byte ≠ ':' := fun same => plain (same ▸ member)
    simpa using different
  constructor
  · rw [List.takeWhile_append_of_pos all]
    simp
  · rw [List.dropWhile_append_of_pos all]
    simp

theorem parseFileEntry_colon {name owner : Text} (plain : ':' ∉ name) :
    filePair (parseFileEntry now ssId (name ++ ':' :: owner)) =
      (CString.copy 255 name, CString.copy 63 owner) := by
  obtain ⟨taken, dropped⟩ := @takeWhile_colon name owner plain
  have marked : ':' ∈ name ++ ':' :: owner := by simp
  simp only [filePair, parseFileEntry]
  rw [taken, dropped, if_pos marked]
  rfl

theorem parseFileEntry_plain {name : Text} (plain : ':' ∉ name) :
    filePair (parseFileEntry now ssId name) =
      (CString.copy 255 name, CString.copy 63 "system".toList) := by
  have all : name.takeWhile (· ≠ ':') = name := by
    apply List.takeWhile_eq_self_iff.mpr
    intro byte member
    have different : byte ≠ ':' := fun same => plain (same ▸ member)
    simpa using different
  simp only [filePair, parseFileEntry]
  rw [all, if_neg plain]

/-- A whole entry is read back. -/
theorem parseFileEntry_fileEntry (plain : Plain record.filename.chars) :
    filePair (parseFileEntry now ssId (StorageServer.fileEntry record)) =
      recordPair record := by
  unfold StorageServer.fileEntry
  rw [parseFileEntry_colon plain.2.2]
  simp [recordPair]

/-- What is left of a name is read as the record only if it is the whole name
and the owner is the default one. -/
theorem parseFileEntry_name_iff {kept lost : Text}
    (split : record.filename.chars = kept ++ lost)
    (plain : Plain record.filename.chars) :
    filePair (parseFileEntry now ssId kept) = recordPair record ↔
      kept = record.filename.chars ∧
        record.owner.chars = "system".toList := by
  have part : ∀ byte ∈ kept, byte ∈ record.filename.chars := fun byte member =>
    by rw [split]; exact List.mem_append_left _ member
  have fits : (CString.copy 255 kept).chars = kept := by
    have nulFree : CText.nul ∉ kept := fun member =>
      record.filename.nulFree (part _ member)
    have short : kept.length ≤ 255 := by
      have bound := record.filename.fits
      rw [split, List.length_append] at bound
      omega
    simp [CString.copy, CText.terminated_eq_self nulFree,
      List.take_of_length_le short]
  have system : (CString.copy 63 "system".toList).chars = "system".toList := by
    decide
  rw [parseFileEntry_plain fun member => plain.2.2 (part _ member)]
  simp only [recordPair, Prod.mk.injEq, CString.ext_iff, fits, system]
  exact and_congr_right fun _ => eq_comm

/-- An owner that was cut is not read as the whole one. -/
theorem parseFileEntry_owner_ne {kept lost : Text}
    (split : record.owner.chars = kept ++ lost) (cut : lost ≠ [])
    (plain : Plain record.filename.chars) :
    filePair (parseFileEntry now ssId
        (record.filename.chars ++ ':' :: kept)) ≠ recordPair record := by
  intro same
  rw [parseFileEntry_colon plain.2.2] at same
  have copied := congrArg (fun pair => pair.2.chars.length) same
  have bound : (CString.copy 63 kept).chars.length ≤ kept.length := by
    simp only [CString.copy, List.length_take]
    exact Nat.le_trans (Nat.min_le_right _ _)
      (List.IsPrefix.length_le (List.takeWhile_prefix _))
  have missing := List.length_pos_of_ne_nil cut
  simp only [recordPair, split, List.length_append] at copied
  omega

/-- A cut entry is read as the record only if exactly the owner is lost and it
is the default one. -/
theorem parseFileEntry_cut_iff {kept lost : Text}
    (split : StorageServer.fileEntry record = kept ++ lost)
    (cut : lost ≠ []) (plain : Plain record.filename.chars) :
    filePair (parseFileEntry now ssId kept) = recordPair record ↔
      kept = record.filename.chars ∧
        record.owner.chars = "system".toList := by
  unfold StorageServer.fileEntry at split
  rcases List.append_eq_append_iff.mp split with
    ⟨tail, keptEq, lostEq⟩ | ⟨tail, nameEq, lostEq⟩
  · cases tail with
    | nil =>
        apply @parseFileEntry_name_iff _ _ _ kept [] _ plain
        rw [keptEq, List.append_nil, List.append_nil]
    | cons byte owner =>
        obtain ⟨rfl, ownerEq⟩ := List.cons_eq_cons.mp lostEq
        subst keptEq
        apply iff_of_false (parseFileEntry_owner_ne ownerEq cut plain)
        rintro ⟨same, _⟩
        have lengths := congrArg List.length same
        simp at lengths
  · exact parseFileEntry_name_iff nameEq plain

end

def defaultOwner : Text := "system".toList

/-- The records fit the data field, or what is cut off is exactly the owner
that the name server assumes. -/
def CatalogueFits (records : List StorageServer.FileMetadata) : Prop :=
  (StorageServer.fileCatalogue records).length ≤ 4095 ∨
    (StorageServer.fileCatalogue records).length =
        4095 + (':' :: defaultOwner).length ∧
      ∃ last, records.getLast? = some last ∧
        last.owner.chars = defaultOwner

section

variable {records : List StorageServer.FileMetadata} {now ssId : Int}

/-- The pairs read from the list that is sent. -/
def sentPairs (now ssId : Int)
    (records : List StorageServer.FileMetadata) :
    List (Filename × Username) :=
  (CText.strtok ',' (StorageServer.getFileListLl records 4096)).map
    fun token => filePair (parseFileEntry now ssId token)

theorem tokenlike_fileEntry {record : StorageServer.FileMetadata}
    (name : Plain record.filename.chars) (owner : Plain record.owner.chars) :
    StorageServer.fileEntry record ≠ [] ∧
      ',' ∉ StorageServer.fileEntry record := by
  simp [StorageServer.fileEntry, name.2.1, owner.2.1]

theorem tokenlike_entries
    (names : ∀ record ∈ records, Plain record.filename.chars)
    (owners : ∀ record ∈ records, Plain record.owner.chars) :
    ∀ token ∈ records.map StorageServer.fileEntry,
      token ≠ [] ∧ ',' ∉ token := by
  intro token member
  obtain ⟨record, inside, rfl⟩ := List.mem_map.mp member
  exact tokenlike_fileEntry (names record inside) (owners record inside)

theorem sentPairs_of_fits
    (names : ∀ record ∈ records, Plain record.filename.chars)
    (owners : ∀ record ∈ records, Plain record.owner.chars)
    (fits : (StorageServer.fileCatalogue records).length ≤ 4095) :
    sentPairs now ssId records = records.map recordPair := by
  unfold sentPairs
  rw [StorageServer.getFileListLl_eq_take, List.take_of_length_le fits,
    StorageServer.fileCatalogue, CText.strtok_intercalate, List.map_map]
  · apply List.map_congr_left
    intro record member
    exact parseFileEntry_fileEntry (names record member)
  · exact tokenlike_entries names owners

/-- Where a cut falls: the records before it, the record it falls into, and
what is read of that one. -/
theorem exists_cut
    (names : ∀ record ∈ records, Plain record.filename.chars)
    (owners : ∀ record ∈ records, Plain record.owner.chars)
    (cut : 4095 < (StorageServer.fileCatalogue records).length) :
    ∃ front record back kept lost,
      records = front ++ record :: back ∧
      StorageServer.fileEntry record = kept ++ lost ∧ lost ≠ [] ∧
      sentPairs now ssId records =
        front.map recordPair ++
          (if kept = [] then []
          else [filePair (parseFileEntry now ssId kept)]) ∧
      (back = [] → kept ≠ [] →
        (StorageServer.fileCatalogue records).length =
          4095 + lost.length) := by
  obtain ⟨frontTokens, kept, lost, backTokens, split, cutLost, found, size⟩ :=
    CText.strtok_take_intercalate (tokenlike_entries names owners) cut
  obtain ⟨front, rest, rfl, frontEq, restEq⟩ := List.map_eq_append_iff.mp split
  obtain ⟨record, back, rfl, entry, backEq⟩ := List.map_eq_cons_iff.mp restEq
  refine ⟨front, record, back, kept, lost, rfl, entry, cutLost, ?_, ?_⟩
  · unfold sentPairs
    rw [StorageServer.getFileListLl_eq_take]
    unfold StorageServer.fileCatalogue
    rw [found, List.map_append, ← frontEq, List.map_map]
    congr 1
    · apply List.map_congr_left
      intro earlier member
      exact parseFileEntry_fileEntry (names earlier (by simp [member]))
    · split
      · rfl
      · rfl
  · intro last more
    apply size _ more
    rw [← backEq, last]
    rfl

/-- The default owner is assumed when exactly it is cut off. -/
theorem sentPairs_of_default
    {last : StorageServer.FileMetadata}
    (names : ∀ record ∈ records ++ [last], Plain record.filename.chars)
    (owners : ∀ record ∈ records ++ [last], Plain record.owner.chars)
    (owner : last.owner.chars = defaultOwner)
    (size : (StorageServer.fileCatalogue (records ++ [last])).length =
      4095 + (':' :: defaultOwner).length) :
    sentPairs now ssId (records ++ [last]) =
      (records ++ [last]).map recordPair := by
  have lastPlain : Plain last.filename.chars := names last (by simp)
  have whole : StorageServer.fileCatalogue (records ++ [last]) =
      [','].intercalate (records.map StorageServer.fileEntry ++
        [last.filename.chars]) ++ ':' :: defaultOwner := by
    unfold StorageServer.fileCatalogue
    rw [List.map_append, List.map_singleton, StorageServer.fileEntry, owner,
      CText.intercalate_concat_append]
  have length : ([','].intercalate (records.map StorageServer.fileEntry ++
      [last.filename.chars])).length = 4095 := by
    rw [whole, List.length_append] at size
    omega
  have tokenlike : ∀ token ∈ records.map StorageServer.fileEntry ++
      [last.filename.chars], token ≠ [] ∧ ',' ∉ token := by
    intro token member
    rcases List.mem_append.mp member with earlier | same
    · obtain ⟨record, inside, rfl⟩ := List.mem_map.mp earlier
      exact tokenlike_fileEntry (names record (by simp [inside]))
        (owners record (by simp [inside]))
    · rw [List.mem_singleton.mp same]
      exact ⟨lastPlain.1, lastPlain.2.1⟩
  have read : filePair (parseFileEntry now ssId last.filename.chars) =
      recordPair last := by
    apply (parseFileEntry_cut_iff rfl (by simp) lastPlain).mpr
    exact ⟨rfl, owner⟩
  unfold sentPairs
  rw [StorageServer.getFileListLl_eq_take, whole, List.take_left' length,
    CText.strtok_intercalate tokenlike, List.map_append, List.map_append,
    List.map_map, List.map_singleton, List.map_singleton, read]
  congr 1
  apply List.map_congr_left
  intro record member
  exact parseFileEntry_fileEntry (names record (by simp [member]))

/-- Every record arrives exactly when the catalogue fits. -/
theorem sentPairs_eq_iff
    (names : ∀ record ∈ records, Plain record.filename.chars)
    (owners : ∀ record ∈ records, Plain record.owner.chars) :
    sentPairs now ssId records = records.map recordPair ↔
      CatalogueFits records := by
  constructor
  · intro same
    by_cases fits : (StorageServer.fileCatalogue records).length ≤ 4095
    · exact .inl fits
    · obtain ⟨front, record, back, kept, lost, rfl, entry, cut, sent, size⟩ :=
        @exists_cut records now ssId names owners (by omega)
      rw [sent, List.map_append, List.map_cons,
        List.append_cancel_left_eq] at same
      by_cases empty : kept = []
      · simp [empty] at same
      · rw [if_neg empty] at same
        obtain ⟨head, tail⟩ := List.cons_eq_cons.mp same
        have last : back = [] := by simpa using tail.symm
        obtain ⟨whole, owner⟩ := (parseFileEntry_cut_iff entry cut
          (names record (by simp))).mp head
        have lostEq : lost = ':' :: record.owner.chars := by
          unfold StorageServer.fileEntry at entry
          rw [whole] at entry
          exact (List.append_cancel_left entry).symm
        refine .inr ⟨?_, record, by simp [last], owner⟩
        rw [size last empty, lostEq, owner]
        rfl
  · rintro (fits | ⟨size, last, isLast, owner⟩)
    · exact sentPairs_of_fits names owners fits
    · obtain ⟨front, rfl⟩ := List.getLast?_eq_some_iff.mp isLast
      exact sentPairs_of_default names owners owner size

end

section

variable {nm : NameServerState} {msg : RegisterMessage}
variable {records : List StorageServer.FileMetadata}

theorem length_tokens_le
    (names : ∀ record ∈ records, Plain record.filename.chars)
    (owners : ∀ record ∈ records, Plain record.owner.chars) :
    (CText.strtok ',' (StorageServer.getFileListLl records 4096)).length ≤
      records.length := by
  have pairs : (sentPairs 0 0 records).length ≤ records.length := by
    by_cases fits : (StorageServer.fileCatalogue records).length ≤ 4095
    · rw [sentPairs_of_fits names owners fits, List.length_map]
    · obtain ⟨front, record, back, kept, lost, rfl, _, _, sent, _⟩ :=
        @exists_cut records 0 0 names owners (by omega)
      rw [sent]
      split
      · simp
      · simp
  simpa [sentPairs] using pairs

/-- The name server gets the pairs read from the list, and changes no other
server. -/
theorem registered_pairs (now : Int)
    (new : findStorageServer nm msg.ssId = none)
    (room : nm.storageServers.length < maxStorageServers)
    (bounded : records.length ≤ StorageServer.maxFiles)
    (names : ∀ record ∈ records, Plain record.filename.chars)
    (owners : ∀ record ∈ records, Plain record.owner.chars)
    (sent : msg.data.chars = StorageServer.getFileListLl records 4096) :
    (serverFiles (registerStorageServer now nm msg).1
        nm.storageServers.length).map filePair =
        sentPairs now msg.ssId records ∧
      ∀ server < nm.storageServers.length,
        (registerStorageServer now nm msg).1.storageServers[server]? =
          nm.storageServers[server]? := by
  have full : ¬ nm.storageServers.length ≥ maxStorageServers := by omega
  have tokens := length_tokens_le names owners
  have limits : StorageServer.maxFiles = maxFilesPerServer := rfl
  simp only [registerStorageServer, new, full, ↓reduceIte, sent]
  constructor
  · rw [serverFiles_registerFiles List.getElem?_concat_length
      (by simp only; omega)]
    simp [liveFiles, sentPairs, Function.comp_def]
  · intro server earlier
    rw [getElem?_registerFiles (by omega)]
    exact List.getElem?_append_left earlier

/-- A registration carries the whole catalogue exactly when the catalogue
fits. -/
theorem registration_complete_iff (now : Int)
    (new : findStorageServer nm msg.ssId = none)
    (room : nm.storageServers.length < maxStorageServers)
    (bounded : records.length ≤ StorageServer.maxFiles)
    (names : ∀ record ∈ records, Plain record.filename.chars)
    (owners : ∀ record ∈ records, Plain record.owner.chars)
    (sent : msg.data.chars = StorageServer.getFileListLl records 4096) :
    ((serverFiles (registerStorageServer now nm msg).1
          nm.storageServers.length).map filePair =
        records.map recordPair ∧
      ∀ server < nm.storageServers.length,
        (registerStorageServer now nm msg).1.storageServers[server]? =
          nm.storageServers[server]?) ↔
      CatalogueFits records := by
  obtain ⟨pairs, others⟩ :=
    registered_pairs now new room bounded names owners sent
  rw [pairs, sentPairs_eq_iff names owners]
  exact ⟨fun both => both.1, fun fits => ⟨fits, others⟩⟩

end

private def registrant : Username := CString.copy 63 "ann".toList

private def registeredAt : StorageServer.TimeText := CString.copy 63 []

private def shortRecords : List StorageServer.FileMetadata :=
  ["a", "b"].map fun name => StorageServer.newMetadata
    (CString.copy 255 name.toList) registrant registeredAt

/-- Seventeen names of 255 bytes each. -/
private def longRecords : List StorageServer.FileMetadata :=
  (List.range 17).map fun number => StorageServer.newMetadata
    (CString.copy 255 (Char.ofNat (97 + number) :: List.replicate 254 'x'))
    registrant registeredAt

private def announcement
    (records : List StorageServer.FileMetadata) : RegisterMessage :=
  { ssId := 1
    ip := CString.copy 15 "127.0.0.1".toList
    port1 := 9001
    port2 := 9002
    data := CString.copy 4095 (StorageServer.getFileListLl records 4096) }

theorem registration_complete_two_files :
    (serverFiles (registerStorageServer 0 initNameServer
        (announcement shortRecords)).1 0).map filePair =
      shortRecords.map recordPair :=
  ((registration_complete_iff 0 (by decide) (by decide) (by decide)
    (by decide) (by decide)
    (StorageServer.copy_getFileListLl shortRecords 4095)).mpr
      (.inl (by decide +kernel))).1

/-- Of seventeen long names the last one does not arrive whole. -/
theorem registration_truncated :
    ¬ ((serverFiles (registerStorageServer 0 initNameServer
        (announcement longRecords)).1 0).map filePair =
      longRecords.map recordPair) := by
  have sent : (announcement longRecords).data.chars =
      StorageServer.getFileListLl longRecords 4096 :=
    StorageServer.copy_getFileListLl longRecords 4095
  have names : ∀ record ∈ longRecords, Plain record.filename.chars := by
    decide +kernel
  have owners : ∀ record ∈ longRecords, Plain record.owner.chars := by
    decide +kernel
  have read := (@registered_pairs initNameServer (announcement longRecords)
    longRecords 0 (by decide) (by decide) (by decide) names owners sent).1
  change List.map filePair (serverFiles _ initNameServer.storageServers.length)
    ≠ _
  rw [read, ne_eq, sentPairs_eq_iff names owners]
  have size : (StorageServer.fileCatalogue longRecords).length = 4419 := by
    rw [longRecords, List.range_succ_eq_map, List.map_cons,
      StorageServer.length_fileCatalogue]
    decide +kernel
  rintro (fits | ⟨exactly, _⟩)
  · omega
  · rw [size] at exactly
    exact absurd exactly (by decide)

end Dfs.NameServer
