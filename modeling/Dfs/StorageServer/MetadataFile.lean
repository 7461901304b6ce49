import Dfs.Library.RecordFile
import Dfs.MessageFields
import Dfs.StorageServer.MetadataStore

/-!
# The bytes of `metadata.txt`

`save_metadata_ll` writes the array of records as it lies in memory and
`load_metadata_ll` reads it back, on the same machine.  A process that dies
while it writes leaves the front of the file.
-/

namespace Dfs.StorageServer

/-- `FileMetadata` in memory. -/
structure MetadataCells where
  filename : Vector Byte maxFilename
  owner : Vector Byte maxUsername
  createdTime : Vector Byte 64
  modifiedTime : Vector Byte 64
  accessedTime : Vector Byte 64
  fileSize : BitVec 64
  wordCount : Word
  charCount : Word
  accessList : Vector Byte maxDataSize

/-- What the program reads in the cells. -/
def MetadataCells.metadata (cells : MetadataCells) : FileMetadata where
  filename := stringOf cells.filename
  owner := stringOf cells.owner
  createdTime := stringOf cells.createdTime
  modifiedTime := stringOf cells.modifiedTime
  accessedTime := stringOf cells.accessedTime
  fileSize := cells.fileSize.toInt
  wordCount := cells.wordCount.toInt
  charCount := cells.charCount.toInt
  accessList := stringOf cells.accessList

/-- The compiler puts no padding between the fields. -/
def metadataLayout (order : ByteOrder) : Layout MetadataCells :=
  ((Layout.chars maxFilename).followedBy <|
    (Layout.chars maxUsername).followedBy <|
    (Layout.chars 64).followedBy <|
    (Layout.chars 64).followedBy <|
    (Layout.chars 64).followedBy <|
    (Layout.long order).followedBy <|
    (Layout.word order).followedBy <|
    (Layout.word order).followedBy <|
    Layout.chars maxDataSize).record
      (fun cells => (cells.filename, cells.owner, cells.createdTime,
        cells.modifiedTime, cells.accessedTime, cells.fileSize,
        cells.wordCount, cells.charCount, cells.accessList))
      (fun (filename, owner, createdTime, modifiedTime, accessedTime,
          fileSize, wordCount, charCount, accessList) =>
        ⟨filename, owner, createdTime, modifiedTime, accessedTime, fileSize,
          wordCount, charCount, accessList⟩)
      (fun _ => rfl)

def metadataSize : Nat := 4624

theorem size_metadataLayout (order : ByteOrder) :
    (metadataLayout order).size = metadataSize := by
  simp [metadataLayout, Layout.record, Layout.followedBy, Layout.word,
    Layout.long, Layout.chars, maxUsername, maxFilename, maxDataSize,
    metadataSize]

def saveMetadataFile (order : ByteOrder) (cells : List MetadataCells) :
    List Byte :=
  (metadataLayout order).writeRecords cells

def loadMetadataFile (order : ByteOrder) (bytes : List Byte) :
    List MetadataCells :=
  (metadataLayout order).readRecords maxFiles bytes

/-- The records of the server lie in these cells. -/
def FileHandler.LaidOut (s : FileHandler) (cells : List MetadataCells) :
    Prop :=
  cells.map MetadataCells.metadata = s.metadataList

/-- The cells of a record, with zeros behind the strings. -/
def cellsOf (record : FileMetadata) : MetadataCells where
  filename := fieldOf record.filename
  owner := fieldOf record.owner
  createdTime := fieldOf record.createdTime
  modifiedTime := fieldOf record.modifiedTime
  accessedTime := fieldOf record.accessedTime
  fileSize := BitVec.ofInt 64 record.fileSize
  wordCount := wordOfInt record.wordCount
  charCount := wordOfInt record.charCount
  accessList := fieldOf record.accessList

/-- The values that the fields of a record can have. -/
structure FileMetadata.Storable (record : FileMetadata) : Prop where
  filename : IsBytes record.filename.chars
  owner : IsBytes record.owner.chars
  createdTime : IsBytes record.createdTime.chars
  modifiedTime : IsBytes record.modifiedTime.chars
  accessedTime : IsBytes record.accessedTime.chars
  fileSize : -9223372036854775808 ≤ record.fileSize ∧
    record.fileSize < 9223372036854775808
  wordCount : CInput.IsInt record.wordCount
  charCount : CInput.IsInt record.charCount
  accessList : IsBytes record.accessList.chars

theorem storable_newMetadata {filename : Filename} {owner : Username}
    {now : TimeText} (filenameBytes : IsBytes filename.chars)
    (ownerBytes : IsBytes owner.chars) (nowBytes : IsBytes now.chars) :
    (newMetadata filename owner now).Storable := by
  have access : IsBytes (owner.chars ++ ":RW".toList) := by
    intro char member
    rcases List.mem_append.mp member with named | letters
    · exact ownerBytes char named
    · exact (by simp [IsBytes] : IsBytes ":RW".toList) char letters
  exact {
    filename := filenameBytes
    owner := ownerBytes
    createdTime := nowBytes
    modifiedTime := nowBytes
    accessedTime := nowBytes
    fileSize := (by decide : -9223372036854775808 ≤ (0 : Int) ∧
      (0 : Int) < 9223372036854775808)
    wordCount := (by decide : CInput.IsInt 0)
    charCount := (by decide : CInput.IsInt 0)
    accessList := access.copy 4095 }

theorem metadata_cellsOf {record : FileMetadata}
    (storable : record.Storable) : (cellsOf record).metadata = record := by
  have size : (BitVec.ofInt 64 record.fileSize).toInt = record.fileSize := by
    rw [BitVec.toInt_ofInt]
    exact Int.bmod_eq_of_le storable.fileSize.1 storable.fileSize.2
  simp only [MetadataCells.metadata, cellsOf,
    stringOf_fieldOf storable.filename, stringOf_fieldOf storable.owner,
    stringOf_fieldOf storable.createdTime,
    stringOf_fieldOf storable.modifiedTime,
    stringOf_fieldOf storable.accessedTime, size,
    toInt_wordOfInt storable.wordCount, toInt_wordOfInt storable.charCount,
    stringOf_fieldOf storable.accessList]

theorem storeInvariant_run {start : FileHandler}
    (unlisted : start.metadataList = []) (unsaved : start.metadataFile = none)
    (calls : List StoreCall) :
    StoreInvariant (StepRun.run storeStep start calls) := by
  have initially : StoreInvariant start := by
    refine ⟨?_, ?_, ?_⟩
    · rw [FileHandler.names, unlisted]
      exact List.nodup_nil
    · rw [unlisted]
      exact Nat.zero_le _
    · rw [unsaved, unlisted]
      rfl
  exact @StepRun.invariant _ _ storeStep (fun _ _ => True) StoreInvariant
    (fun _ call holds _ => (storeInvariant_step holds call).1) start calls
    initially (StepRun.allSteps_of_forall (fun _ _ => trivial) start calls)

/-- After every history of calls and restarts, a new process reads from the
bytes of the file the records that are in memory, and from a file that was
torn off the records that were written completely. -/
theorem metadata_file_round_trip {start : FileHandler}
    (unlisted : start.metadataList = []) (unsaved : start.metadataFile = none)
    (calls : List StoreCall) (order : ByteOrder)
    {cells : List MetadataCells}
    (laidOut : (StepRun.run storeStep start calls).LaidOut cells) :
    let s := StepRun.run storeStep start calls
    (loadMetadataFile order (saveMetadataFile order cells)).map
        MetadataCells.metadata = (restart s).metadataList ∧
      ∀ count, (loadMetadataFile order
          ((saveMetadataFile order cells).take count)).map
            MetadataCells.metadata =
        (restart s).metadataList.take (count / metadataSize) := by
  intro s
  have inv : StoreInvariant s := storeInvariant_run unlisted unsaved calls
  have same := (storeInvariant_restart inv).2
  have size := size_metadataLayout order
  have inhabited : 0 < (metadataLayout order).size := by
    rw [size]
    decide
  have few : cells.length ≤ maxFiles := by
    have length := congrArg List.length laidOut
    rw [List.length_map] at length
    rw [length]
    exact inv.bounded
  rw [same, ← laidOut]
  constructor
  · rw [loadMetadataFile, saveMetadataFile,
      Layout.readRecords_writeRecords inhabited,
      List.take_of_length_le few]
  · intro count
    rw [loadMetadataFile, saveMetadataFile,
      Layout.readRecords_take inhabited, size, ← List.map_take, min_comm,
      ← List.take_take, List.take_of_length_le few]

private def savedRecord : FileMetadata :=
  newMetadata (CString.copy 255 "ledger".toList)
    (CString.copy 63 "ann".toList) (CString.copy 63 "2025-01-01".toList)

private theorem storable_savedRecord : savedRecord.Storable := by
  apply storable_newMetadata
  · exact IsBytes.copy (by simp [IsBytes]) 255
  · exact IsBytes.copy (by simp [IsBytes]) 63
  · exact IsBytes.copy (by simp [IsBytes]) 63

/-- The file ends one byte before the end of the record. -/
theorem metadata_file_round_trip_torn :
    (loadMetadataFile .littleEndian ((saveMetadataFile .littleEndian
      [cellsOf savedRecord]).take 4623)).map MetadataCells.metadata = [] := by
  have laidOut : (StepRun.run storeStep freshServer
      [.createFile savedRecord.filename savedRecord.owner
        savedRecord.createdTime]).LaidOut [cellsOf savedRecord] := by
    rw [FileHandler.LaidOut, List.map_singleton,
      metadata_cellsOf storable_savedRecord]
    decide +kernel
  have torn := (metadata_file_round_trip rfl rfl _ .littleEndian laidOut).2
    4623
  rw [torn]
  rfl

end Dfs.StorageServer
