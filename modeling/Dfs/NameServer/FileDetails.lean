import Dfs.NameServer.FileListing
import Dfs.NameServer.InfoAccess

/-!
# Records read back by VIEW

The name server knows of a record what it finds in the text of an INFO answer.
Whoever may read finds the file in the listing, and the numbers of a long row
are those of the record unless the buffer of 512 bytes cuts them off.
-/

namespace Dfs.NameServer

open Dfs.StorageServer CInput

section

variable {metadata : FileMetadata} {username : Username}

theorem infoLine_within {line : Text} (member : line ∈ infoLines metadata) :
    line <:+: wholeInfo metadata :=
  CText.infix_intercalate _ member

/-- The entry of a reader stands in the list. -/
theorem readEntry_infix_accessList
    (listed : username.chars ++ ":R".toList ∈
        accessEntries metadata.accessList ∨
      username.chars ++ ":RW".toList ∈ accessEntries metadata.accessList) :
    readEntry username.chars <:+: metadata.accessList.chars := by
  rcases listed with reader | writer
  · exact (CText.mem_strtok reader).part
  · refine List.IsInfix.trans ?_ (CText.mem_strtok writer).part
    exact List.IsPrefix.isInfix ⟨['W'], by simp [readEntry]⟩

/-- Whoever may read is named in an answer that is not cut. -/
theorem infoAdmits_of_allowed (fits : InfoFits metadata)
    (allowed : ReadAllowed metadata username) :
    infoAdmits (infoText metadata) username = true := by
  rw [infoText_of_fits fits, infoAdmits_iff]
  rcases allowed with owner | listed
  · left
    rw [← owner]
    exact infoLine_within (by simp [infoLines])
  · right
    obtain ⟨front, back, whole⟩ := @infoLine_within metadata
      ("Access: ".toList ++ metadata.accessList.chars) (by simp [infoLines])
    have begins : "Access: ".toList <+:
        ("Access: ".toList ++ metadata.accessList.chars) ++ back := by
      rw [List.append_assoc]
      exact List.prefix_append _ _
    obtain ⟨line, found, behind⟩ := exists_fromFirst begins front
    rw [← List.append_assoc, whole] at found
    refine ⟨line, found, ?_⟩
    have inLine := (readEntry_infix_accessList listed).trans
      (List.suffix_append "Access: ".toList metadata.accessList.chars).isInfix
    exact (inLine.trans (List.prefix_append _ back).isInfix).trans
      behind.isInfix

end

/-- The lines of the text with the names of their labels. -/
def infoFields (metadata : FileMetadata) : List (Text × Text) :=
  [("File".toList, metadata.filename.chars),
    ("Owner".toList, metadata.owner.chars),
    ("Created".toList, metadata.createdTime.chars),
    ("Last Modified".toList, metadata.modifiedTime.chars),
    ("Size".toList, intText metadata.fileSize ++ " bytes".toList),
    ("Words".toList, intText metadata.wordCount),
    ("Characters".toList, intText metadata.charCount),
    ("Access".toList, metadata.accessList.chars),
    ("Last Accessed".toList, metadata.accessedTime.chars)]

theorem infoLines_eq (metadata : FileMetadata) :
    infoLines metadata =
      (infoFields metadata).map fun field => labelled field.1 field.2 := by
  simp [infoLines, infoFields, labelled]

/-- The first lines of the text, each with its newline. -/
def infoFront (metadata : FileMetadata) (count : Nat) : Text :=
  ended ((infoLines metadata).take count)

/-- Where the time of the last access begins. -/
def accessedStart (metadata : FileMetadata) : Nat :=
  (infoFront metadata 8).length + 15

/-- The labels that the name server searches for. -/
def searchedLabels : List Text :=
  ["Words".toList, "Characters".toList, "Last Accessed".toList]

/-- No field holds a label that is searched for. -/
def LabelFree (metadata : FileMetadata) : Prop :=
  ∀ name ∈ searchedLabels,
    ∀ value ∈ [metadata.filename.chars, metadata.owner.chars,
      metadata.createdTime.chars, metadata.modifiedTime.chars,
      metadata.accessList.chars], ¬ labelled name [] <:+: value

instance (metadata : FileMetadata) : Decidable (LabelFree metadata) :=
  inferInstanceAs (Decidable (∀ name ∈ _, ∀ value ∈ _, ¬ _ <:+: _))

section

variable {metadata : FileMetadata}

/-- A label that is searched for is in its own line only. -/
theorem label_absent (free : LabelFree metadata) {name : Text}
    (searched : name ∈ searchedLabels) {field : Text × Text}
    (member : field ∈ (infoFields metadata).take 8)
    (other : ¬ name <:+ field.1) :
    ¬ labelled name [] <:+: labelled field.1 field.2 := by
  have shape : ':' ∉ name ∧ name.head? ≠ some ' ' :=
    (by decide : ∀ name ∈ searchedLabels, ':' ∉ name ∧
      name.head? ≠ some ' ') name searched
  have numbers : ∀ value, ':' ∉ intText value :=
    not_mem_intText (by decide) (by decide)
  have unlabelled : ∀ value, ':' ∉ value → ¬ labelled name [] <:+: value :=
    fun value absent part => absent (part.subset (by simp [labelled]))
  have labels : ∀ field ∈ infoFields metadata, ':' ∉ field.1 := by
    simp [infoFields]
  have texts := free name searched
  have plain := labels field (List.mem_of_mem_take member)
  simp only [infoFields, List.take_succ_cons, List.take_zero, List.mem_cons,
    List.not_mem_nil, or_false] at member
  apply infix_labelled shape.1 shape.2 plain other
  rcases member with rfl | rfl | rfl | rfl | rfl | rfl | rfl | rfl
  · exact texts _ (by simp)
  · exact texts _ (by simp)
  · exact texts _ (by simp)
  · exact texts _ (by simp)
  · exact unlabelled _ (by simp [numbers])
  · exact unlabelled _ (numbers _)
  · exact unlabelled _ (numbers _)
  · exact texts _ (by simp)

/-- The lines before its own do not have the label. -/
theorem fromFirst_infoFront (free : LabelFree metadata) {name : Text}
    (searched : name ∈ searchedLabels) {count : Nat} (within : count ≤ 8)
    (others : ∀ field ∈ (infoFields metadata).take count,
      ¬ name <:+ field.1) (rest : Text) :
    CText.fromFirst (labelled name []) (infoFront metadata count ++ rest) =
      CText.fromFirst (labelled name []) rest := by
  have oneLine : '\n' ∉ labelled name [] :=
    (by decide : ∀ name ∈ searchedLabels, '\n' ∉ labelled name []) name
      searched
  apply fromFirst_ended oneLine
  rw [infoLines_eq, ← List.map_take]
  intro line member
  obtain ⟨field, inFront, rfl⟩ := List.mem_map.mp member
  refine label_absent free searched ?_ (others field inFront)
  have front : (infoFields metadata).take count =
      ((infoFields metadata).take 8).take count := by
    rw [List.take_take, min_eq_left within]
  rw [front] at inFront
  exact List.mem_of_mem_take inFront

theorem wholeInfo_split {count : Nat} (within : count < 9) :
    wholeInfo metadata = infoFront metadata count ++
      ['\n'].intercalate ((infoLines metadata).drop count) := by
  have some : (infoLines metadata).drop count ≠ [] := by
    rw [ne_eq, List.drop_eq_nil_iff]
    simpa [infoLines] using within
  rw [infoFront, ← intercalate_ended _ some, List.take_append_drop, wholeInfo]

theorem infoFront_succ {count : Nat} {field : Text × Text}
    (here : (infoFields metadata)[count]? = some field) :
    infoFront metadata (count + 1) =
      infoFront metadata count ++ (labelled field.1 field.2 ++ ['\n']) := by
  have line : (infoLines metadata)[count]? =
      some (labelled field.1 field.2) := by
    rw [infoLines_eq, List.getElem?_map, here]
    rfl
  rw [infoFront, List.take_add_one, line, infoFront, ended, ended]
  simp

/-- A line that is not cut is found with its newline. -/
theorem take_wholeInfo {count : Nat} (within : count < 8)
    {field : Text × Text} (here : (infoFields metadata)[count]? = some field)
    {limit : Nat}
    (fits : (infoFront metadata (count + 1)).length ≤ limit) :
    ∃ rest, (wholeInfo metadata).take limit = infoFront metadata count ++
      (labelled field.1 field.2 ++ '\n' :: rest) := by
  have whole : count + 1 < 9 := by omega
  refine ⟨(['\n'].intercalate ((infoLines metadata).drop (count + 1))).take
    (limit - (infoFront metadata (count + 1)).length), ?_⟩
  rw [wholeInfo_split whole, List.take_append, List.take_of_length_le fits,
    infoFront_succ here]
  simp

/-- The owner is always named. -/
theorem infoAdmits_owner (metadata : FileMetadata) :
    infoAdmits (infoText metadata) metadata.owner = true := by
  have first := @infoFront_succ metadata 0 _ rfl
  have second := @infoFront_succ metadata 1 _ rfl
  have short : (infoFront metadata 2).length ≤ maxDataSize - 1 := by
    have name := metadata.filename.fits
    have owner := metadata.owner.fits
    have none : infoFront metadata 0 = [] := rfl
    rw [second, first, none]
    simp [labelled, maxDataSize]
    omega
  obtain ⟨rest, text⟩ := @take_wholeInfo metadata 1 (by decide) _ rfl _ short
  rw [infoAdmits_iff, infoText_eq, text]
  exact .inl ⟨infoFront metadata 1, '\n' :: rest, by simp [labelled]⟩

/-- The number of a line that is not cut is read back. -/
theorem labelledNumber_of_line (free : LabelFree metadata) {name : Text}
    (searched : name ∈ searchedLabels) {count : Nat} (within : count < 8)
    {value : Int} (isInt : IsInt value)
    (here : (infoFields metadata)[count]? = some (name, intText value))
    (others : ∀ field ∈ (infoFields metadata).take count,
      ¬ name <:+ field.1) {limit : Nat}
    (fits : (infoFront metadata (count + 1)).length ≤ limit) :
    labelledNumber (labelled name []) ((wholeInfo metadata).take limit) =
      value := by
  obtain ⟨rest, text⟩ := take_wholeInfo within here fits
  have begins : labelled name [] <+:
      labelled name (intText value) ++ '\n' :: rest :=
    ⟨intText value ++ '\n' :: rest, by simp [labelled]⟩
  have behind : (labelled name (intText value) ++ '\n' :: rest).drop
      (labelled name []).length = decimal value ++ '\n' :: rest := by
    rw [intText_eq_decimal]
    simp [labelled]
  have stops : StopsDigits ('\n' :: rest) := by
    intro byte member
    cases member
    decide
  rw [labelledNumber, text,
    fromFirst_infoFront free searched (by omega) others,
    fromFirst_of_begins begins, Option.bind_some, behind,
    scanInt_decimal isInt stops]

/-- The time is read as far as it is in the buffer, if all of its label is. -/
theorem lastAccess_of_record (free : LabelFree metadata) (limit : Nat) :
    lastAccess ((wholeInfo metadata).take limit) =
      if accessedStart metadata ≤ limit then
        scanLine (metadata.accessedTime.chars.take
          (limit - accessedStart metadata))
      else notAvailable := by
  have searched : "Last Accessed".toList ∈ searchedLabels := by decide
  have others : ∀ field ∈ (infoFields metadata).take 8,
      ¬ "Last Accessed".toList <:+ field.1 := by
    simp [infoFields]
    decide
  have found : ∀ rest, CText.fromFirst "Last Accessed: ".toList
      (infoFront metadata 8 ++ rest) =
        CText.fromFirst "Last Accessed: ".toList rest :=
    fromFirst_infoFront free searched le_rfl others
  have whole : wholeInfo metadata = infoFront metadata 8 ++
      ("Last Accessed: ".toList ++ metadata.accessedTime.chars) := by
    have split := @wholeInfo_split metadata 8 (by decide)
    simpa [infoLines] using split
  have width : "Last Accessed: ".toList.length = 15 := by decide
  have start : accessedStart metadata = (infoFront metadata 8).length + 15 :=
    rfl
  by_cases inside : accessedStart metadata ≤ limit
  · have text : (wholeInfo metadata).take limit = infoFront metadata 8 ++
        ("Last Accessed: ".toList ++
          metadata.accessedTime.chars.take
            (limit - accessedStart metadata)) := by
      rw [whole, ← List.append_assoc, List.take_append,
        List.take_of_length_le (by rw [List.length_append]; omega),
        List.append_assoc, List.length_append, width, start]
    have here := found ("Last Accessed: ".toList ++
      metadata.accessedTime.chars.take (limit - accessedStart metadata))
    rw [fromFirst_of_begins (List.prefix_append _ _)] at here
    rw [if_pos inside, lastAccess, text, here]
    simp only [List.drop_left]
  · -- a part of the label at most
    have absent : ¬ "Last Accessed: ".toList <:+:
        infoFront metadata 8 ++ "Last Accessed:".toList := by
      rw [← CText.fromFirst_eq_none_iff]
      rw [found]
      decide
    have cut : (wholeInfo metadata).take limit <+:
        infoFront metadata 8 ++ "Last Accessed:".toList := by
      have split : wholeInfo metadata =
          (infoFront metadata 8 ++ "Last Accessed:".toList) ++
            (' ' :: metadata.accessedTime.chars) := by
        rw [whole]
        simp
      have short : limit ≤ (infoFront metadata 8 ++
          "Last Accessed:".toList).length := by
        rw [List.length_append]
        have : "Last Accessed:".toList.length = 14 := by decide
        omega
      rw [split, List.take_append_of_le_length short]
      exact List.take_prefix _ _
    have nowhere : CText.fromFirst "Last Accessed: ".toList
        ((wholeInfo metadata).take limit) = none :=
      CText.fromFirst_eq_none_iff.mpr fun part =>
        absent (part.trans cut.isInfix)
    rw [if_neg inside, lastAccess, nowhere]

theorem nul_not_mem_wholeInfo (metadata : FileMetadata) :
    CText.nul ∉ wholeInfo metadata := by
  have number : ∀ value, CText.nul ∉ intText value :=
    not_mem_intText (by decide) (by decide)
  simp [wholeInfo, infoLines, CText.nul]
  exact ⟨metadata.filename.nulFree, metadata.owner.nulFree,
    metadata.createdTime.nulFree, metadata.modifiedTime.nulFree, number _,
    number _, number _, metadata.accessList.nulFree,
    metadata.accessedTime.nulFree⟩

end

/-- A long row has the numbers of the record, if their lines fit into the
buffer of the name server, and of the time of the last access what fits. -/
theorem longRow_of_record {sys : System} {context : NmContext}
    {file : FileInfo} {server : Nat} {metadata : FileMetadata}
    (found : findStorageServer sys.nm.toNameServerState file.ssId =
      some server)
    (record : findMetadata (sys.stores server) file.filename = some metadata)
    (words : IsInt metadata.wordCount) (chars : IsInt metadata.charCount)
    (free : LabelFree metadata)
    (fits : (infoFront metadata 7).length ≤ 511) :
    longRow sys context .reliable file =
      detailsRow file (intText metadata.wordCount)
        (intText metadata.charCount)
        (if accessedStart metadata ≤ 511 then
          scanLine (metadata.accessedTime.chars.take
            (511 - accessedStart metadata))
        else notAvailable) := by
  have nulFree : CText.nul ∉ (wholeInfo metadata).take (maxDataSize - 1) :=
    fun member =>
      nul_not_mem_wholeInfo metadata (List.mem_of_mem_take member)
  have details : getFileDetails sys context .reliable file.filename
      file.ssId = some ((wholeInfo metadata).take 511) := by
    simp only [getFileDetails, found, System.exchange, handleNmConnection,
      nmInfo_eq, record, Option.getD_some, if_true, infoText_eq,
      CText.terminated_eq_self nulFree, List.take_take]
    rfl
  have shorter : (infoFront metadata 6).length ≤ 511 := by
    have whole := @infoFront_succ metadata 6 _ rfl
    rw [whole, List.length_append] at fits
    omega
  have wordsRead := @labelledNumber_of_line metadata free "Words".toList
    (by decide) 5 (by decide) _ words rfl (by simp [infoFields]; decide) _
    shorter
  have charsRead := @labelledNumber_of_line metadata free "Characters".toList
    (by decide) 6 (by decide) _ chars rfl (by simp [infoFields]; decide) _
    fits
  rw [longRow, details]
  simp only
  rw [lastAccess_of_record free]
  congr 2

private def listedRecord : FileMetadata :=
  { newMetadata (CString.copy 255 "notes".toList)
      (CString.copy 63 "alice".toList)
      (CString.copy 63 "2025-10-10 14:32:00".toList) with
    fileSize := 12
    wordCount := 2
    charCount := 12 }

private def listedFile : FileInfo :=
  ⟨listedRecord.filename, listedRecord.owner, 1, 0, 0⟩

private def listedSystem : System :=
  { (initSystem freshHosts).register 0
      ⟨1, CString.copy 15 [], 0, 0, CString.copy 4095 []⟩ with
    stores := fun _ => { freshServer with
      metadataList := [listedRecord] } }

private def listingContext : NmContext :=
  { now := CString.copy 63 []
    leftover := listedRecord }

theorem longRow_of_record_listed :
    longRow listedSystem listingContext .reliable listedFile =
      detailsRow listedFile "2".toList "12".toList
        "2025-10-10 14:32:00".toList := by
  have row := @longRow_of_record listedSystem listingContext listedFile 0
    listedRecord (by decide +kernel) (by decide +kernel) (by decide)
    (by decide) (by decide +kernel) (by decide +kernel)
  have time : (if accessedStart listedRecord ≤ 511 then
      scanLine (listedRecord.accessedTime.chars.take
        (511 - accessedStart listedRecord))
      else notAvailable) = "2025-10-10 14:32:00".toList := by
    decide +kernel
  rw [row, time]
  rfl

end Dfs.NameServer
