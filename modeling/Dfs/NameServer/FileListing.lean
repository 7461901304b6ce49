import Dfs.Library.BoundedRows
import Dfs.NameServer.Confidentiality
import Dfs.NameServer.FileLists
import Mathlib.Tactic.Linarith

/-!
# VIEW

`handle_view_files` of `name_server/client_handler.c` goes through the file
arrays of all servers.  Without `-a` it asks the storage server of a file what
the user may do, with `-l` it asks once more and reads the numbers back from
the text of the answer.  The rows are printed into one message; the closing
border of the table replaces a row that was cut off.
-/

namespace Dfs.NameServer

open Dfs.StorageServer BoundedRows

/-- How the connections of a VIEW end, for each cell the one that asks for the
access and the one that asks for the details. -/
structure ViewLinks where
  access : FilePtr → Link
  details : FilePtr → Link

def showsAll (viewFlags : Int) : Bool :=
  viewFlags = viewFlagAll || viewFlags = viewFlagAllLong

def showsLong (viewFlags : Int) : Bool :=
  viewFlags = viewFlagLong || viewFlags = viewFlagAllLong

def systemUser : Username := CString.copy 63 "system".toList

/-- The details are cut to a buffer of 512 bytes. -/
def getFileDetails (sys : System) (context : NmContext) (link : Link)
    (filename : Filename) (ssId : Int) : Option Text :=
  match findStorageServer sys.nm.toNameServerState ssId with
  | none => none
  | some server =>
      match (sys.exchange context server (.info filename systemUser)
          link).2 with
      | .unconnected => none
      | .unsent => none
      | .unanswered _ => none
      | .answered response =>
          if response.errorCode = errSuccess then
            some ((CText.terminated response.data).take 511)
          else none

/-- The number behind the first occurrence of a label, otherwise zero. -/
def labelledNumber (label details : Text) : Int :=
  match (CText.fromFirst label details).bind fun line =>
      CInput.scanInt (line.drop label.length) with
  | none => 0
  | some (value, _) => value

def notAvailable : Text := "N/A".toList

/-- `%63[^\n]` behind blanks. -/
def scanLine (text : Text) : Text :=
  let found := ((text.dropWhile CText.isSpace).takeWhile (· ≠ '\n')).take 63
  if found = [] then notAvailable else found

def lastAccess (details : Text) : Text :=
  match CText.fromFirst "Last Accessed: ".toList details with
  | none => notAvailable
  | some line => scanLine (line.drop "Last Accessed: ".toList.length)

def tableRow (columns : List Text) : Text :=
  "| ".toList ++ " | ".toList.intercalate columns ++ " |\n".toList

def viewBorder : Text := List.replicate 57 '-' ++ ['\n']

def viewHeader : Text :=
  viewBorder ++
    tableRow
      [List.rightpad 12 ' ' "Filename".toList,
        List.rightpad 7 ' ' "Words".toList,
        List.rightpad 7 ' ' "Chars".toList,
        List.rightpad 16 ' ' "Last Access".toList,
        List.rightpad 7 ' ' "Owner".toList] ++
    "|--------------|---------|---------|------------------|-------|\n".toList

def detailsRow (file : FileInfo) (words chars accessed : Text) : Text :=
  tableRow
    [List.rightpad 12 ' ' file.filename.chars, List.leftpad 7 ' ' words,
      List.leftpad 7 ' ' chars, List.rightpad 16 ' ' accessed,
      List.rightpad 7 ' ' file.owner.chars]

def longRow (sys : System) (context : NmContext) (link : Link)
    (file : FileInfo) : Text :=
  match getFileDetails sys context link file.filename file.ssId with
  | some details =>
      detailsRow file (intText (labelledNumber "Words: ".toList details))
        (intText (labelledNumber "Characters: ".toList details))
        (lastAccess details)
  | none => detailsRow file notAvailable notAvailable notAvailable

def shortRow (file : FileInfo) : Text :=
  "--> ".toList ++ file.filename.chars ++ ['\n']

/-- The live cells of all servers, in the order of the two loops. -/
def livePtrs (nm : NameServerState) : List FilePtr :=
  (List.range nm.storageServers.length).flatMap fun server =>
    (List.range (serverFiles nm server).length).map fun slot => ⟨server, slot⟩

def isShown (sys : System) (context : NmContext) (links : ViewLinks)
    (viewFlags : Int) (username : Username) (ptr : FilePtr) : Bool :=
  let file := readFile sys.nm.toNameServerState ptr
  showsAll viewFlags || file.owner = username ||
    userHasAccess sys context (links.access ptr) file.filename username
      file.ssId

/-- The files that are not passed over. -/
def shownPtrs (sys : System) (context : NmContext) (links : ViewLinks)
    (viewFlags : Int) (username : Username) : List FilePtr :=
  (livePtrs sys.nm.toNameServerState).filter
    (isShown sys context links viewFlags username)

def noFilesFound : Text := "No files found".toList

/-- A table without rows is at most 200 bytes long. -/
def longListing (rows : List Text) : Text :=
  let printed := (printRows maxDataSize viewHeader rows).1
  if printed.length ≤ 200 then noFilesFound
  else printed ++ viewBorder.take (maxDataSize - printed.length - 1)

def shortListing (rows : List Text) : Text :=
  let (printed, buffer) := printRows maxDataSize [] rows
  if printed.length = 0 then noFilesFound else buffer

def handleViewFiles (sys : System) (context : NmContext) (links : ViewLinks)
    (viewFlags : Int) (username : Username) : Response :=
  let shown := shownPtrs sys context links viewFlags username
  let file := readFile sys.nm.toNameServerState
  success opView <|
    if showsLong viewFlags then
      longListing (shown.map fun ptr =>
        longRow sys context (links.details ptr) (file ptr))
    else shortListing (shown.map fun ptr => shortRow (file ptr))

theorem length_tableRow (columns : List Text) :
    (tableRow columns).length =
      (" | ".toList.intercalate columns).length + 5 := by
  simp [tableRow]

theorem length_detailsRow (file : FileInfo) (words chars accessed : Text) :
    (detailsRow file words chars accessed).length =
      max 12 file.filename.chars.length + max 7 words.length +
        max 7 chars.length + max 16 accessed.length +
        max 7 file.owner.chars.length + 17 := by
  rw [detailsRow, length_tableRow]
  simp only [List.intercalate, List.intersperse, List.flatten_cons,
    List.flatten_nil, List.length_append, List.length_nil,
    List.length_rightpad, List.length_leftpad,
    (by decide : " | ".toList.length = 3)]
  linarith

theorem length_viewHeader : viewHeader.length = 188 := by decide +kernel

theorem length_scanLine (text : Text) : (scanLine text).length ≤ 63 := by
  unfold scanLine
  simp only
  split
  · exact (by decide : notAvailable.length ≤ 63)
  · exact List.length_take_le _ _

theorem length_lastAccess (details : Text) :
    (lastAccess details).length ≤ 63 := by
  unfold lastAccess
  split
  · exact (by decide : notAvailable.length ≤ 63)
  · exact length_scanLine _

theorem isInt_labelledNumber (label details : Text) :
    CInput.IsInt (labelledNumber label details) := by
  unfold labelledNumber
  cases CText.fromFirst label details with
  | none => exact (by decide : CInput.IsInt 0)
  | some line =>
      cases scanned : CInput.scanInt (line.drop label.length) with
      | none => simp only [Option.bind_some, scanned]; decide
      | some found =>
          simp only [Option.bind_some, scanned]
          exact CInput.isInt_scanInt scanned

theorem length_intText_of_isInt {value : Int} (isInt : CInput.IsInt value) :
    (intText value).length ≤ 20 := by
  obtain ⟨least, most⟩ := isInt
  exact length_intText_le (by omega) (by omega)

theorem length_detailsRow_le (file : FileInfo) {words chars accessed : Text}
    (wordsFit : words.length ≤ 20) (charsFit : chars.length ≤ 20)
    (accessedFits : accessed.length ≤ 63) :
    (detailsRow file words chars accessed).length ≤
      255 + 20 + 20 + 63 + 63 + 17 := by
  rw [length_detailsRow]
  have name := max_le (by decide : 12 ≤ 255) file.filename.fits
  have owner := max_le (by decide : 7 ≤ 63) file.owner.fits
  have wordsWidth := max_le (by decide : 7 ≤ 20) wordsFit
  have charsWidth := max_le (by decide : 7 ≤ 20) charsFit
  have accessedWidth := max_le (by decide : 16 ≤ 63) accessedFits
  linarith

/-- A row is wider than what tells a table without rows, and the first one
has room behind the header. -/
theorem length_longRow (sys : System) (context : NmContext) (link : Link)
    (file : FileInfo) :
    12 < (longRow sys context link file).length ∧
      (longRow sys context link file).length < maxDataSize - 188 := by
  have fallback : notAvailable.length = 3 := by decide
  have row : ∃ words chars accessed : Text, words.length ≤ 20 ∧
      chars.length ≤ 20 ∧ accessed.length ≤ 63 ∧
      longRow sys context link file =
        detailsRow file words chars accessed := by
    unfold longRow
    split
    · exact ⟨_, _, _, length_intText_of_isInt (isInt_labelledNumber _ _),
        length_intText_of_isInt (isInt_labelledNumber _ _),
        length_lastAccess _, rfl⟩
    · exact ⟨_, _, _, by omega, by omega, by omega, rfl⟩
  obtain ⟨words, chars, accessed, wordsFit, charsFit, accessedFits, row⟩ := row
  rw [row]
  constructor
  · rw [length_detailsRow]
    exact Nat.lt_of_lt_of_le (by decide : 12 < 17) (Nat.le_add_left _ _)
  · exact Nat.lt_of_le_of_lt
      (length_detailsRow_le file wordsFit charsFit accessedFits) (by decide)

theorem longListing_nil : longListing [] = noFilesFound := by
  decide +kernel

theorem shortListing_nil : shortListing [] = noFilesFound := by
  decide +kernel

/-- Whole rows under the header and the border below them. -/
theorem longListing_cons {row : Text} {rows : List Text}
    (wide : 12 < row.length) (fits : row.length < maxDataSize - 188) :
    ∃ count, 0 < count ∧ count ≤ (row :: rows).length ∧
      longListing (row :: rows) =
        viewHeader ++ ((row :: rows).take count).flatten ++
          viewBorder.take (maxDataSize - 1 -
            (viewHeader ++ ((row :: rows).take count).flatten).length) ∧
      ∀ next ∈ ((row :: rows).drop count).head?, maxDataSize ≤
        (viewHeader ++ ((row :: rows).take count).flatten).length +
          next.length := by
  obtain ⟨count, within, printed, next⟩ :=
    @printRows_done Char maxDataSize (row :: rows) viewHeader
  have header := length_viewHeader
  have positive : 0 < count := by
    rcases Nat.eq_zero_or_pos count with rfl | positive
    · have full := next row (by simp)
      rw [List.take_zero, List.flatten_nil, List.append_nil] at full
      omega
    · exact positive
  have long : 200 < (viewHeader ++
      ((row :: rows).take count).flatten).length := by
    obtain ⟨count, rfl⟩ := Nat.exists_eq_succ_of_ne_zero positive.ne'
    rw [List.take_succ_cons, List.flatten_cons, List.length_append,
      List.length_append]
    omega
  refine ⟨count, positive, within, ?_, next⟩
  unfold longListing
  simp only [printed]
  rw [if_neg (by omega), Nat.sub_right_comm]

theorem shortListing_cons {row : Text} {rows : List Text}
    (inhabited : row ≠ []) (fits : row.length < maxDataSize) :
    shortListing (row :: rows) =
      (row :: rows).flatten.take (maxDataSize - 1) := by
  have buffer := @printRows_buffer Char maxDataSize (row :: rows) []
    (by decide)
  obtain ⟨count, -, printed, next⟩ :=
    @printRows_done Char maxDataSize (row :: rows) []
  have some : (printRows maxDataSize [] (row :: rows)).1.length ≠ 0 := by
    rw [printed]
    cases count with
    | zero =>
        have full := next row (by simp)
        simp at full
        omega
    | succ count => simpa using fun empty => absurd empty inhabited
  unfold shortListing
  simp only
  rw [if_neg some, buffer, List.nil_append]

theorem ne_noFilesFound {text : Text} (begins : text.head? = some '-') :
    text ≠ noFilesFound := by
  rintro rfl
  cases begins

theorem shortListing_map {files : List FileInfo} (some : files ≠ []) :
    shortListing (files.map shortRow) =
      ((files.map shortRow).flatten).take (maxDataSize - 1) := by
  obtain ⟨file, files, rfl⟩ := List.exists_cons_of_ne_nil some
  have name := file.filename.fits
  exact shortListing_cons (by simp [shortRow])
    (by simp [shortRow, maxDataSize]; omega)

theorem shortListing_iff (files : List FileInfo) :
    shortListing (files.map shortRow) = noFilesFound ↔ files = [] := by
  constructor
  · intro none
    by_contra some
    refine ne_noFilesFound ?_ none
    rw [shortListing_map some]
    obtain ⟨file, files, rfl⟩ := List.exists_cons_of_ne_nil some
    rfl
  · rintro rfl
    exact shortListing_nil

/-- What the storage server answers, or what was left over of a record that is
missing, names the user. -/
theorem userHasAccess_answer (sys : System) (context : NmContext)
    (link : Link) (filename : Filename) (username : Username) (ssId : Int) :
    userHasAccess sys context link filename username ssId = true ↔
      ∃ server, findStorageServer sys.nm.toNameServerState ssId =
          some server ∧
        link = .reliable ∧
        infoAdmits (infoText ((findMetadata (sys.stores server)
          filename).getD context.leftover)) username = true := by
  unfold userHasAccess
  cases findStorageServer sys.nm.toNameServerState ssId with
  | none => simp
  | some server =>
      cases link with
      | refused => simp [System.exchange]
      | broken => simp [System.exchange]
      | lost buffer => simp [System.exchange]
      | reliable => simp [System.exchange, handleNmConnection, nmInfo_eq]

section

variable (sys : System) (context : NmContext) (links : ViewLinks)
  (viewFlags : Int) (username : Username)

/-- A file is shown to whom the name server notes as its owner and to whom the
storage server's answer names. -/
theorem mem_shownPtrs_iff (ptr : FilePtr) :
    let file := readFile sys.nm.toNameServerState ptr
    ptr ∈ shownPtrs sys context links viewFlags username ↔
      ptr ∈ livePtrs sys.nm.toNameServerState ∧
        (showsAll viewFlags = true ∨ file.owner = username ∨
          ∃ server, findStorageServer sys.nm.toNameServerState file.ssId =
              some server ∧
            links.access ptr = .reliable ∧
            infoAdmits (infoText ((findMetadata (sys.stores server)
              file.filename).getD context.leftover)) username = true) := by
  intro file
  rw [shownPtrs, List.mem_filter]
  refine and_congr_right fun _ => ?_
  simp only [isShown, Bool.or_eq_true, decide_eq_true_eq, or_assoc]
  exact or_congr_right (or_congr_right (userHasAccess_answer ..))

theorem data_handleViewFiles :
    (handleViewFiles sys context links viewFlags username).data =
      if showsLong viewFlags then
        longListing ((shownPtrs sys context links viewFlags username).map
          fun ptr => longRow sys context (links.details ptr)
            (readFile sys.nm.toNameServerState ptr))
      else
        shortListing (((shownPtrs sys context links viewFlags username).map
          (readFile sys.nm.toNameServerState)).map shortRow) := by
  rw [List.map_map]
  rfl

/-- VIEW shows, in the order of the file arrays, exactly the files of the user
and those about which a storage server's answer names the user, with `-a` all
files: the names as far as the answer has room, with `-l` the first rows that
fit as a whole between the borders. -/
theorem view_lists_files (sys : System) (context : NmContext)
    (links : ViewLinks) (viewFlags : Int) (username : Username) :
    let nm := sys.nm.toNameServerState
    let file := readFile nm
    let shown := shownPtrs sys context links viewFlags username
    let data := (handleViewFiles sys context links viewFlags username).data
    let rows := shown.map fun ptr =>
      longRow sys context (links.details ptr) (file ptr)
    List.Sublist shown (livePtrs nm) ∧
      (∀ ptr, ptr ∈ shown ↔ ptr ∈ livePtrs nm ∧
        (showsAll viewFlags = true ∨ (file ptr).owner = username ∨
          ∃ server, findStorageServer nm (file ptr).ssId = some server ∧
            links.access ptr = .reliable ∧
            infoAdmits (infoText ((findMetadata (sys.stores server)
              (file ptr).filename).getD context.leftover)) username =
                true)) ∧
      (data = noFilesFound ↔ shown = []) ∧
      (showsLong viewFlags = false → shown ≠ [] →
        data = ((shown.map fun ptr => shortRow (file ptr)).flatten).take
          (maxDataSize - 1)) ∧
      (showsLong viewFlags = true → shown ≠ [] →
        ∃ count, 0 < count ∧ count ≤ shown.length ∧
          (let table := viewHeader ++ (rows.take count).flatten
          data = table ++ viewBorder.take (maxDataSize - 1 - table.length) ∧
            ∀ next ∈ (rows.drop count).head?,
              maxDataSize ≤ table.length + next.length)) := by
  intro nm file shown data rows
  have shortData : showsLong viewFlags = false →
      data = shortListing ((shown.map file).map shortRow) := fun short => by
    simp only [data, data_handleViewFiles, short, Bool.false_eq_true,
      if_false]
    rfl
  have longData : showsLong viewFlags = true → data = longListing rows :=
    fun long => by
      simp only [data, data_handleViewFiles, long, if_true]
      rfl
  have longRows : shown ≠ [] → ∃ count, 0 < count ∧ count ≤ shown.length ∧
      longListing rows = viewHeader ++ (rows.take count).flatten ++
        viewBorder.take (maxDataSize - 1 -
          (viewHeader ++ (rows.take count).flatten).length) ∧
      ∀ next ∈ (rows.drop count).head?, maxDataSize ≤
        (viewHeader ++ (rows.take count).flatten).length + next.length := by
    intro some
    obtain ⟨ptr, ptrs, cons⟩ := List.exists_cons_of_ne_nil some
    have width := length_longRow sys context (links.details ptr) (file ptr)
    obtain ⟨count, positive, within, printed⟩ :=
      @longListing_cons _ (ptrs.map fun ptr =>
        longRow sys context (links.details ptr) (file ptr)) width.1 width.2
    have same : rows = longRow sys context (links.details ptr) (file ptr) ::
        ptrs.map fun ptr =>
          longRow sys context (links.details ptr) (file ptr) := by
      simp only [rows, cons, List.map_cons]
    rw [same, cons]
    exact ⟨count, positive, by simpa using within, printed⟩
  refine ⟨List.filter_sublist, mem_shownPtrs_iff sys context links viewFlags
    username, ?_, ?_, ?_⟩
  · cases long : showsLong viewFlags with
    | false => rw [shortData long, shortListing_iff, List.map_eq_nil_iff]
    | true =>
        rw [longData long]
        constructor
        · intro none
          by_contra some
          obtain ⟨count, _, _, printed, _⟩ := longRows some
          exact ne_noFilesFound (by rw [printed]; rfl) none
        · intro none
          simp only [rows, none, List.map_nil, longListing_nil]
  · intro short some
    rw [shortData short, shortListing_map (by simpa using some), List.map_map]
    rfl
  · intro long some
    rw [longData long]
    exact longRows some

end

end Dfs.NameServer
