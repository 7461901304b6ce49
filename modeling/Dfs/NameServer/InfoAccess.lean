import Dfs.NameServer.ClientHandlers
import Dfs.StorageServer.RevokedAccess

/-!
# Access read from an INFO answer

The name server decides about EXEC and VIEW by searching the text that the
storage server formats from a record.  Whoever may read is found there.  So is
a user whose name begins the owner's, ends a listed name, or is written in the
name or in a time of the file.
-/

namespace Dfs.NameServer

open StorageServer

def infoLines (metadata : FileMetadata) : List Text :=
  ["File: ".toList ++ metadata.filename.chars,
    "Owner: ".toList ++ metadata.owner.chars,
    "Created: ".toList ++ metadata.createdTime.chars,
    "Last Modified: ".toList ++ metadata.modifiedTime.chars,
    "Size: ".toList ++ intText metadata.fileSize ++ " bytes".toList,
    "Words: ".toList ++ intText metadata.wordCount,
    "Characters: ".toList ++ intText metadata.charCount,
    "Access: ".toList ++ metadata.accessList.chars,
    "Last Accessed: ".toList ++ metadata.accessedTime.chars]

def wholeInfo (metadata : FileMetadata) : Text :=
  ['\n'].intercalate (infoLines metadata)

theorem infoText_eq (metadata : FileMetadata) :
    infoText metadata = (wholeInfo metadata).take (maxDataSize - 1) := by
  simp only [infoText, wholeInfo, infoLines, CText.intercalate_cons_cons,
    List.intercalate_singleton]
  simp

/-- Nothing of the text is cut. -/
def InfoFits (metadata : FileMetadata) : Prop :=
  (wholeInfo metadata).length < maxDataSize

instance (metadata : FileMetadata) : Decidable (InfoFits metadata) :=
  inferInstanceAs (Decidable (_ < _))

theorem infoText_of_fits {metadata : FileMetadata}
    (fits : InfoFits metadata) : infoText metadata = wholeInfo metadata := by
  rw [infoText_eq]
  apply List.take_of_length_le
  unfold InfoFits at fits
  omega

/-- The beginning of every entry of the user. -/
def readEntry (user : Text) : Text :=
  user ++ ":R".toList

theorem readEntry_eq (user : Text) : readEntry user = user ++ [':', 'R'] :=
  rfl

theorem mem_readEntry {user : Text} {byte : Char} :
    byte ∈ readEntry user ↔ byte ∈ user ∨ byte = ':' ∨ byte = 'R' := by
  simp [readEntry_eq]

/-- The text from the first `Access: ` on has the entry of the user. -/
def ReadBehind (user text : Text) : Prop :=
  ∃ line ∈ CText.fromFirst "Access: ".toList text,
    readEntry user <:+: line

theorem infoAdmits_iff {info : Text} {username : Username} :
    infoAdmits info username = true ↔
      "Owner: ".toList ++ username.chars <:+: info ∨
        ReadBehind username.chars info := by
  have found : ∀ pattern text : Text,
      (CText.strstr pattern text).isSome = true ↔ pattern <:+: text := by
    intro pattern text
    rw [← not_iff_not, ← CText.strstr_eq_none_iff]
    simp
  have shorter : ∀ text : Text, username.chars ++ ":RW".toList <:+: text →
      username.chars ++ ":R".toList <:+: text := by
    intro text part
    refine List.IsInfix.trans (List.IsPrefix.isInfix ⟨['W'], ?_⟩) part
    simp
  unfold infoAdmits ReadBehind CText.fromFirst
  simp only [found]
  by_cases owner : "Owner: ".toList ++ username.chars <:+: info
  · simp only [owner, if_true, true_or]
  · simp only [owner, if_false, false_or]
    cases CText.strstr "Access: ".toList info with
    | none => simp
    | some position =>
        simp only [Option.map_some, Option.mem_some_iff, exists_eq_left',
          Bool.or_eq_true, found]
        exact ⟨fun parts => parts.elim id (shorter _), .inl⟩

/-- An entry lies within one line. -/
theorem read_in_lines_iff {user line rest : Text} (oneLine : '\n' ∉ user) :
    readEntry user <:+: line ++ '\n' :: rest ↔
      readEntry user <:+: line ∨ readEntry user <:+: rest := by
  apply CText.infix_append_cons_iff
  simp [mem_readEntry, oneLine]

/-- One line more at the front. -/
theorem readBehind_line {user line rest : Text} (oneLine : '\n' ∉ user) :
    ReadBehind user (line ++ '\n' :: rest) ↔
      (∃ found ∈ CText.fromFirst "Access: ".toList line,
          readEntry user <:+: found ∨
            readEntry user <:+: rest) ∨
        CText.fromFirst "Access: ".toList line = none ∧
          ReadBehind user rest := by
  have openingFree : '\n' ∉ "Access: ".toList := by decide
  unfold ReadBehind
  rw [CText.fromFirst_append_cons openingFree]
  cases CText.fromFirst "Access: ".toList line with
  | none => simp
  | some found =>
      simp only [Option.mem_some_iff, exists_eq_left',
        read_in_lines_iff oneLine, reduceCtorEq, false_and, or_false]

section Lines

variable {user : Text}

/-- In a line with a label the entry is behind the colon. -/
theorem read_in_line_iff (free : ':' ∉ user) {name label value : Text}
    (nameFree : ':' ∉ name) (labelled : label = name ++ [':', ' ']) :
    readEntry user <:+: label ++ value ↔ readEntry user <:+: ' ' :: value := by
  have around := @CText.infix_at_separator user ':' name ['R']
    (' ' :: value) free nameFree
  rw [labelled, List.append_assoc, readEntry_eq]
  refine around.trans ?_
  simp

theorem not_read_of_free {value : Text} (free : ':' ∉ value) :
    ¬ readEntry user <:+: value := by
  intro part
  exact free (part.subset (mem_readEntry.mpr (.inr (.inl rfl))))

/-- Behind its label the owner's name begins with the user's. -/
theorem called_in_owner_iff {owner : Text} (free : ':' ∉ owner) :
    "Owner: ".toList ++ user <:+: "Owner: ".toList ++ owner ↔
      user <+: owner := by
  have around := @CText.infix_at_separator "Owner".toList ':'
    "Owner".toList (' ' :: user) (' ' :: owner) (by decide) (by decide)
  have behind : ¬ "Owner".toList ++ ':' :: ' ' :: user <:+:
      ' ' :: owner := by
    intro part
    have member : ':' ∈ ' ' :: owner := part.subset (by simp)
    rcases List.mem_cons.mp member with colon | member
    · exact absurd colon (by decide)
    · exact free member
  refine around.trans ?_
  rw [or_iff_left behind, and_iff_right List.suffix_rfl,
    List.cons_prefix_cons, and_iff_right rfl]

theorem called_in_line_iff {label value : Text} (absent : 'O' ∉ label) :
    "Owner: ".toList ++ user <:+: label ++ value ↔
      "Owner: ".toList ++ user <:+: value :=
  CText.infix_append_iff_of_head absent

end Lines

/-- Fields that hold any text. -/
def freeFields (metadata : FileMetadata) : List Text :=
  [metadata.filename.chars, metadata.createdTime.chars,
    metadata.modifiedTime.chars, metadata.accessedTime.chars]

/-- How the name of a user comes to be found in the text. -/
inductive NamedInInfo (metadata : FileMetadata) (user : Text) : Prop where
  | beginsOwner (begins : user <+: metadata.owner.chars)
  | endsName (entry : AccessEntry)
      (listed : entry.text ∈ accessEntries metadata.accessList)
      (ends : user <:+ entry.name)
  | beginsList
      (begins : readEntry user <+: ' ' :: metadata.accessList.chars)
  | calledOwner (field : Text) (free : field ∈ freeFields metadata)
      (part : "Owner: ".toList ++ user <:+: field)
  | lastAccess
      (part : readEntry user <:+: ' ' :: metadata.accessedTime.chars)
  | calledReader
      (behind : ReadBehind user (metadata.filename.chars ++
        '\n' :: ' ' :: metadata.createdTime.chars ++
        '\n' :: ' ' :: metadata.modifiedTime.chars))

/-- Every entry of the list is a plain name with its access. -/
def PlainList (accessList : DataText) : Prop :=
  ∀ token ∈ accessEntries accessList,
    ∃ entry : AccessEntry, PlainName entry.name ∧ entry.text = token

section Named

variable {metadata : FileMetadata} {user : Text}

/-- The list has the entry of a user at the end of a listed name. -/
theorem read_in_list_iff (plainList : PlainList metadata.accessList)
    (plain : PlainName user) :
    readEntry user <:+: metadata.accessList.chars ↔
      ∃ entry : AccessEntry,
        entry.text ∈ accessEntries metadata.accessList ∧
          user <:+ entry.name := by
  have commaFree : ',' ∉ readEntry user := by
    simp [mem_readEntry, plain.2]
  have atEnd : ∀ entry : AccessEntry, user <:+ entry.name →
      readEntry user <:+: entry.text := by
    rintro entry ⟨front, name⟩
    obtain ⟨rest, letters⟩ := entry.letters_begin
    refine ⟨front, rest, ?_⟩
    rw [AccessEntry.text, ← name, ← letters, readEntry_eq]
    simp
  have onlyAtEnd : ∀ entry : AccessEntry, PlainName entry.name →
      readEntry user <:+: entry.text → user <:+ entry.name := by
    intro entry entryPlain part
    have around := @CText.infix_at_separator user ':' entry.name ['R']
      entry.letters plain.1 entryPlain.1
    have behind : ¬ user ++ ':' :: ['R'] <:+: entry.letters := by
      intro part
      exact AccessEntry.not_mem_letters (by decide) (by decide) entry
        (part.subset (by simp : ':' ∈ user ++ ':' :: ['R']))
    exact ((around.mp part).resolve_right behind).1
  rw [CText.infix_iff_token commaFree (by simp [readEntry_eq])]
  constructor
  · rintro ⟨token, member, part⟩
    obtain ⟨entry, entryPlain, rfl⟩ := plainList token member
    exact ⟨entry, member, onlyAtEnd entry entryPlain part⟩
  · rintro ⟨entry, member, ends⟩
    exact ⟨entry.text, member, atEnd entry ends⟩

/-- No owner is called in an entry. -/
theorem not_called_in_list (plainList : PlainList metadata.accessList)
    (plain : PlainName user) :
    ¬ "Owner: ".toList ++ user <:+: metadata.accessList.chars := by
  have commaFree : ',' ∉ "Owner: ".toList ++ user := by
    rw [List.mem_append]
    rintro (member | member)
    · exact absurd member (by decide)
    · exact plain.2 member
  rw [CText.infix_iff_token commaFree (by simp)]
  rintro ⟨token, member, part⟩
  obtain ⟨entry, entryPlain, rfl⟩ := plainList token member
  have around := @CText.infix_at_separator "Owner".toList ':' entry.name
    (' ' :: user) entry.letters (by decide) entryPlain.1
  rcases around.mp part with ⟨_, begins⟩ | behind
  · have first : ' ' ∈ entry.letters := begins.subset (by simp)
    exact AccessEntry.not_mem_letters (by decide) (by decide) entry first
  · have member : ':' ∈ entry.letters := behind.subset (by simp)
    exact AccessEntry.not_mem_letters (by decide) (by decide) entry member

/-- Where the owner can be called. -/
theorem called_in_info_iff (plainList : PlainList metadata.accessList)
    (ownerFree : ':' ∉ metadata.owner.chars) (plain : PlainName user)
    (oneLine : '\n' ∉ user) :
    "Owner: ".toList ++ user <:+: wholeInfo metadata ↔
      user <+: metadata.owner.chars ∨
        ∃ field ∈ freeFields metadata,
          "Owner: ".toList ++ user <:+: field := by
  have lineFree : '\n' ∉ "Owner: ".toList ++ user := by
    rw [List.mem_append]
    rintro (member | member)
    · exact absurd member (by decide)
    · exact oneLine member
  have number : ∀ value : Int,
      ¬ "Owner: ".toList ++ user <:+: intText value := by
    intro value part
    exact not_mem_intText (by decide) (by decide) value
      (part.subset (List.mem_append_left user (by decide : 'O' ∈ _)))
  have size : ¬ "Owner: ".toList ++ user <:+:
      "Size: ".toList ++ intText metadata.fileSize ++ " bytes".toList := by
    intro part
    have member : 'O' ∈ "Size: ".toList ++ intText metadata.fileSize ++
        " bytes".toList :=
      part.subset (List.mem_append_left user (by decide : 'O' ∈ _))
    rw [List.mem_append, List.mem_append] at member
    rcases member with (inLabel | inNumber) | inUnit
    · exact absurd inLabel (by decide)
    · exact not_mem_intText (by decide) (by decide) _ inNumber
    · exact absurd inUnit (by decide)
  rw [wholeInfo, CText.infix_intercalate_iff lineFree (by simp [infoLines])]
  simp only [infoLines, freeFields, List.mem_cons, List.not_mem_nil,
    or_false, exists_eq_or_imp, exists_eq_left,
    called_in_owner_iff ownerFree, size]
  rw [called_in_line_iff (by decide), called_in_line_iff (by decide),
    called_in_line_iff (by decide), called_in_line_iff (by decide),
    called_in_line_iff (by decide), called_in_line_iff (by decide),
    called_in_line_iff (by decide)]
  simp only [number, not_called_in_list plainList plain, false_or]
  tauto

/-- The lines from the size on. -/
def infoTail (metadata : FileMetadata) : Text :=
  ['\n'].intercalate ((infoLines metadata).drop 4)

def accessLines (metadata : FileMetadata) : Text :=
  "Access: ".toList ++ metadata.accessList.chars ++
    '\n' :: ("Last Accessed: ".toList ++ metadata.accessedTime.chars)

theorem accessLines_eq (metadata : FileMetadata) :
    accessLines metadata =
      "Access: ".toList ++ metadata.accessList.chars ++
        '\n' :: ("Last Accessed: ".toList ++ metadata.accessedTime.chars) :=
  rfl

/-- Behind the numbers are the list and the last access. -/
theorem infoTail_eq (metadata : FileMetadata) :
    infoTail metadata =
      ("Size: ".toList ++
        (intText metadata.fileSize ++ " bytes".toList)) ++ '\n' ::
      (("Words: ".toList ++ (intText metadata.wordCount ++ [])) ++ '\n' ::
      (("Characters: ".toList ++ (intText metadata.charCount ++ [])) ++
        '\n' :: accessLines metadata)) := by
  simp only [infoTail, infoLines, accessLines_eq, List.drop_succ_cons,
    List.drop_zero, CText.intercalate_cons_cons,
    List.intercalate_singleton, List.append_assoc, List.append_nil]

/-- An entry is read in the list, or in the time of the last access. -/
def ReadInTail (metadata : FileMetadata) (user : Text) : Prop :=
  readEntry user <:+: ' ' :: metadata.accessList.chars ∨
    readEntry user <:+: ' ' :: metadata.accessedTime.chars

theorem read_in_access_iff (plain : PlainName user)
    (oneLine : '\n' ∉ user) :
    readEntry user <:+: accessLines metadata ↔
      ReadInTail metadata user := by
  rw [accessLines_eq, read_in_lines_iff oneLine]
  exact or_congr
    (read_in_line_iff plain.1 (by decide : ':' ∉ "Access".toList)
      (by decide))
    (read_in_line_iff plain.1 (by decide : ':' ∉ "Last Accessed".toList)
      (by decide))

theorem not_read_in_number (free : ':' ∉ user) {name label unit : Text}
    (nameFree : ':' ∉ name) (labelled : label = name ++ [':', ' '])
    (unitFree : ':' ∉ unit) (value : Int) :
    ¬ readEntry user <:+: label ++ (intText value ++ unit) := by
  rw [read_in_line_iff free nameFree labelled]
  apply not_read_of_free
  have valueFree := @not_mem_intText ':' (by decide) (by decide) value
  simp [valueFree, unitFree]

theorem read_in_tail_iff (plain : PlainName user) (oneLine : '\n' ∉ user) :
    readEntry user <:+: infoTail metadata ↔
      ReadInTail metadata user := by
  have size := @not_read_in_number user plain.1 "Size".toList
    "Size: ".toList " bytes".toList (by decide) (by decide) (by decide)
  have words := @not_read_in_number user plain.1 "Words".toList
    "Words: ".toList [] (by decide) (by decide) (by decide)
  have characters := @not_read_in_number user plain.1 "Characters".toList
    "Characters: ".toList [] (by decide) (by decide) (by decide)
  rw [infoTail_eq, read_in_lines_iff oneLine, read_in_lines_iff oneLine,
    read_in_lines_iff oneLine, read_in_access_iff plain oneLine,
    or_iff_right (size _), or_iff_right (words _),
    or_iff_right (characters _)]

/-- A line in which no `Access: ` can begin is passed over. -/
theorem readBehind_skip {line : Text} (absent : 'A' ∉ line) (rest : Text) :
    ReadBehind user (line ++ '\n' :: rest) ↔ ReadBehind user rest := by
  have split : line ++ '\n' :: rest = (line ++ ['\n']) ++ rest := by simp
  have front : 'A' ∉ line ++ ['\n'] := by simp [absent]
  have passed : CText.fromFirst "Access: ".toList
      ((line ++ ['\n']) ++ rest) = CText.fromFirst "Access: ".toList rest :=
    CText.fromFirst_append_of_head front
  rw [split, ReadBehind, ReadBehind, passed]

theorem readBehind_tail_iff (plain : PlainName user)
    (oneLine : '\n' ∉ user) :
    ReadBehind user (infoTail metadata) ↔ ReadInTail metadata user := by
  have number : ∀ (label : Text) (value : Int) (unit : Text), 'A' ∉ label →
      'A' ∉ unit → 'A' ∉ label ++ (intText value ++ unit) := by
    intro label value unit labelFree unitFree
    have valueFree := @not_mem_intText 'A' (by decide) (by decide) value
    simp [labelFree, valueFree, unitFree]
  have begins : "Access: ".toList <+: accessLines metadata := by
    rw [accessLines_eq, List.append_assoc]
    exact List.prefix_append _ _
  have here : CText.fromFirst "Access: ".toList (accessLines metadata) =
      some (accessLines metadata) := by
    rw [CText.fromFirst, CText.strstr_of_prefix begins]
    rfl
  rw [infoTail_eq, readBehind_skip (number _ _ _ (by decide) (by decide)),
    readBehind_skip (number _ _ _ (by decide) (by decide)),
    readBehind_skip (number _ _ _ (by decide) (by decide)), ReadBehind, here]
  simp only [Option.mem_some_iff, exists_eq_left']
  exact read_in_access_iff plain oneLine

/-- A shorter text has the readings of a longer one, but for those that are
there anyhow. -/
structure SameReadings (user : Text) (anyhow : Prop) (text short : Text) :
    Prop where
  behind : ReadBehind user text ↔ anyhow ∨ ReadBehind user short
  part : readEntry user <:+: text ↔
    anyhow ∨ readEntry user <:+: short

section SameReadings

variable {anyhow : Prop} {line other rest short : Text}

theorem behind_of_line (oneLine : '\n' ∉ user)
    (same : SameReadings user anyhow rest short)
    (found : CText.fromFirst "Access: ".toList line =
      CText.fromFirst "Access: ".toList other) :
    ReadBehind user (line ++ '\n' :: rest) ↔
      anyhow ∨ ReadBehind user (other ++ '\n' :: short) := by
  rw [readBehind_line oneLine, readBehind_line oneLine, found, same.behind,
    same.part]
  cases CText.fromFirst "Access: ".toList other with
  | none => simp
  | some found =>
      simp only [Option.mem_some_iff, exists_eq_left', reduceCtorEq,
        false_and, or_false]
      exact or_left_comm

theorem sameReadings_line (oneLine : '\n' ∉ user)
    (same : SameReadings user anyhow rest short)
    (found : CText.fromFirst "Access: ".toList line =
      CText.fromFirst "Access: ".toList other)
    (parts : readEntry user <:+: line ↔
      readEntry user <:+: other) :
    SameReadings user anyhow (line ++ '\n' :: rest)
      (other ++ '\n' :: short) := by
  refine ⟨behind_of_line oneLine same found, ?_⟩
  rw [read_in_lines_iff oneLine, read_in_lines_iff oneLine, parts, same.part]
  exact or_left_comm

/-- A line without readings can be left out. -/
theorem sameReadings_skip (oneLine : '\n' ∉ user)
    (same : SameReadings user anyhow rest short)
    (nowhere : CText.fromFirst "Access: ".toList line = none)
    (clear : ¬ readEntry user <:+: line) :
    SameReadings user anyhow (line ++ '\n' :: rest) short := by
  constructor
  · rw [readBehind_line oneLine, nowhere, ← same.behind]
    simp
  · rw [read_in_lines_iff oneLine, or_iff_right clear]
    exact same.part

/-- The last line before the readings that are there anyhow. -/
theorem sameReadings_last (oneLine : '\n' ∉ user)
    (behind : ReadBehind user rest ↔ anyhow)
    (part : readEntry user <:+: rest ↔ anyhow)
    (found : CText.fromFirst "Access: ".toList line =
      CText.fromFirst "Access: ".toList other)
    (parts : readEntry user <:+: line ↔
      readEntry user <:+: other) :
    SameReadings user anyhow (line ++ '\n' :: rest) other := by
  constructor
  · rw [readBehind_line oneLine, found, behind, part, ReadBehind]
    cases CText.fromFirst "Access: ".toList other with
    | none => simp
    | some found =>
        simp only [Option.mem_some_iff, exists_eq_left', reduceCtorEq,
          false_and, or_false]
        exact or_comm
  · rw [read_in_lines_iff oneLine, parts, part]
    exact or_comm

end SameReadings

/-- Where the entry of the user can be read. -/
theorem readBehind_info_iff (ownerFree : ':' ∉ metadata.owner.chars)
    (plain : PlainName user) (oneLine : '\n' ∉ user) :
    ReadBehind user (wholeInfo metadata) ↔
      ReadInTail metadata user ∨
        ReadBehind user (metadata.filename.chars ++
          '\n' :: ' ' :: metadata.createdTime.chars ++
          '\n' :: ' ' :: metadata.modifiedTime.chars) := by
  have whole : wholeInfo metadata =
      ("File: ".toList ++ metadata.filename.chars) ++ '\n' ::
      (("Owner: ".toList ++ metadata.owner.chars) ++ '\n' ::
      (("Created: ".toList ++ metadata.createdTime.chars) ++ '\n' ::
      (("Last Modified: ".toList ++ metadata.modifiedTime.chars) ++ '\n' ::
        infoTail metadata))) := by
    simp only [wholeInfo, infoTail, infoLines, List.drop_succ_cons,
      List.drop_zero, CText.intercalate_cons_cons]
  have fields : metadata.filename.chars ++
      '\n' :: ' ' :: metadata.createdTime.chars ++
      '\n' :: ' ' :: metadata.modifiedTime.chars =
      metadata.filename.chars ++ '\n' ::
        (([' '] ++ metadata.createdTime.chars) ++ '\n' ::
          ([' '] ++ metadata.modifiedTime.chars)) := by simp
  have labelled : ∀ label space value : Text, 'A' ∉ label → 'A' ∉ space →
      CText.fromFirst "Access: ".toList (label ++ value) =
        CText.fromFirst "Access: ".toList (space ++ value) := by
    intro label space value absent spaceAbsent
    exact (CText.fromFirst_append_of_head absent).trans
      (CText.fromFirst_append_of_head spaceAbsent).symm
  have noOwner : CText.fromFirst "Access: ".toList
      ("Owner: ".toList ++ metadata.owner.chars) = none := by
    rw [labelled _ [] _ (by decide) (by decide), List.nil_append]
    apply CText.fromFirst_eq_none_iff.mpr
    intro part
    exact ownerFree (part.subset (by decide))
  have ownerLine : ¬ readEntry user <:+:
      "Owner: ".toList ++ metadata.owner.chars := by
    rw [read_in_line_iff plain.1 (by decide : ':' ∉ "Owner".toList)
      (by decide)]
    exact not_read_of_free (by simp [ownerFree])
  rw [whole, fields]
  apply behind_of_line oneLine _ (labelled _ [] _ (by decide) (by decide))
  apply sameReadings_skip oneLine _ noOwner ownerLine
  apply sameReadings_line oneLine _
    (labelled _ _ _ (by decide) (by decide))
    (read_in_line_iff plain.1 (by decide : ':' ∉ "Created".toList)
      (by decide))
  exact sameReadings_last oneLine (readBehind_tail_iff plain oneLine)
    (read_in_tail_iff plain oneLine)
    (labelled _ _ _ (by decide) (by decide))
    (read_in_line_iff plain.1 (by decide : ':' ∉ "Last Modified".toList)
      (by decide))

/-- The search finds exactly the users that are named. -/
theorem infoAdmits_iff_named {username : Username} (fits : InfoFits metadata)
    (plainList : PlainList metadata.accessList)
    (ownerFree : ':' ∉ metadata.owner.chars)
    (plain : PlainName username.chars)
    (oneLine : '\n' ∉ username.chars) :
    infoAdmits (infoText metadata) username = true ↔
      NamedInInfo metadata username.chars := by
  rw [infoText_of_fits fits, infoAdmits_iff,
    called_in_info_iff plainList ownerFree plain oneLine,
    readBehind_info_iff ownerFree plain oneLine, ReadInTail,
    List.infix_cons_iff, read_in_list_iff plainList plain]
  constructor
  · rintro ((begins | ⟨field, free, part⟩) |
      ((begins | ⟨entry, listed, ends⟩) | part) | behind)
    · exact .beginsOwner begins
    · exact .calledOwner field free part
    · exact .beginsList begins
    · exact .endsName entry listed ends
    · exact .lastAccess part
    · exact .calledReader behind
  · intro named
    cases named with
    | beginsOwner begins => exact .inl (.inl begins)
    | endsName entry listed ends =>
        exact .inr (.inl (.inl (.inr ⟨entry, listed, ends⟩)))
    | beginsList begins => exact .inr (.inl (.inl (.inl begins)))
    | calledOwner field free part => exact .inl (.inr ⟨field, free, part⟩)
    | lastAccess part => exact .inr (.inl (.inr part))
    | calledReader behind => exact .inr (.inr behind)

end Named

/-- The user owns the file or has an entry of the list. -/
def ReadAllowed (metadata : FileMetadata) (username : Username) : Prop :=
  metadata.owner = username ∨
    username.chars ++ ":R".toList ∈ accessEntries metadata.accessList ∨
    username.chars ++ ":RW".toList ∈ accessEntries metadata.accessList

instance (metadata : FileMetadata) (username : Username) :
    Decidable (ReadAllowed metadata username) := by
  unfold ReadAllowed
  infer_instance

section Allowed

variable {metadata : FileMetadata} {username : Username}

theorem directAccess_iff_allowed (free : ':' ∉ username.chars) :
    directAccess 1 metadata username = true ↔
      ReadAllowed metadata username := by
  have values : ∀ value ∈ listedAccess
      (accessEntries metadata.accessList) username.chars,
        value &&& 1 = 1 := by
    intro value listed
    rcases listedAccess_cases listed with ⟨rfl, _⟩ | ⟨rfl, _⟩
    · rfl
    · rfl
  have reader := @one_mem_listedAccess
    (accessEntries metadata.accessList) username.chars free
  have writer := @three_mem_listedAccess
    (accessEntries metadata.accessList) username.chars free
  unfold directAccess ReadAllowed
  by_cases owner : metadata.owner = username
  · simp [owner]
  · rw [if_neg owner, or_iff_right owner, ← reader, ← writer]
    cases last : (listedAccess (accessEntries metadata.accessList)
        username.chars).getLast? with
    | none =>
        rw [List.getLast?_eq_none_iff] at last
        simp [last]
    | some value =>
        have listed := List.mem_of_getLast? last
        refine iff_of_true (by simpa using values value listed) ?_
        rcases listedAccess_cases listed with ⟨rfl, _⟩ | ⟨rfl, _⟩
        · exact .inl listed
        · exact .inr listed

/-- Whoever may read is named. -/
theorem named_of_allowed (allowed : ReadAllowed metadata username) :
    NamedInInfo metadata username.chars := by
  rcases allowed with owner | reader | writer
  · exact .beginsOwner (owner ▸ List.prefix_rfl)
  · exact .endsName ⟨username.chars, false⟩ reader List.suffix_rfl
  · exact .endsName ⟨username.chars, true⟩ writer List.suffix_rfl

/-- The name server and the storage server agree about a user exactly when the
user may read or is not named in the text. -/
theorem info_access_iff {s : FileHandler} {filename : Filename}
    {leftover : FileMetadata}
    (record : findMetadata s filename = some metadata)
    (fits : InfoFits metadata)
    (plainList : PlainList metadata.accessList)
    (ownerPlain : PlainName metadata.owner.chars)
    (plain : PlainName username.chars)
    (oneLine : '\n' ∉ username.chars) :
    ((infoAdmits (nmInfo leftover s filename).data username = true ↔
        ReadAllowed metadata username) ↔
      ReadAllowed metadata username ∨
        ¬ NamedInInfo metadata username.chars) ∧
    (EntriesCorrect s.accessCache filename metadata.accessList →
      (accessEntries metadata.accessList).length <
        ProbeTable.freeSlots accessCacheSize s.accessCache →
      ((hasReadAccessLl s filename username).1 = true ↔
        ReadAllowed metadata username)) := by
  have formatted : (nmInfo leftover s filename).data = infoText metadata := by
    simp only [nmInfo, getFileMetadataLl, record, Int.lt_irrefl, if_false,
      Option.getD_some]
  have named := infoAdmits_iff_named fits plainList ownerPlain.1 plain
    oneLine
  constructor
  · rw [formatted, named]
    constructor
    · intro agree
      by_cases allowed : ReadAllowed metadata username
      · exact .inl allowed
      · exact .inr fun found => allowed (agree.mp found)
    · rintro (allowed | unnamed)
      · exact iff_of_true (named_of_allowed allowed) allowed
      · exact iff_of_false unnamed fun allowed =>
          unnamed (named_of_allowed allowed)
  · intro correct room
    rw [hasReadAccessLl, hasAccessLl_eq_direct record correct room plain.1]
    exact directAccess_iff_allowed plain.1

end Allowed

private def ownedFile : FileMetadata :=
  { newMetadata (CString.copy 255 "f".toList)
      (CString.copy 63 "bob".toList) (CString.copy 63 []) with
    accessList := CString.copy 4095 "bob:RW".toList }

private def ownedFileServer : FileHandler :=
  { freshServer with metadataList := [ownedFile] }

private theorem ownedFile_plainList : PlainList ownedFile.accessList := by
  intro token member
  have listed : accessEntries ownedFile.accessList = ["bob:RW".toList] := by
    decide +kernel
  rw [listed, List.mem_singleton] at member
  refine ⟨⟨"bob".toList, true⟩, ?_, member ▸ rfl⟩
  simp [PlainName]

/-- The owner is let through by both. -/
theorem info_access_of_owner :
    infoAdmits (nmInfo ownedFile ownedFileServer ownedFile.filename).data
      (CString.copy 63 "bob".toList) = true := by
  have allowed : ReadAllowed ownedFile (CString.copy 63 "bob".toList) := by
    decide +kernel
  have agree := (@info_access_iff ownedFile (CString.copy 63 "bob".toList)
    ownedFileServer ownedFile.filename ownedFile (by decide +kernel)
    (by decide +kernel) ownedFile_plainList
    ⟨by decide +kernel, by decide +kernel⟩
    ⟨by decide +kernel, by decide +kernel⟩ (by decide +kernel)).1
  exact (agree.mpr (.inl allowed)).mpr allowed

/-- A stranger whose name begins the owner's is let through. -/
theorem info_access_of_beginning :
    ¬ ∀ (s : FileHandler) (filename : Filename)
        (metadata leftover : FileMetadata) (username : Username),
      findMetadata s filename = some metadata → InfoFits metadata →
      PlainList metadata.accessList → PlainName metadata.owner.chars →
      PlainName username.chars → '\n' ∉ username.chars →
      (infoAdmits (nmInfo leftover s filename).data username = true ↔
        ReadAllowed metadata username) := by
  intro agree
  have stranger := agree ownedFileServer ownedFile.filename ownedFile
    ownedFile (CString.copy 63 "bo".toList) (by decide +kernel)
    (by decide +kernel) ownedFile_plainList
    ⟨by decide +kernel, by decide +kernel⟩
    ⟨by decide +kernel, by decide +kernel⟩ (by decide +kernel)
  have admitted : infoAdmits (nmInfo ownedFile ownedFileServer
      ownedFile.filename).data (CString.copy 63 "bo".toList) = true := by
    decide +kernel
  exact absurd (stranger.mp admitted) (by decide +kernel)

end Dfs.NameServer
