import Mathlib.Algebra.BigOperators.Ring.List
import Mathlib.Algebra.Ring.Nat
import Dfs.StorageServer.Parsing
import Dfs.StorageServer.Paths

/-!
# Laws of the parser

What `parse_file_to_linked_list` returns is determined by its words: the parts
of the text, grouped after each delimiter, every sentence unlocked and with the
delimiter of its last word.  From this follow what the parser keeps of a text,
that it works sentence by sentence, and how its result behaves when it is
written and read again by either of the two writing routines.
-/

namespace Dfs.StorageServer

/-- The delimiter field of a sentence with these words. -/
def closingDelimiter (words : List WordText) : Char :=
  match words.getLast? with
  | some word =>
      if endsInDelimiter word.chars then word.chars.getLastD CText.nul
      else CText.nul
  | none => CText.nul

/-- The sentence the parser builds from these words. -/
def parsedSentence (words : List WordText) : SentenceNode :=
  { createSentenceNode (closingDelimiter words) with words := words }

theorem closingDelimiter_concat_ended {words : List WordText}
    {word : WordText} (ended : endsInDelimiter word.chars = true) :
    closingDelimiter (words ++ [word]) = word.chars.getLastD CText.nul := by
  simp [closingDelimiter, ended]

theorem closingDelimiter_of_open {words : List WordText}
    (unended : ∀ word ∈ words, endsInDelimiter word.chars = false) :
    closingDelimiter words = CText.nul := by
  unfold closingDelimiter
  cases last : words.getLast? with
  | none => rfl
  | some word => simp [unended word (List.mem_of_getLast? last)]

/-- Closed sentences are as their words say; the open one has no delimiter. -/
structure ParseState.Parsed (state : ParseState) : Prop where
  closed : ∀ sentence ∈ state.closed,
    sentence = parsedSentence sentence.words
  current : state.current =
    { createSentenceNode CText.nul with words := state.current.words }
  unended : ∀ word ∈ state.current.words, endsInDelimiter word.chars = false

theorem ParseState.Parsed.addPart {state : ParseState} {part : Text}
    (parsed : state.Parsed) (stored : (createWordNode part).chars = part) :
    (state.addPart part).Parsed := by
  by_cases ended : endsInDelimiter part = true
  · have last : closingDelimiter
        (state.current.words ++ [createWordNode part]) =
          part.getLastD CText.nul := by
      rw [closingDelimiter_concat_ended (by rwa [stored]), stored]
    have closing : state.addPart part =
        ⟨state.closed ++ [parsedSentence
          (state.current.words ++ [createWordNode part])],
          createSentenceNode CText.nul⟩ := by
      unfold ParseState.addPart
      rw [if_pos ended]
      simp only [ParseState.closeSentence, ParseState.addWord, parsedSentence,
        last]
      rw [parsed.current]
      rfl
    rw [closing]
    refine ⟨?_, rfl, by simp [createSentenceNode]⟩
    intro sentence member
    rcases List.mem_append.mp member with earlier | same
    · exact parsed.closed sentence earlier
    · rw [List.mem_singleton.mp same]
      rfl
  · have open_ : state.addPart part = state.addWord part := by
      simp [ParseState.addPart, ended]
    rw [open_]
    refine ⟨parsed.closed, ?_, ?_⟩
    · simp only [ParseState.addWord]
      rw [parsed.current]
    · intro word member
      rcases List.mem_append.mp member with earlier | same
      · exact parsed.unended word earlier
      · rw [List.mem_singleton.mp same, stored]
        simpa using ended

theorem ParseState.Parsed.foldl {parts : List Text}
    (stored : ∀ part ∈ parts, (createWordNode part).chars = part)
    {state : ParseState} (parsed : state.Parsed) :
    (parts.foldl ParseState.addPart state).Parsed := by
  induction parts generalizing state with
  | nil => exact parsed
  | cons part parts ih =>
      exact ih (fun other member => stored other (by simp [member]))
        (parsed.addPart (stored part (by simp)))

theorem stored_of_mem_textParts {text part : Text}
    (nulFree : CText.nul ∉ text) (member : part ∈ textParts text) :
    (createWordNode part).chars = part :=
  createWordNode_chars (tidy_of_mem_textParts member).short
    (nul_not_mem_textParts nulFree member)

theorem parsedSentence_of_mem_parse {text : Text}
    (nulFree : CText.nul ∉ text) {sentence : SentenceNode}
    (member : sentence ∈ parseFileToLinkedList text) :
    parsedSentence sentence.words = sentence := by
  have start : ParseState.Parsed ⟨[], createSentenceNode CText.nul⟩ :=
    ⟨by simp, rfl, by simp [createSentenceNode]⟩
  have final := start.foldl fun part => stored_of_mem_textParts nulFree
  unfold textParts at final
  unfold parseFileToLinkedList at member
  simp only [foldl_processWord] at member
  split at member
  · exact (final.closed sentence member).symm
  · rcases List.mem_append.mp member with earlier | same
    · exact (final.closed sentence earlier).symm
    · rw [List.mem_singleton.mp same]
      unfold parsedSentence
      rw [closingDelimiter_of_open final.unended]
      exact final.current.symm

/-- The parser returns the parts of the text, grouped into sentences. -/
theorem parse_eq {text : Text} (nulFree : CText.nul ∉ text) :
    parseFileToLinkedList text =
      (groupWords [] ((textParts text).map createWordNode)).map
        parsedSentence := by
  have parsed : ∀ sentence ∈ parseFileToLinkedList text,
      parsedSentence sentence.words = sentence := fun sentence =>
    parsedSentence_of_mem_parse nulFree
  calc
    parseFileToLinkedList text =
        (parseFileToLinkedList text).map fun sentence =>
          parsedSentence sentence.words :=
      ((List.map_congr_left parsed).trans (List.map_id' _)).symm
    _ = ((parseFileToLinkedList text).map SentenceNode.words).map
        parsedSentence := by
      rw [List.map_map]
      rfl
    _ = (groupWords [] ((textParts text).map createWordNode)).map
        parsedSentence := by
      rw [wordLists_parse nulFree]

theorem flatten_readWords {buffer : Text} (text : Text) :
    (readWords buffer text).flatten =
      buffer ++ text.filter fun byte => !CText.isSpace byte := by
  induction text generalizing buffer with
  | nil =>
      unfold readWords
      split
      · rename_i empty
        simp [empty]
      · simp
  | cons byte rest ih =>
      unfold readWords
      split
      · rename_i space
        split
        · rename_i empty
          simp [ih, space, empty]
        · simp [ih, space]
      · rename_i solid
        split
        · simp [ih, solid]
        · simp [ih, solid]

theorem flatten_splitDelimiters (part word : Text) :
    (splitDelimiters part word).flatten = part ++ word := by
  induction word generalizing part with
  | nil =>
      unfold splitDelimiters
      split
      · rename_i empty
        simp [empty]
      · simp
  | cons byte rest ih =>
      unfold splitDelimiters
      split
      · simp [ih]
      · simp [ih]

/-- The parts of a text are its bytes without the white space. -/
theorem flatten_textParts (text : Text) :
    (textParts text).flatten =
      text.filter fun byte => !CText.isSpace byte := by
  have whole : ∀ words : List Text,
      (words.flatMap (splitDelimiters [])).flatten = words.flatten := by
    intro words
    induction words with
    | nil => rfl
    | cons word words ih => simp [ih, flatten_splitDelimiters]
  unfold textParts
  rw [whole, flatten_readWords, List.nil_append]

theorem textParts_eq_nil_iff {text : Text} :
    textParts text = [] ↔ ∀ byte ∈ text, CText.isSpace byte = true := by
  constructor
  · intro nothing byte member
    have bytes := flatten_textParts text
    rw [nothing, List.flatten_nil, eq_comm, List.filter_eq_nil_iff] at bytes
    simpa using bytes byte member
  · intro white
    have bytes : (textParts text).flatten = [] := by
      rw [flatten_textParts, List.filter_eq_nil_iff]
      intro byte member
      simp [white byte member]
    cases parts : textParts text with
    | nil => rfl
    | cons part rest =>
        have inhabited : part ≠ [] :=
          (tidy_of_mem_textParts (by rw [parts]; simp)).inhabited
        have empty : part = [] :=
          List.flatten_eq_nil_iff.mp bytes part (by rw [parts]; simp)
        exact (inhabited empty).elim

/-- The words of a parsed text in order. -/
theorem words_parse {text : Text} (nulFree : CText.nul ∉ text) :
    ((parseFileToLinkedList text).flatMap SentenceNode.words).map
      CString.chars = textParts text := by
  have stored : ∀ part ∈ textParts text,
      (createWordNode part).chars = part := fun part =>
    stored_of_mem_textParts nulFree
  rw [List.flatMap_def, wordLists_parse nulFree, flatten_groupWords,
    List.nil_append, List.map_map]
  exact (List.map_congr_left stored).trans (List.map_id' _)

theorem tidyText_parse {text : Text} (nulFree : CText.nul ∉ text) :
    TidyText ((parseFileToLinkedList text).map SentenceNode.words) := by
  have loaded := tidyText_loadDocument text
  unfold loadDocument at loaded
  rwa [CText.terminated_eq_self nulFree] at loaded

/-- A sentence as the parser builds it. -/
structure WellFormedSentence (sentence : SentenceNode) : Prop where
  inhabited : sentence.words ≠ []
  bounded : ∀ word ∈ sentence.words,
    1 ≤ word.chars.length ∧ word.chars.length ≤ 255
  solid : ∀ word ∈ sentence.words, ∀ byte ∈ word.chars,
    CText.isSpace byte = false
  lastByte : ∀ word ∈ sentence.words, ∀ byte ∈ word.chars.dropLast,
    isDelimiter byte = false
  lastWord : ∀ word ∈ sentence.words.dropLast, ∀ byte ∈ word.chars,
    isDelimiter byte = false
  delimiter : ∀ last, sentence.words.getLast? = some last →
    sentence.delimiter =
      if endsInDelimiter last.chars then last.chars.getLastD CText.nul
      else CText.nul

/-- What a list of sentences keeps of the text it was read from. -/
structure Keeps (content : Text) (sentences : List SentenceNode) : Prop where
  noLoss : (sentences.flatMap SentenceNode.words).flatMap CString.chars =
    content.filter fun byte => !CText.isSpace byte
  wellFormed : ∀ sentence ∈ sentences, WellFormedSentence sentence
  ended : ∀ sentence ∈ sentences.dropLast, sentence.delimiter ≠ CText.nul
  empty : sentences = [] ↔ ∀ byte ∈ content, CText.isSpace byte = true

theorem isDelimiter_eq_false_of_unended {word : Text} (tidy : TidyWord word)
    (unended : endsInDelimiter word = false) :
    ∀ byte ∈ word, isDelimiter byte = false := by
  obtain ⟨start, last, rfl⟩ : ∃ start last, word = start ++ [last] :=
    ⟨_, _, (List.dropLast_concat_getLast tidy.inhabited).symm⟩
  intro byte member
  rcases List.mem_append.mp member with earlier | same
  · exact tidy.whole byte (by simpa using earlier)
  · rw [List.mem_singleton.mp same]
    simpa [endsInDelimiter] using unended

theorem wellFormed_parsedSentence {words : List WordText}
    (tidy : TidySentence words) :
    WellFormedSentence (parsedSentence words) := by
  refine ⟨tidy.inhabited, ?_, ?_, ?_, ?_, ?_⟩
  · intro word member
    have inhabited := (tidy.tidy word member).inhabited
    exact ⟨List.length_pos_of_ne_nil inhabited,
      (tidy.tidy word member).short⟩
  · exact fun word member => (tidy.tidy word member).solid
  · exact fun word member => (tidy.tidy word member).whole
  · intro word member
    exact isDelimiter_eq_false_of_unended
      (tidy.tidy word (List.mem_of_mem_dropLast member))
      (tidy.whole word member)
  · intro last found
    change closingDelimiter words = _
    have lastWord : words.getLast? = some last := found
    simp [closingDelimiter, lastWord]

theorem closingDelimiter_ne_nul {words : List WordText}
    (ended : sentenceEnded words = true) :
    closingDelimiter words ≠ CText.nul := by
  cases last : words.getLast? with
  | none => simp [sentenceEnded, last] at ended
  | some word =>
      have lastEnded : endsInDelimiter word.chars = true := by
        simpa [sentenceEnded, last] using ended
      cases final : word.chars.getLast? with
      | none => simp [endsInDelimiter, final] at lastEnded
      | some byte =>
          have field : closingDelimiter words = byte := by
            simp [closingDelimiter, last, lastEnded,
              List.getLastD_eq_getLast?, final]
          have delimiter : isDelimiter byte = true := by
            simpa [endsInDelimiter, final] using lastEnded
          rw [field]
          intro same
          rw [same] at delimiter
          exact absurd delimiter (by decide)

/-- The parser loses nothing but white space and ends every sentence but the
last at a delimiter. -/
theorem parse_keeps {content : Text} (nulFree : CText.nul ∉ content) :
    Keeps content (parseFileToLinkedList content) := by
  have tidy := tidyText_parse nulFree
  refine ⟨?_, ?_, ?_, ?_⟩
  · rw [List.flatMap_def, words_parse nulFree, flatten_textParts]
  · intro sentence member
    rw [← parsedSentence_of_mem_parse nulFree member]
    exact wellFormed_parsedSentence
      (tidy.tidy _ (List.mem_map_of_mem member))
  · intro sentence member
    rw [← parsedSentence_of_mem_parse nulFree (List.mem_of_mem_dropLast member)]
    apply closingDelimiter_ne_nul
    apply tidy.ended
    rw [← List.map_dropLast]
    exact List.mem_map_of_mem member
  · rw [← textParts_eq_nil_iff, parse_eq nulFree, List.map_eq_nil_iff]
    constructor
    · intro nothing
      have words := flatten_groupWords [] ((textParts content).map
        createWordNode)
      rw [nothing] at words
      simpa using words.symm
    · intro nothing
      rw [nothing]
      rfl

/-- Each delimiter of an abbreviation ends a sentence. -/
theorem parse_keeps_abbreviation :
    Keeps "e.g. so".toList (parseFileToLinkedList "e.g. so".toList) ∧
      (parseFileToLinkedList "e.g. so".toList).map SentenceNode.delimiter =
        ['.', '.', CText.nul] :=
  ⟨parse_keeps (by decide), by decide +kernel⟩

theorem readWords_white_append {white : Text}
    (space : ∀ byte ∈ white, CText.isSpace byte = true) (text : Text) :
    readWords [] (white ++ text) = readWords [] text := by
  induction white with
  | nil => rfl
  | cons byte white ih =>
      have head : CText.isSpace byte = true := space byte (by simp)
      have tail := ih fun other member => space other (by simp [member])
      simp [readWords, head, tail]

/-- White space separates the words on both sides. -/
theorem textParts_append {before white after : Text} (gap : white ≠ [])
    (space : ∀ byte ∈ white, CText.isSpace byte = true) :
    textParts (before ++ white ++ after) =
      textParts before ++ textParts after := by
  obtain ⟨first, white, rfl⟩ := List.exists_cons_of_ne_nil gap
  have more : ∀ byte ∈ white, CText.isSpace byte = true :=
    fun byte member => space byte (by simp [member])
  unfold textParts
  rw [List.append_assoc, List.cons_append,
    readWords_append_white (space first (by simp)),
    readWords_white_append more, List.flatMap_append]

/-- Words after an ended sentence start a new one. -/
theorem groupWords_append {current words : List WordText}
    (ended : current ++ words = [] ∨ sentenceEnded words = true)
    (more : List WordText) :
    groupWords current (words ++ more) =
      groupWords current words ++ groupWords [] more := by
  induction words generalizing current with
  | nil =>
      have empty : current = [] := by
        rcases ended with nothing | ended
        · simpa using nothing
        · cases ended
      simp [groupWords, empty]
  | cons word words ih =>
      have last : words = [] ∧ endsInDelimiter word.chars = true ∨
          sentenceEnded words = true := by
        rcases ended with nothing | ended
        · simp at nothing
        · cases words with
          | nil => exact .inl ⟨rfl, by simpa [sentenceEnded] using ended⟩
          | cons next words =>
              exact .inr (by simpa [sentenceEnded] using ended)
      rw [List.cons_append, groupWords, groupWords]
      split
      · rw [@ih [] (last.imp (fun alone => by simp [alone.1]) id),
          List.cons_append]
      · rename_i unended
        rcases last with ⟨_, ending⟩ | ending
        · exact absurd ending unended
        · exact @ih (current ++ [word]) (.inr ending)

/-- The text is all white space, or its last other byte is a delimiter. -/
def EndsSentence (text : Text) : Prop :=
  (∀ byte ∈ text, CText.isSpace byte = true) ∨
    ∃ byte, (text.filter fun byte => !CText.isSpace byte).getLast? =
      some byte ∧ isDelimiter byte = true

theorem sentenceEnded_textParts {text : Text} (nulFree : CText.nul ∉ text)
    (ends : EndsSentence text) :
    (textParts text).map createWordNode = [] ∨
      sentenceEnded ((textParts text).map createWordNode) = true := by
  rcases ends with white | ⟨byte, final, delimiter⟩
  · rw [textParts_eq_nil_iff.mpr white]
    exact .inl rfl
  · refine .inr ?_
    rw [← flatten_textParts] at final
    cases last : (textParts text).getLast? with
    | none =>
        rw [List.getLast?_eq_none_iff.mp last] at final
        cases final
    | some part =>
        have member := List.mem_of_getLast? last
        have inhabited := (tidy_of_mem_textParts member).inhabited
        obtain ⟨front, split⟩ := List.getLast?_eq_some_iff.mp last
        rw [split, List.flatten_append, List.flatten_singleton,
          List.getLast?_append_of_ne_nil _ inhabited] at final
        have ended : endsInDelimiter part = true := by
          simpa [endsInDelimiter, final] using delimiter
        simpa [sentenceEnded, last, stored_of_mem_textParts nulFree member]
          using ended

/-- Text after an ended sentence is parsed on its own, and what stands before
it keeps its place. -/
theorem parse_append {before white after : Text}
    (beforeFree : CText.nul ∉ before) (afterFree : CText.nul ∉ after)
    (ends : EndsSentence before) (gap : white ≠ [])
    (space : ∀ byte ∈ white, CText.isSpace byte = true) :
    parseFileToLinkedList (before ++ white ++ after) =
        parseFileToLinkedList before ++ parseFileToLinkedList after ∧
      ∀ index < (parseFileToLinkedList before).length,
        (parseFileToLinkedList (before ++ white ++ after))[index]? =
          (parseFileToLinkedList before)[index]? := by
  have whiteFree : CText.nul ∉ white := by
    intro member
    exact absurd (space _ member) (by decide)
  have nulFree : CText.nul ∉ before ++ white ++ after := by
    simp [beforeFree, whiteFree, afterFree]
  have appended : parseFileToLinkedList (before ++ white ++ after) =
      parseFileToLinkedList before ++ parseFileToLinkedList after := by
    rw [parse_eq nulFree, parse_eq beforeFree, parse_eq afterFree,
      textParts_append gap space, List.map_append,
      groupWords_append
        (by simpa using sentenceEnded_textParts beforeFree ends),
      List.map_append]
  refine ⟨appended, ?_⟩
  intro index earlier
  rw [appended, List.getElem?_append_left earlier]

theorem parse_append_greeting :
    parseFileToLinkedList ("Hi. ".toList ++ "\n".toList ++ "so".toList) =
      parseFileToLinkedList "Hi. ".toList ++
        parseFileToLinkedList "so".toList :=
  (parse_append (by decide) (by decide) (.inr ⟨'.', by decide, rfl⟩)
    (by decide) (by simp [CText.isSpace])).1

theorem undoBackupText_parse {content : Text}
    (nulFree : CText.nul ∉ content) :
    undoBackupText (parseFileToLinkedList content) =
      CText.joinSpaces (textParts content) := by
  rw [undoBackupText_eq_wordsText (tidyText_parse nulFree).inhabited,
    wordsText, ← List.flatMap_def, words_parse nulFree]

/-- The text of the undo backup is parsed into the sentences it was made
from. -/
theorem parse_undoBackupText {content : Text}
    (nulFree : CText.nul ∉ content) :
    parseFileToLinkedList (undoBackupText (parseFileToLinkedList content)) =
      parseFileToLinkedList content := by
  rw [parse_eq (nul_not_mem_undoBackupText _), undoBackupText_parse nulFree,
    textParts_joinSpaces_of_tidy fun part => tidy_of_mem_textParts,
    ← parse_eq nulFree]

theorem loadDocument_undoBackupText (content : Text) :
    loadDocument (undoBackupText (loadDocument content).sentences) =
      loadDocument content := by
  have again := parse_undoBackupText (CText.nul_not_mem_terminated content)
  simp only [loadDocument,
    CText.terminated_eq_self (nul_not_mem_undoBackupText _), again]

/-- A backup that was written for a document just loaded, and could be
restored, loads that document again. -/
theorem restored_backup {content : Text} {s : FileHandler}
    {filename : Filename} (uncached : s.fileCache.get filename = none)
    (onDisk : s.diskText filename = some content)
    (saved : (saveUndoBackupLl s filename).2 = 0)
    (restored : (undoFileChangeLl (saveUndoBackupLl s filename).1
      filename).2 = 0) :
    ((undoFileChangeLl (saveUndoBackupLl s filename).1
        filename).1.fileCache.get filename).map LoadedFile.toDocument =
      some (loadDocument content) := by
  have loaded : getFileFromCache s filename =
      some (s.cache filename ⟨loadDocument content, 0 + 1, false⟩,
        ⟨loadDocument content, 0 + 1, false⟩) := by
    simp [getFileFromCache, uncached, loadFileIntoMemory, onDisk]
  have failed : (-1 : Int) ≠ 0 := by decide
  have written : (saveUndoBackupLl s filename).1.disk.read
      (filePaths s.storage filename).backup =
        some (undoBackupText (loadDocument content).sentences) := by
    rw [saveUndoBackupLl_eq, loaded]
    cases opens : (s.disk.makeParents (filePaths s.storage
        filename).backup).target (filePaths s.storage filename).backup with
    | none =>
        have blocked := @FileSystem.write_eq_none _ _
          (undoBackupText (loadDocument content).sentences) opens
        simp only [saveUndoBackupLl, loaded, getUndoPath_eq,
          FileHandler.cache, blocked] at saved
        exact (failed saved).elim
    | some place => exact FilePaths.read_saveBackup opens
  have storage : (saveUndoBackupLl s filename).1.storage = s.storage := by
    rw [saveUndoBackupLl_eq, loaded]
    rfl
  generalize (saveUndoBackupLl s filename).1 = t at restored written storage ⊢
  rw [undoFileChangeLl_eq] at restored ⊢
  cases copied : t.disk.copy (filePaths t.storage filename).backup
      (filePaths t.storage filename).file with
  | none =>
      rw [copied] at restored
      exact (failed restored).elim
  | some disk =>
      obtain ⟨place, _, opens, _⟩ := FileSystem.copy_cases copied
      have same := FileSystem.copy_apart opens
        (FilePaths.file_apart_backup opens) (storage ▸ written)
      obtain rfl := Option.some.inj (copied.symm.trans same)
      have text : ({ t with disk := t.disk.put place (undoBackupText
          (loadDocument content).sentences) }.uncache filename).diskText
            filename = some (undoBackupText
              (loadDocument content).sentences) := by
        rw [FileHandler.diskText, getFilePath_eq]
        exact FileSystem.load_put opens
      simp [reloadFileFromDisk, loadFileIntoMemory, text,
        FileHandler.cache, loadDocument_undoBackupText]

/-- The backup format round-trips, for the parser and for a document that was
loaded, backed up and restored. -/
theorem undo_backup_round_trip {content : Text}
    (nulFree : CText.nul ∉ content) :
    parseFileToLinkedList (undoBackupText (parseFileToLinkedList content)) =
        parseFileToLinkedList content ∧
      ∀ (s : FileHandler) (filename : Filename),
        s.fileCache.get filename = none →
        s.diskText filename = some content →
        (saveUndoBackupLl s filename).2 = 0 →
        (undoFileChangeLl (saveUndoBackupLl s filename).1 filename).2 = 0 →
        ((undoFileChangeLl (saveUndoBackupLl s filename).1
            filename).1.fileCache.get filename).map LoadedFile.toDocument =
          some (loadDocument content) :=
  ⟨parse_undoBackupText nulFree, fun _ _ => restored_backup⟩

private def shortName : Filename := CString.copy 255 "f".toList

theorem undo_backup_round_trip_abbreviation :
    let server : FileHandler :=
      { freshServer with
        disk := freshServer.disk.put
          ["ss".toList, "files".toList, shortName.chars] "e.g. so".toList }
    parseFileToLinkedList (undoBackupText
        (parseFileToLinkedList "e.g. so".toList)) =
        parseFileToLinkedList "e.g. so".toList ∧
      ((undoFileChangeLl (saveUndoBackupLl server shortName).1
          shortName).1.fileCache.get shortName).map LoadedFile.toDocument =
        some (loadDocument "e.g. so".toList) := by
  have both := @undo_backup_round_trip "e.g. so".toList (by decide)
  exact ⟨both.1, both.2 _ _ (by decide) (by decide) (by decide +kernel)
    (by decide +kernel)⟩

/-- The text after loading a file and writing it back. -/
def resave (content : Text) : Text :=
  writeLinkedListToFile (parseFileToLinkedList content)

theorem countP_joinSpaces {counted : Char → Bool}
    (spaceless : counted ' ' = false) (pieces : List Text) :
    (CText.joinSpaces pieces).countP counted =
      (pieces.map (List.countP counted)).sum := by
  induction pieces with
  | nil => rfl
  | cons piece pieces ih =>
      cases pieces with
      | nil => simp [CText.joinSpaces_singleton]
      | cons next pieces =>
          rw [CText.joinSpaces_cons (by simp), List.countP_append,
            List.countP_cons, ih]
          simp [spaceless]

theorem countP_wordsText {counted : Char → Bool}
    (spaceless : counted ' ' = false) (words : List WordText) :
    (wordsText words).countP counted =
      (words.map fun word => word.chars.countP counted).sum := by
  rw [wordsText, countP_joinSpaces spaceless, List.map_map]
  rfl

/-- The words of a well-formed sentence hold its delimiter and no other. -/
theorem countP_wellFormed {sentence : SentenceNode}
    (wellFormed : WellFormedSentence sentence) {counted : Char → Bool}
    (delimiters : ∀ byte, counted byte = true → isDelimiter byte = true) :
    (wordsText sentence.words).countP counted =
      if counted sentence.delimiter then 1 else 0 := by
  have uncounted : ∀ {byte}, isDelimiter byte = false →
      counted byte = false := by
    intro byte plain
    by_contra member
    simp [delimiters byte (by simpa using member)] at plain
  obtain ⟨front, last, split⟩ : ∃ front last,
      sentence.words = front ++ [last] :=
    ⟨_, _, (List.dropLast_concat_getLast wellFormed.inhabited).symm⟩
  have lastLong : last.chars ≠ [] := by
    apply List.ne_nil_of_length_pos
    exact (wellFormed.bounded last (by simp [split])).1
  obtain ⟨start, byte, lastSplit⟩ : ∃ start byte,
      last.chars = start ++ [byte] :=
    ⟨_, _, (List.dropLast_concat_getLast lastLong).symm⟩
  have frontNone : (front.map fun word =>
      word.chars.countP counted).sum = 0 := by
    rw [List.sum_eq_zero_iff_forall_eq_nat]
    intro count member
    obtain ⟨word, inside, rfl⟩ := List.mem_map.mp member
    rw [List.countP_eq_zero]
    intro other found
    simp [uncounted
      (wellFormed.lastWord word (by simpa [split] using inside) other found)]
  have startNone : start.countP counted = 0 := by
    rw [List.countP_eq_zero]
    intro other found
    simp [uncounted (wellFormed.lastByte last (by simp [split]) other
      (by simpa [lastSplit] using found))]
  have field : sentence.delimiter =
      if isDelimiter byte then byte else CText.nul := by
    rw [wellFormed.delimiter last (by simp [split])]
    simp [endsInDelimiter, lastSplit]
  have spaceless : counted ' ' = false := uncounted (by decide)
  rw [countP_wordsText spaceless, split, List.map_append, List.sum_append,
    frontNone, field]
  by_cases delimiter : isDelimiter byte = true
  · simp [delimiter, lastSplit, startNone, List.countP_cons]
  · have plain : counted byte = false := uncounted (by simpa using delimiter)
    have nulPlain : counted CText.nul = false := uncounted (by decide)
    simp [delimiter, plain, nulPlain, lastSplit, startNone]

/-- A parsed sentence has its delimiter once in the words and once more in the
field. -/
theorem countP_delimiterText {words : List WordText}
    (tidy : TidySentence words) :
    (delimiterText (parsedSentence words)).countP isDelimiter =
      (wordsText words).countP isDelimiter := by
  have counted := countP_wellFormed (wellFormed_parsedSentence tidy)
    (fun _ => id)
  change (wordsText words).countP isDelimiter = _ at counted
  rw [counted, delimiterText]
  by_cases unended : (parsedSentence words).delimiter = CText.nul
  · simp [unended, show isDelimiter CText.nul = false by decide]
  · simp [unended, List.countP_cons]

theorem isSpace_of_isDelimiter {byte : Char}
    (delimiter : isDelimiter byte = true) : CText.isSpace byte = false := by
  have cases : byte = '.' ∨ byte = '!' ∨ byte = '?' := by
    simpa [isDelimiter, or_assoc] using delimiter
  rcases cases with rfl | rfl | rfl
  · decide
  · decide
  · decide

/-- All delimiters of a text are in the words. -/
theorem countP_parse {content : Text} (nulFree : CText.nul ∉ content)
    {counted : Char → Bool}
    (delimiters : ∀ byte, counted byte = true → isDelimiter byte = true) :
    ((parseFileToLinkedList content).map fun sentence =>
      (wordsText sentence.words).countP counted).sum =
        content.countP counted := by
  have spaceless : counted ' ' = false := by
    by_contra space
    exact absurd (delimiters ' ' (by simpa using space)) (by decide)
  have parts : ((textParts content).map (List.countP counted)).sum =
      content.countP counted := by
    rw [← List.countP_flatten, flatten_textParts, List.countP_filter]
    apply List.countP_congr
    intro byte _
    by_cases member : counted byte = true
    · simp [member, isSpace_of_isDelimiter (delimiters byte member)]
    · simp [member]
  have counts := congrArg (List.countP counted)
    (undoBackupText_parse nulFree)
  rw [undoBackupText, countP_joinSpaces spaceless,
    countP_joinSpaces spaceless, parts, List.map_map] at counts
  exact counts

/-- Writing a loaded text doubles its delimiters. -/
theorem countP_resave {content : Text} (nulFree : CText.nul ∉ content) :
    (resave content).countP isDelimiter =
      2 * content.countP isDelimiter := by
  have tidy := tidyText_parse nulFree
  have doubled : ∀ sentence ∈ parseFileToLinkedList content,
      (wordsText sentence.words ++ delimiterText sentence).countP
          isDelimiter =
        2 * (wordsText sentence.words).countP isDelimiter := by
    intro sentence member
    have field := countP_delimiterText
      (tidy.tidy sentence.words (List.mem_map_of_mem member))
    rw [parsedSentence_of_mem_parse nulFree member] at field
    rw [List.countP_append, field, two_mul]
  calc
    (resave content).countP isDelimiter =
        ((parseFileToLinkedList content).map fun sentence =>
          (wordsText sentence.words ++ delimiterText sentence).countP
            isDelimiter).sum := by
      rw [resave, writeLinkedListToFile, countP_joinSpaces (by decide),
        List.map_map]
      rfl
    _ = ((parseFileToLinkedList content).map fun sentence =>
          2 * (wordsText sentence.words).countP isDelimiter).sum := by
      rw [List.map_congr_left doubled]
    _ = 2 * content.countP isDelimiter := by
      rw [List.sum_map_mul_left, countP_parse nulFree (fun _ => id)]

theorem nul_not_mem_resave (content : Text) :
    CText.nul ∉ resave content := by
  apply CText.not_mem_joinSpaces (by decide)
  intro piece member
  obtain ⟨sentence, _, rfl⟩ := List.mem_map.mp member
  have words := nul_not_mem_wordsText sentence.words
  by_cases unmarked : sentence.delimiter = CText.nul
  · simp [delimiterText, unmarked, words]
  · simp [delimiterText, unmarked, words, Ne.symm unmarked]

theorem resave_eq_undoBackupText {content : Text}
    (nulFree : CText.nul ∉ content)
    (plain : ∀ byte ∈ content, isDelimiter byte = false) :
    resave content = undoBackupText (parseFileToLinkedList content) := by
  apply writeLinkedListToFile_eq_undoBackupText
  intro sentence member
  rw [← parsedSentence_of_mem_parse nulFree member]
  apply closingDelimiter_of_open
  intro word inside
  have keeps := (parse_keeps nulFree).noLoss
  cases ended : word.chars.getLast? with
  | none => simp [endsInDelimiter, ended]
  | some byte =>
      have written : byte ∈ ((parseFileToLinkedList content).flatMap
          SentenceNode.words).flatMap CString.chars :=
        List.mem_flatMap.mpr ⟨word,
          List.mem_flatMap.mpr ⟨sentence, member, inside⟩,
          List.mem_of_getLast? ended⟩
      rw [keeps] at written
      simpa [endsInDelimiter, ended] using
        plain byte (List.mem_of_mem_filter written)

/-- Loading and writing a text changes nothing exactly when the text has no
delimiter: each one is written from the word and from the field. -/
theorem save_reload_iff {content : Text} (nulFree : CText.nul ∉ content) :
    (parseFileToLinkedList (writeLinkedListToFile
          (parseFileToLinkedList content)) =
        parseFileToLinkedList content ∧
      ∀ syncs, resave^[syncs + 1] content = resave content) ↔
      ∀ byte ∈ content, isDelimiter byte = false := by
  constructor
  · rintro ⟨same, _⟩ byte member
    have again : resave (resave content) = resave content := by
      rw [resave, show parseFileToLinkedList (resave content) =
        parseFileToLinkedList content from same]
      rfl
    have once := countP_resave nulFree
    have twice := countP_resave (nul_not_mem_resave content)
    rw [again, once] at twice
    have none : content.countP isDelimiter = 0 := by omega
    simpa using List.countP_eq_zero.mp none byte member
  · intro plain
    have backup := resave_eq_undoBackupText nulFree plain
    have same : parseFileToLinkedList (resave content) =
        parseFileToLinkedList content := by
      rw [backup, parse_undoBackupText nulFree]
    have again : resave (resave content) = resave content := by
      rw [resave, same]
      rfl
    refine ⟨same, ?_⟩
    intro syncs
    induction syncs with
    | zero => rfl
    | succ syncs ih =>
        rw [Function.iterate_succ_apply', ih, again]

theorem save_reload_two_words :
    parseFileToLinkedList (writeLinkedListToFile
        (parseFileToLinkedList "Hi  you".toList)) =
      parseFileToLinkedList "Hi  you".toList :=
  ((@save_reload_iff "Hi  you".toList (by decide)).mpr
    (by simp [isDelimiter])).1

/-- One sentence becomes two. -/
theorem save_reload_duplicates_delimiter :
    ¬ (parseFileToLinkedList (writeLinkedListToFile
          (parseFileToLinkedList "Hi.".toList)) =
        parseFileToLinkedList "Hi.".toList) ∧
      resave "Hi.".toList = "Hi..".toList ∧
      resave (resave "Hi.".toList) = "Hi.. ..".toList := by
  decide +kernel

end Dfs.StorageServer
