import Dfs.StorageServer.State

/-!
# Reading back what was written

The parser cuts the text into words at white space, the words into parts after
each delimiter, and groups the parts into sentences that end with one.  Text
made of tidy words, joined by single spaces, is cut into exactly these words;
what the parser returns consists of tidy words in well-formed sentences.
-/

namespace Dfs.StorageServer

theorem readWords_append_white {space : Char}
    (white : CText.isSpace space = true) (buffer text rest : Text) :
    readWords buffer (text ++ space :: rest) =
      readWords buffer text ++ readWords [] rest := by
  induction text generalizing buffer with
  | nil =>
      by_cases empty : buffer = []
      · simp [readWords, white, empty]
      · simp [readWords, white, empty]
  | cons byte text ih =>
      simp only [List.cons_append, readWords]
      split
      · split
        · exact ih []
        · simp [ih]
      · split
        · simp [ih]
        · exact ih _

theorem readWords_append_space (buffer text rest : Text) :
    readWords buffer (text ++ ' ' :: rest) =
      readWords buffer text ++ readWords [] rest :=
  readWords_append_white (by decide) buffer text rest

/-- Words are read piece by piece. -/
theorem readWords_joinSpaces (pieces : List Text) :
    readWords [] (CText.joinSpaces pieces) = pieces.flatMap (readWords []) := by
  induction pieces with
  | nil => rfl
  | cons piece pieces ih =>
      cases pieces with
      | nil => simp [CText.joinSpaces_singleton]
      | cons next pieces =>
          rw [CText.joinSpaces_cons (by simp), readWords_append_space, ih]
          rfl

theorem readWords_of_no_space {buffer word : Text}
    (solid : ∀ byte ∈ word, CText.isSpace byte = false)
    (short : buffer.length + word.length ≤ 255)
    (inhabited : buffer ++ word ≠ []) (room : buffer.length < 255) :
    readWords buffer word = [buffer ++ word] := by
  induction word generalizing buffer with
  | nil =>
      have more : buffer ≠ [] := by simpa using inhabited
      simp [readWords, more]
  | cons byte rest ih =>
      have head : CText.isSpace byte = false := solid byte (by simp)
      have tail : ∀ other ∈ rest, CText.isSpace other = false :=
        fun other member => solid other (by simp [member])
      have bound : buffer.length + (rest.length + 1) ≤ 255 := by
        simpa using short
      simp only [readWords, head, Bool.false_eq_true, ↓reduceIte]
      by_cases full : buffer.length + 1 ≥ 255
      · have nothing : rest = [] := by
          apply List.eq_nil_of_length_eq_zero
          omega
        subst nothing
        simp [full, readWords]
      · rw [if_neg full, ih tail (by simp; omega) (by simp) (by simp; omega)]
        simp

/-- The words of a text are not empty, have no white space and fit their
buffer. -/
theorem mem_readWords {buffer text word : Text}
    (solidBuffer : ∀ byte ∈ buffer, CText.isSpace byte = false)
    (short : buffer.length < 255)
    (member : word ∈ readWords buffer text) :
    word ≠ [] ∧ (∀ byte ∈ word, CText.isSpace byte = false) ∧
      word.length ≤ 255 := by
  have empty : ∀ byte ∈ ([] : Text), CText.isSpace byte = false := by simp
  have emptyShort : ([] : Text).length < 255 := by decide
  induction text generalizing buffer with
  | nil =>
      unfold readWords at member
      split at member
      · cases member
      · rename_i more
        rw [List.mem_singleton.mp member]
        exact ⟨more, solidBuffer, by omega⟩
  | cons byte rest ih =>
      unfold readWords at member
      split at member
      · split at member
        · exact ih empty emptyShort member
        · rename_i more
          rcases List.mem_cons.mp member with same | later
          · rw [same]
            exact ⟨more, solidBuffer, by omega⟩
          · exact ih empty emptyShort later
      · rename_i solid
        have extended : ∀ other ∈ buffer ++ [byte],
            CText.isSpace other = false := by
          intro other inside
          rcases List.mem_append.mp inside with earlier | last
          · exact solidBuffer other earlier
          · rw [List.mem_singleton.mp last]
            simpa using solid
        split at member
        · rcases List.mem_cons.mp member with same | later
          · rw [same]
            exact ⟨by simp, extended, by simp; omega⟩
          · exact ih empty emptyShort later
        · exact ih extended (by simp; omega) member

theorem nul_not_mem_readWords {buffer text word : Text}
    (bufferFree : CText.nul ∉ buffer) (textFree : CText.nul ∉ text)
    (member : word ∈ readWords buffer text) : CText.nul ∉ word := by
  induction text generalizing buffer with
  | nil =>
      unfold readWords at member
      split at member
      · cases member
      · rw [List.mem_singleton.mp member]
        exact bufferFree
  | cons byte rest ih =>
      have restFree : CText.nul ∉ rest := fun inside =>
        textFree (by simp [inside])
      have extended : CText.nul ∉ buffer ++ [byte] := by
        intro inside
        rcases List.mem_append.mp inside with earlier | last
        · exact bufferFree earlier
        · exact textFree (by simp [List.mem_singleton.mp last])
      unfold readWords at member
      split at member
      · split at member
        · exact ih (by simp) restFree member
        · rcases List.mem_cons.mp member with same | later
          · exact same ▸ bufferFree
          · exact ih (by simp) restFree later
      · split at member
        · rcases List.mem_cons.mp member with same | later
          · exact same ▸ extended
          · exact ih (by simp) restFree later
        · exact ih extended restFree member

/-- The pieces of a word, each up to and with its delimiter. -/
def splitDelimiters : Text → Text → List Text
  | part, [] => if part = [] then [] else [part]
  | part, byte :: rest =>
      if isDelimiter byte then
        (part ++ [byte]) :: splitDelimiters [] rest
      else splitDelimiters (part ++ [byte]) rest

/-- A word as the parser stores it: no white space, a delimiter at most at its
end, and short enough. -/
structure TidyWord (word : Text) : Prop where
  inhabited : word ≠ []
  solid : ∀ byte ∈ word, CText.isSpace byte = false
  whole : ∀ byte ∈ word.dropLast, isDelimiter byte = false
  short : word.length ≤ 255

instance (word : Text) : Decidable (TidyWord word) :=
  decidable_of_iff
    (word ≠ [] ∧ (word.all fun byte => CText.isSpace byte = false) = true ∧
      (word.dropLast.all fun byte => isDelimiter byte = false) = true ∧
      word.length ≤ 255)
    ⟨fun ⟨inhabited, solid, whole, short⟩ =>
      ⟨inhabited, by simpa using solid, by simpa using whole, short⟩,
      fun tidy => ⟨tidy.inhabited, by simpa using tidy.solid,
        by simpa using tidy.whole, tidy.short⟩⟩

theorem mem_splitDelimiters {part word piece : Text}
    (plain : ∀ byte ∈ part, isDelimiter byte = false)
    (member : piece ∈ splitDelimiters part word) :
    piece ≠ [] ∧ (∀ byte ∈ piece.dropLast, isDelimiter byte = false) ∧
      piece.length ≤ part.length + word.length ∧
      ∀ byte ∈ piece, byte ∈ part ++ word := by
  induction word generalizing part with
  | nil =>
      unfold splitDelimiters at member
      split at member
      · cases member
      · rename_i more
        rw [List.mem_singleton.mp member]
        refine ⟨more, ?_, by simp, by simp⟩
        intro byte inside
        exact plain byte (List.mem_of_mem_dropLast inside)
  | cons byte rest ih =>
      unfold splitDelimiters at member
      split at member
      · rcases List.mem_cons.mp member with same | later
        · rw [same]
          refine ⟨by simp, by simpa using plain, by simp, ?_⟩
          intro other inside
          rw [List.append_cons]
          exact List.mem_append_left rest inside
        · obtain ⟨more, whole, short, inside⟩ := ih (by simp) later
          refine ⟨more, whole, ?_, ?_⟩
          · simp only [List.length_nil, List.length_cons] at short ⊢
            omega
          · intro other found
            have inRest : other ∈ rest := by simpa using inside other found
            simp [inRest]
      · rename_i ordinary
        have extended : ∀ other ∈ part ++ [byte],
            isDelimiter other = false := by
          intro other inside
          rcases List.mem_append.mp inside with earlier | last
          · exact plain other earlier
          · rw [List.mem_singleton.mp last]
            simpa using ordinary
        obtain ⟨more, whole, short, inside⟩ := ih extended member
        refine ⟨more, whole, ?_, ?_⟩
        · simp only [List.length_append, List.length_cons, List.length_nil]
            at short ⊢
          omega
        · intro other found
          have whereFound := inside other found
          rwa [← List.append_cons] at whereFound

theorem splitDelimiters_of_whole {part word : Text}
    (whole : ∀ byte ∈ (part ++ word).dropLast, isDelimiter byte = false)
    (inhabited : part ++ word ≠ []) :
    splitDelimiters part word = [part ++ word] := by
  induction word generalizing part with
  | nil =>
      have more : part ≠ [] := by simpa using inhabited
      simp [splitDelimiters, more]
  | cons byte rest ih =>
      unfold splitDelimiters
      split
      · rename_i delimiter
        cases rest with
        | nil => simp [splitDelimiters]
        | cons next rest =>
            have inside : byte ∈ (part ++ byte :: next :: rest).dropLast := by
              rw [List.dropLast_append_of_ne_nil (by simp)]
              simp
            rw [whole byte inside] at delimiter
            cases delimiter
      · rw [ih (by simpa using whole) (by simp)]
        simp

/-- The parts of a text in order. -/
def textParts (text : Text) : List Text :=
  (readWords [] text).flatMap (splitDelimiters [])

theorem textParts_joinSpaces (pieces : List Text) :
    textParts (CText.joinSpaces pieces) = pieces.flatMap textParts := by
  unfold textParts
  rw [readWords_joinSpaces, List.flatMap_assoc]

theorem TidyWord.textParts {word : Text} (tidy : TidyWord word) :
    textParts word = [word] := by
  have read : readWords [] word = [word] :=
    readWords_of_no_space tidy.solid (by simpa using tidy.short)
      tidy.inhabited (by decide)
  have split : splitDelimiters [] word = [word] :=
    splitDelimiters_of_whole tidy.whole tidy.inhabited
  simp [StorageServer.textParts, read, split]

/-- Tidy words survive being joined and read again. -/
theorem textParts_joinSpaces_of_tidy {pieces : List Text}
    (tidy : ∀ piece ∈ pieces, TidyWord piece) :
    textParts (CText.joinSpaces pieces) = pieces := by
  rw [textParts_joinSpaces]
  induction pieces with
  | nil => rfl
  | cons piece pieces ih =>
      rw [List.flatMap_cons, (tidy piece (by simp)).textParts,
        ih fun other member => tidy other (by simp [member])]
      rfl

theorem tidy_of_mem_textParts {text part : Text}
    (member : part ∈ textParts text) : TidyWord part := by
  obtain ⟨word, read, piece⟩ := List.mem_flatMap.mp member
  obtain ⟨_, solid, short⟩ := mem_readWords (by simp) (by decide) read
  obtain ⟨inhabited, whole, length, inside⟩ :=
    mem_splitDelimiters (by simp) piece
  refine ⟨inhabited, ?_, whole, ?_⟩
  · intro byte found
    exact solid byte (by simpa using inside byte found)
  · simp only [List.length_nil] at length
    omega

theorem nul_not_mem_textParts {text part : Text}
    (nulFree : CText.nul ∉ text) (member : part ∈ textParts text) :
    CText.nul ∉ part := by
  obtain ⟨word, read, piece⟩ := List.mem_flatMap.mp member
  obtain ⟨_, _, _, inside⟩ := mem_splitDelimiters (by simp) piece
  intro found
  exact nul_not_mem_readWords (by simp) nulFree read
    (by simpa using inside _ found)

/-- Words grouped into sentences, each ended by a word with a delimiter;
`current` is the sentence being filled. -/
def groupWords : List WordText → List WordText → List (List WordText)
  | current, [] => if current = [] then [] else [current]
  | current, word :: rest =>
      if endsInDelimiter word.chars then
        (current ++ [word]) :: groupWords [] rest
      else groupWords (current ++ [word]) rest

theorem flatten_groupWords (current words : List WordText) :
    (groupWords current words).flatten = current ++ words := by
  induction words generalizing current with
  | nil =>
      unfold groupWords
      split
      · rename_i empty
        simp [empty]
      · simp
  | cons word rest ih =>
      unfold groupWords
      split
      · simp [ih]
      · simp [ih]

/-- What the parser does with one part. -/
def ParseState.addPart (state : ParseState) (part : Text) : ParseState :=
  if endsInDelimiter part then
    (state.addWord part).closeSentence (part.getLastD CText.nul)
  else state.addWord part

theorem processWord_eq_foldl {part : Text}
    (plain : ∀ byte ∈ part, isDelimiter byte = false) (state : ParseState)
    (word : Text) :
    processWord state part word =
      (splitDelimiters part word).foldl ParseState.addPart state := by
  induction word generalizing part state with
  | nil =>
      unfold processWord splitDelimiters
      split
      · rfl
      · rename_i more
        have unended : endsInDelimiter part = false := by
          unfold endsInDelimiter
          cases last : part.getLast? with
          | none => rfl
          | some byte => exact plain byte (List.mem_of_getLast? last)
        simp [ParseState.addPart, unended]
  | cons byte rest ih =>
      unfold processWord splitDelimiters
      split
      · rename_i delimiter
        have ended : endsInDelimiter (part ++ [byte]) = true := by
          simpa [endsInDelimiter] using delimiter
        rw [ih (by simp)]
        simp [ParseState.addPart, ended]
      · rename_i ordinary
        apply ih
        intro other inside
        rcases List.mem_append.mp inside with earlier | last
        · exact plain other earlier
        · rw [List.mem_singleton.mp last]
          simpa using ordinary

theorem foldl_processWord (words : List Text) (state : ParseState) :
    words.foldl (fun state word => processWord state [] word) state =
      (words.flatMap (splitDelimiters [])).foldl ParseState.addPart state := by
  induction words generalizing state with
  | nil => rfl
  | cons word words ih =>
      rw [List.foldl_cons, processWord_eq_foldl (by simp), ih,
        List.flatMap_cons, List.foldl_append]

/-- The word lists of the sentences read so far. -/
def ParseState.wordLists (state : ParseState) : List (List WordText) :=
  state.closed.map SentenceNode.words ++
    if state.current.words = [] then [] else [state.current.words]

theorem wordLists_foldl_addPart {parts : List Text}
    (stored : ∀ part ∈ parts, (createWordNode part).chars = part)
    (state : ParseState) :
    (parts.foldl ParseState.addPart state).wordLists =
      state.closed.map SentenceNode.words ++
        groupWords state.current.words (parts.map createWordNode) := by
  induction parts generalizing state with
  | nil => rfl
  | cons part parts ih =>
      have storedPart := stored part (by simp)
      rw [List.foldl_cons,
        ih fun other member => stored other (by simp [member])]
      by_cases ended : endsInDelimiter part = true
      · simp [ParseState.addPart, ended, groupWords, storedPart,
          ParseState.addWord, ParseState.closeSentence, createSentenceNode]
      · simp [ParseState.addPart, ended, groupWords, storedPart,
          ParseState.addWord]

theorem createWordNode_chars {part : Text} (short : part.length ≤ 255)
    (nulFree : CText.nul ∉ part) : (createWordNode part).chars = part := by
  simp [createWordNode, CString.copy, CText.terminated_eq_self nulFree,
    List.take_of_length_le short]

/-- The words the parser finds, grouped into its sentences. -/
theorem wordLists_parse {text : Text} (nulFree : CText.nul ∉ text) :
    (parseFileToLinkedList text).map SentenceNode.words =
      groupWords [] ((textParts text).map createWordNode) := by
  have stored : ∀ part ∈ textParts text,
      (createWordNode part).chars = part := fun part member =>
    createWordNode_chars (tidy_of_mem_textParts member).short
      (nul_not_mem_textParts nulFree member)
  have grouped := wordLists_foldl_addPart stored
    ⟨[], createSentenceNode CText.nul⟩
  have lists : (parseFileToLinkedList text).map SentenceNode.words =
      ParseState.wordLists ((textParts text).foldl ParseState.addPart
        ⟨[], createSentenceNode CText.nul⟩) := by
    unfold parseFileToLinkedList textParts ParseState.wordLists
    simp only [foldl_processWord]
    split
    · simp
    · simp
  rw [lists, grouped]
  rfl

def sentenceEnded (words : List WordText) : Bool :=
  match words.getLast? with
  | some word => endsInDelimiter word.chars
  | none => false

/-- Tidy words of which only the last may have a delimiter. -/
structure TidySentence (words : List WordText) : Prop where
  inhabited : words ≠ []
  tidy : ∀ word ∈ words, TidyWord word.chars
  whole : ∀ word ∈ words.dropLast, endsInDelimiter word.chars = false

/-- Sentences of which only the last may lack a delimiter. -/
structure TidyText (sentences : List (List WordText)) : Prop where
  tidy : ∀ words ∈ sentences, TidySentence words
  ended : ∀ words ∈ sentences.dropLast, sentenceEnded words = true

theorem TidyText.inhabited {sentences : List SentenceNode}
    (tidy : TidyText (sentences.map SentenceNode.words)) :
    ∀ sentence ∈ sentences, sentence.words ≠ [] := by
  intro sentence member
  exact (tidy.tidy sentence.words
    (List.mem_map.mpr ⟨sentence, member, rfl⟩)).inhabited

theorem groupWords_append_ended {words : List WordText}
    (whole : ∀ word ∈ words.dropLast, endsInDelimiter word.chars = false)
    (ended : sentenceEnded words = true) (current more : List WordText) :
    groupWords current (words ++ more) =
      (current ++ words) :: groupWords [] more := by
  induction words generalizing current with
  | nil => cases ended
  | cons word words ih =>
      cases words with
      | nil =>
          have last : endsInDelimiter word.chars = true := by
            simpa [sentenceEnded] using ended
          simp [groupWords, last]
      | cons next words =>
          have first : endsInDelimiter word.chars = false :=
            whole word (by simp)
          have rest := ih (fun other member => whole other (by
            rw [List.dropLast_cons_of_ne_nil (by simp)]
            simp [member])) (by simpa [sentenceEnded] using ended)
            (current ++ [word])
          rw [List.cons_append, groupWords, first]
          simpa using rest

theorem groupWords_single {words : List WordText} {current : List WordText}
    (inhabited : current ++ words ≠ [])
    (whole : ∀ word ∈ words.dropLast, endsInDelimiter word.chars = false) :
    groupWords current words = [current ++ words] := by
  induction words generalizing current with
  | nil =>
      have more : current ≠ [] := by simpa using inhabited
      simp [groupWords, more]
  | cons word words ih =>
      unfold groupWords
      cases words with
      | nil =>
          split
          · simp [groupWords]
          · simp [groupWords]
      | cons next words =>
          have first : endsInDelimiter word.chars = false :=
            whole word (by simp)
          have rest := @ih (current ++ [word]) (by simp)
            (fun other member => whole other (by
              rw [List.dropLast_cons_of_ne_nil (by simp)]
              simp [member]))
          rw [first]
          simpa using rest

/-- Grouping finds the sentences of a well-formed text again. -/
theorem groupWords_flatten {sentences : List (List WordText)}
    (tidy : TidyText sentences) :
    groupWords [] sentences.flatten = sentences := by
  induction sentences with
  | nil => rfl
  | cons words sentences ih =>
      have first := tidy.tidy words (by simp)
      cases sentences with
      | nil =>
          have single : groupWords [] words = [words] :=
            groupWords_single first.inhabited first.whole
          simp [single]
      | cons next sentences =>
          have ended := tidy.ended words (by simp)
          have rest : TidyText (next :: sentences) := by
            refine ⟨fun other member => tidy.tidy other (by simp [member]), ?_⟩
            intro other member
            apply tidy.ended
            rw [List.dropLast_cons_of_ne_nil (by simp)]
            simp [member]
          rw [List.flatten_cons, groupWords_append_ended first.whole ended,
            ih rest]
          simp

theorem tidyText_groupWords {current words : List WordText}
    (tidyCurrent : ∀ word ∈ current, TidyWord word.chars ∧
      endsInDelimiter word.chars = false)
    (tidyWords : ∀ word ∈ words, TidyWord word.chars) :
    TidyText (groupWords current words) := by
  induction words generalizing current with
  | nil =>
      unfold groupWords
      split
      · exact ⟨by simp, by simp⟩
      · rename_i more
        refine ⟨?_, by simp⟩
        intro other member
        rw [List.mem_singleton.mp member]
        exact ⟨more, fun word inside => (tidyCurrent word inside).1,
          fun word inside =>
            (tidyCurrent word (List.mem_of_mem_dropLast inside)).2⟩
  | cons word words ih =>
      have tidyRest : ∀ other ∈ words, TidyWord other.chars :=
        fun other member => tidyWords other (by simp [member])
      unfold groupWords
      split
      · rename_i last
        have rest := @ih [] (by simp) tidyRest
        have closed : TidySentence (current ++ [word]) := by
          refine ⟨by simp, ?_, ?_⟩
          · intro other member
            rcases List.mem_append.mp member with earlier | same
            · exact (tidyCurrent other earlier).1
            · rw [List.mem_singleton.mp same]
              exact tidyWords word (by simp)
          · intro other member
            rw [List.dropLast_concat] at member
            exact (tidyCurrent other member).2
        refine ⟨?_, ?_⟩
        · intro other member
          rcases List.mem_cons.mp member with same | later
          · rw [same]
            exact closed
          · exact rest.tidy other later
        · intro other member
          cases grouped : groupWords [] words with
          | nil => simp [grouped] at member
          | cons next others =>
              rw [grouped, List.dropLast_cons_of_ne_nil (by simp)] at member
              rcases List.mem_cons.mp member with same | later
              · rw [same]
                simpa [sentenceEnded] using last
              · exact rest.ended other (grouped ▸ later)
      · rename_i open_
        apply ih
        · intro other member
          rcases List.mem_append.mp member with earlier | same
          · exact tidyCurrent other earlier
          · rw [List.mem_singleton.mp same]
            exact ⟨tidyWords word (by simp), by simpa using open_⟩
        · exact tidyRest

theorem wordLists_loadDocument (content : Text) :
    (loadDocument content).sentences.map SentenceNode.words =
      groupWords []
        ((textParts (CText.terminated content)).map createWordNode) :=
  wordLists_parse (CText.nul_not_mem_terminated content)

theorem tidyText_loadDocument (content : Text) :
    TidyText ((loadDocument content).sentences.map SentenceNode.words) := by
  rw [wordLists_loadDocument]
  apply tidyText_groupWords
  · simp
  · intro word member
    obtain ⟨part, inside, rfl⟩ := List.mem_map.mp member
    have tidy := tidy_of_mem_textParts inside
    rw [createWordNode_chars tidy.short (nul_not_mem_textParts
      (CText.nul_not_mem_terminated content) inside)]
    exact tidy

theorem nul_not_mem_wordsText (words : List WordText) :
    CText.nul ∉ wordsText words := by
  apply CText.not_mem_joinSpaces (by decide)
  intro piece member
  obtain ⟨word, _, rfl⟩ := List.mem_map.mp member
  exact word.nulFree

/-- A well-formed text is read back sentence by sentence. -/
theorem wordLists_loadDocument_of_tidy {sentences : List (List WordText)}
    (tidy : TidyText sentences) :
    (loadDocument (wordsText sentences.flatten)).sentences.map
      SentenceNode.words = sentences := by
  have tidyWords : ∀ piece ∈ sentences.flatten.map CString.chars,
      TidyWord piece := by
    intro piece member
    obtain ⟨word, inside, rfl⟩ := List.mem_map.mp member
    obtain ⟨words, sentence, found⟩ := List.mem_flatten.mp inside
    exact (tidy.tidy words sentence).tidy word found
  have restored : (sentences.flatten.map CString.chars).map createWordNode =
      sentences.flatten := by
    simp [createWordNode, Function.comp_def]
  rw [wordLists_loadDocument,
    CText.terminated_eq_self (nul_not_mem_wordsText _), wordsText,
    textParts_joinSpaces_of_tidy tidyWords, restored, groupWords_flatten tidy]

theorem undoBackupText_eq_wordsText {sentences : List SentenceNode}
    (inhabited : ∀ sentence ∈ sentences, sentence.words ≠ []) :
    undoBackupText sentences =
      wordsText (sentences.map SentenceNode.words).flatten := by
  have groups : ∀ group ∈ sentences.map fun sentence =>
      sentence.words.map CString.chars, group ≠ [] := by
    intro group member
    obtain ⟨sentence, inside, rfl⟩ := List.mem_map.mp member
    simpa using inhabited sentence inside
  have joined := CText.joinSpaces_flatten groups
  simpa [undoBackupText, wordsText, Function.comp_def, List.map_flatten]
    using joined

theorem writeLinkedListToFile_eq_undoBackupText
    {sentences : List SentenceNode}
    (unmarked : ∀ sentence ∈ sentences, sentence.delimiter = CText.nul) :
    writeLinkedListToFile sentences = undoBackupText sentences := by
  unfold writeLinkedListToFile undoBackupText
  congr 1
  apply List.map_congr_left
  intro sentence member
  simp [delimiterText, unmarked sentence member]

theorem nul_not_mem_undoBackupText (sentences : List SentenceNode) :
    CText.nul ∉ undoBackupText sentences := by
  apply CText.not_mem_joinSpaces (by decide)
  intro piece member
  obtain ⟨sentence, _, rfl⟩ := List.mem_map.mp member
  exact nul_not_mem_wordsText sentence.words

end Dfs.StorageServer
