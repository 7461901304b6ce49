import Dfs.StorageServer.CommittedWords
import Dfs.StorageServer.Parsing
import Dfs.StorageServer.SavedFiles

/-!
# The cached document and the file on disk

A commit edits the sentences in memory and writes them as text; whether the
text is cut into the same sentences again depends on where words with
delimiters stand and on the delimiter fields that a parsed document carries.
Commits that respect the sentence boundaries keep both in agreement, and every
other complete request does so anyway.
-/

namespace Dfs.StorageServer

/-- Tidy words of which only the last may have a delimiter; there may be
none. -/
structure TidyWords (words : List WordText) : Prop where
  tidy : ∀ word ∈ words, TidyWord word.chars
  whole : ∀ word ∈ words.dropLast, endsInDelimiter word.chars = false

theorem TidySentence.tidyWords {words : List WordText}
    (tidy : TidySentence words) : TidyWords words :=
  ⟨tidy.tidy, tidy.whole⟩

section

variable {words : List WordText} {word : WordText}

theorem insertIdx_inside {position : Nat} (inside : position < words.length) :
    (words.insertIdx position word).getLast? = words.getLast? ∧
      ∀ other ∈ (words.insertIdx position word).dropLast,
        other = word ∨ other ∈ words.dropLast := by
  induction words generalizing position with
  | nil => simp at inside
  | cons first words ih =>
      cases position with
      | zero => simp
      | succ position =>
          have later : position < words.length := by simpa using inside
          have more : words ≠ [] := by
            intro empty
            simp [empty] at later
          have insertedMore : words.insertIdx position word ≠ [] := by
            intro empty
            have lengths := congrArg List.length empty
            simp [List.length_insertIdx_of_le_length
              (Nat.le_of_lt later)] at lengths
          obtain ⟨last, members⟩ := ih later
          rw [List.insertIdx_succ_cons]
          refine ⟨?_, ?_⟩
          · rw [List.getLast?_cons_of_ne_nil insertedMore, last,
              List.getLast?_cons_of_ne_nil more]
          · intro other member
            rw [List.dropLast_cons_of_ne_nil insertedMore] at member
            rw [List.dropLast_cons_of_ne_nil more]
            rcases List.mem_cons.mp member with same | inRest
            · exact .inr (by simp [same])
            · rcases members other inRest with added | kept
              · exact .inl added
              · exact .inr (by simp [kept])

/-- A word may go in front of the last word of a finished sentence, and
anywhere into an unfinished one; only at its end may it finish it. -/
def PlacedAt (ended : Bool) (length : Nat) (edit : EditOperation) : Prop :=
  if ended then
    endsInDelimiter edit.word.chars = false ∧ edit.wordIndex < length
  else
    endsInDelimiter edit.word.chars = true → length ≤ edit.wordIndex

/-- All queued words respect the end of the sentence, which grows by each. -/
def Placed : Bool → Nat → List EditOperation → Prop
  | _, _, [] => True
  | ended, length, edit :: edits =>
      PlacedAt ended length edit ∧
        Placed (ended || endsInDelimiter edit.word.chars) (length + 1) edits

instance Placed.decidable :
    ∀ ended length edits, Decidable (Placed ended length edits)
  | _, _, [] => inferInstanceAs (Decidable True)
  | ended, length, edit :: edits =>
      have := Placed.decidable (ended || endsInDelimiter edit.word.chars)
        (length + 1) edits
      inferInstanceAs (Decidable
        ((if ended then
            endsInDelimiter edit.word.chars = false ∧ edit.wordIndex < length
          else
            endsInDelimiter edit.word.chars = true →
              length ≤ edit.wordIndex) ∧
          Placed (ended || endsInDelimiter edit.word.chars) (length + 1)
            edits))

theorem endsInDelimiter_of_unended (tidy : TidyWords words)
    (unended : sentenceEnded words = false) (member : word ∈ words) :
    endsInDelimiter word.chars = false := by
  rcases List.eq_nil_or_concat words with rfl | ⟨front, last, rfl⟩
  · cases member
  · rw [List.concat_eq_append] at *
    rcases List.mem_append.mp member with earlier | same
    · exact tidy.whole word (by simpa using earlier)
    · rw [List.mem_singleton.mp same]
      simpa [sentenceEnded] using unended

/-- Inserting a word that is placed well keeps the sentence tidy. -/
theorem tidyWords_insertIdx {edit : EditOperation} {position : Nat}
    (tidy : TidyWords words) (tidyWord : TidyWord edit.word.chars)
    (placed : PlacedAt (sentenceEnded words) words.length edit)
    (clamped : position < words.length ∧ edit.wordIndex ≤ position ∨
      position = words.length ∧
        ((words.length : Int) ≤ edit.wordIndex ∨ words = [])) :
    TidyWords (words.insertIdx position edit.word) ∧
      sentenceEnded (words.insertIdx position edit.word) =
        (sentenceEnded words || endsInDelimiter edit.word.chars) := by
  unfold PlacedAt at placed
  rcases clamped with ⟨inside, index⟩ | ⟨atEnd, index⟩
  · have plain : endsInDelimiter edit.word.chars = false := by
      split at placed
      · exact placed.1
      · by_contra ends
        have bound := placed (by simpa using ends)
        omega
    obtain ⟨last, members⟩ := @insertIdx_inside words edit.word position inside
    refine ⟨⟨?_, ?_⟩, ?_⟩
    · intro other member
      rcases List.eq_or_mem_of_mem_insertIdx member with same | kept
      · exact same ▸ tidyWord
      · exact tidy.tidy other kept
    · intro other member
      rcases members other member with same | kept
      · exact same ▸ plain
      · exact tidy.whole other kept
    · simp [sentenceEnded, last, plain]
  · have unended : sentenceEnded words = false := by
      by_contra ended
      rw [if_pos (by simpa using ended)] at placed
      rcases index with beyond | rfl
      · omega
      · exact ended rfl
    subst atEnd
    have appended : words.insertIdx words.length edit.word =
        words ++ [edit.word] :=
      List.insertIdx_length_self
    rw [appended]
    refine ⟨⟨?_, ?_⟩, ?_⟩
    · intro other member
      rcases List.mem_append.mp member with kept | same
      · exact tidy.tidy other kept
      · exact List.mem_singleton.mp same ▸ tidyWord
    · intro other member
      rw [List.dropLast_concat] at member
      exact endsInDelimiter_of_unended tidy unended member
    · rw [unended]
      simp [sentenceEnded]

theorem applyEdit_zero (words : List WordText) (edit : EditOperation) :
    ∃ position, applyEdit 0 words edit =
        words.insertIdx position edit.word ∧
      (position < words.length ∧ edit.wordIndex ≤ position ∨
        position = words.length ∧
          ((words.length : Int) ≤ edit.wordIndex ∨ words = [])) := by
  unfold applyEdit
  simp only [createWordNode, CString.copy_chars, Int.add_zero]
  refine ⟨_, rfl, ?_⟩
  by_cases negative : edit.wordIndex < 0
  · have notBeyond : ¬(0 : Int) > words.length := by omega
    simp only [negative, notBeyond, ↓reduceIte, Int.toNat_zero]
    by_cases empty : words = []
    · exact .inr ⟨by simp [empty], .inr empty⟩
    · have positive := List.length_pos_iff.mpr empty
      exact .inl ⟨positive, by omega⟩
  · by_cases beyond : edit.wordIndex > words.length
    · simp only [negative, beyond, ↓reduceIte, Int.toNat_natCast]
      exact .inr ⟨trivial, .inl (by omega)⟩
    · simp only [negative, beyond, ↓reduceIte]
      by_cases inside : edit.wordIndex < words.length
      · exact .inl ⟨by omega, by omega⟩
      · exact .inr ⟨by omega, .inl (by omega)⟩

theorem tidyWords_foldl_applyEdit {edits : List EditOperation}
    (tidy : TidyWords words)
    (tidyEdits : ∀ edit ∈ edits, TidyWord edit.word.chars)
    (placed : Placed (sentenceEnded words) words.length edits) :
    TidyWords (edits.foldl (applyEdit 0) words) ∧
      (sentenceEnded words = true →
        sentenceEnded (edits.foldl (applyEdit 0) words) = true) := by
  induction edits generalizing words with
  | nil => exact ⟨tidy, id⟩
  | cons edit edits ih =>
      obtain ⟨placedHere, placedRest⟩ := placed
      obtain ⟨position, inserted, clamped⟩ := applyEdit_zero words edit
      obtain ⟨tidyNext, endedNext⟩ := tidyWords_insertIdx tidy
        (tidyEdits edit (by simp)) placedHere clamped
      have length : (words.insertIdx position edit.word).length =
          words.length + 1 := by
        apply List.length_insertIdx_of_le_length
        omega
      have rest := @ih (words.insertIdx position edit.word) tidyNext
        (fun other member => tidyEdits other (by simp [member]))
        (by rw [endedNext, length]; exact placedRest)
      rw [List.foldl_cons, inserted]
      refine ⟨rest.1, fun ended => rest.2 ?_⟩
      rw [endedNext, ended]
      rfl

end

theorem tidyText_iff {sentences : List (List WordText)} :
    TidyText sentences ↔ ∀ position words,
      sentences[position]? = some words →
        TidySentence words ∧
          (position + 1 < sentences.length → sentenceEnded words = true) := by
  constructor
  · intro tidy position words found
    refine ⟨tidy.tidy words (List.mem_of_getElem? found), ?_⟩
    intro before
    apply tidy.ended
    apply @List.mem_of_getElem? _ _ position
    rw [List.getElem?_dropLast, if_pos (by omega), found]
  · intro each
    refine ⟨?_, ?_⟩
    · intro words member
      obtain ⟨position, found⟩ := List.getElem?_of_mem member
      exact (each position words found).1
    · intro words member
      obtain ⟨position, found⟩ := List.getElem?_of_mem member
      rw [List.getElem?_dropLast] at found
      split at found
      · exact (each position words found).2 (by omega)
      · cases found

theorem tidyText_set {sentences : List (List WordText)} {position : Nat}
    {words changed : List WordText} (tidy : TidyText sentences)
    (found : sentences[position]? = some words)
    (tidyChanged : TidySentence changed)
    (ended : sentenceEnded words = true → sentenceEnded changed = true) :
    TidyText (sentences.set position changed) := by
  rw [tidyText_iff] at tidy ⊢
  have inRange := (List.getElem?_eq_some_iff.mp found).1
  intro other otherWords otherFound
  rw [List.length_set]
  by_cases same : position = other
  · subst same
    rw [List.getElem?_set_self inRange] at otherFound
    cases otherFound
    exact ⟨tidyChanged, fun before => ended ((tidy position words
      found).2 before)⟩
  · rw [List.getElem?_set_ne same] at otherFound
    exact tidy other otherWords otherFound

theorem tidyText_concat {sentences : List (List WordText)}
    {added : List WordText} (tidy : TidyText sentences)
    (tidyAdded : TidySentence added)
    (ended : ∀ words ∈ sentences.getLast?, sentenceEnded words = true) :
    TidyText (sentences ++ [added]) := by
  refine ⟨?_, ?_⟩
  · intro words member
    rcases List.mem_append.mp member with kept | same
    · exact tidy.tidy words kept
    · exact List.mem_singleton.mp same ▸ tidyAdded
  · intro words member
    rw [List.dropLast_concat] at member
    rcases List.eq_nil_or_concat sentences with rfl | ⟨front, last, rfl⟩
    · cases member
    · rw [List.concat_eq_append] at *
      rcases List.mem_append.mp member with earlier | same
      · exact tidy.ended words (by simpa using earlier)
      · exact ended words (by simp [List.mem_singleton.mp same])

/-- The words of each sentence. -/
def Document.wordLists (document : Document) : List (List WordText) :=
  document.sentences.map SentenceNode.words

/-- A queue that respects the sentence boundaries of a document without
delimiter fields: its words are tidy and well placed, and a new sentence is
begun only after a finished one and is not left empty. -/
structure Fits (document : Document) (sentenceIndex : Int)
    (edits : List EditOperation) : Prop where
  unmarked : ∀ part ∈ document.content, part.2 = CText.nul
  tidy : ∀ edit ∈ edits, TidyWord edit.word.chars
  placed : Placed
    (sentenceEnded (document.wordsAt sentenceIndex.toNat))
    (document.wordsAt sentenceIndex.toNat).length edits
  begins : sentenceIndex = document.sentences.length →
    edits ≠ [] ∧ ∀ words ∈ document.wordLists.getLast?,
      sentenceEnded words = true

instance (document : Document) (sentenceIndex : Int)
    (edits : List EditOperation) :
    Decidable (Fits document sentenceIndex edits) :=
  decidable_of_iff
    ((∀ part ∈ document.content, part.2 = CText.nul) ∧
      (∀ edit ∈ edits, TidyWord edit.word.chars) ∧
      Placed (sentenceEnded (document.wordsAt sentenceIndex.toNat))
        (document.wordsAt sentenceIndex.toNat).length edits ∧
      (sentenceIndex = document.sentences.length →
        edits ≠ [] ∧ ∀ words ∈ document.wordLists.getLast?,
          sentenceEnded words = true))
    ⟨fun ⟨unmarked, tidy, placed, begins⟩ =>
      ⟨unmarked, tidy, placed, begins⟩,
      fun fits => ⟨fits.unmarked, fits.tidy, fits.placed, fits.begins⟩⟩

section

variable {document other committed : Document} {session : WriteSession}

theorem Document.wordsAt_eq (document : Document) (position : Nat) :
    document.wordsAt position =
      (document.wordLists[position]?).getD [] := by
  unfold wordsAt wordLists
  rw [List.getElem?_map]
  cases document.sentences[position]? with
  | none => rfl
  | some sentence => rfl

theorem Document.wordCountAt_eq (document : Document) (sentenceIndex : Int) :
    document.wordCountAt sentenceIndex =
      (document.wordsAt sentenceIndex.toNat).length := by
  unfold wordCountAt wordsAt sentenceAt
  cases document.sentences[sentenceIndex.toNat]? with
  | none => rfl
  | some sentence => rfl

theorem Fits.of_content {sentenceIndex : Int} {edits : List EditOperation}
    (same : other.content = document.content)
    (fits : Fits document sentenceIndex edits) :
    Fits other sentenceIndex edits := by
  have lists : other.wordLists = document.wordLists :=
    Document.wordLists_of_content same
  have placed := fits.placed
  have begins := fits.begins
  rw [Document.wordsAt_eq, ← lists, ← Document.wordsAt_eq] at placed
  rw [← lists, ← Document.length_sentences_of_content same] at begins
  exact ⟨same ▸ fits.unmarked, fits.tidy, placed, begins⟩

/-- A sentence that a fitting queue was put into, or that it begins. -/
theorem tidySentence_applyEdits {words : List WordText}
    (tidy : TidyWords words)
    (fits : Fits document session.sentenceIndex session.editOps)
    (here : document.wordsAt session.sentenceIndex.toNat = words)
    (count : session.originalWordCount = words.length)
    (inhabited : words ++ session.editOps.map EditOperation.word ≠ []) :
    TidySentence (applyEdits session words) ∧
      (sentenceEnded words = true →
        sentenceEnded (applyEdits session words) = true) := by
  have placed := fits.placed
  rw [here] at placed
  have edited : applyEdits session words =
      session.editOps.foldl (applyEdit 0) words := by
    simp [applyEdits, count]
  rw [edited]
  obtain ⟨tidyEdited, endedEdited⟩ :=
    tidyWords_foldl_applyEdit tidy fits.tidy placed
  refine ⟨⟨?_, tidyEdited.tidy, tidyEdited.whole⟩, endedEdited⟩
  intro empty
  have added := (foldl_applyEdit_spec 0 session.editOps words).2
  rw [empty] at added
  exact inhabited added.symm.eq_nil

theorem tidyText_commit (counted : document.Counted)
    (tidy : TidyText document.wordLists)
    (fits : Fits document session.sentenceIndex session.editOps)
    (count : session.originalWordCount =
      (document.wordsAt session.sentenceIndex.toNat).length)
    (done : document.commit session = some committed) :
    TidyText committed.wordLists := by
  rcases Document.commit_cases done with
    ⟨sentence, found, rfl⟩ | ⟨absent, next, rfl⟩
  · unfold Document.sentenceAt at found
    have here : document.wordsAt session.sentenceIndex.toNat =
        sentence.words := by
      simp [Document.wordsAt, found]
    have listed : document.wordLists[session.sentenceIndex.toNat]? =
        some sentence.words := by
      simp [Document.wordLists, found]
    have old := tidy.tidy sentence.words (List.mem_of_getElem? listed)
    obtain ⟨tidyEdited, endedEdited⟩ := tidySentence_applyEdits old.tidyWords
      fits here (here ▸ count) (by simp [old.inhabited])
    have lists : (document.setSentence session.sentenceIndex
        { sentence with
          words := applyEdits session sentence.words }).wordLists =
        document.wordLists.set session.sentenceIndex.toNat
          (applyEdits session sentence.words) := by
      simp [Document.wordLists, Document.setSentence, List.map_set]
    rw [lists]
    exact tidyText_set tidy listed tidyEdited endedEdited
  · unfold Document.sentenceAt at absent
    have here : document.wordsAt session.sentenceIndex.toNat = [] := by
      simp [Document.wordsAt, absent]
    obtain ⟨queued, ended⟩ := fits.begins (next.trans (by
      unfold Document.Counted at counted
      rw [counted]))
    have begun := (tidySentence_applyEdits ⟨by simp, by simp⟩ fits here
      (here ▸ count) (by simpa using queued)).1
    have lists : Document.wordLists
        { sentences := document.sentences ++
            [{ createSentenceNode CText.nul with
               words := applyEdits session [] }]
          sentenceCount := document.sentenceCount + 1 } =
        document.wordLists ++ [applyEdits session []] := by
      simp [Document.wordLists]
    rw [lists]
    exact tidyText_concat tidy begun ended

/-- A commit sets no delimiter field. -/
theorem unmarked_commit
    (unmarked : ∀ part ∈ document.content, part.2 = CText.nul)
    (done : document.commit session = some committed) :
    ∀ sentence ∈ committed.sentences, sentence.delimiter = CText.nul := by
  have before : ∀ sentence ∈ document.sentences,
      sentence.delimiter = CText.nul := by
    intro sentence member
    exact unmarked (sentence.words, sentence.delimiter)
      (List.mem_map.mpr ⟨sentence, member, rfl⟩)
  intro other member
  rcases Document.commit_cases done with
    ⟨sentence, found, rfl⟩ | ⟨_, _, rfl⟩
  · rcases List.mem_or_eq_of_mem_set member with kept | same
    · exact before other kept
    · rw [same]
      exact before sentence (List.mem_of_getElem? found)
  · rcases List.mem_append.mp member with kept | same
    · exact before other kept
    · rw [List.mem_singleton.mp same]
      rfl

/-- A tidy document without delimiter fields is read back as it is. -/
theorem wordLists_written (tidy : TidyText document.wordLists)
    (unmarked : ∀ sentence ∈ document.sentences,
      sentence.delimiter = CText.nul) :
    (loadDocument (writeLinkedListToFile document.sentences)).wordLists =
      document.wordLists := by
  rw [writeLinkedListToFile_eq_undoBackupText unmarked,
    undoBackupText_eq_wordsText tidy.inhabited]
  exact wordLists_loadDocument_of_tidy tidy

end

/-- The document has the sentences that the text is cut into. -/
def SameSentences (document : Document) (text : Text) : Prop :=
  document.wordLists = (loadDocument text).wordLists

theorem describes_sameSentences : Describes SameSentences :=
  ⟨fun _ => rfl, fun same related =>
    (Document.wordLists_of_content same).trans related⟩

/-- A WRITE that commits fits the document it finds. -/
def WriteFits (filename : Filename) (s : FileHandler) : Request → Prop
  | .write _ username sentenceIndex messages _ =>
      ∀ document ∈ (view s filename).document,
        ∀ session ∈ (openWrite s filename username sentenceIndex).2.2,
          (receiveCommands session messages).2.1 = true →
          Fits document sentenceIndex
            (receiveCommands session messages).1.editOps
  | _ => True

/-- A commit that fits leaves the sentences on disk. -/
theorem sameSentences_commit {v : FileView} {username : Username}
    {sentenceIndex : Int} {session : WriteSession}
    {messages : List WriteMessage} {document unlocked committed : Document}
    (saved : v.Saved SameSentences)
    (granted : v.Granted username sentenceIndex session document unlocked)
    (fits : Fits document sentenceIndex
      (receiveCommands session messages).1.editOps)
    (done : unlocked.commit (receiveCommands session messages).1 =
      some committed) :
    SameSentences committed (writeLinkedListToFile committed.sentences) := by
  obtain ⟨text, _, same⟩ := saved.related document granted.loaded
  have lists : unlocked.wordLists = document.wordLists :=
    Document.wordLists_of_content granted.content
  have tidy : TidyText unlocked.wordLists := by
    rw [lists, same]
    exact tidyText_loadDocument text
  obtain ⟨_, index, wordCount⟩ := receiveCommands_fields session messages
  have sessionIndex : session.sentenceIndex = sentenceIndex := by
    rw [granted.opened]
    rfl
  have words : session.originalWordCount =
      (unlocked.wordsAt sentenceIndex.toNat).length := by
    rw [granted.opened, Document.wordsAt_eq, lists, ← Document.wordsAt_eq,
      ← Document.wordCountAt_eq]
    rfl
  rw [sessionIndex] at index
  have fitsUnlocked := fits.of_content granted.content
  have tidyCommitted := @tidyText_commit unlocked committed
    (receiveCommands session messages).1
    (granted.counted (saved.counted document granted.loaded)) tidy
    (index ▸ fitsUnlocked) (by rw [wordCount, index, words]) done
  have unmarked := unmarked_commit fitsUnlocked.unmarked done
  exact (wordLists_written tidyCommitted unmarked).symm

end Dfs.StorageServer
