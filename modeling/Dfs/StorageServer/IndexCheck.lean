import Dfs.StorageServer.ParserLaws
import Dfs.StorageServer.WriteSession
import Dfs.StorageServer.Interleaving

/-!
# The index check of WRITE

Two counts bound the sentence index of a WRITE request: the full stops on disk
and the sentences in memory.  A sentence may also end in an exclamation or a
question mark, so the first count is that of the sentences that end in a full
stop, and it is never the larger one.
-/

namespace Dfs.StorageServer

/-- How many sentences end in a delimiter of one kind. -/
def sentencesEndedBy (counted : Char → Bool)
    (sentences : List SentenceNode) : Nat :=
  sentences.countP fun sentence => counted sentence.delimiter

theorem sum_indicators (sentences : List SentenceNode)
    (counted : Char → Bool) :
    (sentences.map fun sentence =>
      if counted sentence.delimiter then 1 else 0).sum =
        sentencesEndedBy counted sentences := by
  induction sentences with
  | nil => rfl
  | cons sentence sentences ih =>
      rw [List.map_cons, List.sum_cons, ih, sentencesEndedBy,
        sentencesEndedBy, List.countP_cons, Nat.add_comm]

/-- Each delimiter of a text ends one sentence. -/
theorem sentencesEndedBy_parse {content : Text}
    (nulFree : CText.nul ∉ content) {counted : Char → Bool}
    (delimiters : ∀ byte, counted byte = true → isDelimiter byte = true) :
    sentencesEndedBy counted (parseFileToLinkedList content) =
      content.countP counted := by
  have keeps := parse_keeps nulFree
  rw [← countP_parse nulFree delimiters, ← sum_indicators]
  congr 1
  apply List.map_congr_left
  intro sentence member
  exact (countP_wellFormed (keeps.wellFormed sentence member)
    delimiters).symm

theorem isDelimiter_of_fullStop (byte : Char) (same : (byte == '.') = true) :
    isDelimiter byte = true := by
  rw [eq_of_beq same]
  decide

def slotError : Response :=
  writeError errSentenceOutOfRange
    "ERROR: Sentence index out of range.".toList

/-- The index passes the slot validation and the range checks of the lock. -/
def PassesIndexChecks (s : FileHandler) (filename : Filename)
    (username : Username) (sentenceIndex : Int) : Prop :=
  validateWrite (s.diskText filename)
      (s.disk.statSize (getFilePath s.storage filename)) sentenceIndex ≠
        some slotError ∧
    (lockSentenceLl s filename sentenceIndex username).2 ≠
      errSentenceOutOfRange

instance (s : FileHandler) (filename : Filename) (username : Username)
    (sentenceIndex : Int) :
    Decidable (PassesIndexChecks s filename username sentenceIndex) :=
  inferInstanceAs (Decidable (_ ∧ _))

theorem validateWrite_passes_iff (content : Text) (size : Option Nat)
    (sentenceIndex : Int) :
    validateWrite (some content) size sentenceIndex ≠ some slotError ↔
      0 ≤ sentenceIndex ∧ sentenceIndex ≤ content.count '.' := by
  simp only [validateWrite, Option.any_some, decide_eq_true_eq]
  by_cases outside : sentenceIndex < 0 ∨
      sentenceIndex ≥ 1 + (content.count '.' : Int)
  · rw [if_pos outside]
    constructor
    · intro different
      exact absurd rfl different
    · omega
  · rw [if_neg outside]
    have codes : errServerError ≠ errSentenceOutOfRange := by decide
    constructor
    · omega
    · intro _
      split
      · simp [slotError, writeError, codes]
      · simp

theorem lockSentence_passes_iff (document : Document) (sentenceIndex : Int)
    (username : Username) :
    (document.lockSentence sentenceIndex username).2 ≠
        errSentenceOutOfRange ↔
      0 ≤ sentenceIndex ∧ sentenceIndex ≤ document.sentenceCount := by
  have free : (0 : Int) ≠ errSentenceOutOfRange := by decide
  have locked : errSentenceLocked ≠ errSentenceOutOfRange := by decide
  rw [Document.lockSentence]
  by_cases negative : sentenceIndex < 0
  · simp [negative]
  rw [if_neg negative]
  by_cases beyond : sentenceIndex > document.sentenceCount
  · simp [beyond]
  rw [if_neg beyond]
  constructor
  · omega
  · intro _
    split
    · exact free
    · split
      · exact locked
      · exact free

theorem lockSentenceLl_result {s : FileHandler} {filename : Filename}
    {file : LoadedFile} (cached : s.fileCache.get filename = some file)
    (sentenceIndex : Int) (username : Username) :
    (lockSentenceLl s filename sentenceIndex username).2 =
      (file.lockSentence sentenceIndex username).2 := by
  simp [lockSentenceLl, getFileFromCache, cached]

/-- WRITE admits the sentences up to the number of those that end in a full
stop. -/
theorem index_checks_iff {s : FileHandler} {filename : Filename}
    {file : LoadedFile} {content : Text} (nulFree : CText.nul ∉ content)
    (onDisk : s.diskText filename = some content)
    (cached : s.fileCache.get filename = some file)
    (loaded : file.toDocument = loadDocument content)
    (username : Username) (sentenceIndex : Int) :
    PassesIndexChecks s filename username sentenceIndex ↔
      0 ≤ sentenceIndex ∧
        sentenceIndex ≤
          sentencesEndedBy (· == '.') (parseFileToLinkedList content) := by
  have stops := sentencesEndedBy_parse nulFree isDelimiter_of_fullStop
  have fewer : sentencesEndedBy (· == '.') (parseFileToLinkedList content) ≤
      (parseFileToLinkedList content).length := List.countP_le_length
  have count : (loadDocument content).sentenceCount =
      (parseFileToLinkedList content).length := by
    simp [loadDocument, CText.terminated_eq_self nulFree]
  rw [PassesIndexChecks, onDisk, validateWrite_passes_iff,
    lockSentenceLl_result cached, loaded, lockSentence_passes_iff, count,
    stops]
  have stopCount : content.count '.' = content.countP (· == '.') := rfl
  rw [stops] at fewer
  omega

/-- The file is on disk, and its document in the cache. -/
private def loadedServer (content : Text) : FileHandler :=
  { sampleServer content with
    fileCache := Store.empty.set sampleFile
      ⟨loadDocument content, 0, false⟩ }

theorem index_checks_two_stops :
    let s := loadedServer "Hi! A. B.".toList
    PassesIndexChecks s sampleFile nobody 2 ∧
      ¬ PassesIndexChecks s sampleFile nobody 3 := by
  intro s
  have onDisk : s.diskText sampleFile = some "Hi! A. B.".toList := by
    decide +kernel
  have exact := fun sentenceIndex =>
    @index_checks_iff s sampleFile _ "Hi! A. B.".toList (by decide) onDisk
      rfl rfl nobody sentenceIndex
  rw [exact, exact]
  decide +kernel

/-- The slot behind an exclamation mark is refused. -/
theorem exclaimed_slot_refused :
    ¬ ∀ (s : FileHandler) (filename : Filename) (file : LoadedFile)
        (content : Text),
      CText.nul ∉ content →
      s.diskText filename = some content →
      s.fileCache.get filename = some file →
      file.toDocument = loadDocument content →
      ∀ (username : Username) (sentenceIndex : Int),
        PassesIndexChecks s filename username sentenceIndex ↔
          0 ≤ sentenceIndex ∧
            sentenceIndex ≤ sentencesEndedBy isDelimiter
              (parseFileToLinkedList content) := by
  intro agrees
  have onDisk : (loadedServer "Hi!".toList).diskText sampleFile =
      some "Hi!".toList := by
    decide +kernel
  have atOne := agrees (loadedServer "Hi!".toList) sampleFile _
    "Hi!".toList (by decide) onDisk rfl rfl nobody 1
  have refused : ¬ PassesIndexChecks (loadedServer "Hi!".toList) sampleFile
      nobody 1 := by
    decide +kernel
  exact refused (atOne.mpr (by decide +kernel))

end Dfs.StorageServer
