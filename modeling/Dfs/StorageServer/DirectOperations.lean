import Dfs.StorageServer.Requests
import Dfs.StorageServer.Transitions

/-!
# Operations that no request reaches

The file handler also reads a document through the cache, looks for locks in
it, writes words into it without a session, closes its sentences and breaks
its locks.  `writeContent` is the body of `write_to_file_ll` on a loaded
document; `memory` is the number of allocations before the first one that fails.
-/

namespace Dfs.StorageServer

def maxGroups : Nat := 100

/-- The words up to a delimiter or the end of a line.  Groups of more than a
hundred words do not fit the array of the code. -/
structure WordGroup where
  words : List Text
  delimiter : Char
  deriving DecidableEq, Repr

def emptyGroup : WordGroup := ⟨[], CText.nul⟩

/-- The groups already closed and the one being filled. -/
structure GroupState where
  closed : List WordGroup
  current : WordGroup

namespace GroupState

def full (state : GroupState) : Bool := state.closed.length ≥ maxGroups

def addWord (state : GroupState) (word : Text) : GroupState :=
  { state with
    current := { state.current with words := state.current.words ++ [word] } }

def closeGroup (state : GroupState) (delimiter : Char) : GroupState :=
  { closed := state.closed ++ [{ state.current with delimiter := delimiter }]
    current := emptyGroup }

/-- A delimiter ends a word and its group; nothing is read beyond the last
group. -/
def splitWord : GroupState → Text → Text → GroupState
  | state, part, [] => if part = [] then state else state.addWord part
  | state, part, byte :: rest =>
      if isDelimiter byte then
        let state := (state.addWord (part ++ [byte])).closeGroup byte
        if state.full then state else splitWord state [] rest
      else splitWord state (part ++ [byte]) rest

def splitWords (state : GroupState) (words : List Text) : GroupState :=
  words.foldl
    (fun state word => if state.full then state else splitWord state [] word)
    state

/-- A line break closes a group that has words. -/
def splitLines : GroupState → List Text → GroupState
  | state, [] => state
  | state, [line] => state.splitWords (readWords [] line)
  | state, line :: next :: lines =>
      let state := state.splitWords (readWords [] line)
      if state.full ∨ state.current.words = [] then
        splitLines state (next :: lines)
      else splitLines (state.closeGroup '\n') (next :: lines)

end GroupState

def splitContentIntoGroups (content : Text) : List WordGroup :=
  let state := GroupState.splitLines ⟨[], emptyGroup⟩ (content.splitOn '\n')
  if state.full ∨ state.current.words = [] then state.closed
  else state.closed ++ [state.current]

def isShellScriptContent (content : Text) : Bool :=
  content.all fun byte => !isDelimiter byte

def hasQuotes (content : Text) : Bool :=
  content.contains '"' || content.contains '\''

def commandTokens (content : Text) : List Text :=
  (content.splitOnP fun byte => byte == ' ' || byte == '\t').filter (· ≠ [])

/-- One sentence for each command, the first in place of the target; whether
all were created. -/
def SentenceNode.writeCommands (target : SentenceNode) :
    Nat → List Text → List SentenceNode × Bool
  | _, [] => ([target], true)
  | 0, _ :: _ => ([target], false)
  | _ + 1, [token] =>
      ([{ target with words := [createWordNode token] }], true)
  | 1, token :: _ :: _ =>
      ([{ target with words := [createWordNode token] }], false)
  | memory + 2, token :: next :: tokens =>
      let (sentences, done) :=
        writeCommands (createSentenceNode CText.nul) memory (next :: tokens)
      ({ target with words := [createWordNode token] } :: sentences, done)

/-- The sentences of the groups after the first.  The last one takes the rest
of the target, and its delimiter if it has none. -/
def groupSentences (delimiter : Char) (remaining : List WordText) :
    Nat → List WordGroup → List SentenceNode × Bool
  | _, [] => ([], true)
  | memory, group :: groups =>
      if memory < group.words.length + 1 then ([], false)
      else
        let words := group.words.map createWordNode
        let sentence :=
          { createSentenceNode group.delimiter with words := words }
        let sentence :=
          if groups = [] ∧ remaining ≠ [] then
            { sentence with
              words := words ++ remaining
              delimiter :=
                if group.delimiter = CText.nul then delimiter
                else group.delimiter }
          else sentence
        let (sentences, done) := groupSentences delimiter remaining
          (memory - (group.words.length + 1)) groups
        (sentence :: sentences, done)

/-- The sentences in place of the target once the groups are inserted. -/
def SentenceNode.insertGroups (target : SentenceNode) (wordIndex : Nat)
    (memory : Nat) (first : WordGroup) (others : List WordGroup) :
    List SentenceNode × Bool :=
  let before := target.words.take wordIndex
  let remaining := target.words.drop wordIndex
  let inserted := (first.words.take memory).map createWordNode
  if memory < first.words.length then
    ([{ target with words := before ++ inserted ++ remaining }], false)
  else
    let memory := memory - first.words.length
    let target :=
      if first.delimiter = CText.nul then target
      else { target with delimiter := first.delimiter }
    if others = [] then
      let target := { target with words := before ++ inserted ++ remaining }
      if first.delimiter = CText.nul then ([target], true)
      else if memory = 0 then ([target], false)
      else ([target, createSentenceNode CText.nul], true)
    else
      let (sentences, done) :=
        groupSentences target.delimiter remaining memory others
      ({ target with words := before ++ inserted } :: sentences, done)

namespace Document

/-- Link the sentences in place of the one at this position. -/
def replaceSentence (document : Document) (position : Nat)
    (sentences : List SentenceNode) : Document :=
  { sentences := document.sentences.take position ++ sentences ++
      document.sentences.drop (position + 1)
    sentenceCount := document.sentenceCount + (sentences.length - 1) }

def insertContent (document : Document) (position : Nat)
    (target : SentenceNode) (wordIndex : Nat) (content : Text)
    (memory : Nat) : Document × Int :=
  match splitContentIntoGroups content with
  | [] => (document, 0)
  | first :: others =>
      let (sentences, done) :=
        target.insertGroups wordIndex memory first others
      (document.replaceSentence position sentences, if done then 0 else -1)

/-- The write once the target sentence is found or created.  Commands are
copied to be counted, and once more to be split. -/
def writeSentence (document : Document) (position : Nat)
    (target : SentenceNode) (wordIndex : Int) (content : Text)
    (memory : Nat) : Document × Int :=
  if wordIndex < 0 ∨ wordIndex > target.words.length then
    (document, errWordOutOfRange)
  else if isShellScriptContent content ∧ hasQuotes content = false ∧
      wordIndex = 0 ∧ target.words = [] then
    if memory = 0 then (document, -1)
    else if (commandTokens content).length > 1 then
      if memory = 1 then (document, -1)
      else
        let (sentences, done) :=
          target.writeCommands (memory - 2) (commandTokens content)
        (document.replaceSentence position sentences, if done then 0 else -1)
    else
      document.insertContent position target wordIndex.toNat content
        (memory - 1)
  else document.insertContent position target wordIndex.toNat content memory

/-- The body of `write_to_file_ll` on a loaded document. -/
def writeContent (document : Document) (sentenceIndex wordIndex : Int)
    (content : Text) (memory : Nat) : Document × Int :=
  if sentenceIndex < 0 ∨ sentenceIndex > document.sentenceCount then
    (document, errSentenceOutOfRange)
  else
    match document.sentenceAt sentenceIndex with
    | some target =>
        document.writeSentence sentenceIndex.toNat target wordIndex content
          memory
    | none =>
        if wordIndex ≠ 0 then (document, errWordOutOfRange)
        else
          match memory with
          | 0 => (document, -1)
          | memory + 1 =>
              let target := createSentenceNode CText.nul
              let appended : Document :=
                { sentences := document.sentences ++ [target]
                  sentenceCount := document.sentenceCount + 1 }
              appended.writeSentence document.sentences.length target
                wordIndex content memory

/-- The body of `ensure_sentence_delimiter_ll` on a loaded document. -/
def ensureDelimiter (document : Document) (sentenceIndex : Int) :
    Document × Int :=
  match document.sentenceAt sentenceIndex with
  | none => (document, errSentenceOutOfRange)
  | some sentence =>
      if sentence.delimiter = CText.nul then
        (document.setSentence sentenceIndex
          { sentence with delimiter := '.' }, 0)
      else (document, 0)

/-- The body of `force_unlock_all_sentences_ll` on a loaded document. -/
def forceUnlock (document : Document) : Document :=
  { document with
    sentences := document.sentences.map fun sentence =>
      if sentence.isLocked then
        { sentence with isLocked := false, lockedBy := nobody }
      else sentence }

def hasLocked (document : Document) : Bool :=
  document.sentences.any SentenceNode.isLocked

end Document

/-- All exits give the reference back. -/
def writeToFileLl (s : FileHandler) (filename : Filename)
    (sentenceIndex wordIndex : Int) (content : Text) (memory : Nat) :
    FileHandler × Int :=
  match getFileFromCache s filename with
  | none => (s, errFileNotFound)
  | some (s, file) =>
      let (document, result) :=
        file.writeContent sentenceIndex wordIndex content memory
      (fileRelease (s.cache filename { file with toDocument := document })
        filename, result)

/-- No exit gives the reference back. -/
def ensureSentenceDelimiterLl (s : FileHandler) (filename : Filename)
    (sentenceIndex : Int) : FileHandler × Int :=
  match getFileFromCache s filename with
  | none => (s, errFileNotFound)
  | some (s, file) =>
      let (document, result) := file.ensureDelimiter sentenceIndex
      (s.cache filename { file with toDocument := document }, result)

/-- The reference is kept. -/
def forceUnlockAllSentencesLl (s : FileHandler) (filename : Filename) :
    FileHandler × Int :=
  match getFileFromCache s filename with
  | none => (s, errFileNotFound)
  | some (s, file) =>
      (s.cache filename { file with toDocument := file.forceUnlock }, 0)

/-- Neither answer gives the reference back. -/
def fileHasLockedSentences (s : FileHandler) (filename : Filename) :
    FileHandler × Bool :=
  match getFileFromCache s filename with
  | none => (s, false)
  | some (s, file) => (s, file.hasLocked)

/-- The time is not saved to the metadata file. -/
def setAccessedTime (s : FileHandler) (filename : Filename)
    (now : TimeText) : FileHandler :=
  updateMetadata s filename fun record => { record with accessedTime := now }

/-- The byte 255 is taken for the end of the file. -/
def readFileFromDiskLl (s : FileHandler) (filename : Filename)
    (maxSize : Int) (now : TimeText) : FileHandler × Except Int Text :=
  match s.disk.read (getFilePath s.storage filename) with
  | none => (s, .error errFileNotFound)
  | some stored =>
      let content := stored.takeWhile fun byte => CText.charValue byte ≠ -1
      (setAccessedTime s filename now,
        .ok (content.take (maxSize - 1).toNat))

/-- The reference taken here is given back, the one of the search for locks is
not. -/
def readFileLl (s : FileHandler) (filename : Filename) (maxSize : Int)
    (now : TimeText) : FileHandler × Except Int Text :=
  match getFileFromCache s filename with
  | none => (s, .error errFileNotFound)
  | some (s, file) =>
      let (s, locked) := fileHasLockedSentences s filename
      if locked then
        readFileFromDiskLl (fileRelease s filename) filename maxSize now
      else
        (fileRelease (setAccessedTime s filename now) filename,
          .ok ((undoBackupText file.sentences).take (maxSize - 1).toNat))

end Dfs.StorageServer
